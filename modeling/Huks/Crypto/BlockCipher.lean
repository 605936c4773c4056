import Huks.Engine.ThreeStageCipher
import Huks.Lib.OutBuffer
import Mathlib.Algebra.Ring.Nat

namespace Huks

open OutBuffer

-- A cipher of OpenSSL that works through its input block by block. `stream` is what comes out for an
-- input, byte for byte, and `final` what the final call adds to the output for the whole input, if it
-- does not refuse. A decryption may hold back a whole last block, as the padding could be in it.
structure EvpCipher where
  blockSize     : Nat
  isEncrypt     : Bool
  padded        : Bool
  holdsLast     : Bool
  stream        : Bytes → Bytes
  final         : Bytes → Option Bytes
  length_stream : ∀ input, (stream input).length = input.length
  final_nothing : ∀ {input bytes}, ¬padded ∨ blockSize = 1 → final input = some bytes → bytes = []
  final_padding : ∀ {input bytes}, padded ∧ blockSize ≠ 1 ∧ isEncrypt → final input = some bytes →
    bytes.length = blockSize
  holds_block   : holdsLast → padded ∧ ¬isEncrypt ∧ blockSize ≠ 1

namespace EvpCipher

variable (C : EvpCipher)

-- How many of `n` bytes of input have gone through the cipher; the rest is held back.
def whole (n : Nat) : Nat :=
  if C.holdsLast ∧ n % C.blockSize = 0 then n - C.blockSize else n - n % C.blockSize

-- What an update adds to the output, behind the input `fed` of the calls before
def emitted (fed message : Bytes) : Bytes :=
  slice (C.stream (fed ++ message)) (C.whole fed.length)
    (C.whole (fed.length + message.length) - C.whole fed.length)

-- `EVP_EncryptUpdate` and `EVP_DecryptUpdate` to the start of the buffer. The length is an `int`.
def evpUpdate (fed message : Bytes) : OutM HksErrorCode Bytes :=
  if 2 ^ 31 ≤ message.length then
    refuse .cryptoEngineError
  else do
    writeAt 0 (C.emitted fed message)
    return C.emitted fed message

-- `OpensslBlockCipherEncryptUpdate` and `OpensslBlockCipherDecryptUpdate`, with the input fed to the
-- cipher from now on
def opensslBlockCipherUpdate (fed message : Bytes) : OutM HksErrorCode Bytes := do
  let out : Bytes ← C.evpUpdate fed message
  setSize (Bytes.size out)
  return fed ++ message

def opensslBlockCipherHandleFinalThree (fed input : Bytes) : OutM HksErrorCode PUnit := do
  let out : Bytes ← if input = [] then pure [] else C.evpUpdate fed input
  setSize (Bytes.size out)
  match C.final (fed ++ input) with
  | none      => refuse .cryptoEngineError
  | some last => do
    writeAt out.length last
    setSize (Bytes.size out + Bytes.size last)

end EvpCipher

end Huks
