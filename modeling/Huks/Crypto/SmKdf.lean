import Huks.Engine.CryptoAdapter
import Huks.Lib.OutBuffer

namespace Huks.InPlace

open OutBuffer

def hksDigestSm3Len : UInt32 := 32

-- `EVP_Digest` with `EVP_sm3`: the digest of a text, and which of the calls fail
structure Sm3Library where
  sm3      : Bytes → Bytes
  sm3_size : ∀ msg, (sm3 msg).length = 32
  fails    : Nat → Bool

section

variable (lib : Sm3Library)

-- `HksOpensslHash` with `HKS_DIGEST_SM3`, as the `call`-th one
def hksOpensslHash (call : Nat) (msg : Bytes) : Except HksErrorCode Bytes :=
  if msg = [] then
    throw .invalidArgument
  else if lib.fails call then
    throw .cryptoEngineError
  else
    return lib.sm3 msg

def appendKekAndFactor (kekData factor : Bytes) : Except (Stop HksErrorCode) Bytes := do
  if factor = [] then throw (.error .invalidArgument)
  if kekData = [] then throw (.error .invalidArgument)
  let size := kekData.size + factor.size
  if ¬mallocOk size.toNat then throw (.error .mallocFail)
  inBlock (.replicate size.toNat 0) do
    discard <| memcpyInto 0 size.toNat kekData
    discard <| memcpyInto kekData.length (size - kekData.size).toNat factor

-- The variables of the loop of `HksOpensslSmKdf`
structure SmKdfLoop where
  inputHash    : Bytes
  digestLength : UInt32
  counter      : UInt32
  deriving DecidableEq, Repr

def counterBytes (counter : UInt32) : Bytes :=
  [1, 2, 3, 4].map fun j : UInt32 => (counter >>> (32 - 8 * j) &&& 0xFF).toUInt8

-- One round of the loop, for a key of `size` bytes
def smKdfRound (appendedSize index size : UInt32) (s : SmKdfLoop) (i : Nat) : OutM HksErrorCode SmKdfLoop := do
  let inputHash ← reading <| inBlock s.inputHash do
    discard <| memcpyInto appendedSize.toNat 4 (counterBytes s.counter)
  let cdgst ← reading <| checked <| (hksOpensslHash lib i inputHash).orError .cryptoEngineError
  let digestLength :=
    if i.toUInt32 = index - 1 ∧ size % hksDigestSm3Len ≠ 0 then size % hksDigestSm3Len else s.digestLength
  discard <| memcpyInto (hksDigestSm3Len * i.toUInt32).toNat digestLength.toNat (cdgst.take digestLength.toNat)
  return { inputHash, digestLength, counter := s.counter + 1 }

def hksOpensslSmKdf (mainKey info : Bytes) : OutM HksErrorCode PUnit := do
  let size := (← get).size
  if mainKey = [] ∨ size = 0 then
    refuse .invalidArgument
  else
    let appendedKeyData ← reading <|
      (appendKekAndFactor mainKey info).mapError fun
        | .error _ => .error .invalidArgument
        | .outside => .outside
    let hashSize := appendedKeyData.size + 4
    if ¬mallocOk hashSize.toNat then
      refuse .mallocFail
    else
      let inputHash ← reading <| inBlock (.replicate hashSize.toNat 0) do
        discard <| memcpyInto 0 hashSize.toNat appendedKeyData
      let index := (size - 1) / hksDigestSm3Len + 1
      discard <| (List.range index.toNat).foldlM (smKdfRound lib appendedKeyData.size index size)
        { inputHash, digestLength := hksDigestSm3Len, counter := 1 }

end

end Huks.InPlace
