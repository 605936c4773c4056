import Huks.Engine.ThreeStageCipher
import Huks.Lib.OutBuffer
import Mathlib.Algebra.Ring.Nat

namespace Huks

open OutBuffer

-- What OpenSSL makes of a message in GCM or CCM. In these modes an update writes as many bytes as it
-- reads, and the final call writes none.
structure EvpAead where
  setLength     : UInt32 → Bool
  updateAad     : Bytes → Bool
  update        : Bytes → Option Bytes
  final         : Bool
  tag           : Option { tag : Bytes // tag.length = 16 }
  length_update : ∀ {message cipherText}, update message = some cipherText → cipherText.length = message.length

namespace EvpAead

variable (evp : EvpAead)

-- `EVP_EncryptUpdate` to the start of the buffer. The length is an `int`.
def encryptUpdate (message : Bytes) : OutM HksErrorCode UInt32 :=
  if 2 ^ 31 ≤ message.length then
    refuse .cryptoEngineError
  else
    match evp.update message with
    | none            => refuse .cryptoEngineError
    | some cipherText => do
      writeAt 0 cipherText
      return cipherText.size

def encryptFinal : OutM HksErrorCode PUnit :=
  if evp.final then return else refuse .cryptoEngineError

-- `EVP_CTRL_AEAD_GET_TAG`
def getTag (tagAead : Nat) : OutM HksErrorCode PUnit :=
  match evp.tag with
  | none     => refuse .cryptoEngineError
  | some tag => writeAt tagAead tag

end EvpAead

section Openssl

variable (evp : EvpAead)

def opensslAesAeadEncryptFinalGCM (message : Bytes) (tagAead : Nat) : OutM HksErrorCode PUnit := do
  let outLen ← if message = [] then pure 0 else evp.encryptUpdate message
  setSize outLen
  evp.encryptFinal
  evp.getTag tagAead

-- The message is announced with its length in CCM.
def opensslAesAeadCipherUpdate (aad input : Bytes) : OutM HksErrorCode UInt32 :=
  if ¬evp.setLength input.size then
    refuse .cryptoEngineError
  else if aad ≠ [] ∧ ¬evp.updateAad aad then
    refuse .cryptoEngineError
  else
    evp.encryptUpdate input

def opensslAesAeadCipherFinal (aad input : Bytes) (outSize : UInt32) (tagAead : Nat) :
    OutM HksErrorCode UInt32 := do
  let outSize ← if input = [] then pure outSize else opensslAesAeadCipherUpdate evp aad input
  evp.encryptFinal
  evp.getTag tagAead
  return outSize

end Openssl

-- The library in CCM: the context of an encryption, and the decryption as a whole.
structure CcmCipher where
  encryptInit : Bytes → HksUsageSpec → Except HksErrorCode EvpAead
  decrypt     : Bytes → HksUsageSpec → Bytes → Bytes → OutM HksErrorCode PUnit

-- `HksOpensslAesEncrypt` for CCM. The size of the blob is set when nothing can fail any more.
def hksOpensslAesEncryptCcm (ccm : CcmCipher) (key : Bytes) (usageSpec : HksUsageSpec) (message : Bytes)
    (tagAead : Nat) : OutM HksErrorCode PUnit := do
  let evp ← reading (checked (ccm.encryptInit key usageSpec))
  let out ← get
  let size ← opensslAesAeadCipherFinal evp usageSpec.aad message out.size tagAead
  setSize size

def hksCryptoHalEncryptCcm (ccm : CcmCipher) (key : Bytes) (usageSpec : HksUsageSpec) (message : Bytes)
    (tagAead : Nat) : OutM HksErrorCode PUnit := do
  let out ← get
  if key = [] ∨ message = [] ∨ out.size = 0 then
    refuse .invalidArgument
  else
    hksOpensslAesEncryptCcm ccm key usageSpec message tagAead

end Huks
