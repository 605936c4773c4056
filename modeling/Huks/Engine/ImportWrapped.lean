import Huks.Engine.SmImportWrapKey
import Huks.Lib.StateError

namespace Huks

-- The parameters of an AEAD cipher behind `algParam` of a usage spec.
structure HksAeadParam where
  aad        : Bytes
  nonce      : Bytes
  payloadLen : UInt32
  tagDec     : Bytes
  deriving DecidableEq, Repr

-- The answers of a GCM context of OpenSSL, which holds what the earlier calls on it were given.
structure OpensslGcm where
  decryptInit   : (key nonce : Bytes) → Bool
  updateAad     : (key nonce aad : Bytes) → Bool
  decryptUpdate : (key nonce aad message : Bytes) → Option Bytes
  setTag        : (tag : Bytes) → Bool
  decryptFinal  : (key nonce aad message tag : Bytes) → Bool

-- The library writes `written` bytes to a buffer of `size` bytes.
structure BufferWrite where
  size    : Nat
  written : Nat
  deriving DecidableEq, Repr

def BufferWrite.Fits (w : BufferWrite) : Prop := w.written ≤ w.size

instance (w : BufferWrite) : Decidable w.Fits := inferInstanceAs (Decidable (_ ≤ _))

-- The state are the writes of the decryptions so far.
abbrev WrapM := EStateM HksErrorCode (List BufferWrite)

def hksAesKeyBytes256 : Nat := 32

-- The key sizes of `GetGcmCipherType`.
def isGcmKeySize (keySize : Nat) : Bool := keySize = 16 ∨ keySize = 24 ∨ keySize = 32

namespace ImportWrapped

variable (env : WrapEnv) (crypto : SmCrypto) (gcm : OpensslGcm)

def opensslAesAeadInit (key : Bytes) (aeadParam : HksAeadParam) : Except HksErrorCode Unit :=
  if isGcmKeySize key.length ∧ gcm.decryptInit key aeadParam.nonce then
    .ok ()
  else
    .error .cryptoEngineError

-- The plaintext is written before the tag is looked at, and nothing compares the two sizes.
def opensslAesAeadDecryptFinal (key : Bytes) (aeadParam : HksAeadParam) (message : Bytes)
    (plainTextSize : Nat) : WrapM Bytes := do
  let ⟨aad, nonce, _, tagDec⟩ := aeadParam
  if ¬gcm.updateAad key nonce aad then
    throw .cryptoEngineError
  else
    match gcm.decryptUpdate key nonce aad message with
    | none => throw .cryptoEngineError
    | some plainText =>
      modify (· ++ [⟨plainTextSize, plainText.length⟩])
      if ¬gcm.setTag tagDec ∨ ¬gcm.decryptFinal key nonce aad message tagDec then
        throw .cryptoEngineError
      else
        return plainText

-- The branch of GCM, which the usage spec of an unwrap asks for.
def hksOpensslAesDecrypt (key : Bytes) (aeadParam : HksAeadParam) (message : Bytes)
    (plainTextSize : Nat) : WrapM Bytes := do
  MonadExcept.ofExcept (opensslAesAeadInit gcm key aeadParam)
  opensslAesAeadDecryptFinal gcm key aeadParam message plainTextSize

def hksCryptoHalDecrypt (key : Bytes) (aeadParam : HksAeadParam) (message : Bytes)
    (plainTextSize : Nat) : WrapM Bytes := do
  MonadExcept.ofExcept (decryptCheckParam key message plainTextSize)
  hksOpensslAesDecrypt gcm key aeadParam message plainTextSize

def buildDecryptUsageSpecOfUnwrap (aad nonce aeadTag : Bytes) (payloadLen : UInt32) :
    HksAeadParam where
  aad        := aad
  nonce      := nonce
  payloadLen := payloadLen
  tagDec     := aeadTag

def checkWrappingKeyIsUsedForUnwrap (wrappingKey : Bytes) : Except HksErrorCode Unit := do
  let nodeParamSet ← (env.hksGenerateKeyNode wrappingKey).elim (.error .corruptFile) .ok
  let purpose ← (getUInt32 nodeParamSet HksTag.purpose).orError .checkGetPurposeFail
  if purpose ≠ HksKeyPurpose.unwrap then
    throw .invalidUsageOfKey
  else
    return ()

def getPublicKeyInnerFormat (wrappingKey wrappedKeyData : Bytes) (partOffset : Nat) :
    Except HksErrorCode (Bytes × Nat) := do
  let peerPubKeyPart ← wrappedBlob wrappedKeyData partOffset
  let nodeParamSet ← (env.hksGenerateKeyNode wrappingKey).elim (.error .corruptFile) .ok
  let outPublicKey ← env.getHksPubKeyInnerFormat nodeParamSet peerPubKeyPart
  return (outPublicKey, partOffset + 1)

-- The algorithm and the key size of a suite.
def agreeSpec (suite : UInt32) : HksKeySpec :=
  if suite = HksUnwrapSuite.ecdhAes256GcmNopadding then
    ⟨HksKeyAlg.ecdh, 256⟩
  else if suite = HksUnwrapSuite.sm2Sm4128CbcPkcs7 ∨
      suite = HksUnwrapSuite.sm2Sm4128CbcPkcs7WithVerifyDigSm3 then
    ⟨HksKeyAlg.sm2, 256⟩
  else
    ⟨HksKeyAlg.x25519, 256⟩

def genAgreeKeyParamSetFromUnwrapSuite (suite : UInt32) (inParamSet : HksParamSet) :
    Except HksErrorCode HksParamSet := do
  let paramSet ← hksAddParams hksInitParamSet [
    .ofUInt32 HksTag.algorithm (agreeSpec suite).algType,
    .ofUInt32 HksTag.purpose HksKeyPurpose.agree,
    .ofUInt32 HksTag.keySize (agreeSpec suite).keyLen]
  hksBuildParamSet (← addProcessIdentityInfoToParamSet inParamSet paramSet)

def agreeSharedSecretWithPeerPublicKey (wrappingKey publicKey : Bytes) (unwrapSuite : UInt32)
    (inParamSet : HksParamSet) : Except HksErrorCode Bytes := do
  checkWrappingKeyIsUsedForUnwrap env wrappingKey
  let agreeKeyParamSet ← genAgreeKeyParamSetFromUnwrapSuite unwrapSuite inParamSet
  env.hksCoreAgreeKey agreeKeyParamSet wrappingKey publicKey

-- The cipher text part of a decryption and its parameters.
structure AeadParts where
  param   : HksAeadParam
  encData : Bytes
  deriving DecidableEq, Repr

def aeadParts (aad nonce tag encData : Bytes) : AeadParts where
  param   := buildDecryptUsageSpecOfUnwrap aad nonce tag encData.size
  encData := encData

def parseKekDecryptParams (wrappedKeyData : Bytes) (partOffset : Nat) :
    Except HksErrorCode (AeadParts × Nat) := do
  let agreeKeyAadPart ← wrappedBlob wrappedKeyData partOffset
  let agreeKeyNoncePart ← wrappedBlob wrappedKeyData (partOffset + 1)
  let agreeKeyTagPart ← wrappedBlob wrappedKeyData (partOffset + 2)
  let kekEncDataPart ← wrappedBlob wrappedKeyData (partOffset + 3)
  return (aeadParts agreeKeyAadPart agreeKeyNoncePart agreeKeyTagPart kekEncDataPart, partOffset + 4)

def decryptKekWithAgreeSharedSecret (wrappedKeyData agreeSharedSecret : Bytes) (partOffset : Nat) :
    WrapM (Bytes × Nat) := do
  let (parts, partOffset) ← MonadExcept.ofExcept (parseKekDecryptParams wrappedKeyData partOffset)
  let kek ←
    hksCryptoHalDecrypt gcm agreeSharedSecret parts.param parts.encData hksAesKeyBytes256
  return (kek, partOffset)

def parseKeyMaterialSize (keyMatLenBlobPart : Bytes) : Except HksErrorCode UInt32 :=
  if keyMatLenBlobPart.length ≠ 4 then
    .error .invalidWrappedFormat
  else if le32 keyMatLenBlobPart = 0 ∨ le32 keyMatLenBlobPart > maxKeySize then
    .error .invalidWrappedFormat
  else
    .ok (le32 keyMatLenBlobPart)

def parseImportedKeyDecryptParams (wrappedKeyData : Bytes) (partOffset : Nat) :
    Except HksErrorCode (AeadParts × UInt32 × Nat) := do
  let kekAadPart ← wrappedBlob wrappedKeyData partOffset
  let kekNoncePart ← wrappedBlob wrappedKeyData (partOffset + 1)
  let kekTagPart ← wrappedBlob wrappedKeyData (partOffset + 2)
  let keyMatLenBlobPart ← wrappedBlob wrappedKeyData (partOffset + 3)
  let keyMaterialSize ← parseKeyMaterialSize keyMatLenBlobPart
  let originKeyEncDataPart ← wrappedBlob wrappedKeyData (partOffset + 4)
  return (aeadParts kekAadPart kekNoncePart kekTagPart originKeyEncDataPart, keyMaterialSize,
    partOffset + 5)

def decryptImportedKeyWithKek (wrappedKeyData kek : Bytes) (partOffset : Nat) :
    WrapM (Bytes × Nat) := do
  let (parts, keyMaterialSize, partOffset) ←
    MonadExcept.ofExcept (parseImportedKeyDecryptParams wrappedKeyData partOffset)
  let originKey ←
    hksCryptoHalDecrypt gcm kek parts.param parts.encData keyMaterialSize.toNat
  return (originKey, partOffset)

def checkAndGetWrappedKeyUnwrapAlgSuite (paramSet : HksParamSet) : Except HksErrorCode UInt32 := do
  let algSuite ← (getUInt32 paramSet HksTag.unwrapAlgorithmSuite).orError .checkGetAlgFail
  if algSuite ∈ [HksUnwrapSuite.x25519Aes256GcmNopadding, HksUnwrapSuite.ecdhAes256GcmNopadding,
      HksUnwrapSuite.sm2Sm4128CbcPkcs7WithVerifyDigSm3, HksUnwrapSuite.sm2Sm4128CbcPkcs7] then
    return algSuite
  else
    throw .invalidAlgorithm

def hksCoreCheckImportWrappedKeyParams (key wrappedKeyData : Bytes) (paramSet : HksParamSet) :
    Except HksErrorCode UInt32 := do
  if key = [] then
    throw .invalidArgument
  else
    let unwrapSuite ← checkAndGetWrappedKeyUnwrapAlgSuite paramSet
    hksCheckWrappedDataFormatValidity wrappedKeyData hksImportWrappedKeyTotalBlobs none
    env.coreCheckGenKeyParams paramSet
    return unwrapSuite

-- The import of the suites that agree on a secret with the peer.
def importWithAgreedSecret (keyAlias wrappingKey wrappedKeyData : Bytes) (paramSet : HksParamSet)
    (unwrapSuite : UInt32) : WrapM Bytes := do
  let (peerPublicKey, partOffset) ←
    MonadExcept.ofExcept (getPublicKeyInnerFormat env wrappingKey wrappedKeyData 0)
  let agreeSharedSecret ← MonadExcept.ofExcept
    (agreeSharedSecretWithPeerPublicKey env wrappingKey peerPublicKey unwrapSuite paramSet)
  let (kek, partOffset) ←
    decryptKekWithAgreeSharedSecret gcm wrappedKeyData agreeSharedSecret partOffset
  let (originKey, _) ← decryptImportedKeyWithKek gcm wrappedKeyData kek partOffset
  MonadExcept.ofExcept (env.hksCoreImportKey keyAlias originKey paramSet)

end ImportWrapped

open ImportWrapped in
def hksCoreImportWrappedKey (env : WrapEnv) (crypto : SmCrypto) (gcm : OpensslGcm)
    (keyAlias wrappingKey wrappedKeyData : Bytes) (paramSet : HksParamSet) : WrapM Bytes := do
  let unwrapSuite ←
    MonadExcept.ofExcept (hksCoreCheckImportWrappedKeyParams env wrappingKey wrappedKeyData paramSet)
  if unwrapSuite = HksUnwrapSuite.sm2Sm4128CbcPkcs7WithVerifyDigSm3 ∨
      unwrapSuite = HksUnwrapSuite.sm2Sm4128CbcPkcs7 then
    let (_, keyOut) ← MonadExcept.ofExcept
      (hksSmImportWrappedKey env crypto keyAlias paramSet wrappingKey wrappedKeyData)
    return keyOut
  else
    importWithAgreedSecret env gcm keyAlias wrappingKey wrappedKeyData paramSet unwrapSuite

end Huks
