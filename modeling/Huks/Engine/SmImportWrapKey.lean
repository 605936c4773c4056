import Huks.Common.WrappedData
import Huks.Engine.CryptoAdapter
import Huks.Lib.FixedCodec

namespace Huks

namespace HksUnwrapSuite
def x25519Aes256GcmNopadding          : UInt32 := 1
def ecdhAes256GcmNopadding            : UInt32 := 2
def sm2Sm4128CbcPkcs7WithVerifyDigSm3 : UInt32 := 3
def sm2Sm4128CbcPkcs7                 : UInt32 := 4
end HksUnwrapSuite

-- What the import of a wrapped key asks of the key blob code and of the import of a plain key.
structure WrapEnv where
  -- The param set of the node that `HksGenerateKeyNode` makes of a key.
  hksGenerateKeyNode      : Bytes → Option HksParamSet
  -- The check of the param set of the key to import.
  coreCheckGenKeyParams   : HksParamSet → Except HksErrorCode Unit
  getHksPubKeyInnerFormat : HksParamSet → Bytes → Except HksErrorCode Bytes
  hksCoreAgreeKey         : HksParamSet → Bytes → Bytes → Except HksErrorCode Bytes
  hksCoreImportKey        : Bytes → Bytes → HksParamSet → Except HksErrorCode Bytes
  -- What lies in the memory that `HksMalloc` returns.
  fresh                   : (size : Nat) → FixedBytes size

-- The algorithms of the crypto library. `sm2Decrypt` knows the size of its output buffer, and
-- `sm4CbcDecrypt` takes the key, the initial vector and the cipher text and returns the plaintext
-- of which the library has already taken the padding off.
structure SmCrypto where
  sm2Decrypt    : Bytes → HksUsageSpec → Bytes → Nat → Option Bytes
  sm2Verify     : Bytes → HksUsageSpec → Bytes → Bytes → Bool
  sm3           : Bytes → Option Bytes
  hmacSm3       : Bytes → Bytes → Option Bytes
  sm4CbcDecrypt : Bytes → Bytes → Bytes → Option Bytes

structure HksSmWrappedKeyDataBlob where
  peerPublicKey       : Bytes := []
  kekAndSignData      : Bytes := []
  kekData             : Bytes := []
  signData            : Bytes := []
  deriveKekData1      : Bytes := []
  deriveKekData2      : Bytes := []
  originKey           : Bytes := []
  signatureDataLength : UInt32 := 0
  deriving DecidableEq, Repr

def hksPaddingSupplenment : Nat := 16
def hksSm4KeyBytes        : Nat := 16
def hksDigestSm3Len       : Nat := 32

abbrev wrappedBlob (wrappedKeyData : Bytes) (partOffset : Nat) : Except HksErrorCode Bytes :=
  hksGetBlobFromWrappedData wrappedKeyData partOffset hksImportWrappedKeyTotalBlobs

def cryptoAnswer {α : Type} (answer : Option α) : Except HksErrorCode α :=
  answer.elim (.error .cryptoEngineError) .ok

-- `EncryptCheckParam`, for a key, a message and an output buffer.
def decryptCheckParam (key message : Bytes) (plainTextSize : Nat) : Except HksErrorCode Unit :=
  if key = [] ∨ message = [] ∨ plainTextSize = 0 then .error .invalidArgument else .ok ()

-- The loop that takes the identity of the caller over from `inParamSet`.
def addProcessIdentityInfoToParamSet (inParamSet paramSet : HksParamSet) :
    Except HksErrorCode HksParamSet :=
  [HksTag.accessTokenId, HksTag.userId, HksTag.processName].foldlM transfer paramSet
where
  transfer (paramSet : HksParamSet) (tag : UInt32) : Except HksErrorCode HksParamSet := do
    let tmpParam ← (hksGetParam inParamSet tag).orError .badState
    let tmpParam :=
      if tmpParam.isBytes then tmpParam.setData (.ext (inParamSet.blob tmpParam)) else tmpParam
    (hksAddParams paramSet [tmpParam]).orError .badState

namespace SmImport

-- A call that allocates a buffer of `size` bytes before it goes on.
def hksMalloc (size : Nat) : Except HksErrorCode Unit :=
  if mallocOk size then .ok () else .error .mallocFail

variable (env : WrapEnv) (crypto : SmCrypto)

def getDataLenFromWrappedData (wrappedKeyData : Bytes) (partOffset : Nat) :
    Except HksErrorCode UInt32 := do
  let originDataLenBlobPart ← wrappedBlob wrappedKeyData partOffset
  if originDataLenBlobPart.length ≠ 4 then
    throw .invalidWrappedFormat
  else if le32 originDataLenBlobPart > maxKeySize then
    throw .invalidWrappedFormat
  else
    return le32 originDataLenBlobPart

def getPublicKeyAndSignDataLength (wrappedKeyData : Bytes) (nodeParamSet : HksParamSet)
    (dataParams : HksSmWrappedKeyDataBlob) (partOffset : Nat) :
    Except HksErrorCode (HksSmWrappedKeyDataBlob × Nat) := do
  let peerPubKeyPart ← wrappedBlob wrappedKeyData partOffset
  let signatureDataLength ← getDataLenFromWrappedData wrappedKeyData (partOffset + 1)
  let peerPublicKey ← env.getHksPubKeyInnerFormat nodeParamSet peerPubKeyPart
  return ({ dataParams with signatureDataLength, peerPublicKey }, partOffset + 2)

def getSm2DecryptParamSet (inParamSet : HksParamSet) : Except HksErrorCode HksParamSet := do
  let paramSet ← hksAddParams hksInitParamSet [
    .ofUInt32 HksTag.algorithm HksKeyAlg.sm2,
    .ofUInt32 HksTag.purpose HksKeyPurpose.decrypt,
    .ofUInt32 HksTag.keySize 256,
    .ofUInt32 HksTag.digest HksKeyDigest.none,
    .ofUInt32 HksTag.padding HksKeyPadding.none]
  hksBuildParamSet (← addProcessIdentityInfoToParamSet inParamSet paramSet)

def decryptKekWithSm2 (wrappedKeyData : Bytes) (paramSet nodeParamSet : HksParamSet)
    (dataParams : HksSmWrappedKeyDataBlob) (partOffset : Nat) :
    Except HksErrorCode (HksSmWrappedKeyDataBlob × Nat) := do
  let kekEncDataPart ← wrappedBlob wrappedKeyData partOffset
  let kekOriginDataLen ← getDataLenFromWrappedData wrappedKeyData (partOffset + 1)
  let plainTextSize := (kekOriginDataLen + dataParams.signatureDataLength).toNat
  hksMalloc plainTextSize
  let decryptParamSet ← getSm2DecryptParamSet paramSet
  let rawKey ← hksGetRawKey nodeParamSet
  let usageSpec ← hksBuildCipherUsageSpec decryptParamSet
  decryptCheckParam rawKey kekEncDataPart plainTextSize
  let plainText ← cryptoAnswer (crypto.sm2Decrypt rawKey usageSpec kekEncDataPart plainTextSize)
  if dataParams.signatureDataLength = 0 then
    return ({ dataParams with kekData := plainText }, partOffset + 2)
  else
    return ({ dataParams with kekAndSignData := plainText }, partOffset + 2)

def splitKekAndSignData (dataParams : HksSmWrappedKeyDataBlob) :
    Except HksErrorCode HksSmWrappedKeyDataBlob := do
  let signDataLen := dataParams.signatureDataLength.toNat
  if dataParams.kekAndSignData.length < signDataLen then
    throw .invalidArgument
  else
    let kekSize := dataParams.kekAndSignData.length - signDataLen
    hksMalloc kekSize
    if signDataLen ≠ 0 then hksMalloc signDataLen
    return { dataParams with
      kekData  := dataParams.kekAndSignData.take kekSize
      signData := dataParams.kekAndSignData.drop kekSize }

def verifyUsageSpec : HksUsageSpec where
  algType := HksKeyAlg.sm2
  purpose := HksKeyPurpose.verify
  digest  := HksKeyDigest.sm3
  padding := HksKeyPadding.none

def verifyKekBySm2 (dataParams : HksSmWrappedKeyDataBlob) : Except HksErrorCode Unit := do
  let message ← cryptoAnswer (crypto.sm3 dataParams.kekData)
  if dataParams.peerPublicKey = [] ∨ message = [] ∨ dataParams.signData = [] then
    throw .invalidArgument
  else if crypto.sm2Verify dataParams.peerPublicKey verifyUsageSpec message dataParams.signData then
    return ()
  else
    throw .cryptoEngineError

-- The counter of a round of the derivation, the highest byte first.
def counterBytes (counter : Nat) : Bytes := (toBytes32 counter.toUInt32).reverse

def hksOpensslSmKdf (mainKey info : Bytes) (derivedSize : Nat) : Except HksErrorCode Bytes := do
  if mainKey = [] ∨ derivedSize = 0 ∨ info = [] ∨ ¬mallocOk (mainKey.length + info.length) then
    throw .invalidArgument
  else
    hksMalloc (mainKey.length + info.length + 4)
    let digests ← (List.range ((derivedSize - 1) / hksDigestSm3Len + 1)).mapM fun i =>
      cryptoAnswer (crypto.sm3 (mainKey ++ info ++ counterBytes (i + 1)))
    return digests.flatten.take derivedSize

def deriveKeyBySm3 (srcData factor : Bytes) : Except HksErrorCode Bytes :=
  hksOpensslSmKdf crypto srcData factor hksSm4KeyBytes

def deriveKeyByFactor (wrappedKeyData : Bytes) (dataParams : HksSmWrappedKeyDataBlob)
    (partOffset : Nat) : Except HksErrorCode (HksSmWrappedKeyDataBlob × Nat) := do
  let factor1 ← wrappedBlob wrappedKeyData partOffset
  let factor2 ← wrappedBlob wrappedKeyData (partOffset + 1)
  let deriveKekData1 ← deriveKeyBySm3 crypto dataParams.kekData factor1
  let deriveKekData2 ← deriveKeyBySm3 crypto dataParams.kekData factor2
  return ({ dataParams with deriveKekData1, deriveKekData2 }, partOffset + 2)

-- The digest that `HksCryptoHalHmac` writes to a buffer of `macSize` bytes.
def hksCryptoHalHmac (key msg : Bytes) (macSize : Nat) : Except HksErrorCode Bytes := do
  if key = [] ∨ msg = [] ∨ macSize < hksDigestSm3Len then
    throw .invalidArgument
  else
    cryptoAnswer (crypto.hmacSm3 key msg)

-- The size of `mac` is that of the part first and that of the digest when it is compared. The
-- nonzero answer of `memcmp` is no code of the list, so it stands as a failure.
def compareWrapKeyHmac (wrappedKeyData : Bytes) (dataParams : HksSmWrappedKeyDataBlob)
    (partOffset : Nat) : Except HksErrorCode (Bytes × Nat) := do
  let originKeyEncMac ← wrappedBlob wrappedKeyData partOffset
  let kEncData ← wrappedBlob wrappedKeyData (partOffset + 1)
  hksMalloc originKeyEncMac.length
  let mac ← hksCryptoHalHmac crypto dataParams.deriveKekData2 kEncData originKeyEncMac.length
  if originKeyEncMac.take mac.length ≠ mac then
    throw .failure
  else
    return (kEncData, partOffset + 2)

-- The contents of the buffer `srcData` are copied up to `subLength`, whatever was written to it.
def subPaddingPlaintext (srcData : Bytes) (subLength : Nat) : Except HksErrorCode Bytes := do
  hksMalloc subLength
  return srcData.take subLength

-- `HksCryptoHalDecrypt` with SM4, CBC and PKCS7: the contents of the buffer, and the size of the
-- plaintext in front of them.
def hksOpensslSm4Decrypt (key iv message : Bytes) (plainTextSize : Nat) :
    Except HksErrorCode (Bytes × Nat) := do
  decryptCheckParam key message plainTextSize
  if key.length ≠ hksSm4KeyBytes then
    throw .invalidArgument
  else
    let plainText ← cryptoAnswer (crypto.sm4CbcDecrypt key iv message)
    return (plainText ++ (env.fresh plainTextSize).val.drop plainText.length, plainText.length)

def decryptImportedSmKey (wrappedKeyData : Bytes) (dataParams : HksSmWrappedKeyDataBlob)
    (kEncData : Bytes) (partOffset : Nat) : Except HksErrorCode (HksSmWrappedKeyDataBlob × Nat) := do
  let ivParam ← wrappedBlob wrappedKeyData partOffset
  let keyMaterialSize ← getDataLenFromWrappedData wrappedKeyData (partOffset + 1)
  let originKeySize := keyMaterialSize.toNat + hksPaddingSupplenment
  hksMalloc originKeySize
  let (originKey, _) ←
    hksOpensslSm4Decrypt env crypto dataParams.deriveKekData1 ivParam kEncData originKeySize
  let originKey ← subPaddingPlaintext originKey keyMaterialSize.toNat
  return ({ dataParams with originKey }, partOffset + 2)

end SmImport

section SmImportWrappedKey

variable (env : WrapEnv) (crypto : SmCrypto)

open SmImport

-- The steps that both suites have in common, and the key blob they end with.
def importDerivedKey (keyAlias wrappedKeyData : Bytes) (paramSet : HksParamSet)
    (dataParams : HksSmWrappedKeyDataBlob) (partOffset : Nat) :
    Except HksErrorCode (HksSmWrappedKeyDataBlob × Bytes) := do
  let (dataParams, partOffset) ← deriveKeyByFactor crypto wrappedKeyData dataParams partOffset
  let (kEncData, partOffset) ← compareWrapKeyHmac crypto wrappedKeyData dataParams partOffset
  let (dataParams, _) ← decryptImportedSmKey env crypto wrappedKeyData dataParams kEncData partOffset
  let keyOut ← env.hksCoreImportKey keyAlias dataParams.originKey paramSet
  return (dataParams, keyOut)

def hksSmImportWrappedKeyWithVerify (keyAlias wrappedKeyData : Bytes)
    (paramSet nodeParamSet : HksParamSet) :
    Except HksErrorCode (HksSmWrappedKeyDataBlob × Bytes) := do
  let (dataParams, partOffset) ←
    getPublicKeyAndSignDataLength env wrappedKeyData nodeParamSet {} 0
  let (dataParams, partOffset) ←
    decryptKekWithSm2 crypto wrappedKeyData paramSet nodeParamSet dataParams partOffset
  let dataParams ← splitKekAndSignData dataParams
  verifyKekBySm2 crypto dataParams
  importDerivedKey env crypto keyAlias wrappedKeyData paramSet dataParams partOffset

def hksSmImportWrappedKeyWithoutVerify (keyAlias wrappedKeyData : Bytes)
    (paramSet nodeParamSet : HksParamSet) :
    Except HksErrorCode (HksSmWrappedKeyDataBlob × Bytes) := do
  let (dataParams, partOffset) ←
    decryptKekWithSm2 crypto wrappedKeyData paramSet nodeParamSet {} 0
  importDerivedKey env crypto keyAlias wrappedKeyData paramSet dataParams partOffset

def checkAlgAndGetSuit (paramSet : HksParamSet) : Except HksErrorCode UInt32 := do
  let alg ← (getUInt32 paramSet HksTag.algorithm).orError .checkGetAlgFail
  if alg ≠ HksKeyAlg.sm4 ∧ alg ≠ HksKeyAlg.sm2 then
    throw .invalidAuthType
  else
    (getUInt32 paramSet HksTag.unwrapAlgorithmSuite).orError .checkGetAlgFail

-- What the code computed of the wrapped key on the way to the key blob, and the key blob.
def hksSmImportWrappedKey (keyAlias : Bytes) (paramSet : HksParamSet)
    (wrappingKey wrappedKeyData : Bytes) : Except HksErrorCode (HksSmWrappedKeyDataBlob × Bytes) := do
  if wrappingKey = [] ∨ wrappedKeyData = [] then
    throw .invalidArgument
  else
    let algSuit ← (checkAlgAndGetSuit paramSet).orError .invalidArgument
    let nodeParamSet ← (env.hksGenerateKeyNode wrappingKey).elim (.error .corruptFile) .ok
    if algSuit = HksUnwrapSuite.sm2Sm4128CbcPkcs7WithVerifyDigSm3 then
      hksSmImportWrappedKeyWithVerify env crypto keyAlias wrappedKeyData paramSet nodeParamSet
    else if algSuit = HksUnwrapSuite.sm2Sm4128CbcPkcs7 then
      hksSmImportWrappedKeyWithoutVerify env crypto keyAlias wrappedKeyData paramSet nodeParamSet
    else
      throw .notSupported

end SmImportWrappedKey

end Huks
