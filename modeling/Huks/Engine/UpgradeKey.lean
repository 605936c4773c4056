import Huks.Engine.KeyBlob
import Huks.Engine.SecureAccess

namespace Huks

-- `HKS_ALG_PARAMS_TAG`
def hksAlgParamsTag : List UInt32 := [
  HksTag.invalid, HksTag.algorithm, HksTag.purpose, HksTag.keySize, HksTag.digest, HksTag.padding,
  HksTag.blockMode, HksTag.keyType, HksTag.associatedData, HksTag.nonce, HksTag.iv, HksTag.info,
  HksTag.salt, HksTag.pwd, HksTag.iteration, HksTag.keyGenerateType, HksTag.deriveMainKey,
  HksTag.deriveFactor, HksTag.deriveAlg, HksTag.agreeAlg, HksTag.agreePublicKeyIsKeyAlias,
  HksTag.agreePrivateKeyAlias, HksTag.agreePublicKey, HksTag.keyAlias, HksTag.deriveKeySize,
  HksTag.importKeyType, HksTag.unwrapAlgorithmSuite, HksTag.cipherText, HksTag.peerPublicKey,
  HksTag.deriveAgreeKeyStorageFlag, HksTag.rsaPssSaltLenType, HksTag.mgfDigest,
  HksTag.activeDatetime, HksTag.originationExpireDatetime, HksTag.usageExpireDatetime,
  HksTag.creationDatetime, HksTag.allUsers, HksTag.userId, HksTag.noAuthRequired,
  HksTag.userAuthType, HksTag.authTimeout, HksTag.authToken, HksTag.keyAuthAccessType,
  HksTag.keySecureSignType, HksTag.challengeType, HksTag.challengePos, HksTag.keyAuthPurpose,
  HksTag.frontUserId, HksTag.batchPurpose, HksTag.isBatchOperation, HksTag.batchOperationTimeout,
  HksTag.authStorageLevel, HksTag.specificUserId, HksTag.userAuthMode, HksTag.attestationChallenge,
  HksTag.attestationApplicationId, HksTag.attestationIdBrand, HksTag.attestationIdDevice,
  HksTag.attestationIdProduct, HksTag.attestationIdSerial, HksTag.attestationIdImei,
  HksTag.attestationIdMeid, HksTag.attestationIdManufacturer, HksTag.attestationIdModel,
  HksTag.attestationIdAlias, HksTag.attestationIdSocid, HksTag.attestationIdUdid,
  HksTag.attestationIdSecLevelInfo, HksTag.attestationIdVersionInfo, HksTag.attestationBase64,
  HksTag.attestationMode, HksTag.attestationApplicationIdType, HksTag.isKeyAlias,
  HksTag.keyStorageFlag, HksTag.isAllowedWrap, HksTag.keyWrapType, HksTag.keyAuthId, HksTag.keyRole,
  HksTag.keyFlag, HksTag.isAsynchronized, HksTag.secureKeyAlias, HksTag.secureKeyUuid,
  HksTag.keyDomain, HksTag.isDevicePasswordSet, HksTag.extInfo, HksTag.dataWrapType,
  HksTag.isAllowedDataWrap, HksTag.wrapKeyVersion, HksTag.agreePubkeyType, HksTag.packageName,
  HksTag.accessTime, HksTag.usesTime, HksTag.cryptoCtx, HksTag.payloadLen, HksTag.aeTag,
  HksTag.isKeyHandle, HksTag.keyInitChallenge, HksTag.isUserAuthAccess, HksTag.userAuthChallenge,
  HksTag.userAuthEnrollIdInfo, HksTag.userAuthSecureUid, HksTag.keyAuthResult,
  HksTag.ifNeedAppendAuthInfo, HksTag.verifiedAuthToken, HksTag.isAppendUpdateData,
  HksTag.keyAccessTime, HksTag.ownerId, HksTag.ownerType, HksTag.accountId, HksTag.symmetricKeyData,
  HksTag.asymmetricPublicKeyData, HksTag.asymmetricPrivateKeyData, HksTag.attestationCertType,
  HksTag.accessTokenId, HksTag.bundleName, HksTag.aesGcmNeedRegenerateNonce
]

-- `HKS_KEY_FILE_TAGS`
def hksKeyFileTags : List UInt32 :=
  [HksTag.processName, HksTag.key, HksTag.keyVersion, HksTag.osVersion, HksTag.osPatchlevel]

def isTagInAlgTagsList (tag : UInt32) : Bool := hksAlgParamsTag.contains tag

-- A param as another set takes it over.
def HksParamSet.entry (s : HksParamSet) (p : HksParam) : HksParam :=
  if p.isBytes ∧ p.data ≠ .null then p.setData (.ext (s.blob p)) else p

def addAlgParamsTags (srcParamSet targetParamSet : HksParamSet) : Except HksErrorCode HksParamSet :=
  srcParamSet.params.foldlM (fun targetParamSet param =>
    if isTagInAlgTagsList param.tag then
      hksAddParams targetParamSet [srcParamSet.entry param]
    else
      .ok targetParamSet) targetParamSet

def addMandatoryParams (paramSet targetParamSet : HksParamSet) : Except HksErrorCode HksParamSet :=
  hksKeyFileTags.foldlM (fun targetParamSet tag => do
    let param ← hksGetParam paramSet tag
    hksAddParams targetParamSet [paramSet.entry param]) targetParamSet

section Core

variable (env : KeyBlobEnv)

def hksAddKeyVersionToParamSet (_ targetParamSet : HksParamSet) : Except HksErrorCode HksParamSet :=
  hksAddParams targetParamSet [.ofUInt32 HksTag.keyVersion env.hksKeyVersion]

def hksAddOsVersionToParamSet (_ targetParamSet : HksParamSet) : Except HksErrorCode HksParamSet :=
  hksAddParams targetParamSet [.ofUInt32 HksTag.osVersion hksKeyBlobDummyOsVersion]

def hksAddOsPatchToParamSet (_ targetParamSet : HksParamSet) : Except HksErrorCode HksParamSet :=
  hksAddParams targetParamSet [.ofUInt32 HksTag.osPatchlevel hksKeyBlobDummyOsPatchlevel]

def hksAddkeyToParamSet (srcParamSet targetParamSet : HksParamSet) : Except HksErrorCode HksParamSet := do
  let keyParam ← hksGetParam srcParamSet HksTag.key
  hksAddParams targetParamSet [srcParamSet.entry keyParam]

def hksAddMandatoryFuncList : List (HksParamSet → HksParamSet → Except HksErrorCode HksParamSet) :=
  [hksAddKeyVersionToParamSet env, hksAddOsVersionToParamSet, hksAddOsPatchToParamSet,
    hksAddkeyToParamSet]

-- The params of the caller come first. The set is not built.
def addMandatoryParamsInCore (oldKeyBlobParamSet srcParamSet : HksParamSet) :
    Except HksErrorCode HksParamSet := do
  let outParamSet ← hksAddParams hksInitParamSet srcParamSet.entries
  (hksAddMandatoryFuncList env).foldlM (fun outParamSet func => func oldKeyBlobParamSet outParamSet)
    outParamSet

def authChangeProcessName (oldKeyBlobParamSet paramSet : HksParamSet) : Except HksErrorCode Unit := do
  let oldProcessName ← getBlob oldKeyBlobParamSet HksTag.processName
  match getBlob paramSet HksTag.processName with
  | .error _           => return
  | .ok newProcessName => if oldProcessName ≠ newProcessName then throw .failure

def authUpgradeKey (engine : EngineEnv) (oldKeyBlobParamSet paramSet : HksParamSet) : WorldM Unit := do
  hksProcessIdentityVerify engine oldKeyBlobParamSet paramSet
  MonadExcept.ofExcept (authChangeProcessName oldKeyBlobParamSet paramSet)

def checkIsNeedToUpgradeKey (engine : EngineEnv) (oldKeyBlobParamSet paramSet : HksParamSet) :
    WorldM Unit := do
  authUpgradeKey engine oldKeyBlobParamSet paramSet
  let keyVersion ← MonadExcept.ofExcept (getUInt32 oldKeyBlobParamSet HksTag.keyVersion)
  if keyVersion ≥ env.hksKeyVersion then throw .failure

def constructNewKeyParamSet (oldKeyBlobParamSet paramSet : HksParamSet) :
    Except HksErrorCode HksParamSet := do
  let newMandatoryParamSet ← addMandatoryParamsInCore env oldKeyBlobParamSet paramSet
  let newKeyBlobParamSet ← addAlgParamsTags oldKeyBlobParamSet hksInitParamSet
  let newKeyBlobParamSet ← addMandatoryParams newMandatoryParamSet newKeyBlobParamSet
  let newKeyBlobParamSet ← hksBuildParamSet newKeyBlobParamSet
  hksCheckParamSetTag newKeyBlobParamSet
  return newKeyBlobParamSet

def hksBuildKeyBlobWithOutAddKeyParam (paramSet : HksParamSet) (keyOutSize : UInt32) :
    Except HksErrorCode Bytes := do
  let keyBlobParamSet ← hksGetParamSet paramSet paramSet.paramSetSize
  hksBuildKeyBlob2 env keyBlobParamSet keyOutSize

-- `newKeySize` is the size of the buffer for the new key blob.
def hksUpgradeKey (engine : EngineEnv) (oldKey : ParamBlock) (paramSet : HksParamSet)
    (newKeySize : UInt32) : WorldM Bytes := do
  match hksGenerateKeyNode env oldKey with
  | none         => throw .badState
  | some keyNode =>
    let oldKeyBlobParamSet ← MonadExcept.ofExcept
      (hksGetParamSet keyNode.paramSet keyNode.paramSet.paramSetSize)
    checkIsNeedToUpgradeKey env engine oldKeyBlobParamSet paramSet
    MonadExcept.ofExcept do
      let newKeyBlobParamSet ← constructNewKeyParamSet env oldKeyBlobParamSet paramSet
      hksBuildKeyBlobWithOutAddKeyParam env newKeyBlobParamSet newKeySize

end Core

end Huks
