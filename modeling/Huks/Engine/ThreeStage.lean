import Huks.Engine.Auth
import Huks.Engine.CryptoAdapter
import Huks.Engine.KeyNode

namespace Huks

open HksKeyPurpose

def maxBufSize                : UInt32 := 5 * 1024 * 1024
def maxOutBlobSize            : UInt32 := 5 * 1024 * 1024
def hksAesGcmNonceLen         : UInt32 := 12
def hksAesCcmNonceLen         : UInt32 := 7
def hksCipherCcmModeMaxDataLen : UInt32 := 100 * 1024
def hksBlockCipherCbcBlockSize : UInt32 := 16
def hksKeyFlagAgreeKey        : UInt8 := 3
def hksKeyFlagDeriveKey       : UInt8 := 4

-- Sizes of output buffers; a size of 0 stands for every blob that `CheckBlob` refuses.
section OutSize

def checkRsaCipherData (isEncrypt : Bool) (keyLen : UInt32) (usageSpec : HksUsageSpec)
    (outSize : UInt32) : Except HksErrorCode Unit := do
  let keySize := keyLen / 8
  if usageSpec.padding = HksKeyPadding.none then
    if outSize < keySize then throw .bufferTooSmall
  else if usageSpec.padding = HksKeyPadding.oaep then
    let digestLen ← hksGetDigestLen usageSpec.digest
    if keySize ≤ 2 * digestLen + 2 then
      throw .invalidKeyFile
    else if isEncrypt then
      if outSize < keySize then throw .bufferTooSmall
    else
      if outSize < keySize - 2 * digestLen - 2 then throw .bufferTooSmall

def checkSm2CipherData (isEncrypt : Bool) (usageSpec : HksUsageSpec) (inSize outSize : UInt32) :
    Except HksErrorCode Unit := do
  if isEncrypt then
    let digestLen ← hksGetDigestLen usageSpec.digest
    let lenC1 : UInt32 := 2 * 32 + 1
    if outSize < lenC1 + digestLen + inSize then throw .bufferTooSmall

def checkAesCipherAead (isEncrypt : Bool) (inSize outSize : UInt32) : Except HksErrorCode Unit :=
  if outSize < (if isEncrypt then inSize + hksAeTagLen else inSize) then
    .error .bufferTooSmall
  else
    .ok ()

def checkBlockCipherOther (mode : UInt32) (isEncrypt : Bool) (padding inSize outSize : UInt32) :
    Except HksErrorCode Unit := do
  if isEncrypt then
    if padding = HksKeyPadding.none then
      if (mode = HksCipherMode.cbc ∨ mode = HksCipherMode.ecb) ∧
          inSize % hksBlockCipherCbcBlockSize ≠ 0 then
        throw .invalidArgument
      if outSize < inSize then throw .bufferTooSmall
    else
      let paddingSize := hksBlockCipherCbcBlockSize - inSize % hksBlockCipherCbcBlockSize
      if inSize > 0xffffffff - paddingSize then throw .invalidArgument
      if outSize < inSize + paddingSize then throw .bufferTooSmall
  else
    if outSize < inSize then throw .bufferTooSmall

def checkBlockCipherData (isEncrypt : Bool) (usageSpec : HksUsageSpec) (inSize outSize : UInt32) :
    Except HksErrorCode Unit :=
  let mode := usageSpec.mode
  if mode = HksCipherMode.gcm ∨ mode = HksCipherMode.ccm then
    if usageSpec.algType = HksKeyAlg.aes then
      checkAesCipherAead isEncrypt inSize outSize
    else
      .error .notSupported
  else if mode = HksCipherMode.cfb ∨ mode = HksCipherMode.ofb then
    if usageSpec.algType = HksKeyAlg.sm4 then
      checkBlockCipherOther mode isEncrypt usageSpec.padding inSize outSize
    else
      .error .notSupported
  else if mode = HksCipherMode.cbc ∨ mode = HksCipherMode.ctr ∨ mode = HksCipherMode.ecb then
    checkBlockCipherOther mode isEncrypt usageSpec.padding inSize outSize
  else
    .error .notSupported

def hksCheckFinishOutSize (isEncrypt : Bool) (paramSet : HksParamSet) (inSize outSize : UInt32) :
    Except HksErrorCode Unit :=
  let usageSpec := hksFillUsageSpec paramSet
  let alg := usageSpec.algType
  if alg = HksKeyAlg.rsa then
    checkRsaCipherData isEncrypt (hksFillKeySpec paramSet).keyLen usageSpec outSize
  else if alg = HksKeyAlg.sm2 then
    checkSm2CipherData isEncrypt usageSpec inSize outSize
  else if alg = HksKeyAlg.aes ∨ alg = HksKeyAlg.des ∨ alg = HksKeyAlg.tripleDes ∨
      alg = HksKeyAlg.sm4 then
    checkBlockCipherData isEncrypt usageSpec inSize outSize
  else
    .error .invalidAlgorithm

end OutSize

section Auth

variable (env : EngineEnv) (keyBlobParamSet runtimeParamSet : HksParamSet)

def signVerifyAuth (paramSet : HksParamSet) : Except HksErrorCode Unit := do
  let alg ← getUInt32 paramSet HksTag.algorithm
  if alg = HksKeyAlg.ecc ∨ alg = HksKeyAlg.sm2 ∨ alg = HksKeyAlg.dsa then
    hksThreeStageAuth env .signVerifyEcc keyBlobParamSet runtimeParamSet
  else if alg = HksKeyAlg.rsa then
    let padding ← getUInt32 paramSet HksTag.padding
    if padding = HksKeyPadding.pss then
      hksCheckKeyBlobParamSetEqualRuntimeParamSet keyBlobParamSet runtimeParamSet
        HksTag.rsaPssSaltLenType
    hksThreeStageAuth env .signVerifyRsa keyBlobParamSet runtimeParamSet
  else if alg = HksKeyAlg.ed25519 then
    hksThreeStageAuth env .signVerifyEd25519 keyBlobParamSet runtimeParamSet
  else
    .error .invalidAlgorithm

def agreeAuth (paramSet : HksParamSet) : Except HksErrorCode Unit := do
  let alg ← getUInt32 paramSet HksTag.algorithm
  if alg = HksKeyAlg.ecdh ∨ alg = HksKeyAlg.x25519 ∨ alg = HksKeyAlg.dh ∨ alg = HksKeyAlg.sm2 then
    hksThreeStageAuth env .agree keyBlobParamSet runtimeParamSet
  else
    .error .invalidAlgorithm

def hmacAuth (paramSet : HksParamSet) : Except HksErrorCode Unit := do
  let alg ← getUInt32 paramSet HksTag.algorithm
  if alg = HksKeyAlg.hmac then
    hksThreeStageAuth env .macHmac keyBlobParamSet runtimeParamSet
  else if alg = HksKeyAlg.tripleDes then
    hksThreeStageAuth env .macCmac keyBlobParamSet runtimeParamSet
  else if alg = HksKeyAlg.sm3 then
    hksThreeStageAuth env .macSm3 keyBlobParamSet runtimeParamSet
  else
    .error .invalidAlgorithm

def cipherAuth (paramSet : HksParamSet) : Except HksErrorCode Unit := do
  let alg ← getUInt32 paramSet HksTag.algorithm
  if alg = HksKeyAlg.aes ∨ alg = HksKeyAlg.des ∨ alg = HksKeyAlg.tripleDes then
    hksThreeStageAuth env .symCipher keyBlobParamSet runtimeParamSet
  else if alg = HksKeyAlg.rsa ∨ alg = HksKeyAlg.sm2 then
    hksThreeStageAuth env .asymCipher keyBlobParamSet runtimeParamSet
  else if alg = HksKeyAlg.sm4 then
    hksThreeStageAuth env .symCipher keyBlobParamSet runtimeParamSet
  else
    .error .invalidAlgorithm

end Auth

section Context

variable (env : EngineEnv) (runtimeParamSet : HksParamSet)

-- What the entry `HKS_TAG_CRYPTO_CTX` points at; `e` reports that there is no such entry.
def getCtxParam (e : HksErrorCode → HksErrorCode) : CtxM (Option CryptoCtx) := do
  discard <| MonadExcept.ofExcept ((hksGetParam runtimeParamSet HksTag.cryptoCtx).mapError e)
  return (← get).ctx

def getCryptoCtx : CtxM (Option CryptoCtx) := do
  match hksGetParam runtimeParamSet HksTag.cryptoCtx with
  | .error _ => return none
  | .ok _    => return (← get).ctx

def clearCryptoCtx : CtxM Unit := do
  match hksGetParam runtimeParamSet HksTag.cryptoCtx with
  | .error _ => return
  | .ok _    => setCtx none

-- A context that must be there: `e` reports a missing entry and `e'` a null pointer.
def requireCtx (e : HksErrorCode → HksErrorCode) (e' : HksErrorCode) : CtxM CryptoCtx := do
  match ← getCtxParam runtimeParamSet e with
  | none     => throw e'
  | some ctx => return ctx

def setCacheModeCtx : CtxM Unit := do
  discard <| getCtxParam runtimeParamSet fun _ => .badState
  setCtx (some (.cachedData []))

def getNewCachedData (cachedData inData : Bytes) : Except HksErrorCode Bytes :=
  if cachedData.size > maxBufSize ∨ inData.size > maxBufSize - cachedData.size then
    .error .invalidArgument
  else if mallocOk (cachedData.length + inData.length) then
    .ok (cachedData ++ inData)
  else
    .error .mallocFail

def updateCachedData (srcData : Bytes) : CtxM Unit := do
  let ctx ← requireCtx runtimeParamSet (fun _ => .badState) .badState
  let cachedData ← readCachedData env ctx
  let newCachedBlob ← MonadExcept.ofExcept (getNewCachedData cachedData srcData)
  setCtx (some (.cachedData newCachedBlob))

def finishCachedData (srcData : Bytes) : CtxM Bytes := do
  let ctx ← requireCtx runtimeParamSet (fun _ => .badState) .badState
  let cachedData ← readCachedData env ctx
  freeCachedData
  setCtx none
  MonadExcept.ofExcept (getNewCachedData cachedData srcData)

def checkCachedDataMaxSize (inData : Bytes) (maxDataLen : UInt32) : CtxM Unit := do
  let ctx ← requireCtx runtimeParamSet (fun _ => .badState) .badState
  let cachedData ← readCachedData env ctx
  if maxDataLen < cachedData.size then
    throw .invalidArgument
  else if inData.size > maxDataLen - cachedData.size then
    throw .exceedLimit

def coreHashInit (alg : UInt32) : CtxM Unit := do
  discard <| getCtxParam runtimeParamSet fun _ => .badState
  discard <| World.hal env (.hashInit alg)
  setCtx (some .hash)

def coreHashUpdate (srcData : Bytes) : CtxM Unit := do
  match ← getCryptoCtx runtimeParamSet with
  | none   => throw .badState
  | some _ =>
    useCtx .hash
    discard <| World.hal env (.hashUpdate srcData)

def coreHashFinish (srcData : Bytes) : CtxM Bytes := do
  discard <| requireCtx runtimeParamSet (fun _ => .badState) .badState
  useCtx .hash
  let hash ← EStateM.attempt (World.hal env (.hashFinal srcData))
  setCtx none
  MonadExcept.ofExcept hash

end Context

section SignVerify

variable (env : EngineEnv) (keyBlobParamSet runtimeParamSet : HksParamSet)

def checkSignVerifyParams (outSize : UInt32) : Except HksErrorCode Unit := do
  if outSize = 0 then throw .invalidArgument
  let alg ← getUInt32 keyBlobParamSet HksTag.algorithm
  let purpose ← getUInt32 runtimeParamSet HksTag.purpose
  let keySize ← getUInt32 keyBlobParamSet HksTag.keySize
  env.hksCheckSignature (purpose = sign) alg keySize outSize.toNat

-- `signature` is what `outData` holds, which is read to verify and written to sign.
def coreSignVerify (inData signature : Bytes) (outSize : UInt32) : WorldM Bytes := do
  MonadExcept.ofExcept (checkSignVerifyParams env keyBlobParamSet runtimeParamSet outSize)
  let rawKey ← MonadExcept.ofExcept (hksGetRawKey keyBlobParamSet)
  let usageSpec := setRsaPssSaltLenType runtimeParamSet (hksFillUsageSpec runtimeParamSet)
  if usageSpec.algType = HksKeyAlg.rsa ∧ usageSpec.padding = HksKeyPadding.iso97962 then
    if ¬env.supportRsaIso97962 then
      throw .notSupported
    else if usageSpec.purpose = sign then
      World.hal env (.signIsoIec97962 rawKey usageSpec inData)
    else
      World.hal env (.verifyIsoIec97962 rawKey usageSpec inData signature)
  else if usageSpec.purpose = sign then
    World.hal env (.sign rawKey usageSpec inData)
  else
    World.hal env (.verify rawKey usageSpec inData signature)

def hksCheckNeedCachePadding (alg : UInt32) : Bool :=
  if alg ≠ HksKeyAlg.rsa then
    false
  else
    match getUInt32 runtimeParamSet HksTag.padding with
    | .error _    => false
    | .ok padding => padding = HksKeyPadding.iso97962

-- The test that every stage makes: is the data cached or hashed?
def signVerifyNeedsCache (alg digest : UInt32) : Bool :=
  hksCheckNeedCache alg digest ||
    (env.supportRsaIso97962 && hksCheckNeedCachePadding runtimeParamSet alg)

def freeSignVerifyCtx : CtxM Unit := do
  match ← getCryptoCtx runtimeParamSet with
  | none   => return
  | some _ =>
    match getUInt32 runtimeParamSet HksTag.algorithm, getUInt32 runtimeParamSet HksTag.digest with
    | .ok alg, .ok digest =>
      if signVerifyNeedsCache env runtimeParamSet alg digest then
        freeCachedData
      else
        useCtx .hash
      setCtx none
    | _, _ => return

-- In signature or verify scenario, `alg` represents digest.
def hksCoreSignVerifyThreeStageInit (alg : UInt32) : CtxM Unit := do
  MonadExcept.ofExcept (signVerifyAuth env keyBlobParamSet runtimeParamSet runtimeParamSet)
  let algParam ← MonadExcept.ofExcept
    ((getUInt32 runtimeParamSet HksTag.algorithm).orError .checkGetAlgFail)
  if signVerifyNeedsCache env runtimeParamSet algParam alg then
    setCacheModeCtx runtimeParamSet
  else
    coreHashInit env runtimeParamSet alg

def hksCoreSignVerifyThreeStageUpdate (srcData : Bytes) (alg : UInt32) : CtxM Bytes := do
  let algParam ← MonadExcept.ofExcept
    ((getUInt32 runtimeParamSet HksTag.algorithm).orError .checkGetAlgFail)
  if signVerifyNeedsCache env runtimeParamSet algParam alg then
    updateCachedData env runtimeParamSet srcData
  else
    coreHashUpdate env runtimeParamSet srcData
  return []

-- `inData` is the signature when processing verify.
def hksCoreSignVerifyThreeStageFinish (inData : Bytes) (outSize alg : UInt32) : CtxM Bytes := do
  let purpose ← MonadExcept.ofExcept
    ((getUInt32 runtimeParamSet HksTag.purpose).orError .checkGetPurposeFail)
  let message := if purpose = sign then inData else []
  let algParam ← MonadExcept.ofExcept
    ((getUInt32 runtimeParamSet HksTag.algorithm).orError .checkGetAlgFail)
  let signVerifyData ←
    if signVerifyNeedsCache env runtimeParamSet algParam alg then
      finishCachedData env runtimeParamSet message
    else
      coreHashFinish env runtimeParamSet message
  if purpose = sign then
    coreSignVerify env keyBlobParamSet runtimeParamSet signVerifyData [] outSize
  else
    coreSignVerify env keyBlobParamSet runtimeParamSet signVerifyData inData inData.size

def hksCoreSignVerifyThreeStageAbort : CtxM Unit :=
  freeSignVerifyCtx env runtimeParamSet

end SignVerify

section Derive

variable (env : EngineEnv) (keyBlobParamSet runtimeParamSet paramSet : HksParamSet)

def hksCoreDeriveThreeStageInit : CtxM Unit := return

def getRawkey : CtxM Bytes := do
  match ← getCryptoCtx runtimeParamSet with
  | some _ => throw .failure
  | none   =>
    MonadExcept.ofExcept (hksThreeStageAuth env .derive keyBlobParamSet runtimeParamSet)
    MonadExcept.ofExcept (hksGetRawKey keyBlobParamSet)

def constructDeriveBlob : Except HksErrorCode UInt32 := do
  let deriveSize ← (getUInt32 runtimeParamSet HksTag.deriveKeySize).orError .invalidArgument
  if deriveSize = 0 ∨ deriveSize > maxOutBlobSize then
    .error .invalidArgument
  else
    return deriveSize

def hksCoreDeriveThreeStageUpdate : CtxM Bytes := do
  discard <| getCtxParam runtimeParamSet fun _ => .badState
  let rawKey ← getRawkey env keyBlobParamSet runtimeParamSet
  let deriveSize ← MonadExcept.ofExcept (constructDeriveBlob runtimeParamSet)
  let derivationSpec := hksFillKeySpec runtimeParamSet
  let deriveBlob ← World.hal env (.deriveKey rawKey derivationSpec.algType derivationSpec.keyLen
    (hksFillKeyDerivationParam runtimeParamSet) deriveSize)
  setCtx (some (.cachedData deriveBlob))
  return []

def doBuildKeyBlobOrGetOutDataAction (restoreData : Bytes) (outSize : UInt32) (keyFlag : UInt8)
    (isNeedStorage : Bool) : WorldM Bytes := do
  if isNeedStorage then
    World.hal env (.buildKeyBlob keyFlag restoreData paramSet)
  else if outSize < restoreData.size then
    throw .bufferTooSmall
  else
    return restoreData

def buildAgreeDeriveKeyBlobOrGetOutData (restoreData : Bytes) (outSize : UInt32)
    (keyFlag : UInt8) : WorldM Bytes := do
  match getUInt32 keyBlobParamSet HksTag.deriveAgreeKeyStorageFlag with
  | .error .invalidArgument => throw .invalidArgument
  | keyStorageFlag =>
    let isNeedStorage := hksCheckKeyNeedStored paramSet
    if isNeedStorage then
      MonadExcept.ofExcept (env.hksCoreCheckAgreeDeriveFinishParams restoreData paramSet)
    let action := doBuildKeyBlobOrGetOutDataAction env paramSet restoreData outSize keyFlag
      isNeedStorage
    match keyStorageFlag with
    | .error _ => action
    | .ok storageFlag =>
      if (storageFlag == HksKeyStorageType.onlyUsedInHuks) = isNeedStorage then
        MonadExcept.ofExcept ((← EStateM.attempt action).orError .badState)
      else
        throw .badState

-- The finish stage of both `derive` and `agree`, which differ in the flag of the new key.
def finishAgreeDerive (keyFlag : UInt8) (outSize : UInt32) : CtxM Bytes := do
  if outSize = 0 then
    throw .invalidArgument
  else
    match ← getCryptoCtx runtimeParamSet with
    | none => throw .nullPointer
    | some ctx =>
      let restoreData ← readCachedData env ctx
      let outData ← EStateM.attempt
        (buildAgreeDeriveKeyBlobOrGetOutData env keyBlobParamSet paramSet restoreData outSize keyFlag)
      freeCachedData
      clearCryptoCtx runtimeParamSet
      MonadExcept.ofExcept outData

def abortAgreeDerive : CtxM Unit := do
  match ← getCryptoCtx runtimeParamSet with
  | none   => throw .nullPointer
  | some _ =>
    freeCachedData
    clearCryptoCtx runtimeParamSet

def hksCoreDeriveThreeStageFinish (outSize : UInt32) : CtxM Bytes :=
  finishAgreeDerive env keyBlobParamSet runtimeParamSet paramSet hksKeyFlagDeriveKey outSize

def hksCoreDeriveThreeStageAbort : CtxM Unit :=
  abortAgreeDerive runtimeParamSet

def hksCoreAgreeThreeStageInit : CtxM Unit :=
  MonadExcept.ofExcept (agreeAuth env keyBlobParamSet runtimeParamSet runtimeParamSet)

def hksCoreAgreeThreeStageUpdate (srcData : Bytes) : CtxM Bytes := do
  match ← getCtxParam runtimeParamSet fun _ => .badState with
  | some _ => throw .failure
  | none   =>
    let publicKey ← World.hal env (.getHksPubKeyInnerFormat srcData runtimeParamSet)
    let rawKey ← MonadExcept.ofExcept (hksGetRawKey keyBlobParamSet)
    let agreeSpec := hksFillKeySpec runtimeParamSet
    let agreeTemp ← World.hal env (.agreeKey rawKey publicKey agreeSpec.algType agreeSpec.keyLen)
    setCtx (some (.cachedData agreeTemp))
    return []

def hksCoreAgreeThreeStageFinish (outSize : UInt32) : CtxM Bytes :=
  finishAgreeDerive env keyBlobParamSet runtimeParamSet paramSet hksKeyFlagAgreeKey outSize

def hksCoreAgreeThreeStageAbort : CtxM Unit :=
  abortAgreeDerive runtimeParamSet

end Derive

section Mac

variable (env : EngineEnv) (keyBlobParamSet runtimeParamSet paramSet : HksParamSet)

-- Without `HKS_SUPPORT_CMAC_C` a 3DES key gets no context, and no error either.
def hksCoreMacThreeStageInit (alg : UInt32) : CtxM Unit := do
  MonadExcept.ofExcept (hmacAuth env keyBlobParamSet runtimeParamSet runtimeParamSet)
  discard <| getCtxParam runtimeParamSet fun _ => .badState
  let rawKey ← MonadExcept.ofExcept (hksGetRawKey keyBlobParamSet)
  let algParam ← MonadExcept.ofExcept (getUInt32 paramSet HksTag.algorithm)
  if algParam = HksKeyAlg.tripleDes then
    if env.supportCmac then
      discard <| World.hal env (.cmacInit rawKey alg)
      setCtx (some .cmac)
    else
      setCtx none
  else
    discard <| World.hal env (.hmacInit rawKey alg)
    setCtx (some .hmac)

-- The choice between CMAC and HMAC that the later stages make by the param set of their own call;
-- without `HKS_SUPPORT_CMAC_C` the CMAC side is empty.
def macRoutine (alg : UInt32) (ctx : CryptoCtx) : CtxM Unit := do
  World.record (.mac runtimeParamSet paramSet ctx.kind)
  if alg = HksKeyAlg.cmac then
    if env.supportCmac then useCtx .cmac
  else
    useCtx .hmac

def macHal (alg : UInt32) (cmac hmac : HalCall) : WorldM Bytes :=
  if alg = HksKeyAlg.cmac then
    if env.supportCmac then World.hal env cmac else return []
  else
    World.hal env hmac

def hksCoreMacThreeStageUpdate (srcData : Bytes) : CtxM Bytes := do
  match ← getCryptoCtx runtimeParamSet with
  | none     => throw .nullPointer
  | some ctx =>
    let alg ← MonadExcept.ofExcept (getUInt32 paramSet HksTag.algorithm)
    macRoutine env runtimeParamSet paramSet alg ctx
    discard <| macHal env alg (.cmacUpdate srcData) (.hmacUpdate srcData)
    return []

def checkMacOutSize (outSize : UInt32) : Except HksErrorCode Unit := do
  let digest ← (getUInt32 runtimeParamSet HksTag.digest).orError .checkGetDigestFail
  let macLen ← hksGetDigestLen digest
  if outSize = 0 ∨ outSize < macLen then
    throw .bufferTooSmall

def hksCoreMacThreeStageFinish (inData : Bytes) (outSize : UInt32) : CtxM Bytes := do
  let alg ← MonadExcept.ofExcept (getUInt32 paramSet HksTag.algorithm)
  if alg ≠ HksKeyAlg.cmac then
    MonadExcept.ofExcept (checkMacOutSize runtimeParamSet outSize)
  let ctx ← requireCtx runtimeParamSet (fun _ => .badState) .nullPointer
  macRoutine env runtimeParamSet paramSet alg ctx
  let mac ← EStateM.attempt (macHal env alg (.cmacFinal inData) (.hmacFinal inData))
  setCtx none
  MonadExcept.ofExcept mac

def hksCoreMacThreeStageAbort : CtxM Unit := do
  match ← getCryptoCtx runtimeParamSet with
  | none     => throw .nullPointer
  | some ctx =>
    let alg ← MonadExcept.ofExcept (getUInt32 paramSet HksTag.algorithm)
    macRoutine env runtimeParamSet paramSet alg ctx
    clearCryptoCtx runtimeParamSet

end Mac

end Huks
