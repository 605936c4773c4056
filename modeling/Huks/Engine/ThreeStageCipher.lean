import Huks.Engine.ThreeStage

namespace Huks

open HksKeyPurpose

-- The state of an init handler, which may replace the runtime param set.
structure RuntimeState where
  runtimeParamSet : HksParamSet
  ctx             : Option CryptoCtx := none
  world           : World := {}

abbrev InitM := EStateM HksErrorCode RuntimeState

def RuntimeState.ctxLens : EStateM.Lens RuntimeState CtxState where
  get s   := ⟨s.ctx, s.world⟩
  set c s := { s with ctx := c.ctx, world := c.world }

instance : MonadLift CtxM InitM := ⟨EStateM.zoom RuntimeState.ctxLens⟩

section Nonce

variable (env : EngineEnv) (keyBlobParamSet : HksParamSet)

def checkWhetherUpdateAesNonce (runtimeParamSet : HksParamSet) : Except HksErrorCode Bool := do
  let alg ← getUInt32 runtimeParamSet HksTag.algorithm
  if alg ≠ HksKeyAlg.aes then
    return false
  let mode ← getUInt32 runtimeParamSet HksTag.blockMode
  if mode ≠ HksCipherMode.gcm ∧ mode ≠ HksCipherMode.ccm then
    return false
  let purpose ← getUInt32 runtimeParamSet HksTag.purpose
  if purpose ≠ encrypt then
    return false
  match hksGetParam keyBlobParamSet HksTag.keyAuthPurpose,
      hksGetParam runtimeParamSet HksTag.nonce with
  | .ok _, .ok _    => .error .notSupported
  | .error _, .ok _ => return false
  | _, _            => return true

def addNonceToParamSet (runtimeParamSet : HksParamSet) (nonceParams : List HksParam) :
    Except HksErrorCode HksParamSet := do
  let entries := runtimeParamSet.entries.filter (·.tag ≠ HksTag.nonce)
  let paramSet ← entries.foldlM (fun paramSet p => hksAddParams paramSet [p]) hksInitParamSet
  hksBuildParamSet (← hksAddParams paramSet nonceParams)

def updateNonceForAesAeMode (isCcm : Bool) : InitM Unit := do
  let runtimeParamSet := (← get).runtimeParamSet
  if ← MonadExcept.ofExcept (checkWhetherUpdateAesNonce keyBlobParamSet runtimeParamSet) then
    let nonceLen := if isCcm then hksAesCcmNonceLen else hksAesGcmNonceLen
    let nonce ← World.fillRandom env nonceLen.toNat
    let paramSet ← MonadExcept.ofExcept <| addNonceToParamSet runtimeParamSet
      [.ofBytes HksTag.nonce nonce, .ofBool HksTag.aesGcmNeedRegenerateNonce true]
    modify fun s => { s with runtimeParamSet := paramSet }

end Nonce

section Init

variable (env : EngineEnv) (keyBlobParamSet : HksParamSet)

def openCipher (runtimeParamSet : HksParamSet) : CtxM Unit := do
  discard <| getCtxParam runtimeParamSet fun _ => .badState
  let purpose ← MonadExcept.ofExcept
    ((getUInt32 runtimeParamSet HksTag.purpose).orError .checkGetPurposeFail)
  let usageSpec ← MonadExcept.ofExcept (hksBuildCipherUsageSpec runtimeParamSet)
  let rawKey ← MonadExcept.ofExcept (hksGetRawKey keyBlobParamSet)
  discard <| World.hal env
    (if purpose = encrypt then .encryptInit rawKey usageSpec else .decryptInit rawKey usageSpec)
  setCtx (some .cipher)

def coreCipherInit : InitM Unit := do
  updateNonceForAesAeMode env keyBlobParamSet false
  let runtimeParamSet := (← get).runtimeParamSet
  openCipher env keyBlobParamSet runtimeParamSet

def coreAesCipherInit : InitM Unit := do
  let mode ← MonadExcept.ofExcept (getUInt32 (← get).runtimeParamSet HksTag.blockMode)
  if mode = HksCipherMode.ccm then
    updateNonceForAesAeMode env keyBlobParamSet true
    let runtimeParamSet := (← get).runtimeParamSet
    setCacheModeCtx runtimeParamSet
  else
    coreCipherInit env keyBlobParamSet

def coreDesCipherInit : InitM Unit := do
  discard <| MonadExcept.ofExcept (getUInt32 (← get).runtimeParamSet HksTag.blockMode)
  coreCipherInit env keyBlobParamSet

def core3DesCipherInit : InitM Unit :=
  coreDesCipherInit env keyBlobParamSet

def hksCoreCryptoThreeStageInit (paramSet : HksParamSet) : InitM Unit := do
  let runtimeParamSet := (← get).runtimeParamSet
  MonadExcept.ofExcept (cipherAuth env keyBlobParamSet runtimeParamSet paramSet)
  let alg ← MonadExcept.ofExcept
    ((getUInt32 runtimeParamSet HksTag.algorithm).orError .checkGetAlgFail)
  if alg = HksKeyAlg.rsa ∨ alg = HksKeyAlg.sm2 then
    setCacheModeCtx runtimeParamSet
  else if alg = HksKeyAlg.aes then
    coreAesCipherInit env keyBlobParamSet
  else if alg = HksKeyAlg.des then
    coreDesCipherInit env keyBlobParamSet
  else if alg = HksKeyAlg.tripleDes then
    core3DesCipherInit env keyBlobParamSet
  else if alg = HksKeyAlg.sm4 then
    coreCipherInit env keyBlobParamSet
  else
    throw .invalidAlgorithm

end Init

section Update

variable (env : EngineEnv) (runtimeParamSet : HksParamSet)

def coreCipherUpdate (inData : Bytes) (outSize alg : UInt32) : CtxM Bytes := do
  if outSize = 0 then
    throw .invalidArgument
  else if outSize < inData.size then
    throw .bufferTooSmall
  else
    match ← getCryptoCtx runtimeParamSet with
    | none   => throw .nullPointer
    | some _ =>
      let purpose ← MonadExcept.ofExcept (getUInt32 runtimeParamSet HksTag.purpose)
      useCtx .cipher
      World.hal env
        (if purpose = encrypt then .encryptUpdate inData alg else .decryptUpdate inData alg)

def coreAesCipherUpdate (inData : Bytes) (outSize alg : UInt32) : CtxM Bytes := do
  let mode ← MonadExcept.ofExcept (getUInt32 runtimeParamSet HksTag.blockMode)
  if mode = HksCipherMode.ccm then
    checkCachedDataMaxSize env runtimeParamSet inData hksCipherCcmModeMaxDataLen
    updateCachedData env runtimeParamSet inData
    return []
  else
    coreCipherUpdate env runtimeParamSet inData outSize alg

def coreDesCipherUpdate (inData : Bytes) (outSize alg : UInt32) : CtxM Bytes := do
  discard <| MonadExcept.ofExcept (getUInt32 runtimeParamSet HksTag.blockMode)
  coreCipherUpdate env runtimeParamSet inData outSize alg

def core3DesCipherUpdate (inData : Bytes) (outSize alg : UInt32) : CtxM Bytes :=
  coreDesCipherUpdate env runtimeParamSet inData outSize alg

def hksCoreCryptoThreeStageUpdate (inData : Bytes) (outSize alg : UInt32) : CtxM Bytes := do
  let algParam ← MonadExcept.ofExcept
    ((getUInt32 runtimeParamSet HksTag.algorithm).orError .checkGetAlgFail)
  if algParam = HksKeyAlg.rsa ∨ algParam = HksKeyAlg.sm2 then
    updateCachedData env runtimeParamSet inData
    return []
  else if algParam = HksKeyAlg.aes then
    coreAesCipherUpdate env runtimeParamSet inData outSize alg
  else if algParam = HksKeyAlg.des then
    coreDesCipherUpdate env runtimeParamSet inData outSize alg
  else if algParam = HksKeyAlg.tripleDes then
    core3DesCipherUpdate env runtimeParamSet inData outSize alg
  else if algParam = HksKeyAlg.sm4 then
    coreCipherUpdate env runtimeParamSet inData outSize alg
  else
    throw .invalidAlgorithm

end Update

section Finish

variable (env : EngineEnv) (keyBlobParamSet runtimeParamSet : HksParamSet)

def needAppendNonce : Bool :=
  match hksGetParam runtimeParamSet HksTag.aesGcmNeedRegenerateNonce with
  | .error _            => false
  | .ok needAppendNonce => needAppendNonce.boolParam

-- The nonce goes behind the cipher text and its tag.
def appendNonceWhenNeeded (nonceLen : UInt32) (outData : Bytes) : Except HksErrorCode Bytes := do
  match hksGetParam runtimeParamSet HksTag.aesGcmNeedRegenerateNonce with
  | .error _            => return outData
  | .ok needAppendNonce =>
    if ¬needAppendNonce.boolParam then throw .invalidArgument
    let nonceParam ← (hksGetParam runtimeParamSet HksTag.nonce).orError .checkGetNonceFail
    if nonceParam.blobSize ≠ nonceLen then throw .invalidArgument
    return outData ++ runtimeParamSet.blob nonceParam

-- `HksCryptoHalEncryptFinal` and `HksCryptoHalDecryptFinal` take the context away.
def finishCipher (e : HksErrorCode → HksErrorCode) (call : HalCall) : CtxM Bytes := do
  discard <| requireCtx runtimeParamSet e .nullPointer
  useCtx .cipher
  let outData ← EStateM.attempt (World.hal env call)
  setCtx none
  MonadExcept.ofExcept outData

def coreAesEncryptFinish (inData : Bytes) (outSize alg : UInt32) : CtxM Bytes := do
  discard <| MonadExcept.ofExcept (hksGetEncryptAeTag runtimeParamSet inData.size outSize)
  MonadExcept.ofExcept (hksCheckFinishOutSize true runtimeParamSet inData.size outSize)
  discard <| requireCtx runtimeParamSet id .nullPointer
  if needAppendNonce runtimeParamSet ∧ outSize < inData.size + hksAeTagLen + hksAesGcmNonceLen then
    throw .invalidArgument
  else
    let outData ← finishCipher env runtimeParamSet id (.encryptFinal inData alg)
    MonadExcept.ofExcept (appendNonceWhenNeeded runtimeParamSet hksAesGcmNonceLen outData)

def coreAesDecryptFinish (inData : Bytes) (outSize alg : UInt32) : CtxM Bytes := do
  let (isAes, isAeMode) ← MonadExcept.ofExcept (hksCheckAesAeMode runtimeParamSet)
  let tag ←
    if isAes ∧ isAeMode then
      let tagParam ← MonadExcept.ofExcept (hksGetParam runtimeParamSet HksTag.aeTag)
      pure (runtimeParamSet.blob tagParam)
    else
      pure []
  MonadExcept.ofExcept (hksCheckFinishOutSize false runtimeParamSet inData.size outSize)
  finishCipher env runtimeParamSet id (.decryptFinal inData tag alg)

-- `CoreDesEncryptFinish`, `Core3DesEncryptFinish`, `CoreSm4EncryptFinish` and their counterparts
-- for decryption.
def coreBlockCipherFinish (isEncrypt : Bool) (inData : Bytes) (outSize alg : UInt32) :
    CtxM Bytes := do
  MonadExcept.ofExcept (hksCheckFinishOutSize isEncrypt runtimeParamSet inData.size outSize)
  finishCipher env runtimeParamSet id
    (if isEncrypt then .encryptFinal inData alg else .decryptFinal inData [] alg)

-- With too small a buffer for the nonce the source leaves its loop while `ret` is still
-- `HKS_SUCCESS`.
def coreAesCcmCipherFinish (isEncrypt : Bool) (inData : Bytes) (outSize : UInt32) :
    WorldM Bytes := do
  MonadExcept.ofExcept (hksCheckFinishOutSize isEncrypt runtimeParamSet inData.size outSize)
  let usageSpec ← MonadExcept.ofExcept (hksBuildCipherUsageSpec runtimeParamSet)
  let rawKey ← MonadExcept.ofExcept (hksGetRawKey keyBlobParamSet)
  if needAppendNonce runtimeParamSet ∧ outSize < inData.size + hksAeTagLen + hksAesCcmNonceLen then
    return []
  else if usageSpec.purpose = encrypt then
    discard <| MonadExcept.ofExcept (hksGetEncryptAeTag runtimeParamSet inData.size outSize)
    let outData ← World.hal env (.encrypt rawKey usageSpec inData)
    MonadExcept.ofExcept (appendNonceWhenNeeded runtimeParamSet hksAesCcmNonceLen outData)
  else
    let tag ← MonadExcept.ofExcept (hksGetDecryptAeTag runtimeParamSet)
    World.hal env (.decrypt rawKey usageSpec inData tag)

def coreAesCipherFinish (isEncrypt : Bool) (inData : Bytes) (outSize alg : UInt32) :
    CtxM Bytes := do
  let mode ← MonadExcept.ofExcept (getUInt32 runtimeParamSet HksTag.blockMode)
  if mode = HksCipherMode.ccm then
    checkCachedDataMaxSize env runtimeParamSet inData hksCipherCcmModeMaxDataLen
    let tempInData ← finishCachedData env runtimeParamSet inData
    coreAesCcmCipherFinish env keyBlobParamSet runtimeParamSet isEncrypt tempInData outSize
  else if isEncrypt then
    coreAesEncryptFinish env runtimeParamSet inData outSize alg
  else
    coreAesDecryptFinish env runtimeParamSet inData outSize alg

def coreDesCipherFinish (isEncrypt : Bool) (inData : Bytes) (outSize alg : UInt32) :
    CtxM Bytes := do
  discard <| MonadExcept.ofExcept (getUInt32 runtimeParamSet HksTag.blockMode)
  coreBlockCipherFinish env runtimeParamSet isEncrypt inData outSize alg

def core3DesCipherFinish (isEncrypt : Bool) (inData : Bytes) (outSize alg : UInt32) :
    CtxM Bytes :=
  coreDesCipherFinish env runtimeParamSet isEncrypt inData outSize alg

-- `RsaCipherFinish` and `Sm2CipherFinish`
def rsaCipherFinish (inData : Bytes) (outSize : UInt32) : WorldM Bytes := do
  let rawKey ← MonadExcept.ofExcept (hksGetRawKey keyBlobParamSet)
  let usageSpec := hksFillUsageSpec runtimeParamSet
  let isEncrypt : Bool := usageSpec.purpose = encrypt
  MonadExcept.ofExcept (hksCheckFinishOutSize isEncrypt runtimeParamSet inData.size outSize)
  World.hal env
    (if isEncrypt then .encrypt rawKey usageSpec inData else .decrypt rawKey usageSpec inData [])

def coreRsaCipherFinish (inData : Bytes) (outSize : UInt32) : CtxM Bytes := do
  let tempInData ← finishCachedData env runtimeParamSet inData
  rsaCipherFinish env keyBlobParamSet runtimeParamSet tempInData outSize

def coreSm2CipherFinish (inData : Bytes) (outSize : UInt32) : CtxM Bytes :=
  coreRsaCipherFinish env keyBlobParamSet runtimeParamSet inData outSize

-- `HksCoreEncryptThreeStageFinish` and `HksCoreDecryptThreeStageFinish`
def finishCrypto (isEncrypt : Bool) (inData : Bytes) (outSize alg : UInt32) : CtxM Bytes := do
  if outSize = 0 then
    throw .invalidArgument
  let algParam ← MonadExcept.ofExcept
    ((getUInt32 runtimeParamSet HksTag.algorithm).orError .checkGetAlgFail)
  if algParam = HksKeyAlg.rsa then
    coreRsaCipherFinish env keyBlobParamSet runtimeParamSet inData outSize
  else if algParam = HksKeyAlg.sm2 then
    coreSm2CipherFinish env keyBlobParamSet runtimeParamSet inData outSize
  else if algParam = HksKeyAlg.aes then
    coreAesCipherFinish env keyBlobParamSet runtimeParamSet isEncrypt inData outSize alg
  else if algParam = HksKeyAlg.des then
    coreDesCipherFinish env runtimeParamSet isEncrypt inData outSize alg
  else if algParam = HksKeyAlg.tripleDes then
    core3DesCipherFinish env runtimeParamSet isEncrypt inData outSize alg
  else if algParam = HksKeyAlg.sm4 then
    coreBlockCipherFinish env runtimeParamSet isEncrypt inData outSize alg
  else
    throw .invalidAlgorithm

def hksCoreEncryptThreeStageFinish (inData : Bytes) (outSize alg : UInt32) : CtxM Bytes :=
  finishCrypto env keyBlobParamSet runtimeParamSet true inData outSize alg

def hksCoreDecryptThreeStageFinish (inData : Bytes) (outSize alg : UInt32) : CtxM Bytes :=
  finishCrypto env keyBlobParamSet runtimeParamSet false inData outSize alg

end Finish

section Abort

variable (runtimeParamSet : HksParamSet)

def freeCryptoCtx (alg : UInt32) : CtxM Unit := do
  match ← getCryptoCtx runtimeParamSet with
  | none   => return
  | some _ =>
    if alg = HksKeyAlg.aes ∨ alg = HksKeyAlg.des ∨ alg = HksKeyAlg.tripleDes then
      match getUInt32 runtimeParamSet HksTag.blockMode with
      | .error _ => return
      | .ok mode =>
        if mode = HksCipherMode.ccm then freeCachedData else useCtx .cipher
        setCtx none
    else if alg = HksKeyAlg.sm4 then
      useCtx .cipher
      setCtx none
    else
      freeCachedData
      setCtx none

def hksCoreCryptoThreeStageAbort (alg : UInt32) : CtxM Unit :=
  freeCryptoCtx runtimeParamSet alg

end Abort

end Huks
