import Huks.Engine.Theorems.KeyPolicy
import Huks.Lib.RelatedRuns

namespace Huks

open EStateM HksKeyPurpose

-- The same surroundings with another crypto library.
def EngineEnv.withHal (env : EngineEnv) (hal : Nat → HalCall → Except HksErrorCode Bytes) :
    EngineEnv :=
  { env with hal := hal }

-- The other library answers the calls with `p` as the one of `env` does.
def EngineEnv.AgreesOn (env : EngineEnv) (hal : Nat → HalCall → Except HksErrorCode Bytes)
    (p : HalCall → Prop) : Prop :=
  ∀ n call, p call → hal n call = env.hal n call

section KeyFree

variable {env : EngineEnv} {hal' : Nat → HalCall → Except HksErrorCode Bytes}

theorem EngineEnv.AgreesOn.hal {p : HalCall → Prop} (h : env.AgreesOn hal' p) (call : HalCall)
    (hc : p call) : World.hal (env.withHal hal') call = World.hal env call := by
  refine congrArg (World.next >>= ·) (funext fun n => ?_)
  exact congrArg MonadExcept.ofExcept (h n call hc)

variable (h : env.AgreesOn hal' (·.usesKey = false))
include h

theorem fillRandom_withHal (size : Nat) :
    World.fillRandom (env.withHal hal') size = World.fillRandom env size := by
  simp only [World.fillRandom, h.hal (.fillRandom size) rfl]

theorem readCachedData_withHal (ctx : CryptoCtx) :
    readCachedData (env.withHal hal') ctx = readCachedData env ctx := by
  cases ctx <;> simp only [readCachedData, h.hal (.reinterpret _) rfl]

theorem updateCachedData_withHal (runtimeParamSet : HksParamSet) (srcData : Bytes) :
    updateCachedData (env.withHal hal') runtimeParamSet srcData =
      updateCachedData env runtimeParamSet srcData := by
  simp only [updateCachedData, readCachedData_withHal h]

theorem finishCachedData_withHal (runtimeParamSet : HksParamSet) (srcData : Bytes) :
    finishCachedData (env.withHal hal') runtimeParamSet srcData =
      finishCachedData env runtimeParamSet srcData := by
  simp only [finishCachedData, readCachedData_withHal h]

theorem checkCachedDataMaxSize_withHal (runtimeParamSet : HksParamSet) (inData : Bytes)
    (maxDataLen : UInt32) :
    checkCachedDataMaxSize (env.withHal hal') runtimeParamSet inData maxDataLen =
      checkCachedDataMaxSize env runtimeParamSet inData maxDataLen := by
  simp only [checkCachedDataMaxSize, readCachedData_withHal h]

theorem coreHashUpdate_withHal (runtimeParamSet : HksParamSet) (srcData : Bytes) :
    coreHashUpdate (env.withHal hal') runtimeParamSet srcData =
      coreHashUpdate env runtimeParamSet srcData := by
  simp only [coreHashUpdate, h.hal (.hashUpdate srcData) rfl]

theorem coreHashFinish_withHal (runtimeParamSet : HksParamSet) (srcData : Bytes) :
    coreHashFinish (env.withHal hal') runtimeParamSet srcData =
      coreHashFinish env runtimeParamSet srcData := by
  simp only [coreHashFinish, h.hal (.hashFinal srcData) rfl]

theorem updateNonceForAesAeMode_withHal (keyBlobParamSet : HksParamSet) (isCcm : Bool) :
    updateNonceForAesAeMode (env.withHal hal') keyBlobParamSet isCcm =
      updateNonceForAesAeMode env keyBlobParamSet isCcm := by
  simp only [updateNonceForAesAeMode, fillRandom_withHal h]

theorem finishAgreeDerive_withHal (keyBlobParamSet runtimeParamSet paramSet : HksParamSet)
    (keyFlag : UInt8) (outSize : UInt32) :
    finishAgreeDerive (env.withHal hal') keyBlobParamSet runtimeParamSet paramSet keyFlag outSize =
      finishAgreeDerive env keyBlobParamSet runtimeParamSet paramSet keyFlag outSize := by
  have haction (restoreData : Bytes) (isNeedStorage : Bool) :
      doBuildKeyBlobOrGetOutDataAction (env.withHal hal') paramSet restoreData outSize keyFlag
          isNeedStorage =
        doBuildKeyBlobOrGetOutDataAction env paramSet restoreData outSize keyFlag isNeedStorage := by
    simp only [doBuildKeyBlobOrGetOutDataAction, h.hal (.buildKeyBlob _ _ _) rfl]
  simp only [finishAgreeDerive, readCachedData_withHal h, buildAgreeDeriveKeyBlobOrGetOutData, haction]
  rfl

theorem verifyAuthToken_withHal (keyBlobParamSet authRuntimeParamSet : Option HksParamSet)
    (paramSet : HksParamSet) :
    verifyAuthToken (env.withHal hal') keyBlobParamSet authRuntimeParamSet paramSet =
      verifyAuthToken env keyBlobParamSet authRuntimeParamSet paramSet := by
  have hsign (authToken : HksUserAuthToken) :
      hksVerifyAuthTokenSign (env.withHal hal') authToken = hksVerifyAuthTokenSign env authToken := by
    simp only [hksVerifyAuthTokenSign, h.hal (.hmac _ _) rfl]
    rfl
  have hdecrypt (authToken : HksUserAuthToken) :
      hksDecryptAuthToken (env.withHal hal') authToken = hksDecryptAuthToken env authToken := by
    simp only [hksDecryptAuthToken, h.hal (.decryptAead _ _ _ _) rfl]
    rfl
  simp only [verifyAuthToken, hsign, hdecrypt]
  rfl

theorem buildAuthRuntimeParamSet_withHal (innerParams : HksSecureAccessInnerParams) (b : Bool) :
    buildAuthRuntimeParamSet (env.withHal hal') innerParams b =
      buildAuthRuntimeParamSet env innerParams b := by
  simp only [buildAuthRuntimeParamSet, fillRandom_withHal h]
  rfl

theorem hksCoreSecureAccessInitParams_withHal (initParamSet : HksParamSet) (outTokenSize : Nat) :
    hksCoreSecureAccessInitParams (env.withHal hal') initParamSet outTokenSize =
      hksCoreSecureAccessInitParams env initParamSet outTokenSize := by
  simp only [hksCoreSecureAccessInitParams, buildAuthRuntimeParamSet_withHal h]
  rfl

theorem hksCoreSecureAccessVerifyParams_withHal (paramSet : HksParamSet) :
    hksCoreSecureAccessVerifyParams (env.withHal hal') paramSet =
      hksCoreSecureAccessVerifyParams env paramSet := by
  simp only [hksCoreSecureAccessVerifyParams, verifyAuthToken_withHal h]

theorem generateKeyNodeHandle_withHal (n : Nat) :
    generateKeyNodeHandle (env.withHal hal') n = generateKeyNodeHandle env n := by
  induction n
  case zero => rfl
  case succ n ih => simp only [generateKeyNodeHandle, fillRandom_withHal h, ih]

theorem prepareKeyNode_withHal (key : Bytes) (paramSet : HksParamSet) :
    prepareKeyNode (env.withHal hal') key paramSet = prepareKeyNode env key paramSet := by
  simp only [prepareKeyNode, generateKeyNodeHandle_withHal h]
  rfl

omit h in
theorem deleteFirstTimeOutKeyNode_withHal (keyNodes : List HuksKeyNode) :
    deleteFirstTimeOutKeyNode (env.withHal hal') keyNodes = deleteFirstTimeOutKeyNode env keyNodes := by
  induction keyNodes
  case nil => rfl
  case cons keyNode keyNodes ih =>
    simp only [deleteFirstTimeOutKeyNode, ih]
    rfl

theorem hksCreateKeyNode_withHal (key : Bytes) (paramSet : HksParamSet) :
    hksCreateKeyNode (env.withHal hal') key paramSet = hksCreateKeyNode env key paramSet := by
  have hadd (keyNode : HuksKeyNode) (tokenId : UInt32) :
      addKeyNode (env.withHal hal') keyNode tokenId = addKeyNode env keyNode tokenId := by
    simp only [addKeyNode, deleteFirstTimeOutBatchKeyNode, deleteFirstTimeOutKeyNode_withHal]
  simp only [hksCreateKeyNode, prepareKeyNode_withHal h, hadd]

end KeyFree

end Huks
