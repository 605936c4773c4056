import Huks.Engine.CryptoHal

namespace Huks

inductive HksAuthId
  | symCipher | asymCipher | signVerifyRsa | signVerifyEcc | signVerifyEd25519
  | macHmac | macSm3 | derive | agree | macCmac
  deriving DecidableEq, Repr

-- `g_authPolicyList`
def HksAuthId.policyTag : HksAuthId → List UInt32
  | symCipher         => [HksTag.algorithm, HksTag.blockMode, HksTag.padding, HksTag.purpose]
  | asymCipher        => [HksTag.algorithm, HksTag.digest, HksTag.padding, HksTag.purpose]
  | signVerifyRsa     => [HksTag.algorithm, HksTag.digest, HksTag.padding, HksTag.purpose]
  | signVerifyEcc     => [HksTag.algorithm, HksTag.digest, HksTag.purpose]
  | signVerifyEd25519 => [HksTag.purpose]
  | macHmac           => [HksTag.digest, HksTag.purpose]
  | macSm3            => [HksTag.algorithm, HksTag.digest, HksTag.purpose]
  | derive            => [HksTag.digest, HksTag.purpose]
  | agree             => [HksTag.purpose]
  | macCmac           => [HksTag.algorithm, HksTag.purpose]

def checkPurpose (authParam requestParam : HksParam) : Except HksErrorCode Unit :=
  if requestParam.uint32Param = 0 then
    .error .invalidArgument
  else if requestParam.uint32Param &&& authParam.uint32Param ≠ requestParam.uint32Param then
    .error .invalidArgument
  else
    .ok ()

variable (env : EngineEnv)

-- `param` is what the runtime param set has for the tag that the key blob lacks.
def optionalParamCheck (authTag alg purpose : UInt32) (paramSet : HksParamSet) :
    Except HksErrorCode Unit := do
  let param ← match hksGetParam paramSet authTag with
    | .error .paramNotExist => pure none
    | .error e              => .error e
    | .ok param             => pure (some param)
  env.hksCheckOptionalParam authTag alg purpose param
  if purpose &&& HksKeyPurpose.derive ≠ 0 ∨ purpose &&& HksKeyPurpose.mac ≠ 0 then
    return
  else
    env.hksCheckGenKeyMutableParams alg paramSet

-- One round of the loop of `AuthPolicy`.
def authTagPolicy (keyBlobParamSet paramSet : HksParamSet) (alg purpose authTag : UInt32) :
    Except HksErrorCode Unit := do
  match hksGetParam keyBlobParamSet authTag with
  | .error .paramNotExist => optionalParamCheck env authTag alg purpose paramSet
  | .error e              => .error e
  | .ok authParam =>
    let requestParam ← hksGetParam paramSet authTag
    if authTag ≠ HksTag.purpose then
      hksCheckParamMatch keyBlobParamSet authParam paramSet requestParam
    else
      checkPurpose authParam requestParam

def authPolicy (policyTag : List UInt32) (keyBlobParamSet paramSet : HksParamSet) :
    Except HksErrorCode Unit := do
  let alg ← (getUInt32 keyBlobParamSet HksTag.algorithm).orError .checkGetAlgFail
  let purpose ← (getUInt32 keyBlobParamSet HksTag.purpose).orError .checkGetPurposeFail
  env.getInputParams paramSet
  policyTag.forM (authTagPolicy env keyBlobParamSet paramSet alg purpose)

def hksThreeStageAuth (authId : HksAuthId) (keyBlobParamSet runtimeParamSet : HksParamSet) :
    Except HksErrorCode Unit :=
  authPolicy env authId.policyTag keyBlobParamSet runtimeParamSet

end Huks
