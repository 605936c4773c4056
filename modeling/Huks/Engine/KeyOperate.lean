import Huks.Engine.SecureAccess
import Huks.Engine.ThreeStageCipher

namespace Huks

open HksKeyPurpose

def keyNodeSToMs               : UInt64 := 1000
def keyNodeDefaultBatchTimeOut : UInt64 := 60
def keyNodeMaxBatchTimeOut     : UInt64 := 600

-- The first loop of `GetPurposeAndAlgorithm`, which stops as soon as both values are not zero.
def findPurposeAndAlgorithm (pur alg : UInt32) : List HksParam → Option (UInt32 × UInt32)
  | []      => none
  | p :: ps =>
    let pur := if p.tag = HksTag.purpose then p.uint32Param else pur
    let alg := if p.tag = HksTag.algorithm then p.uint32Param else alg
    if pur ≠ 0 ∧ alg ≠ 0 then
      some (pur, alg)
    else
      findPurposeAndAlgorithm pur alg ps

-- In signature or verify scenario, and for HMAC and SM3, the second value is the digest.
def getPurposeAndAlgorithm (paramSet : HksParamSet) : Except HksErrorCode (UInt32 × UInt32) :=
  match findPurposeAndAlgorithm 0 0 paramSet.params with
  | none => .error .invalidArgument
  | some (pur, alg) =>
    if alg = HksKeyAlg.hmac ∨ alg = HksKeyAlg.sm3 ∨ pur = sign ∨ pur = verify then
      match paramSet.params.find? (·.tag = HksTag.digest) with
      | none   => .error .invalidArgument
      | some p => .ok (pur, p.uint32Param)
    else
      .ok (pur, alg)

def coreInitPreCheck (paramSet : HksParamSet) (handleSize : Nat) : Except HksErrorCode Unit := do
  if handleSize < 8 then throw .insufficientMemory
  (hksCheckParamSet paramSet paramSet.paramSetSize).orError .invalidArgument
  (hksCheckParamSetTag paramSet).orError .invalidArgument

-- `HKS_ERROR_PARAM_NOT_EXIST` says that the node is no batch node.
def hksBatchCheck (keyNode : HuksKeyNode) : Except HksErrorCode Unit := do
  if ¬keyNode.isBatchOperation then
    throw .paramNotExist
  else
    let purpose ← (getUInt32Of keyNode.runtimeParamSet HksTag.purpose).orError .invalidArgument
    let batchPurpose ←
      (getUInt32Of keyNode.keyBlobParamSet HksTag.batchPurpose).orError .invalidArgument
    if purpose ||| batchPurpose ≠ batchPurpose then
      throw .invalidPurpose

def NodeState.ctxLens : EStateM.Lens NodeState CtxState where
  get s   := ⟨s.node.ctx, s.world⟩
  set c s := { s with node := { s.node with ctx := c.ctx }, world := c.world }

def NodeState.runtimeLens (runtimeParamSet : HksParamSet) : EStateM.Lens NodeState RuntimeState where
  get s   := ⟨runtimeParamSet, s.node.ctx, s.world⟩
  set r s := { s with
    node := { s.node with runtimeParamSet := r.runtimeParamSet, ctx := r.ctx }
    world := r.world }

-- Runs a handler on the context of the node, given its key blob and its runtime param set.
def onCtx {α : Type} (x : HksParamSet → HksParamSet → CtxM α) : NodeM α := do
  let keyNode := (← get).node
  match keyNode.keyBlobParamSet, keyNode.runtimeParamSet with
  | some keyBlobParamSet, some runtimeParamSet =>
    EStateM.zoom NodeState.ctxLens (x keyBlobParamSet runtimeParamSet)
  | _, _ => throw .nullPointer

-- Runs an init handler, which may replace the runtime param set.
def onRuntime {α : Type} (x : HksParamSet → HksParamSet → InitM α) : NodeM α := do
  let keyNode := (← get).node
  match keyNode.keyBlobParamSet, keyNode.runtimeParamSet with
  | some keyBlobParamSet, some runtimeParamSet =>
    EStateM.zoom (NodeState.runtimeLens runtimeParamSet) (x keyBlobParamSet runtimeParamSet)
  | _, _ => throw .nullPointer

section Process

variable (env : EngineEnv)

-- `g_hksCoreInitHandler`
def hksCoreInitHandler (paramSet : HksParamSet) (pur alg : UInt32)
    (keyBlobParamSet runtimeParamSet : HksParamSet) : InitM Unit :=
  if pur = sign ∨ pur = verify then
    hksCoreSignVerifyThreeStageInit env keyBlobParamSet runtimeParamSet alg
  else if pur = encrypt ∨ pur = decrypt then
    hksCoreCryptoThreeStageInit env keyBlobParamSet paramSet
  else if pur = derive then
    hksCoreDeriveThreeStageInit
  else if pur = agree then
    hksCoreAgreeThreeStageInit env keyBlobParamSet runtimeParamSet
  else if pur = mac then
    hksCoreMacThreeStageInit env keyBlobParamSet runtimeParamSet paramSet alg
  else
    throw .invalidArgument

-- `g_hksCoreUpdateHandler`
def hksCoreUpdateHandler (paramSet : HksParamSet) (pur alg : UInt32) (inData : Bytes)
    (outSize : UInt32) (keyBlobParamSet runtimeParamSet : HksParamSet) : CtxM Bytes :=
  if pur = sign ∨ pur = verify then
    hksCoreSignVerifyThreeStageUpdate env runtimeParamSet inData alg
  else if pur = encrypt ∨ pur = decrypt then
    hksCoreCryptoThreeStageUpdate env runtimeParamSet inData outSize alg
  else if pur = derive then
    hksCoreDeriveThreeStageUpdate env keyBlobParamSet runtimeParamSet
  else if pur = agree then
    hksCoreAgreeThreeStageUpdate env keyBlobParamSet runtimeParamSet inData
  else if pur = mac then
    hksCoreMacThreeStageUpdate env runtimeParamSet paramSet inData
  else
    throw .invalidArgument

-- `g_hksCoreFinishHandler`
def hksCoreFinishHandler (paramSet : HksParamSet) (pur alg : UInt32) (inData : Bytes)
    (outSize : UInt32) (keyBlobParamSet runtimeParamSet : HksParamSet) : CtxM Bytes :=
  if pur = sign ∨ pur = verify then
    hksCoreSignVerifyThreeStageFinish env keyBlobParamSet runtimeParamSet inData outSize alg
  else if pur = encrypt then
    hksCoreEncryptThreeStageFinish env keyBlobParamSet runtimeParamSet inData outSize alg
  else if pur = decrypt then
    hksCoreDecryptThreeStageFinish env keyBlobParamSet runtimeParamSet inData outSize alg
  else if pur = derive then
    hksCoreDeriveThreeStageFinish env keyBlobParamSet runtimeParamSet paramSet outSize
  else if pur = agree then
    hksCoreAgreeThreeStageFinish env keyBlobParamSet runtimeParamSet paramSet outSize
  else if pur = mac then
    hksCoreMacThreeStageFinish env runtimeParamSet paramSet inData outSize
  else
    throw .invalidArgument

-- `g_hksCoreAbortHandler`
def hksCoreAbortHandler (paramSet : HksParamSet) (pur alg : UInt32)
    (_ runtimeParamSet : HksParamSet) : CtxM Unit :=
  if pur = sign ∨ pur = verify then
    hksCoreSignVerifyThreeStageAbort env runtimeParamSet
  else if pur = encrypt ∨ pur = decrypt then
    hksCoreCryptoThreeStageAbort runtimeParamSet alg
  else if pur = derive then
    hksCoreDeriveThreeStageAbort runtimeParamSet
  else if pur = agree then
    hksCoreAgreeThreeStageAbort runtimeParamSet
  else if pur = mac then
    hksCoreMacThreeStageAbort env runtimeParamSet paramSet
  else
    throw .invalidArgument

-- The purposes that the tables of handlers list.
def hasHandler (pur : UInt32) : Bool :=
  pur ∈ [sign, verify, encrypt, decrypt, derive, agree, mac]

def hksCoreInitProcess (paramSet : HksParamSet) (pur alg : UInt32) : NodeM Unit :=
  onRuntime (hksCoreInitHandler env paramSet pur alg)

def runtimePurposeAndAlgorithm : NodeM (UInt32 × UInt32) := do
  MonadExcept.ofExcept ((← get).node.runtimeParamSet.elim (.error .nullPointer)
    getPurposeAndAlgorithm)

def recordExecuted (stage : Stage) (pur : UInt32) (isBatch : Bool) : NodeM Unit := do
  match (← get).node.keyBlobParamSet with
  | none                 => return
  | some keyBlobParamSet =>
    recordNode fun history node => .executed history.call node.id stage pur isBatch keyBlobParamSet

def hksCoreUpdateProcess (paramSet : HksParamSet) (inData : Bytes) (outSize : UInt32) :
    NodeM Bytes := do
  let (pur, alg) ← runtimePurposeAndAlgorithm
  if ¬hasHandler pur then
    throw .invalidArgument
  else
    let inData ← hksCoreAppendAuthInfoBeforeUpdate env pur inData
    recordExecuted .update pur false
    onCtx (hksCoreUpdateHandler env paramSet pur alg inData outSize)

-- `isBatch` is for the history only.
def hksCoreFinishProcess (isBatch : Bool) (paramSet : HksParamSet) (inData : Bytes)
    (outSize : UInt32) : NodeM Bytes := do
  let (pur, alg) ← runtimePurposeAndAlgorithm
  if ¬hasHandler pur then
    throw .invalidArgument
  else
    let inData ← hksCoreAppendAuthInfoBeforeFinish env pur inData
    recordExecuted .finish pur isBatch
    let outData ← onCtx (hksCoreFinishHandler env paramSet pur alg inData outSize)
    hksCoreAppendAuthInfoAfterFinish pur outSize outData

end Process

section Batch

variable (env : EngineEnv)

-- The loop of `HksAddBatchTimeToKeyNode`, and the checks behind it.
def addBatchTimeToKeyNode (curTime : UInt64) (keyNode : HuksKeyNode)
    (findOperation findTimeout : Bool) : List HksParam → Except HksErrorCode HuksKeyNode
  | [] => done keyNode findOperation findTimeout
  | p :: ps =>
    if p.tag = HksTag.isBatchOperation then
      addBatchTimeToKeyNode curTime { keyNode with isBatchOperation := p.boolParam } true
        findTimeout ps
    else if p.tag = HksTag.batchOperationTimeout then
      if p.uint32Param.toUInt64 > keyNodeMaxBatchTimeOut then
        .error .notSupported
      else
        addBatchTimeToKeyNode curTime
          { keyNode with
            batchOperationTimestamp := curTime + p.uint32Param.toUInt64 * keyNodeSToMs }
          findOperation true ps
    else if findOperation ∧ findTimeout then
      done keyNode findOperation findTimeout
    else
      addBatchTimeToKeyNode curTime keyNode findOperation findTimeout ps
where
  done (keyNode : HuksKeyNode) (findOperation findTimeout : Bool) :
      Except HksErrorCode HuksKeyNode :=
    if ¬findOperation ∧ findTimeout then
      .error .notSupported
    else if ¬findOperation then
      .ok { keyNode with batchOperationTimestamp := 0 }
    else
      .ok keyNode

def hksAddBatchTimeToKeyNode (paramSet : HksParamSet) : NodeM Unit := do
  let curTime ← World.hksElapsedRealTime env
  let keyNode ← MonadExcept.ofExcept <| addBatchTimeToKeyNode curTime
    { (← get).node with
      isBatchOperation := false
      batchOperationTimestamp := curTime + keyNodeDefaultBatchTimeOut * keyNodeSToMs }
    false false paramSet.params
  modify fun s => { s with node := keyNode }

def hksCheckBatchUpdateTime : NodeM Unit := do
  let curTime ← World.hksElapsedRealTime env
  if (← get).node.batchOperationTimestamp < curTime then throw .invalidTimeOut

def NodeState.batchLens (batchKeyNode : HuksKeyNode) : EStateM.Lens NodeState NodeState where
  get s   := { s with node := batchKeyNode }
  -- `HksFreeUpdateKeyNode` frees what the batch node does not share with its node.
  set t s := {
    node := { s.node with authRuntimeParamSet := t.node.authRuntimeParamSet }
    world := freeNodeParamSets t.node t.world
    history := t.history }

-- The operation on the batch node.
def batchOperation (paramSet : HksParamSet) (inData : Bytes) (outSize : UInt32) : NodeM Bytes := do
  let (pur, alg) ← MonadExcept.ofExcept (getPurposeAndAlgorithm paramSet)
  hksCoreInitProcess env paramSet pur alg
  hksCoreFinishProcess env true paramSet inData outSize

-- Every operation of a batch needs an auth token of its own.
def resetAuth : NodeM Unit := do
  let keyNode := (← get).node
  discard <| MonadExcept.ofExcept
    ((getParamOf keyNode.authRuntimeParamSet HksTag.keyAuthResult).orError .badState)
  setAuthResult HksAuthResult.init
  discard <| MonadExcept.ofExcept
    ((getParamOf keyNode.authRuntimeParamSet HksTag.ifNeedAppendAuthInfo).orError .badState)
  modifyAuth (·.update HksTag.ifNeedAppendAuthInfo (·.setBool false))

def hksBatchUpdate (paramSet : HksParamSet) (inData : Bytes) (outSize : UInt32) :
    NodeM Bytes := do
  resetAuth
  hksCheckBatchUpdateTime env
  let batchKeyNode ← MonadExcept.ofExcept
    ((hksCreateBatchKeyNode (← get).node paramSet).orError .badState)
  EStateM.zoom (NodeState.batchLens batchKeyNode) (batchOperation env paramSet inData outSize)

end Batch

section Core

variable (env : EngineEnv)

-- Runs the part of a call that works on a listed node.
def onKeyNode {α : Type} (id : Nat) (x : NodeM α) : EngineM α := fun s =>
  match s.keyNodes.find? (·.id = id) with
  | none         => .error .internalError s
  | some keyNode =>
    match x.run ⟨keyNode, s.world, s.history⟩ with
    | .ok a t    => .ok a (store s t)
    | .error e t => .error e (store s t)
where
  store (s : Engine) (t : NodeState) : Engine := { s with
    keyNodes := s.keyNodes.map fun keyNode => if keyNode.id = id then t.node else keyNode
    world := t.world
    history := t.history }

def beginCall : EngineM Unit :=
  modify fun s => { s with history := { s.history with call := s.history.call + 1 } }

-- `HksCoreInit` from the created node on; the result is the token for the caller.
def initKeyNode (paramSet : HksParamSet) (tokenSize : Nat) : NodeM Bytes := do
  hksAddBatchTimeToKeyNode env paramSet
  hksProcessIdentityVerify env (← get).node.keyBlobParamSet paramSet
  let (pur, alg) ← MonadExcept.ofExcept (getPurposeAndAlgorithm paramSet)
  let token ← hksCoreSecureAccessInitParams env paramSet tokenSize
  match hksBatchCheck (← get).node with
  | .ok _ => return token
  | .error .paramNotExist =>
    hksCoreInitProcess env paramSet pur alg
    return token
  | .error e => throw e

-- The handle and the token that the caller gets; `handleSize` and `tokenSize` are the sizes of
-- the buffers for them.
def hksCoreInit (key : Bytes) (paramSet : HksParamSet) (handleSize tokenSize : Nat) :
    EngineM (UInt64 × Bytes) := do
  beginCall
  MonadExcept.ofExcept (coreInitPreCheck paramSet handleSize)
  match ← EStateM.attempt (hksCreateKeyNode env key paramSet) with
  | .error _    => throw .badState
  | .ok keyNode =>
    match ← EStateM.attempt (onKeyNode keyNode.id (initKeyNode env paramSet tokenSize)) with
    | .ok token => return (keyNode.handle, token)
    | .error e  =>
      hksDeleteKeyNode keyNode.handle
      throw e

-- The session id; `memcpy_s` leaves the bytes of the local variable that the handle does not have.
def sessionIdOf (handle : Bytes) : EngineM UInt64 := do
  if handle.length > 8 then
    throw .insufficientMemory
  else
    return le64 ((handle ++ env.uninitialized (← World.next)).take 8)

def getParamsForUpdateAndFinish (handle : Bytes) : EngineM HuksKeyNode := do
  match ← hksQueryKeyNode (← sessionIdOf env handle) with
  | none         => throw .badState
  | some keyNode => return keyNode

def updateKeyNode (paramSet : HksParamSet) (inData : Bytes) (outSize : UInt32) : NodeM Bytes := do
  checkIfNeedIsDevicePasswordSet env (← get).node.keyBlobParamSet
  hksCoreSecureAccessVerifyParams env paramSet
  match hksBatchCheck (← get).node with
  | .ok _                 => hksBatchUpdate env paramSet inData outSize
  | .error .paramNotExist => hksCoreUpdateProcess env paramSet inData outSize
  | .error e              => throw e

def hksCoreUpdate (handle : Bytes) (paramSet : HksParamSet) (inData : Bytes) (outSize : UInt32) :
    EngineM Bytes := do
  beginCall
  MonadExcept.ofExcept (hksCheckParamSetTag paramSet)
  let keyNode ← getParamsForUpdateAndFinish env handle
  match ← EStateM.attempt (onKeyNode keyNode.id (updateKeyNode env paramSet inData outSize)) with
  | .ok outData => return outData
  | .error e    =>
    hksDeleteKeyNode keyNode.handle
    throw e

def finishKeyNode (paramSet : HksParamSet) (inData : Bytes) (outSize : UInt32) : NodeM Bytes := do
  checkIfNeedIsDevicePasswordSet env (← get).node.keyBlobParamSet
  match hksBatchCheck (← get).node with
  | .ok _                 => return []
  | .error .paramNotExist =>
    hksCoreSecureAccessVerifyParams env paramSet
    hksCoreFinishProcess env false paramSet inData outSize
  | .error e => throw e

def hksCoreFinish (handle : Bytes) (paramSet : HksParamSet) (inData : Bytes) (outSize : UInt32) :
    EngineM Bytes := do
  beginCall
  MonadExcept.ofExcept ((hksCheckParamSetTag paramSet).orError .nullPointer)
  let keyNode ← getParamsForUpdateAndFinish env handle
  let outData ← EStateM.attempt
    (onKeyNode keyNode.id (finishKeyNode env paramSet inData outSize))
  hksDeleteKeyNode keyNode.handle
  MonadExcept.ofExcept outData

def abortKeyNode (paramSet : HksParamSet) : NodeM Unit := do
  let (pur, alg) ← runtimePurposeAndAlgorithm
  onCtx (hksCoreAbortHandler env paramSet pur alg)

def hksCoreAbort (handle : Bytes) (paramSet : HksParamSet) : EngineM Unit := do
  beginCall
  MonadExcept.ofExcept (hksCheckParamSetTag paramSet)
  match ← hksQueryKeyNode (← sessionIdOf env handle) with
  | none         => return
  | some keyNode =>
    let ret ← EStateM.attempt (onKeyNode keyNode.id (abortKeyNode env paramSet))
    hksDeleteKeyNode keyNode.handle
    MonadExcept.ofExcept ret

end Core

end Huks
