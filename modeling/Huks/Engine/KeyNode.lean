import Huks.Engine.CryptoHal

namespace Huks

-- The nodes are told apart by `id`, the ghost of their address; `ctx` is the object that the
-- entry `HKS_TAG_CRYPTO_CTX` of `runtimeParamSet` points at. A batch node keeps the `id` of the
-- node it works for.
structure HuksKeyNode where
  id                      : Nat
  keyBlobParamSet         : Option HksParamSet := none
  runtimeParamSet         : Option HksParamSet := none
  authRuntimeParamSet     : Option HksParamSet := none
  ctx                     : Option CryptoCtx := none
  handle                  : UInt64 := 0
  isBatchOperation        : Bool := false
  batchOperationTimestamp : UInt64 := 0
  deriving DecidableEq, Repr

inductive Stage
  | update | finish
  deriving DecidableEq, Repr

-- What happens to a key node in the `call`-th call of the engine: an auth token is accepted for
-- it, or a handler executes an operation, for a batch node on behalf of its node.
inductive NodeEvent
  | accepted (call id : Nat)
  | executed (call id : Nat) (stage : Stage) (purpose : UInt32) (isBatch : Bool)
    (keyBlobParamSet : HksParamSet)
  deriving DecidableEq, Repr

structure History where
  call   : Nat := 0
  events : List NodeEvent := []

-- `g_keyNodeList` and `g_keyNodeCount`, the number of nodes allocated so far, the surroundings
-- and the history.
structure Engine where
  keyNodes     : List HuksKeyNode := []
  keyNodeCount : UInt32 := 0
  allocated    : Nat := 0
  world        : World := {}
  history      : History := {}

abbrev EngineM := EStateM HksErrorCode Engine

def Engine.worldLens : EStateM.Lens Engine World where
  get s   := s.world
  set w s := { s with world := w }

instance : MonadLift WorldM EngineM := ⟨EStateM.zoom Engine.worldLens⟩

def maxKeyNodesCount       : Nat := 32
def maxKeyNodesEachTokenId : Nat := 10
def maxRetryCheckUniqueHandleTime : Nat := 10
def invalidTokenId : UInt32 := 0

open HksKeyPurpose

def setAesCcmModeTag (paramSet : HksParamSet) (alg pur : UInt32) : Except HksErrorCode Bool :=
  if alg ≠ HksKeyAlg.aes then
    .ok false
  else if pur ≠ encrypt ∧ pur ≠ decrypt then
    .ok false
  else
    match getUInt32 paramSet HksTag.blockMode with
    | .error _ => .error .unknownError
    | .ok mode => .ok (mode = HksCipherMode.ccm)

def freeCachedData : CtxM Unit := useCtx .cachedData

def keyNodeFreeCtx (purpose alg : UInt32) (hasCalcHash : Bool) : CtxM Unit :=
  if purpose = agree ∨ purpose = derive then
    freeCachedData
  else if purpose = sign ∨ purpose = verify then
    if hasCalcHash then useCtx .hash else freeCachedData
  else if purpose = encrypt ∨ purpose = decrypt then
    if alg ≠ HksKeyAlg.rsa then useCtx .cipher else freeCachedData
  else if purpose = mac then
    useCtx .hmac
  else
    return

def hasCalcHash (digest : Except HksErrorCode UInt32) (alg : UInt32) : Bool :=
  match digest with
  | .ok digest => digest ≠ HksKeyDigest.none ∧ alg ≠ HksKeyAlg.ed25519
  | .error _   => alg ≠ HksKeyAlg.ed25519

-- The part of `FreeRuntimeParamSet` that deals with a context that is still there.
def freeRuntimeCtx (paramSet : HksParamSet) : CtxM Unit :=
  match getUInt32 paramSet HksTag.purpose, getUInt32 paramSet HksTag.algorithm with
  | .ok purpose, .ok alg =>
    match getUInt32 paramSet HksTag.digest with
    | .error .invalidArgument => return
    | digest =>
      match setAesCcmModeTag paramSet alg purpose with
      | .error _   => return
      | .ok true   => freeCachedData
      | .ok false  => keyNodeFreeCtx purpose alg (hasCalcHash digest alg)
  | _, _ => return

def freeRuntimeParamSet (paramSet : Option HksParamSet) : CtxM Unit := do
  match paramSet with
  | none => return
  | some paramSet =>
    match hksGetParam paramSet HksTag.cryptoCtx, (← get).ctx with
    | .ok _, some ctx =>
      World.record (.destroy paramSet ctx.kind)
      freeRuntimeCtx paramSet
    | _, _ => return

-- The param set of a node goes away with its context; the one of the authentication holds none.
def freeNodeParamSets (keyNode : HuksKeyNode) (world : World) : World :=
  ((freeRuntimeParamSet keyNode.runtimeParamSet).run ⟨keyNode.ctx, world⟩).final.world

def deleteKeyNodeFree (keyNode : HuksKeyNode) : EngineM Unit :=
  modify fun s => { s with
    keyNodes := s.keyNodes.eraseP (·.id = keyNode.id)
    keyNodeCount := s.keyNodeCount - 1
    world := freeNodeParamSets keyNode s.world }

def buildRuntimeParamSet (inParamSet : Option HksParamSet) : Except HksErrorCode HksParamSet := do
  let ctxParam : HksParam := ⟨HksTag.cryptoCtx, 0, .null⟩
  match inParamSet with
  | none => hksBuildParamSet (← hksAddParams hksInitParamSet [ctxParam])
  | some inParamSet =>
    hksCheckIsTagAlreadyExist [HksTag.cryptoCtx] inParamSet
    let paramSet ← hksAddParams hksInitParamSet inParamSet.entries
    hksBuildParamSet (← hksAddParams paramSet [ctxParam])

def hksCheckUniqueHandle (keyNodes : List HuksKeyNode) (handle : UInt64) : Bool :=
  keyNodes.all (·.handle ≠ handle)

def generateKeyNodeHandle (env : EngineEnv) : Nat → EngineM UInt64
  | 0     => throw .failure
  | n + 1 => do
    let handle := le64 (← World.fillRandom env 4)
    if hksCheckUniqueHandle (← get).keyNodes handle then
      return handle
    else
      generateKeyNodeHandle env n

def getTokenIdFromParamSet (p : Option HksParamSet) : UInt32 :=
  match getParamOf p HksTag.accessTokenId with
  | .error _           => invalidTokenId
  | .ok accessTokenId => accessTokenId.uint32Param

def HuksKeyNode.tokenId (keyNode : HuksKeyNode) : UInt32 :=
  getTokenIdFromParamSet keyNode.runtimeParamSet

-- The loop of `DeleteFirstTimeOutBatchKeyNode`; a failing clock skips the node.
def deleteFirstTimeOutKeyNode (env : EngineEnv) : List HuksKeyNode → EngineM Unit
  | [] => return
  | keyNode :: keyNodes =>
    if ¬keyNode.isBatchOperation then
      deleteFirstTimeOutKeyNode env keyNodes
    else do
      match ← EStateM.attempt (World.hksElapsedRealTime env) with
      | .error _    => deleteFirstTimeOutKeyNode env keyNodes
      | .ok curTime =>
        if keyNode.batchOperationTimestamp ≥ curTime then
          deleteFirstTimeOutKeyNode env keyNodes
        else
          deleteKeyNodeFree keyNode

def deleteFirstTimeOutBatchKeyNode (env : EngineEnv) : EngineM Unit := do
  let s ← get
  if s.keyNodeCount.toNat < maxKeyNodesCount then
    return
  else
    deleteFirstTimeOutKeyNode env s.keyNodes

def deleteFirstKeyNodeForTokenId (tokenId : UInt32) : EngineM Bool := do
  match (← get).keyNodes.find? (·.tokenId = tokenId) with
  | some keyNode =>
    deleteKeyNodeFree keyNode
    return true
  | none => return false

def deleteKeyNodeForTokenIdIfExceedLimit (tokenId : UInt32) : EngineM Unit := do
  let s ← get
  if s.keyNodeCount.toNat < maxKeyNodesEachTokenId then
    return
  else if s.keyNodes.countP (·.tokenId = tokenId) ≥ maxKeyNodesEachTokenId then
    if ← deleteFirstKeyNodeForTokenId tokenId then
      return
    else
      throw .sessionReachedLimit

def deleteFirstKeyNode : EngineM Bool := do
  match (← get).keyNodes with
  | keyNode :: _ =>
    deleteKeyNodeFree keyNode
    return true
  | [] => return false

def appendKeyNode (keyNode : HuksKeyNode) : EngineM Unit :=
  modify fun s => { s with
    keyNodes := s.keyNodes ++ [keyNode]
    keyNodeCount := s.keyNodeCount + 1 }

def addKeyNode (env : EngineEnv) (keyNode : HuksKeyNode) (tokenId : UInt32) : EngineM Unit := do
  deleteFirstTimeOutBatchKeyNode env
  deleteKeyNodeForTokenIdIfExceedLimit tokenId
  if (← get).keyNodeCount.toNat ≥ maxKeyNodesCount then
    if ← deleteFirstKeyNode then
      appendKeyNode keyNode
    else
      throw .sessionReachedLimit
  else
    appendKeyNode keyNode

def hksCreateBatchKeyNode (keyNode : HuksKeyNode) (paramSet : HksParamSet) :
    Except HksErrorCode HuksKeyNode := do
  let runtimeParamSet ← buildRuntimeParamSet paramSet
  return {
    id := keyNode.id
    keyBlobParamSet := keyNode.keyBlobParamSet
    runtimeParamSet := runtimeParamSet
    authRuntimeParamSet := keyNode.authRuntimeParamSet }

-- The local variables of `HksCreateKeyNode` when it calls `AddKeyNode`.
structure NewKeyNode where
  keyNode         : HuksKeyNode
  runtimeParamSet : HksParamSet
  keyBlobParamSet : HksParamSet

def NewKeyNode.tokenId (new : NewKeyNode) : UInt32 := getTokenIdFromParamSet new.runtimeParamSet

def mallocKeyNode : EngineM Nat :=
  modifyGet fun s => (s.allocated, { s with allocated := s.allocated + 1 })

-- `HksCreateKeyNode` up to `AddKeyNode`.
def prepareKeyNode (env : EngineEnv) (key : Bytes) (paramSet : HksParamSet) :
    EngineM NewKeyNode := do
  let id ← mallocKeyNode
  let handle ← generateKeyNodeHandle env maxRetryCheckUniqueHandleTime
  let runtimeParamSet ← MonadExcept.ofExcept (buildRuntimeParamSet paramSet)
  let keyBlobParamSet ← MonadExcept.ofExcept (env.getKeyBlobParamSet (← World.next) key)
  return ⟨{ id := id, handle := handle }, runtimeParamSet, keyBlobParamSet⟩

-- Only after `AddKeyNode` does `HksCreateKeyNode` store the param sets in the listed node.
def assignParamSets (new : NewKeyNode) : EngineM Unit :=
  modify fun s => { s with
    keyNodes := s.keyNodes.map fun keyNode =>
      if keyNode.id = new.keyNode.id then
        { keyNode with
          keyBlobParamSet := new.keyBlobParamSet
          runtimeParamSet := new.runtimeParamSet
          authRuntimeParamSet := none }
      else
        keyNode }

-- The node it returns is the pointer to the listed one.
def hksCreateKeyNode (env : EngineEnv) (key : Bytes) (paramSet : HksParamSet) :
    EngineM HuksKeyNode := do
  let new ← prepareKeyNode env key paramSet
  addKeyNode env new.keyNode new.tokenId
  assignParamSets new
  return new.keyNode

def hksQueryKeyNode (handle : UInt64) : EngineM (Option HuksKeyNode) := do
  return (← get).keyNodes.find? (·.handle = handle)

def hksDeleteKeyNode (handle : UInt64) : EngineM Unit := do
  match (← get).keyNodes.find? (·.handle = handle) with
  | some keyNode => deleteKeyNodeFree keyNode
  | none         => return

end Huks
