import Huks.Common.Param

namespace Huks

open HksParamSet

structure HksProcessInfo where
  userId        : Bytes
  processName   : Bytes
  userIdInt     : Int32 := 0
  uidInt        : UInt32 := 0
  accessTokenId : UInt64
  deriving DecidableEq, Repr

-- `addr` is the address of the list node: operations are marked and unlinked through pointers.
structure HksOperation where
  addr                     : Nat
  userId                   : Bytes
  processName              : Bytes
  handle                   : UInt64
  abortable                : Bool
  accessTokenId            : UInt64
  isInUse                  : Bool := false
  batchOperationTimestamp  : UInt64 := 0
  isBatchOperation         : Bool := false
  isUserIdPassedDuringInit : Bool := false
  userIdPassedDuringInit   : Int32 := 0
  deriving DecidableEq, Repr

-- `g_operationList` and `g_operationCount`, the engine below them, and the number of clock
-- readings and allocations so far.
structure Sessions (σ : Type) where
  operations     : List HksOperation := []
  operationCount : UInt32 := 0
  engine         : σ
  tick           : Nat := 0

-- What the session manager calls: the clock, whose n-th reading may fail, and `HuksAccessAbort`.
structure SessionEnv (σ : Type) where
  elapsedRealTime : Nat → Except HksErrorCode UInt64
  huksAccessAbort : UInt64 → σ → σ

abbrev SessionM (σ : Type) := EStateM HksErrorCode (Sessions σ)

def maxOperationsCount       : Nat := 32
def maxOperationsEachTokenId : Nat := 10

def sToMs               : UInt64 := 1000
def defaultBatchTimeOut : UInt64 := 60
def maxBatchTimeOut     : UInt64 := 600

variable {σ : Type} (env : SessionEnv σ)

def hksElapsedRealTime : SessionM σ (Except HksErrorCode UInt64) :=
  modifyGet fun s => (env.elapsedRealTime s.tick, { s with tick := s.tick + 1 })

def deleteKeyNode (operationHandle : UInt64) : SessionM σ Unit :=
  modify fun s => { s with engine := env.huksAccessAbort operationHandle s.engine }

def freeOperation (operation : HksOperation) : SessionM σ Unit :=
  modify fun s => { s with operations := s.operations.eraseP (·.addr = operation.addr) }

def deleteKeyNodeAndDecreaseGlobalCount (operation : HksOperation) : SessionM σ Unit := do
  deleteKeyNode env operation.handle
  freeOperation operation
  modify fun s => { s with operationCount := s.operationCount - 1 }

def deleteFirstAbortableOperation : SessionM σ Bool := do
  match (← get).operations.find? (!·.isInUse) with
  | some operation =>
    deleteKeyNodeAndDecreaseGlobalCount env operation
    return true
  | none => return false

-- The loop of `DeleteFirstTimeOutBatchOperation` over the operations left; every batch operation
-- reads the clock again.
def deleteFirstTimeOut : List HksOperation → SessionM σ Unit
  | [] => return
  | operation :: operations =>
    if ¬operation.isBatchOperation then
      deleteFirstTimeOut operations
    else do
      match ← hksElapsedRealTime env with
      | .error _     => deleteFirstTimeOut operations
      | .ok curTime =>
        if operation.batchOperationTimestamp ≥ curTime ∨ operation.isInUse then
          deleteFirstTimeOut operations
        else
          deleteKeyNodeAndDecreaseGlobalCount env operation

def deleteFirstTimeOutBatchOperation : SessionM σ Unit := do
  let s ← get
  if s.operationCount.toNat < maxOperationsCount then
    return
  else
    deleteFirstTimeOut env s.operations

def deleteFirstAbortableOperationForTokenId (tokenId : UInt32) : SessionM σ Bool := do
  match (← get).operations.find? fun o => o.accessTokenId = tokenId.toUInt64 ∧ ¬o.isInUse with
  | some operation =>
    deleteKeyNodeAndDecreaseGlobalCount env operation
    return true
  | none => return false

def deleteForTokenIdIfExceedLimit (tokenId : UInt32) : SessionM σ Unit := do
  let s ← get
  if s.operationCount.toNat < maxOperationsEachTokenId then
    return
  else if s.operations.countP (·.accessTokenId = tokenId.toUInt64) ≥ maxOperationsEachTokenId then
    if ← deleteFirstAbortableOperationForTokenId env tokenId then
      return
    else
      throw .sessionReachedLimit

def appendOperation (operation : HksOperation) : SessionM σ Unit :=
  modify fun s => { s with
    operations := s.operations ++ [operation]
    operationCount := s.operationCount + 1 }

-- The token id is passed on as a `uint32_t`.
def addOperation (operation : HksOperation) : SessionM σ Unit := do
  deleteFirstTimeOutBatchOperation env
  deleteForTokenIdIfExceedLimit env operation.accessTokenId.toUInt32
  if (← get).operationCount.toNat ≥ maxOperationsCount then
    if ← deleteFirstAbortableOperation env then
      appendOperation operation
    else
      throw .sessionReachedLimit
  else
    appendOperation operation

def constructOperationProcessInfo (processInfo : HksProcessInfo) (operation : HksOperation) :
    Except HksErrorCode HksOperation :=
  if mallocOk processInfo.userId.length ∧ mallocOk processInfo.processName.length then
    .ok { operation with
      userId := processInfo.userId
      processName := processInfo.processName
      accessTokenId := processInfo.accessTokenId }
  else
    .error .mallocFail

def constructOperationHandle (operationHandle : Bytes) : Except HksErrorCode UInt64 :=
  if operationHandle.length < 8 then
    .error .invalidArgument
  else if operationHandle.length > 8 then
    .error .insufficientMemory
  else
    .ok (le64 operationHandle)

-- The loop of `HksAddBatchTimeToOperation`.
def addBatchTime (curTime : UInt64) (operation : HksOperation) (findOperation findTimeout : Bool) :
    List HksParam → Except HksErrorCode HksOperation
  | [] =>
    if findOperation then .ok operation else .ok { operation with batchOperationTimestamp := 0 }
  | p :: ps =>
    if p.tag = HksTag.isBatchOperation then
      addBatchTime curTime { operation with isBatchOperation := p.boolParam } true findTimeout ps
    else if p.tag = HksTag.batchOperationTimeout then
      if p.uint32Param.toUInt64 > maxBatchTimeOut then
        .error .notSupported
      else
        addBatchTime curTime
          { operation with batchOperationTimestamp := curTime + p.uint32Param.toUInt64 * sToMs }
          findOperation true ps
    else if findOperation ∧ findTimeout then
      .ok operation
    else
      addBatchTime curTime operation findOperation findTimeout ps

def hksAddBatchTimeToOperation (paramSet : HksParamSet) (operation : HksOperation) :
    SessionM σ HksOperation := do
  let curTime ← MonadExcept.ofExcept (← hksElapsedRealTime env)
  MonadExcept.ofExcept <| addBatchTime curTime
    { operation with
      isBatchOperation := false
      batchOperationTimestamp := curTime + defaultBatchTimeOut * sToMs }
    false false paramSet.params

def createOperation (processInfo : HksProcessInfo) (paramSet : Option HksParamSet)
    (operationHandle : Bytes) (abortable : Bool) : SessionM σ Unit := do
  let addr ← modifyGet fun s => (s.tick, { s with tick := s.tick + 1 })
  let operation ← MonadExcept.ofExcept <| constructOperationProcessInfo processInfo
    ⟨addr, [], [], 0, abortable, 0, false, 0, false, false, 0⟩
  let handle ← MonadExcept.ofExcept <| constructOperationHandle operationHandle
  let operation := { operation with handle := handle }
  match paramSet with
  | none => addOperation env operation
  | some paramSet =>
    let operation ← hksAddBatchTimeToOperation env paramSet operation
    match hksGetParam paramSet HksTag.specificUserId with
    | .error _ => addOperation env operation
    | .ok p => addOperation env { operation with
        isUserIdPassedDuringInit := true
        userIdPassedDuringInit := p.int32Param }

def isSameProcessName (processInfo : HksProcessInfo) (operation : HksOperation) : Bool :=
  operation.processName = processInfo.processName

def isSameUserId (processInfo : HksProcessInfo) (operation : HksOperation) : Bool :=
  operation.userId = processInfo.userId

def markOperation (addr : Nat) (isInUse : Bool) : SessionM σ Unit :=
  modify fun s => { s with
    operations := s.operations.map fun o => if o.addr = addr then { o with isInUse := isInUse } else o }

-- The pointer to the operation, or `none` for `NULL`.
def queryOperationAndMarkInUse (processInfo : HksProcessInfo) (operationHandle : Bytes) :
    SessionM σ (Option HksOperation) := do
  match constructOperationHandle operationHandle with
  | .error _ => return none
  | .ok handle =>
    match (← get).operations.find? fun o =>
        o.handle = handle ∧ isSameProcessName processInfo o ∧ isSameUserId processInfo o with
    | none => return none
    | some operation =>
      if operation.isInUse then
        return none
      else
        markOperation operation.addr true
        return some { operation with isInUse := true }

def markOperationUnUse (addr : Nat) : SessionM σ Unit :=
  markOperation addr false

def deleteOperation (operationHandle : Bytes) : SessionM σ Unit := do
  match constructOperationHandle operationHandle with
  | .error _ => return
  | .ok handle =>
    match (← get).operations.find? (·.handle = handle) with
    | none => return
    | some operation =>
      if operation.isInUse then
        return
      else
        freeOperation operation
        modify fun s => { s with operationCount := s.operationCount - 1 }

def deleteSession (processInfo : HksProcessInfo) (operation : HksOperation) : SessionM σ Unit :=
  if operation.isInUse then
    return
  else if isSameUserId processInfo operation ∧
      (processInfo.processName = [] ∨ isSameProcessName processInfo operation) then
    deleteKeyNodeAndDecreaseGlobalCount env operation
  else
    return

def deleteSessionByProcessInfo (processInfo : HksProcessInfo) : SessionM σ Unit := do
  (← get).operations.forM (deleteSession env processInfo)

end Huks
