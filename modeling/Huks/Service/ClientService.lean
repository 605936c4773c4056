import Huks.Engine.KeyOperate
import Huks.Service.SessionManager
import Huks.Storage.StorageUtils

namespace Huks

-- The surroundings of the service in a build with access tokens, as `hks_config.h` has it: its
-- other build options, the engine below it, the clock, and the storage and the system services,
-- whose n-th answers may be anything.
structure ServiceEnv where
  engine                                 : EngineEnv
  l2Standard                             : Bool
  supportGetBundleInfo                   : Bool
  supportStorageBackup                   : Bool
  enableSkipUpgradeKeyStorageSecureLevel : Bool
  elapsedRealTime          : Nat → Except HksErrorCode UInt64
  getKeyData               : Nat → HksProcessInfo → Bytes → Option HksParamSet → HksStorageType →
    Except HksErrorCode Bytes
  checkKeyCondition        : Nat → HksProcessInfo → Bytes → HksParamSet → Except HksErrorCode Unit
  hksManageStoreKeyBlob    : Nat → HksProcessInfo → HksParamSet → Bytes → Bytes →
    Except HksErrorCode Unit
  getCallerName            : Nat → HksProcessInfo → Except HksErrorCode Bytes
  hksGetCallerType         : Nat → UInt32
  -- `info.skipTransfer` of the config that matches the caller.
  hksMatchConfig           : Nat → HksProcessInfo → Except HksErrorCode Bool
  checkTokenType           : Nat → Except HksErrorCode Unit
  sensitivePermissionCheck : Nat → Except HksErrorCode Unit

abbrev ServiceM := SessionM Engine

def Sessions.engineLens : EStateM.Lens (Sessions Engine) Engine where
  get s   := s.engine
  set e s := { s with engine := e }

-- `HuksAccessInit` and the others go through to the engine.
def huksAccess {α : Type} (x : EngineM α) : ServiceM α := EStateM.zoom Sessions.engineLens x

-- `DeleteKeyNode` aborts a handle with an empty param set.
def ServiceEnv.sessions (env : ServiceEnv) : SessionEnv Engine where
  elapsedRealTime := env.elapsedRealTime
  huksAccessAbort operationHandle engine :=
    match hksBuildParamSet hksInitParamSet with
    | .error _     => engine
    | .ok paramSet =>
      ((hksCoreAbort env.engine (toBytes64 operationHandle) paramSet).run engine).final

def ServiceM.next : ServiceM Nat :=
  modifyGet fun s => (s.tick, { s with tick := s.tick + 1 })

section ParamSets

variable (env : ServiceEnv)

def appendToNewParamSet (paramSet : HksParamSet) : Except HksErrorCode HksParamSet := do
  hksCheckParamSet paramSet paramSet.paramSetSize
  let paramSet ← hksFreshParamSet paramSet false
  hksAddParams hksInitParamSet paramSet.entries

def checkProcessNameTagExist (paramSet : HksParamSet) : Bool :=
  paramSet.params.any (·.tag = HksTag.processName)

def hksCheckIsAllowedWrap (paramSet : HksParamSet) : Bool :=
  match hksGetParam paramSet HksTag.isAllowedWrap with
  | .ok isAllowedWrap => isAllowedWrap.boolParam
  | .error _          => false

def hksCheckIsAcrossDevices (paramSet : HksParamSet) : Bool :=
  hksCheckIsAllowedWrap paramSet || (hksGetParam paramSet HksTag.keyWrapType).toBool

-- `n` is the number of the question to the system services.
def appendOwnerInfoForAcrossDevicesIfNeed (n : Nat) (processInfo : HksProcessInfo)
    (newParamSet : HksParamSet) : Except HksErrorCode HksParamSet := do
  if ¬hksCheckIsAcrossDevices newParamSet then
    return newParamSet
  else
    let appInfo ← env.getCallerName n processInfo
    hksAddParams newParamSet [
      .ofBytes HksTag.ownerId appInfo,
      .ofUInt32 HksTag.ownerType (env.hksGetCallerType n)]

-- While there is no operation, in `HksServiceInit`, nothing is added.
def addSpecificUserIdToParamSet (operation : Option HksOperation) (paramSet : HksParamSet) :
    Except HksErrorCode HksParamSet :=
  match operation with
  | none           => .ok paramSet
  | some operation =>
    match hksGetParam paramSet HksTag.specificUserId with
    | .ok _                => .ok paramSet
    | .error .paramNotExist =>
      if operation.isUserIdPassedDuringInit then
        hksAddParams paramSet
          [.ofUInt32 HksTag.specificUserId operation.userIdPassedDuringInit.toUInt32]
      else
        .ok paramSet
    | .error e => .error e

def addStorageLevelToParamSet (n : Nat) (processInfo : HksProcessInfo) (paramSet : HksParamSet) :
    Except HksErrorCode HksParamSet :=
  match hksGetParam paramSet HksTag.authStorageLevel with
  | .ok _                => .ok paramSet
  | .error .paramNotExist => do
    let skipTransfer ←
      if env.enableSkipUpgradeKeyStorageSecureLevel then env.hksMatchConfig n processInfo
      else .ok false
    let storageLevel := if skipTransfer then hksAuthStorageLevelOldDeTmp else hksAuthStorageLevelCe
    hksAddParams paramSet [.ofUInt32 HksTag.authStorageLevel storageLevel]
  | .error e => .error e

def appendStorageLevelAndSpecificUserIdToParamSet (n : Nat) (processInfo : HksProcessInfo)
    (operation : Option HksOperation) (paramSet : HksParamSet) :
    Except HksErrorCode HksParamSet := do
  addStorageLevelToParamSet env n processInfo (← addSpecificUserIdToParamSet operation paramSet)

def appendProcessInfoAndDefaultStrategy (paramSet : Option HksParamSet)
    (processInfo : HksProcessInfo) (operation : Option HksOperation) : ServiceM HksParamSet := do
  let n ← ServiceM.next
  MonadExcept.ofExcept do
    let newParamSet ← paramSet.elim (.ok hksInitParamSet) appendToNewParamSet
    if checkProcessNameTagExist newParamSet then
      throw .invalidArgument
    else
      let newParamSet ← hksAddParams newParamSet [
        .ofBytes HksTag.processName processInfo.processName,
        .ofUInt32 HksTag.userId processInfo.userIdInt.toUInt32,
        ⟨HksTag.accessTokenId, processInfo.accessTokenId, .null⟩]
      let newParamSet ←
        if env.supportGetBundleInfo then
          appendOwnerInfoForAcrossDevicesIfNeed env n processInfo newParamSet
        else
          .ok newParamSet
      let newParamSet ←
        if env.l2Standard then
          appendStorageLevelAndSpecificUserIdToParamSet env n processInfo operation newParamSet
        else
          .ok newParamSet
      hksBuildParamSet newParamSet

def systemApiPermissionCheck (n : Nat) (callerUserId : Int32) : Except HksErrorCode Unit := do
  env.checkTokenType n
  if callerUserId < 0 ∨ callerUserId ≥ hksRootUserUpperbound then throw .noPermission

def hksCheckAcrossAccountsPermission (paramSet : HksParamSet) (callerUserId : Int32) :
    ServiceM Unit := do
  let n ← ServiceM.next
  if env.l2Standard then
    match hksGetParam paramSet HksTag.specificUserId with
    | .ok _ =>
      MonadExcept.ofExcept (systemApiPermissionCheck env n callerUserId)
      MonadExcept.ofExcept (env.sensitivePermissionCheck n)
    | .error .paramNotExist => return
    | .error e              => throw e

end ParamSets

section Init

variable (env : ServiceEnv)

def hksCheckServiceInitParams (processName keyAlias : Bytes) (paramSet : Option HksParamSet) :
    Except HksErrorCode Unit := do
  if processName = [] ∨ keyAlias = [] then throw .invalidArgument
  let paramSet ← paramSet.elim (.error .nullPointer) .ok
  (hksCheckParamSet paramSet paramSet.paramSetSize).orError .invalidArgument
  hksCheckParamSetTag paramSet
  if processName.length > hksMaxProcessNameLen then throw .invalidArgument
  if keyAlias.length > hksMaxKeyAliasLen then throw .invalidArgument

def getKeyData (processInfo : HksProcessInfo) (keyAlias : Bytes) (paramSet : Option HksParamSet)
    (mode : HksStorageType) : ServiceM Bytes := do
  MonadExcept.ofExcept (env.getKeyData (← ServiceM.next) processInfo keyAlias paramSet mode)

-- The engine refuses a param set that is `NULL`.
def huksAccessInit (key : Bytes) (paramSet : Option HksParamSet) (handleSize tokenSize : Nat) :
    ServiceM (UInt64 × Bytes) :=
  match paramSet with
  | none          => throw .nullPointer
  | some paramSet => huksAccess (hksCoreInit env.engine key paramSet handleSize tokenSize)

-- The key and the new param set; the param set is there also when the key cannot be read.
def getKeyAndNewParamSet (processInfo : HksProcessInfo) (keyAlias : Bytes)
    (paramSet : Option HksParamSet) : ServiceM (Except HksErrorCode Bytes × Option HksParamSet) := do
  match ← EStateM.attempt (appendProcessInfoAndDefaultStrategy env paramSet processInfo none) with
  | .error e        => return (.error e, none)
  | .ok newParamSet =>
    return (← EStateM.attempt (getKeyData env processInfo keyAlias newParamSet .key), newParamSet)

-- The failures after which the backup of the key is tried.
def needsBackup (e : HksErrorCode) : Bool :=
  e = .corruptFile ∨ e = .fileSizeFail ∨ e = .notExist

def huksAccessInitBackup (processInfo : HksProcessInfo) (keyAlias : Bytes)
    (paramSet : Option HksParamSet) (handleSize tokenSize : Nat) (e : HksErrorCode) :
    ServiceM (UInt64 × Bytes) := do
  if env.supportStorageBackup ∧ needsBackup e then
    let keyFromFile ← getKeyData env processInfo keyAlias paramSet .bakKey
    huksAccessInit env keyFromFile paramSet handleSize tokenSize
  else
    throw e

-- `HksServiceInit` up to the key node that the engine creates.
def initInEngine (processInfo : HksProcessInfo) (key : Bytes) (paramSet : Option HksParamSet)
    (handleSize tokenSize : Nat) : ServiceM (UInt64 × Bytes) := do
  MonadExcept.ofExcept (hksCheckServiceInitParams processInfo.processName key paramSet)
  let (keyFromFile, newParamSet) ← getKeyAndNewParamSet env processInfo key paramSet
  let ret ← EStateM.attempt do
    huksAccessInit env (← MonadExcept.ofExcept keyFromFile) newParamSet handleSize tokenSize
  match ret with
  | .ok created => return created
  | .error e    => huksAccessInitBackup env processInfo key newParamSet handleSize tokenSize e

def hksServiceInit (processInfo : HksProcessInfo) (key : Bytes) (paramSet : Option HksParamSet)
    (handleSize tokenSize : Nat) : ServiceM (UInt64 × Bytes) := do
  let (handle, token) ← initInEngine env processInfo key paramSet handleSize tokenSize
  createOperation env.sessions processInfo paramSet (toBytes64 handle) true
  return (handle, token)

end Init

-- What a call does with the operation that it marked in use once it is done with the engine.
inductive Release
  | none | unmark | delete
  deriving DecidableEq, Repr

section Operate

variable (env : ServiceEnv)

def hksServiceCheckBatchUpdateTime (operation : HksOperation) : ServiceM Unit := do
  let curTime ← MonadExcept.ofExcept (← hksElapsedRealTime env.sessions)
  if operation.batchOperationTimestamp < curTime then throw .invalidTimeOut

-- The param set for the engine, if the caller may act on its account.
def newParamSetFor (operation : HksOperation) (processInfo : HksProcessInfo)
    (paramSet : Option HksParamSet) : ServiceM HksParamSet := do
  let newParamSet ← appendProcessInfoAndDefaultStrategy env paramSet processInfo operation
  hksCheckAcrossAccountsPermission env newParamSet processInfo.userIdInt
  return newParamSet

-- `HksServiceUpdate` on the operation that it found and marked.
def updateOperation (handle : Bytes) (processInfo : HksProcessInfo) (paramSet : Option HksParamSet)
    (inData : Bytes) (outSize : UInt32) (operation : HksOperation) :
    ServiceM (Except HksErrorCode Bytes × Release) := do
  if operation.accessTokenId ≠ processInfo.accessTokenId then
    return (.error .badState, .unmark)
  else
    let checkTime :=
      if operation.isBatchOperation then hksServiceCheckBatchUpdateTime env operation else pure ()
    match ← EStateM.attempt checkTime with
    | .error e => return (.error e, .delete)
    | .ok _    =>
      match ← EStateM.attempt (newParamSetFor env operation processInfo paramSet) with
      | .error e        => return (.error e, .unmark)
      | .ok newParamSet =>
        match ← EStateM.attempt
            (huksAccess (hksCoreUpdate env.engine handle newParamSet inData outSize)) with
        | .error e    => return (.error e, .delete)
        | .ok outData => return (.ok outData, .unmark)

def initOutputDataForFinish (outSize : UInt32) : Except HksErrorCode Unit :=
  if mallocOk outSize.toNat then .ok () else .error .mallocFail

def storeOrCopyKeyBlob (paramSet : HksParamSet) (processInfo : HksProcessInfo) (output : Bytes)
    (isNeedStorage : Bool) : ServiceM Bytes := do
  if ¬isNeedStorage then
    return output
  else
    let keyAlias ← MonadExcept.ofExcept (getBlob paramSet HksTag.keyAlias)
    if keyAlias.length > hksMaxKeyAliasLen then
      throw .invalidArgument
    else
      let n ← ServiceM.next
      MonadExcept.ofExcept (env.checkKeyCondition n processInfo keyAlias paramSet)
      MonadExcept.ofExcept (env.hksManageStoreKeyBlob n processInfo paramSet keyAlias output)
      return []

-- `HksServiceFinish` on the operation that `AppendAndQueryInFinish` found and marked. When the
-- tokens differ the caller does not learn of the operation.
def finishOperation (handle : Bytes) (processInfo : HksProcessInfo) (paramSet : Option HksParamSet)
    (inData : Bytes) (outSize : UInt32) (operation : HksOperation) :
    ServiceM (Except HksErrorCode Bytes × Release) := do
  if operation.accessTokenId ≠ processInfo.accessTokenId then
    return (.error .badState, .none)
  else
    let ret ← EStateM.attempt do
      let newParamSet ← newParamSetFor env operation processInfo paramSet
      let output ← huksAccess (hksCoreFinish env.engine handle newParamSet inData outSize)
      storeOrCopyKeyBlob env newParamSet processInfo output (paramSet.any hksCheckKeyNeedStored)
    return (ret, .delete)

-- `HksServiceAbort` on the operation that it found and marked.
def abortOperation (handle : Bytes) (processInfo : HksProcessInfo) (paramSet : Option HksParamSet)
    (operation : HksOperation) : ServiceM (Except HksErrorCode Unit × Release) := do
  match ← EStateM.attempt (newParamSetFor env operation processInfo paramSet) with
  | .error e        => return (.error e, .unmark)
  | .ok newParamSet =>
    let ret ← EStateM.attempt (huksAccess (hksCoreAbort env.engine handle newParamSet))
    return (ret, .delete)

def releaseOperation (handle : Bytes) (operation : HksOperation) : Release → ServiceM Unit
  | .none   => return
  | .unmark => markOperationUnUse operation.addr
  | .delete => do
    markOperationUnUse operation.addr
    deleteOperation handle

def hksServiceUpdate (handle : Bytes) (processInfo : HksProcessInfo)
    (paramSet : Option HksParamSet) (inData : Bytes) (outSize : UInt32) : ServiceM Bytes := do
  match ← queryOperationAndMarkInUse processInfo handle with
  | none           => throw .notExist
  | some operation =>
    let (ret, release) ←
      updateOperation env handle processInfo paramSet inData outSize operation
    releaseOperation handle operation release
    MonadExcept.ofExcept ret

-- The size of the output buffer, and whether it can be had.
def outputForFinish (paramSet : Option HksParamSet) (outSize : UInt32) :
    Except HksErrorCode UInt32 := do
  let outSize := if paramSet.any hksCheckKeyNeedStored then maxKeySize else outSize
  if outSize ≠ 0 then initOutputDataForFinish outSize
  return outSize

def hksServiceFinish (handle : Bytes) (processInfo : HksProcessInfo)
    (paramSet : Option HksParamSet) (inData : Bytes) (outSize : UInt32) : ServiceM Bytes := do
  let outSize ← MonadExcept.ofExcept (outputForFinish paramSet outSize)
  match ← queryOperationAndMarkInUse processInfo handle with
  | none           => throw .notExist
  | some operation =>
    let (ret, release) ←
      finishOperation env handle processInfo paramSet inData outSize operation
    releaseOperation handle operation release
    MonadExcept.ofExcept ret

def hksServiceAbort (handle : Bytes) (processInfo : HksProcessInfo)
    (paramSet : Option HksParamSet) : ServiceM Unit := do
  match ← queryOperationAndMarkInUse processInfo handle with
  | none           => return
  | some operation =>
    let (ret, release) ← abortOperation env handle processInfo paramSet operation
    releaseOperation handle operation release
    MonadExcept.ofExcept ret

-- The key files that it deletes as well are left out.
def hksServiceDeleteProcessInfo (processInfo : HksProcessInfo) : ServiceM Unit :=
  deleteSessionByProcessInfo env.sessions processInfo

end Operate

end Huks
