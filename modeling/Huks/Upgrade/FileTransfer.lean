import Huks.Storage.StorageManager
import Huks.Upgrade.ConfigParser

namespace Huks

-- What all upgrades have in common: the configuration, what the addresses in a key file lead to, and
-- the build option `SUPPORT_STORAGE_BACKUP`.
structure TransferConst where
  config               : TransferConfig
  memory               : UInt64 → BlobData
  supportStorageBackup : Bool

-- What the system does in one upgrade. `nftw` visits the files of a tree in some order; it may miss
-- files that come or go while it is there.
structure TransferEnv where
  fs      : FileSystem
  rename  : Nat → Option HksErrorCode
  ceWalk  : List Path
  tmpWalk : List Path

-- The path up to the name, slash included, and the name.
def splitPath (filePath : Path) : Path × Path :=
  let alias' := (filePath.reverse.takeWhile (· ≠ '/')).reverse
  (filePath.take (filePath.length - alias'.length), alias')

-- The file is in the tree below `root`.
def isBelow (root path : Path) : Bool := root ++ ['/'] <+: path

-- The bytes of a file, for what reads them as a param set.
def ParamBlock.ofBytes (bytes : Bytes) : ParamBlock where
  bytes     := bytes.take (UInt32.size - 1)
  size      := (bytes.take (UInt32.size - 1)).length.toUInt32
  length_eq := by
    have hlt : (bytes.take (UInt32.size - 1)).length < UInt32.size := by
      rw [List.length_take, UInt32.size]
      omega
    exact (UInt32.toNat_ofNat_of_lt' hlt).symm

def getStoreMaterial (frontUserId : UInt32) (alias' : Path) (info : HksUpgradeFileTransferInfo) :
    Except HksErrorCode HksStoreMaterial := do
  let keyAliasPath ← constructName (alias'.map Char.toUInt8) hksMaxFileNameLen
  let uidPath ← constructPlainName (toBytes32 info.uid) hksMaxDirentFileLen
  let userId := if info.needFrontUser then frontUserId else info.userId
  let userIdPath ← constructPlainName (toBytes32 userId) hksMaxDirentFileLen
  return {
    pathType        := if info.needDe then .de else .ce
    userIdPath
    uidPath
    storageTypePath := hksKeyStoreKeyPath
    keyAliasPath
  }

section

variable (const : TransferConst) (fs : FileSystem) (frontUserId : UInt32)

def constructNewFilePath (alias' : Path) (info : HksUpgradeFileTransferInfo) : StorageM Path := do
  let material ← MonadExcept.ofExcept (getStoreMaterial frontUserId alias' info)
  let fileInfo ← hksGetFileInfo fs const.supportStorageBackup material
  return fileInfo.mainPath.path

-- The copy at the new path, and then the old file goes. Where that fails the copy goes.
def moveFile (alias' oldPath newPath : Path) (fileContent : Bytes) : StorageM Unit := do
  MonadExcept.ofExcept (← hksMakeFullDir fs)
  hksFileWrite fs newPath alias' fileContent
  match ← EStateM.attempt (hksFileRemove fs oldPath alias') with
  | .ok _    => return ⟨⟩
  | .error e =>
    discard <| EStateM.attempt (hksFileRemove fs newPath alias')
    throw e

-- A database key replaces the file at the new path. Any other file there counts as the key that is
-- transferred, and the old file goes.
def transferFile (alias' oldPath : Path) (fileContent : Bytes) (info : HksUpgradeFileTransferInfo) :
    StorageM Unit := do
  let newPath ← constructNewFilePath const fs frontUserId alias' info
  if hksIsRdbDeKey alias' ∧ info.needDe then
    hksFileRemove fs newPath alias'
    moveFile fs alias' oldPath newPath fileContent
  else if ← fileExists ⟨newPath, alias'⟩ then
    discard <| EStateM.attempt (hksFileRemove fs oldPath alias')
  else
    moveFile fs alias' oldPath newPath fileContent

def getFileContent (path alias' : Path) : StorageM Bytes := do
  let size ← hksFileSize fs path alias'
  if size = 0 then throw .fileSizeFail
  if ¬mallocOk size then throw .mallocFail
  hksFileRead fs path alias' size

-- What both traversals do with a key file.
def transferKeyFile (path alias' : Path) : StorageM Unit := do
  let fileContent ← getFileContent fs path alias'
  let info ← MonadExcept.ofExcept
    (hksParseConfig const.config const.memory alias' (.ofBytes fileContent))
  if info.skipTransfer then
    return ⟨⟩
  else
    transferFile const fs frontUserId alias' path fileContent info

-- The traversal goes on whatever becomes of a file.
def processFileUpgrade (filePath : Path) : StorageM Unit := do
  let (path, alias') := splitPath filePath
  discard <| EStateM.attempt (transferKeyFile const fs frontUserId path alias')

def processRdbCeToDeUpgrade (filePath : Path) : StorageM Unit := do
  let (path, alias') := splitPath filePath
  if hksIsRdbDeKey alias' then
    discard <| EStateM.attempt (transferKeyFile const fs frontUserId path alias')

end

-- `rename` of a directory; an entry that is not below it stays.
def rebase (src dest path : Path) : Path :=
  if isBelow src path then dest ++ path.drop src.length else path

def Disk.renameDir (disk : Disk) (src dest : Path) : Disk :=
  { disk with files := (disk.files.entries.map fun e => ⟨rebase src dest e.1, e.2⟩).toAList }

section

variable (const : TransferConst) (env : TransferEnv) (frontUserId : UInt32)

-- The system refuses to rename to a directory that is not empty.
def copyDeToTmpPathIfNeed : StorageM Unit := do
  match hksIsDirExist env.fs hksKeyStoreTmpPath with
  | .ok _    => return ⟨⟩
  | .error _ =>
    if (← get).files.keys.any (isBelow hksKeyStoreTmpPath) then throw .makeDirFail
    match env.rename (← nextCall) with
    | some _ => throw .makeDirFail
    | none   =>
      modify (·.renameDir hksKeyStorePath hksKeyStoreTmpPath)
      match env.fs.makeDir (← nextCall) with
      | none   => return ⟨⟩
      | some _ => throw .makeDirFail

def huksCePath : Path :=
  joinPath [hksCeRootPath, (toString frontUserId.toNat).toList, "huks_service".toList]

def copyRdbCeToDePathIfNeed : StorageM Unit :=
  (env.ceWalk.filter (isBelow (huksCePath frontUserId))).forM
    (processRdbCeToDeUpgrade const env.fs frontUserId)

def upgradeFileTransfer : StorageM Unit :=
  (env.tmpWalk.filter (isBelow hksKeyStoreTmpPath)).forM
    (processFileUpgrade const env.fs frontUserId)

def hksUpgradeFileTransferOnPowerOn : StorageM Unit := do
  discard <| EStateM.attempt (copyDeToTmpPathIfNeed env)
  copyRdbCeToDePathIfNeed const env frontUserId
  upgradeFileTransfer const env frontUserId

end

-- The files and `g_frontUserId`.
structure UpgradeState where
  disk        : Disk
  frontUserId : UInt32 := 100

-- The pieces of an upgrade between which it may be cut.
inductive UpgradeAction
  | unlock (userId : UInt32)
  | copyDe
  | ceFile (path : Path)
  | tmpFile (path : Path)

section

variable (const : TransferConst) (env : TransferEnv)

def UpgradeState.exec (st : UpgradeState) (x : StorageM Unit) : UpgradeState :=
  { st with disk := (x.run st.disk).final }

def UpgradeAction.run (st : UpgradeState) : UpgradeAction → UpgradeState
  | .unlock userId => { st with frontUserId := userId }
  | .copyDe        => st.exec (copyDeToTmpPathIfNeed env)
  | .ceFile path   =>
    if isBelow (huksCePath st.frontUserId) path then
      st.exec (processRdbCeToDeUpgrade const env.fs st.frontUserId path)
    else
      st
  | .tmpFile path  =>
    if isBelow hksKeyStoreTmpPath path then
      st.exec (processFileUpgrade const env.fs st.frontUserId path)
    else
      st

def powerOnActions : List UpgradeAction :=
  .copyDe :: (env.ceWalk.map .ceFile ++ env.tmpWalk.map .tmpFile)

def hksUpgradeFileTransferOnUserUnlock (userId : UInt32) (st : UpgradeState) : UpgradeState :=
  { st with frontUserId := userId }.exec (hksUpgradeFileTransferOnPowerOn const env userId)

end

-- Any number of upgrades, each with what the system does in it, and each cut anywhere.
def runUpgrades (const : TransferConst) (st : UpgradeState) (actions : List (TransferEnv × UpgradeAction)) :
    UpgradeState :=
  actions.foldl (fun st (env, action) => action.run const env st) st

-- The surroundings of the storage manager; the last entry is the answer of the account manager.
structure ManagerEnv where
  storage             : StorageEnv
  const               : TransferConst
  transfer            : TransferEnv
  isOsAccountVerified : Int32 → Bool

-- The files, `g_frontUserId` and `g_isCeUpgradeSucc`
structure ManagerState extends UpgradeState where
  isCeUpgradeSucc : Bool := false

section

variable (env : ManagerEnv)

-- Only the first call in a process gets past the exchange of the flag.
def hksTransferFileIfNeed (storageLevel : UInt32) (storeUserId : Int32) (st : ManagerState) : ManagerState :=
  if st.isCeUpgradeSucc then
    st
  else if storageLevel = hksAuthStorageLevelCe ∧ env.isOsAccountVerified storeUserId then
    { hksUpgradeFileTransferOnUserUnlock env.const env.transfer storeUserId.toUInt32 st.toUpgradeState with
      isCeUpgradeSucc := true }
  else
    { st with isCeUpgradeSucc := true }

variable (processInfo : HksProcessInfo) (paramSet : HksParamSet)

-- `GetStorageLevelAndStoreUserIdParam` transfers files once it has read both params.
def transferBeforeCall (st : ManagerState) : ManagerState :=
  match getStorageLevelAndStoreUserIdParam processInfo paramSet with
  | .ok (storageLevel, storeUserId) => hksTransferFileIfNeed env storageLevel storeUserId st
  | .error _                        => st

-- A function of the storage manager as a process calls it. Whatever it does, the level and the user
-- id come first.
def manage {α : Type} (x : StorageM α) (st : ManagerState) : Except HksErrorCode α × ManagerState :=
  let st := transferBeforeCall env processInfo paramSet st
  let result := x.run st.disk
  (result.toExcept, { st with disk := result.final })

end

end Huks
