import Huks.Service.SessionManager
import Huks.Storage.StorageUtils

namespace Huks

-- The build options `SUPPORT_STORAGE_BACKUP` and `HKS_ENABLE_CLEAN_FILE`, the file system, and
-- what the random generator answers to the call of a number.
structure StorageEnv where
  fs                   : FileSystem
  supportStorageBackup : Bool
  enableCleanFile      : Bool
  huksAccessGenerateRandom : Nat → (size : Nat) → Except HksErrorCode Bytes

variable (env : StorageEnv)

def hksStorageWriteFile (path fileName : Path) (buf : Bytes) : StorageM Unit :=
  hksFileWrite env.fs path fileName buf

def hksStorageReadFile (path fileName : Path) (size : Nat) : StorageM Bytes :=
  hksFileRead env.fs path fileName size

-- The file is overwritten three times.
def cleanFile (path fileName : Path) : StorageM Unit := do
  let size ← hksFileSize env.fs path fileName
  if size = 0 ∨ size > hksMaxFileSize then throw .fileSizeFail
  hksStorageWriteFile env path fileName (List.replicate size 0)
  hksStorageWriteFile env path fileName (List.replicate size 1)
  let buf ← MonadExcept.ofExcept (env.huksAccessGenerateRandom (← nextCall) size)
  hksStorageWriteFile env path fileName buf

def hksStorageRemoveFile (path fileName : Path) : StorageM Unit := do
  if env.enableCleanFile then discard <| EStateM.attempt (cleanFile env path fileName)
  hksFileRemove env.fs path fileName

def copyKeyBlobFromSrc (src dest : HksStoreInfo) : StorageM Unit := do
  let size ← hksFileSize env.fs src.path src.fileName
  if size = 0 then throw .fileSizeFail
  if ¬mallocOk size then throw .mallocFail
  match ← EStateM.attempt (hksStorageReadFile env src.path src.fileName size) with
  | .error .noPermission => throw .noPermission
  | .error _             => throw .readFileFail
  | .ok buffer           => hksStorageWriteFile env dest.path dest.fileName buffer

def getKeyBlobFromFile (path fileName : Path) (keyBlobSize : Nat) : StorageM Bytes := do
  let size ← hksFileSize env.fs path fileName
  if size = 0 then throw .fileSizeFail
  if keyBlobSize < size then throw .insufficientData
  match ← EStateM.attempt (hksStorageReadFile env path fileName keyBlobSize) with
  | .error .noPermission => throw .noPermission
  | .error _             => throw .readFileFail
  | .ok keyBlob          => return keyBlob

-- Whether the file is there; the reason why not does not count.
def fileExists (info : HksStoreInfo) : StorageM Bool := do
  return (← EStateM.attempt (hksIsFileExist info.path info.fileName)).toBool

def deleteKeyBlob (fileInfo : HksStoreFileInfo) : StorageM Unit := do
  let isMainFileExist ← fileExists fileInfo.mainPath
  if env.supportStorageBackup then
    let isBakFileExist ← fileExists fileInfo.bakPath
    if ¬isMainFileExist ∧ ¬isBakFileExist then throw .notExist
    if isBakFileExist then
      hksStorageRemoveFile env fileInfo.bakPath.path fileInfo.bakPath.fileName
  if isMainFileExist then
    hksStorageRemoveFile env fileInfo.mainPath.path fileInfo.mainPath.fileName
  else
    throw .notExist

def getKeyBlob (fileInfoPath : HksStoreInfo) (keyBlobSize : Nat) : StorageM Bytes := do
  if ¬(← fileExists fileInfoPath) then throw .notExist
  getKeyBlobFromFile env fileInfoPath.path fileInfoPath.fileName keyBlobSize

def isKeyBlobExist (fileInfo : HksStoreFileInfo) : StorageM Unit := do
  if ¬(← fileExists fileInfo.mainPath) then
    if ¬env.supportStorageBackup then throw .notExist
    if ¬(← fileExists fileInfo.bakPath) then throw .notExist
    discard <| EStateM.attempt (copyKeyBlobFromSrc env fileInfo.bakPath fileInfo.mainPath)

def hksStoreKeyBlob (fileInfo : HksStoreFileInfo) (keyBlob : Bytes) : StorageM Unit := do
  hksStorageWriteFile env fileInfo.mainPath.path fileInfo.mainPath.fileName keyBlob
  if env.supportStorageBackup then
    discard <| EStateM.attempt <|
      hksStorageWriteFile env fileInfo.bakPath.path fileInfo.bakPath.fileName keyBlob

def hksStoreDeleteKeyBlob (fileInfo : HksStoreFileInfo) : StorageM Unit := deleteKeyBlob env fileInfo

def hksStoreIsKeyBlobExist (fileInfo : HksStoreFileInfo) : StorageM Unit := isKeyBlobExist env fileInfo

def hksStoreGetKeyBlob (fileInfoPath : HksStoreInfo) (keyBlobSize : Nat) : StorageM Bytes :=
  getKeyBlob env fileInfoPath keyBlobSize

def deleteJoinedPath (parts : List Path) : StorageM Unit := do
  hksDeleteDir (← MonadExcept.ofExcept (sprintfS hksMaxDirentFileLen (joinPath parts)))

-- The failure of one removal does not stop the others.
def deleteDirs (dirs : List (List Path)) : StorageM Unit :=
  dirs.forM fun parts => discard <| EStateM.attempt (deleteJoinedPath parts)

def deleteUserIdMainPathAndBakPath (userData deDataPath ceOrEceDataPath : Path) : StorageM Unit :=
  deleteDirs [
    [deDataPath, userData],
    [hksCeRootPath, userData, ceOrEceDataPath],
    [hksEceRootPath, userData, ceOrEceDataPath]]

def deleteUserIdPath (userId : Bytes) : StorageM Unit := do
  let userData ← MonadExcept.ofExcept (constructPlainName userId hksMaxFileNameLen)
  deleteUserIdMainPathAndBakPath userData hksKeyStorePath hksStoreServicePath
  if env.supportStorageBackup then
    deleteUserIdMainPathAndBakPath userData hksKeyStoreBakPath hksStoreServiceBakPath

def deleteUidMainPathAndBakPath (userData uidData deDataPath ceOrEceDataPath : Path) :
    StorageM Unit :=
  deleteDirs [
    [deDataPath, userData, uidData],
    [hksCeRootPath, userData, ceOrEceDataPath, uidData],
    [hksEceRootPath, userData, ceOrEceDataPath, uidData]]

def deleteUidPath (processInfo : HksProcessInfo) : StorageM Unit := do
  let userData ← MonadExcept.ofExcept (constructPlainName processInfo.userId hksMaxFileNameLen)
  let uidData ← MonadExcept.ofExcept (constructPlainName processInfo.processName hksMaxFileNameLen)
  deleteUidMainPathAndBakPath userData uidData hksKeyStorePath hksStoreServicePath
  if env.supportStorageBackup then
    deleteUidMainPathAndBakPath userData uidData hksKeyStoreBakPath hksStoreServiceBakPath

-- The caller does not learn whether this fails.
def hksServiceDeleteUserIDKeyAliasFile (userId : Bytes) : StorageM Unit :=
  discard <| EStateM.attempt do
    let userData ← MonadExcept.ofExcept (constructName userId hksMaxFileNameLen)
    let userProcess ←
      MonadExcept.ofExcept (sprintfS hksMaxDirentFileLen (joinPath [hksKeyStorePath, userData]))
    discard <| EStateM.attempt (hksDeleteDir userProcess)
    deleteUserIdPath env userId

-- `GetProcessInfo` of the event observer; the id of user 0 is the text `USER_ID_ROOT`.
def Storage.getProcessInfo (userId : Int32) (uid : UInt32) : HksProcessInfo where
  userId        := if userId = 0 then [0x30] else toBytes32 userId.toUInt32
  processName   := toBytes32 uid
  userIdInt     := userId
  accessTokenId := 0

def hksServiceDeleteUIDKeyAliasFile (processInfo : HksProcessInfo) : StorageM Unit :=
  discard <| EStateM.attempt do
    let userData ←
      if processInfo.userIdInt ≠ 0 then
        MonadExcept.ofExcept (constructName processInfo.userId hksMaxFileNameLen)
      else
        pure []
    let uidData ← MonadExcept.ofExcept (constructName processInfo.processName hksMaxFileNameLen)
    let userProcess ← MonadExcept.ofExcept
      (sprintfS hksMaxDirentFileLen (joinPath [hksKeyStorePath, userData, uidData]))
    discard <| EStateM.attempt (hksDeleteDir userProcess)
    deleteUidPath env processInfo

end Huks
