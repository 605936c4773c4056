import Huks.Service.SessionManager
import Huks.Storage.Storage

namespace Huks

-- The storage level and the id of the user under whom the key is stored. Old key files that the source
-- moves after this are moved in `transferBeforeCall`.
def getStorageLevelAndStoreUserIdParam (processInfo : HksProcessInfo) (paramSet : HksParamSet) :
    Except HksErrorCode (UInt32 × Int32) := do
  let storeUserId ← match hksGetParam paramSet HksTag.specificUserId with
    | .ok specificUserIdParam => .ok specificUserIdParam.int32Param
    | .error .paramNotExist   => .ok processInfo.userIdInt
    | .error e                => .error e
  return (← getUInt32 paramSet HksTag.authStorageLevel, storeUserId)

def getKeyAliasPath : Option Bytes → Except HksErrorCode (Option Path)
  | none          => return none
  | some keyAlias => return some (← constructName keyAlias hksMaxFileNameLen)

-- Behind a path that is not plain user 0 has no directory.
def getUserIdPath (userId : Int32) (isPlain : Bool) : Except HksErrorCode Path :=
  let userIdBlob := toBytes32 userId.toUInt32
  if isPlain then
    constructPlainName userIdBlob hksMaxFileNameLen
  else if userId = 0 then
    return []
  else
    constructName userIdBlob hksMaxFileNameLen

def getUidPath (isPlain : Bool) (processName : Bytes) : Except HksErrorCode Path :=
  if isPlain then
    constructPlainName processName hksMaxDirentFileLen
  else
    constructName processName hksMaxDirentFileLen

def getStorageTypePath : HksStorageType → Path
  | .key | .bakKey => hksKeyStoreKeyPath
  | .rootKey       => hksKeyStoreRootKeyPath

def getIsPlainPath (storageLevel : UInt32) : Bool :=
  storageLevel = hksAuthStorageLevelDe ∨ storageLevel = hksAuthStorageLevelCe ∨
    storageLevel = hksAuthStorageLevelEce

-- A level that does not exist is reported and taken for `HKS_AUTH_STORAGE_LEVEL_DE`.
def getPathType (storageLevel : UInt32) : HksPathType :=
  if storageLevel = hksAuthStorageLevelDe then
    .de
  else if storageLevel = hksAuthStorageLevelCe then
    .ce
  else if storageLevel = hksAuthStorageLevelEce then
    .ece
  else if storageLevel = hksAuthStorageLevelOldDeTmp then
    .tmp
  else
    .de

def initStorageMaterial (processInfo : HksProcessInfo) (paramSet : HksParamSet)
    (keyAlias : Option Bytes) (storageType : HksStorageType) : Except HksErrorCode HksStoreMaterial := do
  let (storageLevel, storeUserId) ← getStorageLevelAndStoreUserIdParam processInfo paramSet
  let isPlainPath := getIsPlainPath storageLevel
  return {
    pathType        := getPathType storageLevel
    userIdPath      := ← getUserIdPath storeUserId isPlainPath
    uidPath         := ← getUidPath isPlainPath processInfo.processName
    storageTypePath := getStorageTypePath storageType
    keyAliasPath    := ← getKeyAliasPath keyAlias
  }

def checkIfBothTagExist (storageLevel specificUserId : HksParam) : Except HksErrorCode Unit :=
  if storageLevel.uint32Param = hksAuthStorageLevelDe then
    if specificUserId.int32Param < 0 then throw .invalidArgument else return ⟨⟩
  else
    if specificUserId.int32Param < hksRootUserUpperbound then throw .invalidArgument else return ⟨⟩

def checkIfOnlyStorageLevelTagExist (processInfo : HksProcessInfo) (storageLevel : HksParam) :
    Except HksErrorCode Unit :=
  if storageLevel.uint32Param ≠ hksAuthStorageLevelDe ∧
      storageLevel.uint32Param ≠ hksAuthStorageLevelOldDeTmp ∧
      processInfo.userIdInt < hksRootUserUpperbound then
    throw .invalidArgument
  else
    return ⟨⟩

def checkSpecificUserIdAndStorageLevel (processInfo : HksProcessInfo) (paramSet : HksParamSet) :
    Except HksErrorCode Unit :=
  match hksGetParam paramSet HksTag.authStorageLevel, hksGetParam paramSet HksTag.specificUserId with
  | .ok storageLevel, .ok specificUserId => checkIfBothTagExist storageLevel specificUserId
  | .ok storageLevel, .error _           => checkIfOnlyStorageLevelTagExist processInfo storageLevel
  | .error _, _                          => return ⟨⟩

section

variable (env : StorageEnv)

def hksConstructStoreFileInfo (processInfo : HksProcessInfo) (paramSet : HksParamSet)
    (material : HksStoreMaterial) : StorageM HksStoreFileInfo := do
  MonadExcept.ofExcept (checkSpecificUserIdAndStorageLevel processInfo paramSet)
  hksGetFileInfo env.fs env.supportStorageBackup material

-- How every function of the storage manager begins.
def storeFileInfo (processInfo : HksProcessInfo) (paramSet : HksParamSet) (keyAlias : Option Bytes)
    (storageType : HksStorageType) : StorageM HksStoreFileInfo := do
  let material ← MonadExcept.ofExcept (initStorageMaterial processInfo paramSet keyAlias storageType)
  hksConstructStoreFileInfo env processInfo paramSet material

variable (processInfo : HksProcessInfo) (paramSet : HksParamSet) (keyAlias : Bytes)

def hksManageStoreKeyBlob (keyBlob : Bytes) (storageType : HksStorageType) : StorageM Unit := do
  hksStoreKeyBlob env (← storeFileInfo env processInfo paramSet keyAlias storageType) keyBlob

def hksManageStoreDeleteKeyBlob (storageType : HksStorageType) : StorageM Unit := do
  hksStoreDeleteKeyBlob env (← storeFileInfo env processInfo paramSet keyAlias storageType)

def hksManageStoreIsKeyBlobExist (storageType : HksStorageType) : StorageM Unit := do
  hksStoreIsKeyBlobExist env (← storeFileInfo env processInfo paramSet keyAlias storageType)

-- The key blob as far as the caller has room for it.
def hksManageStoreGetKeyBlob (keyBlobSize : Nat) (storageType : HksStorageType) :
    StorageM Bytes := do
  let fileInfo ← storeFileInfo env processInfo paramSet keyAlias storageType
  if storageType ≠ .bakKey then
    hksStoreGetKeyBlob env fileInfo.mainPath keyBlobSize
  else if ¬env.supportStorageBackup then
    return []
  else do
    let keyBlob ← hksStoreGetKeyBlob env fileInfo.bakPath keyBlobSize
    discard <| EStateM.attempt <|
      hksStorageWriteFile env fileInfo.mainPath.path fileInfo.mainPath.fileName keyBlob
    return keyBlob

end

end Huks
