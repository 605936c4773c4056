import Huks.Common.Param
import Huks.Storage.FileOperator
import Mathlib.Data.Nat.Digits.Defs

namespace Huks

def hksEncodeOffsetLen    : UInt8 := 6
def hksEncodeKeySaltValue : UInt8 := 0x3f
def hksRootUserUpperbound : Int32 := 100
def hksMaxKeyAliasLen     : Nat := 64

def hksAuthStorageLevelDe       : UInt32 := 0
def hksAuthStorageLevelCe       : UInt32 := 1
def hksAuthStorageLevelEce      : UInt32 := 2
def hksAuthStorageLevelOldDeTmp : UInt32 := 99

inductive HksStorageType
  | key | rootKey | bakKey
  deriving DecidableEq, Repr

-- The standard system, with `huks_key_store_standard_path` and `huks_use_rkc_in_standard` as
-- `config.gni` has them.
def hksConfigKeyStorePath   : Path := "/data/service/el1/public/huks_service".toList
def hksKeyStorePath         : Path := hksConfigKeyStorePath ++ "/maindata".toList
def hksKeyStoreBakPath      : Path := hksConfigKeyStorePath ++ "/bakdata".toList
def hksKeyStoreTmpPath      : Path := hksConfigKeyStorePath ++ "/tmp".toList
def hksCeRootPath           : Path := "/data/service/el2".toList
def hksEceRootPath          : Path := "/data/service/el4".toList
def hksStoreServicePath     : Path := "huks_service/maindata".toList
def hksStoreServiceBakPath  : Path := "huks_service/bakdata".toList
def hksKeyStoreKeyPath      : Path := "key".toList
def hksKeyStoreRootKeyPath  : Path := "info".toList

structure HksStoreInfo where
  path     : Path := []
  fileName : Path := []
  deriving DecidableEq

-- Without `SUPPORT_STORAGE_BACKUP` there is no `bakPath`.
structure HksStoreFileInfo where
  mainPath : HksStoreInfo
  bakPath  : HksStoreInfo := {}
  deriving DecidableEq

inductive HksPathType
  | de | ce | ece | tmp
  deriving DecidableEq

structure HksStoreMaterial where
  pathType        : HksPathType
  userIdPath      : Path
  uidPath         : Path
  storageTypePath : Path
  keyAliasPath    : Option Path

def constructInvalidCharacter : Char → Char
  | ':'  => '#'
  | '<'  => '$'
  | '>'  => '%'
  | '?'  => '&'
  | '\\' => '('
  | '|'  => ')'
  | c    => c

def resumeInvalidCharacter : Char → Char
  | '#' => ':'
  | '$' => '<'
  | '%' => '>'
  | '&' => '?'
  | '(' => '\\'
  | ')' => '|'
  | c   => c

-- `sprintf_s` with `%d`
def decimal : Int → List Char
  | .ofNat n   => Nat.toDigits 10 n
  | .negSucc n => '-' :: Nat.toDigits 10 (n + 1)

-- `sprintf_s` returns a negative number when the text does not fit with its terminator.
def sprintfS (destMax : Nat) (text : Path) : Except HksErrorCode Path :=
  if text ≠ [] ∧ text.length < destMax then return text else throw .insufficientMemory

def constructPlainName (blob : Bytes) (nameLen : Nat) : Except HksErrorCode Path := do
  if blob.length = 4 then
    sprintfS nameLen (decimal (le32 blob).toInt32.toInt)
  else if nameLen ≤ 1 then
    throw .invalidArgument
  else if nameLen - 1 < blob.length then
    throw .insufficientData
  else
    -- The name ends at the first zero byte.
    return (blob.takeWhile (· ≠ 0)).map fun b => constructInvalidCharacter (Char.ofUInt8 b)

-- What `ConstructName` writes for one byte.
def encodeByte (b : UInt8) : List Char :=
  if b < '0'.toUInt8 ∨ b > '~'.toUInt8 then
    [Char.ofUInt8 ('+'.toUInt8 + (b >>> hksEncodeOffsetLen)),
      constructInvalidCharacter (Char.ofUInt8 ('0'.toUInt8 + (b &&& hksEncodeKeySaltValue)))]
  else
    [constructInvalidCharacter (Char.ofUInt8 b)]

def appendByte (nameLen : Nat) (name : Path) (b : UInt8) : Except HksErrorCode Path :=
  if name.length ≥ nameLen - 1 then throw .insufficientData else return name ++ encodeByte b

def constructName (blob : Bytes) (nameLen : Nat) : Except HksErrorCode Path := do
  if nameLen ≤ 1 then throw .invalidArgument
  blob.foldlM (appendByte nameLen) []

def decodeName : Path → Except HksErrorCode Bytes
  | []       => return []
  | c :: src =>
    if '+' ≤ c ∧ c ≤ '.' then
      match src with
      | []       => throw .invalidKeyFile
      | d :: src => do
        let high := (c.toUInt8 - '+'.toUInt8) <<< hksEncodeOffsetLen
        return (high + ((resumeInvalidCharacter d).toUInt8 - '0'.toUInt8)) :: (← decodeName src)
    else do
      return (resumeInvalidCharacter c).toUInt8 :: (← decodeName src)

-- `size` is what the blob of the caller can take.
def constructBlob (src : Path) (size : Nat) : Except HksErrorCode Bytes := do
  if ¬mallocOk src.length then throw .mallocFail
  let outputBlob ← decodeName src
  if size < outputBlob.length then throw .bufferTooSmall
  return outputBlob

def checkUserPathExist (fs : FileSystem) (rootPath userIdPath : Path) : Except HksErrorCode Unit := do
  let userPath ← sprintfS hksMaxDirentFileLen (rootPath ++ ['/'] ++ userIdPath)
  (hksIsDirExist fs userPath).orError .noPermission

section

variable (fs : FileSystem) (material : HksStoreMaterial) (deDataPath ceOrEceDataPath : Path)

-- `%s/%s/..`
def joinPath (parts : List Path) : Path := ['/'].intercalate parts

def constructPath : Except HksErrorCode Path := do
  let ⟨pathType, userIdPath, uidPath, storageTypePath, _⟩ := material
  match pathType with
  | .de  =>
    sprintfS hksMaxDirentFileLen (joinPath [deDataPath, userIdPath, uidPath, storageTypePath])
  | .ce  => do
    checkUserPathExist fs hksCeRootPath userIdPath
    sprintfS hksMaxDirentFileLen
      (joinPath [hksCeRootPath, userIdPath, ceOrEceDataPath, uidPath, storageTypePath])
  | .ece => do
    checkUserPathExist fs hksEceRootPath userIdPath
    sprintfS hksMaxDirentFileLen
      (joinPath [hksEceRootPath, userIdPath, ceOrEceDataPath, uidPath, storageTypePath])
  | .tmp =>
    sprintfS hksMaxDirentFileLen
      (joinPath [hksKeyStoreTmpPath, userIdPath, uidPath, storageTypePath])

def standardizePath (path : Path) : Path := PathText.collapse '/' path

-- The directories on the way are made where they are missing.
def hksMakeFullDir : StorageM (Except HksErrorCode Unit) := do
  return (fs.makeDir (← nextCall)).elim (.ok ⟨⟩) .error

def getPathInfo : StorageM HksStoreInfo := do
  let isUserPath := material.pathType = .ce ∨ material.pathType = .ece
  let path := standardizePath (← MonadExcept.ofExcept (constructPath fs material deDataPath ceOrEceDataPath))
  let ret ← hksMakeFullDir fs
  MonadExcept.ofExcept (if isUserPath then ret.orError .noPermission else ret)
  match material.keyAliasPath with
  | none              => return { path }
  | some keyAliasPath =>
    if "../".toList <:+: keyAliasPath then throw .invalidArgument
    if keyAliasPath.length > hksMaxFileNameLen then throw .insufficientMemory
    return { path, fileName := keyAliasPath }

end

def hksGetFileInfo (fs : FileSystem) (supportStorageBackup : Bool) (material : HksStoreMaterial) :
    StorageM HksStoreFileInfo := do
  let mainPath ← getPathInfo fs material hksKeyStorePath hksStoreServicePath
  if supportStorageBackup then
    return { mainPath, bakPath := ← getPathInfo fs material hksKeyStoreBakPath hksStoreServiceBakPath }
  else
    return { mainPath }

end Huks
