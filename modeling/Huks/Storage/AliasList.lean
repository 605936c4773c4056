import Huks.Storage.StorageManager

namespace Huks

def hksMaxKeyAliasCount : Nat := 2048

-- `sizeof(struct HksFileEntry)`
def sizeofHksFileEntry : Nat := 16

-- What `opendir` and `readdir` find of a directory at one time.
structure DirScan where
  opened  : Bool
  entries : List Dirent

-- What the calls of `HksGetDirFile` return until one fails. A name that does not fit into the
-- record of the caller is a failure, like the end of the directory.
def hksGetDirFiles : List Dirent → List Path
  | []              => []
  | dire :: entries =>
    if dire.isDir then
      hksGetDirFiles entries
    else if dire.name.length > hksMaxDirentFileLen - 1 then
      []
    else
      dire.name :: hksGetDirFiles entries

-- A directory that cannot be opened counts as empty.
def openDirFiles (scan : DirScan) : List Path :=
  if scan.opened then hksGetDirFiles scan.entries else []

-- The number is a `uint32_t`.
def getFileCount (scan : DirScan) : Nat := (openDirFiles scan).length % UInt32.size

-- The names that are copied, and the number of those that were read.
def getFileNameList (scan : DirScan) (fileCount : Nat) : List Path × Nat :=
  readNames (openDirFiles scan) 0
where
  readNames : List Path → Nat → List Path × Nat
    | [], count            => ([], count)
    | name :: files, count =>
      if fileCount < count + 1 ∨ hksMaxFileNameLen < name.length + 1 then
        ([], count + 1)
      else
        let (names, realFileCount) := readNames files (count + 1)
        (name :: names, realFileCount)

def fileNameListInit (keyCount : Nat) : Except HksErrorCode Unit :=
  if keyCount > (UInt32.size - 1) / sizeofHksFileEntry ∨ keyCount = 0 then
    throw .bufferTooSmall
  else if ¬mallocOk (keyCount * sizeofHksFileEntry) then
    throw .mallocFail
  else
    return ⟨⟩

-- Without a value, an entry past the end of a list was used.
abbrev Listing := ExceptT HksErrorCode Option

def Listing.pastEnd {α : Type} : Listing α := ExceptT.mk none

-- The loop over the first `n` file names, with the sizes of the blobs that take the aliases.
def constructBlobs : List Path → List Nat → (n : Nat) → Listing (List Bytes)
  | _, _, 0                             => return []
  | name :: names, size :: sizes, n + 1 => do
    let keyAlias ← MonadExcept.ofExcept (constructBlob name size)
    return keyAlias :: (← constructBlobs names sizes n)
  | _, _, _ + 1                         => Listing.pastEnd

section

variable (counting reading : DirScan)

-- `aliasSizes` are the sizes of the aliases in `keyInfoList`. A success reports as many keys as
-- there are aliases in the result.
def getKeyAliasByProcessName (aliasSizes : List Nat) : Listing (List Bytes) := do
  let fileCount := getFileCount counting
  if aliasSizes.length < fileCount then throw .bufferTooSmall
  if fileCount = 0 then
    return []
  else
    MonadExcept.ofExcept (fileNameListInit fileCount)
    let (fileNameList, realFileCount) := getFileNameList reading fileCount
    constructBlobs fileNameList aliasSizes realFileCount

def getHksKeyAliasSet (fileNameList : List Path) (fileCount : Nat) : Listing (Option (List Bytes)) := do
  if fileCount = 0 then
    return none
  else
    some <$> constructBlobs fileNameList (fileNameList.map List.length) fileCount

-- No list is handed out for an empty directory, and none when fewer files are read than counted.
def getHksFileEntry : Listing (Option (List Path × Nat)) := do
  let fileCount := getFileCount counting
  if fileCount = 0 then
    return none
  else
    if fileCount > hksMaxKeyAliasCount then throw .bufferTooSmall
    MonadExcept.ofExcept (fileNameListInit fileCount)
    let (fileNameList, realfileCount) := getFileNameList reading fileCount
    return if realfileCount < fileCount then none else some (fileNameList, fileCount)

-- Without a value, `outData` is left as it was.
def hksListAliasesByProcessName : Listing (Option (List Bytes)) := do
  match ← getHksFileEntry counting reading with
  | none                         => return none
  | some (fileNameList, fileCnt) => getHksKeyAliasSet fileNameList fileCnt

end

section

variable (env : StorageEnv) (counting reading : Path → DirScan)
  (processInfo : HksProcessInfo) (paramSet : HksParamSet)

-- A listing of the directory of a process. Other threads may change it between the two scans.
def manageListing {α : Type} (listing : DirScan → DirScan → Listing α) : StorageM (Option α) := do
  let fileInfo ← storeFileInfo env processInfo paramSet none .key
  let path := fileInfo.mainPath.path
  match (listing (counting path) (reading path)).run with
  | none            => return none
  | some (.error e) => throw e
  | some (.ok a)    => return some a

def hksManageGetKeyAliasByProcessName (aliasSizes : List Nat) : StorageM (Option (List Bytes)) :=
  manageListing env counting reading processInfo paramSet fun counting reading =>
    getKeyAliasByProcessName counting reading aliasSizes

def hksManageListAliasesByProcessName : StorageM (Option (Option (List Bytes))) :=
  manageListing env counting reading processInfo paramSet hksListAliasesByProcessName

end

end Huks
