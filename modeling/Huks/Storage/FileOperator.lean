import Huks.Common.Types
import Huks.Lib.PathText
import Huks.Lib.StateError
import Mathlib.Data.List.AList

namespace Huks

-- Paths and file names are C strings.
abbrev Path := List Char

def hksMaxFileNameLen   : Nat := 512
def hksMaxDirentFileLen : Nat := 128
def hksMaxFileSize      : Nat := 10240

-- The regular files by their full paths. A directory is there when a file is below it.
abbrev Files := AList fun _ : Path => Bytes

-- A write that fails leaves the old file, or so many bytes of the new one.
inductive FileWriteOutcome
  | done
  | cut (left : Option Nat) (e : HksErrorCode)
  deriving DecidableEq

-- `fread` reports a failure only by the number of bytes that it read.
inductive FileReadOutcome
  | done
  | short (size : Nat)
  | fail (e : HksErrorCode)
  deriving DecidableEq

-- What the system does with the call of a number, and which directories of users are there.
structure FileSystem where
  write    : Nat → FileWriteOutcome
  read     : Nat → FileReadOutcome
  stat     : Nat → Bool
  remove   : Nat → Option HksErrorCode
  makeDir  : Nat → Option HksErrorCode
  dirExist : Path → Bool

structure Disk where
  files : Files
  tick  : Nat := 0

abbrev StorageM := EStateM HksErrorCode Disk

def nextCall : StorageM Nat := modifyGet fun disk => (disk.tick, { disk with tick := disk.tick + 1 })

def Disk.set (disk : Disk) (path : Path) (content : Bytes) : Disk :=
  { disk with files := disk.files.insert path content }

def Disk.erase (disk : Disk) (path : Path) : Disk := { disk with files := disk.files.erase path }

-- `strncpy_s` and `strncat_s` refuse a text that does not fit with its terminator.
def getFileName (path fileName : Path) : Except HksErrorCode Path := do
  let fullFileName := (if path.getLast? = some '/' then path else path ++ ['/']) ++ fileName
  if fullFileName.length < hksMaxFileNameLen then return fullFileName else throw .internalError

def isValidPath (path : Path) : Except HksErrorCode Unit :=
  if "../".toList <:+: path then throw .invalidArgument else return ⟨⟩

def getValidFileName (path fileName : Path) : Except HksErrorCode Path := do
  let fullFileName ← getFileName path fileName
  (isValidPath fullFileName).orError .invalidArgument
  return fullFileName

def findFile (fileName : Path) : StorageM (Option Bytes) := do return (← get).files.lookup fileName

def isFileExist (fileName : Path) : StorageM Unit := do
  if (← findFile fileName).isNone then throw .notExist

def hksIsFileExist (path fileName : Path) : StorageM Unit := do
  isFileExist (← MonadExcept.ofExcept (getValidFileName path fileName))

section

variable (fs : FileSystem)

def hksIsDirExist (path : Path) : Except HksErrorCode Unit := do
  isValidPath path
  if ¬fs.dirExist path then throw .notExist

-- The content of the file as far as it fits into a buffer of `size` bytes.
def fileRead (fileName : Path) (size : Nat) : StorageM Bytes := do
  match ← findFile fileName with
  | none         => throw .notExist
  | some content =>
    match fs.read (← nextCall) with
    | .done       => return content.take size
    | .short read => return content.take (min read size)
    | .fail e     => throw e

def hksFileRead (path fileName : Path) (size : Nat) : StorageM Bytes := do
  if size = 0 then throw .invalidArgument
  fileRead fs (← MonadExcept.ofExcept (getValidFileName path fileName)) size

-- A size of zero stands for a failure.
def fileSize (fileName : Path) : StorageM Nat := do
  match ← findFile fileName with
  | none         => return 0
  | some content => return if fs.stat (← nextCall) then content.length else 0

def hksFileSize (path fileName : Path) : StorageM Nat := do
  match getValidFileName path fileName with
  | .error _         => return 0
  | .ok fullFileName => fileSize fs fullFileName

def fileWrite (fileName : Path) (buf : Bytes) : StorageM Unit := do
  match fs.write (← nextCall) with
  | .done              => modify (·.set fileName buf)
  | .cut none e        => throw e
  | .cut (some left) e => do
    modify (·.set fileName (buf.take left))
    throw e

def hksFileWrite (path fileName : Path) (buf : Bytes) : StorageM Unit := do
  if buf = [] then throw .invalidArgument
  fileWrite fs (← MonadExcept.ofExcept (getValidFileName path fileName)) buf

-- A file that is not there counts as removed.
def fileRemove (fileName : Path) : StorageM Unit := do
  if (← findFile fileName).isSome then
    match fs.remove (← nextCall) with
    | none   => modify (·.erase fileName)
    | some e => throw e

def hksFileRemove (path fileName : Path) : StorageM Unit := do
  fileRemove fs (← MonadExcept.ofExcept (getValidFileName path fileName))

end

-- An entry of a directory; `.` and `..` are passed over by everyone who reads a directory here.
structure Dirent where
  name  : Path
  isDir : Bool
  deriving DecidableEq

-- The entry of `dir` under which the file `path` is found.
def direntBelow (dir path : Path) : Option Dirent :=
  if dir ++ ['/'] <+: path then
    let rest := path.drop (dir.length + 1)
    some ⟨rest.takeWhile (· ≠ '/'), '/' ∈ rest⟩
  else
    none

-- A directory that cannot be opened is treated like an empty one.
def readDir (path : Path) : StorageM (List Dirent) := do
  return ((← get).files.keys.filterMap (direntBelow path)).dedup

-- `remove` leaves a directory that is not empty.
def removePath (path : Path) : StorageM Unit := modify (·.erase path)

def hksDeletDirPartTwo (path : Path) : StorageM Unit := do
  (← readDir path).forM fun dire => do
    removePath (← MonadExcept.ofExcept (getFileName path dire.name))

def hksDeletDirPartOne (path : Path) : StorageM Unit := do
  (← readDir path).forM fun dire => do
    let deletePath ← MonadExcept.ofExcept (getFileName path dire.name)
    if dire.isDir then
      discard <| EStateM.attempt (hksDeletDirPartTwo deletePath)
    else
      removePath deletePath

-- The system takes several slashes for one.
def hksDeleteDir (path : Path) : StorageM Unit := do
  MonadExcept.ofExcept (isValidPath path)
  let path := PathText.collapse '/' path
  (← readDir path).forM fun dire => do
    let deletePath ← MonadExcept.ofExcept (getFileName path dire.name)
    if dire.isDir then
      discard <| EStateM.attempt (hksDeletDirPartOne deletePath)
    else
      removePath deletePath

end Huks
