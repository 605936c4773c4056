import Huks.Lib.RelatedRuns
import Huks.Lib.Triple
import Huks.Storage.Storage

namespace Huks

open EStateM

-- `P` is about the files and not about the number of calls.
abbrev DiskFact (P : Disk → Prop) : Prop := ∀ s n, P s → P { s with tick := n }

@[simp]
theorem lookup_set (disk : Disk) (path : Path) (content : Bytes) :
    (disk.set path content).files.lookup path = some content := by
  simp [Disk.set]

theorem lookup_set_ne (disk : Disk) {path path' : Path} (h : path' ≠ path) (content : Bytes) :
    (disk.set path content).files.lookup path' = disk.files.lookup path' :=
  AList.lookup_insert_ne h

@[simp]
theorem lookup_erase (disk : Disk) (path : Path) : (disk.erase path).files.lookup path = none :=
  AList.lookup_erase ..

theorem lookup_erase_ne (disk : Disk) {path path' : Path} (h : path' ≠ path) :
    (disk.erase path).files.lookup path' = disk.files.lookup path' :=
  AList.lookup_erase_ne h

section Preserves

variable {P : Disk → Prop} {fs : FileSystem} {env : StorageEnv} {path fileName : Path}

theorem nextCall_preserves (hP : DiskFact P) : Preserves P nextCall := fun s hs => hP s _ hs

theorem findFile_preserves (full : Path) : Preserves P (findFile full) := fun _ h => h

theorem fileExists_preserves (info : HksStoreInfo) : Preserves P (fileExists info) := by
  refine .bind (.attempt ?_) fun _ => .pure _
  refine .bind (.ofExcept _) fun full => .bind (findFile_preserves full) fun _ => ?_
  exact .ite (.throw _) (.pure _)

theorem hksFileSize_preserves (hP : DiskFact P) : Preserves P (hksFileSize fs path fileName) := by
  rw [hksFileSize]
  split
  case h_1 => exact .pure _
  case h_2 full _ =>
    refine .bind (findFile_preserves full) fun content => ?_
    cases content
    case none => exact .pure _
    case some => exact .bind (nextCall_preserves hP) fun _ => .pure _

-- The paths that an operation on a file touches.
def Touches (path fileName full : Path) : Prop := getFileName path fileName = .ok full

theorem getValidFileName_ok {full : Path} (h : getValidFileName path fileName = .ok full) :
    Touches path fileName full := by
  have ⟨full', hfull, h⟩ := Except.bind_eq_ok.mp h
  have ⟨_, _, h⟩ := Except.bind_eq_ok.mp h
  cases h
  exact hfull

variable (hP : DiskFact P)
include hP

theorem hksFileWrite_preserves {buf : Bytes}
    (hset : ∀ full content s, Touches path fileName full → P s → P (s.set full content)) :
    Preserves P (hksFileWrite fs path fileName buf) := by
  dsimp only [hksFileWrite]
  refine .guard (.ofExcept_bind fun full hfull => ?_)
  have hfull := getValidFileName_ok hfull
  refine .bind (nextCall_preserves hP) fun n => ?_
  cases fs.write n
  case done => exact .modify fun s hs => hset full _ s hfull hs
  case cut left e =>
    cases left
    case none => exact .throw _
    case some => exact .bind (.modify fun s hs => hset full _ s hfull hs) fun _ => .throw _

theorem hksFileRemove_preserves
    (herase : ∀ full s, Touches path fileName full → P s → P (s.erase full)) :
    Preserves P (hksFileRemove fs path fileName) := by
  refine .ofExcept_bind fun full hfull => ?_
  have hfull := getValidFileName_ok hfull
  refine .bind (findFile_preserves full) fun _ => ?_
  refine .ite (.bind (nextCall_preserves hP) fun n => ?_) (.pure _)
  cases fs.remove n
  case none => exact .modify fun s hs => herase full s hfull hs
  case some => exact .throw _

theorem cleanFile_preserves
    (hset : ∀ full content s, Touches path fileName full → P s → P (s.set full content)) :
    Preserves P (cleanFile env path fileName) := by
  dsimp only [cleanFile, hksStorageWriteFile]
  refine .bind (hksFileSize_preserves hP) fun size => .guard ?_
  refine .bind (hksFileWrite_preserves hP hset) fun _ => ?_
  refine .bind (hksFileWrite_preserves hP hset) fun _ => ?_
  refine .bind (nextCall_preserves hP) fun _ => .bind (.ofExcept _) fun _ => ?_
  exact hksFileWrite_preserves hP hset

theorem hksStorageRemoveFile_preserves
    (hset : ∀ full content s, Touches path fileName full → P s → P (s.set full content))
    (herase : ∀ full s, Touches path fileName full → P s → P (s.erase full)) :
    Preserves P (hksStorageRemoveFile env path fileName) := by
  dsimp only [hksStorageRemoveFile]
  split
  case isTrue =>
    exact .bind (.bind (.attempt (cleanFile_preserves hP hset)) fun _ => .pure _)
      fun _ => hksFileRemove_preserves hP herase
  case isFalse => exact hksFileRemove_preserves hP herase

end Preserves

-- The files that a call for this key may touch.
def HksStoreFileInfo.Touches (fileInfo : HksStoreFileInfo) (backup : Bool) (full : Path) : Prop :=
  Huks.Touches fileInfo.mainPath.path fileInfo.mainPath.fileName full ∨
    backup ∧ Huks.Touches fileInfo.bakPath.path fileInfo.bakPath.fileName full

section Untouched

variable {P : Disk → Prop} {env : StorageEnv} {fileInfo : HksStoreFileInfo} (hP : DiskFact P)
include hP

theorem hksStoreKeyBlob_preserves {keyBlob : Bytes}
    (hset : ∀ full content s, fileInfo.Touches env.supportStorageBackup full → P s →
      P (s.set full content)) : Preserves P (hksStoreKeyBlob env fileInfo keyBlob) := by
  dsimp only [hksStoreKeyBlob, hksStorageWriteFile]
  refine .bind (hksFileWrite_preserves hP fun _ _ _ h => hset _ _ _ (.inl h)) fun _ => ?_
  split
  case isTrue hbackup =>
    exact .bind (.attempt (hksFileWrite_preserves hP fun _ _ _ h => hset _ _ _ (.inr ⟨hbackup, h⟩)))
      fun _ => .pure _
  case isFalse => exact .pure _

theorem hksStoreDeleteKeyBlob_preserves
    (hset : ∀ full content s, fileInfo.Touches env.supportStorageBackup full → P s →
      P (s.set full content))
    (herase : ∀ full s, fileInfo.Touches env.supportStorageBackup full → P s → P (s.erase full)) :
    Preserves P (hksStoreDeleteKeyBlob env fileInfo) := by
  dsimp only [hksStoreDeleteKeyBlob, deleteKeyBlob]
  have hmain : Preserves P
      (hksStorageRemoveFile env fileInfo.mainPath.path fileInfo.mainPath.fileName) :=
    hksStorageRemoveFile_preserves hP (fun _ _ _ h => hset _ _ _ (.inl h))
      fun _ _ h => herase _ _ (.inl h)
  refine .bind (fileExists_preserves _) fun isMain => ?_
  have hrest : Preserves P (if isMain = true then
      hksStorageRemoveFile env fileInfo.mainPath.path fileInfo.mainPath.fileName
    else throw .notExist) := .ite hmain (.throw _)
  split
  case isTrue hbackup =>
    have hbak : Preserves P
        (hksStorageRemoveFile env fileInfo.bakPath.path fileInfo.bakPath.fileName) :=
      hksStorageRemoveFile_preserves hP (fun _ _ _ h => hset _ _ _ (.inr ⟨hbackup, h⟩))
        fun _ _ h => herase _ _ (.inr ⟨hbackup, h⟩)
    refine .bind (fileExists_preserves _) fun isBak => .guard ?_
    split
    case isTrue => exact .bind hbak fun _ => hrest
    case isFalse => exact hrest
  case isFalse => exact hrest

end Untouched

section Read

-- Related disks agree on the file, and the next calls of the system have the same numbers.
structure SameFile (path fileName : Path) (R : Disk → Disk → Prop) : Prop where
  lookup  : ∀ s t full, R s t → Touches path fileName full →
    s.files.lookup full = t.files.lookup full
  tick    : ∀ s t, R s t → s.tick = t.tick
  setTick : ∀ s t n, R s t → R { s with tick := n } { t with tick := n }

variable {fs : FileSystem} {env : StorageEnv} {path fileName : Path} {R : Disk → Disk → Prop}

theorem nextCall_respects (hR : SameFile path fileName R) : Respects R nextCall :=
  .modifyGet fun s t h => ⟨hR.tick s t h, by simpa only [hR.tick s t h] using hR.setTick s t _ h⟩

theorem findFile_respects (hR : SameFile path fileName R) {full : Path}
    (hfull : getValidFileName path fileName = .ok full) : Respects R (findFile full) :=
  fun s t h => ⟨congrArg Except.ok (hR.lookup s t full h (getValidFileName_ok hfull)), h⟩

theorem fileExists_respects {info : HksStoreInfo} (hR : SameFile info.path info.fileName R) :
    Respects R (fileExists info) := by
  refine .bind (.attempt ?_) fun _ => .pure _
  rw [hksIsFileExist]
  cases hfull : getValidFileName info.path info.fileName
  case error e => exact .throw e
  case ok full =>
    have hexist : Respects R (isFileExist full) :=
      .bind (findFile_respects hR hfull) fun _ => .ite (.throw _) (.pure _)
    exact hexist

theorem hksFileSize_respects (hR : SameFile path fileName R) :
    Respects R (hksFileSize fs path fileName) := by
  rw [hksFileSize]
  split
  case h_1 => exact .pure _
  case h_2 full hfull =>
    refine .bind (findFile_respects hR hfull) fun content => ?_
    cases content
    case none => exact .pure _
    case some => exact .bind (nextCall_respects hR) fun _ => .pure _

theorem fileRead_respects (hR : SameFile path fileName R) {full : Path}
    (hfull : getValidFileName path fileName = .ok full) (size : Nat) :
    Respects R (fileRead fs full size) := by
  refine .bind (findFile_respects hR hfull) fun content => ?_
  cases content
  case none => exact .throw _
  case some =>
    refine .bind (nextCall_respects hR) fun n => ?_
    cases fs.read n
    case done => exact .pure _
    case short => exact .pure _
    case fail => exact .throw _

theorem hksFileRead_respects (hR : SameFile path fileName R) (size : Nat) :
    Respects R (hksFileRead fs path fileName size) := by
  dsimp only [hksFileRead]
  refine .ite (.throw _) ?_
  cases hfull : getValidFileName path fileName
  case error e => exact .throw e
  case ok => exact fileRead_respects hR hfull size

theorem hksStoreGetKeyBlob_respects {info : HksStoreInfo} (hR : SameFile info.path info.fileName R)
    (size : Nat) : Respects R (hksStoreGetKeyBlob env info size) := by
  dsimp only [hksStoreGetKeyBlob, getKeyBlob, getKeyBlobFromFile, hksStorageReadFile]
  refine .bind (fileExists_respects hR) fun _ => .ite (.throw _) ?_
  refine .bind (hksFileSize_respects hR) fun size => .ite (.throw _) <| .ite (.throw _) ?_
  refine .bind (.attempt (hksFileRead_respects hR _)) fun ret => ?_
  split
  case h_1 => exact .throw _
  case h_2 => exact .throw _
  case h_3 => exact .pure _

end Read

end Huks
