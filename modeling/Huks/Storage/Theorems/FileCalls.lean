import Huks.Lib.Triple
import Huks.Storage.Theorems.Files

namespace Huks

open EStateM

-- What the calls of the file system do to a disk that holds the files `g`.
def On (g : Path → Option Bytes) (disk : Disk) : Prop := (fun path => disk.files.lookup path) = g

theorem On.lookup {g : Path → Option Bytes} {disk : Disk} (h : On g disk) (path : Path) :
    disk.files.lookup path = g path := congrFun h path

theorem On.set {g : Path → Option Bytes} {disk : Disk} (h : On g disk) (full : Path) (buf : Bytes) :
    On (Function.update g full (some buf)) (disk.set full buf) := by
  funext path
  by_cases heq : path = full
  case pos =>
    subst heq
    rw [lookup_set, Function.update_self]
  case neg => rw [lookup_set_ne _ heq, h.lookup, Function.update_of_ne heq]

theorem On.erase {g : Path → Option Bytes} {disk : Disk} (h : On g disk) (full : Path) :
    On (Function.update g full none) (disk.erase full) := by
  funext path
  by_cases heq : path = full
  case pos =>
    subst heq
    rw [lookup_erase, Function.update_self]
  case neg => rw [lookup_erase_ne _ heq, h.lookup, Function.update_of_ne heq]

namespace FileSystem

variable (fs : FileSystem)

-- A write that fails leaves the file as it was.
def WritesWhole : Prop := ∀ n left e, fs.write n ≠ .cut (some left) e

-- A read that succeeds returns all that was asked for.
def ReadsWhole : Prop := ∀ n size, fs.read n ≠ .short size

end FileSystem

section Calls

variable {fs : FileSystem} {g : Path → Option Bytes} {path fileName full : Path}
  {E : HksErrorCode → Disk → Prop}

theorem nextCall_triple {P : Disk → Prop} (hP : DiskFact P) :
    Triple P nextCall (fun _ => P) E := fun s hs => hP s _ hs

theorem on_fact : DiskFact (On g) := fun _ _ => id

theorem findFile_triple : Triple (On g) (findFile full)
    (fun content disk => On g disk ∧ content = g full) E :=
  fun _ hs => ⟨hs, hs.lookup full⟩

variable (hfull : getValidFileName path fileName = .ok full)
include hfull

theorem fileExists_triple : Triple (On g) (fileExists ⟨path, fileName⟩)
    (fun found disk => On g disk ∧ (found = true ↔ (g full).isSome)) E := by
  have hexist : Triple (On g) (hksIsFileExist path fileName)
      (fun _ disk => On g disk ∧ (g full).isSome) fun _ disk => On g disk ∧ g full = none := by
    rw [hksIsFileExist, hfull]
    change Triple _ (isFileExist full) _ _
    dsimp only [isFileExist]
    refine .bind findFile_triple fun content => .ite (fun hnone => ?_) fun hsome => ?_
    · exact .throw fun s hs => ⟨hs.1, hs.2 ▸ Option.isNone_iff_eq_none.mp hnone⟩
    · exact .pure fun s hs => ⟨hs.1, by rw [← hs.2]; simpa [Option.isSome_iff_ne_none] using hsome⟩
  refine hexist.attempt.bind fun ret => .pure fun s hs => ?_
  cases ret
  case ok => exact ⟨(hs.1 _ rfl).1, iff_of_true rfl (hs.1 _ rfl).2⟩
  case error e => exact ⟨(hs.2 _ rfl).1, iff_of_false (fun h => by cases h) (by simp [(hs.2 _ rfl).2])⟩

theorem hksFileSize_triple : Triple (On g) (hksFileSize fs path fileName)
    (fun size disk => On g disk ∧ (size ≠ 0 → (∃ n, fs.stat n = true) ∧
      ∃ content, g full = some content ∧ size = content.length)) E := by
  simp only [hksFileSize, hfull, fileSize]
  refine .bind findFile_triple fun content => ?_
  cases content
  case none => exact .pure fun s hs => ⟨hs.1, fun h => (h rfl).elim⟩
  case some content =>
    refine .bind (nextCall_triple fun _ _ => id) fun n => .pure fun s hs => ⟨hs.1, fun h => ?_⟩
    split at h
    case isTrue hstat => exact ⟨⟨n, hstat⟩, content, hs.2.symm, by rw [if_pos hstat]⟩
    case isFalse => exact (h rfl).elim

theorem hksFileRead_triple (hread : fs.ReadsWhole) {size : Nat} :
    Triple (On g) (hksFileRead fs path fileName size)
      (fun buf disk => On g disk ∧ ∃ content, g full = some content ∧ buf = content.take size)
      fun _ => On g := by
  dsimp only [hksFileRead]
  refine .guard (fun _ _ => id) fun _ => ?_
  rw [hfull]
  change Triple _ (fileRead fs full size) _ _
  dsimp only [fileRead]
  refine .bind findFile_triple fun content => ?_
  cases content
  case none => exact .throw fun s hs => hs.1
  case some content =>
    refine .bind (nextCall_triple fun _ _ => id) fun n => ?_
    split
    case h_1 => exact .pure fun s hs => ⟨hs.1, content, hs.2.symm, rfl⟩
    case h_2 hshort => exact absurd hshort (hread _ _)
    case h_3 => exact .throw fun s hs => hs.1

theorem hksFileWrite_triple (hwrite : fs.WritesWhole) {buf : Bytes} :
    Triple (On g) (hksFileWrite fs path fileName buf)
      (fun _ disk => On (Function.update g full (some buf)) disk ∧ buf ≠ [] ∧ ∃ n, fs.write n = .done)
      fun _ disk => On g disk ∧ (buf = [] ∨ ∃ n, fs.write n ≠ .done) := by
  dsimp only [hksFileWrite]
  refine .guard (fun hnil _ hs => ⟨hs, .inl hnil⟩) fun hnil => ?_
  rw [hfull]
  change Triple _ (fileWrite fs full buf) _ _
  dsimp only [fileWrite]
  refine .bind (nextCall_triple on_fact) fun n => ?_
  split
  case h_1 hdone => exact .modify fun s hs => ⟨hs.set full buf, hnil, n, hdone⟩
  case h_2 hcut => exact .throw fun s hs => ⟨hs, .inr ⟨n, by simp [hcut]⟩⟩
  case h_3 hcut => exact absurd hcut (hwrite _ _ _)

theorem hksFileRemove_triple : Triple (On g) (hksFileRemove fs path fileName)
    (fun _ => On (Function.update g full none))
    fun e disk => On g disk ∧ ∃ n, fs.remove n = some e := by
  rw [hksFileRemove, hfull]
  change Triple _ (fileRemove fs full) _ _
  dsimp only [fileRemove]
  refine .bind findFile_triple fun content => ?_
  refine .ite (fun _ => ?_) fun hnone => ?_
  · refine .bind (nextCall_triple fun _ _ => id) fun n => ?_
    split
    case h_1 => exact .modify fun s hs => hs.1.erase full
    case h_2 e hfail => exact .throw fun s hs => ⟨hs.1, n, hfail⟩
  · refine .pure fun s hs => ?_
    have hmissing : g full = none := by simpa [hs.2] using hnone
    rw [← hmissing, Function.update_eq_self]
    exact hs.1

-- Why a removal that may fail does not destroy a file that is cleaned before.
inductive CleaningSpares (env : StorageEnv) (content : Option Bytes) : Prop
  | disabled (h : env.enableCleanFile = false)
  | unread (h : ∀ n, env.fs.stat n = false)
  | unwritten (h : ∀ n, ∃ e, env.fs.write n = .cut none e)
  | large (h : ∀ bytes, content = some bytes → hksMaxFileSize < bytes.length)

variable {env : StorageEnv}

theorem hksFileWrite_fails (h : ∀ n, ∃ e, fs.write n = .cut none e) {buf : Bytes} :
    Triple (On g) (hksFileWrite fs path fileName buf) (fun _ _ => False) fun _ => On g := by
  have hwhole : fs.WritesWhole := fun n left e hcut => by
    have ⟨e', he⟩ := h n
    simp [he] at hcut
  refine (hksFileWrite_triple hfull hwhole).weaken (fun _ => id) (fun _ s hs => ?_) fun _ s hs => hs.1
  have ⟨n, hdone⟩ := hs.2.2
  have ⟨e, he⟩ := h n
  simp [he] at hdone

theorem cleanFile_spares (henabled : env.enableCleanFile = true) (h : CleaningSpares env (g full)) :
    Triple (On g) (cleanFile env path fileName) (fun _ => On g) fun _ => On g := by
  dsimp only [cleanFile]
  refine .bind (hksFileSize_triple hfull) fun size => .guard (fun _ _ hs => hs.1) fun hsize => ?_
  refine .strengthen_pre (.of_pure fun hcontent => ?_) fun s hs => ⟨hs.2, hs.1⟩
  have ⟨hnil, hle⟩ := not_or.mp hsize
  have ⟨⟨n, hstat⟩, content, hfound, hlength⟩ := hcontent hnil
  cases h
  case disabled h => simp [h] at henabled
  case unread h => simp [h] at hstat
  case large h => exact absurd (h content hfound) (hlength ▸ hle)
  case unwritten h => exact .bind (hksFileWrite_fails hfull h) fun _ => .of_false

theorem cleanFile_frame :
    Preserves (fun disk => ∃ content, On (Function.update g full content) disk)
      (cleanFile env path fileName) := by
  refine cleanFile_preserves (fun _ _ => id) fun full' buf s hfull' hs => ?_
  obtain rfl : full' = full := Except.ok.inj (hfull'.symm.trans (getValidFileName_ok hfull))
  have ⟨content, hs⟩ := hs
  have hset := hs.set full' buf
  rw [Function.update_idem] at hset
  exact ⟨some buf, hset⟩

-- A removal either takes the file away or leaves it as it was.
theorem hksStorageRemoveFile_triple
    (h : (∀ n, env.fs.remove n = none) ∨ CleaningSpares env (g full)) :
    Triple (On g) (hksStorageRemoveFile env path fileName) (fun _ => On (Function.update g full none))
      fun e disk => On g disk ∧ ∃ n, env.fs.remove n = some e := by
  dsimp only [hksStorageRemoveFile]
  refine .ite (fun henabled => ?_) fun _ => hksFileRemove_triple hfull
  obtain hremove | hspares := h
  · have hclean : ∀ s, On g s →
        ∃ content, On (Function.update g full content) ((cleanFile env path fileName).run s).final :=
      fun s hs => cleanFile_frame hfull s ⟨g full, by rwa [Function.update_eq_self]⟩
    refine .bind (.attempt_discard hclean) fun _ => .of_exists fun content => ?_
    refine (hksFileRemove_triple hfull).weaken (fun _ => id) (fun _ s hs => ?_) fun e s hs => ?_
    · rwa [Function.update_idem] at hs
    · have ⟨n, hfail⟩ := hs.2
      simp [hremove] at hfail
  · have hclean : ∀ s, On g s → On g ((cleanFile env path fileName).run s).final :=
      fun s hs => (cleanFile_spares hfull henabled hspares).final hs
    exact .bind (.attempt_discard hclean) fun _ => hksFileRemove_triple hfull

end Calls

-- What is read is the whole file.
theorem hksStoreGetKeyBlob_triple {env : StorageEnv} {g : Path → Option Bytes} {full : Path}
    {info : HksStoreInfo} (hfull : getValidFileName info.path info.fileName = .ok full)
    (hread : env.fs.ReadsWhole) {keyBlobSize : Nat} :
    Triple (On g) (hksStoreGetKeyBlob env info keyBlobSize)
      (fun keyBlob disk => On g disk ∧ g full = some keyBlob) fun _ => On g := by
  dsimp only [hksStoreGetKeyBlob, getKeyBlob, getKeyBlobFromFile]
  refine .bind (fileExists_triple hfull) fun found => .guard (fun _ _ hs => hs.1) fun _ => ?_
  refine .strengthen_pre ?_ fun s hs => hs.1
  refine .bind (hksFileSize_triple hfull) fun size => .guard (fun _ _ hs => hs.1) fun hsize => ?_
  refine .guard (fun _ _ hs => hs.1) fun hroom => ?_
  refine .strengthen_pre (.of_pure fun hcontent => ?_) fun s hs => ⟨hs.2, hs.1⟩
  have ⟨_, content, hfound, hlength⟩ := hcontent hsize
  refine .bind (hksFileRead_triple hfull hread).attempt fun ret => ?_
  split
  case h_1 => exact .throw fun s hs => hs.2 _ rfl
  case h_2 => exact .throw fun s hs => hs.2 _ rfl
  case h_3 keyBlob =>
    refine .pure fun s hs => ⟨(hs.1 _ rfl).1, ?_⟩
    have ⟨content', hfound', htake⟩ := (hs.1 _ rfl).2
    obtain rfl : content = content' := Option.some.inj (hfound.symm.trans hfound')
    rw [htake, List.take_of_length_le (by omega), hfound]

end Huks
