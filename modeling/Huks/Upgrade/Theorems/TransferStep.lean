import Huks.Upgrade.Theorems.Destination
import Mathlib.Data.List.DropRight

namespace Huks

open EStateM Function

section Step

variable {const : TransferConst} {fs : FileSystem} {frontUserId : UInt32} {alias' oldPath source : Path}
  {buf : Bytes} {info : HksUpgradeFileTransferInfo} {g : Path → Option Bytes}

-- The state after a transfer, and what is known besides.
def AfterTransfer (frontUserId : UInt32) (alias' source : Path) (buf : Bytes)
    (info : HksUpgradeFileTransferInfo) (g : Path → Option Bytes)
    (p : Path → (Path → Option Bytes) → Prop) (disk : Disk) : Prop :=
  ∃ target g', destination frontUserId alias' info = .ok target ∧ On g' disk ∧
    Transferred g source target buf (hksIsRdbDeKey alias' ∧ info.needDe) g' ∧ p target g'

-- Where the new path is refused nothing is moved.
theorem transferRest_refused {newPath : Path} {e : HksErrorCode}
    (htarget : getValidFileName newPath alias' = .error e) {Q : PUnit → Disk → Prop} :
    Triple (On g)
      (if hksIsRdbDeKey alias' ∧ info.needDe then do
        hksFileRemove fs newPath alias'
        moveFile fs alias' oldPath newPath buf
      else do
        if ← fileExists ⟨newPath, alias'⟩ then
          discard <| EStateM.attempt (hksFileRemove fs oldPath alias')
        else
          moveFile fs alias' oldPath newPath buf) Q fun _ => On g := by
  have hmove := (@moveFile_refused fs g _ oldPath _ buf _ htarget).weaken_post
    (Q := Q) fun _ _ => False.elim
  refine .ite (fun _ => ?_) fun _ => ?_
  · refine .bind (Q := fun _ => On g) ?_ fun _ => hmove
    rw [hksFileRemove, htarget]
    exact .throw fun _ => id
  · refine .bind (Q := fun found s => found = false ∧ On g s) ?_ fun found => .of_pure fun hfound => ?_
    · intro s hs
      rw [fileExists, hksIsFileExist, htarget]
      exact ⟨rfl, hs⟩
    · rw [hfound]
      exact hmove

theorem transferFile_triple (hsource : getValidFileName oldPath alias' = .ok source) :
    Triple (On g) (transferFile const fs frontUserId alias' oldPath buf info)
      (fun _ => AfterTransfer frontUserId alias' source buf info g
        fun target g' => source ≠ target → (g' target).isSome)
      fun _ disk => On g disk ∨
        AfterTransfer frontUserId alias' source buf info g (fun _ _ => True) disk := by
  dsimp only [transferFile]
  refine .bind ((constructNewFilePath_triple on_fact).weaken_error fun _ _ hs => .inl hs) fun newPath => ?_
  refine .strengthen_pre (.of_pure fun ⟨material, hmaterial, hpath⟩ => ?_) fun s hs => ⟨hs.2, hs.1⟩
  cases htarget : getValidFileName newPath alias'
  case error e => exact (transferRest_refused htarget).weaken_error fun _ _ hs => .inl hs
  case ok target =>
    have hdestination : destination frontUserId alias' info = .ok target := by
      rw [destination, hmaterial]
      change getValidFileName (standardizePath (rawPath material _ _)) alias' = _
      rw [← hpath, htarget]
    have hmoved (free : hksIsRdbDeKey alias' ∧ info.needDe ∨ g target = none) {disk : Disk}
        (h : On (update (update g target (some buf)) source none) disk) :
        AfterTransfer frontUserId alias' source buf info g
          (fun target g' => source ≠ target → (g' target).isSome) disk :=
      ⟨target, _, hdestination, h, .moved free, fun hne => by
        rw [update_of_ne hne.symm, update_self]
        rfl⟩
    have hattempted (free : hksIsRdbDeKey alias' ∧ info.needDe ∨ g target = none) {disk : Disk}
        {d : Option Bytes} (hcut : CutFile buf (g target) d) (h : On (update g target d) disk) :
        AfterTransfer frontUserId alias' source buf info g (fun _ _ => True) disk :=
      ⟨target, _, hdestination, h, .attempted d free hcut, trivial⟩
    refine .ite (fun hrdb => ?_) fun hrdb => ?_
    · refine .bind ((hksFileRemove_triple htarget).weaken_error fun _ s hs => .inl hs.1) fun _ => ?_
      refine (moveFile_triple hsource htarget).weaken (fun _ => id) (fun _ s hs => ?_) fun _ s hs => ?_
      · rw [update_idem] at hs
        exact hmoved (.inl hrdb) hs
      · have ⟨d, hcut, hs⟩ := hs
        rw [update_idem] at hs
        rw [update_self] at hcut
        refine .inr (hattempted (.inl hrdb) (.inr fun bytes hd => ?_) hs)
        obtain rfl | hcut := hcut
        · cases hd
        · exact hcut bytes hd
    · refine .bind (fileExists_triple htarget) fun found => ?_
      refine .strengthen_pre (.of_pure fun hfound => ?_) fun s hs => ⟨hs.2, hs.1⟩
      refine .ite (fun h => ?_) fun h => ?_
      · have hsome := hfound.mp h
        refine .attempt_discard fun s hs => ?_
        refine Triple.final (P := On g) ?_ hs
        refine (hksFileRemove_triple hsource).weaken (fun _ => id) (fun _ s hs => ?_) fun _ s hs => ?_
        · exact ⟨target, _, hdestination, hs, .dropped hsome hrdb, fun hne => by
            rwa [update_of_ne hne.symm]⟩
        · exact ⟨target, g, hdestination, hs.1, .untouched, fun _ => hsome⟩
      · have hnone : g target = none := by simpa using fun hs => h (hfound.mpr hs)
        exact (moveFile_triple hsource htarget).weaken (fun _ => id)
          (fun _ _ hs => hmoved (.inr hnone) hs)
          fun _ _ ⟨_, hcut, hs⟩ => .inr (hattempted (.inr hnone) hcut hs)

theorem getFileContent_triple {path : Path} (hsource : getValidFileName path alias' = .ok source) :
    Triple (On g) (getFileContent fs path alias')
      (fun buf disk => On g disk ∧ ∃ content, g source = some content ∧ buf <+: content)
      fun _ => On g := by
  dsimp only [getFileContent]
  refine .bind ((hksFileSize_triple hsource).weaken_post fun _ _ hs => hs.1) fun size => ?_
  refine .guard (fun _ _ => id) fun _ => .guard (fun _ _ => id) fun _ => ?_
  exact hksFileRead_prefix hsource

theorem getFileContent_refused {path : Path} {e : HksErrorCode}
    (hsource : getValidFileName path alias' = .error e) :
    Triple (On g) (getFileContent fs path alias') (fun _ _ => False) fun _ => On g := by
  dsimp only [getFileContent]
  refine .bind (Q := fun size s => size = 0 ∧ On g s) ?_ fun size => .of_pure fun hsize => ?_
  · rw [hksFileSize, hsource]
    exact .pure fun s hs => ⟨rfl, hs⟩
  · exact .guard (fun _ _ => id) fun hne => absurd hsize hne

end Step

section SplitPath

variable {filePath root : Path}

theorem splitPath_fst (filePath : Path) : (splitPath filePath).1 = filePath.rdropWhile (· ≠ '/') := by
  have happend : filePath.rdropWhile (· ≠ '/') ++ filePath.rtakeWhile (· ≠ '/') = filePath :=
    List.rdropWhile_append_rtakeWhile
  have hlen := congrArg List.length happend
  rw [List.length_append] at hlen
  change filePath.take (filePath.length - (filePath.rtakeWhile (· ≠ '/')).length) = _
  rw [List.prefix_iff_eq_take.mp ⟨_, happend⟩]
  congr 1
  omega

theorem splitPath_append (filePath : Path) :
    (splitPath filePath).1 ++ (splitPath filePath).2 = filePath := by
  rw [splitPath_fst]
  exact List.rdropWhile_append_rtakeWhile

theorem splitPath_slash (h : '/' ∈ filePath) : (splitPath filePath).1.getLast? = some '/' := by
  have hne : filePath.rdropWhile (· ≠ '/') ≠ [] := by
    rw [ne_eq, List.rdropWhile_eq_nil_iff]
    exact fun hall => by simpa using hall '/' h
  have hlast := List.rdropWhile_last_not (· ≠ '/') filePath hne
  rw [splitPath_fst, List.getLast?_eq_some_getLast hne]
  simpa using hlast

theorem slash_mem_of_isBelow (h : isBelow root filePath) : '/' ∈ filePath := by
  have hprefix : root ++ ['/'] <+: filePath := by simpa [isBelow] using h
  exact hprefix.subset (by simp)

-- The name that was split off leads to the same file.
theorem getValidFileName_splitPath {source : Path} (h : '/' ∈ filePath)
    (hsource : getValidFileName (splitPath filePath).1 (splitPath filePath).2 = .ok source) :
    source = filePath := by
  have hfile := getValidFileName_ok hsource
  rw [Touches, getFileName, if_pos (splitPath_slash h), splitPath_append] at hfile
  split at hfile
  case isTrue => exact (Except.ok.inj hfile).symm
  case isFalse => cases hfile

end SplitPath

-- What a visit does to the files: nothing, or a transfer of what was read of the file.
inductive FileStep (const : TransferConst) (frontUserId : UInt32) (filePath : Path)
    (g : Path → Option Bytes) : (Path → Option Bytes) → Prop
  | skipped : FileStep const frontUserId filePath g g
  | handled {content buf : Bytes} {info : HksUpgradeFileTransferInfo} {target : Path}
      {g' : Path → Option Bytes} (file : g filePath = some content) (read : buf <+: content)
      (parsed : hksParseConfig const.config const.memory (splitPath filePath).2 (.ofBytes buf) = .ok info)
      (wanted : info.skipTransfer = false)
      (dest : destination frontUserId (splitPath filePath).2 info = .ok target)
      (transferred : Transferred g filePath target buf
        (hksIsRdbDeKey (splitPath filePath).2 ∧ info.needDe) g') :
      FileStep const frontUserId filePath g g'

section Visit

variable {const : TransferConst} {fs : FileSystem} {frontUserId : UInt32} {filePath : Path}
  {g : Path → Option Bytes}

theorem transferKeyFile_step (h : '/' ∈ filePath) {disk : Disk} (hs : On g disk) :
    ∃ g', On g' ((transferKeyFile const fs frontUserId (splitPath filePath).1
      (splitPath filePath).2).run disk).final ∧ FileStep const frontUserId filePath g g' := by
  have hskip {s : Disk} (hs : On g s) : ∃ g', On g' s ∧ FileStep const frontUserId filePath g g' :=
    ⟨g, hs, .skipped⟩
  refine Triple.final (P := On g) (S := fun s => ∃ g', On g' s ∧ FileStep const frontUserId filePath g g') ?_ hs
  dsimp only [transferKeyFile]
  cases hsource : getValidFileName (splitPath filePath).1 (splitPath filePath).2
  case error e =>
    exact .bind ((getFileContent_refused hsource).weaken_error fun _ _ => hskip) fun _ => .of_false
  case ok source =>
    obtain rfl := getValidFileName_splitPath h hsource
    refine .bind ((getFileContent_triple hsource).weaken_error fun _ _ => hskip) fun buf => ?_
    refine .strengthen_pre (.of_pure fun ⟨content, hfile, hread⟩ => ?_) fun s hs => ⟨hs.2, hs.1⟩
    refine .ofExcept_bind (fun info hparsed => ?_) fun _ _ _ => hskip
    refine .ite (fun _ => .pure fun _ => hskip) fun hwanted => ?_
    have hafter {p : Path → (Path → Option Bytes) → Prop} {s : Disk}
        (h : AfterTransfer frontUserId (splitPath source).2 source buf info g p s) :
        ∃ g', On g' s ∧ FileStep const frontUserId source g g' :=
      have ⟨_, g', hdest, hon, htransferred, _⟩ := h
      ⟨g', hon, .handled hfile hread hparsed (Bool.not_eq_true _ ▸ hwanted) hdest htransferred⟩
    exact (transferFile_triple hsource).weaken (fun _ => id) (fun _ _ => hafter) fun _ _ hs =>
      hs.elim hskip hafter

theorem processFileUpgrade_step (h : '/' ∈ filePath) {disk : Disk} (hs : On g disk) :
    ∃ g', On g' ((processFileUpgrade const fs frontUserId filePath).run disk).final ∧
      FileStep const frontUserId filePath g g' := by
  have hfinal : ((processFileUpgrade const fs frontUserId filePath).run disk).final =
      ((transferKeyFile const fs frontUserId (splitPath filePath).1 (splitPath filePath).2).run disk).final := by
    rw [processFileUpgrade, run_discard_final, final_attempt]
  rw [hfinal]
  exact transferKeyFile_step h hs

theorem processRdbCeToDeUpgrade_step (h : '/' ∈ filePath) {disk : Disk} (hs : On g disk) :
    ∃ g', On g' ((processRdbCeToDeUpgrade const fs frontUserId filePath).run disk).final ∧
      FileStep const frontUserId filePath g g' := by
  dsimp only [processRdbCeToDeUpgrade]
  split
  case isTrue => exact processFileUpgrade_step h hs
  case isFalse => exact ⟨g, hs, .skipped⟩

end Visit

end Huks
