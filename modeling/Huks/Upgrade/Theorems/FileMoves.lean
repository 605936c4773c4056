import Huks.Storage.Theorems.FileCalls
import Huks.Storage.Theorems.Paths
import Huks.Upgrade.FileTransfer

namespace Huks

open EStateM Function

-- What is in the place of the file `old` after a write of `buf` that failed, or was undone.
def CutFile (buf : Bytes) (old d : Option Bytes) : Prop := d = old ∨ ∀ bytes, d = some bytes → bytes <+: buf

section Calls

variable {fs : FileSystem} {g : Path → Option Bytes} {path fileName full : Path} {e : HksErrorCode}

variable (hfull : getValidFileName path fileName = .ok full)
include hfull

-- A write that fails leaves the file as it was, or the first bytes of the new one.
theorem hksFileWrite_cut {buf : Bytes} : Triple (On g) (hksFileWrite fs path fileName buf)
    (fun _ => On (update g full (some buf)))
    fun _ disk => ∃ d, CutFile buf (g full) d ∧ On (update g full d) disk := by
  have hsame {s : Disk} (hs : On g s) : ∃ d, CutFile buf (g full) d ∧ On (update g full d) s :=
    ⟨g full, .inl rfl, by rwa [update_eq_self]⟩
  dsimp only [hksFileWrite]
  refine .guard (fun _ _ => hsame) fun _ => ?_
  rw [hfull]
  change Triple _ (fileWrite fs full buf) _ _
  dsimp only [fileWrite]
  refine .bind (nextCall_triple on_fact) fun n => ?_
  split
  case h_1 => exact .modify fun s hs => hs.set full buf
  case h_2 => exact .throw fun _ => hsame
  case h_3 left _ _ =>
    refine .bind (Q := fun _ disk => ∃ d, CutFile buf (g full) d ∧ On (update g full d) disk)
      (.modify fun s hs => ?_) fun _ => ?_
    · exact ⟨_, .inr fun _ hd => Option.some.inj hd ▸ List.take_prefix _ _, hs.set full _⟩
    · exact .throw fun _ => id

-- A read gives the content or what stands in front in it.
theorem hksFileRead_prefix {size : Nat} : Triple (On g) (hksFileRead fs path fileName size)
    (fun buf disk => On g disk ∧ ∃ content, g full = some content ∧ buf <+: content)
    fun _ => On g := by
  dsimp only [hksFileRead]
  refine .guard (fun _ _ => id) fun _ => ?_
  rw [hfull]
  change Triple _ (fileRead fs full size) _ _
  dsimp only [fileRead]
  refine .bind findFile_triple fun content => ?_
  cases content
  case none => exact .throw fun s hs => hs.1
  case some content =>
    refine .bind (nextCall_triple fun _ _ => id) fun n => ?_
    split
    case h_1 => exact .pure fun s hs => ⟨hs.1, content, hs.2.symm, List.take_prefix _ _⟩
    case h_2 => exact .pure fun s hs => ⟨hs.1, content, hs.2.symm, List.take_prefix _ _⟩
    case h_3 => exact .throw fun s hs => hs.1

end Calls

-- What a transfer of `buf` from the file `source` to the file `target` does to the files. Where
-- `replace` is set the file at the target does not stand in the way.
inductive Transferred (g : Path → Option Bytes) (source target : Path) (buf : Bytes)
    (replace : Prop) : (Path → Option Bytes) → Prop
  | untouched : Transferred g source target buf replace g
  | attempted (d : Option Bytes) (free : replace ∨ g target = none)
    (cut : CutFile buf (g target) d) :
    Transferred g source target buf replace (update g target d)
  | moved (free : replace ∨ g target = none) :
    Transferred g source target buf replace (update (update g target (some buf)) source none)
  | dropped (found : (g target).isSome) (keep : ¬replace) :
    Transferred g source target buf replace (update g source none)

section Transfer

variable {fs : FileSystem} {g : Path → Option Bytes} {alias' oldPath newPath source target : Path}
  {buf : Bytes}

theorem moveFile_triple (hsource : getValidFileName oldPath alias' = .ok source)
    (htarget : getValidFileName newPath alias' = .ok target) :
    Triple (On g) (moveFile fs alias' oldPath newPath buf)
      (fun _ => On (update (update g target (some buf)) source none))
      fun _ disk => ∃ d, CutFile buf (g target) d ∧ On (update g target d) disk := by
  have hsame {s : Disk} (hs : On g s) : ∃ d, CutFile buf (g target) d ∧ On (update g target d) s :=
    ⟨g target, .inl rfl, by rwa [update_eq_self]⟩
  dsimp only [moveFile]
  refine .bind (Q := fun _ => On g) (fun s hs => hs) fun ret => ?_
  refine .ofExcept_bind (fun _ _ => ?_) fun _ _ _ => hsame
  refine .bind (hksFileWrite_cut htarget) fun _ => ?_
  refine .bind (hksFileRemove_triple hsource).attempt fun ret => ?_
  cases ret
  case ok => exact .pure fun s hs => hs.1 _ rfl
  case error e =>
    -- The old file is still there, and the copy is removed.
    refine .bind (Q := fun _ disk => ∃ d, CutFile buf (g target) d ∧ On (update g target d) disk) ?_
      fun _ => .throw fun _ => id
    refine .attempt_discard fun s hs => Triple.final (P := On (update g target (some buf))) ?_ (hs.2 _ rfl).1
    refine (hksFileRemove_triple htarget).weaken (fun _ => id) (fun _ s hs => ⟨none, .inr nofun, ?_⟩)
      fun _ s hs => ⟨some buf, .inr fun _ hd => Option.some.inj hd ▸ List.prefix_refl _, hs.1⟩
    rwa [update_idem] at hs

theorem moveFile_refused {e : HksErrorCode} (htarget : getValidFileName newPath alias' = .error e) :
    Triple (On g) (moveFile fs alias' oldPath newPath buf) (fun _ _ => False) fun _ => On g := by
  dsimp only [moveFile]
  refine .bind (Q := fun _ => On g) (fun s hs => hs) fun ret => ?_
  refine .ofExcept_bind (fun _ _ => ?_) fun _ _ _ => id
  refine .bind (Q := fun _ _ => False) ?_ fun _ => .of_false
  dsimp only [hksFileWrite]
  refine .guard (fun _ _ => id) fun _ => ?_
  rw [htarget]
  exact .throw fun _ => id

end Transfer

end Huks
