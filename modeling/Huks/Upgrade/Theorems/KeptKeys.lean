import Huks.Common.Theorems.ParamBlock
import Huks.Upgrade.Theorems.Upgrades
import Mathlib.Logic.Relation

namespace Huks

open EStateM Function

-- The content of a whole key file, from which the owner can be told.
def CompleteKeyFile (const : TransferConst) (content : Bytes) : Prop :=
  ∃ owner, parseOwnerIdFromFileContent const.memory (.ofBytes content) = .ok owner

section Complete

variable {const : TransferConst} {content whole buf : Bytes}

theorem CompleteKeyFile.length (h : CompleteKeyFile const content) :
    8 ≤ content.length ∧ (le32 content).toNat = content.length := by
  have ⟨owner, howner⟩ := h
  have ⟨s, hs, _⟩ := Except.bind_eq_ok.mp howner
  have ⟨_, hcheck, _⟩ := Except.bind_eq_ok.mp hs
  have ⟨hmin, hmax, hsize, _⟩ := hksCheckParamSet_iff.mp hcheck
  have hlen : (content.take (UInt32.size - 1)).length = (ParamBlock.ofBytes content).size.toNat :=
    (ParamBlock.ofBytes content).length_eq
  have hword : le32 (content.take (UInt32.size - 1)) = (ParamBlock.ofBytes content).size := hsize
  rw [List.length_take, UInt32.size] at hlen
  simp only [HksParamSet.headerSize, HksParamSet.maxSize] at hmin hmax
  rw [List.take_of_length_le (by rw [UInt32.size]; omega)] at hword
  rw [hword]
  omega

-- A file that was cut is not whole.
theorem CompleteKeyFile.eq_of_prefix (h : CompleteKeyFile const whole)
    (hbuf : CompleteKeyFile const buf) (hp : buf <+: whole) : buf = whole := by
  have ⟨_, hwhole⟩ := h.length
  have ⟨hlen, hlength⟩ := hbuf.length
  have htake : buf.take 4 = whole.take 4 := by
    obtain ⟨rest, rfl⟩ := hp
    rw [List.take_append_of_le_length (by omega)]
  have hle : le32 buf = le32 whole := by rw [le32, le32, htake]
  exact hp.eq_of_length (by rw [← hlength, ← hwhole, hle])

theorem complete_of_parseConfig {alias' : Path} {info : HksUpgradeFileTransferInfo}
    (h : hksParseConfig const.config const.memory alias' (.ofBytes content) = .ok info) :
    CompleteKeyFile const content :=
  have ⟨owner, howner, _⟩ := Except.bind_eq_ok.mp h
  ⟨owner, howner⟩

end Complete

section Destination

variable {const : TransferConst} {frontUserId : UInt32} {alias' dir target filePath : Path}
  {info : HksUpgradeFileTransferInfo}

theorem slash_notMem_splitPath (filePath : Path) : '/' ∉ (splitPath filePath).2 := fun h => by
  simpa using List.mem_rtakeWhile_imp (p := (· ≠ '/')) (l := filePath) h

-- The last component of a path.
theorem splitPath_name (halias : '/' ∉ alias') (hdir : dir.getLast? = some '/') :
    (splitPath (dir ++ alias')).2 = alias' := by
  have ⟨front, hfront⟩ : ∃ front, dir = front ++ ['/'] :=
    ⟨dir.dropLast, (List.dropLast_append_getLast? _ hdir).symm⟩
  have hall : ∀ c ∈ alias'.reverse, (decide (c ≠ '/')) = true := by
    intro c hc
    have hne : c ≠ '/' := fun h => halias (h ▸ List.mem_reverse.mp hc)
    simpa using hne
  change (dir ++ alias').rtakeWhile (· ≠ '/') = alias'
  rw [hfront, List.rtakeWhile, List.reverse_append, List.takeWhile_append_of_pos hall]
  simp

theorem touches_eq (h : Touches dir alias' target) :
    target = (if dir.getLast? = some '/' then dir else dir ++ ['/']) ++ alias' := by
  rw [Touches, getFileName] at h
  generalize (if dir.getLast? = some '/' then dir else dir ++ ['/']) ++ alias' = full at h
  by_cases hroom : full.length < hksMaxFileNameLen
  case pos =>
    simp only [hroom, if_true] at h
    exact (Except.ok.inj h).symm
  case neg =>
    simp only [hroom, if_false] at h
    cases h

theorem destination_name (halias : '/' ∉ alias') (h : destination frontUserId alias' info = .ok target) :
    (splitPath target).2 = alias' := by
  have ⟨material, _, h⟩ := Except.bind_eq_ok.mp h
  rw [touches_eq (getValidFileName_ok h)]
  apply splitPath_name halias
  split
  case isTrue hlast => exact hlast
  case isFalse => simp

end Destination

section Kept

variable (const : TransferConst)

-- The file `target` is where a key file with this content and name belongs.
def BelongsTo (frontUserId : UInt32) (name : Path) (content : Bytes) (target : Path) : Prop :=
  ∃ info, hksParseConfig const.config const.memory name (.ofBytes content) = .ok info ∧
    info.skipTransfer = false ∧ destination frontUserId name info = .ok target

-- For one of the front users, both belong to the same owner.
def ShareOwner (users : List UInt32) (name : Path) (content content' : Bytes) : Prop :=
  ∃ u ∈ users, ∃ target, BelongsTo const u name content target ∧ BelongsTo const u name content' target

-- A whole key file of the name is there, and it is the one that was there at first or one that
-- belongs to its owner. A key of the front user has a new owner with each of them, and belongs to
-- all of these.
def KeptKey (users : List UInt32) (name : Path) (content : Bytes) (g : Path → Option Bytes) : Prop :=
  ∃ path content', g path = some content' ∧ (splitPath path).2 = name ∧
    CompleteKeyFile const content' ∧ Relation.EqvGen (ShareOwner const users name) content content'

-- Every file is a whole key file or the first part of one.
def Parts (g : Path → Option Bytes) : Prop :=
  ∀ path content, g path = some content → ∃ whole, CompleteKeyFile const whole ∧ content <+: whole

-- When a visit does no harm: the key file belongs to another place, and what is there already is a
-- key file of the same owner, or else one that a database key replaces.
def SafeVisit (frontUserId : UInt32) (filePath : Path) (g : Path → Option Bytes) : Prop :=
  let name := (splitPath filePath).2
  ∀ content info target, g filePath = some content →
    hksParseConfig const.config const.memory name (.ofBytes content) = .ok info →
    info.skipTransfer = false → destination frontUserId name info = .ok target →
    target ≠ filePath ∧ ∀ found, g target = some found →
      BelongsTo const frontUserId name found target ∨
        (hksIsRdbDeKey name ∧ info.needDe ∧ ¬CompleteKeyFile const found)

-- The rule for a source: it goes only when a whole key file of its owner is at the other place.
def SourceRule (frontUserId : UInt32) (filePath : Path) (g g' : Path → Option Bytes) : Prop :=
  ∀ content, g filePath = some content → g' filePath ≠ some content →
    ∃ target, BelongsTo const frontUserId (splitPath filePath).2 content target ∧ target ≠ filePath ∧
      ∃ found, g' target = some found ∧ BelongsTo const frontUserId (splitPath filePath).2 found target

end Kept

section Visit

variable {const : TransferConst} {frontUserId : UInt32} {users : List UInt32} {name filePath target : Path}
  {content content' : Bytes} {g g' : Path → Option Bytes}

theorem BelongsTo.complete (h : BelongsTo const frontUserId name content target) :
    CompleteKeyFile const content :=
  have ⟨_, hparsed, _⟩ := h
  complete_of_parseConfig hparsed

theorem FileStep.parts (h : FileStep const frontUserId filePath g g') (hparts : Parts const g) :
    Parts const g' := by
  cases h
  case skipped => exact hparts
  case handled content buf info target file read parsed wanted dest transferred =>
    have hbuf : ∃ whole, CompleteKeyFile const whole ∧ buf <+: whole :=
      ⟨buf, complete_of_parseConfig parsed, List.prefix_refl _⟩
    -- Each step puts in a place nothing, the old file or a part of what was read.
    have hupdate {g : Path → Option Bytes} (hg : Parts const g) (at' : Path) (d : Option Bytes)
        (hd : ∀ bytes, d = some bytes → ∃ whole, CompleteKeyFile const whole ∧ bytes <+: whole) :
        Parts const (update g at' d) := by
      intro path bytes hbytes
      by_cases heq : path = at'
      case pos =>
        rw [heq, update_self] at hbytes
        exact hd bytes hbytes
      case neg => exact hg path bytes (by rwa [update_of_ne heq] at hbytes)
    cases transferred
    case untouched => exact hparts
    case attempted d free cut =>
      refine hupdate hparts _ _ fun bytes hbytes => ?_
      obtain rfl | cut := cut
      · exact hparts target bytes hbytes
      · have ⟨whole, hwhole, hp⟩ := hbuf
        exact ⟨whole, hwhole, (cut bytes hbytes).trans hp⟩
    case moved =>
      exact hupdate (hupdate hparts _ _ fun bytes hbytes => Option.some.inj hbytes ▸ hbuf) _ _ nofun
    case dropped => exact hupdate hparts _ _ nofun

-- What is read of a part of a key file and can be parsed is all of it.
theorem read_eq {buf : Bytes} {info : HksUpgradeFileTransferInfo} (hparts : Parts const g)
    (hfile : g filePath = some content) (hread : buf <+: content)
    (hparsed : hksParseConfig const.config const.memory name (.ofBytes buf) = .ok info) :
    buf = content := by
  have ⟨whole, hwhole, hp⟩ := hparts filePath content hfile
  have hbuf := hwhole.eq_of_prefix (complete_of_parseConfig hparsed) (hread.trans hp)
  subst hbuf
  exact hread.eq_of_length_le hp.length_le

theorem FileStep.sourceRule (h : FileStep const frontUserId filePath g g') (hparts : Parts const g)
    (hsafe : SafeVisit const frontUserId filePath g) : SourceRule const frontUserId filePath g g' := by
  intro content hcontent hgone
  cases h
  case skipped => exact absurd hcontent hgone
  case handled content' buf info target file read parsed wanted dest transferred =>
    obtain rfl := Option.some.inj (hcontent.symm.trans file)
    obtain rfl := read_eq hparts file read parsed
    have ⟨hne, hfound⟩ := hsafe _ info target file parsed wanted dest
    have hbelongs : BelongsTo const frontUserId (splitPath filePath).2 buf target :=
      ⟨info, parsed, wanted, dest⟩
    cases transferred
    case untouched => exact absurd hcontent hgone
    case attempted => exact absurd (by rwa [update_of_ne hne.symm]) hgone
    case moved =>
      refine ⟨target, hbelongs, hne, buf, ?_, hbelongs⟩
      rw [update_of_ne hne, update_self]
    case dropped found keep =>
      have ⟨bytes, hbytes⟩ := Option.isSome_iff_exists.mp found
      refine ⟨target, hbelongs, hne, bytes, by rwa [update_of_ne hne], ?_⟩
      obtain hbelongs' | ⟨hrdb, hde, _⟩ := hfound bytes hbytes
      · exact hbelongs'
      · exact absurd ⟨hrdb, hde⟩ keep

-- A key that is kept is kept by a safe visit.
theorem FileStep.kept (h : FileStep const frontUserId filePath g g') (hparts : Parts const g)
    (hsafe : SafeVisit const frontUserId filePath g) (hu : frontUserId ∈ users)
    (hkept : KeptKey const users name content g) : KeptKey const users name content g' := by
  obtain ⟨path, content', hpath, hname, hcomplete, hlink⟩ := hkept
  cases h
  case skipped => exact ⟨path, content', hpath, hname, hcomplete, hlink⟩
  case handled source buf info target file read parsed wanted dest transferred =>
    obtain rfl := read_eq hparts file read parsed
    have ⟨hne, hfound⟩ := hsafe _ info target file parsed wanted dest
    have htarget := destination_name (slash_notMem_splitPath filePath) dest
    have hbelongs : BelongsTo const frontUserId (splitPath filePath).2 buf target :=
      ⟨info, parsed, wanted, dest⟩
    have hother {bytes : Bytes} (hbytes : BelongsTo const frontUserId (splitPath filePath).2 bytes target)
        (hname : (splitPath filePath).2 = name) : ShareOwner const users name buf bytes :=
      ⟨frontUserId, hu, target, hname ▸ hbelongs, hname ▸ hbytes⟩
    -- The witness at the target has the owner of the file that is transferred.
    have hreplaced (hat : path = target) :
        (splitPath filePath).2 = name ∧ Relation.EqvGen (ShareOwner const users name) content buf := by
      have hname : (splitPath filePath).2 = name := by rw [← htarget, ← hat, hname]
      obtain hbytes | ⟨_, _, hpart⟩ := hfound content' (hat ▸ hpath)
      · exact ⟨hname, hlink.trans _ _ _ ((Relation.EqvGen.rel _ _ (hother hbytes hname)).symm)⟩
      · exact absurd hcomplete hpart
    have hsource (hat : path = filePath) : content' = buf :=
      Option.some.inj (hpath.symm.trans (hat ▸ file))
    cases transferred
    case untouched => exact ⟨path, content', hpath, hname, hcomplete, hlink⟩
    case attempted d free cut =>
      by_cases hat : path = target
      case pos =>
        have ⟨hname, hlink⟩ := hreplaced hat
        exact ⟨filePath, buf, by rwa [update_of_ne hne.symm], hname, hbelongs.complete, hlink⟩
      case neg => exact ⟨path, content', by rwa [update_of_ne hat], hname, hcomplete, hlink⟩
    case moved =>
      have hmoved : update (update g target (some buf)) filePath none target = some buf := by
        rw [update_of_ne hne, update_self]
      by_cases hat : path = filePath
      case pos =>
        obtain rfl := hsource hat
        exact ⟨target, content', hmoved, by rw [htarget, ← hat, hname], hcomplete, hlink⟩
      case neg =>
        by_cases hat' : path = target
        case pos =>
          have ⟨hname, hlink⟩ := hreplaced hat'
          exact ⟨target, buf, hmoved, htarget.trans hname, hbelongs.complete, hlink⟩
        case neg =>
          exact ⟨path, content', by rwa [update_of_ne hat, update_of_ne hat'], hname, hcomplete, hlink⟩
    case dropped found keep =>
      by_cases hat : path = filePath
      case pos =>
        have ⟨bytes, hbytes⟩ := Option.isSome_iff_exists.mp found
        obtain hbelongs' | ⟨hrdb, hde, _⟩ := hfound bytes hbytes
        · have hname : (splitPath filePath).2 = name := by rw [← hat, hname]
          obtain rfl := hsource hat
          exact ⟨target, bytes, by rwa [update_of_ne hne], htarget.trans hname, hbelongs'.complete,
            hlink.trans _ _ _ (.rel _ _ (hother hbelongs' hname))⟩
        · exact absurd ⟨hrdb, hde⟩ keep
      case neg => exact ⟨path, content', by rwa [update_of_ne hat], hname, hcomplete, hlink⟩

end Visit

end Huks
