import Huks.Storage.Theorems.Isolation
import Huks.Upgrade.Theorems.KeptKeys

namespace Huks

open EStateM Function

section Rename

variable {src dest path path' : Path} {g g' : Path → Option Bytes} {disk : Disk}

theorem eq_append_of_isBelow {root : Path} (h : isBelow root path) : ∃ rest, path = root ++ '/' :: rest := by
  have ⟨rest, hrest⟩ : root ++ ['/'] <+: path := by simpa [isBelow] using h
  exact ⟨rest, by rw [← hrest, List.append_assoc, List.singleton_append]⟩

theorem isBelow_append (root rest : Path) : isBelow root (root ++ '/' :: rest) = true := by
  simp [isBelow]

theorem rebase_below (rest : Path) : rebase src dest (src ++ '/' :: rest) = dest ++ '/' :: rest := by
  rw [rebase, isBelow_append, if_pos rfl, List.drop_left]

theorem rebase_stays (h : isBelow src path = false) : rebase src dest path = path := by
  rw [rebase, h]
  rfl

-- Two paths become one only where one was in the new directory already.
theorem rebase_injective (hpath : isBelow dest path = false) (hpath' : isBelow dest path' = false)
    (h : rebase src dest path = rebase src dest path') : path = path' := by
  cases hb : isBelow src path <;> cases hb' : isBelow src path'
  case false.false => rwa [rebase_stays hb, rebase_stays hb'] at h
  case false.true =>
    obtain ⟨rest, rfl⟩ := eq_append_of_isBelow hb'
    rw [rebase_stays hb, rebase_below] at h
    rw [h, isBelow_append] at hpath
    cases hpath
  case true.false =>
    obtain ⟨rest, rfl⟩ := eq_append_of_isBelow hb
    rw [rebase_stays hb', rebase_below] at h
    rw [← h, isBelow_append] at hpath'
    cases hpath'
  case true.true =>
    obtain ⟨rest, rfl⟩ := eq_append_of_isBelow hb
    obtain ⟨rest', rfl⟩ := eq_append_of_isBelow hb'
    rw [rebase_below, rebase_below] at h
    rw [List.append_cancel_left h]

theorem splitPath_snd_append (front : Path) {rest : Path} (h : '/' ∈ rest) :
    (splitPath (front ++ rest)).2 = (splitPath rest).2 := by
  change (front ++ rest).rtakeWhile (· ≠ '/') = rest.rtakeWhile (· ≠ '/')
  have hall : (rest.reverse.takeWhile (· ≠ '/')).length ≠ rest.reverse.length := fun hlen => by
    have heq := (List.takeWhile_prefix (l := rest.reverse) (· ≠ '/')).eq_of_length hlen
    have hslash := List.mem_takeWhile_imp (heq.symm ▸ List.mem_reverse.mpr h)
    cases of_decide_eq_true hslash rfl
  rw [List.rtakeWhile, List.reverse_append, List.takeWhile_append, if_neg hall, List.rtakeWhile]

-- A directory that is renamed leaves the names of its files.
theorem splitPath_rebase : (splitPath (rebase src dest path)).2 = (splitPath path).2 := by
  cases hb : isBelow src path
  case false => rw [rebase_stays hb]
  case true =>
    obtain ⟨rest, rfl⟩ := eq_append_of_isBelow hb
    rw [rebase_below, splitPath_snd_append _ (List.mem_cons_self), splitPath_snd_append _ (List.mem_cons_self)]

-- The same files, some of them at other paths.
structure Renamed (src dest : Path) (g g' : Path → Option Bytes) : Prop where
  stays : ∀ path content, g path = some content → g' (rebase src dest path) = some content
  only  : ∀ path content, g' path = some content → ∃ path', g path' = some content

theorem renameDir_renamed (hs : On g disk) (hfree : ∀ path ∈ disk.files.keys, isBelow dest path = false) :
    ∃ g', On g' (disk.renameDir src dest) ∧ Renamed src dest g g' := by
  refine ⟨_, rfl, ?_, ?_⟩
  case refine_1 =>
    intro path content hfile
    have hmem : ⟨path, content⟩ ∈ disk.files.entries := by
      rw [← hs.lookup] at hfile
      exact List.of_mem_dlookup hfile
    have hnodup : (disk.files.entries.map fun e =>
        (⟨rebase src dest e.1, e.2⟩ : Sigma fun _ : Path => Bytes)).NodupKeys := by
      rw [List.NodupKeys, List.keys, List.map_map]
      have hkeys : (disk.files.entries.map fun e => e.1).Nodup := disk.files.nodupKeys
      change (disk.files.entries.map fun e => rebase src dest e.1).Nodup
      have hcomp : (disk.files.entries.map fun e => rebase src dest e.1) =
          (disk.files.entries.map fun e => e.1).map (rebase src dest) := by
        rw [List.map_map]
        rfl
      rw [hcomp]
      exact hkeys.map_on fun p hp q hq => rebase_injective (hfree p hp) (hfree q hq)
    rw [Disk.renameDir, AList.lookup_to_alist]
    exact List.mem_dlookup hnodup (List.mem_map_of_mem hmem)
  case refine_2 =>
    intro path content hfile
    rw [Disk.renameDir, AList.lookup_to_alist] at hfile
    have ⟨e, he, heq⟩ := List.mem_map.mp (List.of_mem_dlookup hfile)
    refine ⟨e.1, ?_⟩
    rw [← hs.lookup]
    obtain ⟨rfl, rfl⟩ : rebase src dest e.1 = path ∧ e.2 = content := by simpa using heq
    exact List.mem_dlookup disk.files.nodupKeys he

theorem Renamed.kept {const : TransferConst} {users : List UInt32} {name : Path} {content : Bytes}
    (h : Renamed src dest g g') (hkept : KeptKey const users name content g) :
    KeptKey const users name content g' := by
  have ⟨path, content', hpath, hname, hwhole⟩ := hkept
  exact ⟨rebase src dest path, content', h.stays path content' hpath, splitPath_rebase.trans hname, hwhole⟩

theorem Renamed.parts {const : TransferConst} (h : Renamed src dest g g') (hparts : Parts const g) :
    Parts const g' := fun path content hfile =>
  have ⟨path', hfile'⟩ := h.only path content hfile
  hparts path' content hfile'

theorem copyDe_renamed {env : TransferEnv} (hs : On g disk) :
    ∃ g', On g' ((copyDeToTmpPathIfNeed env).run disk).final ∧
      (g' = g ∨ Renamed hksKeyStorePath hksKeyStoreTmpPath g g') := by
  refine Triple.final (P := On g) (S := fun s => ∃ g', On g' s ∧
    (g' = g ∨ Renamed hksKeyStorePath hksKeyStoreTmpPath g g')) ?_ hs
  have hsame {s : Disk} (hs : On g s) : ∃ g', On g' s ∧
      (g' = g ∨ Renamed hksKeyStorePath hksKeyStoreTmpPath g g') := ⟨g, hs, .inl rfl⟩
  dsimp only [copyDeToTmpPathIfNeed]
  split
  case h_1 => exact .pure fun _ => hsame
  case h_2 =>
    refine .get_bind fun s₀ => .guard (fun _ _ hs => hsame hs.2) fun hfree => ?_
    have hfree' : ∀ path ∈ s₀.files.keys, isBelow hksKeyStoreTmpPath path = false := fun path hpath =>
      Bool.eq_false_iff.mpr fun hb => hfree (List.any_eq_true.mpr ⟨path, hpath, hb⟩)
    refine .bind (Q := fun _ s => On g s ∧ ∀ path ∈ s.files.keys, isBelow hksKeyStoreTmpPath path = false)
      (fun s hs => ⟨hs.2, hs.1 ▸ hfree'⟩) fun n => ?_
    split
    case h_1 => exact .throw fun _ hs => hsame hs.1
    case h_2 =>
      refine .bind (Q := fun _ s => ∃ g', On g' s ∧ Renamed hksKeyStorePath hksKeyStoreTmpPath g g')
        (.modify fun s hs => renameDir_renamed hs.1 hs.2) fun _ => ?_
      have hmoved {s : Disk} (hs : ∃ g', On g' s ∧ Renamed hksKeyStorePath hksKeyStoreTmpPath g g') :
          ∃ g', On g' s ∧ (g' = g ∨ Renamed hksKeyStorePath hksKeyStoreTmpPath g g') :=
        have ⟨g', hon, h⟩ := hs
        ⟨g', hon, .inr h⟩
      refine .bind (nextCall_triple fun _ _ hs => hs) fun m => ?_
      split
      case h_1 => exact .pure fun _ => hmoved
      case h_2 => exact .throw fun _ => hmoved

end Rename

-- The file that a step visits.
def UpgradeAction.visited (frontUserId : UInt32) : UpgradeAction → Option Path
  | .ceFile path  =>
    if isBelow (huksCePath frontUserId) path ∧ hksIsRdbDeKey (splitPath path).2 then some path else none
  | .tmpFile path => if isBelow hksKeyStoreTmpPath path then some path else none
  | _             => none

def UpgradeAction.unlocked : UpgradeAction → Option UInt32
  | .unlock userId => some userId
  | _              => none

-- The front users of a run.
def frontUsers (st : UpgradeState) (actions : List (TransferEnv × UpgradeAction)) : List UInt32 :=
  st.frontUserId :: actions.filterMap (·.2.unlocked)

def UpgradeState.content (st : UpgradeState) : Path → Option Bytes := fun path => st.disk.files.lookup path

section Run

variable (const : TransferConst)

def SafeStep (st : UpgradeState) (action : UpgradeAction) : Prop :=
  ∀ path, action.visited st.frontUserId = some path → SafeVisit const st.frontUserId path st.content

-- All visits of a run are safe in the state before them.
def SafeRun (st : UpgradeState) : List (TransferEnv × UpgradeAction) → Prop
  | []                     => True
  | (env, action) :: rest => SafeStep const st action ∧ SafeRun (action.run const env st) rest

end Run

section Steps

variable {const : TransferConst} {env : TransferEnv} {st : UpgradeState} {action : UpgradeAction}
  {users : List UInt32} {name : Path} {content : Bytes}

-- What a step does: it visits a file, or the files at most move to other paths.
theorem run_step : (∃ path, action.visited st.frontUserId = some path ∧
      FileStep const st.frontUserId path st.content (action.run const env st).content) ∨
    (action.visited st.frontUserId = none ∧ ((action.run const env st).content = st.content ∨
      Renamed hksKeyStorePath hksKeyStoreTmpPath st.content (action.run const env st).content)) := by
  have hon : On st.content st.disk := rfl
  cases action
  case unlock => exact .inr ⟨rfl, .inl rfl⟩
  case copyDe =>
    have ⟨g', hg', h⟩ := @copyDe_renamed _ _ env hon
    have hcontent : (UpgradeAction.copyDe.run const env st).content = g' := hg'
    exact .inr ⟨rfl, hcontent ▸ h⟩
  case ceFile path =>
    dsimp only [UpgradeAction.visited, UpgradeAction.run]
    by_cases hbelow : isBelow (huksCePath st.frontUserId) path
    case pos =>
      rw [if_pos hbelow]
      by_cases hrdb : hksIsRdbDeKey (splitPath path).2
      case pos =>
        have ⟨g', hg', h⟩ := @processRdbCeToDeUpgrade_step const env.fs st.frontUserId _ _
          (slash_mem_of_isBelow hbelow) _ hon
        have hcontent : (st.exec (processRdbCeToDeUpgrade const env.fs st.frontUserId path)).content = g' := hg'
        exact .inl ⟨path, if_pos ⟨hbelow, hrdb⟩, hcontent ▸ h⟩
      case neg =>
        have hskip : processRdbCeToDeUpgrade const env.fs st.frontUserId path = pure ⟨⟩ := if_neg hrdb
        rw [hskip]
        exact .inr ⟨if_neg fun h => hrdb h.2, .inl rfl⟩
    case neg =>
      rw [if_neg hbelow]
      exact .inr ⟨if_neg fun h => hbelow h.1, .inl rfl⟩
  case tmpFile path =>
    dsimp only [UpgradeAction.visited, UpgradeAction.run]
    by_cases hbelow : isBelow hksKeyStoreTmpPath path
    case pos =>
      rw [if_pos hbelow, if_pos hbelow]
      have ⟨g', hg', h⟩ := @processFileUpgrade_step const env.fs st.frontUserId _ _
        (slash_mem_of_isBelow hbelow) _ hon
      have hcontent : (st.exec (processFileUpgrade const env.fs st.frontUserId path)).content = g' := hg'
      exact .inl ⟨path, rfl, hcontent ▸ h⟩
    case neg =>
      rw [if_neg hbelow, if_neg hbelow]
      exact .inr ⟨rfl, .inl rfl⟩

theorem run_parts (h : Parts const st.content) : Parts const (action.run const env st).content := by
  obtain ⟨_, _, hstep⟩ | ⟨_, hsame | hrenamed⟩ := @run_step const env st action
  · exact hstep.parts h
  · rwa [hsame]
  · exact hrenamed.parts h

theorem run_kept (hparts : Parts const st.content) (hsafe : SafeStep const st action)
    (hu : st.frontUserId ∈ users) (h : KeptKey const users name content st.content) :
    KeptKey const users name content (action.run const env st).content := by
  obtain ⟨path, hvisited, hstep⟩ | ⟨_, hsame | hrenamed⟩ :=
    @run_step const env st action
  · exact hstep.kept hparts (hsafe path hvisited) hu h
  · rwa [hsame]
  · exact hrenamed.kept h

theorem run_sourceRule {path : Path} (hparts : Parts const st.content) (hsafe : SafeStep const st action)
    (hvisited : action.visited st.frontUserId = some path) :
    SourceRule const st.frontUserId path st.content (action.run const env st).content := by
  obtain ⟨path', hvisited', hstep⟩ | ⟨hnone, _⟩ :=
    @run_step const env st action
  · obtain rfl := Option.some.inj (hvisited'.symm.trans hvisited)
    exact hstep.sourceRule hparts (hsafe _ hvisited)
  · rw [hvisited] at hnone
    cases hnone

theorem run_frontUsers (rest : List (TransferEnv × UpgradeAction)) :
    frontUsers (action.run const env st) rest ⊆ frontUsers st ((env, action) :: rest) := by
  have hfront : (action.run const env st).frontUserId ∈ frontUsers st ((env, action) :: rest) := by
    cases action
    case unlock userId => exact List.mem_cons_of_mem _ List.mem_cons_self
    case copyDe => exact List.mem_cons_self
    case ceFile path =>
      have heq : ((UpgradeAction.ceFile path).run const env st).frontUserId = st.frontUserId := by
        dsimp only [UpgradeAction.run]
        split <;> rfl
      exact heq ▸ List.mem_cons_self
    case tmpFile path =>
      have heq : ((UpgradeAction.tmpFile path).run const env st).frontUserId = st.frontUserId := by
        dsimp only [UpgradeAction.run]
        split <;> rfl
      exact heq ▸ List.mem_cons_self
  intro u hu
  obtain rfl | hu := List.mem_cons.mp hu
  · exact hfront
  · have ⟨x, hx, hunlocked⟩ := List.mem_filterMap.mp hu
    exact List.mem_cons_of_mem _ (List.mem_filterMap.mpr ⟨x, List.mem_cons_of_mem _ hx, hunlocked⟩)

end Steps

section Runs

variable {const : TransferConst} {st : UpgradeState} {actions : List (TransferEnv × UpgradeAction)}
  {users : List UInt32} {name : Path} {content : Bytes}

theorem runUpgrades_kept (hparts : Parts const st.content) (hsafe : SafeRun const st actions)
    (husers : frontUsers st actions ⊆ users) (h : KeptKey const users name content st.content) :
    KeptKey const users name content (runUpgrades const st actions).content := by
  induction actions generalizing st
  case nil => exact h
  case cons step rest ih =>
    have ⟨env, action⟩ := step
    have hkept := @run_kept _ env _ _ _ _ _ hparts hsafe.1 (husers List.mem_cons_self) h
    exact ih (run_parts hparts) hsafe.2 (List.Subset.trans (run_frontUsers rest) husers) hkept

theorem runUpgrades_sourceRule {env : TransferEnv} {action : UpgradeAction} {path : Path}
    {post : List (TransferEnv × UpgradeAction)} (hparts : Parts const st.content)
    (hsafe : SafeRun const st (actions ++ (env, action) :: post))
    (hvisited : action.visited (runUpgrades const st actions).frontUserId = some path) :
    SourceRule const (runUpgrades const st actions).frontUserId path (runUpgrades const st actions).content
      (action.run const env (runUpgrades const st actions)).content := by
  induction actions generalizing st
  case nil => exact run_sourceRule hparts hsafe.1 hvisited
  case cons step rest ih => exact ih (run_parts hparts) hsafe.2 hvisited

-- In a run whose visits are all safe no source goes before its key is at the other place, and no key
-- is lost.
theorem fileTransfer_keepsKeys (const : TransferConst) (st : UpgradeState)
    (actions : List (TransferEnv × UpgradeAction))
    (hwhole : ∀ path content, st.content path = some content → CompleteKeyFile const content)
    (hsafe : SafeRun const st actions) :
    (∀ pre env action post path, actions = pre ++ (env, action) :: post →
      action.visited (runUpgrades const st pre).frontUserId = some path →
      SourceRule const (runUpgrades const st pre).frontUserId path (runUpgrades const st pre).content
        (action.run const env (runUpgrades const st pre)).content) ∧
    ∀ path content, st.content path = some content →
      KeptKey const (frontUsers st actions) (splitPath path).2 content
        (runUpgrades const st actions).content := by
  have hparts : Parts const st.content := fun path content hfile =>
    ⟨content, hwhole path content hfile, List.prefix_refl _⟩
  refine ⟨?_, fun path content hfile => ?_⟩
  · rintro pre env action post path rfl hvisited
    exact runUpgrades_sourceRule hparts hsafe hvisited
  · exact runUpgrades_kept hparts hsafe (List.Subset.refl _)
      ⟨path, content, hfile, rfl, hwhole path content hfile, .refl _⟩

end Runs

section Examples

-- A native caller, and lists of the build that name no one.
def transferConst : TransferConst where
  config := {
    saUpgradeCfgList      := []
    hapUpgradeCfgList     := []
    saSkipUpgradeCfgList  := []
    hapSkipUpgradeCfgList := []
    hksGetAtType _                 := .ok .native
    hksGetHapNameFromAccessToken _ := .error .badState }
  memory _             := .null
  supportStorageBackup := false

-- The key `k` of the uid 513 and the user 100.
def transferKeyBytes : Bytes :=
  (⟨84, [⟨HksTag.processName, 4, .null⟩, ⟨HksTag.accessTokenId, 7, .null⟩, ⟨HksTag.userId, 100, .null⟩],
    [1, 2, 0, 0]⟩ : HksParamSet).image (fun _ => 0) fun _ => 0

def tmpKeyPath : Path := hksKeyStoreTmpPath ++ "/0/513/key/k".toList
def newKeyPath : Path := "/data/service/el2/100/huks_service/maindata/513/key/k".toList

def oneKeyState : UpgradeState where
  disk := { files := (∅ : Files).insert tmpKeyPath transferKeyBytes }

-- An upgrade that visits the key, with writes that go so.
def visitKey (outcome : FileWriteOutcome) : List (TransferEnv × UpgradeAction) :=
  let env : TransferEnv := {
    fs       := { steadyFileSystem with write := fun _ => outcome }
    rename _ := none
    ceWalk   := []
    tmpWalk  := [tmpKeyPath] }
  (powerOnActions env).map (env, ·)

theorem oneKeyState_content {path : Path} {content : Bytes} (h : oneKeyState.content path = some content) :
    path = tmpKeyPath ∧ content = transferKeyBytes := by
  by_cases hpath : path = tmpKeyPath
  case pos =>
    rw [hpath, UpgradeState.content, oneKeyState, AList.lookup_insert] at h
    exact ⟨hpath, (Option.some.inj h).symm⟩
  case neg =>
    rw [UpgradeState.content, oneKeyState, AList.lookup_insert_ne hpath] at h
    cases h

theorem transferKeyBytes_complete : CompleteKeyFile transferConst transferKeyBytes :=
  ⟨(513, 7, 100), by decide⟩

theorem transferKeyBytes_parsed : hksParseConfig transferConst.config transferConst.memory ['k']
    (.ofBytes transferKeyBytes) = .ok { uid := 513, userId := 100 } := by
  decide

theorem oneKeyState_safe : SafeVisit transferConst 100 tmpKeyPath oneKeyState.content := by
  have hname : (splitPath tmpKeyPath).2 = ['k'] := by decide
  have hdest : destination 100 ['k'] { uid := 513, userId := 100 } = .ok newKeyPath := by decide
  rw [SafeVisit, hname]
  intro content info target hfile hparsed _ htarget
  obtain ⟨_, rfl⟩ := oneKeyState_content hfile
  obtain rfl := Except.ok.inj (transferKeyBytes_parsed.symm.trans hparsed)
  obtain rfl := Except.ok.inj (hdest.symm.trans htarget)
  refine ⟨by decide, fun found hfound => ?_⟩
  have ⟨hpath, _⟩ := oneKeyState_content hfound
  exact absurd hpath (by decide)

theorem fileTransfer_keepsKeys_visit :
    KeptKey transferConst (frontUsers oneKeyState (visitKey .done)) ['k'] transferKeyBytes
      (runUpgrades transferConst oneKeyState (visitKey .done)).content :=
  (fileTransfer_keepsKeys transferConst oneKeyState (visitKey .done)
    (fun _ _ h => (oneKeyState_content h).2 ▸ transferKeyBytes_complete)
    ⟨nofun, fun path h => by
      obtain rfl : tmpKeyPath = path := Option.some.inj h
      exact oneKeyState_safe, trivial⟩).2 tmpKeyPath transferKeyBytes (by decide)

-- The first upgrade is cut in the write of the copy. The second one takes the part for the key and
-- removes the old file.
theorem cutWrite_losesKey :
    (∀ path content, oneKeyState.content path = some content → CompleteKeyFile transferConst content) ∧
    oneKeyState.content tmpKeyPath = some transferKeyBytes ∧
    ∀ users, ¬KeptKey transferConst users ['k'] transferKeyBytes (runUpgrades transferConst oneKeyState
      (visitKey (.cut (some 10) .internalError) ++ visitKey .done)).content := by
  refine ⟨fun _ _ h => (oneKeyState_content h).2 ▸ transferKeyBytes_complete, by decide, ?_⟩
  rintro users ⟨path, content, hfile, _, hwhole, _⟩
  have hentries : (runUpgrades transferConst oneKeyState
      (visitKey (.cut (some 10) .internalError) ++ visitKey .done)).disk.files.entries =
      [⟨newKeyPath, transferKeyBytes.take 10⟩] := by
    decide +kernel
  have hmem := List.of_mem_dlookup hfile
  rw [hentries, List.mem_singleton] at hmem
  obtain rfl : content = transferKeyBytes.take 10 := by simpa using congrArg (·.2) hmem
  have hlen := hwhole.length.2
  exact absurd hlen (by decide)

end Examples

end Huks
