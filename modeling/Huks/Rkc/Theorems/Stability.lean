import Huks.Rkc.Theorems.SetUp

namespace Huks

open EStateM

section Files

variable {α : Type} {extract : Bytes → Except HksErrorCode α} {names : List KsfName} {d : RkcDisk}
  {name : KsfName}

theorem exists_ksf_set_part {a b : α} {content : Bytes} (hpart : KsfPart extract a content)
    (h : ∃ n ∈ names, (d.set name (some content)).ksf extract n = some b) :
    b = a ∨ ∃ n ∈ names, d.ksf extract n = some b := by
  obtain ⟨n, hn, hb⟩ := h
  by_cases heq : n = name
  case pos =>
    rw [heq] at hb
    exact .inl (ksf_set_part d name hpart hb)
  case neg =>
    rw [ksf_set_ne d heq] at hb
    exact .inr ⟨n, hn, hb⟩

theorem exists_ksf_set_other (h : ∀ n ∈ names, n ≠ name) (content : Option Bytes) (b : α) :
    (∃ n ∈ names, (d.set name content).ksf extract n = some b) ↔
      ∃ n ∈ names, d.ksf extract n = some b := by
  refine exists_congr fun n => and_congr_right fun hn => ?_
  rw [ksf_set_ne d (h n hn)]

theorem set_other {n : KsfName} (h : n ≠ name) (content : Option Bytes) : d.set name content n = d n :=
  if_neg h

theorem not_noFile_of_ksf {a : α} (h : ∃ n ∈ names, d.ksf extract n = some a) : ¬NoFile d names := by
  rintro hno
  obtain ⟨n, hn, ha⟩ := h
  rw [RkcDisk.ksf, hno n hn] at ha
  cases ha

theorem ksfNamesRkc_ne_mk : ∀ name ∈ ksfNamesRkc, ∀ n ∈ ksfNamesMk, n ≠ name := by decide
theorem ksfNamesMk_ne_rkc : ∀ name ∈ ksfNamesMk, ∀ n ∈ ksfNamesRkc, n ≠ name := by decide
theorem ksfNamesRkc_ne_v1 : ∀ name ∈ ksfNamesRkc, ∀ n ∈ ksfNamesV1, n ≠ name := by decide
theorem ksfNamesMk_ne_v1 : ∀ name ∈ ksfNamesMk, ∀ n ∈ ksfNamesV1, n ≠ name := by decide
theorem ksfNamesV1_ne_rkc : ∀ name ∈ ksfNamesV1, ∀ n ∈ ksfNamesRkc, n ≠ name := by decide
theorem ksfNamesV1_ne_mk : ∀ name ∈ ksfNamesV1, ∀ n ∈ ksfNamesMk, n ≠ name := by decide

end Files

abbrev MainKey := FixedBytes hksRkcMkLen

-- The root key data and the main key that are settled once there is a main key file.
abbrev Settled := Option (HksKsfDataRkcWithVer × MainKey)

-- What is settled stays.
def Settled.Stays (o o' : Settled) : Prop := ∀ p, o = some p → o' = some p

theorem Settled.Stays.refl (o : Settled) : o.Stays o := fun _ => id

theorem Settled.Stays.trans {o₁ o₂ o₃ : Settled} (h : o₁.Stays o₂) (h' : o₂.Stays o₃) : o₁.Stays o₃ :=
  fun p hp => h' p (h p hp)

-- No key files, or files of version 1 of which one is valid and all valid ones hold `key`.
inductive StartsWith (env : RkcEnv) (d : RkcDisk) : Option MainKey → Prop
  | empty (h : ∀ name, d name = none) : StartsWith env d none
  | v1 (key : MainKey) (hmk : NoFile d ksfNamesMk) (hrkc : NoFile d ksfNamesRkc) (hvalid : ∃ data, env.V1Of d data)
      (hkey : ∀ data, env.V1Of d data → env.openMk (env.rmkV1 data.ksfDataRkc) data.ksfDataMk = .ok key) :
      StartsWith env d (some key)

-- Every main key file holds the key, and under the same root key data.
structure KeySealed (env : RkcEnv) (d : RkcDisk) (r : HksKsfDataRkcWithVer) (key : MainKey) : Prop where
  rkc   : ∀ r', env.RkcOf d r' → r' = r
  seals : ∀ m, env.MkOf d m → env.Seals r.ksfDataRkc m.ksfDataMk key

-- There is no main key file, and the files of version 1 are those of the start.
structure Unset (d₀ d : RkcDisk) : Prop where
  noMk : NoFile d ksfNamesMk
  v1   : ∀ name ∈ ksfNamesV1, d name = d₀ name

-- There is a main key file; the root key that opens it and the main key are settled.
structure Kept (env : RkcEnv) (d₀ : RkcDisk) (start : Option MainKey) (r : HksKsfDataRkcWithVer)
    (key : MainKey) (d : RkcDisk) : Prop where
  someMk  : ¬NoFile d ksfNamesMk
  sealed  : KeySealed env d r key
  someRkc : ∃ r', env.RkcOf d r'
  start   : ∀ k, start = some k → key = k
  v1      : ∀ name ∈ ksfNamesV1, d name = d₀ name ∨ d name = none

inductive Phase (env : RkcEnv) (d₀ : RkcDisk) (start : Option MainKey) : Settled → RkcDisk → Prop
  | unset {d : RkcDisk} (h : Unset d₀ d) : Phase env d₀ start none d
  | kept {d : RkcDisk} {r : HksKsfDataRkcWithVer} {key : MainKey} (h : Kept env d₀ start r key d) :
      Phase env d₀ start (some (r, key)) d

section Phase

variable {env : RkcEnv} {d₀ d : RkcDisk} {start : Option MainKey} {o : Settled}

theorem noFile_set_other {names : List KsfName} {name : KsfName} (h : ∀ n ∈ names, n ≠ name)
    (content : Option Bytes) : NoFile (d.set name content) names ↔ NoFile d names := by
  refine forall_congr' fun n => imp_congr_right fun hn => ?_
  rw [set_other (h n hn)]

theorem not_noFile_set {names : List KsfName} {name : KsfName} (h : name ∈ names) (content : Bytes) :
    ¬NoFile (d.set name (some content)) names := by
  intro hno
  have := hno name h
  rw [RkcDisk.set, if_pos rfl] at this
  cases this

theorem Phase.repairMk (o : Settled) :
    BearsRepair (Phase env d₀ start o) (extractKsfBufMk env.sha256) ksfNamesMk := by
  rintro d name hname j hj a content (h | h) hne hksf hpart
  case unset => exact absurd h.noMk (not_noFile_of_ksf ⟨j, hj, hksf⟩)
  case kept =>
    refine .kept ⟨not_noFile_set hname content, ⟨fun r' hr' => h.sealed.rkc r' ?_, fun m hm => ?_⟩, ?_,
      h.start, fun n hn => ?_⟩
    · exact (exists_ksf_set_other (ksfNamesMk_ne_rkc name hname) _ _).mp hr'
    · obtain rfl | hm := exists_ksf_set_part hpart hm
      · exact h.sealed.seals _ ⟨j, hj, hksf⟩
      · exact h.sealed.seals _ hm
    · exact h.someRkc.imp fun r' => (exists_ksf_set_other (ksfNamesMk_ne_rkc name hname) _ _).mpr
    · rw [set_other (ksfNamesMk_ne_v1 name hname n hn)]
      exact h.v1 n hn

theorem Phase.repairRkc (o : Settled) :
    BearsRepair (Phase env d₀ start o) (extractKsfBufRkc env.sha256) ksfNamesRkc := by
  rintro d name hname j hj a content (h | h) hne hksf hpart
  case unset =>
    refine .unset ⟨(noFile_set_other (ksfNamesRkc_ne_mk name hname) _).mpr h.noMk, fun n hn => ?_⟩
    rw [set_other (ksfNamesRkc_ne_v1 name hname n hn)]
    exact h.v1 n hn
  case kept =>
    refine .kept ⟨fun hno => h.someMk ?_, ⟨fun r' hr' => ?_, fun m hm => h.sealed.seals m ?_⟩,
      ⟨a, j, hj, ?_⟩, h.start, fun n hn => ?_⟩
    · exact (noFile_set_other (ksfNamesRkc_ne_mk name hname) _).mp hno
    · obtain rfl | hr' := exists_ksf_set_part hpart hr'
      · exact h.sealed.rkc _ ⟨j, hj, hksf⟩
      · exact h.sealed.rkc _ hr'
    · exact (exists_ksf_set_other (ksfNamesRkc_ne_mk name hname) _ _).mp hm
    · exact (ksf_set_ne d hne _).trans hksf
    · rw [set_other (ksfNamesRkc_ne_v1 name hname n hn)]
      exact h.v1 n hn

theorem Kept.deleteV1 {r : HksKsfDataRkcWithVer} {key : MainKey} (h : Kept env d₀ start r key d)
    {name : KsfName} (hname : name ∈ ksfNamesV1) : Kept env d₀ start r key (d.set name none) := by
  refine ⟨fun hno => h.someMk ?_, ⟨fun r' hr' => h.sealed.rkc r' ?_, fun m hm => h.sealed.seals m ?_⟩, ?_,
    h.start, fun n hn => ?_⟩
  · exact (noFile_set_other (ksfNamesV1_ne_mk name hname) none).mp hno
  · exact (exists_ksf_set_other (ksfNamesV1_ne_rkc name hname) _ _).mp hr'
  · exact (exists_ksf_set_other (ksfNamesV1_ne_mk name hname) _ _).mp hm
  · exact h.someRkc.imp fun r' => (exists_ksf_set_other (ksfNamesV1_ne_rkc name hname) _ _).mpr
  · by_cases heq : n = name
    case pos =>
      rw [heq, RkcDisk.set, if_pos rfl]
      exact .inr rfl
    case neg =>
      rw [set_other heq]
      exact h.v1 n hn

-- While the new main key files are written, the root key files are in place.
structure Writing (env : RkcEnv) (d₀ : RkcDisk) (start : Option MainKey) (r : HksKsfDataRkcWithVer)
    (m : HksKsfDataMkWithVer) (key : MainKey) (d : RkcDisk) : Prop where
  phase : Unset d₀ d ∨ Kept env d₀ start r key d
  rkc   : ∀ name ∈ ksfNamesRkc, env.rkcKsf d name = some r
  mkOf  : ∀ m', env.MkOf d m' → m' = m

theorem Unset.bearsFresh {r : HksKsfDataRkcWithVer} {m : HksKsfDataMkWithVer} {key : MainKey}
    (hseals : env.Seals r.ksfDataRkc m.ksfDataMk key) (hstart : ∀ k, start = some k → key = k) :
    BearsFresh env (Unset d₀) (Writing env d₀ start r m key) r m := by
  refine ⟨fun d name hname content h _ => ⟨?_, fun n hn => ?_⟩, fun d h hrkc => ⟨.inl h, hrkc, fun m' hm' => ?_⟩,
    fun d name hname content h hpart => ⟨.inr ?_, fun n hn => ?_, fun m' hm' => ?_⟩⟩
  · exact (noFile_set_other (ksfNamesRkc_ne_mk name hname) _).mpr h.noMk
  · rw [set_other (ksfNamesRkc_ne_v1 name hname n hn)]
    exact h.v1 n hn
  · exact absurd h.noMk (not_noFile_of_ksf hm')
  · have hrkc (n) (hn : n ∈ ksfNamesRkc) : env.rkcKsf (d.set name (some content)) n = some r :=
      (ksf_set_ne d (ksfNamesMk_ne_rkc name hname n hn) _).trans (h.rkc n hn)
    refine ⟨not_noFile_set hname content, ⟨fun r' ⟨n, hn, hr'⟩ => ?_, fun m' hm' => ?_⟩,
      ⟨r, .rinfo1V2, by decide, hrkc _ (by decide)⟩, hstart, fun n hn => ?_⟩
    · exact Option.some.inj (hr'.symm.trans (hrkc n hn))
    · obtain rfl | hm' := exists_ksf_set_part hpart hm'
      · exact hseals
      · rw [h.mkOf m' hm']
        exact hseals
    · rw [set_other (ksfNamesMk_ne_v1 name hname n hn)]
      exact h.phase.elim (fun h => .inl (h.v1 n hn)) fun h => h.v1 n hn
  · exact (ksf_set_ne d (ksfNamesMk_ne_rkc name hname n hn) _).trans (h.rkc n hn)
  · obtain rfl | hm' := exists_ksf_set_part hpart hm'
    · rfl
    · exact h.mkOf m' hm'

-- How the files are after a call that may settle more.
def Moves (env : RkcEnv) (d₀ : RkcDisk) (start : Option MainKey) (o : Settled) (d : RkcDisk) : Prop :=
  ∃ o', o.Stays o' ∧ Phase env d₀ start o' d

theorem Unset.freshPlan {keys : MainKey → Prop} (hkeys : ∀ key, keys key → ∀ k, start = some k → key = k) :
    FreshPlan env (fun _ => True) keys (Unset d₀) (fun key d => ∃ r, Kept env d₀ start r key d)
      (Moves env d₀ start none) := by
  refine ⟨⟨fun _ _ => id, fun _ _ _ => id, fun _ _ _ => id⟩, fun d h => ⟨none, nofun, .unset h⟩,
    fun r m key _ _ hkey hseals => ⟨_, bearsFresh hseals (hkeys key hkey), fun d h => ?_, fun d hm h => ?_⟩,
    fun key d name hname ⟨r, h⟩ => ⟨r, h.deleteV1 hname⟩, fun key d ⟨r, h⟩ => ⟨_, nofun, .kept h⟩⟩
  · obtain h | h := h.phase
    · exact ⟨_, nofun, .unset h⟩
    · exact ⟨_, nofun, .kept h⟩
  · obtain h | h := h.phase
    · exact absurd h.noMk (not_noFile_of_ksf hm)
    · exact ⟨r, h⟩

theorem phase_none : Phase env d₀ start none = Unset d₀ := by
  funext d
  refine propext ⟨fun h => ?_, .unset⟩
  cases h
  case unset h => exact h

theorem phase_some {r : HksKsfDataRkcWithVer} {key : MainKey} :
    Phase env d₀ start (some (r, key)) = Kept env d₀ start r key := by
  funext d
  refine propext ⟨fun h => ?_, .kept⟩
  cases h
  case kept h => exact h

theorem Phase.eq_none (h : Phase env d₀ start o d) (hmk : NoFile d ksfNamesMk) : o = none := by
  cases h
  case unset => rfl
  case kept h => exact absurd hmk h.someMk

-- Before anything is settled, the files of version 1 are those of the start.
theorem Unset.v1Of_iff (h : Unset d₀ d) (data : HksRkcKsfDataV1) : env.V1Of d data ↔ env.V1Of d₀ data := by
  refine exists_congr fun n => and_congr_right fun hn => ?_
  rw [RkcEnv.v1Ksf, RkcEnv.v1Ksf, RkcDisk.ksf, RkcDisk.ksf, h.v1 n hn]

theorem Unset.noFile_v1_iff (h : Unset d₀ d) : NoFile d ksfNamesV1 ↔ NoFile d₀ ksfNamesV1 := by
  refine forall_congr' fun n => imp_congr_right fun hn => ?_
  rw [h.v1 n hn]

theorem StartsWith.v1Key (hstart : StartsWith env d₀ start) (h : Unset d₀ d) {key : MainKey}
    (hkey : V1Key env d key) : start = some key := by
  obtain ⟨data, hdata, hopen⟩ := hkey
  have hdata := (h.v1Of_iff data).mp hdata
  cases hstart
  case empty hno => exact absurd (fun n _ => hno n) (not_noFile_of_ksf hdata)
  case v1 k _ _ _ hall =>
    have := hall data hdata
    rw [hopen] at this
    cases this
    rfl

theorem StartsWith.not_v1Fails (hstart : StartsWith env d₀ start) (h : Unset d₀ d)
    (hv1 : ¬NoFile d ksfNamesV1) : ¬V1Fails env d := by
  rw [h.noFile_v1_iff] at hv1
  cases hstart
  case empty hno => exact absurd (fun n _ => hno n) hv1
  case v1 k _ _ hvalid hall =>
    rintro (hnone | ⟨data, e, hdata, he⟩)
    · obtain ⟨data, hdata⟩ := hvalid
      exact hnone data ((h.v1Of_iff data).mpr hdata)
    · rw [hall data ((h.v1Of_iff data).mp hdata)] at he
      cases he

theorem StartsWith.eq_none_of_noFile (hstart : StartsWith env d₀ start) (h : NoFile d₀ ksfNamesV1) :
    start = none := by
  cases hstart
  case empty => rfl
  case v1 k _ _ hvalid _ =>
    obtain ⟨data, hdata⟩ := hvalid
    exact absurd h (not_noFile_of_ksf hdata)

theorem Phase.setUpPlan (hstart : StartsWith env d₀ start) (h : Phase env d₀ start o d) :
    SetUpPlan env (fun _ => True) (Phase env d₀ start o) (fun key d => ∃ r, Kept env d₀ start r key d)
      (Moves env d₀ start o) d where
  within d h      := ⟨o, .refl o, h⟩
  repairMk        := repairMk o
  repairRkc       := repairRkc o
  create hmk hv1  := by
    obtain rfl := h.eq_none hmk
    rw [phase_none] at h ⊢
    have hnone := hstart.eq_none_of_noFile (h.noFile_v1_iff.mp hv1)
    exact Unset.freshPlan fun key _ k hk => absurd (hnone.symm.trans hk) nofun
  upgrade hmk _   := by
    obtain rfl := h.eq_none hmk
    rw [phase_none] at h ⊢
    refine Unset.freshPlan fun key hkey k hk => ?_
    exact Option.some.inj ((hstart.v1Key h hkey).symm.trans hk)

theorem Phase.not_loadFails (hlaw : env.Lawful) (h : Phase env d₀ start o d) (hmk : ¬NoFile d ksfNamesMk) :
    ¬LoadFails env (Phase env d₀ start o) d := by
  cases h
  case unset h => exact fun _ => hmk h.noMk
  case kept h =>
    rw [phase_some]
    rintro (⟨d', h', hnone⟩ | ⟨d', r', m, e, h', hr', hm, he⟩)
    · obtain ⟨r', hr'⟩ := h'.someRkc
      exact hnone r' hr'
    · rw [h'.sealed.rkc r' hr', hlaw.openMk (h.sealed.seals m hm)] at he
      cases he

-- Setting up settles the root key and the main key, and leaves what is settled alone.
theorem hksRkcSetUp_phase (hlaw : env.Lawful) (hstart : StartsWith env d₀ start)
    (h : Phase env d₀ start o d) :
    Triple (fun s => s.disk = d) (hksRkcSetUp env)
      (fun _ s => (NoFile d ksfNamesMk ∨ ∃ m, env.MkOf d m) ∧ ∃ r key, s.mainKey = .ok key ∧
        o.Stays (some (r, key)) ∧ Phase env d₀ start (some (r, key)) s.disk)
      (fun _ s => Moves env d₀ start o s.disk ∧
        (env.Faulty ∨ s.disk = d ∧ ¬NoFile d ksfNamesMk ∧ ∀ m, ¬env.MkOf d m)) := by
  refine (hksRkcSetUp_triple (h.setUpPlan hstart)).weaken ?_ ?_ ?_
  · rintro s rfl
    exact ⟨⟨fun _ => ⟨⟨fun _ _ => id, fun _ _ _ => id, fun _ _ _ => id⟩, trivial⟩, h⟩, rfl⟩
  · rintro _ s ⟨key, hkey, hsource⟩
    cases hsource
    case load d₁ r m hd hr hm hopen hd' =>
      refine ⟨.inr ⟨m, hm⟩, ?_⟩
      cases h
      case unset h => exact absurd h.noMk (not_noFile_of_ksf hm)
      case kept h =>
        rw [phase_some] at hd
        rw [hd.sealed.rkc r hr, hlaw.openMk (h.sealed.seals m hm)] at hopen
        cases hopen
        exact ⟨_, _, hkey, .refl _, hd'⟩
    case create hmk _ hz =>
      have ⟨r, hz⟩ := hz
      rw [h.eq_none hmk]
      exact ⟨.inl hmk, r, key, hkey, nofun, .kept hz⟩
    case upgrade hmk _ hz =>
      have ⟨r, hz⟩ := hz
      rw [h.eq_none hmk]
      exact ⟨.inl hmk, r, key, hkey, nofun, .kept hz⟩
  · rintro _ s ⟨hs, hfails⟩
    refine ⟨hs, ?_⟩
    cases hfails
    case faulty h => exact .inl h
    case mk hmk hd hnone => exact .inr ⟨hd, hmk, hnone⟩
    case load hmk hload => exact absurd hload (h.not_loadFails hlaw hmk)
    case upgrade hmk hv1 hv1Fails =>
      obtain rfl := h.eq_none hmk
      rw [phase_none] at h
      exact absurd hv1Fails (hstart.not_v1Fails h hv1)

theorem hksRkcInit_phase (hlaw : env.Lawful) (hstart : StartsWith env d₀ start)
    (h : Phase env d₀ start o d) :
    Triple (fun s => s.cfg.state = false ∧ s.disk = d) (hksRkcInit env)
      (fun _ s => s.cfg.state = true ∧ (NoFile d ksfNamesMk ∨ ∃ m, env.MkOf d m) ∧
        ∃ r key, s.mainKey = .ok key ∧ o.Stays (some (r, key)) ∧ Phase env d₀ start (some (r, key)) s.disk)
      (fun stop s => (stop = .crash ∨ s.cfg = {} ∧ s.rkcMk = {}) ∧ Moves env d₀ start o s.disk ∧
        (env.Faulty ∨ s.disk = d ∧ ¬NoFile d ksfNamesMk ∧ ∀ m, ¬env.MkOf d m)) :=
  hksRkcInit_triple (E := fun d' => Moves env d₀ start o d' ∧
    (env.Faulty ∨ d' = d ∧ ¬NoFile d ksfNamesMk ∧ ∀ m, ¬env.MkOf d m))
    (hksRkcSetUp_phase hlaw hstart h) fun _ => id

end Phase

section Runs

variable {env : RkcEnv} {d₀ : RkcDisk} {start : Option MainKey} {o : Settled} {s : RkcSystem}

-- A process that is set up has the settled main key.
structure RunInv (env : RkcEnv) (d₀ : RkcDisk) (start : Option MainKey) (o : Settled) (s : RkcSystem) :
    Prop where
  phase   : Phase env d₀ start o s.disk
  running : s.cfg.state = true → ∃ r key, o = some (r, key) ∧ s.mainKey = .ok key

theorem RunInv.destroyed (h : RunInv env d₀ start o s) :
    RunInv env d₀ start o { s with cfg := {}, rkcMk := {} } := ⟨h.phase, nofun⟩

theorem RunInv.restart (h : Phase env d₀ start o s.disk) : RunInv env d₀ start o s.restart := ⟨h, nofun⟩

-- What a run of `HksRkcInit` does to the files and to the main key in memory.
theorem RunInv.hksRkcInit (hlaw : env.Lawful) (hstart : StartsWith env d₀ start)
    (h : RunInv env d₀ start o s) :
    match (Huks.hksRkcInit env).run s with
      | .ok _ t => ∃ r key, o.Stays (some (r, key)) ∧ RunInv env d₀ start (some (r, key)) t ∧ t.mainKey = .ok key
      | .error stop t => ∃ o', o.Stays o' ∧ Phase env d₀ start o' t.disk ∧
        (stop = .crash ∨ RunInv env d₀ start o' t) := by
  cases hstate : s.cfg.state
  case true =>
    rw [hksRkcInit_of_state hstate]
    have ⟨r, key, ho, hkey⟩ := h.running hstate
    exact ⟨r, key, ho ▸ .refl o, ho ▸ h, hkey⟩
  case false =>
    have hinit := hksRkcInit_phase hlaw hstart h.phase s ⟨hstate, rfl⟩
    cases hrun : (Huks.hksRkcInit env).run s <;> rw [hrun] at hinit
    case ok t =>
      have ⟨_, _, r, key, hkey, hstays, hphase⟩ := hinit
      exact ⟨r, key, hstays, ⟨hphase, fun _ => ⟨r, key, rfl, hkey⟩⟩, hkey⟩
    case error stop t =>
      have ⟨hstop, ⟨o', hstays, hphase⟩, _⟩ := hinit
      refine ⟨o', hstays, hphase, hstop.imp_right fun ⟨hcfg, _⟩ => ⟨hphase, ?_⟩⟩
      rw [hcfg]
      exact nofun

theorem run_hksCoreRefreshKeyInfo (s : RkcSystem) :
    (hksCoreRefreshKeyInfo env).run s = (Huks.hksRkcInit env).run { s with cfg := {}, rkcMk := {} } := rfl

-- One event keeps what is settled, and installs nothing but the settled main key.
theorem RunInv.step (hlaw : env.Lawful) (hstart : StartsWith env d₀ start) (h : RunInv env d₀ start o s)
    (e : RkcEvent) : ∃ o', o.Stays o' ∧ RunInv env d₀ start o' (e.step env s) ∧
      ∀ key, e.installs env s = some key → ∃ r, o' = some (r, key) := by
  have run {c : RkcCall} {s₁ : RkcSystem} (hc : c ≠ .hksCoreModuleDestroy) (h₁ : RunInv env d₀ start o s₁)
      (hrun : (c.run env).run s = (Huks.hksRkcInit env).run s₁) :
      ∃ o', o.Stays o' ∧ RunInv env d₀ start o' ((RkcEvent.call c).step env s) ∧
        ∀ key, (RkcEvent.call c).installs env s = some key → ∃ r, o' = some (r, key) := by
    have hinit := h₁.hksRkcInit hlaw hstart
    rw [← hrun] at hinit
    simp only [RkcEvent.step, RkcEvent.installs]
    cases hr : (c.run env).run s <;> rw [hr] at hinit
    case ok t =>
      have ⟨r, key, hstays, hinv, hkey⟩ := hinit
      refine ⟨_, hstays, hinv, fun key' hkey' => ?_⟩
      cases c
      case hksCoreModuleDestroy => exact absurd rfl hc
      all_goals
        simp only at hkey'
        rw [RkcSystem.mainKey] at hkey
        rw [hkey] at hkey'
        cases hkey'
        exact ⟨r, rfl⟩
    case error stop t =>
      have ⟨o', hstays, hphase, hstop⟩ := hinit
      refine ⟨o', hstays, ?_, fun key' hkey' => ?_⟩
      · cases stop
        case ret e => exact hstop.resolve_left nofun
        case crash => exact .restart hphase
      · cases c
        case hksCoreModuleDestroy => exact absurd rfl hc
        all_goals
          simp only at hkey'
          cases hkey'
  cases e
  case restart => exact ⟨o, .refl o, .restart h.phase, nofun⟩
  case call c =>
    cases c
    case hksRkcInit => exact run nofun h rfl
    case hksCoreRefreshKeyInfo => exact run nofun h.destroyed (run_hksCoreRefreshKeyInfo s)
    case hksCoreModuleDestroy => exact ⟨o, .refl o, h.destroyed, nofun⟩

theorem RunInv.run (hlaw : env.Lawful) (hstart : StartsWith env d₀ start) (h : RunInv env d₀ start o s)
    (events : List RkcEvent) : ∃ o', o.Stays o' ∧ RunInv env d₀ start o' (rkcRun env s events) ∧
      ∀ key ∈ rkcInstalled env s events, ∃ r, o' = some (r, key) := by
  induction events generalizing o s
  case nil => exact ⟨o, .refl o, h, nofun⟩
  case cons e events ih =>
    have ⟨o₁, hstays₁, h₁, hinstalls⟩ := h.step hlaw hstart e
    have ⟨o₂, hstays₂, h₂, hinstalled⟩ := ih h₁
    refine ⟨o₂, hstays₁.trans hstays₂, h₂, fun key hkey => ?_⟩
    rw [rkcInstalled, List.mem_append] at hkey
    obtain hkey | hkey := hkey
    · have ⟨r, ho₁⟩ := hinstalls key (by simpa using hkey)
      exact ⟨r, hstays₂ _ ho₁⟩
    · exact hinstalled key hkey

theorem StartsWith.unset (hstart : StartsWith env d₀ start) : Unset d₀ d₀ := by
  refine ⟨?_, fun _ _ => rfl⟩
  cases hstart
  case empty h => exact fun name _ => h name
  case v1 hmk _ _ _ => exact hmk

theorem StartsWith.runInv (hstart : StartsWith env d₀ start) (tick : Nat) :
    RunInv env d₀ start none { disk := d₀, tick } := ⟨.unset hstart.unset, nofun⟩

-- One main key is installed, that of the start if there is one, and the valid files of the root
-- key are the one that the main key is encrypted under.
structure MainKeyStable (env : RkcEnv) (start : Option MainKey) (installed : List MainKey) (d : RkcDisk) :
    Prop where
  same    : ∀ key ∈ installed, ∀ key' ∈ installed, key' = key
  fromV1  : ∀ k, start = some k → ∀ key ∈ installed, key = k
  belongs : ∀ m, env.MkOf d m → ∃ r key, env.Seals r.ksfDataRkc m.ksfDataMk key ∧
    ∀ r', env.RkcOf d r' → r' = r

theorem mem_rkcInstalled {key : MainKey} {e : RkcEvent} {pre rest : List RkcEvent}
    (h : e.installs env (rkcRun env s pre) = some key) : key ∈ rkcInstalled env s (pre ++ e :: rest) := by
  induction pre generalizing s
  case nil =>
    rw [List.nil_append, rkcInstalled, show e.installs env s = some key from h]
    exact List.mem_cons_self
  case cons e' pre ih =>
    rw [List.cons_append, rkcInstalled]
    exact List.mem_append_right _ (ih h)

-- A call that is to install the main key and succeeds does so.
theorem RunInv.installs (hlaw : env.Lawful) (hstart : StartsWith env d₀ start) (h : RunInv env d₀ start o s)
    {c : RkcCall} (hc : c ≠ .hksCoreModuleDestroy) {t : RkcSystem} (hrun : (c.run env).run s = .ok () t) :
    ∃ key, t.mainKey = .ok key ∧ (RkcEvent.call c).installs env s = some key := by
  have installs {key : MainKey} (hkey : t.mainKey = .ok key) : (RkcEvent.call c).installs env s = some key := by
    rw [RkcSystem.mainKey] at hkey
    cases c
    case hksCoreModuleDestroy => exact absurd rfl hc
    all_goals simp only [RkcEvent.installs, hrun, hkey, Except.toOption]
  have holds {s₁ : RkcSystem} (h₁ : RunInv env d₀ start o s₁) (hinit : (Huks.hksRkcInit env).run s₁ = .ok () t) :
      ∃ key, t.mainKey = .ok key := by
    have hrun₁ := h₁.hksRkcInit hlaw hstart
    rw [hinit] at hrun₁
    have ⟨_, key, _, _, hkey⟩ := hrun₁
    exact ⟨key, hkey⟩
  cases c
  case hksCoreModuleDestroy => exact absurd rfl hc
  case hksRkcInit =>
    have ⟨key, hkey⟩ := holds h hrun
    exact ⟨key, hkey, installs hkey⟩
  case hksCoreRefreshKeyInfo =>
    have ⟨key, hkey⟩ := holds h.destroyed ((run_hksCoreRefreshKeyInfo s).symm.trans hrun)
    exact ⟨key, hkey, installs hkey⟩

-- All successful calls install one main key.
theorem mainKey_stable (hlaw : env.Lawful) (hstart : StartsWith env d₀ start) (events : List RkcEvent) :
    MainKeyStable env start (rkcInstalled env { disk := d₀ } events) (rkcRun env { disk := d₀ } events).disk ∧
    ∀ pre c, pre ++ [.call c] <+: events → c ≠ .hksCoreModuleDestroy →
      ∀ t, (c.run env).run (rkcRun env { disk := d₀ } pre) = .ok () t →
        ∃ key ∈ rkcInstalled env { disk := d₀ } events, hksRkcGetMainKey t hksRkcMkLen = .ok key := by
  have ⟨o, _, h, hinstalled⟩ := (hstart.runInv 0).run hlaw hstart events
  refine ⟨⟨fun key hkey key' hkey' => ?_, fun k hk key hkey => ?_, fun m hm => ?_⟩, fun pre c hpre hc t hrun => ?_⟩
  · have ⟨r, ho⟩ := hinstalled key hkey
    have ⟨r', ho'⟩ := hinstalled key' hkey'
    cases ho.symm.trans ho'
    rfl
  · have ⟨r, ho⟩ := hinstalled key hkey
    have h := h.phase
    rw [ho, phase_some] at h
    exact h.start k hk
  · cases h.phase
    case unset h => exact absurd h.noMk (not_noFile_of_ksf hm)
    case kept h => exact ⟨_, _, h.sealed.seals m hm, h.sealed.rkc⟩
  · have ⟨o', _, hbefore, _⟩ := (hstart.runInv 0).run hlaw hstart pre
    have ⟨key, hkey, hinstalls⟩ := hbefore.installs hlaw hstart hc hrun
    obtain ⟨rest, rfl⟩ := hpre
    rw [List.append_assoc, List.singleton_append]
    exact ⟨key, mem_rkcInstalled hinstalls, hkey⟩

-- Cryptography without strength, and an outside that does what it is asked to do.
def plainEnv : RkcEnv where
  sha256 bytes                 := .ofBytes _ bytes
  deriveKey _ key _ _ _        := .ofBytes _ key
  aesGcmEncrypt key _ _ text   := ⟨(text.xor (.ofBytes _ key)).val ++ .replicate 16 0, by
    rw [List.length_append, (text.xor _).property, List.length_replicate, hksRkcMkLen, hksRkcMkCipherTextLen]⟩
  aesGcmDecrypt key _ _ cipher := .ok ((FixedBytes.ofBytes _ cipher.val).xor (.ofBytes _ key))
  udid                         := .zero _
  random n size                := ⟨.replicate size n.toUInt8, List.length_replicate⟩
  fault _                      := none
  write _                      := .done
  remove _                     := .done

theorem plainEnv_lawful : plainEnv.Lawful := by
  intro key nonce aad text
  refine congrArg Except.ok ?_
  simp only [plainEnv, FixedBytes.ofBytes_append, FixedBytes.xor_xor_cancel]

def twoStarts : List RkcEvent := [.call .hksRkcInit, .restart, .call .hksRkcInit]

-- A process without files makes a main key, and the next one finds it.
theorem mainKey_stable_from_empty :
    ∃ key, rkcInstalled plainEnv { disk := fun _ => none } twoStarts = [key, key] := by
  have hstable := (mainKey_stable plainEnv_lawful (.empty fun _ => rfl) twoStarts).1.same
  have hcount : (rkcInstalled plainEnv { disk := fun _ => none } twoStarts).length = 2 := by decide +kernel
  have ⟨key, key', hkeys⟩ := List.length_eq_two.mp hcount
  rw [hkeys] at hstable ⊢
  have hsame : key' = key := hstable key List.mem_cons_self key' (.tail _ List.mem_cons_self)
  exact ⟨key, hsame ▸ rfl⟩

end Runs

end Huks
