import Huks.Rkc.Theorems.Stability

namespace Huks

open EStateM

-- The same cryptography and the same device, with nothing that fails.
def RkcEnv.calm (env : RkcEnv) (random : Nat → (size : Nat) → FixedBytes size) : RkcEnv :=
  { env with
    random
    fault  := fun _ => none
    write  := fun _ => .done
    remove := fun _ => .done }

-- A main key that the files hold in one of the two versions.
def Recoverable (env : RkcEnv) (d : RkcDisk) (key : MainKey) : Prop :=
  V1Key env d key ∨ ∃ m r, env.MkOf d m ∧ env.RkcOf d r ∧ env.openMk (env.rmk r.ksfDataRkc) m.ksfDataMk = .ok key

-- A fresh process without failures sets up with the files of `after`, and installs what could
-- be recovered from those of `before`.
def Recovers (env : RkcEnv) (before after : RkcDisk) : Prop :=
  ∃ t key, (hksRkcInit env).run { disk := after } = .ok () t ∧ t.mainKey = .ok key ∧
    ∀ key', Recoverable env before key' → key' = key

section Calm

variable {env : RkcEnv} {f : Nat → (size : Nat) → FixedBytes size} {d₀ d : RkcDisk}
  {start : Option MainKey} {o : Settled}

theorem not_faulty_calm : ¬(env.calm f).Faulty := by
  rintro (⟨n, h⟩ | ⟨n, h⟩ | ⟨n, h⟩) <;> exact h rfl

-- What is said of the files does not depend on what fails.
theorem KeySealed.calm {r : HksKsfDataRkcWithVer} {key : MainKey} (h : KeySealed env d r key) :
    KeySealed (env.calm f) d r key := ⟨h.rkc, h.seals⟩

theorem Phase.calm (h : Phase env d₀ start o d) : Phase (env.calm f) d₀ start o d := by
  cases h
  case unset h => exact .unset h
  case kept h => exact .kept ⟨h.someMk, h.sealed.calm, h.someRkc, h.start, h.v1⟩

theorem StartsWith.calm (h : StartsWith env d₀ start) : StartsWith (env.calm f) d₀ start := by
  cases h
  case empty h => exact .empty h
  case v1 hmk hrkc hvalid hkey => exact .v1 _ hmk hrkc hvalid hkey

theorem RkcEnv.Lawful.calm (h : env.Lawful) : (env.calm f).Lawful := h

end Calm

section Recovery

variable {env : RkcEnv} {d₀ d : RkcDisk} {start : Option MainKey} {o : Settled}

theorem Phase.v1Of (h : Phase env d₀ start o d) {data : HksRkcKsfDataV1} (hdata : env.V1Of d data) :
    env.V1Of d₀ data := by
  cases h
  case unset h => exact (h.v1Of_iff data).mp hdata
  case kept h =>
    obtain ⟨n, hn, hksf⟩ := hdata
    refine ⟨n, hn, ?_⟩
    obtain heq | hnone := h.v1 n hn
    · rwa [RkcEnv.v1Ksf, RkcDisk.ksf, heq] at hksf
    · rw [RkcEnv.v1Ksf, RkcDisk.ksf, hnone] at hksf
      cases hksf

-- What could be recovered at some time is the key of the start or the settled one.
theorem Phase.recoverable (hlaw : env.Lawful) (hstart : StartsWith env d₀ start) (h : Phase env d₀ start o d)
    {key : MainKey} (hkey : Recoverable env d key) : start = some key ∨ ∃ r, o = some (r, key) := by
  obtain ⟨data, hdata, hopen⟩ | ⟨m, r, hm, hr, hopen⟩ := hkey
  · exact .inl (hstart.v1Key hstart.unset ⟨data, h.v1Of hdata, hopen⟩)
  · cases h
    case unset h => exact absurd h.noMk (not_noFile_of_ksf hm)
    case kept r₀ key₀ h =>
      rw [h.sealed.rkc r hr, hlaw.openMk (h.sealed.seals m hm)] at hopen
      cases hopen
      exact .inr ⟨_, rfl⟩

theorem rkcRun_append (s : RkcSystem) (runs lastRuns : List RkcEvent) :
    rkcRun env s (runs ++ lastRuns) = rkcRun env (rkcRun env s runs) lastRuns := List.foldl_append

-- Recovery needs that a main key file is valid as soon as there is one: an existing file that
-- is not valid bars the way to the files of version 1 and to new files.
theorem mainKey_recovers_iff (hlaw : env.Lawful) (hstart : StartsWith env d₀ start)
    (runs lastRuns : List RkcEvent) (random : Nat → (size : Nat) → FixedBytes size) :
    Recovers (env.calm random) (rkcRun env { disk := d₀ } runs).disk
        (rkcRun env { disk := d₀ } (runs ++ lastRuns)).disk ↔
      NoFile (rkcRun env { disk := d₀ } (runs ++ lastRuns)).disk ksfNamesMk ∨
        ∃ m, env.MkOf (rkcRun env { disk := d₀ } (runs ++ lastRuns)).disk m := by
  have ⟨o, _, h, _⟩ := (hstart.runInv 0).run hlaw hstart runs
  have ⟨o', hstays, h', _⟩ := h.run hlaw hstart lastRuns
  rw [rkcRun_append]
  have hinit := hksRkcInit_phase (hlaw.calm (f := random)) hstart.calm h'.phase.calm
    { disk := (rkcRun env (rkcRun env { disk := d₀ } runs) lastRuns).disk } ⟨rfl, rfl⟩
  refine ⟨fun ⟨t, _, hrun, _⟩ => ?_, fun hvalid => ?_⟩
  · rw [hrun] at hinit
    exact hinit.2.1
  · cases hrun : (hksRkcInit (env.calm random)).run
        { disk := (rkcRun env (rkcRun env { disk := d₀ } runs) lastRuns).disk } <;> rw [hrun] at hinit
    case error stop t =>
      obtain ⟨_, _, hfaulty | ⟨_, hmk, hnone⟩⟩ := hinit
      · exact absurd hfaulty not_faulty_calm
      · obtain hno | ⟨m, hm⟩ := hvalid
        · exact absurd hno hmk
        · exact absurd hm (hnone m)
    case ok _ t =>
      have ⟨_, _, r, key, hkey, hstays', hphase⟩ := hinit
      refine ⟨t, key, hrun, hkey, fun key' hkey' => ?_⟩
      rw [phase_some] at hphase
      obtain hk | ⟨r', ho⟩ := h.phase.calm.recoverable hlaw.calm hstart.calm hkey'
      · exact (hphase.start key' hk).symm
      · cases hstays' _ (hstays _ ho)
        rfl

-- The process ends in the first write of a main key file, which leaves the file empty.
def crashEnv : RkcEnv :=
  { plainEnv with write := fun n => if n = 37 then .cut (some 0) .crash else .done }

def RkcEnv.setsUp (env : RkcEnv) (d : RkcDisk) : Bool :=
  match (hksRkcInit env).run { disk := d } with
  | .ok _ _    => true
  | .error _ _ => false

theorem Recovers.setsUp {before after : RkcDisk} (h : Recovers env before after) : env.setsUp after = true := by
  obtain ⟨t, key, hrun, _⟩ := h
  rw [RkcEnv.setsUp, hrun]

theorem mainKey_not_recovered :
    StartsWith crashEnv (fun _ => none) none ∧
      ¬Recovers (crashEnv.calm crashEnv.random) (rkcRun crashEnv { disk := fun _ => none } []).disk
        (rkcRun crashEnv { disk := fun _ => none } ([] ++ [.call .hksRkcInit])).disk := by
  refine ⟨.empty fun _ => rfl, fun h => ?_⟩
  exact absurd h.setsUp (by decide +kernel)

theorem mainKey_recovers_after_first_run :
    Recovers (plainEnv.calm plainEnv.random) (rkcRun plainEnv { disk := fun _ => none } []).disk
        (rkcRun plainEnv { disk := fun _ => none } ([] ++ [.call .hksRkcInit])).disk ↔
      NoFile (rkcRun plainEnv { disk := fun _ => none } ([] ++ [.call .hksRkcInit])).disk ksfNamesMk ∨
        ∃ m, plainEnv.MkOf (rkcRun plainEnv { disk := fun _ => none } ([] ++ [.call .hksRkcInit])).disk m :=
  mainKey_recovers_iff plainEnv_lawful (.empty fun _ => rfl) [] [.call .hksRkcInit] plainEnv.random

end Recovery

end Huks
