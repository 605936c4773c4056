import Huks.Rkc.Theorems.Stability

namespace Huks

open EStateM

-- What the initializer of the configuration declares for the files.
structure HksRkcCfg.Declared (cfg : HksRkcCfg) : Prop where
  rkVersion    : cfg.rkVersion = hksRkcVer
  mkVersion    : cfg.mkVersion = hksMkVer
  rmkIter      : cfg.rmkIter = hksRkcRmkIter
  rmkHashAlg   : cfg.rmkHashAlg = hksRkcRmkHmacSha256
  mkEncryptAlg : cfg.mkEncryptAlg = hksRkcMkCryptAlgAes256Gcm

structure HksKsfDataRkcWithVer.Declared (r : HksKsfDataRkcWithVer) : Prop where
  rkVersion  : r.rkVersion = hksRkcVer
  rmkIter    : r.ksfDataRkc.rmkIter = hksRkcRmkIter
  rmkHashAlg : r.ksfDataRkc.rmkHashAlg = hksRkcRmkHmacSha256

structure HksKsfDataMkWithVer.Declared (m : HksKsfDataMkWithVer) : Prop where
  mkVersion    : m.mkVersion = hksMkVer
  mkEncryptAlg : m.ksfDataMk.mkEncryptAlg = hksRkcMkCryptAlgAes256Gcm

-- Every valid file has data that were there at the start or that declare the configuration.
structure FilesDeclared (env : RkcEnv) (d₀ d : RkcDisk) : Prop where
  rkc  : ∀ r, env.RkcOf d r → env.RkcOf d₀ r ∨ r.Declared
  mkOf : ∀ m, env.MkOf d m → env.MkOf d₀ m ∨ m.Declared

section Plan

variable {env : RkcEnv} {d₀ d : RkcDisk}

theorem HksRkcCfg.Declared.stable : CfgStable HksRkcCfg.Declared :=
  ⟨fun _ _ ⟨h₁, h₂, h₃, h₄, h₅⟩ => ⟨h₁, h₂, h₃, h₄, h₅⟩, fun _ _ _ ⟨h₁, h₂, h₃, h₄, h₅⟩ => ⟨h₁, h₂, h₃, h₄, h₅⟩,
    fun _ _ _ ⟨h₁, h₂, h₃, h₄, h₅⟩ => ⟨h₁, h₂, h₃, h₄, h₅⟩⟩

theorem HksRkcCfg.Declared.fillsRkc {r : HksKsfDataRkcWithVer} :
    (∃ cfg : HksRkcCfg, cfg.Declared ∧ cfg.FillsRkc r) → r.Declared := fun ⟨_, h, hr⟩ =>
  ⟨hr.rkVersion.trans h.rkVersion, hr.rmkIter.trans h.rmkIter, hr.rmkHashAlg.trans h.rmkHashAlg⟩

theorem HksRkcCfg.Declared.fillsMk {m : HksKsfDataMkWithVer} :
    (∃ cfg : HksRkcCfg, cfg.Declared ∧ cfg.FillsMk m) → m.Declared := fun ⟨_, h, hm⟩ =>
  ⟨hm.mkVersion.trans h.mkVersion, hm.mkEncryptAlg.trans h.mkEncryptAlg⟩

theorem FilesDeclared.refl (d : RkcDisk) : FilesDeclared env d d := ⟨fun _ => .inl, fun _ => .inl⟩

theorem FilesDeclared.setRkc (h : FilesDeclared env d₀ d) {name : KsfName} (hname : name ∈ ksfNamesRkc)
    {r : HksKsfDataRkcWithVer} (hr : env.RkcOf d₀ r ∨ r.Declared) {content : Bytes}
    (hpart : KsfPart (extractKsfBufRkc env.sha256) r content) :
    FilesDeclared env d₀ (d.set name (some content)) := by
  refine ⟨fun r' hr' => ?_, fun m hm => h.mkOf m ?_⟩
  · obtain rfl | hr' := exists_ksf_set_part hpart hr'
    · exact hr
    · exact h.rkc r' hr'
  · exact (exists_ksf_set_other (ksfNamesRkc_ne_mk name hname) _ _).mp hm

theorem FilesDeclared.setMk (h : FilesDeclared env d₀ d) {name : KsfName} (hname : name ∈ ksfNamesMk)
    {m : HksKsfDataMkWithVer} (hm : env.MkOf d₀ m ∨ m.Declared) {content : Bytes}
    (hpart : KsfPart (extractKsfBufMk env.sha256) m content) :
    FilesDeclared env d₀ (d.set name (some content)) := by
  refine ⟨fun r hr => h.rkc r ?_, fun m' hm' => ?_⟩
  · exact (exists_ksf_set_other (ksfNamesMk_ne_rkc name hname) _ _).mp hr
  · obtain rfl | hm' := exists_ksf_set_part hpart hm'
    · exact hm
    · exact h.mkOf m' hm'

theorem FilesDeclared.deleteV1 (h : FilesDeclared env d₀ d) {name : KsfName} (hname : name ∈ ksfNamesV1) :
    FilesDeclared env d₀ (d.set name none) := by
  refine ⟨fun r hr => h.rkc r ?_, fun m hm => h.mkOf m ?_⟩
  · exact (exists_ksf_set_other (ksfNamesV1_ne_rkc name hname) _ _).mp hr
  · exact (exists_ksf_set_other (ksfNamesV1_ne_mk name hname) _ _).mp hm

theorem FilesDeclared.freshPlan (keys : MainKey → Prop) :
    FreshPlan env HksRkcCfg.Declared keys (FilesDeclared env d₀) (fun _ => FilesDeclared env d₀)
      (FilesDeclared env d₀) where
  cfg    := HksRkcCfg.Declared.stable
  before _ := id
  fresh r m key hr hm _ _ := by
    refine ⟨FilesDeclared env d₀, ⟨fun d name hname content h hpart => ?_, fun _ h _ => h,
      fun d name hname content h hpart => ?_⟩, fun _ => id, fun _ _ => id⟩
    · exact h.setRkc hname (.inr (HksRkcCfg.Declared.fillsRkc hr)) hpart
    · exact h.setMk hname (.inr (HksRkcCfg.Declared.fillsMk hm)) hpart
  delete _ _ _ hname h := h.deleteV1 hname
  after _ _ := id

variable (env d₀) in
theorem FilesDeclared.setUpPlan (d : RkcDisk) :
    SetUpPlan env HksRkcCfg.Declared (FilesDeclared env d₀) (fun _ => FilesDeclared env d₀)
      (FilesDeclared env d₀) d where
  within _    := id
  repairMk _ _ hname j hj m _ h _ hksf hpart  := h.setMk hname (h.mkOf m ⟨j, hj, hksf⟩) hpart
  repairRkc _ _ hname j hj r _ h _ hksf hpart := h.setRkc hname (h.rkc r ⟨j, hj, hksf⟩) hpart
  create _ _  := freshPlan _
  upgrade _ _ := freshPlan _

end Plan

section Runs

variable {env : RkcEnv} {d₀ : RkcDisk} {s : RkcSystem}

-- A call that may make new files has the initial configuration, or there is a main key file
-- and it makes none.
def RkcEvent.Configured (s : RkcSystem) : RkcEvent → Prop
  | call .hksRkcInit            => s.cfg.state = true ∨ s.cfg.Declared ∨ ¬NoFile s.disk ksfNamesMk
  | call .hksCoreRefreshKeyInfo => ¬NoFile s.disk ksfNamesMk
  | call .hksCoreModuleDestroy  => True
  | restart                     => True

def RunConfigured (env : RkcEnv) (s : RkcSystem) : List RkcEvent → Prop
  | []          => True
  | e :: events => e.Configured s ∧ RunConfigured env (e.step env s) events

theorem FilesDeclared.hksRkcInit (h : FilesDeclared env d₀ s.disk)
    (hcfg : s.cfg.state = true ∨ s.cfg.Declared ∨ ¬NoFile s.disk ksfNamesMk) :
    FilesDeclared env d₀ ((Huks.hksRkcInit env).run s).final.disk := by
  cases hstate : s.cfg.state
  case true =>
    rw [hksRkcInit_of_state hstate]
    exact h
  case false =>
    have hsetUp := hksRkcInit_triple (Q := fun s => FilesDeclared env d₀ s.disk) (E := FilesDeclared env d₀)
      ((hksRkcSetUp_triple (FilesDeclared.setUpPlan env d₀ s.disk)).weaken (fun _ => id) ?_ ?_)
      (fun _ => id) s ⟨hstate, ⟨fun hno => ?_, h⟩, rfl⟩
    · cases hrun : (Huks.hksRkcInit env).run s <;> rw [hrun] at hsetUp
      case ok t => exact hsetUp.2
      case error stop t => exact hsetUp.2
    · rintro _ t ⟨key, _, hkey⟩
      cases hkey
      case load hd' => exact hd'
      case create hz => exact hz
      case upgrade hz => exact hz
    · exact fun _ _ ht => ht.1
    · refine ⟨HksRkcCfg.Declared.stable, ?_⟩
      obtain hs | hs | hs := hcfg
      · rw [hs] at hstate
        cases hstate
      · exact hs
      · exact absurd hno hs

theorem final_step_call (c : RkcCall) : ((RkcEvent.call c).step env s).disk = ((c.run env).run s).final.disk := by
  rw [RkcEvent.step]
  cases (c.run env).run s
  case ok => rfl
  case error stop t => cases stop <;> rfl

theorem FilesDeclared.step (h : FilesDeclared env d₀ s.disk) {e : RkcEvent} (he : e.Configured s) :
    FilesDeclared env d₀ (e.step env s).disk := by
  cases e
  case restart => exact h
  case call c =>
    rw [final_step_call]
    cases c
    case hksRkcInit => exact h.hksRkcInit he
    case hksCoreRefreshKeyInfo =>
      exact hksRkcInit (s := { s with cfg := {}, rkcMk := {} }) h (.inr (.inr he))
    case hksCoreModuleDestroy => exact h

theorem FilesDeclared.run (h : FilesDeclared env d₀ s.disk) {events : List RkcEvent}
    (hevents : RunConfigured env s events) : FilesDeclared env d₀ (rkcRun env s events).disk := by
  induction events generalizing s
  case nil => exact h
  case cons e events ih => exact ih (h.step hevents.1) hevents.2

theorem files_declared {s : RkcSystem} {events : List RkcEvent} (hevents : RunConfigured env s events) :
    FilesDeclared env s.disk (rkcRun env s events).disk := (FilesDeclared.refl s.disk).run hevents

-- The random number generator fails once, and the call is made again.
def retryEnv : RkcEnv :=
  { plainEnv with fault := fun n => if n = 8 then some (.ret .cryptoEngineError) else none }

theorem files_not_declared :
    ¬FilesDeclared retryEnv (fun _ => none)
      (rkcRun retryEnv { disk := fun _ => none } [.call .hksRkcInit, .call .hksRkcInit]).disk := by
  intro h
  have hversion : (retryEnv.rkcKsf (rkcRun retryEnv { disk := fun _ => none }
      [.call .hksRkcInit, .call .hksRkcInit]).disk .rinfo1V2).map (·.rkVersion) = some 0 := by decide +kernel
  obtain ⟨r, hr, hzero⟩ := Option.map_eq_some_iff.mp hversion
  obtain ⟨n, _, hnone⟩ | hdeclared := h.rkc r ⟨.rinfo1V2, by decide, hr⟩
  · cases hnone
  · rw [hdeclared.rkVersion] at hzero
    exact absurd hzero (by decide)

theorem files_declared_first_run :
    FilesDeclared plainEnv (fun _ => none)
      (rkcRun plainEnv { disk := fun _ => none } [.call .hksRkcInit, .restart, .call .hksRkcInit]).disk :=
  have hevents : RunConfigured plainEnv { disk := fun _ => none }
      [.call .hksRkcInit, .restart, .call .hksRkcInit] :=
    ⟨.inr (.inl ⟨rfl, rfl, rfl, rfl, rfl⟩), trivial, .inr (.inl ⟨rfl, rfl, rfl, rfl, rfl⟩), trivial⟩
  files_declared hevents

end Runs

end Huks
