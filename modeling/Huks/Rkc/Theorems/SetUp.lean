import Huks.Rkc.Theorems.MainKey

namespace Huks

open EStateM

section Data

variable (env : RkcEnv) (d : RkcDisk)

abbrev RkcEnv.rkcKsf : KsfName → Option HksKsfDataRkcWithVer := d.ksf (extractKsfBufRkc env.sha256)

abbrev RkcEnv.mkKsf : KsfName → Option HksKsfDataMkWithVer := d.ksf (extractKsfBufMk env.sha256)

abbrev RkcEnv.v1Ksf : KsfName → Option HksRkcKsfDataV1 := d.ksf (rkcExtractKsfBufV1 env.sha256)

-- The data of the valid files of a kind.
def RkcEnv.RkcOf (r : HksKsfDataRkcWithVer) : Prop := ∃ name ∈ ksfNamesRkc, env.rkcKsf d name = some r

def RkcEnv.MkOf (m : HksKsfDataMkWithVer) : Prop := ∃ name ∈ ksfNamesMk, env.mkKsf d name = some m

def RkcEnv.V1Of (data : HksRkcKsfDataV1) : Prop := ∃ name ∈ ksfNamesV1, env.v1Ksf d name = some data

end Data

-- `D` bears that a file is replaced by a part of one with the data of another.
def BearsRepair {α : Type} (D : RkcDisk → Prop) (extract : Bytes → Except HksErrorCode α)
    (names : List KsfName) : Prop :=
  ∀ d, ∀ name ∈ names, ∀ j ∈ names, ∀ a content, D d → j ≠ name → d.ksf extract j = some a →
    KsfPart extract a content → D (d.set name (some content))

section Load

variable {env : RkcEnv} {D : RkcDisk → Prop}

-- Why the valid files do not give a main key.
def LoadFails (env : RkcEnv) (D : RkcDisk → Prop) (d : RkcDisk) : Prop :=
  (∃ d', D d' ∧ ∀ r, ¬env.RkcOf d' r) ∨
    ∃ d' r m e, D d' ∧ env.RkcOf d' r ∧ env.MkOf d m ∧
      env.openMk (env.rmk r.ksfDataRkc) m.ksfDataMk = .error e

theorem not_of_forall_ksf_none {α : Type} {extract : Bytes → Except HksErrorCode α} {d : RkcDisk}
    {names : List KsfName} (h : ∀ name ∈ names, d.ksf extract name = none) (a : α) :
    ¬∃ name ∈ names, d.ksf extract name = some a := by
  rintro ⟨name, hname, ha⟩
  rw [h name hname] at ha
  cases ha

theorem rkcLoadKsf_triple (hmk : BearsRepair D (extractKsfBufMk env.sha256) ksfNamesMk)
    (hrkc : BearsRepair D (extractKsfBufRkc env.sha256) ksfNamesRkc) (d : RkcDisk) :
    Triple (fun s => (D s.disk ∧ s.ksfAttr .mk = ksfNamesMk.map some) ∧ s.disk = d) (rkcLoadKsf env)
      (fun _ s => ∃ d' r m key, (D d' ∧ env.RkcOf d' r ∧ env.MkOf d m ∧
        env.openMk (env.rmk r.ksfDataRkc) m.ksfDataMk = .ok key) ∧ s.mainKey = .ok key ∧ D s.disk)
      (fun _ s => D s.disk ∧
        (env.Faulty ∨ (s.disk = d ∧ ∀ m, ¬env.MkOf d m) ∨ LoadFails env D d)) := by
  refine Triple.bind ((hksMalloc_triple (fun _ _ => id) _).weaken_error fun _ s hs =>
    ⟨hs.2.1.1, .inl hs.1⟩) fun _ => ?_
  -- the files of the main key
  refine Triple.bind (Q := fun m s => env.MkOf d m ∧ D s.disk) ?_ fun m => .of_pure fun hm => ?_
  · refine Triple.get_bind fun s => ?_
    refine Triple.strengthen_pre (S := fun t => s.ksfAttr .mk = ksfNamesMk.map some ∧
      D t.disk ∧ t.disk = d) (.of_pure fun hattr => ?_) ?_
    · rw [hattr]
      refine (readAllKsf_triple (P := OnDisk D) (fun _ _ => id) d (by decide)
        (fillKsfBufMk_stores env.sha256) ?_).weaken (fun _ => id) ?_ ?_
      · exact fun s name hname j hj a content hs => hmk s.disk name hname j hj a content hs
      · rintro m t ⟨⟨j, hj, hksf, _⟩, ht⟩
        exact ⟨⟨j, hj, hksf⟩, ht⟩
      · rintro _ t (⟨hfaulty, ht⟩ | ⟨ht, hnone⟩)
        · exact ⟨ht, .inl hfaulty⟩
        · exact ⟨ht.1, .inr (.inl ⟨ht.2, not_of_forall_ksf_none hnone⟩)⟩
    · rintro t ⟨rfl, ⟨hD, hattr⟩, hd⟩
      exact ⟨hattr, hD, hd⟩
  refine Triple.bind (Q := fun _ => OnDisk D) (Triple.modify fun s hs => hs) fun _ => ?_
  refine Triple.bind (Q := fun _ s => s.ksfAttr .rkc = ksfNamesRkc.map some ∧ D s.disk)
    ((initKsfAttr_triple (fun _ _ => id) _ _ (fun s hs => ⟨rfl, hs⟩) fun s hs => hs).weaken_error
      fun _ s hs => ⟨hs.2, .inl hs.1⟩) fun _ => ?_
  -- the files of the root key
  refine Triple.bind (Q := fun r s => (∃ d', D d' ∧ env.RkcOf d' r) ∧ D s.disk) ?_ fun r =>
    .of_pure fun ⟨d', hd', hr⟩ => ?_
  · refine Triple.get_bind fun s => ?_
    refine Triple.strengthen_pre (S := fun t => s.ksfAttr .rkc = ksfNamesRkc.map some ∧
      D t.disk ∧ t.disk = s.disk) (.of_pure fun hattr => ?_) ?_
    · rw [hattr]
      refine (readAllKsf_triple (P := OnDisk D) (fun _ _ => id) s.disk (by decide)
        (fillKsfBufRkc_stores env.sha256) ?_).weaken (fun _ => id) ?_ ?_
      · exact fun s name hname j hj a content hs => hrkc s.disk name hname j hj a content hs
      · rintro r t ⟨⟨j, hj, _, hksf⟩, ht⟩
        exact ⟨⟨t.disk, ht, j, hj, hksf⟩, ht⟩
      · rintro _ t (⟨hfaulty, ht⟩ | ⟨ht, hnone⟩)
        · exact ⟨ht, .inl hfaulty⟩
        · exact ⟨ht.1, .inr (.inr (.inl ⟨s.disk, ht.2 ▸ ht.1, not_of_forall_ksf_none hnone⟩))⟩
    · rintro t ⟨rfl, hattr, hD⟩
      exact ⟨hattr, hD, rfl⟩
  refine Triple.bind (Q := fun _ => OnDisk D) (Triple.modify fun s hs => hs) fun _ => ?_
  refine Triple.bind ((rkcMkDecrypt_triple (fun _ _ => id) _ _).weaken_error ?_) fun key =>
    .of_pure fun hkey => ?_
  · rintro stop s ⟨hs, hfaulty | ⟨_, e, he⟩⟩
    · exact ⟨hs, .inl hfaulty⟩
    · exact ⟨hs, .inr (.inr (.inr ⟨d', r, m, e, hd', hr, hm, he⟩))⟩
  · exact (rkcMaskMk_triple (fun _ _ => id) key fun s mkMask hs => hs).weaken (fun _ => id)
      (fun _ s hs => ⟨d', r, m, key, ⟨hd', hr, hm, hkey⟩, hs⟩) fun _ s hs => ⟨hs.2, .inl hs.1⟩

end Load

section Write

variable {env : RkcEnv} {D W : RkcDisk → Prop} {G : RkcSystem → Prop} {r : HksKsfDataRkcWithVer}
  {m : HksKsfDataMkWithVer}

-- `D` bears parts of the new root key files; with these in place it gives `W`, and `W` bears
-- parts of the new main key files.
structure BearsFresh (env : RkcEnv) (D W : RkcDisk → Prop) (r : HksKsfDataRkcWithVer)
    (m : HksKsfDataMkWithVer) : Prop where
  bearsRkc : ∀ d, ∀ name ∈ ksfNamesRkc, ∀ content, D d → KsfPart (extractKsfBufRkc env.sha256) r content →
    D (d.set name (some content))
  both : ∀ d, D d → (∀ name ∈ ksfNamesRkc, env.rkcKsf d name = some r) → W d
  bearsMk : ∀ d, ∀ name ∈ ksfNamesMk, ∀ content, W d → KsfPart (extractKsfBufMk env.sha256) m content →
    W (d.set name (some content))

-- `G` is about the globals.
structure OffDisk (G : RkcSystem → Prop) : Prop where
  tick  : TickFree G
  store : ∀ s name content, G s → G (s.store name content)

theorem rkcWriteAllKsf_triple (h : BearsFresh env D W r m) (hG : OffDisk G)
    (hattr : ∀ s, G s → s.ksfAttr .rkc = ksfNamesRkc.map some ∧ s.ksfAttr .mk = ksfNamesMk.map some) :
    Triple (fun s => G s ∧ D s.disk) (rkcWriteAllKsf env r m)
      (fun _ s => env.MkOf s.disk m ∧ G s ∧ W s.disk)
      (Fails env (OnDisk fun d => D d ∨ W d)) := by
  refine Triple.get_bind fun s => ?_
  refine Triple.strengthen_pre (S := fun t => G s ∧ G t ∧ D t.disk) (.of_pure fun hs => ?_) ?_
  · rw [(hattr s hs).1]
    refine Triple.bind (Q := fun _ t => G t ∧ W t.disk) ?_ fun _ => ?_
    · have hfree : TickFree fun s => G s ∧ D s.disk := fun t n ht => ⟨hG.tick t n ht.1, ht.2⟩
      refine (writeKsfs_triple hfree (by decide) (fillKsfBufRkc_stores env.sha256 r) _ ?_).weaken
        (fun _ => id) (fun _ t ht => ⟨ht.2.1, h.both _ ht.2.2 ht.1⟩) fun _ t ht => ⟨ht.1, .inl ht.2.2⟩
      exact fun t name hname content ht hpart =>
        ⟨hG.store t name _ ht.1, h.bearsRkc t.disk name hname content ht.2 hpart⟩
    refine Triple.get_bind fun s => ?_
    refine Triple.strengthen_pre (S := fun t => G s ∧ G t ∧ W t.disk) (.of_pure fun hs => ?_) ?_
    · rw [(hattr s hs).2]
      have hfree : TickFree fun s => G s ∧ W s.disk := fun t n ht => ⟨hG.tick t n ht.1, ht.2⟩
      refine Triple.bind ((tryWriteKsfs_triple hfree (by decide) (fillKsfBufMk_stores env.sha256 m)
        ?_).weaken_error fun _ t ht => ⟨ht.1, .inr ht.2.2⟩) fun rets => ?_
      · exact fun t name hname content ht hpart =>
          ⟨hG.store t name _ ht.1, h.bearsMk t.disk name hname content ht.2 hpart⟩
      cases rets.all (·.toOption.isNone)
      case true =>
        refine Triple.throw fun t ⟨hall, ht⟩ => ?_
        obtain hnil | hfaulty := hall
        · cases hnil
        · exact ⟨hfaulty, .inr ht.2⟩
      case false => exact Triple.pure fun t ⟨hmk, ht⟩ => ⟨hmk, ht⟩
    · rintro t ⟨rfl, ht⟩
      exact ⟨ht.1, ht⟩
  · rintro t ⟨rfl, ht⟩
    exact ⟨ht.1, ht⟩

-- The values that the configuration gives to new files.
structure HksRkcCfg.FillsRkc (cfg : HksRkcCfg) (r : HksKsfDataRkcWithVer) : Prop where
  rkVersion  : r.rkVersion = cfg.rkVersion
  rmkIter    : r.ksfDataRkc.rmkIter = cfg.rmkIter
  rmkHashAlg : r.ksfDataRkc.rmkHashAlg = cfg.rmkHashAlg

structure HksRkcCfg.FillsMk (cfg : HksRkcCfg) (m : HksKsfDataMkWithVer) : Prop where
  mkVersion    : m.mkVersion = cfg.mkVersion
  mkEncryptAlg : m.ksfDataMk.mkEncryptAlg = cfg.mkEncryptAlg

-- `C` is about what masking, naming and the times leave alone.
structure CfgStable (C : HksRkcCfg → Prop) : Prop where
  mask : ∀ cfg mkMask, C cfg → C { cfg with mkMask }
  attr : ∀ cfg ksfAttrRkc ksfAttrMk, C cfg → C { cfg with ksfAttrRkc, ksfAttrMk }
  time : ∀ cfg rkCreatedTime rkExpiredTime, C cfg → C { cfg with rkCreatedTime, rkExpiredTime }

-- What the files are like when new ones with one of the `keys` are made from a configuration
-- with `C`: `D` before, `Z` after, and `X` all the time.
structure FreshPlan (env : RkcEnv) (C : HksRkcCfg → Prop) (keys : FixedBytes hksRkcMkLen → Prop)
    (D : RkcDisk → Prop) (Z : FixedBytes hksRkcMkLen → RkcDisk → Prop) (X : RkcDisk → Prop) : Prop where
  cfg    : CfgStable C
  before : ∀ d, D d → X d
  fresh  : ∀ r m key, (∃ cfg, C cfg ∧ cfg.FillsRkc r) → (∃ cfg, C cfg ∧ cfg.FillsMk m) → keys key →
    env.Seals r.ksfDataRkc m.ksfDataMk key →
    ∃ W, BearsFresh env D W r m ∧ (∀ d, W d → X d) ∧ ∀ d, env.MkOf d m → W d → Z key d
  delete : ∀ key d, ∀ name ∈ ksfNamesV1, Z key d → Z key (d.set name none)
  after  : ∀ key d, Z key d → X d

theorem fillKsfDataMkWithVer_triple {P : RkcSystem → Prop} {E : RkcStop → RkcSystem → Prop} :
    Triple P fillKsfDataMkWithVer (fun m s => (∃ s₀, P s₀ ∧ s₀.cfg.FillsMk m) ∧ P s) E := by
  refine Triple.get_bind fun s => Triple.pure ?_
  rintro t ⟨rfl, ht⟩
  exact ⟨⟨t, ht, rfl, rfl⟩, ht⟩

theorem fillKsfDataRkcWithVer_triple {P : RkcSystem → Prop} (hP : TickFree P) :
    Triple P (fillKsfDataRkcWithVer env) (fun r s => (∃ s₀, P s₀ ∧ s₀.cfg.FillsRkc r) ∧ P s)
      (Fails env P) := by
  refine Triple.get_bind fun s => ?_
  refine Triple.strengthen_pre (S := fun t => P s ∧ P t) (.of_pure fun hs => ?_) ?_
  · refine Triple.bind (hksCryptoHalFillPrivRandom_triple hP _) fun _ => ?_
    refine Triple.bind (hksCryptoHalFillPrivRandom_triple hP _) fun _ => ?_
    refine Triple.bind (hksCryptoHalFillPrivRandom_triple hP _) fun _ => ?_
    exact Triple.pure fun t ht => ⟨⟨s, hs, rfl, rfl, rfl⟩, ht⟩
  · rintro t ⟨rfl, ht⟩
    exact ⟨ht, ht⟩

variable {C : HksRkcCfg → Prop} {keys : FixedBytes hksRkcMkLen → Prop}
  {Z : FixedBytes hksRkcMkLen → RkcDisk → Prop} {X : RkcDisk → Prop}

-- The names of the files are set and the files written; `G` is about the rest.
theorem writeFresh_triple (plan : FreshPlan env C keys D Z X) {key : FixedBytes hksRkcMkLen}
    (hr : ∃ cfg, C cfg ∧ cfg.FillsRkc r) (hm : ∃ cfg, C cfg ∧ cfg.FillsMk m) (hkey : keys key)
    (hseals : env.Seals r.ksfDataRkc m.ksfDataMk key) (hG : OffDisk G)
    (hattr : ∀ s names, G s → G (s.setKsfAttr names .rkc)) :
    Triple (fun s => (G s ∧ s.ksfAttr .mk = ksfNamesMk.map some) ∧ D s.disk)
      (do initKsfAttr env ksfNamesRkc .rkc; rkcWriteAllKsf env r m)
      (fun _ s => G s ∧ Z key s.disk) (Fails env (OnDisk X)) := by
  have ⟨W, hbears, hX, hZ⟩ := plan.fresh r m key hr hm hkey hseals
  let G' s := G s ∧ s.ksfAttr .rkc = ksfNamesRkc.map some ∧ s.ksfAttr .mk = ksfNamesMk.map some
  have hG' : OffDisk G' :=
    ⟨fun s n hs => ⟨hG.tick s n hs.1, hs.2⟩, fun s name content hs => ⟨hG.store s name content hs.1, hs.2⟩⟩
  refine Triple.bind (Q := fun _ s => G' s ∧ D s.disk) ((initKsfAttr_triple (D := D) ?_ _ _ ?_ fun s hs =>
    hs.2).weaken_error fun _ s hs => ⟨hs.1, plan.before _ hs.2⟩) fun _ => ?_
  · exact fun s n hs => ⟨⟨hG.tick s n hs.1.1, hs.1.2⟩, hs.2⟩
  · exact fun s hs => ⟨⟨hattr s _ hs.1.1, rfl, hs.1.2⟩, hs.2⟩
  · refine (rkcWriteAllKsf_triple hbears hG' fun s hs => hs.2).weaken (fun _ => id) ?_ ?_
    · exact fun _ s hs => ⟨hs.2.1.1, hZ _ hs.1 hs.2.2⟩
    · exact fun _ s hs => ⟨hs.1, hs.2.elim (plan.before _) (hX _)⟩

theorem rkcCreateKsf_triple (plan : FreshPlan env C (fun _ => True) D Z X) :
    Triple (fun s => (C s.cfg ∧ s.ksfAttr .mk = ksfNamesMk.map some) ∧ D s.disk) (rkcCreateKsf env)
      (fun _ s => ∃ key, s.mainKey = .ok key ∧ Z key s.disk) (Fails env (OnDisk X)) := by
  let P (s : RkcSystem) := (C s.cfg ∧ s.ksfAttr .mk = ksfNamesMk.map some) ∧ D s.disk
  have hP : TickFree P := fun _ _ => id
  have hX (s : RkcSystem) (hs : P s) : X s.disk := plan.before _ hs.2
  refine Triple.bind (onDisk_fails (hksMalloc_triple hP _) hX) fun _ => ?_
  refine Triple.bind fillKsfDataMkWithVer_triple fun m => .of_pure fun ⟨s₀, hs₀, hm⟩ => ?_
  refine Triple.bind (onDisk_fails (fillKsfDataRkcWithVer_triple hP) hX) fun r =>
    .of_pure fun ⟨s₁, hs₁, hr⟩ => ?_
  refine Triple.bind (onDisk_fails (rkcMakeMk_triple hP _ _ fun s key mkMask hs =>
    ⟨⟨plan.cfg.mask _ _ hs.1.1, hs.1.2⟩, hs.2⟩) hX) fun m' => .of_exists fun key =>
      .of_pure fun ⟨hseals, halg⟩ => ?_
  have hm' : s₀.cfg.FillsMk { m with ksfDataMk := m' } := ⟨hm.mkVersion, halg.trans hm.mkEncryptAlg⟩
  refine (writeFresh_triple (G := fun s => s.mainKey = .ok key) plan ⟨_, hs₁.1.1, hr⟩ ⟨_, hs₀.1.1, hm'⟩
    trivial hseals ⟨fun _ _ => id, fun _ _ _ => id⟩ fun _ _ => id).weaken ?_ ?_ fun _ _ => id
  · exact fun s hs => ⟨⟨hs.1, hs.2.1.2⟩, hs.2.2⟩
  · exact fun _ s hs => ⟨key, hs⟩

-- A main key that the valid files of version 1 hold.
def V1Key (env : RkcEnv) (d : RkcDisk) (key : FixedBytes hksRkcMkLen) : Prop :=
  ∃ data, env.V1Of d data ∧ env.openMk (env.rmkV1 data.ksfDataRkc) data.ksfDataMk = .ok key

-- Why the files of version 1 do not give a main key.
def V1Fails (env : RkcEnv) (d : RkcDisk) : Prop :=
  (∀ data, ¬env.V1Of d data) ∨
    ∃ data e, env.V1Of d data ∧ env.openMk (env.rmkV1 data.ksfDataRkc) data.ksfDataMk = .error e

theorem rkcLoadKsfV1_triple {P : RkcSystem → Prop} (hP : TickFree P) (d : RkcDisk)
    (hattr : ∀ s, P s → s.ksfAttr .rkc = ksfNamesV1.map some)
    (htime : ∀ s rkCreatedTime rkExpiredTime mkCreatedTime mkExpiredTime, P s →
      P { s with
        cfg   := { s.cfg with rkCreatedTime, rkExpiredTime }
        rkcMk := { s.rkcMk with mkCreatedTime, mkExpiredTime } }) :
    Triple (fun s => P s ∧ s.disk = d) (rkcLoadKsfV1 env) (fun key s => V1Key env d key ∧ P s)
      (fun _ s => (P s ∧ s.disk = d) ∧ (env.Faulty ∨ V1Fails env d)) := by
  have hfree : TickFree fun s => P s ∧ s.disk = d := fun s n hs => ⟨hP s n hs.1, hs.2⟩
  refine Triple.bind ((hksMalloc_triple hfree _).weaken_error fun _ s hs => ⟨hs.2, .inl hs.1⟩) fun _ => ?_
  refine Triple.bind (Q := fun data s => env.V1Of d data ∧ P s ∧ s.disk = d) ?_ fun data =>
    .of_pure fun hdata => ?_
  · refine Triple.get_bind fun s => ?_
    refine Triple.strengthen_pre (S := fun t => P s ∧ P t ∧ t.disk = d) (.of_pure fun hs => ?_) ?_
    · rw [hattr s hs]
      refine Triple.bind ((readValidKsf_triple hP d _).weaken_error ?_) fun p =>
        Triple.pure fun t ⟨⟨j, hj, _, hksf⟩, ht⟩ => ⟨⟨j, hj, hksf⟩, ht⟩
      rintro stop t ⟨ht, hfaulty | ⟨_, hnone⟩⟩
      · exact ⟨ht, .inl hfaulty⟩
      · exact ⟨ht, .inr (.inl (not_of_forall_ksf_none hnone))⟩
    · rintro t ⟨rfl, ht⟩
      exact ⟨ht.1, ht⟩
  refine Triple.bind (Q := fun _ s => P { s with rkcMk := { s.rkcMk with
    mkCreatedTime := data.ksfDataMk.mkCreatedTime, mkExpiredTime := data.ksfDataMk.mkExpiredTime } } ∧
      s.disk = d) (Triple.modify fun s hs => ⟨htime s _ _ _ _ hs.1, hs.2⟩) fun _ => ?_
  refine Triple.bind (Q := fun _ s => P s ∧ s.disk = d) (Triple.modify fun s hs => hs) fun _ => ?_
  refine (rkcMkDecryptV1_triple hfree data).weaken (fun _ => id) ?_ ?_
  · exact fun key s hs => ⟨⟨data, hdata, hs.1⟩, hs.2.1⟩
  · rintro stop s ⟨hs, hfaulty | ⟨_, e, he⟩⟩
    · exact ⟨hs, .inl hfaulty⟩
    · exact ⟨hs, .inr (.inr ⟨data, e, hdata, he⟩)⟩

theorem rkcDeleteAllKsfV1_triple {P : RkcSystem → Prop} (hP : TickFree P)
    (hdelete : ∀ s, ∀ name ∈ ksfNamesV1, P s → P (s.store name none)) :
    Triple P (rkcDeleteAllKsfV1 env) (fun _ => P) (Fails env P) := by
  refine Triple.bind (orRet_fails (getProcessInfo_triple hP) _) fun _ => ?_
  refine Triple.bind (hksRkcBuildParamSet_triple hP) fun _ => ?_
  exact Triple.forM fun name hname => attemptRet_fails <|
    hksManageStoreDeleteKeyBlob_triple hP fun s hs => hdelete s name hname hs

theorem upgradeV1ToV2_triple {d : RkcDisk} (plan : FreshPlan env C (V1Key env d) D Z X) :
    Triple (fun s => ((C s.cfg ∧ s.ksfAttr .mk = ksfNamesMk.map some) ∧ D s.disk ∧
        s.ksfAttr .rkc = ksfNamesV1.map some) ∧ s.disk = d) (upgradeV1ToV2 env)
      (fun _ s => ∃ key, V1Key env d key ∧ s.mainKey = .ok key ∧ Z key s.disk)
      (fun _ s => X s.disk ∧ (env.Faulty ∨ V1Fails env d)) := by
  let P (s : RkcSystem) := (C s.cfg ∧ s.ksfAttr .mk = ksfNamesMk.map some) ∧ D s.disk
  have hP : TickFree P := fun _ _ => id
  have hfails {β : Type} {Q : RkcSystem → Prop} {x : RkcM β} {R : β → RkcSystem → Prop}
      (h : Triple Q x R (Fails env (OnDisk X))) :
      Triple Q x R (fun _ s => X s.disk ∧ (env.Faulty ∨ V1Fails env d)) :=
    h.weaken_error fun _ s hs => ⟨hs.2, .inl hs.1⟩
  have hX (s : RkcSystem) (hs : P s) : X s.disk := plan.before _ hs.2
  refine Triple.bind (Q := fun key s => V1Key env d key ∧ P s) ?_ fun key => .of_pure fun hkey => ?_
  · refine (rkcLoadKsfV1_triple (P := fun s => P s ∧ s.ksfAttr .rkc = ksfNamesV1.map some) (fun _ _ => id)
      d (fun s hs => hs.2) ?_).weaken ?_ ?_ ?_
    · exact fun s _ _ _ _ hs => ⟨⟨⟨plan.cfg.time _ _ _ hs.1.1.1, hs.1.1.2⟩, hs.1.2⟩, hs.2⟩
    · exact fun s hs => ⟨⟨⟨hs.1.1, hs.1.2.1⟩, hs.1.2.2⟩, hs.2⟩
    · exact fun key s hs => ⟨hs.1, hs.2.1⟩
    · exact fun _ s hs => ⟨hX s hs.1.1.1, hs.2⟩
  refine Triple.bind (hfails (onDisk_fails (hksMalloc_triple hP _) hX)) fun _ => ?_
  refine Triple.bind fillKsfDataMkWithVer_triple fun m => .of_pure fun ⟨s₀, hs₀, hm⟩ => ?_
  refine Triple.bind (hfails (onDisk_fails (fillKsfDataRkcWithVer_triple hP) hX)) fun r =>
    .of_pure fun ⟨s₁, hs₁, hr⟩ => ?_
  refine Triple.bind (hfails (onDisk_fails (rkcMkEncrypt_triple hP r.ksfDataRkc m.ksfDataMk key) hX))
    fun c => .of_pure fun hc => ?_
  let m' : HksKsfDataMkWithVer := { m with ksfDataMk := { m.ksfDataMk with mkCiphertext := c } }
  have hm' : s₀.cfg.FillsMk m' := ⟨hm.mkVersion, hm.mkEncryptAlg⟩
  have hwrite := writeFresh_triple (G := fun _ => True) (m := m') plan ⟨_, hs₁.1.1, hr⟩ ⟨_, hs₀.1.1, hm'⟩
    hkey hc ⟨fun _ _ => id, fun _ _ _ => id⟩ fun _ _ => id
  rw [← bind_assoc]
  refine Triple.bind (hfails (hwrite.strengthen_pre fun s hs => ⟨⟨trivial, hs.1.2⟩, hs.2⟩)) fun _ => ?_
  have hZ : TickFree fun s => True ∧ Z key s.disk := fun _ _ => id
  refine Triple.bind (hfails (onDisk_fails (attemptRet_fails (rkcDeleteAllKsfV1_triple hZ ?_)) ?_)) fun _ => ?_
  · exact fun s name hname hs => ⟨trivial, plan.delete key _ name hname hs.2⟩
  · exact fun s hs => plan.after key _ hs.2
  · refine (hfails (onDisk_fails (rkcMaskMk_triple hZ key fun _ _ => id) ?_)).weaken_post ?_
    · exact fun s hs => plan.after key _ hs.2
    · exact fun _ s hs => ⟨key, hkey, hs.1, hs.2.2⟩

end Write

section SetUp

variable {env : RkcEnv} {C : HksRkcCfg → Prop} {D : RkcDisk → Prop}
  {Z : FixedBytes hksRkcMkLen → RkcDisk → Prop} {X : RkcDisk → Prop} {d : RkcDisk}

def NoFile (d : RkcDisk) (names : List KsfName) : Prop := ∀ name ∈ names, d name = none

-- What the files have to be like for each of the three ways to set up the root key component.
structure SetUpPlan (env : RkcEnv) (C : HksRkcCfg → Prop) (D : RkcDisk → Prop)
    (Z : FixedBytes hksRkcMkLen → RkcDisk → Prop) (X : RkcDisk → Prop) (d : RkcDisk) : Prop where
  within    : ∀ d, D d → X d
  repairMk  : BearsRepair D (extractKsfBufMk env.sha256) ksfNamesMk
  repairRkc : BearsRepair D (extractKsfBufRkc env.sha256) ksfNamesRkc
  create    : NoFile d ksfNamesMk → NoFile d ksfNamesV1 → FreshPlan env C (fun _ => True) D Z X
  upgrade   : NoFile d ksfNamesMk → env.Faulty ∨ ¬NoFile d ksfNamesV1 → FreshPlan env C (V1Key env d) D Z X

-- Where the main key in memory comes from.
inductive SetUpKey (env : RkcEnv) (D : RkcDisk → Prop) (Z : FixedBytes hksRkcMkLen → RkcDisk → Prop)
    (d d' : RkcDisk) (key : FixedBytes hksRkcMkLen) : Prop
  | load (d₁ : RkcDisk) (r : HksKsfDataRkcWithVer) (m : HksKsfDataMkWithVer) (hd : D d₁)
      (hr : env.RkcOf d₁ r) (hm : env.MkOf d m)
      (hopen : env.openMk (env.rmk r.ksfDataRkc) m.ksfDataMk = .ok key) (hd' : D d')
  | create (hmk : NoFile d ksfNamesMk) (hv1 : NoFile d ksfNamesV1) (hz : Z key d')
  | upgrade (hmk : NoFile d ksfNamesMk) (hkey : V1Key env d key) (hz : Z key d')

-- Why it is not set up.
inductive SetUpFails (env : RkcEnv) (D : RkcDisk → Prop) (d d' : RkcDisk) : Prop
  | faulty (h : env.Faulty)
  | mk (hmk : ¬NoFile d ksfNamesMk) (hd : d' = d) (hnone : ∀ m, ¬env.MkOf d m)
  | load (hmk : ¬NoFile d ksfNamesMk) (h : LoadFails env D d)
  | upgrade (hmk : NoFile d ksfNamesMk) (hv1 : ¬NoFile d ksfNamesV1) (h : V1Fails env d)

theorem hksRkcSetUp_triple (plan : SetUpPlan env C D Z X d) :
    Triple (fun s => ((NoFile d ksfNamesMk → CfgStable C ∧ C s.cfg) ∧ D s.disk) ∧ s.disk = d)
      (hksRkcSetUp env)
      (fun _ s => ∃ key, s.mainKey = .ok key ∧ SetUpKey env D Z d s.disk key)
      (fun _ s => X s.disk ∧ SetUpFails env D d s.disk) := by
  let P (s : RkcSystem) := ((NoFile d ksfNamesMk → CfgStable C ∧ C s.cfg) ∧ D s.disk) ∧
    s.ksfAttr .mk = ksfNamesMk.map some
  have hfails {β : Type} {Q : RkcSystem → Prop} {x : RkcM β} {R : β → RkcSystem → Prop}
      (h : Triple Q x R (Fails env (OnDisk D))) :
      Triple Q x R (fun _ s => X s.disk ∧ SetUpFails env D d s.disk) :=
    h.weaken_error fun _ s hs => ⟨plan.within _ hs.2, .faulty hs.1⟩
  have hnames {b : Bool} {names : List KsfName} (h : if b then env.Faulty ∨ ∃ name ∈ names, d name ≠ none
      else ∀ name ∈ names, d name = none) : if b then env.Faulty ∨ ¬NoFile d names else NoFile d names := by
    cases b
    case false => exact h
    case true => exact h.imp_right fun ⟨name, hname, hne⟩ hno => hne (hno name hname)
  refine Triple.bind (Q := fun _ s => P s ∧ s.disk = d) (hfails (initKsfAttr_triple (fun _ _ => id) _ _
    (fun s hs => ?_) fun s hs => hs.1.2)) fun _ => ?_
  · exact ⟨⟨⟨fun h => ⟨(hs.1.1 h).1, (hs.1.1 h).1.attr _ _ _ (hs.1.1 h).2⟩, hs.1.2⟩, rfl⟩, hs.2⟩
  refine Triple.bind (hfails (onDisk_fails (ksfExist_triple (fun _ _ => id) .mk ksfNamesMk d
    (fun s hs => hs.1.2) fun s hs => hs.2) fun s hs => hs.1.1.2)) fun b => .of_pure fun hb => ?_
  have hb := hnames hb
  cases b
  case true =>
    refine (rkcLoadKsf_triple plan.repairMk plan.repairRkc d).weaken ?_ ?_ ?_
    · exact fun s hs => ⟨⟨hs.1.1.2, hs.1.2⟩, hs.2⟩
    · rintro _ s ⟨d₁, r, m, key, ⟨hd, hr, hm, hopen⟩, hkey, hd'⟩
      exact ⟨key, hkey, .load d₁ r m hd hr hm hopen hd'⟩
    · rintro _ s ⟨hs, hfaulty | h⟩
      · exact ⟨plan.within _ hs, .faulty hfaulty⟩
      · refine ⟨plan.within _ hs, ?_⟩
        obtain hfaulty | hmk := hb
        · exact .faulty hfaulty
        · obtain ⟨hd, hnone⟩ | h := h
          · exact .mk hmk hd hnone
          · exact .load hmk h
  case false =>
    let P' (s : RkcSystem) := ((C s.cfg ∧ s.ksfAttr .mk = ksfNamesMk.map some) ∧ D s.disk ∧
      s.ksfAttr .rkc = ksfNamesV1.map some)
    refine Triple.bind (Q := fun _ s => P' s ∧ s.disk = d) (hfails (initKsfAttr_triple (fun _ _ => id) _ _
      (fun s hs => ?_) fun s hs => hs.1.1.2)) fun _ => ?_
    · have ⟨hC, hcfg⟩ := hs.1.1.1 hb
      exact ⟨⟨⟨hC.attr _ _ _ hcfg, hs.1.2⟩, hs.1.1.2, rfl⟩, hs.2⟩
    refine Triple.bind (hfails (onDisk_fails (ksfExist_triple (fun _ _ => id) .rkc ksfNamesV1 d
      (fun s hs => hs.1.2.2) fun s hs => hs.2) fun s hs => hs.1.2.1)) fun b => .of_pure fun hb' => ?_
    have hb' := hnames hb'
    cases b
    case true =>
      refine (upgradeV1ToV2_triple (plan.upgrade hb hb')).weaken (fun _ => id) ?_ ?_
      · rintro _ s ⟨key, hkey, hmain, hz⟩
        exact ⟨key, hmain, .upgrade hb hkey hz⟩
      · rintro _ s ⟨hs, hfaulty | h⟩
        · exact ⟨hs, .faulty hfaulty⟩
        · refine ⟨hs, ?_⟩
          obtain hfaulty | hv1 := hb'
          · exact .faulty hfaulty
          · exact .upgrade hb hv1 h
    case false =>
      refine (rkcCreateKsf_triple (plan.create hb hb')).weaken ?_ ?_ ?_
      · exact fun s hs => ⟨hs.1.1, hs.1.2.1⟩
      · rintro _ s ⟨key, hmain, hz⟩
        exact ⟨key, hmain, .create hb hb' hz⟩
      · exact fun _ s hs => ⟨hs.2, .faulty hs.1⟩

-- In a process that is not set up `HksRkcInit` sets up, and clears the globals when it fails.
theorem hksRkcInit_triple {P Q : RkcSystem → Prop} {E : RkcDisk → Prop}
    (h : Triple P (hksRkcSetUp env) (fun _ => Q) (fun _ s => E s.disk))
    (hQ : ∀ s, Q s → Q { s with cfg := { s.cfg with state := true } }) :
    Triple (fun s => s.cfg.state = false ∧ P s) (hksRkcInit env) (fun _ s => s.cfg.state = true ∧ Q s)
      (fun stop s => (stop = .crash ∨ s.cfg = {} ∧ s.rkcMk = {}) ∧ E s.disk) := by
  refine Triple.get_bind fun s => ?_
  refine Triple.strengthen_pre (S := fun t => s.cfg.state = false ∧ P t) (.of_pure fun hs => ?_) ?_
  · rw [hs]
    refine Triple.bind ((attemptRet_triple h).weaken_error fun _ t ht => ⟨.inl ht.1, ht.2⟩) fun r => ?_
    refine .of_or (.of_exists fun a => .of_pure fun hr => ?_) (.of_exists fun e => .of_pure fun hr => ?_)
    · rw [hr]
      exact Triple.modify fun t ht => ⟨rfl, hQ t ht⟩
    · rw [hr]
      refine Triple.bind (Q := fun _ s => s.cfg = {} ∧ E s.disk) (fun t ht => ⟨rfl, ht⟩) fun _ => ?_
      refine Triple.bind (Q := fun _ s => (s.cfg = {} ∧ s.rkcMk = {}) ∧ E s.disk)
        (fun t ht => ⟨⟨ht.1, rfl⟩, ht.2⟩) fun _ => ?_
      exact Triple.throw fun t ht => ⟨.inr ht.1, ht.2⟩
  · rintro t ⟨rfl, ht⟩
    exact ht

theorem hksRkcInit_of_state {s : RkcSystem} (h : s.cfg.state = true) : (hksRkcInit env).run s = .ok () s := by
  simp only [hksRkcInit, run_bind, run_get, h, if_true, run_pure]

end SetUp

end Huks
