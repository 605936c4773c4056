import Huks.Lib.Triple
import Huks.Rkc.Rkc
import Huks.Rkc.Theorems.KeyFile

namespace Huks

open EStateM

-- Some external call, write or removal does not do what it is asked to do.
def RkcEnv.Faulty (env : RkcEnv) : Prop :=
  (∃ n, env.fault n ≠ none) ∨ (∃ n, env.write n ≠ .done) ∨ ∃ n, env.remove n ≠ .done

-- The data that a keystore file holds when it is valid.
def RkcDisk.ksf {α : Type} (disk : RkcDisk) (extract : Bytes → Except HksErrorCode α) (name : KsfName) :
    Option α :=
  (disk name).bind fun bytes =>
    if bytes.length = 0 ∨ hksKsfBufLen < bytes.length then none else (extract bytes).toOption

-- What a write of a file with `a` can leave: `a` is all that can be read from it.
def KsfPart {α : Type} (extract : Bytes → Except HksErrorCode α) (a : α) (content : Bytes) : Prop :=
  ∀ b, extract content = .ok b → b = a

-- `P` is about the globals and the files and not about the number of calls.
abbrev TickFree (P : RkcSystem → Prop) : Prop := ∀ s n, P s → P { s with tick := n }

section Calls

variable {α : Type} {P : RkcSystem → Prop} {x : RkcM α} {Q : α → RkcSystem → Prop}
  {E : RkcStop → RkcSystem → Prop}

theorem attemptRet_triple (h : Triple P x Q E) :
    Triple P (attemptRet x)
      (fun r s => (∃ a, r = .ok a ∧ Q a s) ∨ ∃ e, r = .error e ∧ E (.ret e) s)
      (fun stop s => stop = .crash ∧ E .crash s) := by
  intro s hs
  have h := h s hs
  simp only [attemptRet, EStateM.run] at h ⊢
  cases hr : x s
  case ok a t =>
    rw [hr] at h
    exact .inl ⟨a, rfl, h⟩
  case error stop t =>
    rw [hr] at h
    cases stop
    case crash => exact ⟨rfl, h⟩
    case ret e => exact .inr ⟨e, rfl, h⟩

-- What a failure that the caller ignores leaves is all that it leaves.
theorem discard_attemptRet_triple {R : RkcSystem → Prop} (h : Triple P x (fun _ => R) E)
    (hR : ∀ e s, E (.ret e) s → R s) :
    Triple P (discard (attemptRet x)) (fun _ => R) fun stop s => stop = .crash ∧ E .crash s := by
  refine (attemptRet_triple h).bind fun r => ?_
  refine Triple.pure fun s hs => ?_
  obtain ⟨_, _, hs⟩ | ⟨e, _, hs⟩ := hs
  · exact hs
  · exact hR e s hs

theorem orRet_triple (h : Triple P x Q E) (e : HksErrorCode) :
    Triple P (orRet x e) Q fun stop s => ∃ stop', E stop' s ∧ (stop = .crash ↔ stop' = .crash) := by
  refine Triple.bind ((attemptRet_triple h).weaken_error ?_) fun r => ?_
  · rintro _ s ⟨rfl, hs⟩
    exact ⟨_, hs, Iff.rfl⟩
  · refine .of_or (.of_exists fun a => ?_) (.of_exists fun e' => ?_)
    · refine .of_pure fun hr => ?_
      rw [hr]
      exact Triple.pure fun s hs => hs
    · refine .of_pure fun hr => ?_
      rw [hr]
      exact Triple.throw fun s hs => ⟨_, hs, by simp⟩

theorem ofResult_triple {y : Except HksErrorCode α} :
    Triple P (ofResult y) (fun a s => P s ∧ y = .ok a) (fun stop s => P s ∧ ∃ e, stop = .ret e ∧ y = .error e) := by
  cases y
  case ok a => exact Triple.pure fun s hs => ⟨hs, rfl⟩
  case error e => exact Triple.throw fun s hs => ⟨hs, e, rfl, rfl⟩

variable {env : RkcEnv}

-- What a call can only do when something outside fails.
abbrev Fails (env : RkcEnv) (P : RkcSystem → Prop) : RkcStop → RkcSystem → Prop :=
  fun _ s => env.Faulty ∧ P s

theorem external_triple (hP : TickFree P) : Triple P (external env) (fun _ => P) (Fails env P) := by
  refine Triple.bind (Q := fun _ => P) (fun s hs => hP s _ hs) fun n => ?_
  cases hn : env.fault n
  case none => exact Triple.pure fun s hs => hs
  case some stop =>
    refine Triple.throw fun s hs => ⟨.inl ⟨n, ?_⟩, hs⟩
    rw [hn]
    exact nofun

theorem discard_triple {Q : RkcSystem → Prop} (h : Triple P x (fun _ => Q) E) :
    Triple P (discard x) (fun _ => Q) E := h.bind fun _ => Triple.pure fun _ => id

theorem orRet_fails {R : RkcSystem → Prop} (h : Triple P x Q (Fails env R)) (e : HksErrorCode) :
    Triple P (orRet x e) Q (Fails env R) :=
  (orRet_triple h e).weaken_error fun _ _ ⟨_, hs, _⟩ => hs

theorem attemptRet_fails {R : RkcSystem → Prop} (h : Triple P x (fun _ => R) (Fails env R)) :
    Triple P (discard (attemptRet x)) (fun _ => R) (Fails env R) :=
  (discard_attemptRet_triple h fun _ _ hs => hs.2).weaken_error fun _ _ hs => hs.2

theorem hksMalloc_triple (hP : TickFree P) (e : HksErrorCode) :
    Triple P (hksMalloc env e) (fun _ => P) (Fails env P) :=
  discard_triple (orRet_fails (external_triple hP) e)

theorem getProcessInfo_triple (hP : TickFree P) :
    Triple P (getProcessInfo env) (fun _ => P) (Fails env P) :=
  discard_triple (external_triple hP)

theorem hksRkcBuildParamSet_triple (hP : TickFree P) :
    Triple P (hksRkcBuildParamSet env) (fun _ => P) (Fails env P) :=
  discard_triple (external_triple hP)

theorem hksCryptoHalHash_triple (hP : TickFree P) :
    Triple P (hksCryptoHalHash env) (fun _ => P) (Fails env P) :=
  discard_triple (external_triple hP)

theorem hksCryptoHalFillPrivRandom_triple (hP : TickFree P) (size : Nat) :
    Triple P (hksCryptoHalFillPrivRandom env size) (fun _ => P) (Fails env P) :=
  (external_triple hP).bind fun _ => Triple.pure fun _ => id

end Calls

section Files

variable {α : Type} {P Q : RkcSystem → Prop} {env : RkcEnv}
  {extract : Bytes → Except HksErrorCode α} {fill : α → Except HksErrorCode Bytes}

-- The ways a call on a file fails: something outside does, or what it found is an error.
abbrev FailsOr (env : RkcEnv) (P : RkcSystem → Prop) (reason : Prop) : RkcStop → RkcSystem → Prop :=
  fun stop s => P s ∧ (env.Faulty ∨ (∃ e, stop = .ret e) ∧ reason)

theorem fails_or {β : Type} {x : RkcM β} {R : β → RkcSystem → Prop} {p : Prop}
    (h : Triple P x R (Fails env Q)) : Triple P x R (FailsOr env Q p) :=
  h.weaken_error fun _ _ hs => ⟨hs.2, .inl hs.1⟩

theorem hksReadKsf_triple (hP : TickFree P) (d : RkcDisk) (name : KsfName) :
    Triple (fun s => P s ∧ s.disk = d) (hksReadKsf env extract (some name))
      (fun a s => d.ksf extract name = some a ∧ P s ∧ s.disk = d)
      (FailsOr env (fun s => P s ∧ s.disk = d) (d.ksf extract name = none)) := by
  have hfree : TickFree fun s => P s ∧ s.disk = d := fun s n hs => ⟨hP s n hs.1, hs.2⟩
  refine Triple.bind (Q := fun bytes s => (d name = some bytes ∧ bytes.length ≠ 0 ∧
    bytes.length ≤ hksKsfBufLen) ∧ P s ∧ s.disk = d) ?_ fun bytes => .of_pure fun ⟨hname, hne, hle⟩ => ?_
  · refine Triple.bind (fails_or (hksMalloc_triple hfree _)) fun _ => ?_
    refine Triple.bind (fails_or (getProcessInfo_triple hfree)) fun _ => ?_
    refine Triple.bind (fails_or (hksRkcBuildParamSet_triple hfree)) fun _ => ?_
    refine Triple.bind (fails_or (external_triple hfree)) fun _ => ?_
    refine Triple.get_bind fun s => ?_
    by_cases hd : s.disk = d
    case neg => exact fun t ht => absurd (ht.1 ▸ ht.2.2) hd
    case pos =>
      rw [hd]
      cases hname : d name
      case none =>
        refine Triple.throw fun t ht => ⟨ht.2, .inr ⟨⟨_, rfl⟩, ?_⟩⟩
        rw [RkcDisk.ksf, hname]
        rfl
      case some bytes =>
        refine .ite (fun h0 => ?_) fun h0 => .ite (fun hlt => ?_) fun hlt => ?_
        · refine Triple.throw fun t ht => ⟨ht.2, .inr ⟨⟨_, rfl⟩, ?_⟩⟩
          rw [RkcDisk.ksf, hname, Option.bind_some, if_pos (.inl h0)]
        · refine Triple.throw fun t ht => ⟨ht.2, .inr ⟨⟨_, rfl⟩, ?_⟩⟩
          rw [RkcDisk.ksf, hname, Option.bind_some, if_pos (.inr hlt)]
        · exact Triple.pure fun t ht => ⟨⟨rfl, h0, Nat.le_of_not_lt hlt⟩, ht.2⟩
  · refine Triple.bind (fails_or (hksCryptoHalHash_triple hfree)) fun _ => ?_
    have hksf : d.ksf extract name = (extract bytes).toOption := by
      rw [RkcDisk.ksf, hname, Option.bind_some, if_neg (by omega)]
    refine ofResult_triple.weaken (fun _ => id) (fun a s hs => ⟨?_, hs.1⟩) ?_
    · rw [hksf, hs.2]
      rfl
    · rintro _ s ⟨hs, e, rfl, he⟩
      refine ⟨hs, .inr ⟨⟨e, rfl⟩, ?_⟩⟩
      rw [hksf, he]
      rfl

-- Writing a file keeps `P` when `P` bears every part of the file.
theorem hksWriteKsf_triple (hP : TickFree P) {a : α} {name : KsfName}
    (hfill : ∃ buf, fill a = .ok buf ∧ KsfStores extract buf a)
    (hpart : ∀ s content, P s → KsfPart extract a content → P (s.store name (some content))) :
    Triple P (hksWriteKsf env fill (some name) a)
      (fun _ s => P s ∧ s.disk.ksf extract name = some a) (Fails env P) := by
  obtain ⟨buf, hbuf, hstores⟩ := hfill
  have hwhole (s : RkcSystem) : (s.store name (some buf)).disk.ksf extract name = some a := by
    have hlen := hstores.length
    simp only [RkcSystem.store, RkcDisk.set, RkcDisk.ksf, if_true, Option.bind_some, hstores.whole]
    rw [if_neg (by simp only [hlen, hksKsfBufLen]; omega)]
    rfl
  have hcut (k : Nat) : KsfPart extract a (buf.take k) := hstores.cut k
  refine Triple.bind (hksMalloc_triple hP _) fun _ => ?_
  refine Triple.bind (hksCryptoHalHash_triple hP) fun _ => ?_
  rw [hbuf]
  refine Triple.bind (Q := fun b s => b = buf ∧ P s) (Triple.pure fun s hs => ⟨rfl, hs⟩) fun b =>
    .of_pure fun hb => ?_
  rw [hb]
  refine Triple.bind (getProcessInfo_triple hP) fun _ => ?_
  refine Triple.bind (hksRkcBuildParamSet_triple hP) fun _ => ?_
  refine Triple.bind (external_triple hP) fun n => ?_
  cases hn : env.write n
  case done =>
    refine Triple.modify fun s hs => ⟨?_, hwhole s⟩
    have := hpart s _ hs (hcut buf.length)
    rwa [List.take_length] at this
  case cut left stop =>
    have hfaulty : env.Faulty := .inr (.inl ⟨n, by rw [hn]; exact fun h => by cases h⟩)
    cases left
    case none => exact Triple.throw fun s hs => ⟨hfaulty, hs⟩
    case some k =>
      refine Triple.bind (Q := fun _ => P) (Triple.modify fun s hs => hpart s _ hs (hcut k)) fun _ => ?_
      exact Triple.throw fun s hs => ⟨hfaulty, hs⟩

theorem hksManageStoreDeleteKeyBlob_triple (hP : TickFree P) {name : KsfName}
    (hnone : ∀ s, P s → P (s.store name none)) :
    Triple P (Rkc.hksManageStoreDeleteKeyBlob env name) (fun _ => P) (Fails env P) := by
  refine Triple.bind (external_triple hP) fun n => ?_
  cases hn : env.remove n
  case done => exact Triple.modify hnone
  case cut removed stop =>
    have hfaulty : env.Faulty := .inr (.inr ⟨n, by rw [hn]; exact nofun⟩)
    cases removed
    case false => exact Triple.throw fun s hs => ⟨hfaulty, hs⟩
    case true =>
      refine Triple.bind (Q := fun _ => P) (Triple.modify hnone) fun _ => ?_
      exact Triple.throw fun s hs => ⟨hfaulty, hs⟩

-- What reading a file gave, and what that says about the file.
def ReadGave (env : RkcEnv) (extract : Bytes → Except HksErrorCode α) (d : RkcDisk) (name : KsfName) :
    Except HksErrorCode α → Prop
  | .ok a    => d.ksf extract name = some a
  | .error _ => env.Faulty ∨ d.ksf extract name = none

theorem readKsfs_triple (hP : TickFree P) (d : RkcDisk) (names : List KsfName) :
    Triple (fun s => P s ∧ s.disk = d)
      ((names.map some).mapM fun name => attemptRet (hksReadKsf env extract name))
      (fun rets s => List.Forall₂ (ReadGave env extract d) names rets ∧ P s ∧ s.disk = d)
      (Fails env fun s => P s ∧ s.disk = d) := by
  induction names
  case nil => exact Triple.pure fun s hs => ⟨.nil, hs⟩
  case cons name names ih =>
    rw [List.map_cons, List.mapM_cons]
    refine Triple.bind (Q := fun r s => ReadGave env extract d name r ∧ P s ∧ s.disk = d) ?_ fun r =>
      .of_pure fun hr => ih.bind fun rets => .of_pure fun hrets => ?_
    · refine (attemptRet_triple (hksReadKsf_triple hP d name)).weaken (fun _ => id) ?_ ?_
      · rintro r s (⟨a, rfl, ha, hs⟩ | ⟨e, rfl, hs, he⟩)
        · exact ⟨ha, hs⟩
        · exact ⟨he.imp_right And.right, hs⟩
      · rintro stop s ⟨rfl, hs, hfaulty | ⟨⟨e, he⟩, _⟩⟩
        · exact ⟨hfaulty, hs⟩
        · cases he
    · exact Triple.pure fun s hs => ⟨.cons hr hrets, hs⟩

theorem findSome_readGave {d : RkcDisk} {names : List KsfName} {rets : List (Except HksErrorCode α)}
    (h : List.Forall₂ (ReadGave env extract d) names rets) {a : α}
    (ha : rets.findSome? Except.toOption = some a) :
    ∃ name ∈ names, (name, .ok a) ∈ names.zip rets ∧ d.ksf extract name = some a := by
  induction h
  case nil => cases ha
  case cons name r names rets hr _ ih =>
    cases r
    case ok b =>
      cases ha
      exact ⟨name, List.mem_cons_self, List.mem_cons_self, hr⟩
    case error e =>
      have ⟨name', hmem, hzip, hksf⟩ := ih ha
      exact ⟨name', List.mem_cons_of_mem _ hmem, List.mem_cons_of_mem _ hzip, hksf⟩

theorem findSome_readGave_none {d : RkcDisk} {names : List KsfName}
    {rets : List (Except HksErrorCode α)} (h : List.Forall₂ (ReadGave env extract d) names rets)
    (hnone : rets.findSome? Except.toOption = none) :
    env.Faulty ∨ ∀ name ∈ names, d.ksf extract name = none := by
  induction h
  case nil => exact .inr nofun
  case cons name r names rets hr _ ih =>
    cases r
    case ok b => cases hnone
    case error e =>
      obtain hfaulty | hr := hr
      · exact .inl hfaulty
      · refine (ih hnone).imp_right fun ih => ?_
        exact List.forall_mem_cons.mpr ⟨hr, ih⟩

theorem readValidKsf_triple (hP : TickFree P) (d : RkcDisk) (names : List KsfName) :
    Triple (fun s => P s ∧ s.disk = d) (readValidKsf env extract (names.map some))
      (fun p s => (∃ name ∈ names, (name, .ok p.2) ∈ names.zip p.1 ∧ d.ksf extract name = some p.2) ∧
        P s ∧ s.disk = d)
      (FailsOr env (fun s => P s ∧ s.disk = d) (∀ name ∈ names, d.ksf extract name = none)) := by
  refine Triple.bind (fails_or (readKsfs_triple hP d names)) fun rets => .of_pure fun hrets => ?_
  cases hfind : rets.findSome? Except.toOption
  case none =>
    refine Triple.throw fun s hs => ⟨hs, ?_⟩
    exact (findSome_readGave_none hrets hfind).imp_right fun h => ⟨⟨_, rfl⟩, h⟩
  case some a => exact Triple.pure fun s hs => ⟨findSome_readGave hrets hfind, hs⟩

theorem zip_functional {β : Type} {names : List KsfName} (h : names.Nodup) {rets : List β}
    {name : KsfName} {a b : β} (ha : (name, a) ∈ names.zip rets) (hb : (name, b) ∈ names.zip rets) :
    a = b := by
  induction names generalizing rets
  case nil => cases ha
  case cons n names ih =>
    cases rets
    case nil => cases ha
    case cons r rets =>
      have ⟨hn, hnames⟩ := List.nodup_cons.mp h
      rw [List.zip_cons_cons, List.mem_cons, Prod.mk.injEq] at ha hb
      obtain ⟨rfl, rfl⟩ | ha := ha <;> obtain ⟨heq, rfl⟩ | hb := hb
      · rfl
      · exact absurd (List.of_mem_zip hb).1 hn
      · exact absurd (heq ▸ (List.of_mem_zip ha).1) hn
      · exact ih hnames ha hb

theorem ksf_set_ne (d : RkcDisk) {name name' : KsfName} (h : name' ≠ name) (content : Option Bytes) :
    (d.set name content).ksf extract name' = d.ksf extract name' := by
  simp only [RkcDisk.set, RkcDisk.ksf, if_neg h]

theorem ksf_store_ne (s : RkcSystem) {name name' : KsfName} (h : name' ≠ name) (content : Option Bytes) :
    (s.store name content).disk.ksf extract name' = s.disk.ksf extract name' :=
  ksf_set_ne s.disk h content

-- A part of a file with `a` gives `a` or nothing.
theorem ksf_set_part (d : RkcDisk) (name : KsfName) {a b : α} {content : Bytes}
    (h : KsfPart extract a content) (hb : (d.set name (some content)).ksf extract name = some b) :
    b = a := by
  simp only [RkcDisk.set, RkcDisk.ksf, if_true, Option.bind_some] at hb
  split at hb
  case isTrue => cases hb
  case isFalse =>
    apply h
    cases hx : extract content
    case error => rw [hx] at hb; cases hb
    case ok c => rw [hx] at hb; cases hb; rfl

-- Reading all files of a kind keeps `P` when `P` bears that a file is replaced by a part of
-- one with the data of another.
theorem readAllKsf_triple (hP : TickFree P) (d : RkcDisk) {names : List KsfName} (hnodup : names.Nodup)
    (hfill : ∀ a, ∃ buf, fill a = .ok buf ∧ KsfStores extract buf a)
    (hpart : ∀ s, ∀ name ∈ names, ∀ j ∈ names, ∀ a content, P s → j ≠ name →
      s.disk.ksf extract j = some a → KsfPart extract a content → P (s.store name (some content))) :
    Triple (fun s => P s ∧ s.disk = d) (readAllKsf env extract fill (names.map some))
      (fun a s => (∃ j ∈ names, d.ksf extract j = some a ∧ s.disk.ksf extract j = some a) ∧ P s)
      (fun _ s => (env.Faulty ∧ P s) ∨
        (P s ∧ s.disk = d) ∧ ∀ name ∈ names, d.ksf extract name = none) := by
  refine Triple.bind ((readValidKsf_triple hP d names).weaken_error ?_) fun ⟨rets, a⟩ =>
    .of_pure fun ⟨j, hj, hzip, hksf⟩ => ?_
  · rintro stop s ⟨hs, hfaulty | ⟨_, hnone⟩⟩
    · exact .inl ⟨hfaulty, hs.1⟩
    · exact .inr ⟨hs, hnone⟩
  · have hfree : TickFree fun s => P s ∧ s.disk.ksf extract j = some a := fun s n hs => ⟨hP s n hs.1, hs.2⟩
    refine Triple.bind (Q := fun _ s => P s ∧ s.disk.ksf extract j = some a) ?_ fun _ =>
      Triple.pure fun s hs => ⟨⟨j, hj, hksf, hs.2⟩, hs.1⟩
    refine Triple.strengthen_pre (S := fun s => P s ∧ s.disk.ksf extract j = some a) ?_
      fun s hs => ⟨hs.1, hs.2 ▸ hksf⟩
    refine Triple.forM fun p hp => ?_
    rw [List.zip_map_left] at hp
    obtain ⟨⟨name, r⟩, hmem, rfl⟩ := List.mem_map.mp hp
    refine .ite (fun hnone => ?_) fun _ => Triple.pure fun s hs => hs
    have hne : j ≠ name := by
      rintro rfl
      rw [zip_functional hnodup hmem hzip] at hnone
      cases hnone
    refine (attemptRet_fails ((hksWriteKsf_triple hfree (hfill a) ?_).weaken_post ?_)).weaken_error ?_
    · intro s content hs hcontent
      have hname := (List.of_mem_zip hmem).1
      refine ⟨hpart s name hname j hj a content hs.1 hne hs.2 hcontent, ?_⟩
      rw [ksf_store_ne s hne]
      exact hs.2
    · exact fun _ _ hs => hs.1
    · exact fun _ _ hs => .inl ⟨hs.1, hs.2.1⟩

-- Writing one file of each name leaves the data in all of them.
theorem writeKsfs_triple (hP : TickFree P) {a : α} {names : List KsfName} (hnodup : names.Nodup)
    (hfill : ∃ buf, fill a = .ok buf ∧ KsfStores extract buf a) (e : HksErrorCode)
    (hpart : ∀ s, ∀ name ∈ names, ∀ content, P s → KsfPart extract a content →
      P (s.store name (some content))) :
    Triple P ((names.map some).forM fun name => orRet (hksWriteKsf env fill name a) e)
      (fun _ s => (∀ name ∈ names, s.disk.ksf extract name = some a) ∧ P s) (Fails env P) := by
  induction names generalizing P
  case nil => exact Triple.pure fun s hs => ⟨nofun, hs⟩
  case cons name names ih =>
    have ⟨hname, hnames⟩ := List.nodup_cons.mp hnodup
    have hfree : TickFree fun s => P s ∧ s.disk.ksf extract name = some a :=
      fun s n hs => ⟨hP s n hs.1, hs.2⟩
    refine Triple.bind (orRet_fails (hksWriteKsf_triple hP hfill fun s content hs =>
      hpart s name List.mem_cons_self content hs) e) fun _ => ?_
    refine (ih hfree hnames fun s name' hmem content hs hcontent => ?_).weaken (fun _ => id) ?_ ?_
    · refine ⟨hpart s name' (List.mem_cons_of_mem _ hmem) content hs.1 hcontent, ?_⟩
      rw [ksf_store_ne s (show name ≠ name' from fun h => hname (h ▸ hmem))]
      exact hs.2
    · exact fun _ s hs => ⟨List.forall_mem_cons.mpr ⟨hs.2.2, hs.1⟩, hs.2.1⟩
    · exact fun _ s hs => ⟨hs.1, hs.2.1⟩

-- Trying to write one file of each name leaves the data in one unless all of it fails.
theorem tryWriteKsfs_triple (hP : TickFree P) {a : α} {names : List KsfName} (hnodup : names.Nodup)
    (hfill : ∃ buf, fill a = .ok buf ∧ KsfStores extract buf a)
    (hpart : ∀ s, ∀ name ∈ names, ∀ content, P s → KsfPart extract a content →
      P (s.store name (some content))) :
    Triple P ((names.map some).mapM fun name => attemptRet (hksWriteKsf env fill name a))
      (fun rets s => (if rets.all (·.toOption.isNone) then names = [] ∨ env.Faulty
        else ∃ name ∈ names, s.disk.ksf extract name = some a) ∧ P s) (Fails env P) := by
  induction names generalizing P
  case nil => exact Triple.pure fun s hs => ⟨.inl rfl, hs⟩
  case cons name names ih =>
    have ⟨hname, hnames⟩ := List.nodup_cons.mp hnodup
    rw [List.map_cons, List.mapM_cons]
    refine Triple.bind (Q := fun r s => (r.toOption.isNone = true → env.Faulty) ∧ P s ∧
      (r.toOption.isNone = false → s.disk.ksf extract name = some a)) ?_ fun r => .of_pure fun hr => ?_
    · refine (attemptRet_triple (hksWriteKsf_triple hP hfill fun s content hs =>
        hpart s name List.mem_cons_self content hs)).weaken (fun _ => id) ?_ fun _ _ hs => hs.2
      rintro r s (⟨_, rfl, hs, hksf⟩ | ⟨e, rfl, hfaulty, hs⟩)
      · exact ⟨nofun, hs, fun _ => hksf⟩
      · exact ⟨fun _ => hfaulty, hs, nofun⟩
    · have hfree : TickFree fun s => P s ∧
          (r.toOption.isNone = false → s.disk.ksf extract name = some a) :=
        fun s n hs => ⟨hP s n hs.1, hs.2⟩
      refine Triple.bind ((ih hfree hnames fun s name' hmem content hs hcontent => ?_).weaken_error ?_)
        fun rets => Triple.pure fun s hs => ⟨?_, hs.2.1⟩
      · refine ⟨hpart s name' (List.mem_cons_of_mem _ hmem) content hs.1 hcontent, ?_⟩
        rw [ksf_store_ne s (show name ≠ name' from fun h => hname (h ▸ hmem))]
        exact hs.2
      · exact fun _ s hs => ⟨hs.1, hs.2.1⟩
      · rw [List.all_cons]
        cases hsome : r.toOption.isNone
        case true =>
          rw [Bool.true_and]
          split
          case isTrue => exact .inr (hr hsome)
          case isFalse hall =>
            have hs := hs.1
            rw [if_neg hall] at hs
            have ⟨name', hmem, hksf⟩ := hs
            exact ⟨name', List.mem_cons_of_mem _ hmem, hksf⟩
        case false => exact ⟨name, List.mem_cons_self, hs.2.2 hsome⟩

end Files

end Huks
