import Huks.Common.AddParams
import Huks.Common.Theorems.Param
import Huks.Common.Theorems.Words

namespace Huks.InPlace

open HksParamSet EStateM

variable {s t : HksParamSet} {p : HksParam} {ps : List HksParam} {e : HksErrorCode}

-- One round appends the param and counts it, or leaves the set as it was.
theorem addParam_run (s : HksParamSet) (p : HksParam) : (addParam p).run s =
    match Huks.addParam s p with
    | .ok t    => .ok ⟨⟩ t
    | .error e => .error e s := by
  rw [addParam, run_bind, run_modify, Huks.addParam]
  dsimp only
  by_cases hb : p.isBytes
  case neg =>
    rw [if_neg hb, if_neg hb]
    rfl
  case pos =>
    rw [if_pos hb, if_pos hb, run_bind, run_get]
    dsimp only
    by_cases hover : isAdditionOverflow (s.paramSetSize + paramSize.toUInt32) p.blobSize
    case neg =>
      rw [if_neg hover, if_neg hover]
      rfl
    case pos =>
      rw [if_pos hover, if_pos hover, run_bind, run_modify]
      dsimp only
      rw [UInt32.add_sub_cancel]
      rfl

theorem addParam_error (h : (addParam p).run s = .error e t) : t = s ∧ Huks.addParam s p = .error e := by
  rw [addParam_run] at h
  cases hp : Huks.addParam s p <;> rw [hp] at h <;> cases h
  exact ⟨rfl, rfl⟩

theorem addParam_eq_ok : (addParam p).run s = .ok ⟨⟩ t ↔ Huks.addParam s p = .ok t := by
  rw [addParam_run]
  cases Huks.addParam s p <;> simp

theorem forM_addParam_cons (s : HksParamSet) (p : HksParam) (ps : List HksParam) :
    ((p :: ps).forM addParam).run s = (addParam p >>= fun _ => ps.forM addParam).run s := rfl

theorem forM_addParam_eq_ok : (ps.forM addParam).run s = .ok ⟨⟩ t ↔ ps.foldlM Huks.addParam s = .ok t := by
  induction ps generalizing s
  case nil => exact ⟨fun h => by cases h; rfl, fun h => by cases h; rfl⟩
  case cons p ps ih =>
    rw [forM_addParam_cons, run_bind_eq_ok, Except.foldlM_cons_eq_ok]
    constructor
    case mp =>
      rintro ⟨_, u, hp, h⟩
      exact ⟨u, addParam_eq_ok.mp hp, ih.mp h⟩
    case mpr =>
      rintro ⟨u, hp, h⟩
      exact ⟨⟨⟩, u, addParam_eq_ok.mpr hp, ih.mpr h⟩

-- What a failing round leaves is what the rounds before it have appended.
theorem forM_addParam_error (h : (ps.forM addParam).run s = .error e t) :
    (∃ p rest, ps = p :: rest ∧ Huks.addParam s p = .error e ∧ t = s) ∨ s.params.length < t.params.length := by
  induction ps generalizing s
  case nil => cases h
  case cons p ps ih =>
    rw [forM_addParam_cons, run_bind] at h
    cases hp : (addParam p).run s <;> rw [hp] at h
    case error =>
      cases h
      obtain ⟨rfl, hp⟩ := addParam_error hp
      exact .inl ⟨p, ps, rfl, hp, rfl⟩
    case ok u =>
      have hlen : u.params.length = s.params.length + 1 := by simp [addParam_ok (addParam_eq_ok.mp hp)]
      obtain ⟨_, _, _, _, rfl⟩ | hlt := ih h
      · exact .inr (by omega)
      · exact .inr (by omega)

-- What the caller may give: the set with `ps` behind the entries, and every byte counted.
structure Added (ps : List HksParam) (s t : HksParamSet) : Prop where
  params : t.params = s.params ++ ps
  cnt    : t.params.length ≤ defaultParamCnt
  fits   : t.base ≤ defaultSize
  size   : t.paramSetSize.toNat = s.paramSetSize.toNat + paramSize * ps.length + blobTotal ps

-- All params of a call or none of them
def AddsAtomically (s : HksParamSet) (ps : List HksParam) : Prop :=
  match (hksAddParams ps).run s with
  | .ok _ t    => Added ps s t
  | .error _ t => t = s

-- The call is refused by the checks or at its first param, or the size of everything fits in 32 bits.
def AddsWhole (s : HksParamSet) (ps : List HksParam) : Prop :=
  checkBeforeAddParams s ps = .ok () →
    s.paramSetSize.toNat + paramSize * ps.length + blobTotal ps < UInt32.size ∨
      ∃ p ∈ ps.head?, UInt32.size ≤ s.paramSetSize.toNat + paramSize + p.blobLength

theorem hksAddParams_run (hc : checkBeforeAddParams s ps = .ok ()) :
    (hksAddParams ps).run s = (ps.forM addParam).run s := by
  rw [hksAddParams, run_bind, run_get]
  dsimp only
  rw [hc]
  rfl

theorem hksAddParams_refused (hc : checkBeforeAddParams s ps = .error e) :
    (hksAddParams ps).run s = .error e s := by
  rw [hksAddParams, run_bind, run_get]
  dsimp only
  rw [hc]
  rfl

theorem checkBeforeAddParams_ok (hc : checkBeforeAddParams s ps = .ok ()) :
    s.paramSetSize.toNat ≤ maxSize ∧ s.params.length + ps.length ≤ defaultParamCnt := by
  rw [checkBeforeAddParams] at hc
  split at hc
  case isTrue => cases hc
  case isFalse hn =>
    simp only [not_or] at hn
    exact ⟨by omega, by omega⟩

-- A param is refused just when it does not fit behind its entry.
theorem addParam_refused (hs : s.paramSetSize.toNat + paramSize < UInt32.size) :
    (∃ e, Huks.addParam s p = .error e) ↔ UInt32.size ≤ s.paramSetSize.toNat + paramSize + p.blobLength := by
  have hadd : (s.paramSetSize + paramSize.toUInt32).toNat = s.paramSetSize.toNat + paramSize :=
    toNat_add_of_lt hs
  have hover := isAdditionOverflow_iff (s.paramSetSize + paramSize.toUInt32) p.blobSize
  rw [hadd] at hover
  rw [Huks.addParam, HksParam.blobLength]
  by_cases hb : p.isBytes
  case neg => simp [hb, hs]
  case pos =>
    rw [if_pos hb, if_pos hb]
    refine Iff.trans ?_ hover
    by_cases ho : isAdditionOverflow (s.paramSetSize + paramSize.toUInt32) p.blobSize
    case pos => simp [ho]
    case neg => simp [ho]

theorem addParam_size (h : Huks.addParam s p = .ok t)
    (hfits : s.paramSetSize.toNat + paramSize + p.blobLength < UInt32.size) :
    t.paramSetSize.toNat = s.paramSetSize.toNat + paramSize + p.blobLength := by
  have hadd : (paramSize + p.blobLength).toUInt32.toNat = paramSize + p.blobLength := by
    apply Nat.mod_eq_of_lt
    change _ < UInt32.size
    omega
  rw [addParam_ok h]
  dsimp only
  rw [toNat_add_of_lt, hadd, Nat.add_assoc]
  omega

theorem foldlM_addParam_fits
    (h : s.paramSetSize.toNat + paramSize * ps.length + blobTotal ps < UInt32.size) :
    ∃ t, ps.foldlM Huks.addParam s = .ok t ∧
      t.paramSetSize.toNat = s.paramSetSize.toNat + paramSize * ps.length + blobTotal ps := by
  induction ps generalizing s
  case nil => exact ⟨s, rfl, rfl⟩
  case cons p ps ih =>
    rw [List.length_cons, blobTotal_cons, Nat.mul_succ] at h
    have hfits : s.paramSetSize.toNat + paramSize + p.blobLength < UInt32.size := by omega
    cases hp : Huks.addParam s p
    case error e => exact absurd ((addParam_refused (by omega)).mp ⟨e, hp⟩) (by omega)
    case ok u =>
      have hu := addParam_size hp hfits
      obtain ⟨t, ht, hsize⟩ := @ih u (by omega)
      refine ⟨t, Except.foldlM_cons_eq_ok.mpr ⟨u, hp, ht⟩, ?_⟩
      rw [hsize, hu, List.length_cons, blobTotal_cons, Nat.mul_succ]
      omega

theorem addsAtomically_iff (s : HksParamSet) (ps : List HksParam) : AddsAtomically s ps ↔ AddsWhole s ps := by
  cases hc : checkBeforeAddParams s ps
  case error e =>
    rw [AddsAtomically, hksAddParams_refused hc]
    exact iff_of_true rfl fun h => by rw [hc] at h; cases h
  case ok =>
    obtain ⟨hsize, hcnt⟩ := checkBeforeAddParams_ok hc
    have hmax : maxSize + paramSize < UInt32.size := by decide
    rw [AddsAtomically, AddsWhole, hksAddParams_run hc, forall_prop_of_true hc]
    constructor
    case mp =>
      cases hr : (ps.forM addParam).run s
      case ok t =>
        intro h
        exact .inl (h.size ▸ t.paramSetSize.toNat_lt)
      case error e t =>
        intro h
        obtain ⟨p, rest, rfl, hp, _⟩ | hlt := forM_addParam_error hr
        · exact .inr ⟨p, rfl, (addParam_refused (by omega)).mp ⟨e, hp⟩⟩
        · exact absurd (congrArg (·.params.length) h) hlt.ne'
    case mpr =>
      rintro (hfits | ⟨p, hp, hover⟩)
      · obtain ⟨t, ht, htsize⟩ := foldlM_addParam_fits hfits
        rw [forM_addParam_eq_ok.mpr ht]
        obtain ⟨hparams, _⟩ := addParams_ok ht
        have hlen : t.params.length ≤ defaultParamCnt := by
          rw [hparams, List.length_append]
          exact hcnt
        refine ⟨hparams, hlen, ?_, htsize⟩
        have hdefault : headerSize + paramSize * defaultParamCnt ≤ defaultSize := by decide
        exact Nat.le_trans (Nat.add_le_add_left (Nat.mul_le_mul_left _ hlen) _) hdefault
      · obtain ⟨rest, rfl⟩ := List.head?_eq_some_iff.mp hp
        obtain ⟨e, he⟩ := (addParam_refused (by omega)).mpr hover
        rw [forM_addParam_cons, run_bind, addParam_run, he]

theorem hksAddParams_eq_ok : (hksAddParams ps).run s = .ok ⟨⟩ t ↔ Huks.hksAddParams s ps = .ok t := by
  rw [Huks.hksAddParams, Except.bind_eq_ok]
  cases hc : checkBeforeAddParams s ps
  case error e => simp [hksAddParams_refused hc]
  case ok =>
    rw [hksAddParams_run hc, forM_addParam_eq_ok]
    simp

-- Every call of a run meets the condition in the set that it gets.
def WholeRun : HksParamSet → List (List HksParam) → Prop
  | _, []          => True
  | s, ps :: calls => AddsWhole s ps ∧ WholeRun ((hksAddParams ps).run s).final calls

theorem construct_cons (s : HksParamSet) (ps : List HksParam) (calls : List (List HksParam)) :
    construct s (ps :: calls) = construct ((hksAddParams ps).run s).final calls := rfl

-- Then the set is the one of the successful calls alone, and every byte of them is counted.
theorem construct_successful {calls : List (List HksParam)} (h : WholeRun s calls) :
    (successful s calls).foldlM Huks.hksAddParams s = .ok (construct s calls) ∧
      (construct s calls).paramSetSize.toNat = s.paramSetSize.toNat +
        paramSize * (successful s calls).flatten.length + blobTotal (successful s calls).flatten := by
  induction calls generalizing s
  case nil => exact ⟨rfl, rfl⟩
  case cons ps calls ih =>
    have hatomic := (addsAtomically_iff s ps).mpr h.1
    have hrest := ih h.2
    rw [AddsAtomically] at hatomic
    rw [construct_cons, successful]
    cases hr : (hksAddParams ps).run s <;> rw [hr] at hatomic hrest <;> dsimp only [Result.final] at hatomic hrest ⊢
    case error e t =>
      subst hatomic
      exact hrest
    case ok t =>
      refine ⟨Except.foldlM_cons_eq_ok.mpr ⟨t, hksAddParams_eq_ok.mp hr, hrest.1⟩, ?_⟩
      rw [hrest.2, hatomic.size, List.flatten_cons, List.length_append, blobTotal_append, Nat.mul_add]
      omega

-- A call adds all of its params or none just when they all fit or already the first one does not. In a
-- run of such calls the set is what its successful calls alone construct, and so is what
-- `HksBuildParamSet` then builds.
theorem hksAddParams_atomic (s : HksParamSet) (ps : List HksParam) (calls : List (List HksParam)) :
    (AddsAtomically s ps ↔ AddsWhole s ps) ∧
    (WholeRun hksInitParamSet calls →
      (successful hksInitParamSet calls).foldlM Huks.hksAddParams hksInitParamSet =
          .ok (construct hksInitParamSet calls) ∧
        (construct hksInitParamSet calls).paramSetSize.toNat =
          buildSize (successful hksInitParamSet calls).flatten) :=
  ⟨addsAtomically_iff s ps, construct_successful⟩

-- The second param is too large, and the first one stays in the set.
theorem hksAddParams_leaves :
    ∃ bytes : Bytes, bytes.length = 0xffffffff ∧
      ¬AddsAtomically hksInitParamSet [.ofUInt32 HksTag.purpose 4, .ofBytes HksTag.nonce bytes] := by
  obtain ⟨bytes, hlen⟩ : ∃ bytes : Bytes, bytes.length = 0xffffffff :=
    ⟨.replicate 0xffffffff 0, List.length_replicate⟩
  refine ⟨bytes, hlen, fun h => ?_⟩
  have hb : (HksParam.ofBytes HksTag.nonce bytes).isBytes = true :=
    (by decide : decide (getTagType HksTag.nonce = .bytes) = true)
  have hblob : (HksParam.ofBytes HksTag.nonce bytes).blobLength = 0xffffffff := by
    rw [HksParam.blobLength, if_pos hb, HksParam.blobSize, HksParam.ofBytes, hlen]
    rfl
  have hcheck : checkBeforeAddParams hksInitParamSet
      [.ofUInt32 HksTag.purpose 4, .ofBytes HksTag.nonce bytes] = .ok () := by
    have hcnt : ¬(hksInitParamSet.paramSetSize.toNat > maxSize ∨ 2 > defaultParamCnt ∨
        0 > defaultParamCnt - 2) := by decide
    rw [checkBeforeAddParams]
    refine (if_neg hcnt).trans (if_neg ?_)
    simp [HksParam.ofBytes, HksParam.ofUInt32, HksParam.isBytes]
    decide
  have hpurpose : (HksParam.ofUInt32 HksTag.purpose 4).blobLength = 0 := by decide
  obtain hfits | ⟨p, hp, hover⟩ := (addsAtomically_iff _ _).mp h hcheck
  · have hhead : hksInitParamSet.paramSetSize.toNat = 8 := rfl
    simp only [blobTotal_cons, hblob, hpurpose, hhead, UInt32.size] at hfits
    omega
  · cases hp
    rw [hpurpose] at hover
    exact absurd hover (by decide)

end Huks.InPlace
