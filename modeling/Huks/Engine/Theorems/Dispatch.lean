import Huks.Common.Theorems.Tags
import Huks.Engine.KeyOperate
import Huks.Engine.Theorems.RuntimeParamSet

namespace Huks

open HksKeyPurpose

-- The tags by which the handlers choose a routine and its parameters.
def routineTags : List UInt32 :=
  [HksTag.purpose, HksTag.algorithm, HksTag.digest, HksTag.padding, HksTag.blockMode]

theorem uint_of_routineTags {tag : UInt32} (h : tag ∈ routineTags) : getTagType tag = .uint := by
  have hall : routineTags.all (getTagType · = .uint) := by decide
  exact of_decide_eq_true (List.all_eq_true.mp hall tag h)

theorem ne_of_routineTags {tag tag' : UInt32} (h : tag ∈ routineTags) (h' : tag' ∉ routineTags) :
    tag' ≠ tag := by
  rintro rfl
  exact h' h

-- All that read the set see the same entry with such a tag.
structure Readable (s : HksParamSet) : Prop where
  check  : hksCheckParamSet s s.paramSetSize = .ok ()
  single : ∀ tag ∈ routineTags, Single tag s.params

theorem Readable.getUInt32 {s : HksParamSet} (r : Readable s) {tag : UInt32} {p : HksParam}
    (hmem : tag ∈ routineTags) (hp : p ∈ s.params) (ht : p.tag = tag) :
    getUInt32 s tag = .ok p.uint32Param := by
  have hfind := (r.single tag hmem).find? hp ht
  have htype : getTagType tag ≠ .bytes := uint_of_routineTags hmem ▸ by decide
  refine getUInt32_eq_ok.mpr ⟨p, ?_, rfl⟩
  simp only [hksGetParam, r.check, hfind, htype, false_and, if_false]

theorem single_of_sublist {tag : UInt32} {ps qs : List HksParam} (h : qs.Sublist ps)
    (hs : Single tag ps) : Single tag qs :=
  Nat.le_trans (h.filter _).length_le hs

theorem readable_of_build {paramSet s : HksParamSet}
    (h : buildRuntimeParamSet (some paramSet) = .ok s)
    (ht : hksCheckParamSetTag paramSet = .ok ()) : Readable s where
  check  := (buildRuntimeParamSet_words h).2
  single tag hmem := by
    have hwords : s.words = paramWords (paramSet.params ++ [⟨HksTag.cryptoCtx, 0, .null⟩]) := by
      rw [paramWords_append]
      exact (buildRuntimeParamSet_words h).1
    have hctx : HksTag.cryptoCtx ≠ tag := ne_of_routineTags hmem (by decide)
    refine single_of_words hwords ?_
    exact (single_append (by simpa using hctx)).mpr
      (single_of_nodup (hksCheckParamSetTag_eq_ok.mp ht).2 tag)

-- The runtime param set has what the param set of the call has.
theorem buildRuntimeParamSet_getUInt32 {paramSet s : HksParamSet}
    (h : buildRuntimeParamSet (some paramSet) = .ok s) {tag : UInt32} (hmem : tag ∈ routineTags) :
    getUInt32 s tag = getUInt32 paramSet tag := by
  have ⟨hwords, hcheck⟩ := buildRuntimeParamSet_words h
  have ⟨_, hexist, _⟩ := Except.bind_eq_ok.mp h
  have ⟨_, hcheck', _⟩ := Except.bind_eq_ok.mp hexist
  have htype : getTagType tag ≠ .bytes := uint_of_routineTags hmem ▸ by decide
  have hctx : HksTag.cryptoCtx ≠ tag := ne_of_routineTags hmem (by decide)
  rw [getUInt32_word, getUInt32_word, hksGetParam_word hcheck htype, hksGetParam_word hcheck' htype,
    hwords, List.find?_append]
  simp [hctx]

theorem readable_nonceClosed : NonceClosed Readable := by
  intro s t nonce r hcheck h
  have ⟨u, hu, h⟩ := Except.bind_eq_ok.mp h
  have ⟨v, hv, h⟩ := Except.bind_eq_ok.mp h
  have ⟨hwords, hcheck⟩ := hksBuildParamSet_words h
  refine ⟨hcheck, fun tag hmem => ?_⟩
  rw [hksAddParams_words hv, foldlM_hksAddParams_words hu, words_hksInitParamSet, List.nil_append,
    ← paramWords_append] at hwords
  refine single_of_words hwords ((single_append ?_).mpr (single_of_sublist List.filter_sublist ?_))
  · intro p hp
    simp only [List.mem_cons, List.not_mem_nil, or_false] at hp
    rcases hp with rfl | rfl
    · exact ne_of_routineTags hmem (show HksTag.nonce ∉ routineTags by decide)
    · exact ne_of_routineTags hmem (show HksTag.aesGcmNeedRegenerateNonce ∉ routineTags by decide)
  · exact single_of_words (words_entries s) (r.single tag hmem)

-- The loop starts with `value`, and every entry with `tag` replaces it.
def Taken (tag value : UInt32) (ps : List HksParam) (value' : UInt32) : Prop :=
  value' = value ∨ ∃ p ∈ ps, p.tag = tag ∧ p.uint32Param = value'

theorem taken_head (tag value : UInt32) (p : HksParam) (ps : List HksParam) :
    Taken tag value (p :: ps) (if p.tag = tag then p.uint32Param else value) := by
  split
  case isTrue ht => exact .inr ⟨p, List.mem_cons_self, ht, rfl⟩
  case isFalse => exact .inl rfl

theorem Taken.cons {tag value value' : UInt32} {p : HksParam} {ps : List HksParam}
    (h : Taken tag (if p.tag = tag then p.uint32Param else value) ps value') :
    Taken tag value (p :: ps) value' := by
  rcases h with rfl | ⟨q, hq, ht, hvalue⟩
  · exact taken_head tag value p ps
  · exact .inr ⟨q, List.mem_cons_of_mem _ hq, ht, hvalue⟩

theorem findPurposeAndAlgorithm_ok {ps : List HksParam} {pur alg pur' alg' : UInt32}
    (h : findPurposeAndAlgorithm pur alg ps = some (pur', alg')) :
    (pur' ≠ 0 ∧ alg' ≠ 0) ∧ Taken HksTag.purpose pur ps pur' ∧
      Taken HksTag.algorithm alg ps alg' := by
  induction ps generalizing pur alg
  case nil => cases h
  case cons p ps ih =>
    dsimp only [findPurposeAndAlgorithm] at h
    by_cases hne : (if p.tag = HksTag.purpose then p.uint32Param else pur) ≠ 0 ∧
      (if p.tag = HksTag.algorithm then p.uint32Param else alg) ≠ 0
    case pos =>
      rw [if_pos hne] at h
      obtain ⟨rfl, rfl⟩ := Prod.mk.inj (Option.some.inj h)
      exact ⟨hne, taken_head .., taken_head ..⟩
    case neg =>
      rw [if_neg hne] at h
      have ⟨hne', hpur, halg⟩ := ih h
      exact ⟨hne', hpur.cons, halg.cons⟩

-- Whether the second value for the handlers is the digest.
def ByDigest (pur algParam : UInt32) : Prop :=
  algParam = HksKeyAlg.hmac ∨ algParam = HksKeyAlg.sm3 ∨ pur = sign ∨ pur = verify

-- The handlers are called with `pur` and `alg` for a set that names `algParam`.
structure Dispatched (s : HksParamSet) (pur algParam alg : UInt32) : Prop where
  purpose   : getUInt32 s HksTag.purpose = .ok pur
  algorithm : getUInt32 s HksTag.algorithm = .ok algParam
  digest    : ByDigest pur algParam → getUInt32 s HksTag.digest = .ok alg
  alg       : ¬ByDigest pur algParam → alg = algParam

theorem Readable.dispatched {s : HksParamSet} (r : Readable s) {pur alg : UInt32}
    (h : getPurposeAndAlgorithm s = .ok (pur, alg)) : ∃ algParam, Dispatched s pur algParam alg := by
  unfold getPurposeAndAlgorithm at h
  split at h
  case h_1 => cases h
  case h_2 pur' algParam hfind =>
    have ⟨⟨hpur, halg⟩, hpurpose, halgorithm⟩ := findPurposeAndAlgorithm_ok hfind
    have ⟨p, hp, hpt, hpv⟩ := hpurpose.resolve_left hpur
    have ⟨q, hq, hqt, hqv⟩ := halgorithm.resolve_left halg
    have hpurpose := hpv ▸ r.getUInt32 (by decide) hp hpt
    have halgorithm := hqv ▸ r.getUInt32 (by decide) hq hqt
    split at h
    case isTrue hby =>
      split at h
      case h_1 => cases h
      case h_2 d hd =>
        cases h
        refine ⟨algParam, hpurpose, halgorithm, fun _ => ?_, fun hn => absurd hby hn⟩
        exact r.getUInt32 (by decide) (List.mem_of_find?_eq_some hd) (by simpa using List.find?_some hd)
    case isFalse hby =>
      cases h
      exact ⟨_, hpurpose, halgorithm, fun h => absurd h hby, fun _ => rfl⟩

-- A set with the same values is dispatched in the same way.
theorem Dispatched.congr {s t : HksParamSet} {pur algParam alg : UInt32}
    (d : Dispatched s pur algParam alg)
    (h : ∀ tag ∈ routineTags, getUInt32 t tag = getUInt32 s tag) : Dispatched t pur algParam alg where
  purpose   := (h _ (by decide)).trans d.purpose
  algorithm := (h _ (by decide)).trans d.algorithm
  digest hd := (h _ (by decide)).trans (d.digest hd)
  alg       := d.alg

-- The handlers get for the runtime param set what the param set of the call says.
theorem dispatched_of_build {paramSet s : HksParamSet} {pur alg : UInt32}
    (h : buildRuntimeParamSet (some paramSet) = .ok s)
    (ht : hksCheckParamSetTag paramSet = .ok ())
    (hdispatch : getPurposeAndAlgorithm paramSet = .ok (pur, alg)) :
    ∃ algParam, Dispatched s pur algParam alg ∧
      getUInt32 paramSet HksTag.algorithm = .ok algParam := by
  have ⟨_, hexist, _⟩ := Except.bind_eq_ok.mp h
  have ⟨_, hcheck, _⟩ := Except.bind_eq_ok.mp hexist
  have r : Readable paramSet :=
    ⟨hcheck, fun tag _ => single_of_nodup (hksCheckParamSetTag_eq_ok.mp ht).2 tag⟩
  have ⟨algParam, d⟩ := r.dispatched hdispatch
  exact ⟨algParam, d.congr fun tag hmem => buildRuntimeParamSet_getUInt32 h hmem, d.algorithm⟩

theorem SameScalars.routineTags {s t : HksParamSet} (h : SameScalars s t) :
    ∀ tag ∈ routineTags, Huks.getUInt32 t tag = Huks.getUInt32 s tag := by
  intro tag hmem
  refine h.getUInt32 (uint_of_routineTags hmem ▸ by decide) ?_
  exact (ne_of_routineTags hmem (by decide)).symm

end Huks
