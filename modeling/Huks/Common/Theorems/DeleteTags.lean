import Huks.Common.DeleteTags
import Huks.Common.Theorems.AddParams
import Huks.Common.Theorems.ParamCopy

namespace Huks

open HksParamSet

-- A pass over the entries relocates them, whether it copies or not.
theorem freshParams_relocate {base : Nat} {size : UInt32} {isCopy : Bool} {ps : List HksParam} :
    ∀ {offset offset' : UInt32} {ps' : List HksParam} {area area' : Bytes},
      freshParams base size isCopy ps offset area = .ok (ps', offset', area') → ps' = relocate offset ps := by
  induction ps
  case nil =>
    intro offset offset' ps' area area' h
    cases h
    rfl
  case cons p ps ih =>
    intro offset offset' ps' area area' h
    unfold freshParams at h
    split at h
    case isTrue => cases h
    case isFalse =>
      split at h
      case isTrue hb =>
        split at h
        case isTrue => cases h
        case isFalse =>
          obtain ⟨_, _, h⟩ := Except.bind_eq_ok.mp h
          obtain ⟨⟨_, _, _⟩, hrest, h⟩ := Except.bind_eq_ok.mp h
          cases h
          rw [relocate, if_pos hb, ih hrest]
      case isFalse hb =>
        obtain ⟨⟨_, _, _⟩, hrest, h⟩ := Except.bind_eq_ok.mp h
        cases h
        rw [relocate, if_neg hb, ih hrest]

-- A set as `HksBuildParamSet` leaves it: `HksFreshParamSet` finds nothing to do.
structure BuiltParamSet where
  set   : HksParamSet
  built : hksFreshParamSet set false = .ok set

namespace BuiltParamSet

theorem of_params {s t : HksParamSet} (hsize : s.paramSetSize.toNat ≤ maxSize)
    (hsum : s.paramSetSize.toNat = buildSize s.params) (ht : t.paramSetSize = s.paramSetSize)
    (hparams : t.params = relocate s.base.toUInt32 s.params) : hksFreshParamSet t false = .ok t := by
  have hbase : t.base = s.base := by rw [HksParamSet.base, HksParamSet.base, hparams, length_relocate]
  have htotal : blobTotal t.params = blobTotal s.params := by
    rw [hparams, ← blobTotal_erase, erase_relocate, blobTotal_erase]
  refine hksFreshParamSet_iff.mpr ⟨ht ▸ hsize, ?_, ?_⟩
  · rw [ht, hsum, buildSize_params, buildSize_params, hbase, htotal]
  · rw [relocated, hbase, hparams, relocate_relocate, ← hparams]

theorem of_fresh {s t : HksParamSet} {isCopy : Bool} (h : hksFreshParamSet s isCopy = .ok t) :
    hksFreshParamSet t false = .ok t := by
  have hsum := hksFreshParamSet_size h
  have ⟨_, hcheck, h⟩ := Except.bind_eq_ok.mp h
  have ⟨_, hmax, _, hbase⟩ := hksCheckParamSet_iff.mp hcheck
  have hoffset : s.base.toUInt32.toNat = s.base := by
    have := s.paramSetSize.toNat_lt
    rw [Nat.toUInt32, UInt32.toNat_ofNat']
    omega
  have ⟨⟨ps, offset, area⟩, hfresh, h⟩ := Except.bind_eq_ok.mp h
  dsimp only at h
  split at h
  case isTrue => cases h
  case isFalse =>
    cases h
    exact of_params hmax (by rw [hsum, hoffset, buildSize_params]) rfl (freshParams_relocate hfresh)

-- What the two functions that give a set out have built
def ofBuild {s t : HksParamSet} (h : hksBuildParamSet s = .ok t) : BuiltParamSet where
  set   := t
  built := by
    have ⟨_, _, h⟩ := Except.bind_eq_ok.mp h
    simp only [buildParamSet] at h
    split at h
    case isFalse => exact of_fresh h
    case isTrue =>
      split at h
      case isTrue => cases h
      case isFalse => exact of_fresh h

def ofCopy {s t : HksParamSet} (h : hksGetParamSet s s.paramSetSize = .ok t) : BuiltParamSet where
  set   := t
  built := by
    have ⟨hmax, hsum, ht⟩ := hksGetParamSet_ok h
    exact of_params hmax hsum (by rw [ht]; rfl) (by rw [ht]; rfl)

theorem inOrder (s : BuiltParamSet) : s.set.InOrder := by
  have ⟨_, _, h⟩ := hksFreshParamSet_iff.mp s.built
  exact congrArg HksParamSet.params h

theorem sum_eq (s : BuiltParamSet) : s.set.paramSetSize.toNat = buildSize s.set.params :=
  (hksFreshParamSet_iff.mp s.built).2.1

theorem size_le (s : BuiltParamSet) : s.set.paramSetSize.toNat ≤ maxSize := (hksFreshParamSet_iff.mp s.built).1

-- Every blob lies in the set.
theorem external (s : BuiltParamSet) : ∀ p ∈ s.set.entries, p.External := by
  intro p hp hb
  obtain ⟨q, hq, hqp⟩ := List.mem_map.mp hp
  by_cases h : q.isBytes ∧ q.data ≠ .null
  case pos =>
    rw [if_pos h] at hqp
    exact hqp ▸ ⟨_, rfl⟩
  case neg =>
    rw [if_neg h] at hqp
    subst hqp
    have ⟨offset, hdata⟩ := relocate_inSet (s.inOrder ▸ hq) hb
    exact absurd ⟨hb, by rw [hdata]; nofun⟩ h

end BuiltParamSet

namespace InPlace

open EStateM

section Fresh

variable {s : HksParamSet} {p : HksParam} {size offset : UInt32} {i : Nat}

theorem freshParam_scalar (hle : ¬offset > size) (hp : s.params[i]? = some p) (hb : ¬p.isBytes) :
    (freshParam size offset i).run s = .ok offset s := by
  rw [freshParam, if_neg hle, run_bind, run_get]
  dsimp only
  rw [hp]
  dsimp only
  rw [if_pos hb]
  rfl

theorem freshParam_blob (hle : ¬offset > size) (hp : s.params[i]? = some p) (hb : p.isBytes)
    (hover : ¬isAdditionOverflow offset p.blobSize) : (freshParam size offset i).run s =
      .ok (offset + p.blobSize) { s with params := s.params.set i (p.setData (.inSet offset)) } := by
  rw [freshParam, if_neg hle, run_bind, run_get]
  dsimp only
  rw [hp]
  dsimp only
  rw [if_neg (not_not.mpr hb), if_neg hover]
  rfl

-- Behind the entries `pre`, which are done, the others are relocated one by one.
theorem foldlM_freshParam {ps : List HksParam} : ∀ {pre : List HksParam} {offset : UInt32} {s : HksParamSet},
    s.params = pre ++ ps → size.toNat = offset.toNat + blobTotal ps →
      ((List.range' pre.length ps.length).foldlM (freshParam size) offset).run s =
        .ok size { s with params := pre ++ relocate offset ps } := by
  induction ps
  case nil =>
    intro pre offset s hs hsize
    obtain rfl : size = offset := UInt32.toNat_inj.mp hsize
    rw [relocate, ← hs]
    rfl
  case cons p ps ih =>
    intro pre offset s hs hsize
    rw [blobTotal_cons] at hsize
    have hlt := size.toNat_lt
    have hle : ¬offset > size := by
      rw [gt_iff_lt, UInt32.lt_iff_toNat_lt]
      omega
    have hp : s.params[pre.length]? = some p := by rw [hs, List.getElem?_append_right (Nat.le_refl _)]; simp
    have hlen (q : HksParam) : (pre ++ [q]).length = pre.length + 1 := by simp
    rw [List.length_cons, List.range'_succ, List.foldlM_cons, run_bind, relocate]
    by_cases hb : p.isBytes
    case neg =>
      have hzero : p.blobLength = 0 := by simp [HksParam.blobLength, hb]
      have hrest := @ih (pre ++ [p]) offset s (by simp [hs]) (by omega)
      rw [freshParam_scalar hle hp hb, if_neg hb]
      dsimp only
      rw [← hlen p, hrest, List.append_assoc, List.singleton_append]
    case pos =>
      have hlength : p.blobLength = p.blobSize.toNat := by simp [HksParam.blobLength, hb]
      have hover : ¬isAdditionOverflow offset p.blobSize := by
        rw [isAdditionOverflow_iff]
        omega
      have hadd : (offset + p.blobSize).toNat = offset.toNat + p.blobSize.toNat := toNat_add_of_lt (by
        rw [UInt32.size]
        omega)
      have hrest := @ih (pre ++ [p.setData (.inSet offset)]) (offset + p.blobSize)
        { s with params := s.params.set pre.length (p.setData (.inSet offset)) } (by simp [hs]) (by omega)
      rw [freshParam_blob hle hp hb hover, if_pos hb]
      dsimp only
      rw [← hlen (p.setData (.inSet offset)), hrest, List.append_assoc, List.singleton_append]

end Fresh

theorem hksFreshParamSet_run (s : BuiltParamSet) : hksFreshParamSet.run s.set = .ok ⟨⟩ s.set := by
  have hsum := s.sum_eq
  have hbase := ParamBlock.base_toNat hsum
  rw [buildSize_params, ← hbase] at hsum
  have hcheck := hksCheckParamSet_ok (s := s.set) (s.sum_eq ▸ s.size_le) s.sum_eq rfl
  have hloop : ((List.range' 0 s.set.params.length).foldlM (freshParam s.set.paramSetSize)
      s.set.base.toUInt32).run s.set = .ok s.set.paramSetSize s.set := by
    have hrun := @foldlM_freshParam _ s.set.params [] _ s.set rfl hsum
    rwa [List.nil_append, ← s.inOrder] at hrun
  rw [hksFreshParamSet, run_bind, run_get]
  dsimp only
  rw [hcheck, ofExcept_ok_bind, run_bind, hloop]
  dsimp only
  rw [if_neg (not_not.mpr rfl)]
  rfl

section Delete

variable {tag : List UInt32} {s r u : HksParamSet} {ps : List HksParam}

-- The params that stay
def undeleted (tag : List UInt32) (ps : List HksParam) : List HksParam := ps.filter (·.tag ∉ tag)

-- The loop is a call of `HksAddParams` for every param that stays.
theorem foldlM_addUnlessDeleted : ps.foldlM (addUnlessDeleted tag) s =
    ((undeleted tag ps).map ([·])).foldlM Huks.hksAddParams s := by
  induction ps generalizing s
  case nil => rfl
  case cons p ps ih =>
    rw [List.foldlM_cons, addUnlessDeleted, List.contains_eq_mem, undeleted, List.filter_cons]
    by_cases hp : p.tag ∈ tag
    case pos =>
      rw [if_pos (decide_eq_true hp), if_neg (by simpa using hp)]
      exact ih
    case neg =>
      rw [if_neg (by simpa using hp), if_pos (by simpa using hp), List.map_cons, List.foldlM_cons]
      exact bind_congr fun t => ih

theorem hksDeleteTagsFromParamSet_run (tag : List UInt32) (s : BuiltParamSet) (out : Option HksParamSet) :
    (hksDeleteTagsFromParamSet tag).run ⟨s.set, out⟩ =
      match s.set.entries.foldlM (addUnlessDeleted tag) hksInitParamSet >>= hksBuildParamSet with
      | .ok u    => .ok ⟨⟩ ⟨s.set, some u⟩
      | .error e => .error e ⟨s.set, out⟩ := by
  have hfresh : (zoom TagDeletion.paramSetLens hksFreshParamSet).run ⟨s.set, out⟩ = .ok ⟨⟩ ⟨s.set, out⟩ :=
    run_zoom_eq_ok.mpr ⟨s.set, hksFreshParamSet_run s, rfl⟩
  rw [hksDeleteTagsFromParamSet, run_bind, hfresh]
  dsimp only
  rw [run_bind, run_get]
  dsimp only
  cases s.set.entries.foldlM (addUnlessDeleted tag) hksInitParamSet
  case error => rfl
  case ok r =>
    rw [ofExcept_ok_bind]
    change _ = match hksBuildParamSet r with | .ok u => _ | .error e => _
    cases hksBuildParamSet r <;> rfl

theorem contentsOf_undeleted (tag : List UInt32) (ps : List HksParam) :
    contentsOf (undeleted tag ps) = (contentsOf ps).filter (·.1 ∉ tag) := by
  rw [contentsOf, contentsOf, List.filter_map]
  rfl

theorem undeleted_external (s : BuiltParamSet) (tag : List UInt32) :
    ∀ p ∈ undeleted tag s.set.entries, p.External :=
  fun p hp => s.external p (List.mem_of_mem_filter hp)

theorem undeleted_accumulated (h : ps.foldlM (addUnlessDeleted tag) hksInitParamSet = .ok r) :
    Accumulated (undeleted tag ps) r := by
  have hflat : ((undeleted tag ps).map ([·])).flatten = undeleted tag ps := by
    rw [← List.flatMap_def, List.flatMap_singleton']
  exact hflat ▸ accumulated (foldlM_addUnlessDeleted ▸ h)

-- What is built of the params that stay has their contents.
theorem undeleted_contents (s : BuiltParamSet)
    (h : s.set.entries.foldlM (addUnlessDeleted tag) hksInitParamSet = .ok r) (hu : hksBuildParamSet r = .ok u) :
    u.contents = s.set.contents.filter (·.1 ∉ tag) := by
  rw [((undeleted_accumulated h).carries (undeleted_external s tag) hu).contents, contentsOf_undeleted,
    contentsOf_entries]

theorem buildSize_undeleted (s : BuiltParamSet) (tag : List UInt32) :
    buildSize (undeleted tag s.set.entries) ≤ maxSize := by
  have hsub : (undeleted tag s.set.entries).Sublist s.set.entries := List.filter_sublist
  have htotal : blobTotal (undeleted tag s.set.entries) ≤ blobTotal s.set.entries :=
    (hsub.map HksParam.blobLength).sum_le_sum fun _ _ => Nat.zero_le _
  have hentries : blobTotal s.set.entries = blobTotal s.set.params := blobTotal_words (words_entries s.set)
  have hlen : s.set.entries.length = s.set.params.length := List.length_map ..
  have hle := hsub.length_le
  have hmax := s.size_le
  rw [s.sum_eq] at hmax
  simp only [buildSize, paramSize] at *
  omega

-- A param finds its place where the count and the size allow it.
theorem hksAddParams_single (a : Accumulated ps s) {p : HksParam} (hp : p.External)
    (hcnt : ps.length + 1 ≤ defaultParamCnt) (hmax : buildSize (ps ++ [p]) ≤ maxSize) :
    ∃ t, Huks.hksAddParams s [p] = .ok t := by
  simp only [buildSize, List.length_append, List.length_singleton, blobTotal_append, blobTotal_cons,
    blobTotal_nil, Nat.mul_add, Nat.mul_one] at hmax
  have hsize : s.paramSetSize.toNat = buildSize ps := a.size_toNat (by simp only [buildSize]; omega)
  rw [buildSize] at hsize
  have hcheck : checkBeforeAddParams s [p] = .ok () := by
    rw [checkBeforeAddParams, if_neg, if_neg]
    · simp only [List.any_cons, List.any_nil, Bool.or_false, decide_eq_true_eq, not_and]
      intro hb
      obtain ⟨bytes, hdata⟩ := hp hb
      rw [hdata]
      intro hnull
      cases hnull
    · rw [a.params, List.length_singleton]
      simp only [defaultParamCnt] at *
      omega
  have hwrap : maxSize < UInt32.size := by decide
  obtain ⟨t, ht, _⟩ := @foldlM_addParam_fits s [p] (by
    rw [List.length_singleton, Nat.mul_one, blobTotal_cons, blobTotal_nil]
    omega)
  exact ⟨t, Except.bind_eq_ok.mpr ⟨(), hcheck, ht⟩⟩

theorem foldlM_single {qs : List HksParam} : ∀ {ps : List HksParam} {s : HksParamSet}, Accumulated ps s →
    (∀ q ∈ qs, q.External) → (ps ++ qs).length ≤ defaultParamCnt → buildSize (ps ++ qs) ≤ maxSize →
      ∃ t, (qs.map ([·])).foldlM Huks.hksAddParams s = .ok t := by
  induction qs
  case nil => exact fun _ _ _ _ => ⟨_, rfl⟩
  case cons q qs ih =>
    intro ps s a hext hcnt hmax
    rw [List.append_cons] at hcnt hmax
    have hle : buildSize (ps ++ [q]) ≤ maxSize := by
      rw [buildSize, List.length_append, Nat.mul_add, blobTotal_append] at hmax
      rw [buildSize]
      omega
    have hlen : ps.length + 1 ≤ defaultParamCnt := by
      simp only [List.length_append, List.length_singleton] at hcnt
      omega
    obtain ⟨u, hu⟩ := hksAddParams_single a (hext q (List.mem_cons_self ..)) hlen hle
    obtain ⟨t, ht⟩ := ih (a.add hu) (fun r hr => hext r (List.mem_cons_of_mem _ hr)) hcnt hmax
    exact ⟨t, Except.foldlM_cons_eq_ok.mpr ⟨u, hu, ht⟩⟩

-- A set comes of it where at most 42 params stay, and the last blob among them is not empty.
theorem undeleted_builds (s : BuiltParamSet) (tag : List UInt32) :
    (∃ u, s.set.entries.foldlM (addUnlessDeleted tag) hksInitParamSet >>= hksBuildParamSet = .ok u) ↔
      (undeleted tag s.set.entries).length ≤ defaultParamCnt ∧ LastBlobNonempty (undeleted tag s.set.entries) := by
  constructor
  case mp =>
    rintro ⟨u, h⟩
    obtain ⟨r, hr, hu⟩ := Except.bind_eq_ok.mp h
    have hacc := undeleted_accumulated hr
    exact ⟨hacc.cnt, hacc.lastBlobNonempty hu⟩
  case mpr =>
    rintro ⟨hcnt, hlast⟩
    obtain ⟨r, hr⟩ := @foldlM_single _ [] _ .init (undeleted_external s tag) hcnt (buildSize_undeleted s tag)
    have hloop : s.set.entries.foldlM (addUnlessDeleted tag) hksInitParamSet = .ok r :=
      foldlM_addUnlessDeleted.trans hr
    obtain ⟨u, hu, _⟩ :=
      (undeleted_accumulated hloop).build (undeleted_external s tag) hlast (buildSize_undeleted s tag)
    exact ⟨u, Except.bind_eq_ok.mpr ⟨r, hloop, hu⟩⟩

-- What is given out is a set of the params that stay, in their order and with their values. The set of the
-- caller is not changed, and nothing is given out where the call fails.
def DeletesExactly (tag : List UInt32) (s : BuiltParamSet) (out : Option HksParamSet) : Prop :=
  match (hksDeleteTagsFromParamSet tag).run ⟨s.set, out⟩ with
  | .ok _ t    => t.paramSet = s.set ∧ ∃ u : BuiltParamSet, t.outParamSet = some u.set ∧
      u.set.contents = s.set.contents.filter (·.1 ∉ tag)
  | .error _ t => t = ⟨s.set, out⟩

theorem hksDeleteTagsFromParamSet_filters (tag : List UInt32) (s : BuiltParamSet) (out : Option HksParamSet) :
    DeletesExactly tag s out ∧
      ((∃ t, (hksDeleteTagsFromParamSet tag).run ⟨s.set, out⟩ = .ok ⟨⟩ t) ↔
        (undeleted tag s.set.entries).length ≤ defaultParamCnt ∧
          LastBlobNonempty (undeleted tag s.set.entries)) := by
  rw [← undeleted_builds, DeletesExactly, hksDeleteTagsFromParamSet_run]
  cases h : s.set.entries.foldlM (addUnlessDeleted tag) hksInitParamSet >>= hksBuildParamSet
  case error e => exact ⟨rfl, iff_of_false nofun nofun⟩
  case ok u =>
    obtain ⟨r, hr, hu⟩ := Except.bind_eq_ok.mp h
    exact ⟨⟨rfl, .ofBuild hu, rfl, undeleted_contents s hr hu⟩, iff_of_true ⟨_, rfl⟩ ⟨u, rfl⟩⟩

end Delete

end InPlace

end Huks
