import Huks.Common.Theorems.Words
import Mathlib.Data.List.Induction
import Mathlib.Data.List.Nodup

namespace Huks

theorem hksCheckParamSetTag_eq_ok {s : HksParamSet} :
    hksCheckParamSetTag s = .ok () ↔
      (∀ p ∈ s.params, isValidTag p.tag) ∧ (s.params.map HksParam.tag).Nodup := by
  unfold hksCheckParamSetTag
  induction s.params
  case nil => simp [hksCheckParamSetTag.go]
  case cons p ps ih =>
    have hmem : ps.any (·.tag = p.tag) ↔ p.tag ∈ ps.map HksParam.tag := by simp
    simp only [hksCheckParamSetTag.go, List.forall_mem_cons, List.map_cons, List.nodup_cons, ← hmem]
    split
    case isTrue hv => simp [hv]
    case isFalse hv =>
      split
      case isTrue hany => simp [hany]
      case isFalse hany =>
        rw [ih]
        simp [not_not.mp hv, hany]

theorem hksGetParam_find {s : HksParamSet} {tag : UInt32} {p : HksParam}
    (h : hksGetParam s tag = .ok p) : s.params.find? (·.tag = tag) = some p := by
  unfold hksGetParam at h
  split at h
  case h_1 => cases h
  case h_2 =>
    split at h
    case h_1 => cases h
    case h_2 q hq =>
      split at h <;> cases h
      exact hq

-- No two entries have the tag.
def Single (tag : UInt32) (ps : List HksParam) : Prop := (ps.filter (·.tag = tag)).length ≤ 1

theorem single_of_nodup {ps : List HksParam} (h : (ps.map HksParam.tag).Nodup) (tag : UInt32) :
    Single tag ps := by
  have hcount := List.nodup_iff_count_le_one.mp h tag
  rw [List.count_eq_countP, List.countP_map, List.countP_eq_length_filter] at hcount
  exact hcount

theorem single_of_words {tag : UInt32} {ps qs : List HksParam} (h : paramWords qs = paramWords ps)
    (hs : Single tag ps) : Single tag qs := by
  have hlen (rs : List HksParam) :
      ((paramWords rs).filter (·.1 = tag)).length = (rs.filter (·.tag = tag)).length := by
    rw [paramWords, List.filter_map, List.length_map]
    rfl
  rw [Single, ← hlen, h, hlen]
  exact hs

theorem single_append {tag : UInt32} {ps qs : List HksParam} (hq : ∀ q ∈ qs, q.tag ≠ tag) :
    Single tag (ps ++ qs) ↔ Single tag ps := by
  have hnone : qs.filter (·.tag = tag) = [] := by simpa [List.filter_eq_nil_iff] using hq
  rw [Single, List.filter_append, hnone, List.append_nil, Single]

namespace Single

variable {tag : UInt32} {ps : List HksParam}

-- Such an entry is the first one with its tag.
theorem find? (h : Single tag ps) {p : HksParam} (hp : p ∈ ps) (ht : p.tag = tag) :
    ps.find? (·.tag = tag) = some p := by
  have hmem : p ∈ ps.filter (·.tag = tag) := List.mem_filter.mpr ⟨hp, by simpa using ht⟩
  rw [← List.head?_filter]
  cases hf : ps.filter (·.tag = tag)
  case nil => simp [hf] at hmem
  case cons q qs =>
    rw [Single, hf, List.length_cons] at h
    have hqs : qs = [] := List.eq_nil_of_length_eq_zero (by omega)
    rw [hf, hqs, List.mem_singleton] at hmem
    rw [List.head?_cons, hmem]

-- A loop that lets the last entry with a tag decide reads what `HksGetParam` finds.
theorem find?_reverse (h : Single tag ps) :
    ps.reverse.find? (·.tag = tag) = ps.find? (·.tag = tag) := by
  rw [← List.head?_filter, ← List.head?_filter, List.filter_reverse]
  cases hf : ps.filter (·.tag = tag)
  case nil => rfl
  case cons q qs =>
    rw [Single, hf, List.length_cons] at h
    have hqs : qs = [] := List.eq_nil_of_length_eq_zero (by omega)
    rw [hqs, List.reverse_singleton]

end Single

-- What a loop leaves in a field that only the entries with `tag` write.
theorem foldl_field {α β : Type} {fill : α → HksParam → α} {get : α → β} {value : HksParam → β}
    {tag : UInt32}
    (hfill : ∀ a p, get (fill a p) = if p.tag = tag then value p else get a)
    (ps : List HksParam) (a : α) :
    get (ps.foldl fill a) = ((ps.reverse.find? (·.tag = tag)).map value).getD (get a) := by
  induction ps using List.reverseRecOn
  case nil => rfl
  case append_singleton ps p ih =>
    rw [List.foldl_append, List.foldl_cons, List.foldl_nil, hfill, ih, List.reverse_append,
      List.reverse_singleton, List.singleton_append, List.find?_cons]
    by_cases ht : p.tag = tag
    case pos => simp [ht]
    case neg => simp [ht]

end Huks
