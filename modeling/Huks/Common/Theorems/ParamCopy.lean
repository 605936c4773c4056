import Huks.Common.Theorems.Construction
import Huks.Common.Theorems.ParamImage
import Huks.Common.Theorems.Tags

namespace Huks

open HksParamSet

theorem relocate_relocate (offset offset' : UInt32) (ps : List HksParam) :
    relocate offset (relocate offset' ps) = relocate offset ps := by
  rw [← relocate_erase offset (relocate offset' ps), erase_relocate, relocate_erase]

-- The entries point to where a build puts their blobs.
def HksParamSet.InOrder (s : HksParamSet) : Prop := s.params = relocate s.base.toUInt32 s.params

namespace HksParamSet.InOrder

variable {s t : HksParamSet}

theorem relocated (s : HksParamSet) : s.relocated.InOrder := by
  rw [InOrder, base_relocated, HksParamSet.relocated, relocate_relocate]

theorem writeBlob (h : s.InOrder) {tag : UInt32} (ht : getTagType tag = .bytes) (bytes : Bytes) :
    (s.writeBlob tag bytes).InOrder := by
  have hgo : ∀ ps : List HksParam, ps.find? (·.tag = tag) = none →
      update.go tag (fun p => p.setData (.ext bytes)) ps = ps := by
    intro ps
    induction ps
    case nil => exact fun _ => rfl
    case cons p ps ih =>
      intro hnone
      have hp := List.find?_eq_none.mp hnone p (List.mem_cons_self ..)
      have htag : p.tag ≠ tag := by simpa using hp
      rw [update.go, if_neg htag, ih (by simpa [htag] using hnone)]
  unfold HksParamSet.writeBlob
  split
  case h_1 => exact h
  case h_2 hin =>
    cases hfind : s.params.find? (·.tag = tag)
    case none => rwa [InOrder, update, hgo _ hfind]
    case some p =>
      have htag : p.tag = tag := by simpa using List.find?_some hfind
      have hb : p.isBytes := by simp [HksParam.isBytes, htag, ht]
      obtain ⟨offset, hdata⟩ := relocate_inSet (h ▸ List.mem_of_find?_eq_some hfind) hb
      exact absurd (hfind.trans (congrArg some (by rw [← hdata]))) (hin p.tag p.word offset)

end HksParamSet.InOrder

-- What a copy of a set is.
theorem hksGetParamSet_ok {s t : HksParamSet} (h : hksGetParamSet s s.paramSetSize = .ok t) :
    s.paramSetSize.toNat ≤ maxSize ∧ s.paramSetSize.toNat = buildSize s.params ∧
      t = { s.relocated with area := s.area.take (blobTotal s.params) } := by
  have ⟨_, hcheck, hfresh⟩ := Except.bind_eq_ok.mp h
  have ⟨_, hmax, _, hbase⟩ := hksCheckParamSet_iff.mp hcheck
  have ⟨hsize, ht⟩ := (freshParamSet_noCopy_iff
    (s := { s with area := s.area.take (s.paramSetSize.toNat - s.base) }) hbase).mp hfresh
  have hsize : s.paramSetSize.toNat = buildSize s.params := hsize
  refine ⟨hmax, hsize, ?_⟩
  rw [hsize, buildSize_params, Nat.add_sub_cancel_left] at ht
  exact ht

theorem Carries.hksGetParamSet {ps : List HksParam} {s t : HksParamSet} (c : Carries ps s)
    (h : hksGetParamSet s s.paramSetSize = .ok t) : Carries ps t := by
  have ⟨_, _, ht⟩ := hksGetParamSet_ok h
  have ⟨qs, hqs, hparams⟩ := c.params
  have hbase : t.base = s.base := by
    rw [ht]
    exact base_relocated s
  have htotal : blobTotal s.params = blobTotal ps :=
    blobTotal_words ((hparams ▸ paramWords_relocate _ _).trans hqs)
  refine ⟨c.external, c.max, ?_, ⟨qs, hqs, ?_⟩, ?_⟩
  · rw [ht]
    exact c.size
  · rw [hbase, ht, relocated, hparams, relocate_relocate]
  · rw [ht, htotal, List.take_take, Nat.min_self]
    exact c.area

theorem takeD_take {α : Type} (a : α) (l : List α) : ∀ {m n : Nat}, m ≤ n →
    (l.take n).takeD m a = l.takeD m a := by
  induction l
  case nil => simp
  case cons b l ih =>
    intro m n h
    cases m
    case zero => rfl
    case succ m =>
      cases n
      case zero => exact absurd h (Nat.not_succ_le_zero m)
      case succ n => simp [List.takeD_succ, ih (Nat.le_of_succ_le_succ h)]

section Copy

variable {s t : HksParamSet} (hs : s.InOrder) (h : hksGetParamSet s s.paramSetSize = .ok t)

include hs h

-- A set in order is the same to a reader as its copy.
theorem hksGetParamSet_inOrder : t.params = s.params ∧ ∀ p ∈ s.params, p.isBytes → t.blob p = s.blob p := by
  have ⟨hmax, hsize, ht⟩ := hksGetParamSet_ok h
  have hparams : t.params = s.params := by
    rw [ht]
    exact hs.symm
  refine ⟨hparams, fun p hp hb => ?_⟩
  have hoffset := ParamBlock.base_toNat hsize
  have hlt := s.paramSetSize.toNat_lt
  rw [hsize, buildSize_params, ← hoffset] at hlt
  have tiles := relocate_spans hlt
  rw [← hs, hoffset] at tiles
  have ⟨hlo, _, hhi⟩ := tiles.within p.span
    (List.mem_map_of_mem (List.mem_filter.mpr ⟨hp, hb⟩))
  have ⟨offset, hdata⟩ := relocate_inSet (hs ▸ hp) hb
  simp only [HksParam.span, hdata] at hlo hhi
  have htake : ((t.area.drop (offset.toNat - s.base)).takeD p.blobSize.toNat 0) =
      (s.area.drop (offset.toNat - s.base)).takeD p.blobSize.toNat 0 := by
    rw [ht, List.drop_take, takeD_take _ _ (by omega)]
  simp only [blob, HksParam.read, hdata, HksParamSet.base, hparams]
  exact congrArg (fun bytes => (some bytes).getD []) htake

theorem hksGetParam_copy (tag : UInt32) : hksGetParam t tag = hksGetParam s tag := by
  have ⟨hparams, _⟩ := hksGetParamSet_inOrder hs h
  have ⟨_, _, ht⟩ := hksGetParamSet_ok h
  have hsize : t.paramSetSize = s.paramSetSize := by
    rw [ht]
    rfl
  rw [hksGetParam, hksGetParam, hksCheckParamSet, hksCheckParamSet, hparams, hsize]

theorem getBlob_copy {tag : UInt32} (ht : getTagType tag = .bytes) : getBlob t tag = getBlob s tag := by
  have ⟨_, hblob⟩ := hksGetParamSet_inOrder hs h
  rw [getBlob, getBlob, hksGetParam_copy hs h]
  cases hget : hksGetParam s tag
  case error => rfl
  case ok p =>
    have ⟨htag, _⟩ := getParam_value hget
    have hb : p.isBytes := by simp [HksParam.isBytes, htag, ht]
    rw [Except.map, Except.map, hblob p (hksGetParam_mem hget) hb]

theorem contents_copy : t.contents = s.contents := by
  have ⟨hparams, hblob⟩ := hksGetParamSet_inOrder hs h
  rw [contents, contents, hparams]
  apply List.map_congr_left
  intro p hp
  rw [HksParam.content, HksParam.content, HksParam.value, HksParam.value]
  by_cases hb : p.isBytes
  case neg => simp [hb]
  case pos =>
    have hsame := hblob p hp hb
    simp only [blob] at hsame
    rw [if_pos hb, if_pos hb, hsame]

end Copy

end Huks
