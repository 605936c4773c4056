import Huks.Common.ParamBlock
import Huks.Common.Theorems.Param
import Huks.Lib.Tiling

namespace Huks

open HksParamSet

-- Where the blob of an entry lies in the block.
def HksParam.span (p : HksParam) : Span :=
  match p.data with
  | .inSet offset => ⟨offset.toNat, offset.toNat + p.blobSize.toNat⟩
  | _             => ⟨0, 0⟩

def HksParamSet.blobs (s : HksParamSet) : List HksParam := s.params.filter HksParam.isBytes

-- The blobs of relocated entries lie one behind the other.
theorem relocate_spans {ps : List HksParam} :
    ∀ {offset : UInt32}, offset.toNat + blobTotal ps < 2 ^ 32 →
      Tiles offset.toNat (((relocate offset ps).filter HksParam.isBytes).map HksParam.span)
        (offset.toNat + blobTotal ps) := by
  induction ps
  case nil =>
    intro offset _
    exact .nil
  case cons p ps ih =>
    intro offset hlt
    rw [blobTotal_cons] at hlt ⊢
    by_cases hb : p.isBytes
    case pos =>
      have hlen : p.blobLength = p.blobSize.toNat := by simp [HksParam.blobLength, hb]
      have hadd : (offset + p.blobSize).toNat = offset.toNat + p.blobSize.toNat := by
        rw [UInt32.toNat_add]
        omega
      have tail := @ih (offset + p.blobSize) (by omega)
      rw [hadd, Nat.add_assoc, ← hlen] at tail
      simp only [relocate, hb, if_true, List.filter_cons, HksParam.isBytes_setData, List.map_cons]
      exact .cons (Nat.le_add_right _ _) (hlen ▸ tail)
    case neg =>
      have hlen : p.blobLength = 0 := by simp [HksParam.blobLength, hb]
      have tail := @ih offset (by omega)
      simpa [relocate, hb, hlen] using tail

theorem relocate_inSet {ps : List HksParam} {offset : UInt32} {p : HksParam}
    (hp : p ∈ relocate offset ps) (hb : p.isBytes) : ∃ o, p.data = .inSet o := by
  induction ps generalizing offset
  case nil => cases hp
  case cons q ps ih =>
    unfold relocate at hp
    split at hp
    case isTrue =>
      rcases List.mem_cons.mp hp with rfl | hp
      · exact ⟨offset, rfl⟩
      · exact ih hp
    case isFalse hq =>
      rcases List.mem_cons.mp hp with rfl | hp
      · exact absurd hb hq
      · exact ih hp

-- The bytes behind the pointers of relocated entries are those of the area.
theorem relocate_blobs (base : Nat) (area : Bytes) {ps : List HksParam} :
    ∀ {offset : UInt32}, base ≤ offset.toNat → offset.toNat + blobTotal ps < 2 ^ 32 →
      offset.toNat + blobTotal ps ≤ base + area.length →
      ((relocate offset ps).filter HksParam.isBytes).flatMap (fun p => (p.read base area).getD []) =
        (area.drop (offset.toNat - base)).take (blobTotal ps) := by
  induction ps
  case nil => simp [relocate]
  case cons p ps ih =>
    intro offset hbase hlt harea
    rw [blobTotal_cons] at hlt harea ⊢
    by_cases hb : p.isBytes
    case pos =>
      have hlen : p.blobLength = p.blobSize.toNat := by simp [HksParam.blobLength, hb]
      have hadd : (offset + p.blobSize).toNat = offset.toNat + p.blobSize.toNat := by
        rw [UInt32.toNat_add]
        omega
      have tail := @ih (offset + p.blobSize) (by omega) (by omega) (by omega)
      have hdrop : (offset + p.blobSize).toNat - base = offset.toNat - base + p.blobLength := by omega
      rw [hdrop, ← List.drop_drop] at tail
      have hread : ((p.setData (.inSet offset)).read base area).getD [] =
          (area.drop (offset.toNat - base)).take p.blobLength := by
        simp only [HksParam.read, HksParam.setData, Option.getD_some]
        rw [hlen]
        refine takeD_eq_take ?_
        rw [List.length_drop]
        exact (by omega : p.blobSize.toNat ≤ area.length - (offset.toNat - base))
      simp only [relocate, hb, if_true, List.filter_cons, HksParam.isBytes_setData, List.flatMap_cons,
        hread, tail]
      rw [← List.take_add]
    case neg =>
      have hlen : p.blobLength = 0 := by simp [HksParam.blobLength, hb]
      have tail := ih hbase (by omega) (by omega)
      simpa [relocate, hb, hlen] using tail

-- A pass over the entries that ends well did not wrap around.
theorem freshParams_offset {base : Nat} {size : UInt32} {isCopy : Bool} {ps : List HksParam} :
    ∀ {offset offset' : UInt32} {ps' : List HksParam} {area area' : Bytes},
      freshParams base size isCopy ps offset area = .ok (ps', offset', area') →
        offset'.toNat = offset.toNat + blobTotal ps := by
  induction ps
  case nil =>
    intro offset offset' ps' area area' h
    cases h
    rfl
  case cons p ps ih =>
    intro offset offset' ps' area area' h
    rw [blobTotal_cons]
    unfold freshParams at h
    split at h
    case isTrue => cases h
    case isFalse =>
      split at h
      case isTrue hb =>
        split at h
        case isTrue => cases h
        case isFalse hover =>
          obtain ⟨_, _, h⟩ := Except.bind_eq_ok.mp h
          obtain ⟨⟨_, _, _⟩, hrest, h⟩ := Except.bind_eq_ok.mp h
          cases h
          rw [isAdditionOverflow_iff] at hover
          rw [ih hrest, UInt32.toNat_add]
          simp only [HksParam.blobLength, hb, if_true]
          omega
      case isFalse hb =>
        obtain ⟨⟨_, _, _⟩, hrest, h⟩ := Except.bind_eq_ok.mp h
        cases h
        simp [ih hrest, HksParam.blobLength, hb]

theorem hksFreshParamSet_size {s t : HksParamSet} {isCopy : Bool}
    (h : hksFreshParamSet s isCopy = .ok t) :
    s.paramSetSize.toNat = s.base.toUInt32.toNat + blobTotal s.params := by
  have ⟨_, _, h⟩ := Except.bind_eq_ok.mp h
  have ⟨⟨ps, offset, area⟩, hfresh, h⟩ := Except.bind_eq_ok.mp h
  simp only at h
  split at h
  case isTrue => cases h
  case isFalse hsize =>
    rw [not_not.mp hsize]
    exact freshParams_offset hfresh

theorem hksCheckParamSet_iff {s : HksParamSet} {size : UInt32} :
    hksCheckParamSet s size = .ok () ↔
      headerSize ≤ size.toNat ∧ size.toNat ≤ maxSize ∧ s.paramSetSize = size ∧ s.base ≤ size.toNat := by
  rw [hksCheckParamSet, ite_eq_right_iff]
  simp only [reduceCtorEq, imp_false, not_or, not_not, base, headerSize, paramSize, maxSize]
  constructor
  · rintro ⟨hmin, hmax, hsize, hcnt⟩
    exact ⟨by omega, by omega, hsize, by omega⟩
  · rintro ⟨hmin, hmax, hsize, hcnt⟩
    exact ⟨by omega, by omega, hsize, by omega⟩

theorem buildSize_params (s : HksParamSet) : buildSize s.params = s.base + blobTotal s.params := rfl

-- The param set with its blobs found in its own block.
def HksParamSet.relocated (s : HksParamSet) : HksParamSet :=
  { s with params := relocate s.base.toUInt32 s.params }

theorem base_relocated (s : HksParamSet) : s.relocated.base = s.base := by
  simp only [base, relocated, length_relocate]

theorem freshParamSet_noCopy_iff {s t : HksParamSet} (hbase : s.base ≤ s.paramSetSize.toNat) :
    freshParamSet s false = .ok t ↔ s.paramSetSize.toNat = buildSize s.params ∧ t = s.relocated := by
  have hoffset : s.base.toUInt32.toNat = s.base := by
    have := s.paramSetSize.toNat_lt
    rw [Nat.toUInt32, UInt32.toNat_ofNat']
    omega
  constructor
  · intro h
    have ⟨⟨ps, offset, area⟩, hfresh, h⟩ := Except.bind_eq_ok.mp h
    have htotal := freshParams_offset hfresh
    rw [hoffset, ← buildSize_params] at htotal
    simp only at h
    split at h
    case isTrue => cases h
    case isFalse hsize =>
      have hsize := not_not.mp hsize
      rw [← hsize, buildSize_params, ← hoffset] at htotal
      cases hfresh.symm.trans (freshParams_noCopy s.base s.area s.base.toUInt32 htotal)
      cases h
      exact ⟨by rw [htotal, hoffset, buildSize_params], rfl⟩
  · rintro ⟨hsize, rfl⟩
    rw [buildSize_params, ← hoffset] at hsize
    unfold freshParamSet
    rw [freshParams_noCopy s.base s.area s.base.toUInt32 hsize]
    simp [relocated, bind, Except.bind]

-- `HksFreshParamSet(set, false)` accepts exactly the sets whose parts add up to their size.
theorem hksFreshParamSet_iff {s t : HksParamSet} :
    hksFreshParamSet s false = .ok t ↔
      s.paramSetSize.toNat ≤ maxSize ∧ s.paramSetSize.toNat = buildSize s.params ∧
        t = s.relocated := by
  constructor
  · intro h
    have ⟨_, hcheck, h⟩ := Except.bind_eq_ok.mp h
    have ⟨_, hmax, _, hbase⟩ := hksCheckParamSet_iff.mp hcheck
    exact ⟨hmax, (freshParamSet_noCopy_iff hbase).mp h⟩
  · rintro ⟨hmax, hsize, rfl⟩
    have hbase : s.base ≤ s.paramSetSize.toNat := by
      rw [hsize, buildSize_params]
      exact Nat.le_add_right _ _
    have hheader : headerSize ≤ s.base := Nat.le_add_right _ _
    have hcheck := hksCheckParamSet_iff.mpr ⟨Nat.le_trans hheader hbase, hmax, rfl, hbase⟩
    refine Except.bind_eq_ok.mpr ⟨(), hcheck, ?_⟩
    exact (freshParamSet_noCopy_iff hbase).mpr ⟨hsize, rfl⟩

namespace ParamBlock

variable (mem : UInt64 → BlobData) (block : ParamBlock)

theorem base_paramSet :
    (block.paramSet mem).base = headerSize + paramSize * block.paramsCnt.toNat := by
  simp [base, paramSet]

theorem length_area :
    (block.paramSet mem).area.length = block.size.toNat - (block.paramSet mem).base := by
  rw [base_paramSet, paramSet, List.length_drop, block.length_eq]

theorem hksGetParamSet_iff {t : HksParamSet} :
    hksGetParamSet (block.paramSet mem) block.size = .ok t ↔
      (block.paramSet mem).paramSetSize = block.size ∧ hksFreshParamSet (block.paramSet mem) false = .ok t := by
  have harea (h : (block.paramSet mem).paramSetSize = block.size) :
      (block.paramSet mem).area.take
        ((block.paramSet mem).paramSetSize.toNat - (block.paramSet mem).base) =
      (block.paramSet mem).area := by
    rw [h, ← length_area, List.take_length]
  constructor
  · intro h
    have ⟨_, hcheck, h⟩ := Except.bind_eq_ok.mp h
    have ⟨_, _, hsize, _⟩ := hksCheckParamSet_iff.mp hcheck
    rw [harea hsize] at h
    rw [hsize]
    refine ⟨rfl, Except.bind_eq_ok.mpr ⟨(), ?_, h⟩⟩
    rw [hsize]
    exact hcheck
  · rintro ⟨hsize, h⟩
    have ⟨_, hcheck, h⟩ := Except.bind_eq_ok.mp h
    refine Except.bind_eq_ok.mpr ⟨(), hsize ▸ hcheck, ?_⟩
    rw [harea hsize]
    exact h

-- The param array and the blobs of the set lie in the block, and behind the array there is nothing
-- but the blobs, one behind the other in the order of the params.
structure Holds (t : HksParamSet) : Prop where
  size    : t.paramSetSize = block.size
  array   : t.base ≤ block.size.toNat
  inSet   : ∀ p ∈ t.blobs, ∃ offset, p.data = .inSet offset
  within  : ∀ p ∈ t.blobs, t.base ≤ p.span.start ∧ p.span.start ≤ p.span.stop ∧
    p.span.stop ≤ block.size.toNat
  ordered : (t.blobs.map HksParam.span).Pairwise fun a b => a.stop ≤ b.start
  tiles   : Tiles t.base (t.blobs.map HksParam.span) block.size.toNat
  bytes   : t.blobs.flatMap t.blob = block.bytes.drop t.base

variable {mem block}

theorem base_toNat {s : HksParamSet} (h : s.paramSetSize.toNat = buildSize s.params) :
    s.base.toUInt32.toNat = s.base := by
  have := s.paramSetSize.toNat_lt
  rw [buildSize_params] at h
  rw [Nat.toUInt32, UInt32.toNat_ofNat']
  omega

theorem holds_relocated (hsize : (block.paramSet mem).paramSetSize = block.size)
    (hbuild : (block.paramSet mem).paramSetSize.toNat = buildSize (block.paramSet mem).params) :
    block.Holds (block.paramSet mem).relocated := by
  have hoffset := base_toNat hbuild
  have hlt := block.size.toNat_lt
  rw [hsize, buildSize_params, ← hoffset] at hbuild
  have harea := block.length_area mem
  have tiles : Tiles (block.paramSet mem).relocated.base
      ((block.paramSet mem).relocated.blobs.map HksParam.span) block.size.toNat := by
    have tiles := relocate_spans (hbuild ▸ hlt)
    rw [← hbuild, hoffset] at tiles
    rw [base_relocated]
    exact tiles
  refine ⟨hsize, tiles.le, fun p hp => ?_, fun p hp => tiles.within _ (List.mem_map_of_mem hp),
    tiles.ordered, tiles, ?_⟩
  · have ⟨hp, hb⟩ := List.mem_filter.mp hp
    exact relocate_inSet hp hb
  · have hblobs := relocate_blobs (block.paramSet mem).base (block.paramSet mem).area
      (Nat.le_of_eq hoffset.symm) (hbuild ▸ hlt)
      (by rw [← hbuild, harea]; omega)
    rw [hoffset, Nat.sub_self, List.drop_zero] at hblobs
    have hall : blobTotal (block.paramSet mem).params = (block.paramSet mem).area.length := by omega
    rw [hall, List.take_length] at hblobs
    have hblob : (block.paramSet mem).relocated.blob = fun p =>
        (p.read (block.paramSet mem).base (block.paramSet mem).area).getD [] := by
      funext p
      rw [blob, base_relocated]
      rfl
    have harea : block.bytes.drop (block.paramSet mem).base = (block.paramSet mem).area := by
      rw [base_paramSet]
      rfl
    rw [hblob, base_relocated, harea]
    exact hblobs

theorem byteCopy_fresh {s c : HksParamSet} (hmax : s.paramSetSize.toNat ≤ maxSize)
    (hbuild : s.paramSetSize.toNat = buildSize s.params) (hc : ByteCopy s.relocated c) :
    hksFreshParamSet c false = .ok { s.relocated with area := c.area } := by
  have herase : c.params.map HksParam.erase = s.params.map HksParam.erase := by
    rw [hc.params, relocated, erase_relocate]
  have hlen : c.params.length = s.params.length := by simpa using congrArg List.length herase
  have hbase : c.base = s.base := by rw [base, base, hlen]
  have hsize : c.paramSetSize = s.paramSetSize := hc.size
  have hsum : buildSize c.params = buildSize s.params := by
    rw [buildSize_params, buildSize_params, hbase, ← blobTotal_erase, herase, blobTotal_erase]
  refine hksFreshParamSet_iff.mpr ⟨hsize ▸ hmax, by rw [hsize, hbuild, hsum], ?_⟩
  simp only [relocated, hbase, hsize]
  rw [← relocate_erase _ c.params, herase, relocate_erase]

end ParamBlock

open ParamBlock

-- Whatever the bytes of a block are: a set that is got from it lies in it, blob behind blob, and is
-- found there again, also in a copy; and every block whose parts add up to its size holds a set.
theorem hksGetParamSet_block (mem : UInt64 → BlobData) (block : ParamBlock) :
    let s := block.paramSet mem
    (∀ t, hksGetParamSet s block.size = .ok t ∨
        s.paramSetSize = block.size ∧ hksFreshParamSet s false = .ok t →
      block.Holds t ∧ t.params.map HksParam.erase = s.params.map HksParam.erase ∧
      ∀ c, ByteCopy t c → ∃ u, hksFreshParamSet c false = .ok u ∧
        u.paramSetSize = t.paramSetSize ∧ u.params = t.params ∧
        u.area.take t.area.length = t.area) ∧
    (s.paramSetSize = block.size → block.size.toNat ≤ maxSize →
      buildSize s.params = block.size.toNat →
      ∃ t, hksGetParamSet s block.size = .ok t ∧ hksFreshParamSet s false = .ok t) := by
  intro s
  refine ⟨fun t h => ?_, fun hsize hmax hsum => ?_⟩
  · have ⟨hsize, hfresh⟩ := h.elim (hksGetParamSet_iff mem block).mp id
    obtain ⟨hmax, hbuild, rfl⟩ := hksFreshParamSet_iff.mp hfresh
    refine ⟨holds_relocated hsize hbuild, erase_relocate _ _, fun c hc => ?_⟩
    refine ⟨_, byteCopy_fresh hmax hbuild hc, rfl, rfl, ?_⟩
    have hlen : s.relocated.paramSetSize.toNat - s.relocated.base = s.relocated.area.length := by
      rw [base_relocated]
      exact hsize ▸ (block.length_area mem).symm
    have harea := hc.area
    rw [hlen, List.take_length] at harea
    exact harea
  · have hfresh := hksFreshParamSet_iff.mpr ⟨hsize ▸ hmax, by rw [hsum, hsize], rfl⟩
    exact ⟨_, (hksGetParamSet_iff mem block).mpr ⟨hsize, hfresh⟩, hfresh⟩

end Huks
