import Huks.Common.Param
import Huks.Lib.StateError
import Mathlib.Algebra.Order.BigOperators.Group.List
import Mathlib.Data.List.TakeDrop
import Mathlib.Tactic.Ring

namespace Huks

open HksParamSet

-- What `HksGetParam` is for: the scalar or the blob behind a tag.
inductive ParamValue
  | scalar (word : UInt64)
  | blob (bytes : Bytes)
  deriving DecidableEq

def HksParam.value (base : Nat) (area : Bytes) (p : HksParam) : ParamValue :=
  if p.isBytes then .blob ((p.read base area).getD []) else .scalar p.word

def HksParamSet.value (s : HksParamSet) (p : HksParam) : ParamValue :=
  p.value s.base s.area

namespace HksParam

@[simp]
theorem isBytes_setData (p : HksParam) (data) : (p.setData data).isBytes = p.isBytes := rfl

@[simp]
theorem tag_setData (p : HksParam) (data) : (p.setData data).tag = p.tag := rfl

@[simp]
theorem blobSize_setData (p : HksParam) (data) : (p.setData data).blobSize = p.blobSize := rfl

@[simp]
theorem setData_setData (p : HksParam) (d d') : (p.setData d).setData d' = p.setData d' := rfl

def blobLength (p : HksParam) : Nat := if p.isBytes then p.blobSize.toNat else 0

def payload (p : HksParam) : Bytes := if p.isBytes then p.bytes else []

-- The entry without the pointer of a blob.
def erase (p : HksParam) : HksParam := if p.isBytes then p.setData .null else p

def External (p : HksParam) : Prop := p.isBytes → ∃ bytes, p.data = .ext bytes

theorem External.read {p : HksParam} (h : p.External) (hb : p.isBytes) (base area) :
    p.read base area = some p.bytes := by
  have ⟨bytes, h⟩ := h hb
  simp [HksParam.read, HksParam.bytes, h]

theorem length_payload {p : HksParam} (h : p.External) : p.payload.length = p.blobLength := by
  unfold payload blobLength
  split
  case isTrue hb =>
    have ⟨bytes, h⟩ := h hb
    simp [HksParam.bytes, HksParam.read, h]
  case isFalse => rfl

end HksParam

def blobTotal (ps : List HksParam) : Nat := (ps.map HksParam.blobLength).sum

def payloads (ps : List HksParam) : Bytes := ps.flatMap HksParam.payload

-- `sizeof(HksParamSet)`, 24 bytes for each param and the blobs.
def buildSize (ps : List HksParam) : Nat :=
  headerSize + paramSize * ps.length + blobTotal ps

-- The entries with each blob pointing behind the one before it.
def relocate (offset : UInt32) : List HksParam → List HksParam
  | [] => []
  | p :: ps =>
    if p.isBytes then
      p.setData (.inSet offset) :: relocate (offset + p.blobSize) ps
    else
      p :: relocate offset ps

@[simp]
theorem blobTotal_nil : blobTotal [] = 0 := rfl

@[simp]
theorem blobTotal_cons (p ps) : blobTotal (p :: ps) = p.blobLength + blobTotal ps := by
  simp [blobTotal]

@[simp]
theorem blobTotal_append (ps qs) : blobTotal (ps ++ qs) = blobTotal ps + blobTotal qs := by
  simp [blobTotal]

@[simp]
theorem payloads_nil : payloads [] = [] := rfl

@[simp]
theorem payloads_cons (p ps) : payloads (p :: ps) = p.payload ++ payloads ps := by
  simp [payloads]

theorem length_payloads {ps : List HksParam} (h : ∀ p ∈ ps, p.External) :
    (payloads ps).length = blobTotal ps := by
  induction ps
  case nil => rfl
  case cons p ps ih =>
    have hp := HksParam.length_payload <| h p (by simp)
    have := ih fun q hq => h q (by simp [hq])
    simp [hp, this]

@[simp]
theorem length_relocate (offset ps) : (relocate offset ps).length = ps.length := by
  induction ps generalizing offset <;> simp [relocate]
  case cons ih => split <;> simp [ih]

theorem isAdditionOverflow_iff (a b : UInt32) :
    isAdditionOverflow a b = true ↔ 2 ^ 32 ≤ a.toNat + b.toNat := by
  simp only [isAdditionOverflow, decide_eq_true_eq, UInt32.lt_iff_toNat_lt]
  rw [UInt32.toNat_sub_of_le]
  · have := a.toNat_lt
    simp
    omega
  · have := a.toNat_lt
    simp [UInt32.le_iff_toNat_le]
    omega

-- `HksAddParams`

-- What a set looks like after `ps` were added to a fresh one.
structure Accumulated (ps : List HksParam) (s : HksParamSet) : Prop where
  params : s.params = ps
  size   : s.paramSetSize = (buildSize ps).toUInt32
  area   : s.area = .replicate (defaultSize - headerSize - paramSize * ps.length) 0
  cnt    : ps.length ≤ defaultParamCnt

theorem Accumulated.init : Accumulated [] hksInitParamSet where
  params := rfl
  size   := rfl
  area   := rfl
  cnt    := Nat.zero_le _

theorem addParam_ok {s t : HksParamSet} {p : HksParam} (h : addParam s p = .ok t) :
    t = ⟨s.paramSetSize + (paramSize + p.blobLength).toUInt32, s.params ++ [p],
      s.area.drop paramSize⟩ := by
  simp only [addParam] at h
  unfold HksParam.blobLength
  split at h
  case isTrue hb =>
    split at h
    case isTrue => cases h
    case isFalse =>
      cases h
      simp [hb, UInt32.add_assoc]
  case isFalse hb =>
    cases h
    simp [hb]

theorem addParams_ok {ps : List HksParam} {s t : HksParamSet}
    (h : ps.foldlM addParam s = .ok t) :
    t.params = s.params ++ ps ∧
    t.paramSetSize = s.paramSetSize + (paramSize * ps.length + blobTotal ps).toUInt32 ∧
    t.area = s.area.drop (paramSize * ps.length) := by
  induction ps generalizing s
  case nil =>
    cases h
    simp
  case cons p ps ih =>
    have ⟨u, hp, h⟩ := Except.foldlM_cons_eq_ok.mp h
    have ⟨hparams, hsize, harea⟩ := ih h
    obtain rfl := addParam_ok hp
    refine ⟨by simp [hparams], ?_, ?_⟩
    · simp only [hsize, blobTotal_cons, List.length_cons]
      rw [UInt32.add_assoc]
      congr 1
      simp [← UInt32.toNat_inj]
      ring_nf
    · simp [harea, List.drop_drop]
      ring_nf

theorem Accumulated.add {ps qs : List HksParam} {s t : HksParamSet} (a : Accumulated ps s)
    (h : hksAddParams s qs = .ok t) : Accumulated (ps ++ qs) t := by
  unfold hksAddParams at h
  have ⟨_, hc, h⟩ := Except.bind_eq_ok.mp h
  have ⟨hparams, hsize, harea⟩ := addParams_ok h
  refine ⟨by simp [hparams, a.params], ?_, ?_, ?_⟩
  · rw [hsize, a.size]
    simp only [buildSize, List.length_append, blobTotal_append]
    simp [← UInt32.toNat_inj]
    ring_nf
  · simp [harea, a.area]
    ring_nf
    omega
  · unfold checkBeforeAddParams at hc
    split at hc
    case isTrue => cases hc
    case isFalse hn =>
      have := a.params ▸ hn
      simp only [not_or, List.length_append] at *
      omega

theorem accumulated {calls : List (List HksParam)} {s : HksParamSet}
    (h : calls.foldlM hksAddParams hksInitParamSet = .ok s) : Accumulated calls.flatten s := by
  suffices ∀ ps u, Accumulated ps u → calls.foldlM hksAddParams u = .ok s →
      Accumulated (ps ++ calls.flatten) s by
    simpa using this _ _ .init h
  clear h
  induction calls
  case nil =>
    intro ps u a h
    cases h
    simpa using a
  case cons qs calls ih =>
    intro ps u a h
    have ⟨v, hq, h⟩ := Except.foldlM_cons_eq_ok.mp h
    simpa using ih _ _ (a.add hq) h

-- `FreshParamSet`

-- No `BYTES` entry is empty with only empty ones behind it.
def LastBlobNonempty (ps : List HksParam) : Prop :=
  ∀ p ∈ (ps.filter HksParam.isBytes).getLast?, p.blobSize ≠ 0

instance (ps : List HksParam) : Decidable (LastBlobNonempty ps) :=
  inferInstanceAs <| Decidable (∀ p ∈ (ps.filter HksParam.isBytes).getLast?, p.blobSize ≠ 0)

theorem LastBlobNonempty.tail {p : HksParam} {ps : List HksParam}
    (h : LastBlobNonempty (p :: ps)) : LastBlobNonempty ps := by
  intro q hq
  apply h
  rw [List.filter_cons]
  split
  case isTrue => simp_all [List.getLast?_cons]
  case isFalse => exact hq

theorem LastBlobNonempty.blobTotal_pos {p : HksParam} {ps : List HksParam}
    (h : LastBlobNonempty (p :: ps)) (hb : p.isBytes) : 0 < blobTotal (p :: ps) := by
  have ⟨q, hq⟩ : ∃ q, ((p :: ps).filter HksParam.isBytes).getLast? = some q := by
    simp [hb, List.getLast?_cons]
  have hmem := List.mem_filter.mp <| List.mem_of_getLast? hq
  have hsize : q.blobSize.toNat ≠ 0 := fun hz => h q hq <| UInt32.toNat_inj.mp hz
  have hle : q.blobLength ≤ blobTotal (p :: ps) :=
    List.le_sum_of_mem <| List.mem_map_of_mem hmem.left
  have hlen : q.blobLength = q.blobSize.toNat := by simp [HksParam.blobLength, hmem.right]
  omega

theorem memcpyS_eq {area src : Bytes} {pos : Nat} {destMax : UInt32} (hd : destMax ≠ 0)
    (hs : src.length ≤ destMax.toNat) :
    memcpyS area pos destMax src =
      some (area.take pos ++ src ++ area.drop (pos + src.length)) := by
  unfold memcpyS
  rw [if_neg]
  simp [hd, hs]

-- With the caller's blobs laid out one behind the other the loop ends at the set's size, and
-- the bytes behind the array are the blobs back to back.
theorem freshParams_copy {base : Nat} {size : UInt32} {ps : List HksParam} :
    ∀ (offset : UInt32) (area : Bytes), (∀ p ∈ ps, p.External) → LastBlobNonempty ps →
      base ≤ offset.toNat → size.toNat = offset.toNat + blobTotal ps →
      size.toNat ≤ base + area.length →
      ∃ area', freshParams base size true ps offset area = .ok (relocate offset ps, size, area') ∧
        area'.length = area.length ∧
        area'.take (size.toNat - base) = area.take (offset.toNat - base) ++ payloads ps := by
  induction ps
  case nil =>
    intro offset area _ _ _ hsize _
    have : offset = size := by simpa [UInt32.toNat_inj] using hsize.symm
    subst this
    exact ⟨area, rfl, rfl, by simp⟩
  case cons p ps ih =>
    intro offset area hext hlast hbase hsize harea
    have hext' := fun q hq => hext q (List.mem_cons_of_mem _ hq)
    have hle : ¬ offset > size := by
      simp only [gt_iff_lt, UInt32.lt_iff_toNat_lt]
      omega
    rw [freshParams, if_neg hle]
    rw [blobTotal_cons] at hsize
    split
    case isFalse hb =>
      have hlen : p.blobLength = 0 := by simp [HksParam.blobLength, hb]
      have ⟨area', hok, hl, htake⟩ := ih offset area hext' hlast.tail hbase (by omega) harea
      refine ⟨area', ?_, hl, ?_⟩
      · simp [hok, relocate, hb, bind, Except.bind, pure, Except.pure]
      · simp [htake, HksParam.payload, hb]
    case isTrue hb =>
      have hlen : p.blobLength = p.blobSize.toNat := by simp [HksParam.blobLength, hb]
      have hpayload : p.payload = p.bytes := by simp [HksParam.payload, hb]
      have hbytes : p.bytes.length = p.blobSize.toNat := by
        rw [← hlen, ← hpayload, HksParam.length_payload (hext p (by simp))]
      have hlt := size.toNat_lt
      have hover : isAdditionOverflow offset p.blobSize = false := by
        rw [Bool.eq_false_iff, ne_eq, isAdditionOverflow_iff]
        omega
      have hoffset : (offset + p.blobSize).toNat = offset.toNat + p.blobSize.toNat := by
        rw [UInt32.toNat_add]
        omega
      have hsub : (size - offset).toNat = size.toNat - offset.toNat :=
        UInt32.toNat_sub_of_le _ _ <| UInt32.le_iff_toNat_le.mpr (by omega)
      have hpos := hlast.blobTotal_pos hb
      rw [blobTotal_cons] at hpos
      have hdest : size - offset ≠ 0 := by
        rw [ne_eq, ← UInt32.toNat_inj, hsub]
        simp
        omega
      have hcopy : freshParams.copy base size true p offset area =
          .ok (area.take (offset.toNat - base) ++ p.bytes ++
            area.drop (offset.toNat - base + p.bytes.length)) := by
        simp only [freshParams.copy, (hext p (by simp)).read hb, ↓reduceIte]
        rw [Option.bind_eq_bind, Option.bind_some, memcpyS_eq hdest (by omega)]
      have ⟨area', hok, hl, htake⟩ := ih (offset + p.blobSize)
        (area.take (offset.toNat - base) ++ p.bytes ++
          area.drop (offset.toNat - base + p.bytes.length))
        hext' hlast.tail (by omega) (by omega) (by simp; omega)
      refine ⟨area', ?_, ?_, ?_⟩
      · rw [hover, hcopy]
        simp only [relocate, hb, bind, Except.bind, pure, Except.pure, hok, Bool.false_eq_true,
          ↓reduceIte]
      · simp [hl]
        omega
      · rw [htake, payloads_cons, hpayload, hoffset, ← List.append_assoc]
        congr 1
        rw [List.take_append_of_le_length (by simp; omega), List.take_of_length_le (by simp; omega)]

-- Without copying only the pointers change, whatever they were.
theorem freshParams_noCopy {size : UInt32} (base : Nat) (area : Bytes) {ps : List HksParam} :
    ∀ (offset : UInt32), size.toNat = offset.toNat + blobTotal ps →
      freshParams base size false ps offset area = .ok (relocate offset ps, size, area) := by
  induction ps
  case nil =>
    intro offset hsize
    have : offset = size := by simpa [UInt32.toNat_inj] using hsize.symm
    rw [this]
    rfl
  case cons p ps ih =>
    intro offset hsize
    have hle : ¬ offset > size := by
      simp only [gt_iff_lt, UInt32.lt_iff_toNat_lt]
      omega
    rw [freshParams, if_neg hle]
    rw [blobTotal_cons] at hsize
    split
    case isFalse hb =>
      have hlen : p.blobLength = 0 := by simp [HksParam.blobLength, hb]
      rw [ih offset (by omega)]
      simp [relocate, hb, bind, Except.bind, pure, Except.pure]
    case isTrue hb =>
      have hlen : p.blobLength = p.blobSize.toNat := by simp [HksParam.blobLength, hb]
      have hlt := size.toNat_lt
      have hover : isAdditionOverflow offset p.blobSize = false := by
        rw [Bool.eq_false_iff, ne_eq, isAdditionOverflow_iff]
        omega
      have hrest := ih (offset + p.blobSize) (by rw [UInt32.toNat_add]; omega)
      simp [hover, freshParams.copy, hrest, relocate, hb, bind, Except.bind, pure, Except.pure]

-- `HksBuildParamSet`

theorem hksCheckParamSet_ok {s : HksParamSet} {ps : List HksParam} (hmax : buildSize ps ≤ maxSize)
    (hsize : s.paramSetSize.toNat = buildSize ps) (hlen : s.params.length = ps.length) :
    hksCheckParamSet s s.paramSetSize = .ok () := by
  unfold hksCheckParamSet
  rw [if_neg]
  simp only [hsize, hlen, ne_eq, not_true_eq_false, false_or]
  simp only [buildSize, headerSize, paramSize, maxSize] at *
  omega

namespace Accumulated

variable {ps : List HksParam} {s : HksParamSet}

theorem base (a : Accumulated ps s) : s.base = headerSize + paramSize * ps.length := by
  rw [HksParamSet.base, a.params]

theorem size_toNat (a : Accumulated ps s) (hmax : buildSize ps ≤ maxSize) :
    s.paramSetSize.toNat = buildSize ps := by
  rw [a.size]
  simp only [maxSize] at hmax
  simp
  omega

theorem base_toNat (a : Accumulated ps s) (hmax : buildSize ps ≤ maxSize) :
    s.base.toUInt32.toNat = s.base := by
  rw [a.base]
  simp only [buildSize, maxSize] at hmax
  rw [Nat.toUInt32, UInt32.toNat_ofNat']
  omega

-- Both branches of `BuildParamSet`, the default block and the larger one, leave room for every
-- blob behind the array.
theorem buildParamSet_eq (a : Accumulated ps s) (hmax : buildSize ps ≤ maxSize) :
    ∃ area : Bytes, buildSize ps ≤ s.base + area.length ∧
      buildParamSet s = freshParamSet { s with area := area } true := by
  have hsize := a.size_toNat hmax
  have hbase := a.base
  have hle : s.base ≤ buildSize ps := by simp [buildSize, hbase]
  have hcheck (area : Bytes) : hksCheckParamSet { s with area := area } s.paramSetSize = .ok () :=
    hksCheckParamSet_ok (s := { s with area := area }) hmax hsize (by rw [a.params])
  simp only [buildParamSet, hksFreshParamSet]
  split
  case isTrue hbig =>
    rw [if_neg (by omega), hcheck]
    refine ⟨_, ?_, rfl⟩
    simp only [List.length_replicate]
    omega
  case isFalse hsmall =>
    rw [show hksCheckParamSet s s.paramSetSize = .ok () from hcheck s.area]
    refine ⟨s.area, ?_, rfl⟩
    have hcnt := a.cnt
    simp only [a.area, List.length_replicate]
    simp only [headerSize, paramSize, defaultSize, defaultParamCnt] at *
    omega

end Accumulated

-- What a successful build produces.
structure Built (ps : List HksParam) (t : HksParamSet) : Prop where
  params : t.params = relocate t.base.toUInt32 ps
  size   : t.paramSetSize.toNat = buildSize ps
  area   : t.area.take (blobTotal ps) = payloads ps

namespace Built

variable {ps : List HksParam} {t : HksParamSet}

theorem base (b : Built ps t) : t.base = headerSize + paramSize * ps.length := by
  rw [HksParamSet.base, b.params, length_relocate]

theorem check (b : Built ps t) (hmax : buildSize ps ≤ maxSize) :
    hksCheckParamSet t t.paramSetSize = .ok () :=
  hksCheckParamSet_ok hmax b.size (by rw [b.params, length_relocate])

theorem base_toNat (b : Built ps t) (hmax : buildSize ps ≤ maxSize) :
    t.base.toUInt32.toNat = t.base := by
  rw [b.base, Nat.toUInt32, UInt32.toNat_ofNat']
  simp only [buildSize, maxSize] at hmax
  omega

end Built

theorem Accumulated.build {ps : List HksParam} {s : HksParamSet} (a : Accumulated ps s)
    (hext : ∀ p ∈ ps, p.External) (hlast : LastBlobNonempty ps) (hmax : buildSize ps ≤ maxSize) :
    ∃ t, hksBuildParamSet s = .ok t ∧ Built ps t := by
  have ⟨area, harea, hbuild⟩ := a.buildParamSet_eq hmax
  have hsize := a.size_toNat hmax
  have hoffset := a.base_toNat hmax
  have hblobs : s.paramSetSize.toNat = s.base.toUInt32.toNat + blobTotal ps := by
    rw [hsize, hoffset, a.base, buildSize]
  have harea' : s.paramSetSize.toNat ≤ s.base + area.length := by omega
  have ⟨area', hfresh, _, htake⟩ :=
    freshParams_copy s.base.toUInt32 area hext hlast (Nat.le_of_eq hoffset.symm) hblobs harea'
  have hok : hksBuildParamSet s = .ok ⟨s.paramSetSize, relocate s.base.toUInt32 ps, area'⟩ := by
    rw [hksBuildParamSet, hksCheckParamSet_ok hmax hsize (by rw [a.params]), hbuild, freshParamSet]
    rw [← a.params] at hfresh ⊢
    change (freshParams s.base s.paramSetSize true s.params s.base.toUInt32 area >>= _) = _
    rw [hfresh]
    simp [bind, Except.bind]
  refine ⟨_, hok, ?_, hsize, ?_⟩
  · simp only [HksParamSet.base, length_relocate, a.params]
  · rw [hoffset, Nat.sub_self, List.take_zero, List.nil_append] at htake
    rwa [hblobs, hoffset, Nat.add_sub_cancel_left] at htake

-- `HksGetParam`

-- What `HksGetParam` makes of the first entry with the tag.
def HksParam.found (base : Nat) (area : Bytes) (p : HksParam) : Except HksErrorCode ParamValue :=
  if p.isBytes ∧ ¬p.checkBlob then .error .invalidArgument else .ok (p.value base area)

-- The first param with the tag that was added; an empty blob counts as an invalid one.
def lookup (ps : List HksParam) (tag : UInt32) : Except HksErrorCode ParamValue :=
  match ps.find? (·.tag = tag) with
  | none   => .error .paramNotExist
  | some p =>
    if p.isBytes then
      if p.blobSize = 0 then .error .invalidArgument else .ok (.blob p.bytes)
    else
      .ok (.scalar p.word)

theorem hksGetParam_eq {s : HksParamSet} (h : hksCheckParamSet s s.paramSetSize = .ok ())
    (tag : UInt32) :
    (hksGetParam s tag).map s.value =
      ((s.params.find? (·.tag = tag)).map (HksParam.found s.base s.area)).getD
        (.error .paramNotExist) := by
  unfold hksGetParam
  rw [h]
  cases hf : s.params.find? (·.tag = tag)
  case none => rfl
  case some p =>
    have htag : p.tag = tag := by simpa using List.find?_some hf
    subst htag
    simp only [Option.map_some, Option.getD_some, HksParam.found, HksParam.isBytes,
      decide_eq_true_eq]
    split <;> rfl

theorem lookup_eq {ps : List HksParam} (hext : ∀ p ∈ ps, p.External) (tag : UInt32) :
    lookup ps tag =
      ((ps.find? (·.tag = tag)).map (HksParam.found 0 [])).getD (.error .paramNotExist) := by
  unfold lookup
  cases hf : ps.find? (·.tag = tag)
  case none => rfl
  case some p =>
    simp only [Option.map_some, Option.getD_some, HksParam.found, HksParam.value]
    split
    case isFalse hb => simp [hb]
    case isTrue hb =>
      have ⟨bytes, hdata⟩ := hext p (List.mem_of_find?_eq_some hf) hb
      by_cases hz : p.blobSize = 0 <;> simp [hb, hz, HksParam.checkBlob, hdata, HksParam.bytes]

theorem takeD_eq_take : ∀ {area : Bytes} {n : Nat}, n ≤ area.length →
    area.takeD n 0 = area.take n
  | _, 0, _ => by simp
  | _ :: area, n + 1, h => by simp [takeD_eq_take (Nat.le_of_succ_le_succ h)]

-- The relocated pointer of a blob leads to the bytes that were added.
theorem find?_relocate {base : Nat} {area : Bytes} {q : UInt32 → Bool} {ps : List HksParam} :
    ∀ {offset : UInt32}, (∀ p ∈ ps, p.External) → base ≤ offset.toNat →
      offset.toNat + blobTotal ps < 2 ^ 32 →
      (area.drop (offset.toNat - base)).take (blobTotal ps) = payloads ps →
      ((relocate offset ps).find? (q ·.tag)).map (HksParam.found base area) =
        (ps.find? (q ·.tag)).map (HksParam.found 0 []) := by
  induction ps
  case nil => simp [relocate]
  case cons p ps ih =>
    intro offset hext hbase hlt harea
    have hext' := fun q hq => hext q (List.mem_cons_of_mem _ hq)
    rw [blobTotal_cons] at hlt harea
    rw [relocate]
    split
    case isFalse hb =>
      have hlen : p.blobLength = 0 := by simp [HksParam.blobLength, hb]
      have hrest := ih hext' hbase (by omega)
        (by simpa [hlen, HksParam.payload, hb] using harea)
      rw [List.find?_cons, List.find?_cons]
      split
      case h_1 => simp [HksParam.found, HksParam.value, hb]
      case h_2 => exact hrest
    case isTrue hb =>
      have hlen : p.blobLength = p.blobSize.toNat := by simp [HksParam.blobLength, hb]
      have hpayload : p.payload = p.bytes := by simp [HksParam.payload, hb]
      have hbytes : p.bytes.length = p.blobSize.toNat := by
        rw [← hlen, ← hpayload, HksParam.length_payload (hext p (by simp))]
      have hoffset : (offset + p.blobSize).toNat = offset.toNat + p.blobSize.toNat := by
        rw [UInt32.toNat_add]
        omega
      rw [hlen, payloads_cons, hpayload, List.take_add, List.drop_drop] at harea
      have hroom : p.blobSize.toNat ≤ (area.drop (offset.toNat - base)).length := by
        have := congrArg List.length harea
        simp [hbytes, length_payloads hext'] at this
        simp
        omega
      have ⟨hhead, htail⟩ := List.append_inj harea (by
        rw [hbytes, List.length_take]
        omega)
      rw [List.find?_cons, List.find?_cons, HksParam.tag_setData]
      cases q p.tag
      case true =>
        have ⟨bytes, hdata⟩ := hext p (by simp) hb
        have hread : (p.setData (.inSet offset)).read base area = some p.bytes := by
          rw [← hhead, ← takeD_eq_take hroom]
          rfl
        have hcheck : (p.setData (.inSet offset)).checkBlob = p.checkBlob := by
          simp [HksParam.checkBlob, HksParam.setData, hdata, HksParam.blobSize]
        simp [HksParam.found, HksParam.value, hread, hcheck, (hext p (by simp)).read hb, hb]
      case false =>
        refine ih hext' (by omega) (by omega) ?_
        rwa [hoffset, Nat.sub_add_comm hbase]

theorem Built.getParam {ps : List HksParam} {t : HksParamSet} (b : Built ps t)
    (hext : ∀ p ∈ ps, p.External) (hmax : buildSize ps ≤ maxSize) (tag : UInt32) :
    (hksGetParam t tag).map t.value = lookup ps tag := by
  have hbase := b.base_toNat hmax
  rw [hksGetParam_eq (b.check hmax), lookup_eq hext, b.params]
  congr 1
  refine find?_relocate (q := fun t => t = tag) hext (by omega) ?_ ?_
  · simp only [buildSize, maxSize] at hmax
    rw [hbase, b.base]
    omega
  · rw [hbase, Nat.sub_self, List.drop_zero, b.area]

-- `HksGetParamSet`

-- `c` holds the bytes of `t`; its pointers are whatever they are at the new place.
structure ByteCopy (t c : HksParamSet) : Prop where
  size   : c.paramSetSize = t.paramSetSize
  params : c.params.map HksParam.erase = t.params.map HksParam.erase
  area   : c.area.take (t.paramSetSize.toNat - t.base) = t.area.take (t.paramSetSize.toNat - t.base)

@[simp]
theorem relocate_erase (offset ps) : relocate offset (ps.map HksParam.erase) = relocate offset ps := by
  induction ps generalizing offset
  case nil => rfl
  case cons p ps ih => by_cases hb : p.isBytes <;> simp [relocate, HksParam.erase, hb, ih]

@[simp]
theorem erase_relocate (offset ps) : (relocate offset ps).map HksParam.erase = ps.map HksParam.erase := by
  induction ps generalizing offset
  case nil => rfl
  case cons p ps ih => by_cases hb : p.isBytes <;> simp [relocate, HksParam.erase, hb, ih]

@[simp]
theorem blobTotal_erase (ps) : blobTotal (ps.map HksParam.erase) = blobTotal ps := by
  induction ps
  case nil => rfl
  case cons p ps ih => by_cases hb : p.isBytes <;> simp [HksParam.blobLength, HksParam.erase, hb, ih]

theorem Built.getParamSet {ps : List HksParam} {t c : HksParamSet} (b : Built ps t)
    (hmax : buildSize ps ≤ maxSize) (hc : ByteCopy t c) :
    ∃ u, hksGetParamSet c c.paramSetSize = .ok u ∧ Built ps u := by
  have herase : c.params.map HksParam.erase = ps.map HksParam.erase := by
    rw [hc.params, b.params, erase_relocate]
  have hlen : c.params.length = ps.length := by simpa using congrArg List.length herase
  have hbase : c.base = t.base := by rw [HksParamSet.base, hlen, b.base]
  have hoffset := b.base_toNat hmax
  have hparams : relocate t.base.toUInt32 c.params = relocate t.base.toUInt32 ps := by
    rw [← relocate_erase, herase, relocate_erase]
  have htotal : blobTotal c.params = blobTotal ps := by
    rw [← blobTotal_erase, herase, blobTotal_erase]
  have hsize : c.paramSetSize.toNat = t.base.toUInt32.toNat + blobTotal c.params := by
    rw [hc.size, b.size, hoffset, htotal, b.base, buildSize]
  have hroom : c.paramSetSize.toNat - t.base = blobTotal ps := by
    rw [hc.size, b.size, b.base, buildSize, Nat.add_sub_cancel_left]
  have hfresh := freshParams_noCopy t.base (c.area.take (blobTotal ps)) _ hsize
  have hok : hksGetParamSet c c.paramSetSize =
      .ok ⟨c.paramSetSize, relocate t.base.toUInt32 ps, c.area.take (blobTotal ps)⟩ := by
    rw [hksGetParamSet, hksCheckParamSet_ok hmax (hc.size ▸ b.size) hlen, freshParamSet]
    change (freshParams c.base c.paramSetSize false c.params c.base.toUInt32
      (c.area.take (c.paramSetSize.toNat - c.base)) >>= _) = _
    rw [hbase, hroom, hfresh, hparams]
    exact if_neg (· rfl)
  have harea := hc.area
  rw [← hc.size, hroom, b.area] at harea
  have hbase' : (HksParamSet.mk c.paramSetSize (relocate t.base.toUInt32 ps)
      (c.area.take (blobTotal ps))).base = t.base := by
    rw [b.base, HksParamSet.base, length_relocate]
  refine ⟨_, hok, by rw [hbase'], hc.size ▸ b.size, ?_⟩
  · rw [List.take_take, Nat.min_self, harea]

-- A set that was built from `ps` gives back, for every tag, the first param added with it, and so
-- does every set that was received as the bytes of such a block.
theorem hksBuildParamSet_roundTrip (calls : List (List HksParam)) {s : HksParamSet}
    (hadd : calls.foldlM hksAddParams hksInitParamSet = .ok s)
    (hext : ∀ p ∈ calls.flatten, p.External) (hlast : LastBlobNonempty calls.flatten)
    (hmax : buildSize calls.flatten ≤ maxSize) :
    ∃ t, hksBuildParamSet s = .ok t ∧
      t.paramSetSize.toNat = buildSize calls.flatten ∧
      t.params = relocate t.base.toUInt32 calls.flatten ∧
      t.area.take (blobTotal calls.flatten) = payloads calls.flatten ∧
      (∀ tag, (hksGetParam t tag).map t.value = lookup calls.flatten tag) ∧
      ∀ c, ByteCopy t c → ∃ u, hksGetParamSet c c.paramSetSize = .ok u ∧
        ∀ tag, (hksGetParam u tag).map u.value = lookup calls.flatten tag := by
  have ⟨t, hok, b⟩ := (accumulated hadd).build hext hlast hmax
  refine ⟨t, hok, b.size, b.params, b.area, b.getParam hext hmax, ?_⟩
  intro c hc
  have ⟨u, hu, bu⟩ := b.getParamSet hmax hc
  exact ⟨u, hu, bu.getParam hext hmax⟩

-- An algorithm, a mid-array empty blob and a nonce: the lookups of the theorem above.
theorem hksBuildParamSet_roundTrip_nonce :
    ∃ t, hksBuildParamSet ⟨84, [⟨HksTag.algorithm, 20, .null⟩, ⟨HksTag.iv, 0, .ext []⟩,
        ⟨HksTag.nonce, 4, .ext [1, 2, 3, 4]⟩], .replicate 944 0⟩ = .ok t ∧
      t.paramSetSize = 84 ∧ t.area.take 4 = [1, 2, 3, 4] ∧
      (hksGetParam t HksTag.nonce).map t.value = .ok (.blob [1, 2, 3, 4]) ∧
      (hksGetParam t HksTag.algorithm).map t.value = .ok (.scalar 20) := by
  have ⟨t, hok, hsize, _, harea, hget, _⟩ := hksBuildParamSet_roundTrip
    ([[⟨HksTag.algorithm, 20, .null⟩],
      [⟨HksTag.iv, 0, .ext []⟩, ⟨HksTag.nonce, 4, .ext [1, 2, 3, 4]⟩]])
    (s := ⟨84, [⟨HksTag.algorithm, 20, .null⟩, ⟨HksTag.iv, 0, .ext []⟩,
      ⟨HksTag.nonce, 4, .ext [1, 2, 3, 4]⟩], .replicate 944 0⟩)
    (by decide +kernel) (by simp [HksParam.External, HksParam.isBytes]; decide) (by decide) (by decide)
  exact ⟨t, hok, UInt32.toNat_inj.mp hsize, harea, hget _, hget _⟩

-- A single empty blob does not build, and one in the middle builds but is not found.
theorem hksBuildParamSet_empty_blob :
    (∃ s, [[HksParam.mk HksTag.nonce 0 (.ext [])]].foldlM hksAddParams hksInitParamSet = .ok s ∧
      buildSize [HksParam.mk HksTag.nonce 0 (.ext [])] ≤ maxSize ∧
      hksBuildParamSet s = .error .insufficientMemory) ∧
    ∃ s t, [[HksParam.mk HksTag.iv 0 (.ext []), HksParam.mk HksTag.nonce 1 (.ext [7])]].foldlM
        hksAddParams hksInitParamSet = .ok s ∧
      hksBuildParamSet s = .ok t ∧ hksGetParam t HksTag.iv = .error .invalidArgument := by
  refine ⟨⟨⟨32, [⟨HksTag.nonce, 0, .ext []⟩], .replicate 992 0⟩, ?_⟩,
    ⟨57, [⟨HksTag.iv, 0, .ext []⟩, ⟨HksTag.nonce, 1, .ext [7]⟩], .replicate 968 0⟩,
    ⟨57, [⟨HksTag.iv, 0, .inSet 56⟩, ⟨HksTag.nonce, 1, .inSet 56⟩], 7 :: .replicate 967 0⟩, ?_⟩
    <;> decide +kernel

end Huks
