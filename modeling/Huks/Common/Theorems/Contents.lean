import Huks.Common.Theorems.ParamBlock
import Huks.Common.Theorems.Words
import Huks.Lib.FixedCodec

namespace Huks

open HksParamSet

-- A param set as a list of tags and values.
abbrev Contents := List (UInt32 × ParamValue)

def HksParam.content (base : Nat) (area : Bytes) (p : HksParam) : UInt32 × ParamValue :=
  (p.tag, p.value base area)

def HksParamSet.contents (s : HksParamSet) : Contents := s.params.map (·.content s.base s.area)

def contentsOf (ps : List HksParam) : Contents := ps.map (·.content 0 [])

-- What `HksGetParam` finds in a set whose blobs all lie somewhere.
def Contents.get (c : Contents) (tag : UInt32) : Except HksErrorCode ParamValue :=
  match c.find? (·.1 = tag) with
  | none                => .error .paramNotExist
  | some (_, .blob [])  => .error .invalidArgument
  | some (_, value)     => .ok value

theorem Contents.get_of_find {c : Contents} {tag : UInt32} {value : ParamValue}
    (h : c.find? (·.1 = tag) = some (tag, value)) (hvalue : value ≠ .blob []) :
    c.get tag = .ok value := by
  rw [get, h]
  split
  case h_1 h => cases h
  case h_2 h =>
    cases h
    exact absurd rfl hvalue
  case h_3 h =>
    cases h
    rfl

@[simp]
theorem contentsOf_nil : contentsOf [] = [] := rfl

@[simp]
theorem contentsOf_cons (p ps) : contentsOf (p :: ps) = p.content 0 [] :: contentsOf ps := rfl

@[simp]
theorem contentsOf_append (ps qs) : contentsOf (ps ++ qs) = contentsOf ps ++ contentsOf qs :=
  List.map_append

-- Another entry does not matter for the other tags.
theorem Contents.get_insert {c d : Contents} {k : UInt32 × ParamValue} {tag : UInt32}
    (h : k.1 ≠ tag) : Contents.get (c ++ k :: d) tag = Contents.get (c ++ d) tag := by
  rw [Contents.get, Contents.get, List.find?_append, List.find?_append,
    List.find?_cons_of_neg (by simpa using h)]

theorem HksParam.length_read {base : Nat} {area bytes : Bytes} {p : HksParam}
    (h : p.read base area = some bytes) : bytes.length = p.blobSize.toNat := by
  unfold HksParam.read at h
  split at h <;> cases h <;> exact List.takeD_length ..

theorem HksParam.read_isSome (base : Nat) (area : Bytes) {p : HksParam} (h : p.data ≠ .null) :
    ∃ bytes, p.read base area = some bytes := by
  unfold HksParam.read
  split
  case h_1 hd => exact absurd hd h
  case h_2 => exact ⟨_, rfl⟩
  case h_3 => exact ⟨_, rfl⟩

theorem hksGetParam_contents {s : HksParamSet} (h : hksCheckParamSet s s.paramSetSize = .ok ())
    (hdata : ∀ p ∈ s.params, p.isBytes → p.data ≠ .null) (tag : UInt32) :
    (hksGetParam s tag).map s.value = s.contents.get tag := by
  rw [hksGetParam_eq h, Contents.get, HksParamSet.contents, List.find?_map]
  have hcomp : (fun c : UInt32 × ParamValue => decide (c.1 = tag)) ∘ HksParam.content s.base s.area =
      fun p => decide (p.tag = tag) := rfl
  rw [hcomp]
  cases hf : s.params.find? (·.tag = tag)
  case none => rfl
  case some p =>
    simp only [Option.map_some, Option.getD_some, HksParam.content, HksParam.found, HksParam.value]
    by_cases hb : p.isBytes
    case neg => simp [hb]
    case pos =>
      have hnull := hdata p (List.mem_of_find?_eq_some hf) hb
      obtain ⟨bytes, hread⟩ := HksParam.read_isSome s.base s.area hnull
      have hlen := HksParam.length_read hread
      simp only [hb, hread, HksParam.checkBlob, hnull, if_true, Option.getD_some, ne_eq,
        not_false_eq_true, true_and, decide_not, Bool.not_eq_true', decide_eq_false_iff_not,
        not_not]
      cases bytes
      case nil =>
        have hz : p.blobSize = 0 := UInt32.toNat_inj.mp hlen.symm
        simp [hz]
      case cons b bs =>
        have hz : p.blobSize ≠ 0 := by
          rintro hz
          simp [hz] at hlen
        simp [hz]

theorem getParam_value {s : HksParamSet} {tag : UInt32} {p : HksParam}
    (h : hksGetParam s tag = .ok p) :
    p.tag = tag ∧ (p.isBytes → p.data ≠ .null) := by
  unfold hksGetParam at h
  split at h
  case h_1 => cases h
  case h_2 =>
    split at h
    case h_1 => cases h
    case h_2 q hq =>
      split at h
      case isTrue => cases h
      case isFalse hb =>
        cases h
        have htag : p.tag = tag := by simpa using List.find?_some hq
        refine ⟨htag, fun hp => ?_⟩
        simp only [HksParam.isBytes, htag, decide_eq_true_eq] at hp
        simp only [hp, HksParam.checkBlob, true_and, not_not, decide_eq_true_eq] at hb
        exact hb.1

theorem hksGetParam_mem {s : HksParamSet} {tag : UInt32} {p : HksParam}
    (h : hksGetParam s tag = .ok p) : p ∈ s.params := by
  unfold hksGetParam at h
  split at h
  case h_1 => cases h
  case h_2 =>
    split at h
    case h_1 => cases h
    case h_2 q hq =>
      split at h <;> cases h
      exact List.mem_of_find?_eq_some hq

theorem hksGetParam_checkBlob {s : HksParamSet} {tag : UInt32} (ht : getTagType tag = .bytes)
    {p : HksParam} (h : hksGetParam s tag = .ok p) : p.checkBlob := by
  unfold hksGetParam at h
  split at h
  case h_1 => cases h
  case h_2 =>
    split at h
    case h_1 => cases h
    case h_2 q hq =>
      split at h
      case isTrue => cases h
      case isFalse hb =>
        cases h
        simpa [ht] using hb

-- A blob that is found is not empty.
theorem hksGetParam_nonempty {s : HksParamSet} {tag : UInt32} {p : HksParam}
    (h : hksGetParam s tag = .ok p) : s.value p ≠ .blob [] := by
  intro hvalue
  simp only [HksParamSet.value, HksParam.value] at hvalue
  split at hvalue
  case isFalse => cases hvalue
  case isTrue hb =>
    obtain ⟨htag, hdata⟩ := getParam_value h
    have ht : getTagType tag = .bytes := by simpa [HksParam.isBytes, htag] using hb
    have hcheck := hksGetParam_checkBlob ht h
    obtain ⟨bytes, hread⟩ := HksParam.read_isSome s.base s.area (hdata hb)
    have hlen := HksParam.length_read hread
    simp only [hread, Option.getD_some, ParamValue.blob.injEq] at hvalue
    simp only [HksParam.checkBlob, ne_eq, decide_eq_true_eq] at hcheck
    apply hcheck.2
    rw [← UInt32.toNat_inj, ← hlen, hvalue]
    rfl

def ParamValue.uint32 : ParamValue → UInt32
  | .blob _      => 0
  | .scalar word => word.toUInt32

theorem getUInt32_value (s : HksParamSet) {tag : UInt32} (ht : getTagType tag ≠ .bytes) :
    getUInt32 s tag = ((hksGetParam s tag).map s.value).map ParamValue.uint32 := by
  unfold getUInt32
  cases h : hksGetParam s tag
  case error => rfl
  case ok p =>
    have ⟨htag, _⟩ := getParam_value h
    have hb : p.isBytes = false := by simp [HksParam.isBytes, htag, ht]
    simp [Except.map, HksParamSet.value, HksParam.value, hb, ParamValue.uint32, HksParam.uint32Param]

def ParamValue.bytes : ParamValue → Bytes
  | .blob bytes => bytes
  | .scalar _   => []

theorem getBlob_value (s : HksParamSet) {tag : UInt32} (ht : getTagType tag = .bytes) :
    getBlob s tag = ((hksGetParam s tag).map s.value).map ParamValue.bytes := by
  unfold getBlob
  cases h : hksGetParam s tag
  case error => rfl
  case ok p =>
    have ⟨htag, _⟩ := getParam_value h
    have hb : p.isBytes := by simp [HksParam.isBytes, htag, ht]
    simp [Except.map, HksParamSet.value, HksParam.value, hb, ParamValue.bytes, HksParamSet.blob]

namespace HksParam

theorem isBytes_ofBytes {tag : UInt32} (ht : getTagType tag = .bytes) (bytes : Bytes) :
    (ofBytes tag bytes).isBytes := by
  simp [isBytes, ofBytes, ht]

theorem blobSize_ofBytes {tag : UInt32} {bytes : Bytes} (h : bytes.length < 2 ^ 32) :
    (ofBytes tag bytes).blobSize.toNat = bytes.length := by
  simp only [blobSize, ofBytes, Nat.toUInt64, UInt64.toNat_toUInt32, UInt64.toNat_ofNat']
  omega

theorem bytes_ofBytes {tag : UInt32} {bytes : Bytes} (h : bytes.length < 2 ^ 32) :
    (ofBytes tag bytes).bytes = bytes := by
  have hsize : (ofBytes tag bytes).blobSize.toNat = bytes.length := blobSize_ofBytes h
  simp only [HksParam.bytes, read, ofBytes, Option.getD_some] at *
  rw [hsize]
  exact FixedBytes.takeD_length_self bytes

theorem content_ofBytes {tag : UInt32} {bytes : Bytes} (ht : getTagType tag = .bytes)
    (h : bytes.length < 2 ^ 32) : (ofBytes tag bytes).content 0 [] = (tag, .blob bytes) := by
  have hb := isBytes_ofBytes ht bytes
  have hbytes : (ofBytes tag bytes).bytes = bytes := bytes_ofBytes h
  simp only [HksParam.bytes] at hbytes
  simp only [content, value, hb, if_true, hbytes]
  rfl

end HksParam

theorem hksCheckIsTagAlreadyExist_ok {tags : List UInt32} {s : HksParamSet}
    (h : hksCheckIsTagAlreadyExist tags s = .ok ()) : ∀ p ∈ s.params, p.tag ∉ tags := by
  have ⟨_, _, h⟩ := Except.bind_eq_ok.mp h
  split at h
  case isTrue => cases h
  case isFalse hany => simpa using hany

theorem hksAddParams_data {s t : HksParamSet} {ps : List HksParam} (h : hksAddParams s ps = .ok t) :
    ∀ p ∈ ps, p.isBytes → p.data ≠ .null := by
  have ⟨_, hcheck, _⟩ := Except.bind_eq_ok.mp h
  unfold checkBeforeAddParams at hcheck
  split at hcheck
  case isTrue => cases hcheck
  case isFalse =>
    split at hcheck
    case isTrue => cases hcheck
    case isFalse hany =>
      intro p hp hb hnull
      exact hany (List.any_eq_true.mpr ⟨p, hp, by simp [hb, hnull]⟩)

theorem entries_external {s t : HksParamSet} (h : hksAddParams hksInitParamSet s.entries = .ok t) :
    ∀ p ∈ s.entries, p.External := by
  intro p hp hb
  have hnull := hksAddParams_data h p hp hb
  have ⟨q, hq, hpq⟩ := List.mem_map.mp hp
  split at hpq
  case isTrue =>
    subst hpq
    exact ⟨_, rfl⟩
  case isFalse hq =>
    subst hpq
    exact absurd ⟨hb, hnull⟩ hq

-- A blob that was moved out of its set is the same to a reader.
theorem HksParam.value_setData {p : HksParam} (base : Nat) (area : Bytes) (hb : p.isBytes)
    (hnull : p.data ≠ .null) (base' : Nat) (area' : Bytes) :
    (p.setData (.ext ((p.read base area).getD []))).value base' area' = p.value base area := by
  have ⟨bytes, hread⟩ := HksParam.read_isSome base area hnull
  have hlen := HksParam.length_read hread
  simp only [HksParam.value, HksParam.isBytes_setData, hb, if_true, hread, Option.getD_some]
  simp only [HksParam.read, HksParam.setData, Option.getD_some, HksParam.blobSize] at *
  rw [← hlen, FixedBytes.takeD_length_self]

theorem HksParam.value_outside {p : HksParam} (h : ¬(p.isBytes ∧ p.data ≠ .null)) (base : Nat)
    (area : Bytes) (base' : Nat) (area' : Bytes) : p.value base' area' = p.value base area := by
  by_cases hb : p.isBytes
  case neg => simp [HksParam.value, hb]
  case pos =>
    have hnull : p.data = .null := by
      by_contra hnull
      exact h ⟨hb, hnull⟩
    simp [HksParam.value, hb, HksParam.read, hnull]

theorem contentsOf_entries (s : HksParamSet) : contentsOf s.entries = s.contents := by
  simp only [contentsOf, HksParamSet.entries, HksParamSet.contents, List.map_map]
  apply List.map_congr_left
  intro p hp
  simp only [Function.comp_apply]
  split
  case isTrue h => exact congrArg (p.tag, ·) (HksParam.value_setData s.base s.area h.1 h.2 0 [])
  case isFalse h => exact congrArg (p.tag, ·) (HksParam.value_outside h s.base s.area 0 [])

theorem blobLength_words {p q : HksParam} (h : (p.tag, p.word) = (q.tag, q.word)) :
    p.isBytes = q.isBytes ∧ p.blobSize = q.blobSize ∧ p.blobLength = q.blobLength := by
  have ⟨htag, hword⟩ := Prod.mk.inj h
  have hb : p.isBytes = q.isBytes := by rw [HksParam.isBytes, htag, HksParam.isBytes]
  have hs : p.blobSize = q.blobSize := by rw [HksParam.blobSize, hword, HksParam.blobSize]
  exact ⟨hb, hs, by rw [HksParam.blobLength, hb, hs, HksParam.blobLength]⟩

theorem blobTotal_words {ps : List HksParam} :
    ∀ {qs : List HksParam}, paramWords qs = paramWords ps → blobTotal qs = blobTotal ps := by
  induction ps
  case nil =>
    intro qs h
    rw [List.map_eq_nil_iff.mp h]
  case cons p ps ih =>
    intro qs h
    obtain ⟨q, qs, rfl, hq, h⟩ := List.map_eq_cons_iff.mp h
    rw [blobTotal_cons, blobTotal_cons, (blobLength_words hq).2.2, ih h]

-- Entries that were given the tags and words of `ps`, with the blobs of `ps` behind them in the
-- block, have the contents of `ps`.
theorem relocate_contents {base : Nat} {area : Bytes} {ps : List HksParam} :
    ∀ {qs : List HksParam} {offset : UInt32}, paramWords qs = paramWords ps →
      (∀ p ∈ ps, p.External) → base ≤ offset.toNat → offset.toNat + blobTotal ps < 2 ^ 32 →
      (area.drop (offset.toNat - base)).take (blobTotal ps) = payloads ps →
      (relocate offset qs).map (·.content base area) = contentsOf ps := by
  induction ps
  case nil =>
    intro qs offset h _ _ _ _
    rw [List.map_eq_nil_iff.mp h]
    rfl
  case cons p ps ih =>
    intro qs offset h hext hbase hlt harea
    obtain ⟨q, qs, rfl, hq, h⟩ := List.map_eq_cons_iff.mp h
    obtain ⟨hqb, hqs, _⟩ := blobLength_words hq
    obtain ⟨htag, hword⟩ := Prod.mk.inj hq
    have hext' := fun q hq => hext q (List.mem_cons_of_mem _ hq)
    rw [blobTotal_cons] at hlt harea
    rw [relocate, hqb]
    by_cases hb : p.isBytes
    case neg =>
      have hlen : p.blobLength = 0 := by simp [HksParam.blobLength, hb]
      have hrest := ih h hext' hbase (by omega)
        (by simpa [hlen, HksParam.payload, hb] using harea)
      have hhead : q.content base area = p.content 0 [] := by
        simp [HksParam.content, HksParam.value, hqb, hb, htag, hword]
      simp [hb, hhead, hrest]
    case pos =>
      have hlen : p.blobLength = p.blobSize.toNat := by simp [HksParam.blobLength, hb]
      have hpayload : p.payload = p.bytes := by simp [HksParam.payload, hb]
      have hbytes : p.bytes.length = p.blobSize.toNat := by
        rw [← hlen, ← hpayload, HksParam.length_payload (hext p (by simp))]
      have hoffset : (offset + p.blobSize).toNat = offset.toNat + p.blobSize.toNat := by
        rw [UInt32.toNat_add]
        omega
      rw [hlen, payloads_cons, hpayload, List.take_add, List.drop_drop] at harea
      have hroom : p.blobSize.toNat ≤ (area.drop (offset.toNat - base)).length := by
        have := congrArg List.length harea
        simp [hbytes, length_payloads hext'] at this
        simp
        omega
      obtain ⟨hblob, htail⟩ := List.append_inj harea (by
        rw [hbytes, List.length_take]
        omega)
      have hread : (q.setData (.inSet offset)).read base area = some p.bytes := by
        rw [← hblob, ← takeD_eq_take hroom, ← hqs]
        rfl
      have hrest := @ih qs (offset + p.blobSize) h hext' (by omega) (by omega) (by
        rwa [hoffset, Nat.sub_add_comm hbase])
      have hread' : p.read 0 [] = some p.bytes := (hext p (by simp)).read hb 0 []
      have hhead : (q.setData (.inSet offset)).content base area = p.content 0 [] := by
        simp [HksParam.content, HksParam.value, hqb, hb, htag, hread, hread']
      simp [hb, hqs, hhead, hrest]

-- A set that was built has blobs of the sizes that were added.
theorem Accumulated.built {ps : List HksParam} {s t : HksParamSet} (a : Accumulated ps s)
    (hext : ∀ p ∈ ps, p.External) (hlast : LastBlobNonempty ps) (h : hksBuildParamSet s = .ok t) :
    buildSize ps ≤ maxSize ∧ Built ps t := by
  obtain ⟨_, hcheck, hbuild⟩ := Except.bind_eq_ok.mp h
  obtain ⟨_, hmax, _, _⟩ := hksCheckParamSet_iff.mp hcheck
  have hbase : s.base.toUInt32.toNat = s.base := by
    have hcnt := a.cnt
    rw [a.base, Nat.toUInt32, UInt32.toNat_ofNat']
    simp only [headerSize, paramSize, defaultParamCnt] at *
    omega
  have hsize : s.paramSetSize.toNat = s.base.toUInt32.toNat + blobTotal s.params := by
    simp only [buildParamSet] at hbuild
    split at hbuild
    case isFalse => exact hksFreshParamSet_size hbuild
    case isTrue =>
      split at hbuild
      case isTrue => cases hbuild
      case isFalse =>
        exact hksFreshParamSet_size
          (s := { s with area := .replicate (s.paramSetSize.toNat - s.base) 0 }) hbuild
  have hmax : buildSize ps ≤ maxSize := by
    rw [hbase, ← buildSize_params, a.params] at hsize
    rwa [← hsize]
  obtain ⟨t', ht, b⟩ := a.build hext hlast hmax
  cases h.symm.trans ht
  exact ⟨hmax, b⟩

-- `t` is the block of a set with the entries `ps`; where the pointers of its entries that are no
-- blobs lead is left open.
structure Carries (ps : List HksParam) (t : HksParamSet) : Prop where
  external : ∀ p ∈ ps, p.External
  max      : buildSize ps ≤ maxSize
  size     : t.paramSetSize.toNat = buildSize ps
  params   : ∃ qs, paramWords qs = paramWords ps ∧ t.params = relocate t.base.toUInt32 qs
  area     : t.area.take (blobTotal ps) = payloads ps

theorem Built.carries {ps : List HksParam} {t : HksParamSet} (b : Built ps t)
    (hext : ∀ p ∈ ps, p.External) (hmax : buildSize ps ≤ maxSize) : Carries ps t where
  external := hext
  max      := hmax
  size     := b.size
  params   := ⟨ps, rfl, b.params⟩
  area     := b.area

namespace Carries

variable {ps : List HksParam} {t : HksParamSet}

theorem length (c : Carries ps t) : t.params.length = ps.length := by
  have ⟨qs, hwords, hparams⟩ := c.params
  rw [hparams, length_relocate, ← length_paramWords, hwords, length_paramWords]

theorem base (c : Carries ps t) : t.base = headerSize + paramSize * ps.length := by
  rw [HksParamSet.base, c.length]

theorem base_toNat (c : Carries ps t) : t.base.toUInt32.toNat = t.base := by
  have hmax := c.max
  rw [c.base, Nat.toUInt32, UInt32.toNat_ofNat']
  simp only [buildSize, maxSize] at hmax
  omega

theorem total_lt (c : Carries ps t) : t.base + blobTotal ps < 2 ^ 32 := by
  have hmax := c.max
  rw [c.base]
  simp only [buildSize, maxSize] at hmax
  omega

theorem check (c : Carries ps t) : hksCheckParamSet t t.paramSetSize = .ok () :=
  hksCheckParamSet_ok c.max c.size c.length

theorem contents (c : Carries ps t) : t.contents = contentsOf ps := by
  have ⟨qs, hwords, hparams⟩ := c.params
  have hbase := c.base_toNat
  rw [HksParamSet.contents, hparams]
  refine relocate_contents hwords c.external (Nat.le_of_eq hbase.symm) ?_ ?_
  · rw [hbase]
    exact c.total_lt
  · rw [hbase, Nat.sub_self, List.drop_zero, c.area]

theorem getParam (c : Carries ps t) (tag : UInt32) :
    (hksGetParam t tag).map t.value = (contentsOf ps).get tag := by
  rw [← c.contents]
  refine hksGetParam_contents c.check (fun p hp hb => ?_) tag
  have ⟨qs, _, hparams⟩ := c.params
  have ⟨offset, hdata⟩ := relocate_inSet (hparams ▸ hp) hb
  rw [hdata]
  simp

end Carries

end Huks
