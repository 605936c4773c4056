import Huks.Common.Theorems.Contents
import Mathlib.Algebra.BigOperators.Group.List.Basic

namespace Huks

open HksParamSet

-- What lies behind the first `i` of some chunks of one length.
theorem drop_flatten {α : Type} {n : Nat} {chunks : List (List α)} (h : ∀ c ∈ chunks, c.length = n)
    (i : Nat) : chunks.flatten.drop (n * i) = (chunks.drop i).flatten := by
  induction chunks generalizing i
  case nil => simp
  case cons c chunks ih =>
    cases i
    case zero => rfl
    case succ i =>
      have hc : c.length = n := h c (by simp)
      have hdrop : n * (i + 1) = c.length + n * i := by rw [hc, Nat.mul_succ, Nat.add_comm]
      rw [List.flatten_cons, List.drop_succ_cons, hdrop, ← List.drop_drop, List.drop_left]
      exact ih (fun c hc => h c (by simp [hc])) i

section

variable (addressOf : BlobData → UInt64) (padding : Nat → UInt32) (mem : UInt64 → BlobData)

theorem HksParam.length_image (pad : UInt32) (p : HksParam) :
    (p.image addressOf pad).length = paramSize := by
  simp [HksParam.image, paramSize]

-- The entry that is read back has the tag and the word.
theorem readParam_image (pad : UInt32) (p : HksParam) (rest : Bytes) :
    (readParam mem (p.image addressOf pad ++ rest)).tag = p.tag ∧
    (readParam mem (p.image addressOf pad ++ rest)).word = p.word := by
  constructor
  case left =>
    simp only [readParam, HksParam.image, List.append_assoc]
    rw [le32_toBytes32_append]
  case right =>
    have hdrop : (p.image addressOf pad ++ rest).drop 8 =
        toBytes64 p.word ++ (toBytes64 (addressOf p.data) ++ rest) := by
      simp only [HksParam.image, List.append_assoc]
      rfl
    simp only [readParam]
    rw [hdrop, le64_take_toBytes64_append]

namespace HksParamSet

def arrayImage (s : HksParamSet) : List Bytes :=
  s.params.mapIdx fun i p => p.image addressOf (padding i)

theorem length_mem_arrayImage {s : HksParamSet} :
    ∀ c ∈ s.arrayImage addressOf padding, c.length = paramSize := by
  intro c hc
  have ⟨i, hi, hc⟩ := List.mem_iff_getElem.mp hc
  subst hc
  simp only [arrayImage, List.getElem_mapIdx]
  exact HksParam.length_image addressOf _ _

theorem length_headImage (s : HksParamSet) : (s.headImage addressOf padding).length = s.base := by
  have harray : ((s.arrayImage addressOf padding).map List.length) =
      .replicate s.params.length paramSize := by
    rw [List.eq_replicate_iff]
    constructor
    · simp [arrayImage]
    · intro n hn
      have ⟨c, hc, hn⟩ := List.mem_map.mp hn
      exact hn ▸ length_mem_arrayImage addressOf padding c hc
  have hsum : (s.arrayImage addressOf padding).flatten.length = paramSize * s.params.length := by
    rw [List.length_flatten, harray, List.sum_replicate_nat, Nat.mul_comm]
  rw [headImage, List.length_append, List.length_append, ← arrayImage, hsum]
  simp only [length_toBytes32, base, headerSize]
  omega

-- A block that starts with the header and the array of `s` is read back as `s` up to its pointers.
theorem paramSet_headImage {block : ParamBlock} {s : HksParamSet} {rest : Bytes}
    (hlen : s.params.length < 2 ^ 32) (h : block.bytes = s.headImage addressOf padding ++ rest) :
    (block.paramSet mem).paramSetSize = s.paramSetSize ∧ (block.paramSet mem).words = s.words ∧
      (block.paramSet mem).base = s.base ∧ (block.paramSet mem).area = rest := by
  have hcnt : block.paramsCnt.toNat = s.params.length := by
    have hdrop : block.bytes.drop 4 = toBytes32 s.params.length.toUInt32 ++
        ((s.arrayImage addressOf padding).flatten ++ rest) := by
      rw [h, headImage, List.append_assoc, List.append_assoc]
      rfl
    rw [ParamBlock.paramsCnt, hdrop, le32_toBytes32_append, Nat.toUInt32, UInt32.toNat_ofNat']
    exact Nat.mod_eq_of_lt hlen
  have hbase : (block.paramSet mem).base = s.base := by
    rw [ParamBlock.base_paramSet, hcnt]
    rfl
  refine ⟨?_, ?_, hbase, ?_⟩
  · simp only [ParamBlock.paramSet]
    rw [h, headImage, List.append_assoc, le32_toBytes32_append]
  · simp only [words, paramWords, ParamBlock.paramSet, hcnt, List.map_map]
    apply List.ext_getElem
    · simp
    · intro i hi hi'
      have hi : i < s.params.length := by simpa using hi
      simp only [List.getElem_map, List.getElem_range, Function.comp_apply]
      have hdrop : block.bytes.drop (headerSize + paramSize * i) =
          (s.params[i].image addressOf (padding i)) ++
            (((s.arrayImage addressOf padding).drop (i + 1)).flatten ++ rest) := by
        have hlt : i < (s.arrayImage addressOf padding).length := by simpa [arrayImage] using hi
        have hchunk : (s.arrayImage addressOf padding).flatten.drop (paramSize * i) =
            (s.params[i].image addressOf (padding i)) ++
              ((s.arrayImage addressOf padding).drop (i + 1)).flatten := by
          rw [drop_flatten (length_mem_arrayImage addressOf padding), List.drop_eq_getElem_cons hlt,
            List.flatten_cons]
          simp only [arrayImage, List.getElem_mapIdx]
        have hle : paramSize * i ≤ (s.arrayImage addressOf padding).flatten.length := by
          have := length_headImage addressOf padding s
          rw [headImage, List.length_append, List.length_append, ← arrayImage] at this
          simp only [length_toBytes32, base, headerSize, paramSize] at *
          omega
        rw [h, headImage, List.append_assoc, List.append_assoc, ← List.drop_drop,
          ← List.append_assoc (toBytes32 _), List.drop_left' (by rfl), ← arrayImage,
          List.drop_append_of_le_length hle, hchunk, List.append_assoc]
      obtain ⟨htag, hword⟩ := readParam_image addressOf mem (padding i) s.params[i]
        (((s.arrayImage addressOf padding).drop (i + 1)).flatten ++ rest)
      rw [hdrop, htag, hword]
  · have harea : (block.paramSet mem).area = block.bytes.drop (block.paramSet mem).base := by
      rw [ParamBlock.base_paramSet]
      rfl
    rw [harea, hbase, h, List.drop_left' (length_headImage addressOf padding s)]

end HksParamSet

end

@[simp]
theorem payloads_append (ps qs : List HksParam) :
    payloads (ps ++ qs) = payloads ps ++ payloads qs := by
  simp [payloads]

theorem relocate_append (ps qs : List HksParam) (offset : UInt32) :
    relocate offset (ps ++ qs) =
      relocate offset ps ++ relocate (offset + (blobTotal ps).toUInt32) qs := by
  induction ps generalizing offset
  case nil =>
    rw [blobTotal_nil, List.nil_append]
    simp [relocate]
  case cons p ps ih =>
    rw [List.cons_append, relocate, relocate, blobTotal_cons]
    by_cases hb : p.isBytes
    case pos =>
      have hlen : p.blobLength = p.blobSize.toNat := by simp [HksParam.blobLength, hb]
      have hadd : offset + p.blobSize + (blobTotal ps).toUInt32 =
          offset + (p.blobLength + blobTotal ps).toUInt32 := by
        rw [UInt32.add_assoc, hlen]
        simp
      rw [if_pos hb, if_pos hb, ih, hadd, List.cons_append]
    case neg =>
      have hlen : p.blobLength = 0 := by simp [HksParam.blobLength, hb]
      rw [if_neg hb, if_neg hb, ih, hlen, Nat.zero_add, List.cons_append]

-- No entry has a blob.
def Scalars (ps : List HksParam) : Prop := ∀ p ∈ ps, p.isBytes = false

theorem Scalars.payloads {ps : List HksParam} (h : Scalars ps) : payloads ps = [] := by
  rw [Huks.payloads, List.flatMap_eq_nil_iff]
  intro p hp
  rw [HksParam.payload, h p hp]
  rfl

theorem Scalars.blobTotal {ps : List HksParam} (h : Scalars ps) : blobTotal ps = 0 := by
  induction ps
  case nil => rfl
  case cons p ps ih =>
    have hlen : p.blobLength = 0 := by simp [HksParam.blobLength, h p (by simp)]
    rw [blobTotal_cons, hlen, ih fun q hq => h q (List.mem_cons_of_mem p hq)]

theorem Scalars.relocate {ps : List HksParam} (h : Scalars ps) (offset : UInt32) :
    relocate offset ps = ps := by
  induction ps
  case nil => rfl
  case cons p ps ih =>
    rw [Huks.relocate, h p (by simp), ih fun q hq => h q (List.mem_cons_of_mem p hq)]
    rfl

theorem Scalars.words {ps qs : List HksParam} (h : Scalars ps) (hwords : paramWords qs = paramWords ps) :
    Scalars qs := by
  intro q hq
  have hmem : q.tag ∈ ps.map HksParam.tag := tags_words hwords ▸ List.mem_map_of_mem hq
  have ⟨p, hp, htag⟩ := List.mem_map.mp hmem
  have hscalar := h p hp
  rwa [HksParam.isBytes, htag] at hscalar

namespace Carries

variable {ps : List HksParam} {k : HksParam} {t : HksParamSet}
  (addressOf : BlobData → UInt64) (padding : Nat → UInt32) (mem : UInt64 → BlobData)

theorem image (c : Carries ps t) :
    t.image addressOf padding = t.headImage addressOf padding ++ payloads ps := by
  rw [HksParamSet.image, c.size, c.base, buildSize, Nat.add_sub_cancel_left, c.area]

theorem length_image (c : Carries ps t) :
    (t.image addressOf padding).length = t.paramSetSize.toNat := by
  rw [c.image, List.length_append, HksParamSet.length_headImage, length_payloads c.external, c.base,
    c.size, buildSize]

-- The bytes of the block, received elsewhere. What is behind them does not matter.
theorem hksFreshParamSet_image (c : Carries ps t) {block : ParamBlock} {rest : Bytes}
    (h : block.bytes = t.image addressOf padding ++ rest) :
    (block.paramSet mem).paramSetSize = t.paramSetSize ∧
      ∃ u, hksFreshParamSet (block.paramSet mem) false = .ok u ∧ Carries ps u := by
  have hlen : t.params.length < 2 ^ 32 := by
    have hmax := c.max
    rw [c.length]
    simp only [buildSize, headerSize, paramSize, maxSize] at hmax
    omega
  rw [c.image, List.append_assoc] at h
  obtain ⟨hsize, hwords, hbase, harea⟩ :=
    HksParamSet.paramSet_headImage addressOf padding mem hlen h
  obtain ⟨qs, hqs, hparams⟩ := c.params
  have hwords : paramWords (block.paramSet mem).params = paramWords ps := by
    change (block.paramSet mem).words = _
    rw [hwords, HksParamSet.words, hparams, paramWords_relocate, hqs]
  have htotal := blobTotal_words hwords
  have hbuild : (block.paramSet mem).paramSetSize.toNat = buildSize (block.paramSet mem).params := by
    rw [hsize, c.size, buildSize_params, hbase, htotal, c.base, buildSize]
  have hfresh : hksFreshParamSet (block.paramSet mem) false = .ok (block.paramSet mem).relocated :=
    hksFreshParamSet_iff.mpr ⟨by rw [hsize, c.size]; exact c.max, hbuild, rfl⟩
  refine ⟨hsize, _, hfresh, c.external, c.max, hsize ▸ c.size, ⟨_, hwords, ?_⟩, ?_⟩
  · rw [base_relocated]
    rfl
  · change (block.paramSet mem).area.take _ = _
    rw [harea, ← length_payloads c.external, List.take_left]

theorem hksGetParamSet_image (c : Carries ps t) {block : ParamBlock}
    (h : block.bytes = t.image addressOf padding) :
    ∃ u, hksGetParamSet (block.paramSet mem) block.size = .ok u ∧ Carries ps u := by
  have ⟨hsize, u, hfresh, hu⟩ := c.hksFreshParamSet_image addressOf padding mem
    (h.trans (List.append_nil _).symm)
  have hblock : (block.paramSet mem).paramSetSize = block.size := by
    have hbytes := block.length_eq
    rw [h, c.length_image] at hbytes
    rw [hsize, UInt32.toNat_inj.mp hbytes]
  exact ⟨u, (ParamBlock.hksGetParamSet_iff mem block).mpr ⟨hblock, hfresh⟩, hu⟩

section Last

variable {qs : List HksParam}

-- The entry of the blob that was added last; its bytes lie behind those of the other blobs.
theorem last (c : Carries (ps ++ k :: qs) t) (hb : k.isBytes) (hq : Scalars qs) :
    ∃ rs us offset, paramWords rs = paramWords ps ∧ paramWords us = paramWords qs ∧
      offset.toNat = t.base + blobTotal ps ∧
      t.params = relocate t.base.toUInt32 rs ++ ⟨k.tag, k.word, .inSet offset⟩ :: us := by
  have ⟨vs, hwords, hparams⟩ := c.params
  rw [paramWords_append] at hwords
  obtain ⟨rs, us, rfl, hrs, hus⟩ := List.map_eq_append_iff.mp hwords
  obtain ⟨q, us, rfl, hk, hus⟩ := List.map_eq_cons_iff.mp hus
  have ⟨htag, hword⟩ := Prod.mk.inj hk
  have hqb : q.isBytes := by rw [HksParam.isBytes, htag]; exact hb
  refine ⟨rs, us, t.base.toUInt32 + (blobTotal rs).toUInt32, hrs, hus, ?_, ?_⟩
  · have hlt := c.total_lt
    rw [blobTotal_append] at hlt
    rw [UInt32.toNat_add, c.base_toNat, blobTotal_words hrs, Nat.toUInt32, UInt32.toNat_ofNat']
    omega
  · rw [hparams, relocate_append, relocate, if_pos hqb, (hq.words hus).relocate, ← htag, ← hword]
    rfl

theorem length_last (c : Carries (ps ++ k :: qs) t) (hb : k.isBytes) :
    k.blobLength = k.blobSize.toNat ∧ k.bytes.length = k.blobSize.toNat := by
  have hlen : k.blobLength = k.blobSize.toNat := by simp [HksParam.blobLength, hb]
  have hpayload := HksParam.length_payload (c.external k (by simp))
  rw [HksParam.payload, if_pos hb] at hpayload
  exact ⟨hlen, hpayload.trans hlen⟩

theorem blobTotal_last (c : Carries (ps ++ k :: qs) t) (hb : k.isBytes) (hq : Scalars qs) :
    blobTotal (ps ++ k :: qs) = blobTotal ps + k.blobSize.toNat := by
  rw [blobTotal_append, blobTotal_cons, hq.blobTotal, (c.length_last hb).1, Nat.add_zero]

theorem payloads_last (hb : k.isBytes) (hq : Scalars qs) :
    payloads (ps ++ k :: qs) = payloads ps ++ k.bytes := by
  rw [payloads_append, payloads_cons, hq.payloads, List.append_nil, HksParam.payload, if_pos hb]

theorem area_last (c : Carries (ps ++ k :: qs) t) (hb : k.isBytes) (hq : Scalars qs) :
    t.area.take (blobTotal ps) = payloads ps ∧
      (t.area.drop (blobTotal ps)).take k.blobSize.toNat = k.bytes := by
  have ⟨_, hbytes⟩ := c.length_last hb
  have harea := c.area
  have hps := length_payloads fun p hp => c.external p (List.mem_append_left _ hp)
  rw [c.blobTotal_last hb hq, List.take_add, payloads_last hb hq] at harea
  refine List.append_inj' harea ?_
  have := congrArg List.length harea
  rw [List.length_append, List.length_append, hps, hbytes] at this
  simp only [hbytes, List.length_take, List.length_drop] at this ⊢
  omega

theorem find_last {rs us : List HksParam} {offset : UInt32} (hrs : paramWords rs = paramWords ps)
    (hparams : t.params = relocate t.base.toUInt32 rs ++ ⟨k.tag, k.word, .inSet offset⟩ :: us)
    (hfresh : k.tag ∉ ps.map HksParam.tag) :
    t.params.find? (·.tag = k.tag) = some ⟨k.tag, k.word, .inSet offset⟩ := by
  have hnone : (relocate t.base.toUInt32 rs).find? (·.tag = k.tag) = none := by
    rw [List.find?_eq_none]
    intro p hp htag
    apply hfresh
    rw [← tags_words hrs, ← tags_words (paramWords_relocate t.base.toUInt32 rs)]
    exact List.mem_map.mpr ⟨p, hp, by simpa using htag⟩
  rw [hparams, List.find?_append, hnone]
  simp

-- What `HksGetParam` finds for the tag of the last blob, if no entry in front has it.
theorem getParam_last (c : Carries (ps ++ k :: qs) t) (hb : k.isBytes) (hq : Scalars qs)
    (hz : k.blobSize ≠ 0) (hfresh : k.tag ∉ ps.map HksParam.tag) :
    ∃ offset, hksGetParam t k.tag = .ok ⟨k.tag, k.word, .inSet offset⟩ ∧
      offset.toNat = t.base + blobTotal ps ∧
      t.blob ⟨k.tag, k.word, .inSet offset⟩ = k.bytes := by
  obtain ⟨rs, us, offset, hrs, _, hoffset, hparams⟩ := c.last hb hq
  refine ⟨offset, ?_, hoffset, ?_⟩
  · have hcheck : (HksParam.mk k.tag k.word (.inSet offset)).checkBlob := by
      simpa [HksParam.checkBlob, HksParam.blobSize] using hz
    simp [hksGetParam, c.check, find_last hrs hparams hfresh, hcheck]
  · obtain ⟨_, hbytes⟩ := c.length_last hb
    obtain ⟨_, hblob⟩ := c.area_last hb hq
    have hroom : k.blobSize.toNat ≤ (t.area.drop (blobTotal ps)).length := by
      have := congrArg List.length hblob
      rw [hbytes, List.length_take] at this
      omega
    have hpos : offset.toNat - t.base = blobTotal ps := by omega
    simp only [HksParamSet.blob, HksParam.read, HksParam.blobSize, hpos, Option.getD_some]
    rw [← hblob]
    exact takeD_eq_take hroom

-- The last blob is the rest of the block.
theorem image_last (c : Carries (ps ++ k :: qs) t) (hb : k.isBytes) (hq : Scalars qs) :
    t.image addressOf padding = t.headImage addressOf padding ++ payloads ps ++ k.bytes ∧
      (t.headImage addressOf padding ++ payloads ps).length = t.base + blobTotal ps ∧
      t.paramSetSize.toNat = t.base + blobTotal ps + k.blobSize.toNat := by
  refine ⟨?_, ?_, ?_⟩
  · rw [c.image, payloads_last hb hq, List.append_assoc]
  · rw [List.length_append, HksParamSet.length_headImage,
      length_payloads fun p hp => c.external p (List.mem_append_left _ hp)]
  · rw [c.size, buildSize, ← c.base, c.blobTotal_last hb hq, Nat.add_assoc]

-- A new blob of the same length in the place of the last one.
theorem writeBlob_last (c : Carries (ps ++ k :: qs) t) (hb : k.isBytes) (hq : Scalars qs)
    (hfresh : k.tag ∉ ps.map HksParam.tag) {bytes : Bytes} (hlen : bytes.length = k.blobSize.toNat) :
    Carries (ps ++ k.setData (.ext bytes) :: qs) (t.writeBlob k.tag bytes) ∧
      (t.writeBlob k.tag bytes).headImage addressOf padding = t.headImage addressOf padding := by
  obtain ⟨rs, us, offset, hrs, _, hoffset, hparams⟩ := c.last hb hq
  obtain ⟨hk, hbytes⟩ := c.length_last hb
  obtain ⟨hps, hblob⟩ := c.area_last hb hq
  have hpos : offset.toNat - t.base = blobTotal ps := by omega
  have hwrite : t.writeBlob k.tag bytes = { t with
      area := t.area.take (blobTotal ps) ++ bytes ++ t.area.drop (blobTotal ps + bytes.length) } := by
    simp only [HksParamSet.writeBlob, find_last hrs hparams hfresh, hpos]
  have htotal : blobTotal (ps ++ k.setData (.ext bytes) :: qs) = blobTotal (ps ++ k :: qs) := by
    rw [blobTotal_append, blobTotal_append]
    rfl
  have hsize : buildSize (ps ++ k.setData (.ext bytes) :: qs) = buildSize (ps ++ k :: qs) := by
    simp [buildSize, htotal]
  have hext : (k.setData (.ext bytes)).bytes = bytes := by
    simp only [HksParam.bytes, HksParam.read, HksParam.setData, Option.getD_some]
    have : bytes.length = (HksParam.mk k.tag k.word (.ext bytes)).blobSize.toNat := hlen
    rw [← this]
    exact FixedBytes.takeD_length_self bytes
  rw [hwrite]
  refine ⟨⟨?_, hsize ▸ c.max, hsize ▸ c.size, ?_, ?_⟩, rfl⟩
  · intro p hp
    rcases List.mem_append.mp hp with hp | hp
    · exact c.external p (List.mem_append_left _ hp)
    · rcases List.mem_cons.mp hp with rfl | hp
      · exact fun _ => ⟨bytes, rfl⟩
      · exact c.external p (List.mem_append_right _ (List.mem_cons_of_mem _ hp))
  · obtain ⟨vs, hwords, hparams⟩ := c.params
    refine ⟨vs, ?_, hparams⟩
    rw [hwords, paramWords_append, paramWords_append]
    rfl
  · have hlength := length_payloads fun p hp => c.external p (List.mem_append_left (k :: qs) hp)
    rw [htotal, c.blobTotal_last hb hq, payloads_append, payloads_cons, hq.payloads, ← hlen, hps,
      List.append_nil, HksParam.payload, HksParam.isBytes_setData, if_pos hb, hext, ← hlength,
      ← List.length_append]
    exact List.take_left

end Last

end Carries

end Huks
