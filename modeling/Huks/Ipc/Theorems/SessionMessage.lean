import Huks.Ipc.Theorems.RequestUnpacking
import Huks.Ipc.Theorems.RequestSending

namespace Huks

-- The tags of the params of a message
def messageTags : List UInt32 :=
  [HksTag.param0Buffer, HksTag.param1Buffer, HksTag.param2Buffer, HksTag.param1UInt32]

theorem messageTags_null {t t' : UInt32} (h : t ∈ messageTags) (h' : t' ∈ messageTags) :
    t + hksParamBufferNullInterval ≠ t' := by
  have hall : messageTags.all fun t => messageTags.all fun t' => t + hksParamBufferNullInterval ≠ t' := by
    decide
  exact of_decide_eq_true (List.all_eq_true.mp (List.all_eq_true.mp hall t h) t' h')

theorem HksParam.markNull_tag (p : HksParam) :
    p.markNull.tag = p.tag ∨ p.markNull.tag = p.tag + hksParamBufferNullInterval := by
  rw [markNull]
  split
  case isTrue => exact .inr rfl
  case isFalse => exact .inl rfl

theorem HksParam.markNull_external {p : HksParam} (h : p.External) : p.markNull.External := by
  rw [markNull]
  split
  case isTrue => exact .ofBytes _ _
  case isFalse => exact h

theorem markNull_bytes {tag : UInt32} {bytes : Bytes} (hlen : bytes.length < 2 ^ 32) (hne : bytes ≠ []) :
    (HksParam.ofBytes tag bytes).markNull = .ofBytes tag bytes := by
  refine if_neg ?_
  rintro ⟨_, hsize | hnull⟩
  · have hblob := @HksParam.blobSize_ofBytes tag bytes hlen
    rw [hsize] at hblob
    exact hne (List.eq_nil_of_length_eq_zero hblob.symm)
  · cases hnull

theorem markNull_empty {tag : UInt32} (ht : getTagType tag = .bytes) :
    (HksParam.ofBytes tag []).markNull = .ofBytes (tag + hksParamBufferNullInterval) [0] :=
  if_pos ⟨HksParam.isBytes_ofBytes ht [], .inl rfl⟩

theorem markNull_uint32 {tag n : UInt32} (ht : getTagType tag ≠ .bytes) :
    (HksParam.ofUInt32 tag n).markNull = .ofUInt32 tag n := by
  refine if_neg fun h => ht ?_
  exact of_decide_eq_true h.1

section Find

variable {ps : List HksParam} {tag : UInt32} (htags : (ps.map HksParam.tag).Sublist messageTags)

include htags

theorem mem_messageTags {p : HksParam} (hp : p ∈ ps) : p.tag ∈ messageTags :=
  htags.subset (List.mem_map_of_mem hp)

-- There is one param under each tag.
theorem eq_of_tag {p q : HksParam} (hp : p ∈ ps) (hq : q ∈ ps) (h : p.tag = q.tag) : p = q :=
  List.inj_on_of_nodup_map (htags.nodup (by decide)) hp hq h

-- A param is found under its tag, or the tag of a `NULL` buffer.
theorem find?_markNull {p : HksParam} (hp : p ∈ ps) :
    (ps.map HksParam.markNull).find? (·.tag = p.markNull.tag) = some p.markNull := by
  have hsome : ((ps.map HksParam.markNull).find? (·.tag = p.markNull.tag)).isSome := by
    rw [List.find?_isSome]
    exact ⟨p.markNull, List.mem_map_of_mem hp, by simp⟩
  obtain ⟨r, hr⟩ := Option.isSome_iff_exists.mp hsome
  obtain ⟨q, hq, rfl⟩ := List.mem_map.mp (List.mem_of_find?_eq_some hr)
  have htag : q.markNull.tag = p.markNull.tag := by simpa using List.find?_some hr
  have hnull := messageTags_null (mem_messageTags htags hp) (mem_messageTags htags hq)
  have hnull' := messageTags_null (mem_messageTags htags hq) (mem_messageTags htags hp)
  have hqp : q.tag = p.tag := by
    rcases q.markNull_tag with hm | hm <;> rcases p.markNull_tag with hm' | hm' <;> rw [hm, hm'] at htag
    · exact htag
    · exact absurd htag.symm hnull
    · exact absurd htag hnull'
    · exact (UInt32.add_left_inj _).mp htag
  rw [hr, eq_of_tag htags hq hp hqp]

-- There is nothing under the tag of an empty buffer.
theorem find?_markNull_none {p : HksParam} (hp : p ∈ ps) (hmark : p.markNull.tag ≠ p.tag) :
    (ps.map HksParam.markNull).find? (·.tag = p.tag) = none := by
  rw [List.find?_eq_none]
  intro r hr
  obtain ⟨q, hq, rfl⟩ := List.mem_map.mp hr
  rw [decide_eq_true_eq]
  intro htag
  rcases q.markNull_tag with hm | hm
  · exact hmark (eq_of_tag htags hq hp (hm ▸ htag) ▸ htag)
  · exact messageTags_null (mem_messageTags htags hq) (mem_messageTags htags hp) (hm ▸ htag)

end Find

-- What the service finds in a message
section Receive

variable {ps : List HksParam} {u : HksParamSet} {tag : UInt32} (c : Carries (ps.map HksParam.markNull) u)
  (htags : (ps.map HksParam.tag).Sublist messageTags)

include c htags

theorem paramSetToParam_empty (ht : getTagType tag = .bytes)
    (ht' : getTagType (tag + hksParamBufferNullInterval) = .bytes) (hp : .ofBytes tag [] ∈ ps) :
    paramSetToParam u tag = .ok (.blob []) := by
  have hmark : (HksParam.ofBytes tag []).markNull = .ofBytes (tag + hksParamBufferNullInterval) [0] := markNull_empty ht
  have htag : tag ∈ messageTags := mem_messageTags htags hp
  have hfind := find?_markNull htags hp
  have hnone := find?_markNull_none htags hp (by rw [hmark]; exact messageTags_null htag htag)
  have hmissing : (hksGetParam u tag).map u.value = .error .paramNotExist := by
    have hcontents : (contentsOf (ps.map HksParam.markNull)).find? (·.1 = tag) = none := by
      rw [contentsOf, List.find?_map]
      change Option.map _ ((ps.map HksParam.markNull).find? fun p => decide (p.tag = tag)) = none
      exact congrArg (Option.map _) hnone
    rw [c.getParam, Contents.get, hcontents]
  rw [hmark] at hfind
  obtain ⟨param, hparam, _⟩ := Except.map_eq_ok.mp (c.blob ht' (by decide : [(0 : UInt8)].length < 2 ^ 32)
    (List.cons_ne_nil 0 []) hfind)
  rw [paramSetToParam]
  cases hget : hksGetParam u tag
  case ok => rw [hget] at hmissing; cases hmissing
  case error =>
    dsimp only
    rw [getNullBlobParam, if_neg (not_not_intro ht), hparam]
    rfl

-- A buffer is there, also one without bytes.
theorem paramSetToParam_blob {bytes : Bytes} (ht : getTagType tag = .bytes)
    (ht' : getTagType (tag + hksParamBufferNullInterval) = .bytes) (hlen : bytes.length < 2 ^ 32)
    (hp : .ofBytes tag bytes ∈ ps) : paramSetToParam u tag = .ok (.blob bytes) := by
  by_cases hne : bytes = []
  case pos =>
    subst hne
    exact paramSetToParam_empty c htags ht ht' hp
  case neg =>
    have hmark : (HksParam.ofBytes tag bytes).markNull = .ofBytes tag bytes := markNull_bytes hlen hne
    have hfind := find?_markNull htags hp
    rw [hmark] at hfind
    obtain ⟨param, hparam, hblob⟩ := Except.map_eq_ok.mp (c.blob ht hlen hne hfind)
    rw [paramSetToParam, hparam]
    dsimp only
    rw [getNormalParam, ht, hblob]

theorem paramSetToParam_uint32 {n : UInt32} (ht : getTagType tag = .uint) (hp : .ofUInt32 tag n ∈ ps) :
    paramSetToParam u tag = .ok (.uint32Param n) := by
  have hne : getTagType tag ≠ .bytes := by
    rw [ht]
    nofun
  have hmark : (HksParam.ofUInt32 tag n).markNull = .ofUInt32 tag n := markNull_uint32 hne
  have hfind := find?_markNull htags hp
  rw [hmark] at hfind
  obtain ⟨param, hparam, hword⟩ := Except.map_eq_ok.mp (c.uint32 hne hfind)
  have hn : (HksParam.ofUInt32 tag n).uint32Param = n := UInt32.toUInt32_toUInt64 n
  rw [paramSetToParam, hparam]
  dsimp only
  rw [getNormalParam, ht, hword, hn]

end Receive

section Message

variable (addressOf : BlobData → UInt64) (padding : Nat → UInt32) (memory : UInt64 → BlobData)

-- A param set that arrives as bytes
theorem getParamSetOf_image {ps : List HksParam} {s : HksParamSet} (c : Carries ps s) :
    ∃ got, getParamSetOf memory (s.image addressOf padding) = .ok got ∧ Carries ps got := by
  have hbounds := HksParamSet.Built.bounds ⟨ps, c⟩
  have hlen := c.length_image addressOf padding
  rw [HksParamSet.headerSize, HksParamSet.maxSize] at hbounds
  have hne : s.image addressOf padding ≠ [] := List.ne_nil_of_length_pos (by omega)
  have hblock : (ParamBlock.ofBuffer (s.image addressOf padding)).bytes = s.image addressOf padding :=
    ParamBlock.bytes_ofBuffer (by omega)
  obtain ⟨got, hget, hgot⟩ := c.hksGetParamSet_image addressOf padding memory hblock
  exact ⟨got, by rw [getParamSetOf, if_neg hne, hget], hgot⟩

theorem hksParamsToParamSet_packs {ps : List HksParam} (hext : ∀ p ∈ ps, p.External) :
    Packs (hksParamsToParamSet ps) (Carries (ps.map HksParam.markNull)) := by
  have hmark : ∀ p ∈ ps.map HksParam.markNull, p.External := by
    intro p hp
    obtain ⟨q, hq, rfl⟩ := List.mem_map.mp hp
    exact HksParam.markNull_external (hext q hq)
  refine .bind (hksAddParams_packs _ _).known fun s ⟨hadd, _⟩ => ?_
  exact .and (hksBuildParamSet_packs s) fun t hbuild => (Accumulated.init.add hadd).carries hmark hbuild

-- A message of a session is the image of a param set.
theorem sendParams_packs {code : HksIpcInterfaceCode} {outSize : UInt32} {ps : List HksParam}
    (hext : ∀ p ∈ ps, p.External) :
    Packs (sendParams addressOf padding code outSize ps) fun parcel =>
      ∃ s, Carries (ps.map HksParam.markNull) s ∧ parcel = ⟨code, outSize, s.image addressOf padding⟩ :=
  .bind (hksParamsToParamSet_packs hext) fun s c => .pure ⟨s, c, rfl⟩

end Message

-- The handlers of a session get what the client sent.
section Session

variable (addressOf : BlobData → UInt64) (padding paramsPadding : Nat → UInt32) (memory : UInt64 → BlobData)
  {s : HksParamSet}

theorem image_length (hbuilt : s.Built) (padding : Nat → UInt32) :
    0 < (s.image addressOf padding).length ∧ (s.image addressOf padding).length < 2 ^ 32 := by
  have hbounds := hbuilt.bounds
  obtain ⟨ps, c⟩ := hbuilt
  rw [HksParamSet.headerSize] at hbounds
  rw [c.length_image]
  exact ⟨by omega, s.paramSetSize.toNat_lt⟩

-- The message of a session: the service gets the params, whose buffers are those of `ps`.
structure Carried (ps : List HksParam) (parcel : HksParcel) (code : HksIpcInterfaceCode) (outSize : UInt32) : Prop where
  code_eq    : parcel.code = code
  outSize_eq : parcel.outSize = outSize
  pos        : 0 < parcel.data.length
  length_lt  : parcel.data.length < 2 ^ 32
  received   : ∃ u, getParamSetOf memory parcel.data = .ok u ∧ Carries (ps.map HksParam.markNull) u

theorem sendParams_carried {code : HksIpcInterfaceCode} {outSize : UInt32} {ps : List HksParam}
    (hext : ∀ p ∈ ps, p.External) :
    Packs (sendParams addressOf padding code outSize ps) (Carried memory ps · code outSize) := by
  refine (sendParams_packs addressOf padding hext).weaken fun parcel _ ⟨t, c, h⟩ => ?_
  have hlen := image_length addressOf ⟨_, c⟩ padding
  exact h ▸ ⟨rfl, rfl, hlen.1, hlen.2, getParamSetOf_image addressOf padding memory c⟩

-- The param set of the caller arrives.
theorem getParamSetOf_params (hbuilt : s.Built) :
    ∃ got, getParamSetOf memory (s.image addressOf paramsPadding) = .ok got ∧ got.Contains s.contents := by
  obtain ⟨ps, c⟩ := hbuilt
  obtain ⟨got, hget, hgot⟩ := getParamSetOf_image addressOf paramsPadding memory c
  exact ⟨got, hget, c.contents ▸ .of_carries hgot⟩

section Buffers

variable {ps : List HksParam} {u : HksParamSet} (c : Carries (ps.map HksParam.markNull) u)
  (htags : (ps.map HksParam.tag).Sublist messageTags)

include c htags

theorem paramSetToParam_buffer (b : Blob) (tag : UInt32)
    (ht : getTagType tag = .bytes ∧ getTagType (tag + hksParamBufferNullInterval) = .bytes)
    (hp : .ofBytes tag b.val ∈ ps) : paramSetToParam u tag = .ok (.blob b.val) :=
  paramSetToParam_blob c htags ht.1 ht.2 b.property hp

theorem paramSetToParam_params (hbuilt : s.Built) (tag : UInt32)
    (ht : getTagType tag = .bytes ∧ getTagType (tag + hksParamBufferNullInterval) = .bytes)
    (hp : paramsBlob addressOf paramsPadding tag s ∈ ps) :
    paramSetToParam u tag = .ok (.blob (s.image addressOf paramsPadding)) :=
  paramSetToParam_blob c htags ht.1 ht.2 (image_length addressOf hbuilt paramsPadding).2 hp

end Buffers

theorem hksClientInit_packs (hbuilt : s.Built) (keyAlias : Blob) :
    Packs (hksClientInit addressOf padding paramsPadding keyAlias s) fun parcel =>
      ∃ ps got, Carried memory ps parcel .init (handleSize + tokenSize.toUInt32) ∧ got.Contains s.contents ∧
        ∀ outSize, hksIpcServiceInit memory parcel.data outSize = .ok (.init keyAlias.val got outSize) := by
  obtain ⟨got, hparams, hgot⟩ := getParamSetOf_params addressOf paramsPadding memory hbuilt
  refine (sendParams_carried addressOf padding memory ?_).weaken fun parcel _ hsent =>
    ⟨_, got, hsent, hgot, fun outSize => ?_⟩
  · simpa using ⟨.ofBytes _ _, .ofBytes _ _⟩
  · obtain ⟨u, hget, c⟩ := hsent.received
    have htags : [HksTag.param0Buffer, HksTag.param1Buffer].Sublist messageTags := by decide
    have halias := paramSetToParam_buffer c htags keyAlias HksTag.param0Buffer (by decide) (by simp)
    have hset := paramSetToParam_params addressOf paramsPadding c htags hbuilt HksTag.param1Buffer (by decide) (by simp)
    have hparts : hksParamSetToParams u [HksTag.param0Buffer, HksTag.param1Buffer] =
        .ok [.blob keyAlias.val, .blob (s.image addressOf paramsPadding)] := by
      rw [hksParamSetToParams, List.mapM_cons, halias, List.mapM_cons, hset]
      rfl
    rw [hksIpcServiceInit, hget]
    change hksParamSetToParams u _ >>= _ = _
    rw [hparts]
    change getParamSetOf memory _ >>= _ = _
    rw [hparams]
    rfl

theorem hksClientUpdOrFin_packs (hbuilt : s.Built) (code : HksIpcInterfaceCode) (handle inData : Blob) (n : UInt32) :
    Packs (sendParams addressOf padding code n [
        paramsBlob addressOf paramsPadding HksTag.param0Buffer s,
        .ofBytes HksTag.param1Buffer handle.val,
        .ofBytes HksTag.param2Buffer inData.val
      ]) fun parcel =>
      ∃ ps got, Carried memory ps parcel code n ∧ got.Contains s.contents ∧
        ∀ outSize isUpdate, hksIpcServiceUpdOrFin memory parcel.data outSize isUpdate =
          .ok (if isUpdate then .update handle.val got inData.val outSize
            else .finish handle.val got inData.val outSize) := by
  obtain ⟨got, hparams, hgot⟩ := getParamSetOf_params addressOf paramsPadding memory hbuilt
  refine (sendParams_carried addressOf padding memory ?_).weaken fun parcel _ hsent =>
    ⟨_, got, hsent, hgot, fun outSize isUpdate => ?_⟩
  · simpa using ⟨.ofBytes _ _, .ofBytes _ _, .ofBytes _ _⟩
  · obtain ⟨u, hget, c⟩ := hsent.received
    have htags : [HksTag.param0Buffer, HksTag.param1Buffer, HksTag.param2Buffer].Sublist messageTags := by decide
    have hset := paramSetToParam_params addressOf paramsPadding c htags hbuilt HksTag.param0Buffer (by decide) (by simp)
    have hhandle := paramSetToParam_buffer c htags handle HksTag.param1Buffer (by decide) (by simp)
    have hdata := paramSetToParam_buffer c htags inData HksTag.param2Buffer (by decide) (by simp)
    have hparts : hksParamSetToParams u [HksTag.param0Buffer, HksTag.param1Buffer, HksTag.param2Buffer] =
        .ok [.blob (s.image addressOf paramsPadding), .blob handle.val, .blob inData.val] := by
      rw [hksParamSetToParams, List.mapM_cons, hset, List.mapM_cons, hhandle, List.mapM_cons, hdata]
      rfl
    rw [hksIpcServiceUpdOrFin, hget]
    change hksParamSetToParams u _ >>= _ = _
    rw [hparts]
    change getParamSetOf memory _ >>= _ = _
    rw [hparams]
    cases isUpdate <;> rfl

theorem hksClientAbort_packs (hbuilt : s.Built) (handle : Blob) :
    Packs (hksClientAbort addressOf padding paramsPadding handle s) fun parcel =>
      ∃ ps got, Carried memory ps parcel .abort 0 ∧ got.Contains s.contents ∧
        hksIpcServiceAbort memory parcel.data = .ok (.abort handle.val got) := by
  obtain ⟨got, hparams, hgot⟩ := getParamSetOf_params addressOf paramsPadding memory hbuilt
  refine (sendParams_carried addressOf padding memory ?_).weaken fun parcel _ hsent =>
    ⟨_, got, hsent, hgot, ?_⟩
  · simpa using ⟨.ofBytes _ _, .ofBytes _ _⟩
  · obtain ⟨u, hget, c⟩ := hsent.received
    have htags : [HksTag.param0Buffer, HksTag.param1Buffer].Sublist messageTags := by decide
    have hset := paramSetToParam_params addressOf paramsPadding c htags hbuilt HksTag.param0Buffer (by decide) (by simp)
    have hhandle := paramSetToParam_buffer c htags handle HksTag.param1Buffer (by decide) (by simp)
    have hparts : hksParamSetToParams u [HksTag.param0Buffer, HksTag.param1Buffer] =
        .ok [.blob (s.image addressOf paramsPadding), .blob handle.val] := by
      rw [hksParamSetToParams, List.mapM_cons, hset, List.mapM_cons, hhandle]
      rfl
    rw [hksIpcServiceAbort, hget]
    change hksParamSetToParams u _ >>= _ = _
    rw [hparts]
    change getParamSetOf memory _ >>= _ = _
    rw [hparams]
    rfl

theorem hksClientExportChipsetPlatformPublicKey_packs (salt : Blob) (scene n : UInt32) :
    Packs (hksClientExportChipsetPlatformPublicKey addressOf padding salt scene n) fun parcel =>
      ∃ ps, Carried memory ps parcel .chipsetPlatformDecrypt n ∧
        ∀ outSize, hksIpcServiceExportChipsetPlatformPublicKey memory parcel.data outSize =
          .ok (.exportChipsetPlatformPublicKey salt.val scene outSize) := by
  have hscene : getTagType HksTag.param1UInt32 ≠ .bytes := by decide
  refine (sendParams_carried addressOf padding memory ?_).weaken fun parcel _ hsent =>
    ⟨_, hsent, fun outSize => ?_⟩
  · simpa using ⟨.ofBytes _ _, .scalar hscene⟩
  · obtain ⟨u, hget, c⟩ := hsent.received
    have htags : [HksTag.param0Buffer, HksTag.param1UInt32].Sublist messageTags := by decide
    have hsalt := paramSetToParam_buffer c htags salt HksTag.param0Buffer (by decide) (by simp)
    have hword := @paramSetToParam_uint32 _ _ HksTag.param1UInt32 c htags scene (by decide) (by simp)
    have hparts : hksParamSetToParams u [HksTag.param0Buffer, HksTag.param1UInt32] =
        .ok [.blob salt.val, .uint32Param scene] := by
      rw [hksParamSetToParams, List.mapM_cons, hsalt, List.mapM_cons, hword]
      rfl
    rw [hksIpcServiceExportChipsetPlatformPublicKey, hget]
    change hksParamSetToParams u _ >>= _ = _
    rw [hparts]
    rfl

end Session

end Huks
