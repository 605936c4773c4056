import Huks.Ipc.Theorems.Unpacking

namespace Huks

-- The element has room for the alias and the params.
structure KeyInfoSlot.Fits (slot : KeyInfoSlot) (keyInfo : HksKeyInfo) : Prop where
  room     : slot.aliasSize ≠ 0
  alias'   : keyInfo.alias'.val.length ≤ slot.aliasSize.toNat
  paramSet : keyInfo.paramSet.paramSetSize ≤ slot.paramSet.size

-- Every element fits, up to the first alias that is too long for any buffer.
def SlotsFit : List KeyInfoSlot → List HksKeyInfo → Prop
  | slot :: slots, keyInfo :: keyInfoList =>
    ¬keyInfo.alias'.Aligns ∨ (slot.Fits keyInfo ∧ SlotsFit slots keyInfoList)
  | _, _ => True

def HksParamSet.Built (s : HksParamSet) : Prop := ∃ ps, Carries ps s

-- The params of an encryption with AES and GCM
def gcmParams : List HksParam := [.ofUInt32 HksTag.algorithm HksKeyAlg.aes,
  .ofUInt32 HksTag.blockMode HksCipherMode.gcm, .ofBytes HksTag.nonce (.replicate 12 7)]

def gcmParamSet : HksParamSet where
  paramSetSize := 92
  params       := [.ofUInt32 HksTag.algorithm HksKeyAlg.aes, .ofUInt32 HksTag.blockMode HksCipherMode.gcm,
    ⟨HksTag.nonce, 12, .inSet 80⟩]
  area         := .replicate 12 7

theorem gcmParamSet_built : gcmParamSet.Built := by
  refine ⟨gcmParams, fun p hp => ?_, by decide, rfl, ⟨gcmParams, rfl, rfl⟩, rfl⟩
  simp only [gcmParams, List.mem_cons, List.not_mem_nil, or_false] at hp
  obtain rfl | rfl | rfl := hp
  case inl => exact fun hb => absurd hb (by decide)
  case inr.inl => exact fun hb => absurd hb (by decide)
  case inr.inr => exact fun _ => ⟨_, rfl⟩

-- The same alias and params that say the same.
def HksKeyInfo.Same (keyInfo : HksKeyInfo) (got : Bytes × HksParamSet) : Prop :=
  got.1 = keyInfo.alias'.val ∧ ∀ ps, Carries ps keyInfo.paramSet → Carries ps got.2

theorem ParamBlock.memcpyS_eq {block : ParamBlock} {src : Bytes}
    (h : src.length ≤ block.size.toNat) (hne : block.size ≠ 0) :
    ∃ copied, block.memcpyS src = some copied ∧ ∃ rest, copied.bytes = src ++ rest := by
  refine ⟨_, dif_pos ⟨h, hne⟩, block.bytes.drop (0 + src.length), ?_⟩
  simp [splice]

section

variable {addressOf : BlobData → UInt64} {padding : Nat → UInt32} {memory : UInt64 → BlobData}
  {reply : Bytes} {offset : UInt32} {keyInfo : HksKeyInfo} {slot : KeyInfoSlot} {j k : Nat}
  {keyInfoList : List HksKeyInfo} {slots : List KeyInfoSlot}

theorem le32_image {ps : List HksParam} {t : HksParamSet} (c : Carries ps t) {n : Nat}
    (h : slice reply n (t.image addressOf padding).length = t.image addressOf padding) :
    le32 (slice reply n 4) = t.paramSetSize := by
  have hpos : 4 ≤ (t.image addressOf padding).length := by
    rw [c.length_image, c.size, buildSize, HksParamSet.headerSize]
    omega
  have hslice : slice reply n 4 = (t.image addressOf padding).take 4 := by
    rw [← h, slice, slice, List.take_take, Nat.min_eq_left hpos]
  rw [hslice, c.image, HksParamSet.headImage, List.append_assoc]
  exact le32_toBytes32_append t.paramSetSize []

-- The params of an element, read to the block of the client.
theorem getParamSetFromBuffer_image {ps : List HksParam} {t : HksParamSet} (c : Carries ps t)
    (h : reply.length < 2 ^ 32) (hj : j = offset.toNat + (alignSize t.paramSetSize).toNat)
    (hlen : j ≤ reply.length)
    (himage : slice reply offset.toNat (t.image addressOf padding).length =
      t.image addressOf padding) :
    ∃ offset', offset'.toNat = j ∧
      getParamSetFromBuffer reply offset = pure (⟨offset, t.paramSetSize⟩, offset') ∧
      ∀ destMax, copyFromReply reply destMax ⟨offset, t.paramSetSize⟩ =
        pure (if destMax = 0 ∨ destMax < t.paramSetSize then none
          else some (t.image addressOf padding)) := by
  subst hj
  have hmax := c.max
  have hsmall : t.paramSetSize.toNat + 3 < 2 ^ 32 := by
    rw [c.size]
    simp only [HksParamSet.maxSize] at hmax
    omega
  have hle := (alignSize_of_small hsmall).1
  have hheader : HksParamSet.headerSize ≤ t.paramSetSize.toNat := by
    rw [c.size, buildSize]
    omega
  have hnext : (offset + alignSize t.paramSetSize).toNat =
      offset.toNat + (alignSize t.paramSetSize).toNat := by
    rw [UInt32.toNat_add]
    exact Nat.mod_eq_of_lt (by omega)
  refine ⟨_, hnext, ?_, fun destMax => ?_⟩
  · rw [getParamSetFromBuffer_eq h (by omega) (le32_image c himage), if_neg (Nat.not_le.mpr hsmall),
      if_neg (Nat.not_lt.mpr hlen)]
  · have hwithin : ReplyBlob.Within reply ⟨offset, t.paramSetSize⟩ :=
      Nat.le_trans (Nat.add_le_add_left hle _) hlen
    rw [copyFromReply_eq hwithin]
    dsimp only
    rw [← c.length_image addressOf padding, himage]

theorem unpackKeyInfoList_overlong (h : reply.length < 2 ^ 32)
    (hitem : (keyInfoFormat addressOf padding).item reply offset.toNat keyInfo j)
    (ha : ¬keyInfo.alias'.Aligns) (n : Nat) :
    unpackKeyInfoList reply memory (slot :: slots) (n + 1) offset = throw .invalidArgument := by
  have ⟨k, halias, _⟩ := hitem
  rw [unpackKeyInfoList, getBlobFromBuffer_of_not_aligns h halias ha]
  rfl

-- The two parts of an element are read back.
theorem keyInfo_read (h : reply.length < 2 ^ 32)
    (hitem : (keyInfoFormat addressOf padding).item reply offset.toNat keyInfo j)
    (hbuilt : keyInfo.paramSet.Built) (ha : keyInfo.alias'.Aligns) :
    ∃ offset' offset'', offset''.toNat = j ∧
      getBlobFromBuffer reply offset = pure (⟨offset + 4, keyInfo.alias'.size⟩, offset') ∧
      getParamSetFromBuffer reply offset' =
        pure (⟨offset', keyInfo.paramSet.paramSetSize⟩, offset'') ∧
      (∀ destMax, copyFromReply reply destMax ⟨offset + 4, keyInfo.alias'.size⟩ =
        pure (if destMax = 0 ∨ destMax < keyInfo.alias'.size then none
          else some keyInfo.alias'.val)) ∧
      ∀ destMax, copyFromReply reply destMax ⟨offset', keyInfo.paramSet.paramSetSize⟩ =
        pure (if destMax = 0 ∨ destMax < keyInfo.paramSet.paramSetSize then none
          else some (keyInfo.paramSet.image addressOf padding)) := by
  obtain ⟨ps, c⟩ := hbuilt
  obtain ⟨k, halias, hj, hlen, himage⟩ := hitem
  obtain ⟨offset', hoffset, hget, hcopy⟩ := getBlobFromBuffer_of_aligns h halias ha
  have hle : (keyInfo.paramSet.image addressOf padding).length ≤
      (alignSize keyInfo.paramSet.paramSetSize).toNat := by
    have hmax := c.max
    rw [c.length_image]
    apply And.left
    apply alignSize_of_small
    rw [c.size]
    simp only [HksParamSet.maxSize] at hmax
    omega
  obtain rfl := hoffset
  obtain ⟨offset'', hoffset', hgetParam, hcopyParam⟩ :=
    getParamSetFromBuffer_image c h hj hlen (himage hle)
  exact ⟨offset', offset'', hoffset', hget, hgetParam, hcopy, hcopyParam⟩

theorem KeyInfoSlot.Fits.alias_room (hfits : slot.Fits keyInfo) :
    ¬(slot.aliasSize = 0 ∨ slot.aliasSize < keyInfo.alias'.size) := by
  rw [not_or, UInt32.lt_iff_toNat_lt, keyInfo.alias'.size_toNat, Nat.not_lt]
  exact ⟨hfits.room, hfits.alias'⟩

variable (memory slots) in
theorem unpackKeyInfoList_fits (h : reply.length < 2 ^ 32)
    (hitem : (keyInfoFormat addressOf padding).item reply offset.toNat keyInfo j)
    (hbuilt : keyInfo.paramSet.Built) (ha : keyInfo.alias'.Aligns) (hfits : slot.Fits keyInfo)
    (n : Nat) :
    ∃ offset' got, offset'.toNat = j ∧ keyInfo.Same got ∧
      unpackKeyInfoList reply memory (slot :: slots) (n + 1) offset =
        unpackKeyInfoList reply memory slots n offset' >>= fun keyInfoList =>
          pure (got :: keyInfoList) := by
  obtain ⟨offset', offset'', hoffset, hget, hgetParam, hcopy, hcopyParam⟩ :=
    keyInfo_read h hitem hbuilt ha
  obtain ⟨ps, c⟩ := hbuilt
  have hle := UInt32.le_iff_toNat_le.mp hfits.paramSet
  have hne : slot.paramSet.size ≠ 0 := by
    have := c.size
    rw [buildSize, HksParamSet.headerSize] at this
    rw [ne_eq, ← UInt32.toNat_inj]
    simp only [UInt32.toNat_zero]
    omega
  have hroom : ¬(slot.paramSet.size = 0 ∨ slot.paramSet.size < keyInfo.paramSet.paramSetSize) := by
    rw [not_or, UInt32.lt_iff_toNat_lt]
    exact ⟨hne, Nat.not_lt.mpr hle⟩
  have hlen := c.length_image addressOf padding
  obtain ⟨block, hblock, rest, hbytes⟩ := ParamBlock.memcpyS_eq (Nat.le_trans (Nat.le_of_eq hlen) hle) hne
  obtain ⟨_, paramSet, hfresh, _⟩ := c.hksFreshParamSet_image addressOf padding memory hbytes
  refine ⟨offset'', (keyInfo.alias'.val, paramSet), hoffset, ⟨rfl, fun qs hqs => ?_⟩, ?_⟩
  · obtain ⟨_, u, hu, hcarries⟩ := hqs.hksFreshParamSet_image addressOf padding memory hbytes
    obtain rfl := Except.ok.inj (hfresh.symm.trans hu)
    exact hcarries
  · rw [unpackKeyInfoList, hget, pure_bind]
    dsimp only
    rw [hcopy, if_neg hfits.alias_room, pure_bind]
    dsimp only
    rw [hgetParam, pure_bind]
    dsimp only
    rw [hcopyParam, if_neg hroom, pure_bind]
    simp only [Option.bind_eq_bind, Option.bind_some, hblock, hfresh]

theorem unpackKeyInfoList_small (h : reply.length < 2 ^ 32)
    (hitem : (keyInfoFormat addressOf padding).item reply offset.toNat keyInfo j)
    (hbuilt : keyInfo.paramSet.Built) (ha : keyInfo.alias'.Aligns) (hfits : ¬slot.Fits keyInfo)
    (n : Nat) :
    unpackKeyInfoList reply memory (slot :: slots) (n + 1) offset = pure [] := by
  have ⟨offset', offset'', hoffset, hget, hgetParam, hcopy, hcopyParam⟩ :=
    keyInfo_read h hitem hbuilt ha
  rw [unpackKeyInfoList, hget, pure_bind]
  dsimp only
  rw [hcopy, pure_bind]
  split
  case h_1 => rfl
  case h_2 alias' halias =>
    have halias : ¬(slot.aliasSize = 0 ∨ slot.aliasSize < keyInfo.alias'.size) := by
      intro hsmall
      rw [if_pos hsmall] at halias
      cases halias
    rw [not_or, UInt32.lt_iff_toNat_lt, keyInfo.alias'.size_toNat, Nat.not_lt] at halias
    have hsmall : slot.paramSet.size = 0 ∨ slot.paramSet.size < keyInfo.paramSet.paramSetSize :=
      .inr (UInt32.not_le.mp fun hle => hfits ⟨halias.1, halias.2, hle⟩)
    rw [hgetParam, pure_bind]
    dsimp only
    rw [hcopyParam, if_pos hsmall, pure_bind]
    rfl

-- The run over the elements.
variable (memory) in
theorem unpackKeyInfoList_delivered (h : reply.length < 2 ^ 32)
    (hlaid : Laid (keyInfoFormat addressOf padding) reply offset.toNat keyInfoList j)
    (hbuilt : ∀ keyInfo ∈ keyInfoList, keyInfo.paramSet.Built)
    (hlen : keyInfoList.length ≤ slots.length) (hfits : SlotsFit slots keyInfoList) :
    Delivers (unpackKeyInfoList reply memory slots keyInfoList.length offset)
      (List.Forall₂ HksKeyInfo.Same keyInfoList) := by
  induction keyInfoList generalizing slots offset
  case nil =>
    rw [List.length_nil, unpackKeyInfoList]
    exact .pure .nil
  case cons keyInfo keyInfoList ih =>
    cases slots
    case nil => simp at hlen
    case cons slot slots =>
      cases hlaid
      case cons hitem hlaid =>
        rw [List.length_cons]
        by_cases ha : keyInfo.alias'.Aligns
        case neg =>
          rw [unpackKeyInfoList_overlong h hitem ha]
          exact .throw
        case pos =>
          obtain ⟨hfit, hrest⟩ := hfits.resolve_left (not_not_intro ha)
          obtain ⟨offset', got, hoffset, hsame, hrun⟩ := unpackKeyInfoList_fits memory
            slots h hitem (hbuilt keyInfo (by simp)) ha hfit keyInfoList.length
          rw [hrun]
          have ih := ih (hoffset ▸ hlaid) (fun k hk => hbuilt k (by simp [hk]))
            (Nat.le_of_succ_le_succ hlen) hrest
          exact .bind ih fun _ hdelivered => .pure (.cons hsame hdelivered)

variable (memory) in
theorem unpackKeyInfoList_lost (h : reply.length < 2 ^ 32)
    (hlaid : Laid (keyInfoFormat addressOf padding) reply offset.toNat keyInfoList j)
    (hbuilt : ∀ keyInfo ∈ keyInfoList, keyInfo.paramSet.Built)
    (hfits : ¬SlotsFit slots keyInfoList) :
    ∃ got, unpackKeyInfoList reply memory slots keyInfoList.length offset = pure got ∧
      got.length < keyInfoList.length := by
  induction keyInfoList generalizing slots offset
  case nil => exact absurd (by cases slots <;> exact trivial) hfits
  case cons keyInfo keyInfoList ih =>
    cases slots
    case nil => exact absurd trivial hfits
    case cons slot slots =>
      cases hlaid
      case cons hitem hlaid =>
        rw [SlotsFit, not_or, not_not] at hfits
        obtain ⟨ha, hfits⟩ := hfits
        have hbuiltHead := hbuilt keyInfo (by simp)
        rw [List.length_cons]
        by_cases hfit : slot.Fits keyInfo
        case neg =>
          exact ⟨[], unpackKeyInfoList_small h hitem hbuiltHead ha hfit _, Nat.succ_pos _⟩
        case pos =>
          have ⟨offset', got, hoffset, hsame, hrun⟩ := unpackKeyInfoList_fits memory
            slots h hitem hbuiltHead ha hfit keyInfoList.length
          have ⟨rest, hrest, hlt⟩ := ih (hoffset ▸ hlaid) (fun k hk => hbuilt k (by simp [hk]))
            fun hrest => hfits ⟨hfit, hrest⟩
          refine ⟨got :: rest, ?_, Nat.succ_lt_succ hlt⟩
          rw [hrun, hrest]
          rfl

end

end Huks
