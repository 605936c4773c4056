import Huks.Ipc.Theorems.RequestParts

namespace Huks

open MessagePart (format)

theorem ParamBlock.bytes_ofBuffer {bytes : Bytes} (h : bytes.length < 2 ^ 32) :
    (ParamBlock.ofBuffer bytes).bytes = bytes := by
  have hlen : bytes.length.toUInt32.toNat = bytes.length := toUInt32_toNat h
  change bytes.takeD bytes.length.toUInt32.toNat 0 = bytes
  rw [hlen]
  exact FixedBytes.takeD_length_self bytes

-- The service reads the parts of a message one behind the other.
section Reading

variable {addressOf : BlobData → UInt64} {padding : Nat → UInt32} {data : Bytes} {offset : UInt32}
  {parts : List MessagePart} {j : Nat} (h : data.length < 2 ^ 32)

include h

theorem getUint32_laid {n : UInt32}
    (hlaid : Laid (format addressOf padding) data offset.toNat (.uint32 n :: parts) j) :
    ∃ offset', Laid (format addressOf padding) data offset'.toNat parts j ∧
      getUint32FromBuffer data offset = pure (n, offset') := by
  cases hlaid
  case cons k hitem hlaid =>
    obtain ⟨rfl, hlen, hbytes⟩ := hitem
    have hcheck : ¬(offset > data.length.toUInt32 ∨ data.length.toUInt32 - offset < 4) := by
      rw [UInt32.lt_iff_toNat_lt (b := 4)]
      exact fun hs => absurd ((reply_short h 4).mp hs) (Nat.not_lt.mpr hlen)
    have hnext : (offset + 4).toNat = offset.toNat + 4 := by
      rw [UInt32.toNat_add]
      exact Nat.mod_eq_of_lt (Nat.lt_of_le_of_lt hlen h)
    have hword : slice data offset.toNat 4 = toBytes32 n := hbytes (Nat.le_refl 4)
    refine ⟨offset + 4, hnext ▸ hlaid, ?_⟩
    rw [getUint32FromBuffer, if_neg hcheck, readReply_eq hlen, pure_bind, le32_slice hword]

theorem getBlob_laid {b : Blob} (ha : b.Aligns)
    (hlaid : Laid (format addressOf padding) data offset.toNat (.blob b :: parts) j) :
    ∃ offset', Laid (format addressOf padding) data offset'.toNat parts j ∧
      ServiceIpc.getBlobFromBuffer data offset = pure (b.val, offset') := by
  cases hlaid
  case cons k hitem hlaid =>
    obtain ⟨offset', hoffset, hget, _⟩ := getBlobFromBuffer_of_aligns h hitem ha
    obtain ⟨hk, hlen, _, hbytes⟩ := hitem
    have hle := ha.le
    have hnext : (offset + 4).toNat = offset.toNat + 4 := by
      rw [UInt32.toNat_add]
      exact Nat.mod_eq_of_lt (by simp; omega)
    have hread : readReply data (offset + 4).toNat b.size.toNat = pure b.val := by
      rw [hnext, b.size_toNat, readReply_eq (by omega), hbytes ha]
    refine ⟨offset', hoffset ▸ hlaid, ?_⟩
    rw [ServiceIpc.getBlobFromBuffer, hget, pure_bind]
    dsimp only
    rw [hread, pure_bind]

variable (memory : UInt64 → BlobData)

theorem getParamSet_laid {s : HksParamSet} (hbuilt : s.Built)
    (hlaid : Laid (format addressOf padding) data offset.toNat (.paramSet s :: parts) j) :
    ∃ got offset', got.Contains s.contents ∧ Laid (format addressOf padding) data offset'.toNat parts j ∧
      ServiceIpc.getParamSetFromBuffer memory data offset = pure (got, offset') := by
  have hroom := hbuilt.room_bounds
  have hbounds := hbuilt.bounds
  rw [HksParamSet.maxSize] at hbounds
  obtain ⟨ps, c⟩ := hbuilt
  have himagelen := c.length_image addressOf padding
  cases hlaid
  case cons k hitem hlaid =>
    obtain ⟨rfl, hlen, himage⟩ := hitem
    have himage := himage (himagelen ▸ hroom.1)
    have hcheck : ¬(offset > data.length.toUInt32 ∨
        (data.length.toUInt32 - offset).toNat < HksParamSet.headerSize) := by
      rw [reply_short h]
      omega
    have hword : readReply data offset.toNat 4 = pure (slice data offset.toNat 4) := by
      rw [HksParamSet.headerSize] at hbounds
      exact readReply_eq (by omega)
    have hsmall : ¬isAdditionOverflow s.paramSetSize defaultAlignMaskSize = true := by
      rw [isAdditionOverflow_align]
      omega
    have hfits : ¬alignSize s.paramSetSize > data.length.toUInt32 - offset := by
      rw [gt_iff_lt, UInt32.lt_iff_toNat_lt, reply_room h (by omega)]
      rw [HksParamSet.room] at hlen
      omega
    have hread : readReply data offset.toNat s.paramSetSize.toNat = pure (s.image addressOf padding) := by
      rw [readReply_eq (by omega), ← himagelen, himage]
    have hblock : (ParamBlock.ofBuffer (s.image addressOf padding)).bytes = s.image addressOf padding ++ [] := by
      rw [ParamBlock.bytes_ofBuffer (by omega), List.append_nil]
    obtain ⟨_, got, hfresh, hgot⟩ := c.hksFreshParamSet_image addressOf padding memory hblock
    have hnext : (offset + alignSize s.paramSetSize).toNat = offset.toNat + s.room := by
      rw [UInt32.toNat_add, ← HksParamSet.room]
      exact Nat.mod_eq_of_lt (Nat.lt_of_le_of_lt hlen h)
    refine ⟨got, offset + alignSize s.paramSetSize, c.contents ▸ .of_carries hgot, hnext ▸ hlaid, ?_⟩
    rw [ServiceIpc.getParamSetFromBuffer, if_neg hcheck, hword, pure_bind, le32_image c himage, if_neg hsmall,
      if_neg hfits, hread, pure_bind, hfresh]

theorem getKeyAndParamSet_laid {b : Blob} {s : HksParamSet} (ha : b.Aligns) (hbuilt : s.Built)
    (hlaid : Laid (format addressOf padding) data offset.toNat (.blob b :: .paramSet s :: parts) j) :
    ∃ got offset', got.Contains s.contents ∧ Laid (format addressOf padding) data offset'.toNat parts j ∧
      ServiceIpc.getKeyAndParamSetFromBuffer memory data offset = pure (b.val, got, offset') := by
  obtain ⟨offset₁, hlaid, hblob⟩ := getBlob_laid h ha hlaid
  obtain ⟨got, offset₂, hgot, hlaid, hparam⟩ := getParamSet_laid h memory hbuilt hlaid
  refine ⟨got, offset₂, hgot, hlaid, ?_⟩
  rw [ServiceIpc.getKeyAndParamSetFromBuffer, hblob, pure_bind]
  dsimp only
  rw [hparam, pure_bind]

-- A param set at the end is there.
theorem getLastParamSet_laid {s : HksParamSet} (hbuilt : s.Built)
    (hlaid : Laid (format addressOf padding) data offset.toNat [.paramSet s] j) :
    ∃ got, got.Contains s.contents ∧ ServiceIpc.getLastParamSet memory data offset = pure (some got) := by
  obtain ⟨got, offset', hgot, _, hparam⟩ := getParamSet_laid h memory hbuilt hlaid
  have hne : offset ≠ data.length.toUInt32 := by
    have hroom := hbuilt.room_bounds.1
    have hbounds := hbuilt.bounds.1
    rw [HksParamSet.headerSize] at hbounds
    cases hlaid
    case cons hitem _ =>
      have := hitem.1
      have := hitem.2.1
      rw [ne_eq, ← UInt32.toNat_inj, toUInt32_toNat h]
      omega
  refine ⟨got, hgot, ?_⟩
  rw [ServiceIpc.getLastParamSet, if_neg hne, hparam, pure_bind]

omit memory

theorem malloc_laid {n : UInt32} {invalid : UInt32 → Bool}
    (hlaid : Laid (format addressOf padding) data offset.toNat (.uint32 n :: parts) j)
    (hvalid : invalid n = false → mallocOk n.toNat) :
    ∃ offset', Laid (format addressOf padding) data offset'.toNat parts j ∧
      ServiceIpc.mallocFromBuffer data invalid offset =
        pure (if invalid n then .error .invalidArgument else .ok n, offset') := by
  obtain ⟨offset', hlaid, hread⟩ := getUint32_laid h hlaid
  refine ⟨offset', hlaid, ?_⟩
  rw [ServiceIpc.mallocFromBuffer, hread]
  change (if invalid n then _ else if ¬mallocOk n.toNat then _ else _ : ReplyM _) = _
  split
  case isTrue => rfl
  case isFalse hinvalid =>
    have := hvalid (by simpa using hinvalid)
    rw [if_neg (not_not_intro this)]

end Reading

-- A length that is not invalid is one that there is memory for.
theorem mallocOk_of_length {n : UInt32} (h : isInvalidLength n = false) : mallocOk n.toNat := by
  rw [isInvalidLength, decide_eq_false_iff_not, not_or] at h
  have hmax : n.toNat ≤ maxOutBlobSize.toNat := Nat.not_lt.mp (mt UInt32.lt_iff_toNat_lt.mpr h.2)
  have hpos : n.toNat ≠ 0 := fun hz => h.1 (UInt32.toNat_inj.mp hz)
  have : maxOutBlobSize.toNat = 5 * 1024 * 1024 := rfl
  exact mallocOk_iff.mpr ⟨Nat.pos_of_ne_zero hpos, by omega⟩

section Malloc

variable {addressOf : BlobData → UInt64} {padding : Nat → UInt32} {data : Bytes} {offset n : UInt32}
  {parts : List MessagePart} {j : Nat} (h : data.length < 2 ^ 32)
  (hlaid : Laid (format addressOf padding) data offset.toNat (.uint32 n :: parts) j)

include h hlaid

theorem mallocBlob_laid : ∃ offset', Laid (format addressOf padding) data offset'.toNat parts j ∧
    ServiceIpc.mallocBlobFromBuffer data offset =
      pure (if isInvalidLength n then .error .invalidArgument else .ok n, offset') :=
  malloc_laid h hlaid mallocOk_of_length

theorem mallocParamSet_laid : ∃ offset', Laid (format addressOf padding) data offset'.toNat parts j ∧
    ServiceIpc.mallocParamSetFromBuffer data offset =
      pure (if isInvalidLength n ∨ n.toNat < HksParamSet.headerSize then .error .invalidArgument else .ok n,
        offset') := by
  have hvalid : decide (isInvalidLength n ∨ n.toNat < HksParamSet.headerSize) = false → mallocOk n.toNat := by
    intro hn
    rw [decide_eq_false_iff_not, not_or, Bool.not_eq_true] at hn
    exact mallocOk_of_length hn.1
  obtain ⟨offset', hlaid, hread⟩ := @malloc_laid _ _ _ _ _ _ h n
    (fun size => isInvalidLength size ∨ size.toNat < HksParamSet.headerSize) hlaid hvalid
  refine ⟨offset', hlaid, ?_⟩
  rw [ServiceIpc.mallocParamSetFromBuffer, hread]
  simp only [decide_eq_true_eq]

theorem mallocLast_laid : ServiceIpc.mallocLastBlob data offset =
    if isInvalidLength n then throw .invalidArgument else pure n := by
  obtain ⟨offset', _, hread⟩ := mallocBlob_laid h hlaid
  rw [ServiceIpc.mallocLastBlob, hread, pure_bind]
  dsimp only
  split <;> rfl

end Malloc

-- A run that goes on where it is not refused
theorem ReplyM.refuse_bind {α β : Type} {c : Prop} [Decidable c] {e : HksErrorCode} {a : α} (f : α → ReplyM β) :
    (if c then throw e else pure a) >>= f = if c then throw e else f a := by
  split
  case isTrue => rfl
  case isFalse => rw [pure_bind]

theorem ReplyM.pure_inj {α : Type} {a b : α} (h : (pure a : ReplyM α) = pure b) : a = b :=
  Except.ok.inj (Option.some.inj h)

theorem ReplyM.bind_eq_pure {α β : Type} {x : ReplyM α} {f : α → ReplyM β} {b : β} (h : x >>= f = pure b) :
    ∃ a, x = pure a ∧ f a = pure b := by
  rcases hx : x.run with _ | e | a
  case none =>
    obtain rfl : x = (none : Option _) := hx
    cases h
  case some.error =>
    obtain rfl : x = throw e := hx
    cases h
  case some.ok =>
    obtain rfl : x = pure a := hx
    exact ⟨a, rfl, h⟩

-- Three of the unpackings of a piece of data do the same.
structure OnceUnpacked (memory : UInt64 → BlobData) (data : Bytes)
    (unpacked : ReplyM (Bytes × HksParamSet × Bytes × UInt32)) : Prop where
  sign   : hksSignUnpack memory data = unpacked
  cipher : hksEncryptDecryptUnpack memory data = unpacked
  mac    : hksHmacUnpack memory data = unpacked

-- What the handlers unpack from the parts of a message
section Unpack

variable {addressOf : BlobData → UInt64} {padding : Nat → UInt32} (memory : UInt64 → BlobData) {data : Bytes}
  {j : Nat} {s : HksParamSet} {b b' : Blob} {n : UInt32} (h : data.length < 2 ^ 32)

include h

section Keys

variable (ha : b.Aligns) (hbuilt : s.Built)

include ha hbuilt

theorem hksGenerateKeyUnpack_laid
    (hlaid : Laid (format addressOf padding) data (0 : UInt32).toNat [.blob b, .paramSet s, .uint32 n] j) :
    ∃ got, got.Contains s.contents ∧ hksGenerateKeyUnpack memory data =
      if n > maxOutBlobSize then throw .invalidArgument else pure (b.val, got, n) := by
  obtain ⟨got, offset, hgot, hlaid, hkey⟩ := getKeyAndParamSet_laid h memory ha hbuilt hlaid
  obtain ⟨_, _, hsize⟩ := getUint32_laid h hlaid
  refine ⟨got, hgot, ?_⟩
  rw [hksGenerateKeyUnpack, hkey, pure_bind]
  dsimp only
  rw [hsize, pure_bind]
  dsimp only
  split
  case isTrue => rfl
  case isFalse hmax =>
    have hmalloc : ¬(n ≠ 0 ∧ ¬mallocOk n.toNat) := by
      rintro ⟨hzero, hmalloc⟩
      apply hmalloc
      apply mallocOk_of_length
      rw [isInvalidLength, decide_eq_false_iff_not, not_or]
      exact ⟨hzero, hmax⟩
    rw [if_neg hmalloc]

theorem hksImportKeyUnpack_laid (hb : b'.Aligns)
    (hlaid : Laid (format addressOf padding) data (0 : UInt32).toNat [.blob b, .paramSet s, .blob b'] j) :
    ∃ got, got.Contains s.contents ∧ hksImportKeyUnpack memory data = pure (b.val, got, b'.val) := by
  obtain ⟨got, offset, hgot, hlaid, hkey⟩ := getKeyAndParamSet_laid h memory ha hbuilt hlaid
  obtain ⟨_, _, hdata⟩ := getBlob_laid h hb hlaid
  refine ⟨got, hgot, ?_⟩
  rw [hksImportKeyUnpack, hkey, pure_bind]
  dsimp only
  rw [hdata, pure_bind]

theorem hksImportWrappedKeyUnpack_laid {wrappedKeyData : Blob} (hb : b'.Aligns) (hw : wrappedKeyData.Aligns)
    (hlaid : Laid (format addressOf padding) data (0 : UInt32).toNat
      [.blob b, .blob b', .paramSet s, .blob wrappedKeyData] j) :
    ∃ got, got.Contains s.contents ∧
      hksImportWrappedKeyUnpack memory data = pure (b.val, b'.val, got, wrappedKeyData.val) := by
  obtain ⟨_, hlaid, hkeyAlias⟩ := getBlob_laid h ha hlaid
  obtain ⟨_, hlaid, hwrapping⟩ := getBlob_laid h hb hlaid
  obtain ⟨got, _, hgot, hlaid, hparam⟩ := getParamSet_laid h memory hbuilt hlaid
  obtain ⟨_, _, hdata⟩ := getBlob_laid h hw hlaid
  refine ⟨got, hgot, ?_⟩
  rw [hksImportWrappedKeyUnpack, hkeyAlias, pure_bind]
  dsimp only
  rw [hwrapping, pure_bind]
  dsimp only
  rw [hparam, pure_bind]
  dsimp only
  rw [hdata, pure_bind]

theorem hksDeleteKeyUnpack_laid
    (hlaid : Laid (format addressOf padding) data (0 : UInt32).toNat [.blob b, .paramSet s] j) :
    ∃ got, got.Contains s.contents ∧ hksDeleteKeyUnpack memory data = pure (b.val, some got) := by
  obtain ⟨_, hlaid, hkeyAlias⟩ := getBlob_laid h ha hlaid
  obtain ⟨got, hgot, hparam⟩ := getLastParamSet_laid h memory hbuilt hlaid
  refine ⟨got, hgot, ?_⟩
  rw [hksDeleteKeyUnpack, hkeyAlias, pure_bind]
  dsimp only
  rw [hparam, pure_bind]

theorem hksExportPublicKeyUnpack_laid
    (hlaid : Laid (format addressOf padding) data (0 : UInt32).toNat [.blob b, .uint32 n, .paramSet s] j) :
    ∃ got, got.Contains s.contents ∧ hksExportPublicKeyUnpack memory data =
      pure (b.val, some got, if isInvalidLength n then none else some n) := by
  obtain ⟨_, hlaid, hkeyAlias⟩ := getBlob_laid h ha hlaid
  obtain ⟨_, hlaid, hsize⟩ := mallocBlob_laid h hlaid
  obtain ⟨got, hgot, hparam⟩ := getLastParamSet_laid h memory hbuilt hlaid
  refine ⟨got, hgot, ?_⟩
  rw [hksExportPublicKeyUnpack, hkeyAlias, pure_bind]
  dsimp only
  rw [hsize, pure_bind]
  dsimp only
  rw [hparam, pure_bind]
  split <;> rfl

theorem hksGetKeyParamSetUnpack_laid
    (hlaid : Laid (format addressOf padding) data (0 : UInt32).toNat [.blob b, .uint32 n, .paramSet s] j) :
    ∃ got, got.Contains s.contents ∧ hksGetKeyParamSetUnpack memory data =
      pure (b.val, some got, if isInvalidLength n ∨ n.toNat < HksParamSet.headerSize then none else some n) := by
  obtain ⟨_, hlaid, hkeyAlias⟩ := getBlob_laid h ha hlaid
  obtain ⟨_, hlaid, hsize⟩ := mallocParamSet_laid h hlaid
  obtain ⟨got, hgot, hparam⟩ := getLastParamSet_laid h memory hbuilt hlaid
  refine ⟨got, hgot, ?_⟩
  rw [hksGetKeyParamSetUnpack, hkeyAlias, pure_bind]
  dsimp only
  rw [hsize, pure_bind]
  dsimp only
  rw [hparam, pure_bind]
  split <;> rfl

theorem signVerifyMacUnpack_laid {parts : List MessagePart} (hb : b'.Aligns)
    (hlaid : Laid (format addressOf padding) data (0 : UInt32).toNat (.blob b :: .paramSet s :: .blob b' :: parts) j) :
    ∃ got offset, got.Contains s.contents ∧ Laid (format addressOf padding) data offset.toNat parts j ∧
      signVerifyMacUnpack memory data = pure (b.val, got, b'.val, offset) := by
  obtain ⟨got, _, hgot, hlaid, hkey⟩ := getKeyAndParamSet_laid h memory ha hbuilt hlaid
  obtain ⟨offset, hlaid, hdata⟩ := getBlob_laid h hb hlaid
  refine ⟨got, offset, hgot, hlaid, ?_⟩
  rw [signVerifyMacUnpack, hkey, pure_bind]
  dsimp only
  rw [hdata, pure_bind]

theorem onceUnpack_laid (hb : b'.Aligns)
    (hlaid : Laid (format addressOf padding) data (0 : UInt32).toNat
      [.blob b, .paramSet s, .blob b', .uint32 n] j) :
    ∃ got, got.Contains s.contents ∧ OnceUnpacked memory data
      (if isInvalidLength n then throw .invalidArgument else pure (b.val, got, b'.val, n)) := by
  obtain ⟨got, offset, hgot, hlaid', hkey⟩ := signVerifyMacUnpack_laid memory h ha hbuilt hb hlaid
  have hsign : hksSignUnpack memory data =
      if isInvalidLength n then throw .invalidArgument else pure (b.val, got, b'.val, n) := by
    rw [hksSignUnpack, hkey, pure_bind]
    dsimp only
    rw [mallocLast_laid h hlaid', ReplyM.refuse_bind]
  have hcipher : hksEncryptDecryptUnpack memory data = hksSignUnpack memory data := by
    rw [hksEncryptDecryptUnpack, hksSignUnpack, signVerifyMacUnpack]
    simp only [bind_assoc, pure_bind]
  exact ⟨got, hgot, hsign, hcipher.trans hsign, hsign⟩

theorem hksVerifyUnpack_laid {signature : Blob} (hb : b'.Aligns) (hsig : signature.Aligns)
    (hlaid : Laid (format addressOf padding) data (0 : UInt32).toNat
      [.blob b, .paramSet s, .blob b', .blob signature] j) :
    ∃ got, got.Contains s.contents ∧ hksVerifyUnpack memory data = pure (b.val, got, b'.val, signature.val) := by
  obtain ⟨got, offset, hgot, hlaid, hkey⟩ := signVerifyMacUnpack_laid memory h ha hbuilt hb hlaid
  obtain ⟨_, _, hsignature⟩ := getBlob_laid h hsig hlaid
  refine ⟨got, hgot, ?_⟩
  rw [hksVerifyUnpack, hkey, pure_bind]
  dsimp only
  rw [hsignature, pure_bind]

theorem hksAgreeKeyUnpack_laid (hb : b'.Aligns)
    (hlaid : Laid (format addressOf padding) data (0 : UInt32).toNat
      [.paramSet s, .blob b, .blob b', .uint32 n] j) :
    ∃ got, got.Contains s.contents ∧ hksAgreeKeyUnpack memory data =
      if isInvalidLength n then throw .invalidArgument else pure (got, b.val, b'.val, n) := by
  obtain ⟨got, _, hgot, hlaid, hparam⟩ := getParamSet_laid h memory hbuilt hlaid
  obtain ⟨_, hlaid, hprivate⟩ := getBlob_laid h ha hlaid
  obtain ⟨_, hlaid, hpublic⟩ := getBlob_laid h hb hlaid
  refine ⟨got, hgot, ?_⟩
  rw [hksAgreeKeyUnpack, hparam, pure_bind]
  dsimp only
  rw [hprivate, pure_bind]
  dsimp only
  rw [hpublic, pure_bind]
  dsimp only
  rw [mallocLast_laid h hlaid, ReplyM.refuse_bind]

theorem hksDeriveKeyUnpack_laid
    (hlaid : Laid (format addressOf padding) data (0 : UInt32).toNat [.paramSet s, .blob b, .uint32 n] j) :
    ∃ got, got.Contains s.contents ∧ hksDeriveKeyUnpack memory data =
      if isInvalidLength n then throw .invalidArgument else pure (got, b.val, n) := by
  obtain ⟨got, _, hgot, hlaid, hparam⟩ := getParamSet_laid h memory hbuilt hlaid
  obtain ⟨_, hlaid, hkey⟩ := getBlob_laid h ha hlaid
  refine ⟨got, hgot, ?_⟩
  rw [hksDeriveKeyUnpack, hparam, pure_bind]
  dsimp only
  rw [hkey, pure_bind]
  dsimp only
  rw [mallocLast_laid h hlaid, ReplyM.refuse_bind]

theorem hksCertificateChainUnpack_laid
    (hlaid : Laid (format addressOf padding) data (0 : UInt32).toNat [.blob b, .paramSet s, .uint32 n] j) :
    ∃ got, got.Contains s.contents ∧ hksCertificateChainUnpack memory data =
      if isInvalidLength n then throw .invalidArgument else pure (b.val, got, n) := by
  obtain ⟨got, _, hgot, hlaid, hkey⟩ := getKeyAndParamSet_laid h memory ha hbuilt hlaid
  refine ⟨got, hgot, ?_⟩
  rw [hksCertificateChainUnpack, hkey, pure_bind]
  dsimp only
  rw [mallocLast_laid h hlaid, ReplyM.refuse_bind]

end Keys

theorem hksListAliasesUnpack_laid (hbuilt : s.Built)
    (hlaid : Laid (format addressOf padding) data (0 : UInt32).toNat [.paramSet s] j) :
    ∃ got, got.Contains s.contents ∧ hksListAliasesUnpack memory data = pure got := by
  obtain ⟨got, _, hgot, _, hparam⟩ := getParamSet_laid h memory hbuilt hlaid
  refine ⟨got, hgot, ?_⟩
  rw [hksListAliasesUnpack, hparam, pure_bind]

end Unpack

-- The list of key infos of a message
section KeyInfoList

variable {addressOf : BlobData → UInt64} {padding : Nat → UInt32} (memory : UInt64 → BlobData) {data : Bytes}
  {offset : UInt32} {parts : List MessagePart} {j : Nat} (h : data.length < 2 ^ 32)

include h

theorem keyInfoListInit_laid {keyInfoList : List KeyInfoRoom}
    (hlaid : Laid (format addressOf padding) data offset.toNat (keyInfoList.flatMap KeyInfoRoom.parts ++ parts) j) :
    ((∀ room ∈ keyInfoList, ¬room.Refused) → ∃ offset',
      Laid (format addressOf padding) data offset'.toNat parts j ∧
        keyInfoListInit data keyInfoList.length offset = pure (.ok keyInfoList, offset')) ∧
    ((∃ room ∈ keyInfoList, room.Refused) → ∃ e offset',
      keyInfoListInit data keyInfoList.length offset = pure (.error e, offset')) := by
  induction keyInfoList generalizing offset
  case nil => exact ⟨fun _ => ⟨offset, hlaid, rfl⟩, nofun⟩
  case cons room keyInfoList ih =>
    obtain ⟨offset₁, hlaid, halias⟩ := mallocBlob_laid h hlaid
    obtain ⟨offset₂, hlaid, hparam⟩ := mallocParamSet_laid h hlaid
    have ih := ih hlaid
    rw [List.length_cons, keyInfoListInit, halias, pure_bind]
    by_cases ha : isInvalidLength room.aliasSize = true
    case pos =>
      refine ⟨fun hok => absurd (.inl ha) (hok room List.mem_cons_self), fun _ => ⟨.invalidArgument, offset₁, ?_⟩⟩
      rw [if_pos ha]
    case neg =>
      rw [if_neg ha]
      dsimp only
      rw [hparam, pure_bind]
      by_cases hp : isInvalidLength room.paramSetSize = true ∨ room.paramSetSize.toNat < HksParamSet.headerSize
      case pos =>
        refine ⟨fun hok => absurd (.inr hp) (hok room List.mem_cons_self), fun _ => ⟨.invalidArgument, offset₂, ?_⟩⟩
        rw [if_pos hp]
      case neg =>
        have hroom : ¬room.Refused := fun hr => hr.elim ha hp
        rw [if_neg hp]
        dsimp only
        constructor
        · intro hok
          obtain ⟨offset', hlaid, hrun⟩ := ih.1 fun r hr => hok r (List.mem_cons_of_mem _ hr)
          refine ⟨offset', hlaid, ?_⟩
          rw [hrun, pure_bind]
          rfl
        · rintro ⟨r, hr, hrefused⟩
          rcases List.mem_cons.mp hr with rfl | hr
          · exact absurd hrefused hroom
          · obtain ⟨e, offset', hrun⟩ := ih.2 ⟨r, hr, hrefused⟩
            refine ⟨e, offset', ?_⟩
            rw [hrun, pure_bind]
            rfl

-- A list with an element that the service does not make is not there for the service.
theorem hksGetKeyInfoListUnpack_laid {keyInfoList : List KeyInfoRoom} {s : HksParamSet} (hbuilt : s.Built)
    (hpos : 0 < keyInfoList.length) (hmax : keyInfoList.length ≤ hksGetKeyListMaxCount)
    (hlaid : Laid (format addressOf padding) data (0 : UInt32).toNat
      (.uint32 keyInfoList.length.toUInt32 :: (keyInfoList.flatMap KeyInfoRoom.parts ++ [.paramSet s])) j) :
    ((∀ room ∈ keyInfoList, ¬room.Refused) → ∃ got, got.Contains s.contents ∧
      hksGetKeyInfoListUnpack memory data = pure (some got, keyInfoList.length.toUInt32, some keyInfoList)) ∧
    ((∃ room ∈ keyInfoList, room.Refused) → ∀ unpacked, hksGetKeyInfoListUnpack memory data = pure unpacked →
      unpacked.2.2 = none) := by
  rw [hksGetKeyListMaxCount] at hmax
  have hcount : keyInfoList.length.toUInt32.toNat = keyInfoList.length := toUInt32_toNat (by omega)
  have hsize : (keyInfoList.length.toUInt32 * 24).toNat = keyInfoList.length * 24 := by
    rw [UInt32.toNat_mul, hcount]
    exact Nat.mod_eq_of_lt (by simp; omega)
  have hlist : ¬(keyInfoList.length.toUInt32 = 0 ∨ keyInfoList.length.toUInt32.toNat > hksGetKeyListMaxCount) := by
    rw [← UInt32.toNat_inj, hcount, hksGetKeyListMaxCount, not_or]
    exact ⟨Nat.ne_of_gt hpos, Nat.not_lt.mpr hmax⟩
  have hlength : isInvalidLength (keyInfoList.length.toUInt32 * 24) = false := by
    rw [isInvalidLength, decide_eq_false_iff_not, not_or, ← UInt32.toNat_inj, gt_iff_lt, UInt32.lt_iff_toNat_lt, hsize]
    have : maxOutBlobSize.toNat = 5 * 1024 * 1024 := rfl
    simp only [UInt32.toNat_zero]
    omega
  obtain ⟨offset, hlaid, hread⟩ := getUint32_laid h hlaid
  obtain ⟨hall, hany⟩ := keyInfoListInit_laid h hlaid
  have hrun : hksGetKeyInfoListUnpack memory data =
      keyInfoListInit data keyInfoList.length offset >>= fun p =>
        ServiceIpc.getLastParamSet memory data p.2 >>= fun paramSet =>
          pure (paramSet, keyInfoList.length.toUInt32, p.1.toOption) := by
    rw [hksGetKeyInfoListUnpack, hread, pure_bind]
    dsimp only
    rw [if_neg hlist, if_neg (Bool.eq_false_iff.mp hlength), if_neg (not_not_intro (mallocOk_of_length hlength)),
      hcount]
  constructor
  case left =>
    intro hok
    obtain ⟨offset', hlaid, hinit⟩ := hall hok
    obtain ⟨got, hgot, hparam⟩ := getLastParamSet_laid h memory hbuilt hlaid
    refine ⟨got, hgot, ?_⟩
    rw [hrun, hinit, pure_bind]
    dsimp only
    rw [hparam, pure_bind]
    rfl
  case right =>
    intro hrefused unpacked hunpack
    obtain ⟨e, offset', hinit⟩ := hany hrefused
    rw [hrun, hinit, pure_bind] at hunpack
    obtain ⟨paramSet, _, hunpacked⟩ := ReplyM.bind_eq_pure hunpack
    rw [← ReplyM.pure_inj hunpacked]
    rfl

end KeyInfoList

end Huks
