import Huks.Storage.Theorems.LiteTable

namespace Huks.StorageLite

open EStateM

section Append

variable {env : LiteEnv} {image file : Option Bytes} {tick : Nat} {head : HksStoreHeaderInfo}
  {records : List KeyRecord} {r : KeyRecord} {rest : Bytes}

-- A failure of the system or the engine after which the state is known.
def Fault (env : LiteEnv) (image file : Option Bytes) (e : Stop HksErrorCode) (s : LiteStore) : Prop :=
  (∃ code, e = .error code) ∧ ¬env.Quiet ∧ At image file s

-- The header once there is one record more
def withRecord (head : HksStoreHeaderInfo) (r : KeyRecord) : HksStoreHeaderInfo :=
  { head with totalLen := head.totalLen + r.bytes.length.toUInt32, keyCount := head.keyCount + 1 }

theorem length_pack_snoc : (pack (records ++ [r])).length = (pack records).length + r.bytes.length := by
  rw [pack_append, pack_cons, pack_nil, List.append_nil, List.length_append]

theorem toNat_totalLen_add (hcounts : Counts head records)
    (hfits : headerSize + (pack (records ++ [r])).length ≤ maxStorageSize.toNat) :
    (head.totalLen + r.bytes.length.toUInt32).toNat = headerSize + (pack (records ++ [r])).length := by
  have hmax : maxStorageSize.toNat = 5120 := rfl
  rw [length_pack_snoc] at hfits ⊢
  rw [UInt32.toNat_add, hcounts.totalLen, r.toNat_length]
  omega

theorem Counts.withRecord (hcounts : Counts head records)
    (hfits : headerSize + (pack (records ++ [r])).length ≤ maxStorageSize.toNat) :
    Counts (withRecord head r) (records ++ [r]) where
  keyCount := by
    have hmax : maxStorageSize.toNat = 5120 := rfl
    have hge : 40 * (records ++ [r]).length ≤ _ := length_pack_ge (records ++ [r])
    rw [List.length_append, List.length_singleton] at hge
    rw [StorageLite.withRecord, UInt16.toNat_add, hcounts.keyCount, List.length_append, List.length_singleton]
    show (records.length + 1) % _ = _
    omega
  totalLen := toNat_totalLen_add hcounts hfits

theorem getLenAfterAddKey_eq {totalLen : UInt32} (htotal : totalLen.toNat ≤ maxStorageSize.toNat) :
    getLenAfterAddKey r.bytes totalLen =
      if totalLen.toNat + r.bytes.length ≤ maxStorageSize.toNat then
        .ok (totalLen + r.bytes.length.toUInt32)
      else
        .error .storageFailure := by
  have hmax : maxStorageSize.toNat = 5120 := rfl
  have hle := r.length_le
  have hlen := r.toNat_length
  have hover : ¬isAdditionOverflow totalLen r.bytes.length.toUInt32 = true := by
    rw [isAdditionOverflow_iff]
    omega
  have hsum : totalLen + r.bytes.length.toUInt32 > maxStorageSize ↔
      ¬totalLen.toNat + r.bytes.length ≤ maxStorageSize.toNat := by
    rw [gt_iff_lt, UInt32.lt_iff_toNat_lt, UInt32.toNat_add, hlen]
    omega
  rw [getLenAfterAddKey, if_neg hover]
  by_cases h : totalLen.toNat + r.bytes.length ≤ maxStorageSize.toNat
  case pos => rw [if_neg (fun hgt => hsum.mp hgt h), if_pos h]
  case neg => rw [if_pos (hsum.mpr h), if_neg h]

theorem imageOf_snoc : imageOf head (records ++ [r]) rest =
    HksStoreHeaderInfo.codec.encode head ++ pack records ++ r.bytes ++ rest := by
  simp only [imageOf, pack_append, pack_cons, pack_nil, List.append_assoc, List.append_nil]

-- The images of a store are never longer than one that was just adjusted.
def maxImageSize : Nat := 2 * maxStorageSize.toNat

-- The whole image is put together anew, with room behind it.
theorem adjustImageBuffer_at (hcounts : Counts head records)
    (hfits : headerSize + (pack (records ++ [r])).length ≤ maxStorageSize.toNat)
    (hsmall : (imageOf head records rest).length < headerSize + (pack (records ++ [r])).length) :
    Triple (At (some (imageOf head records rest)) file)
      (adjustImageBuffer env (head.totalLen + r.bytes.length.toUInt32) r.bytes)
      (fun _ s => ∃ rest', (imageOf (withRecord head r) (records ++ [r]) rest').length ≤ maxImageSize ∧
        At (some (imageOf (withRecord head r) (records ++ [r]) rest')) file s)
      (Fault env (some (imageOf head records rest)) file) := by
  have hdouble : maxImageSize = 10240 := rfl
  have hmax : maxStorageSize.toNat = 5120 := rfl
  have himage := length_imageOf head records rest
  have htotal := hcounts.totalLen
  have hrecord := r.toNat_length
  have hle := r.keyInfoSize_le
  have hle' := r.length_le
  have hsnoc := @length_pack_snoc records r
  rw [adjustImageBuffer]
  refine bind_at (fun _ => hksGetImageBuffer_run) (bind_at (fun _ => getHeader_imageOf) ?_)
  obtain ⟨newBufLen, hdef⟩ : ∃ n, n = (imageOf head records rest).length.toUInt32 +
      if r.bytes.length.toUInt32 > bufSizeAddendPerTime then r.bytes.length.toUInt32 else bufSizeAddendPerTime :=
    ⟨_, rfl⟩
  have hnew : headerSize + (pack (records ++ [r])).length ≤ newBufLen.toNat ∧ newBufLen.toNat ≤ maxImageSize := by
    have hadd : bufSizeAddendPerTime.toNat = 1024 := rfl
    have hlength : (imageOf head records rest).length.toUInt32.toNat = (imageOf head records rest).length := by
      rw [Nat.toUInt32, UInt32.toNat_ofNat']
      omega
    rw [hdef, UInt32.toNat_add, hlength]
    split
    case isTrue h =>
      rw [hrecord]
      omega
    case isFalse h =>
      rw [gt_iff_lt, UInt32.lt_iff_toNat_lt, hrecord] at h
      omega
  have hcopy : copyOk newBufLen head.totalLen := by
    rw [copyOk_iff]
    omega
  have hspare : (newBufLen - head.totalLen).toNat = newBufLen.toNat - head.totalLen.toNat :=
    UInt32.toNat_sub_of_le _ _ (by rw [UInt32.le_iff_toNat_le]; omega)
  have hcopy' : copyOk (newBufLen - head.totalLen) r.bytes.length.toUInt32 := by
    rw [copyOk_iff]
    omega
  simp only
  rw [← hdef]
  refine hksMalloc_bind fun b hb => guard_refuse (fun hfail s hs => ⟨⟨_, rfl⟩, fun hquiet => hfail ?_, hs⟩) fun _ => ?_
  case refine_1 => exact hb (by rw [mallocOk_iff]; omega) hquiet
  refine guard_refuse (fun hfail => absurd hcopy hfail) fun _ => ?_
  have hold : slice (imageOf head records rest) 0 head.totalLen.toNat =
      HksStoreHeaderInfo.codec.encode head ++ pack records := by
    rw [slice, List.drop_zero, imageOf, ← List.append_assoc, htotal, ← length_front, List.take_left]
  have hbuf :
      splice (splice (List.replicate newBufLen.toNat 0) 0 (HksStoreHeaderInfo.codec.encode head ++ pack records))
        head.totalLen.toNat r.bytes = imageOf head (records ++ [r])
        (List.replicate (newBufLen.toNat - (headerSize + (pack (records ++ [r])).length)) 0) := by
    have hfront := @length_front head records
    have hlen : (HksStoreHeaderInfo.codec.encode head ++ pack records ++ r.bytes).length =
        headerSize + (pack (records ++ [r])).length := by
      rw [List.length_append, hfront]
      omega
    rw [htotal, ← hfront, ← Nat.zero_add (List.length _), splice_append (by rw [List.length_replicate]; omega),
      imageOf_snoc, splice, List.take_zero, List.nil_append, hlen, List.drop_replicate, Nat.zero_add]
  refine bind_at (fun _ => readImage_run (by omega)) ?_
  refine guard_refuse (fun hfail => absurd hcopy' hfail) fun _ => ?_
  rw [hold, hbuf]
  refine bind_at (fun _ => rfl) (bind_at (fun _ => getHeader_imageOf) ?_)
  refine triple_at (fun _ => setHeader_imageOf _) fun s hs => ⟨_, ?_, hs⟩
  rw [length_imageOf, List.length_replicate]
  omega

-- The record takes the place of spare bytes.
theorem splice_imageOf (hcounts : Counts head records) (hroom : r.bytes.length ≤ rest.length) :
    splice (imageOf head records rest) head.totalLen.toNat r.bytes =
      imageOf head (records ++ [r]) (rest.drop r.bytes.length) := by
  have himage : imageOf head records rest = HksStoreHeaderInfo.codec.encode head ++ pack records ++
      rest.take r.bytes.length ++ rest.drop r.bytes.length := by
    rw [List.append_assoc, List.take_append_drop, imageOf, List.append_assoc]
  have hlen : r.bytes.length = (rest.take r.bytes.length).length := by
    rw [List.length_take, Nat.min_eq_left hroom]
  rw [hcounts.totalLen, ← @length_front head, himage, splice_middle hlen, imageOf_snoc]

theorem appendNewKey_at (hcounts : Counts head records)
    (hfits : headerSize + (pack (records ++ [r])).length ≤ maxStorageSize.toNat)
    (himage : (imageOf head records rest).length ≤ maxImageSize) :
    Triple (At (some (imageOf head records rest)) file) (appendNewKey env r.bytes)
      (fun _ s => ∃ rest', (imageOf (withRecord head r) (records ++ [r]) rest').length ≤ maxImageSize ∧
        At (some (imageOf (withRecord head r) (records ++ [r]) rest')) file s)
      (Fault env (some (imageOf head records rest)) file) := by
  have hmax : maxStorageSize.toNat = 5120 := rfl
  have hdouble : maxImageSize = 10240 := rfl
  have hlen := length_imageOf head records rest
  have htotal := hcounts.totalLen
  have hrecord := r.toNat_length
  have hle := r.keyInfoSize_le
  have hsnoc := @length_pack_snoc records r
  have hadded := toNat_totalLen_add hcounts hfits
  have hsize : (imageOf head records rest).length.toUInt32.toNat = (imageOf head records rest).length := by
    rw [Nat.toUInt32, UInt32.toNat_ofNat']
    omega
  have hafter : getLenAfterAddKey r.bytes head.totalLen = .ok (head.totalLen + r.bytes.length.toUInt32) := by
    rw [getLenAfterAddKey_eq (by omega), if_pos (by omega)]
  rw [appendNewKey]
  refine bind_at (fun _ => hksGetImageBuffer_run) (guard_refuse (fun hsmall => ?_) fun _ => ?_)
  case refine_1 => omega
  refine bind_at (fun _ => getHeader_imageOf) ?_
  rw [hafter]
  refine .ite (fun hroom => ?_) fun hroom => ?_
  case refine_2.refine_1 =>
    rw [ge_iff_le, UInt32.le_iff_toNat_le, hsize, hadded] at hroom
    have hcopy : copyOk ((imageOf head records rest).length.toUInt32 - head.totalLen) r.bytes.length.toUInt32 := by
      rw [copyOk_iff, UInt32.toNat_sub_of_le _ _ (by rw [UInt32.le_iff_toNat_le]; omega)]
      omega
    refine guard_refuse (fun hfail => absurd hcopy hfail) fun _ => ?_
    refine bind_at (fun _ => writeImage_run (by omega)) ?_
    rw [splice_imageOf hcounts (by omega)]
    refine bind_at (fun _ => getHeader_imageOf) ?_
    refine triple_at (fun _ => setHeader_imageOf _) fun s hs => ⟨_, ?_, hs⟩
    rw [length_imageOf, List.length_drop]
    omega
  case refine_2.refine_2 =>
    rw [ge_iff_le, UInt32.le_iff_toNat_le, hsize, hadded] at hroom
    exact adjustImageBuffer_at hcounts hfits (Nat.lt_of_not_le hroom)

end Append

variable {env : LiteEnv} {image file : Option Bytes} {head : HksStoreHeaderInfo} {records base : List KeyRecord}
  {r : KeyRecord} {rest : Bytes}

section Seal

-- The header with the HMAC that is right for it
def withMac (env : LiteEnv) (head : HksStoreHeaderInfo) : HksStoreHeaderInfo :=
  { head with hmac := env.mac head.salt ((HksStoreHeaderInfo.codec.encode head).take macSize) }

-- What the HMAC is for
def macInput (head : HksStoreHeaderInfo) : Bytes :=
  FixedCodec.u16.encode head.version ++ FixedCodec.u16.encode head.keyCount ++ FixedCodec.u32.encode head.totalLen ++
    FixedCodec.u32.encode head.sealingAlg ++ head.salt.val

theorem take_macSize_encode (head : HksStoreHeaderInfo) :
    (HksStoreHeaderInfo.codec.encode head).take macSize = macInput head := by
  have hlen : (macInput head).length = macSize := by
    simp only [macInput, List.length_append, FixedCodec.length_encode, head.salt.property]
    rfl
  have hencode : HksStoreHeaderInfo.codec.encode head = macInput head ++ head.hmac.val := by
    simp only [macInput, List.append_assoc]
    rfl
  rw [hencode, List.take_left' hlen]

theorem sealed_withMac (env : LiteEnv) (head : HksStoreHeaderInfo) : Sealed env (withMac env head) := by
  rw [Sealed, take_macSize_encode, withMac, take_macSize_encode]
  rfl

theorem Counts.withMac (h : Counts head records) : Counts (withMac env head) records := ⟨h.keyCount, h.totalLen⟩

theorem calcHeaderMac_at {salt : FixedBytes hksDeriveDefaultSaltLen} {buf : Bytes} (hne : buf ≠ [])
    (hmalloc : mallocOk buf.length) : Triple (At image file) (calcHeaderMac env salt buf)
      (fun mac s => mac = env.mac salt buf ∧ At image file s) (Fault env image file) := by
  rw [calcHeaderMac]
  refine guard_refuse (fun h => absurd h hne) fun _ => ?_
  refine hksMalloc_bind fun b hb => guard_refuse (fun hfail s hs => ⟨⟨_, rfl⟩, fun hq => hfail ?_, hs⟩) fun _ => ?_
  case refine_1 => exact hb hmalloc hq
  refine nextCall_bind fun tick => ?_
  cases hcall : env.calcHeaderMac tick
  case some e =>
    have hfault (hquiet : env.Quiet) : False := by
      rw [hquiet.calcHeaderMac] at hcall
      cases hcall
    exact .throw fun s hs => ⟨⟨e, rfl⟩, hfault, hs⟩
  case none => exact .pure fun s hs => ⟨rfl, hs⟩

theorem length_macSize (bytes : Bytes) (h : headerSize ≤ bytes.length) : (bytes.take macSize).length = macSize := by
  have : macSize ≤ headerSize := by decide
  rw [List.length_take]
  omega

theorem refreshKeyInfoHeaderHmac_at : Triple (At image file) (refreshKeyInfoHeaderHmac env head)
    (fun newHead s => newHead = withMac env head ∧ At image file s) (Fault env image file) := by
  have hlen := length_macSize (HksStoreHeaderInfo.codec.encode head) (by rw [length_encode_header])
  rw [refreshKeyInfoHeaderHmac]
  refine hksMalloc_bind fun b hb => guard_refuse (fun hfail s hs => ⟨⟨_, rfl⟩, fun hq => hfail ?_, hs⟩) fun _ => ?_
  case refine_1 => exact hb (by decide) hq
  refine .bind (calcHeaderMac_at ?_ ?_) fun mac => .of_pure fun hmac => .pure fun s hs => ⟨?_, hs⟩
  case refine_2.refine_1 => exact List.ne_nil_of_length_pos (by rw [hlen]; decide)
  case refine_2.refine_2 =>
    rw [hlen]
    decide
  case refine_2.refine_3 => rw [hmac, withMac]

end Seal

section StoreKey

variable {needDeleteKey : Bool} {offset : UInt32}

-- Where a key is, and what is left without it: the two ways into `StoreKeyBlob`.
inductive Place : List KeyRecord → Bool → UInt32 → List KeyRecord → Prop
  | absent (records : List KeyRecord) : Place records false 0 records
  | found (pre : List KeyRecord) (old : KeyRecord) (post : List KeyRecord) {offset : UInt32}
      (hoffset : offset.toNat = headerSize + (pack pre).length) :
      Place (pre ++ old :: post) true offset (pre ++ post)

theorem Place.offset_eq (h : Place records needDeleteKey offset base) (hneed : needDeleteKey = false) :
    offset = 0 := by
  cases h
  case absent => rfl
  case found => cases hneed

-- The image holds the records and has a header for them.
structure Holds (records : List KeyRecord) (head : HksStoreHeaderInfo) (rest : Bytes) (file : Option Bytes)
    (s : LiteStore) : Prop where
  counts : Counts head records
  length : (imageOf head records rest).length ≤ maxImageSize
  state  : At (some (imageOf head records rest)) file s

theorem Place.length_le (h : Place records needDeleteKey offset base) :
    (pack base).length ≤ (pack records).length := by
  cases h
  case absent => exact Nat.le_refl _
  case found pre old post hoffset =>
    rw [length_pack_split, pack_append, List.length_append]
    omega

theorem getLenBeforeAddKey_run (hcounts : Counts head records) (h : Place records needDeleteKey offset base) :
    ∃ totalLen : UInt32, totalLen.toNat = headerSize + (pack base).length ∧ ∀ tick,
      (getLenBeforeAddKey needDeleteKey offset head).run ⟨some (imageOf head records rest), file, tick⟩ =
        .ok totalLen ⟨some (imageOf head records rest), file, tick⟩ := by
  cases h
  case absent => exact ⟨head.totalLen, hcounts.totalLen, fun _ => rfl⟩
  case found pre old post hoffset =>
    refine ⟨_, toNat_totalLen_sub hcounts, fun tick => ?_⟩
    rw [getLenBeforeAddKey, if_pos rfl, run_bind_of_ok (keyInfoAt_record hoffset)]
    rfl

theorem Place.fits_of (hplace : Place records needDeleteKey offset base) (hcounts : Counts head records)
    (himage : head.totalLen.toNat ≤ maxStorageSize.toNat) :
    headerSize + (pack base).length ≤ maxStorageSize.toNat := by
  have := hplace.length_le
  have := hcounts.totalLen
  omega

-- What does not fit is refused before anything is changed.
theorem storeKeyBlob_full (hcounts : Counts head records) (hsize : head.totalLen.toNat ≤ maxStorageSize.toNat)
    (hplace : Place records needDeleteKey offset base)
    (hfull : ¬headerSize + (pack (base ++ [r])).length ≤ maxStorageSize.toNat) :
    Triple (At (some (imageOf head records rest)) file) (storeKeyBlob env needDeleteKey offset r.bytes)
      (fun _ _ => False)
      (fun e s => e = .error .storageFailure ∧ At (some (imageOf head records rest)) file s) := by
  obtain ⟨totalLen, htotal, hrun⟩ := getLenBeforeAddKey_run hcounts hplace
  have hbase := hplace.fits_of hcounts hsize
  have hafter : getLenAfterAddKey r.bytes totalLen = .error .storageFailure := by
    rw [length_pack_snoc] at hfull
    rw [getLenAfterAddKey_eq (htotal ▸ hbase), if_neg (by omega)]
  rw [storeKeyBlob]
  refine bind_at (fun _ => getHeader_imageOf) (bind_at hrun ?_)
  rw [hafter]
  exact .throw fun s hs => ⟨rfl, hs⟩

-- The header that `StoreKeyBlob` prepares is one for the records it stores.
theorem Place.counts (hplace : Place records needDeleteKey offset base) (hcounts : Counts head records)
    {totalLen : UInt32} (htotal : totalLen.toNat = headerSize + (pack (base ++ [r])).length)
    (hfits : headerSize + (pack (base ++ [r])).length ≤ maxStorageSize.toNat) :
    Counts { head with keyCount := if needDeleteKey then head.keyCount else head.keyCount + 1, totalLen }
      (base ++ [r]) := by
  refine ⟨?_, htotal⟩
  cases hplace
  case absent => exact (hcounts.withRecord hfits).keyCount
  case found pre old post hoffset =>
    rw [if_pos rfl, hcounts.keyCount]
    simp only [List.length_append, List.length_cons, List.length_nil]
    omega

-- Deleting the old record leaves the rest.
theorem Place.delete {β : Type} {f : PUnit → LiteM β} {R : β → LiteStore → Prop}
    {E : Stop HksErrorCode → LiteStore → Prop} (hplace : Place records needDeleteKey offset base)
    (hcounts : Counts head records) (hsize : head.totalLen.toNat ≤ maxStorageSize.toNat)
    (himage : (imageOf head records rest).length ≤ maxImageSize)
    (hf : ∀ head' rest', Counts head' base → (imageOf head' base rest').length ≤ maxImageSize →
      Triple (At (some (imageOf head' base rest')) file) (f ⟨⟩) R E) :
    Triple (At (some (imageOf head records rest)) file)
      (if needDeleteKey then deleteKey offset >>= f else f ⟨⟩) R E := by
  cases hplace
  case absent => exact hf head rest hcounts himage
  case found pre old post hoffset =>
    have hmax : maxStorageSize.toNat = 5120 := rfl
    rw [if_pos rfl]
    refine bind_at (fun _ => deleteKey_run hcounts (by omega) hoffset) (hf _ _ hcounts.without ?_)
    rw [length_imageOf, length_pack_split] at himage
    rw [length_imageOf, pack_append, List.length_append, List.length_append, List.length_replicate]
    omega

theorem storeKeyBlob_at (hcounts : Counts head records) (hsize : head.totalLen.toNat ≤ maxStorageSize.toNat)
    (himage : (imageOf head records rest).length ≤ maxImageSize) (hplace : Place records needDeleteKey offset base)
    (hfits : headerSize + (pack (base ++ [r])).length ≤ maxStorageSize.toNat) :
    Triple (At (some (imageOf head records rest)) file) (storeKeyBlob env needDeleteKey offset r.bytes)
      (fun _ s => ∃ head' rest', Sealed env head' ∧ Holds (base ++ [r]) head' rest' file s)
      (fun e s => (∃ code, e = .error code) ∧ ¬env.Quiet ∧
        (At (some (imageOf head records rest)) file s ∨ ∃ head' rest', Holds base head' rest' file s)) := by
  obtain ⟨totalLen, htotal, hrun⟩ := getLenBeforeAddKey_run hcounts hplace
  have hbase := hplace.fits_of hcounts hsize
  have hafter : getLenAfterAddKey r.bytes totalLen = .ok (totalLen + r.bytes.length.toUInt32) := by
    rw [length_pack_snoc] at hfits
    rw [getLenAfterAddKey_eq (htotal ▸ hbase), if_pos (by omega)]
  have hadded : (totalLen + r.bytes.length.toUInt32).toNat = headerSize + (pack (base ++ [r])).length := by
    have hmax : maxStorageSize.toNat = 5120 := rfl
    have hrecord := r.toNat_length
    rw [length_pack_snoc] at hfits ⊢
    rw [UInt32.toNat_add, htotal]
    omega
  rw [storeKeyBlob]
  refine bind_at (fun _ => getHeader_imageOf) (bind_at hrun ?_)
  rw [hafter]
  refine bind_at (fun _ => rfl) (.bind (refreshKeyInfoHeaderHmac_at.weaken_error ?_) fun newHead => ?_)
  case refine_1 =>
    rintro e s ⟨hcode, hnot, hs⟩
    exact ⟨hcode, hnot, .inl hs⟩
  refine .of_pure fun hnewHead => ?_
  refine hplace.delete hcounts hsize himage fun head' rest' hcounts' himage' => ?_
  refine .bind ((appendNewKey_at hcounts' hfits himage').weaken_error ?_) fun _ => ?_
  case refine_2.refine_1 =>
    rintro e s ⟨hcode, hnot, hs⟩
    exact ⟨hcode, hnot, .inr ⟨head', rest', hcounts', himage', hs⟩⟩
  refine .of_exists fun rest'' => .of_pure fun himage'' => ?_
  refine triple_at (fun _ => setHeader_imageOf newHead) fun s hs => ⟨newHead, rest'', ?_, ?_, ?_, hs⟩
  case refine_2.refine_2.refine_1 =>
    rw [hnewHead]
    exact sealed_withMac env _
  case refine_2.refine_2.refine_2 =>
    rw [hnewHead]
    exact (hplace.counts hcounts hadded hfits).withMac
  case refine_2.refine_2.refine_3 =>
    rw [length_imageOf] at himage'' ⊢
    exact himage''

end StoreKey

end Huks.StorageLite
