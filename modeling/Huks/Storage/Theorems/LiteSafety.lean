import Huks.Storage.Theorems.LiteAnswers

-- The HMAC in the file is for the header only. Whoever writes the file can put anything behind it.
namespace Huks.StorageLite

open EStateM

-- The sizes that `FreshImageBuffer` and the store itself see to; the bytes behind the header are any.
structure Bounded (head : HksStoreHeaderInfo) (rest : Bytes) : Prop where
  low    : headerSize ≤ head.totalLen.toNat
  inside : head.totalLen.toNat ≤ headerSize + rest.length
  small  : head.totalLen.toNat ≤ maxStorageSize.toNat
  length : headerSize + rest.length ≤ maxImageSize

def rawImage (head : HksStoreHeaderInfo) (rest : Bytes) : Bytes := imageOf head [] rest

def Sound (s : LiteStore) : Prop :=
  s.image = none ∨ ∃ head rest, Bounded head rest ∧ s.image = some (rawImage head rest)

-- A refusal, as opposed to an access outside of the image
def Refusal (P : LiteStore → Prop) (e : Stop HksErrorCode) (s : LiteStore) : Prop := (∃ code, e = .error code) ∧ P s

variable {env : LiteEnv} {image : Bytes} {file : Option Bytes} {head : HksStoreHeaderInfo} {rest keyAlias : Bytes}
  {offset totalLen : UInt32}

theorem length_rawImage : (rawImage head rest).length = headerSize + rest.length := by
  rw [rawImage, length_imageOf, pack_nil, List.length_nil, Nat.add_zero]

theorem getHeader_raw (tick : Nat) : getHeader.run ⟨some (rawImage head rest), file, tick⟩ =
    .ok head ⟨some (rawImage head rest), file, tick⟩ := getHeader_imageOf

theorem setHeader_raw (head' : HksStoreHeaderInfo) (tick : Nat) :
    (setHeader head').run ⟨some (rawImage head rest), file, tick⟩ =
      .ok ⟨⟩ ⟨some (rawImage head' rest), file, tick⟩ := setHeader_imageOf head'

section Search

-- The key information at an offset, whatever it is
def infoAt (image : Bytes) (offset : UInt32) : HksStoreKeyInfo :=
  HksStoreKeyInfo.codec.decode (slice image offset.toNat keyInfoSize)

-- A key that the search returns lies behind the header and in front of the end.
structure Found (image : Bytes) (totalLen offset : UInt32) : Prop where
  low    : headerSize ≤ offset.toNat
  valid  : hksIsKeyInfoLenInvalid (infoAt image offset) = false
  inside : offset.toNat + (infoAt image offset).keyInfoLen.toNat ≤ totalLen.toNat

theorem keyInfoAt_raw (h : offset.toNat + keyInfoSize ≤ image.length) (tick : Nat) :
    (keyInfoAt offset).run ⟨some image, file, tick⟩ = .ok (infoAt image offset) ⟨some image, file, tick⟩ := by
  rw [keyInfoAt, run_bind_of_ok (readImage_run h)]
  rfl

theorem Found.size (h : Found image totalLen offset) :
    keyInfoSize + (infoAt image offset).aliasSize.toNat ≤ (infoAt image offset).keyInfoLen.toNat := by
  obtain ⟨_, _, _, hlen⟩ := hksIsKeyInfoLenInvalid_eq_false.mp h.valid
  omega

-- The alias is compared where it is.
theorem isKeyAliasAt_raw {E : Stop HksErrorCode → LiteStore → Prop} {info : HksStoreKeyInfo}
    (h : offset.toNat + keyInfoSize + info.aliasSize.toNat ≤ image.length) :
    Triple (At (some image) file) (isKeyAliasAt offset info keyAlias) (fun _ => At (some image) file) E := by
  rw [isKeyAliasAt]
  refine .ite (fun hsize => ?_) fun _ => .pure fun _ hs => hs
  exact bind_at (fun _ => readImage_run (hsize ▸ h)) (.pure fun _ hs => hs)

theorem findKeyAlias_raw (hinside : totalLen.toNat ≤ image.length) (i : Nat) (hlow : headerSize ≤ offset.toNat) :
    Triple (At (some image) file) (findKeyAlias keyAlias totalLen i offset)
      (fun offset s => Found image totalLen offset ∧ At (some image) file s)
      (Refusal (At (some image) file)) := by
  induction i generalizing offset
  case zero => exact .throw fun s hs => ⟨⟨_, rfl⟩, hs⟩
  case succ i ih =>
    rw [findKeyAlias]
    refine guard_refuse (fun _ s hs => ⟨⟨_, rfl⟩, hs⟩) fun hroom => ?_
    rw [not_or, UInt32.lt_iff_toNat_lt] at hroom
    have hsub : (totalLen - offset).toNat = totalLen.toNat - offset.toNat :=
      UInt32.toNat_sub_of_le _ _ (by rw [UInt32.le_iff_toNat_le]; omega)
    refine bind_at (keyInfoAt_raw (by omega)) ?_
    obtain ⟨info, hinfo⟩ : ∃ info, info = infoAt image offset := ⟨_, rfl⟩
    rw [← hinfo]
    refine guard_refuse (fun _ s hs => ⟨⟨_, rfl⟩, hs⟩) fun hvalid => ?_
    rw [not_or, Bool.not_eq_true, gt_iff_lt, UInt32.lt_iff_toNat_lt, hsub, UInt16.toNat_toUInt32] at hvalid
    have hfound : Found image totalLen offset := ⟨hlow, hinfo ▸ hvalid.1, by rw [← hinfo]; omega⟩
    have hsize := hfound.size
    have hinside := hfound.inside
    rw [← hinfo] at hsize hinside
    have hnext : (offset + info.keyInfoLen.toUInt32).toNat = offset.toNat + info.keyInfoLen.toNat := by
      have := totalLen.toNat_lt
      rw [UInt32.toNat_add, UInt16.toNat_toUInt32]
      omega
    refine .bind (isKeyAliasAt_raw (by omega)) fun found => ?_
    exact .ite (fun _ => .pure fun s hs => ⟨hfound, hs⟩) fun _ => ih (by omega)

theorem getKeyOffsetByKeyAlias_raw : Triple (At (some (rawImage head rest)) file) (getKeyOffsetByKeyAlias keyAlias)
    (fun offset s => Found (rawImage head rest) head.totalLen offset ∧ At (some (rawImage head rest)) file s)
    (Refusal (At (some (rawImage head rest)) file)) := by
  rw [getKeyOffsetByKeyAlias]
  refine bind_at (fun _ => hksGetImageBuffer_run) (guard_refuse (fun _ s hs => ⟨⟨_, rfl⟩, hs⟩) fun _ => ?_)
  refine bind_at getHeader_raw (guard_refuse (fun _ s hs => ⟨⟨_, rfl⟩, hs⟩) fun _ => ?_)
  refine guard_refuse (fun _ s hs => ⟨⟨_, rfl⟩, hs⟩) fun hinside => ?_
  exact findKeyAlias_raw (Nat.le_of_not_lt hinside) _ (Nat.le_refl _)

end Search

section Ask

-- The key that was found is read.
theorem keyInfoAt_found {α : Type} {f : HksStoreKeyInfo → LiteM α} {Q : α → LiteStore → Prop}
    {E : Stop HksErrorCode → LiteStore → Prop} (h : Found image totalLen offset)
    (hinside : totalLen.toNat ≤ image.length)
    (hf : ∀ info, offset.toNat + info.keyInfoLen.toNat ≤ totalLen.toNat → Triple (At (some image) file) (f info) Q E) :
    Triple (At (some image) file) (keyInfoAt offset >>= f) Q E := by
  have hsize := h.size
  have hend := h.inside
  exact bind_at (keyInfoAt_raw (by omega)) (hf _ hend)

theorem Bounded.le_length (h : Bounded head rest) : head.totalLen.toNat ≤ (rawImage head rest).length :=
  length_rawImage ▸ h.inside

theorem answer_raw {question : Question} (h : Bounded head rest) :
    Triple (At (some (rawImage head rest)) file) (answer env question)
      (fun _ => At (some (rawImage head rest)) file) (Refusal (At (some (rawImage head rest)) file)) := by
  have hinside := h.le_length
  cases question
  case blob k =>
    rw [answer, hksStoreGetKeyBlob]
    refine .bind (.bind getKeyOffsetByKeyAlias_raw fun offset => ?_) fun _ => .pure fun _ hs => hs
    refine .of_pure fun hfound => ?_
    refine keyInfoAt_found hfound hinside fun info hend => hksMalloc_bind fun b _ => ?_
    refine guard_refuse (fun _ s hs => ⟨⟨_, rfl⟩, hs⟩) fun _ => ?_
    exact triple_at (fun _ => readImage_run (by omega)) fun _ hs => hs
  case exist k =>
    rw [answer, hksStoreIsKeyBlobExist]
    refine .bind (.bind getKeyOffsetByKeyAlias_raw fun offset => ?_) fun _ => .pure fun _ hs => hs
    refine .of_pure fun hfound => ?_
    exact .pure fun _ hs => hs
  case blobSize k =>
    rw [answer, hksStoreGetKeyBlobSize]
    refine .bind (.bind getKeyOffsetByKeyAlias_raw fun offset => ?_) fun _ => .pure fun _ hs => hs
    refine .of_pure fun hfound => ?_
    exact keyInfoAt_found hfound hinside fun info _ => .pure fun _ hs => hs
  case count =>
    rw [answer, hksGetKeyCountByProcessName]
    refine .bind (bind_at (fun _ => hksGetImageBuffer_run) ?_) fun _ => .pure fun _ hs => hs
    refine guard_refuse (fun _ s hs => ⟨⟨_, rfl⟩, hs⟩) fun _ => ?_
    exact bind_at getHeader_raw (.pure fun _ hs => hs)
  case totalSize =>
    rw [answer, hksStoreGetToatalSize]
    refine .bind (bind_at (fun _ => hksGetImageBuffer_run) ?_) fun _ => .pure fun _ hs => hs
    refine guard_refuse (fun _ s hs => ⟨⟨_, rfl⟩, hs⟩) fun _ => ?_
    exact bind_at getHeader_raw (.pure fun _ hs => hs)

end Ask

section Change

-- A write behind the header leaves the header.
theorem writeImage_behind {α : Type} {f : PUnit → LiteM α} {Q : α → LiteStore → Prop}
    {E : Stop HksErrorCode → LiteStore → Prop} {i : Nat} {bytes : Bytes} (hlow : headerSize ≤ i)
    (hinside : i + bytes.length ≤ headerSize + rest.length)
    (hf : ∀ rest', rest'.length = rest.length → Triple (At (some (rawImage head rest')) file) (f ⟨⟩) Q E) :
    Triple (At (some (rawImage head rest)) file) (writeImage i bytes >>= f) Q E := by
  have hlen := @length_rawImage head rest
  refine bind_at (fun _ => writeImage_run (by omega)) ?_
  have hsplice : splice (rawImage head rest) i bytes = rawImage head (splice rest (i - headerSize) bytes) := by
    have hheader := length_encode_header head
    rw [rawImage, rawImage, imageOf, pack_nil, List.nil_append, splice_append_right (by omega), hheader, imageOf,
      pack_nil, List.nil_append]
  rw [hsplice]
  exact hf _ (length_splice (by omega))

-- The image is sound, and the file is as it was.
def SoundAt (file : Option Bytes) (s : LiteStore) : Prop :=
  ∃ head rest, Bounded head rest ∧ At (some (rawImage head rest)) file s

theorem Bounded.of_totalLen {head' : HksStoreHeaderInfo} {rest' : Bytes} (h : Bounded head rest)
    (hlow : headerSize ≤ head'.totalLen.toNat) (hle : head'.totalLen.toNat ≤ head.totalLen.toNat)
    (hlen : rest'.length = rest.length) : Bounded head' rest' := by
  obtain ⟨_, hinside, hsmall, hlength⟩ := h
  exact ⟨hlow, by omega, by omega, by omega⟩

theorem deleteKey_raw (h : Bounded head rest) (hfound : Found (rawImage head rest) head.totalLen offset) :
    Triple (At (some (rawImage head rest)) file) (deleteKey offset)
      (fun _ s => ∃ head' rest', (Bounded head' rest' ∧ head'.totalLen =
        head.totalLen - (infoAt (rawImage head rest) offset).keyInfoLen.toUInt32) ∧
        At (some (rawImage head' rest')) file s)
      (Refusal (SoundAt file)) := by
  have hsize := hfound.size
  have hlow := hfound.low
  have hend := hfound.inside
  have hinside := h.inside
  have hsmall := h.small
  have hlen := @length_rawImage head rest
  rw [deleteKey]
  refine bind_at getHeader_raw (bind_at (keyInfoAt_raw (by omega)) ?_)
  obtain ⟨info, hinfo⟩ : ∃ info, info = infoAt (rawImage head rest) offset := ⟨_, rfl⟩
  rw [← hinfo] at hsize hend ⊢
  have hkeyInfoLen : info.keyInfoLen.toUInt32.toNat = info.keyInfoLen.toNat := UInt16.toNat_toUInt32 _
  have hnext : (offset + info.keyInfoLen.toUInt32).toNat = offset.toNat + info.keyInfoLen.toNat := by
    have := head.totalLen.toNat_lt
    rw [UInt32.toNat_add, hkeyInfoLen]
    omega
  have hshort : (head.totalLen - info.keyInfoLen.toUInt32).toNat = head.totalLen.toNat - info.keyInfoLen.toNat := by
    rw [UInt32.toNat_sub_of_le _ _ (by rw [UInt32.le_iff_toNat_le]; omega), hkeyInfoLen]
  -- The header is written last, whether or not there is a key behind the deleted one.
  have hfinish (rest' : Bytes) (hrest' : rest'.length = rest.length) :
      Triple (At (some (rawImage head rest')) file)
        (do
          let head ← getHeader
          setHeader { head with
            keyCount := head.keyCount - 1
            totalLen := head.totalLen - info.keyInfoLen.toUInt32 })
        (fun _ s => ∃ head' rest', (Bounded head' rest' ∧ head'.totalLen = head.totalLen - info.keyInfoLen.toUInt32) ∧
          At (some (rawImage head' rest')) file s) (Refusal (SoundAt file)) := by
    refine bind_at getHeader_raw (triple_at (setHeader_raw _) fun s hs => ⟨_, rest', ⟨?_, rfl⟩, hs⟩)
    exact h.of_totalLen (by simp only; omega) (by simp only; omega) hrest'
  refine guard_refuse (fun _ s hs => ⟨⟨_, rfl⟩, head, rest, h, hs⟩) fun _ => ?_
  refine writeImage_behind hlow (by rw [List.length_replicate]; omega) fun rest₁ hrest₁ => ?_
  refine .ite (fun hbehind => ?_) fun _ => hfinish rest₁ hrest₁
  rw [UInt32.lt_iff_toNat_lt, hnext] at hbehind
  have hmoved : (head.totalLen - (offset + info.keyInfoLen.toUInt32)).toNat =
      head.totalLen.toNat - (offset.toNat + info.keyInfoLen.toNat) := by
    rw [UInt32.toNat_sub_of_le _ _ (by rw [UInt32.le_iff_toNat_le]; omega), hnext]
  have h₁ : Bounded head rest₁ := h.of_totalLen h.low (Nat.le_refl _) hrest₁
  have hlen₁ := @length_rawImage head rest₁
  refine guard_refuse (fun _ s hs => ⟨⟨_, rfl⟩, head, rest₁, h₁, hs⟩) fun _ => ?_
  refine bind_at (fun _ => readImage_run (by omega)) ?_
  refine writeImage_behind hlow (by rw [length_slice (by omega)]; omega) fun rest₂ hrest₂ => ?_
  refine writeImage_behind ?_ (by rw [List.length_replicate]; omega) fun rest₃ hrest₃ => hfinish rest₃ ?_
  case refine_1 => omega
  case refine_2 => omega

theorem getLenAfterAddKey_ok {keyBlob : Bytes} {added : UInt32} (hblob : keyBlob.length < 2 ^ 32)
    (h : getLenAfterAddKey keyBlob totalLen = .ok added) :
    added = totalLen + keyBlob.length.toUInt32 ∧ added.toNat = totalLen.toNat + keyBlob.length ∧
      added.toNat ≤ maxStorageSize.toNat := by
  have hlen : keyBlob.length.toUInt32.toNat = keyBlob.length := by
    rw [Nat.toUInt32, UInt32.toNat_ofNat']
    exact Nat.mod_eq_of_lt hblob
  rw [getLenAfterAddKey] at h
  split at h
  case isTrue => cases h
  case isFalse hover =>
    rw [isAdditionOverflow_iff, hlen] at hover
    split at h
    case isTrue => cases h
    case isFalse hmax =>
      obtain rfl := Except.ok.inj h
      refine ⟨rfl, ?_, ?_⟩
      case refine_1 =>
        rw [UInt32.toNat_add, hlen]
        omega
      case refine_2 =>
        rw [gt_iff_lt, UInt32.lt_iff_toNat_lt] at hmax
        exact Nat.le_of_not_lt hmax

-- A check of sizes that refuses does so with an error.
theorem checked_bind {α β : Type} {y : Except HksErrorCode α} {f : α → LiteM β} {P : LiteStore → Prop}
    {Q : β → LiteStore → Prop} {S : LiteStore → Prop} (hP : ∀ s, P s → S s)
    (hf : ∀ a, y = .ok a → Triple P (f a) Q (Refusal S)) :
    Triple P (MonadExcept.ofExcept (checked y) >>= f) Q (Refusal S) := by
  cases y
  case error code => exact .throw fun s hs => ⟨⟨code, rfl⟩, hP s hs⟩
  case ok a => exact hf a rfl

-- What `AppendNewKey` leaves when it does not refuse
def Appended (head : HksStoreHeaderInfo) (keyBlob : Bytes) (file : Option Bytes) (s : LiteStore) : Prop :=
  ∃ head' rest', (Bounded head' rest' ∧ head'.totalLen = head.totalLen + keyBlob.length.toUInt32) ∧
    At (some (rawImage head' rest')) file s

theorem eq_rawImage {bytes : Bytes} (h : bytes.take headerSize = HksStoreHeaderInfo.codec.encode head) :
    bytes = rawImage head (bytes.drop headerSize) := by
  rw [rawImage, imageOf, pack_nil, List.nil_append, ← h, List.take_append_drop]

theorem take_rawImage : (rawImage head rest).take headerSize = HksStoreHeaderInfo.codec.encode head :=
  List.take_left' (length_encode_header head)

-- What is put together anew starts with the header of the old image.
theorem exists_adjusted {n : Nat} {keyBlob : Bytes} (h : Bounded head rest)
    (hn : head.totalLen.toNat + keyBlob.length ≤ n) :
    ∃ rest', headerSize + rest'.length = n ∧
      splice (splice (.replicate n 0) 0 (slice (rawImage head rest) 0 head.totalLen.toNat))
          head.totalLen.toNat keyBlob = rawImage head rest' := by
  have hlen := @length_rawImage head rest
  have hlow := h.low
  have hinside := h.inside
  obtain ⟨old, hold⟩ : ∃ old, old = slice (rawImage head rest) 0 head.totalLen.toNat := ⟨_, rfl⟩
  have holdLen : old.length = head.totalLen.toNat := by rw [hold, length_slice (by omega)]
  have holdTake : old.take headerSize = HksStoreHeaderInfo.codec.encode head := by
    rw [hold, slice, List.drop_zero, List.take_take, Nat.min_eq_left hlow, take_rawImage]
  have hcopied : (splice (List.replicate n (0 : UInt8)) 0 old).length = n := by
    rw [length_splice (by rw [List.length_replicate]; omega), List.length_replicate]
  rw [← hold]
  refine ⟨_, ?_, eq_rawImage ?_⟩
  case refine_1 =>
    rw [List.length_drop, length_splice (by omega)]
    omega
  case refine_2 =>
    rw [take_splice hlow (by omega), splice, List.take_zero, List.nil_append, List.take_append_of_le_length (by omega),
      holdTake]

theorem adjustImageBuffer_raw (h : Bounded head rest) {keyBlob : Bytes} (hblob : keyBlob.length < 2 ^ 32)
    {added : UInt32} (hadded : getLenAfterAddKey keyBlob head.totalLen = .ok added)
    (hshort : headerSize + rest.length < added.toNat) :
    Triple (At (some (rawImage head rest)) file) (adjustImageBuffer env added keyBlob)
      (fun _ => Appended head keyBlob file) (Refusal (SoundAt file)) := by
  obtain ⟨hadded, htoNat, hmax⟩ := getLenAfterAddKey_ok hblob hadded
  have hsound (s : LiteStore) (hs : At (some (rawImage head rest)) file s) : SoundAt file s := ⟨head, rest, h, hs⟩
  rw [adjustImageBuffer]
  refine bind_at (fun _ => hksGetImageBuffer_run) (bind_at getHeader_raw ?_)
  simp only
  obtain ⟨newBufLen, hdef⟩ : ∃ n, n = (rawImage head rest).length.toUInt32 +
      if keyBlob.length.toUInt32 > bufSizeAddendPerTime then keyBlob.length.toUInt32 else bufSizeAddendPerTime :=
    ⟨_, rfl⟩
  rw [← hdef]
  refine hksMalloc_bind fun b _ => guard_refuse (fun _ s hs => ⟨⟨_, rfl⟩, hsound s hs⟩) fun _ => ?_
  refine guard_refuse (fun _ s hs => ⟨⟨_, rfl⟩, hsound s hs⟩) fun hcopy => ?_
  have hlen := @length_rawImage head rest
  have hinside := h.inside
  refine bind_at (fun _ => readImage_run (by omega)) ?_
  refine guard_refuse (fun _ s hs => ⟨⟨_, rfl⟩, hsound s hs⟩) fun hcopy' => ?_
  have hdouble : maxImageSize = 2 * maxStorageSize.toNat := rfl
  have hstorage : maxStorageSize.toNat = 5120 := rfl
  have hadd : bufSizeAddendPerTime.toNat = 1024 := rfl
  have hblobLen : keyBlob.length.toUInt32.toNat = keyBlob.length := by
    rw [Nat.toUInt32, UInt32.toNat_ofNat']
    exact Nat.mod_eq_of_lt hblob
  have hnew : newBufLen.toNat ≤ maxImageSize := by
    have hlength : (rawImage head rest).length.toUInt32.toNat = (rawImage head rest).length := by
      rw [Nat.toUInt32, UInt32.toNat_ofNat']
      omega
    have hlow := h.low
    have hheader : headerSize = 92 := rfl
    rw [hdef, UInt32.toNat_add, hlength]
    split
    case isTrue =>
      rw [hblobLen]
      omega
    case isFalse => omega
  rw [not_not, copyOk_iff] at hcopy hcopy'
  have hroom : head.totalLen.toNat + keyBlob.length ≤ newBufLen.toNat := by
    rw [UInt32.toNat_sub_of_le _ _ (by rw [UInt32.le_iff_toNat_le]; omega), hblobLen] at hcopy'
    omega
  obtain ⟨rest', hrest', hbuf⟩ := exists_adjusted h hroom
  rw [hbuf]
  refine bind_at (fun _ => rfl) (bind_at getHeader_raw ?_)
  refine triple_at (setHeader_raw _) fun s hs => ⟨_, rest', ⟨⟨?_, ?_, hmax, ?_⟩, hadded⟩, hs⟩
  case refine_1 =>
    have := h.low
    simp only
    omega
  case refine_2 =>
    simp only
    omega
  case refine_3 => omega

theorem appendNewKey_raw (h : Bounded head rest) {keyBlob : Bytes} (hblob : keyBlob.length < 2 ^ 32) :
    Triple (At (some (rawImage head rest)) file) (appendNewKey env keyBlob)
      (fun _ => Appended head keyBlob file) (Refusal (SoundAt file)) := by
  have hsound (s : LiteStore) (hs : At (some (rawImage head rest)) file s) : SoundAt file s := ⟨head, rest, h, hs⟩
  have hlen := @length_rawImage head rest
  have hlength := h.length
  rw [appendNewKey]
  refine bind_at (fun _ => hksGetImageBuffer_run) ?_
  refine guard_refuse (fun _ s hs => ⟨⟨_, rfl⟩, hsound s hs⟩) fun _ => bind_at getHeader_raw ?_
  refine checked_bind hsound fun added hadded => ?_
  obtain ⟨hsum, htoNat, hmax⟩ := getLenAfterAddKey_ok hblob hadded
  have hsize : (rawImage head rest).length.toUInt32.toNat = headerSize + rest.length := by
    have hdouble : maxImageSize = 10240 := rfl
    rw [Nat.toUInt32, UInt32.toNat_ofNat']
    omega
  refine .ite (fun hroom => ?_) fun hroom => ?_
  case refine_1 =>
    rw [ge_iff_le, UInt32.le_iff_toNat_le, hsize] at hroom
    refine guard_refuse (fun _ s hs => ⟨⟨_, rfl⟩, hsound s hs⟩) fun _ => ?_
    refine writeImage_behind h.low (by omega) fun rest' hrest' => bind_at getHeader_raw ?_
    refine triple_at (setHeader_raw _) fun s hs => ⟨_, rest', ⟨⟨?_, ?_, hmax, ?_⟩, hsum⟩, hs⟩
    case refine_1 =>
      have := h.low
      simp only
      omega
    case refine_2 =>
      simp only
      omega
    case refine_3 => omega
  case refine_2 =>
    rw [ge_iff_le, UInt32.le_iff_toNat_le, hsize] at hroom
    exact adjustImageBuffer_raw h hblob hadded (Nat.lt_of_not_le hroom)

end Change

end Huks.StorageLite
