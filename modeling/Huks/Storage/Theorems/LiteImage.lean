import Huks.Storage.StorageLite
import Mathlib.Algebra.BigOperators.Group.List.Basic

namespace Huks.StorageLite

open EStateM

def keyInfoOf (bytes : Bytes) : HksStoreKeyInfo := HksStoreKeyInfo.codec.decode (bytes.take keyInfoSize)

-- The bytes of a key, with sizes that are right.
structure KeyRecord where
  bytes  : Bytes
  valid  : hksIsKeyInfoLenInvalid (keyInfoOf bytes) = false
  length : bytes.length = (keyInfoOf bytes).keyInfoLen.toNat

namespace KeyRecord

def info (r : KeyRecord) : HksStoreKeyInfo := keyInfoOf r.bytes

def keyAlias (r : KeyRecord) : Bytes := slice r.bytes keyInfoSize r.info.aliasSize.toNat

end KeyRecord

-- The records one behind the other.
def pack (records : List KeyRecord) : Bytes := records.flatMap KeyRecord.bytes

@[simp]
theorem pack_nil : pack [] = [] := rfl

@[simp]
theorem pack_cons (r : KeyRecord) (rs : List KeyRecord) : pack (r :: rs) = r.bytes ++ pack rs := by
  simp [pack]

@[simp]
theorem pack_append (rs rs' : List KeyRecord) : pack (rs ++ rs') = pack rs ++ pack rs' := by
  simp [pack]

-- The size of the file that the records make
def fileSize (records : List KeyRecord) : Nat := headerSize + (pack records).length

theorem length_encode_header (head : HksStoreHeaderInfo) :
    (HksStoreHeaderInfo.codec.encode head).length = headerSize := HksStoreHeaderInfo.codec.length_encode head

theorem header_exact : HksStoreHeaderInfo.codec.Exact :=
  .iso (.pair FixedCodec.u16_exact <| .pair FixedCodec.u16_exact <| .pair FixedCodec.u32_exact <|
    .pair FixedCodec.u32_exact <| .pair (FixedCodec.bytes_exact _) (FixedCodec.bytes_exact _)) fun _ => rfl

theorem decode_header (head : HksStoreHeaderInfo) (rest : Bytes) :
    HksStoreHeaderInfo.codec.decode ((HksStoreHeaderInfo.codec.encode head ++ rest).take headerSize) = head := by
  rw [List.take_left' (length_encode_header head), HksStoreHeaderInfo.codec.decode_encode]

theorem hksIsKeyInfoLenInvalid_eq_false {keyInfo : HksStoreKeyInfo} : hksIsKeyInfoLenInvalid keyInfo = false ↔
    (keyInfo.aliasSize.toNat ≤ hksMaxKeyAliasLen ∧ 0 < keyInfo.aliasSize.toNat) ∧
      (keyInfo.keySize.toNat ≤ hksMaxKeyMaterialLen ∧ 0 < keyInfo.keySize.toNat) ∧
      keyInfo.authIdSize.toNat ≤ hksMaxKeyAuthIdLen ∧
      keyInfo.keyInfoLen.toNat =
        keyInfoSize + keyInfo.aliasSize.toNat + keyInfo.authIdSize.toNat + keyInfo.keySize.toNat := by
  have halias : keyInfo.aliasSize = 0 ↔ ¬0 < keyInfo.aliasSize.toNat := by
    rw [Nat.not_lt, Nat.le_zero, ← UInt8.toNat_inj]
    rfl
  have hkey : keyInfo.keySize = 0 ↔ ¬0 < keyInfo.keySize.toNat := by
    rw [Nat.not_lt, Nat.le_zero, ← UInt16.toNat_inj]
    rfl
  rw [hksIsKeyInfoLenInvalid, decide_eq_false_iff_not, halias, hkey]
  omega

namespace KeyRecord

variable (r : KeyRecord)

theorem sizes : (r.info.aliasSize.toNat ≤ hksMaxKeyAliasLen ∧ 0 < r.info.aliasSize.toNat) ∧
    (r.info.keySize.toNat ≤ hksMaxKeyMaterialLen ∧ 0 < r.info.keySize.toNat) ∧
    r.info.authIdSize.toNat ≤ hksMaxKeyAuthIdLen ∧ r.bytes.length =
      keyInfoSize + r.info.aliasSize.toNat + r.info.authIdSize.toNat + r.info.keySize.toNat := by
  rw [r.length]
  exact hksIsKeyInfoLenInvalid_eq_false.mp r.valid

theorem keyInfoSize_le : keyInfoSize + r.info.aliasSize.toNat < r.bytes.length := by
  obtain ⟨_, ⟨_, hkey⟩, _, hlen⟩ := r.sizes
  omega

theorem length_le : r.bytes.length ≤ 1740 := by
  obtain ⟨⟨halias, _⟩, ⟨hkey, _⟩, hauth, hlen⟩ := r.sizes
  have : keyInfoSize + hksMaxKeyAliasLen + hksMaxKeyAuthIdLen + hksMaxKeyMaterialLen = 1740 := rfl
  omega

theorem length_keyAlias : r.keyAlias.length = r.info.aliasSize.toNat :=
  length_slice (Nat.le_of_lt r.keyInfoSize_le)

theorem toNat_length : r.bytes.length.toUInt32.toNat = r.bytes.length := by
  have := r.length_le
  rw [Nat.toUInt32, UInt32.toNat_ofNat']
  omega

theorem toNat_keyInfoLen : r.info.keyInfoLen.toUInt32.toNat = r.bytes.length := by
  rw [UInt16.toNat_toUInt32, r.length]
  rfl

end KeyRecord

-- The counters of a header say what is in the table.
structure Counts (head : HksStoreHeaderInfo) (records : List KeyRecord) : Prop where
  keyCount : head.keyCount.toNat = records.length
  totalLen : head.totalLen.toNat = headerSize + (pack records).length

-- An image with a header and the records behind it.
def imageOf (head : HksStoreHeaderInfo) (records : List KeyRecord) (rest : Bytes) : Bytes :=
  HksStoreHeaderInfo.codec.encode head ++ (pack records ++ rest)

theorem length_imageOf (head : HksStoreHeaderInfo) (records : List KeyRecord) (rest : Bytes) :
    (imageOf head records rest).length = headerSize + (pack records).length + rest.length := by
  rw [imageOf, List.length_append, length_encode_header, List.length_append, Nat.add_assoc]

-- A record takes more than 40 bytes.
theorem length_pack_ge (records : List KeyRecord) : keyInfoSize * records.length ≤ (pack records).length := by
  induction records
  case nil => simp
  case cons r rs ih =>
    have := r.keyInfoSize_le
    rw [pack_cons, List.length_append, List.length_cons, Nat.mul_succ]
    omega

section Runs

variable {image rest pre : Bytes} {file : Option Bytes} {tick : Nat} {head : HksStoreHeaderInfo}

theorem hksGetImageBuffer_run :
    hksGetImageBuffer.run ⟨some image, file, tick⟩ = .ok image ⟨some image, file, tick⟩ := rfl

theorem readImage_run {i n : Nat} (h : i + n ≤ image.length) :
    (readImage i n).run ⟨some image, file, tick⟩ = .ok (slice image i n) ⟨some image, file, tick⟩ := by
  have hread : (readAt image i n : Except (Stop HksErrorCode) Bytes) = .ok (slice image i n) :=
    readAt_eq_ok.mpr ⟨.inr h, rfl⟩
  rw [readImage, run_bind_of_ok hksGetImageBuffer_run, hread]
  rfl

theorem writeImage_run {i : Nat} {bytes : Bytes} (h : i + bytes.length ≤ image.length) :
    (writeImage i bytes).run ⟨some image, file, tick⟩ = .ok ⟨⟩ ⟨some (splice image i bytes), file, tick⟩ := by
  rw [writeImage, run_bind_of_ok hksGetImageBuffer_run, if_pos (.inr h)]
  rfl

theorem getHeader_run :
    getHeader.run ⟨some (HksStoreHeaderInfo.codec.encode head ++ rest), file, tick⟩ =
      .ok head ⟨some (HksStoreHeaderInfo.codec.encode head ++ rest), file, tick⟩ := by
  have hlen : 0 + headerSize ≤ (HksStoreHeaderInfo.codec.encode head ++ rest).length := by
    rw [List.length_append, length_encode_header]
    omega
  rw [getHeader, run_bind_of_ok (readImage_run hlen), slice, List.drop_zero, decode_header]
  rfl

theorem setHeader_run (head' : HksStoreHeaderInfo) :
    (setHeader head').run ⟨some (HksStoreHeaderInfo.codec.encode head ++ rest), file, tick⟩ =
      .ok ⟨⟩ ⟨some (HksStoreHeaderInfo.codec.encode head' ++ rest), file, tick⟩ := by
  have hlen : (HksStoreHeaderInfo.codec.encode head').length = (HksStoreHeaderInfo.codec.encode head).length := by
    rw [length_encode_header, length_encode_header]
  have hmiddle := @splice_middle _ [] _ _ rest hlen
  rw [List.nil_append, List.nil_append, List.length_nil] at hmiddle
  rw [setHeader, writeImage_run (by rw [List.length_append, hlen]; omega), hmiddle]

theorem keyInfoAt_run {r : KeyRecord} {offset : UInt32} (h : image = pre ++ (r.bytes ++ rest))
    (hoffset : offset.toNat = pre.length) :
    (keyInfoAt offset).run ⟨some image, file, tick⟩ = .ok r.info ⟨some image, file, tick⟩ := by
  have hle := r.keyInfoSize_le
  have hlen : offset.toNat + keyInfoSize ≤ image.length := by
    rw [h, List.length_append, List.length_append]
    omega
  have hslice : slice image offset.toNat keyInfoSize = r.bytes.take keyInfoSize := by
    rw [slice, h, hoffset, List.drop_left, List.take_append_of_le_length (by omega)]
  rw [keyInfoAt, run_bind_of_ok (readImage_run hlen), hslice]
  rfl

theorem getHeader_imageOf {records : List KeyRecord} :
    getHeader.run ⟨some (imageOf head records rest), file, tick⟩ =
      .ok head ⟨some (imageOf head records rest), file, tick⟩ := getHeader_run

theorem setHeader_imageOf {records : List KeyRecord} (head' : HksStoreHeaderInfo) :
    (setHeader head').run ⟨some (imageOf head records rest), file, tick⟩ =
      .ok ⟨⟩ ⟨some (imageOf head' records rest), file, tick⟩ := setHeader_run head'

end Runs

end Huks.StorageLite
