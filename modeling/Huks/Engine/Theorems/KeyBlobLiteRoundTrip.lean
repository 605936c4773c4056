import Huks.Common.Theorems.Construction
import Huks.Engine.Theorems.KeyBlobLite
import Huks.Storage.Theorems.LiteRefinement

namespace Huks.KeyBlobLite

open HksParamSet StorageLite

variable {env : LiteKeyEnv} {keyAlias key blob : Bytes} {keyFlag : UInt8} {paramSet : HksParamSet} {alg : UInt32}
  {info : HksStoreKeyInfo}

section Record

-- A key blob is what the key store takes for a key.
theorem BuiltBlob.record (b : BuiltBlob env keyAlias keyFlag key paramSet blob info) :
    ∃ r : KeyRecord, r.bytes = blob ∧ r.keyAlias = keyAlias := by
  have hinfo : keyInfoOf blob = info := b.enclosed.storeKeyInfo
  refine ⟨⟨blob, by rw [hinfo]; exact b.enclosed.valid, by rw [hinfo]; exact b.enclosed.length_blob⟩, rfl, ?_⟩
  rw [KeyRecord.keyAlias, KeyRecord.info]
  dsimp only
  rw [hinfo, b.aliasSize]
  refine (b.enclosed.slice_front (i := 0) ?_).trans ?_
  case refine_1 => rw [List.length_append]; omega
  case refine_2 => rw [slice, List.drop_zero, List.take_left]

end Record

section RawKey

-- A generated Ed25519 key is kept without its header.
abbrev Headless (alg : UInt32) (keyFlag : UInt8) : Prop := alg = HksKeyAlg.ed25519 ∧ keyFlag = hksKeyFlagGenerateKey

def header25519 : KeyMaterial25519 :=
  ⟨HksKeyAlg.ed25519, hksCurve25519KeySize256, hksCurve25519KeyBytes.toUInt32, hksCurve25519KeyBytes.toUInt32, 0⟩

-- The key that comes out again: a header that was not kept is made anew.
def reopened (alg : UInt32) (keyFlag : UInt8) (key : Bytes) : Bytes :=
  if Headless alg keyFlag then
    KeyMaterial25519.codec.encode header25519 ++ slice key keyMaterial25519Size (hksCurve25519KeyBytes * 2)
  else
    key

-- What is encrypted of a key
structure Adjusted (alg : UInt32) (keyFlag : UInt8) (key adjusted : Bytes) : Prop where
  headless : Headless alg keyFlag → adjusted = slice key keyMaterial25519Size (hksCurve25519KeyBytes * 2) ∧
    adjusted.length = hksCurve25519KeyBytes * 2
  whole    : ¬Headless alg keyFlag → adjusted = key ∧ mallocOk key.length

theorem adjustKey_ok {adjusted : Bytes} (h : adjustKey keyFlag paramSet key = .ok adjusted) :
    ∃ alg, getUInt32 paramSet HksTag.algorithm = .ok alg ∧ Adjusted alg keyFlag key adjusted := by
  obtain ⟨alg, halg, h⟩ := Except.bind_eq_ok.mp h
  refine ⟨alg, halg, fun hed => ?_, fun hed => ?_⟩
  case refine_1 =>
    rw [if_pos hed, ed25519KeyMaterialToBlob] at h
    split at h
    case isTrue => cases h
    case isFalse =>
      dsimp only at h
      split at h
      case isTrue => cases h
      case isFalse hsizes =>
        cases h
        exact ⟨rfl, length_slice (by omega)⟩
  case refine_2 =>
    rw [if_neg hed, copyKey] at h
    split at h
    case isTrue hmalloc =>
      cases h
      exact ⟨rfl, hmalloc⟩
    case isFalse => cases h

theorem length_reopened {adjusted : Bytes} (h : Adjusted alg keyFlag key adjusted) :
    (reopened alg keyFlag key).length =
      if Headless alg keyFlag then keyMaterial25519Size + hksCurve25519KeyBytes * 2 else adjusted.length := by
  rw [reopened]
  split
  case isTrue hed =>
    obtain ⟨hvalue, hlen⟩ := h.headless hed
    rw [List.length_append, ← hvalue, hlen]
    rfl
  case isFalse hed => rw [(h.whole hed).1]

theorem reopened_ne_nil {adjusted : Bytes} (h : Adjusted alg keyFlag key adjusted) : reopened alg keyFlag key ≠ [] := by
  rw [ne_eq, ← List.length_eq_zero_iff, length_reopened h]
  split
  case isTrue => decide
  case isFalse hed =>
    obtain ⟨rfl, hmalloc⟩ := h.whole hed
    exact Nat.ne_of_gt (mallocOk_iff.mp hmalloc).1

-- The algorithm is one that the field of the structure holds, and the set names no other.
structure OneAlgorithm (paramSet : HksParamSet) (alg : UInt32) : Prop where
  fits : alg.toNat < 256
  only : ∀ p ∈ paramSet.params, p.tag = HksTag.algorithm → p.uint32Param = alg

theorem elim_lastParam {β : Type} (f : UInt32 → β) {ps : List HksParam} {tag : UInt32} {b : β} (h : b = f 0) :
    (lastParam ps tag).elim b (fun p => f p.uint32Param) = f (lastUInt32 ps tag) := by
  rw [lastUInt32]
  cases lastParam ps tag
  case none => exact h
  case some => rfl

theorem BuiltBlob.keyAlg (b : BuiltBlob env keyAlias keyFlag key paramSet blob info) :
    info.keyAlg = (lastUInt32 paramSet.params HksTag.algorithm).toUInt8 :=
  b.filled.keyAlg.trans (elim_lastParam UInt32.toUInt8 rfl)

theorem getParam_mem {tag value : UInt32} (h : getUInt32 paramSet tag = .ok value) :
    ∃ p ∈ paramSet.params, p.tag = tag ∧ p.uint32Param = value := by
  unfold getUInt32 at h
  cases hget : hksGetParam paramSet tag
  case error e =>
    rw [hget] at h
    cases h
  case ok p =>
    rw [hget] at h
    cases h
    have hfind := hksGetParam_find hget
    exact ⟨p, List.mem_of_find?_eq_some hfind, by simpa using List.find?_some hfind, rfl⟩

theorem OneAlgorithm.last (hone : OneAlgorithm paramSet alg) (h : getUInt32 paramSet HksTag.algorithm = .ok alg) :
    lastUInt32 paramSet.params HksTag.algorithm = alg := by
  obtain ⟨p, hmem, htag, _⟩ := getParam_mem h
  exact lastUInt32_eq hmem htag hone.only

theorem BuiltBlob.headless {adjusted : Bytes} (b : BuiltBlob env keyAlias keyFlag adjusted paramSet blob info)
    (hone : OneAlgorithm paramSet alg) (h : getUInt32 paramSet HksTag.algorithm = .ok alg) :
    (info.keyAlg.toUInt32 = HksKeyAlg.ed25519 ∧ info.flag = hksKeyFlagGenerateKey) ↔ Headless alg keyFlag := by
  have hflag : info.flag = keyFlag := b.filled.flag
  have halg : info.keyAlg.toUInt32 = alg := by
    rw [b.keyAlg, hone.last h, ← UInt32.toNat_inj, UInt8.toNat_toUInt32, UInt32.toNat_toUInt8]
    exact Nat.mod_eq_of_lt hone.fits
  rw [hflag, halg]

theorem BuiltBlob.getRawKeyMaterial {adjusted : Bytes} (hinverts : LiteKeyEnv.Inverts env)
    (b : BuiltBlob env keyAlias keyFlag adjusted paramSet blob info) (hone : OneAlgorithm paramSet alg)
    (h : getUInt32 paramSet HksTag.algorithm = .ok alg) (hadjusted : Adjusted alg keyFlag key adjusted) :
    getRawKeyMaterial env blob = .ok (.ext (reopened alg keyFlag key)) := by
  have hlen := b.enclosed.length_blob
  have hle := b.enclosed.keyInfoLen
  have hiff := b.headless hone h
  rw [KeyBlobLite.getRawKeyMaterial, if_neg (by omega)]
  dsimp only
  rw [b.enclosed.storeKeyInfo, if_neg (by rw [b.enclosed.valid]; exact Bool.false_ne_true),
    b.enclosed.decryptKeyBlob hinverts]
  show (if info.keyAlg.toUInt32 = HksKeyAlg.ed25519 ∧ info.flag = hksKeyFlagGenerateKey then
      .ok (filledBlob (ed25519BlobToKeyMaterial adjusted))
    else
      .ok (filledBlob (copyKey adjusted)) : Except (Stop HksErrorCode) BlobData) = _
  by_cases hed : Headless alg keyFlag
  case pos =>
    obtain ⟨hvalue, hsize⟩ := hadjusted.headless hed
    rw [if_pos (hiff.mpr hed), ed25519BlobToKeyMaterial, if_neg (not_not.mpr hsize), reopened, if_pos hed, hvalue]
    rfl
  case neg =>
    obtain ⟨hkey, hmalloc⟩ := hadjusted.whole hed
    rw [if_neg (fun hc => hed (hiff.mp hc)), copyKey, hkey, if_pos hmalloc, reopened, if_neg hed]
    rfl

end RawKey

section ParamSet

-- The params that a key blob holds
def keyInfoParams (info : HksStoreKeyInfo) (authId : Bytes) : List HksParam :=
  storageFixedParams info ++ if authId = [] then [] else [.ofBytes HksTag.keyAuthId authId]

def storageFixedTags : List UInt32 := [
  HksTag.keyFlag, HksTag.algorithm, HksTag.purpose, HksTag.keySize, HksTag.digest, HksTag.padding, HksTag.blockMode,
  HksTag.keyRole, HksTag.keyDomain
]

theorem scalars_storageFixedParams (info : HksStoreKeyInfo) : Scalars (storageFixedParams info) := by
  have hscalar : storageFixedTags.all (fun tag => getTagType tag ≠ .bytes) = true := by decide
  intro p hp
  have htag : p.tag ∈ (storageFixedParams info).map HksParam.tag := List.mem_map_of_mem hp
  exact decide_eq_false (of_decide_eq_true (List.all_eq_true.mp hscalar p.tag htag))

theorem external_keyInfoParams (info : HksStoreKeyInfo) (authId : Bytes) :
    ∀ p ∈ keyInfoParams info authId, p.External := by
  intro p hp
  rw [keyInfoParams, List.mem_append] at hp
  obtain hp | hp := hp
  case inl => exact (scalars_storageFixedParams info).external p hp
  case inr =>
    split at hp
    case isTrue => cases hp
    case isFalse =>
      rw [List.mem_singleton.mp hp]
      exact .ofBytes _ _

variable {t : HksParamSet} {authId rawKey : Bytes}

theorem blobTotal_keyInfoParams (h : authId.length ≤ hksMaxKeyAuthIdLen) :
    blobTotal (keyInfoParams info authId) = authId.length := by
  have hlt : authId.length < 2 ^ 32 := Nat.lt_of_le_of_lt h (by decide)
  rw [keyInfoParams, blobTotal_append, (scalars_storageFixedParams info).blobTotal, Nat.zero_add]
  split
  case isTrue hnil => rw [hnil]; rfl
  case isFalse => rw [blobTotal_cons, blobTotal_nil, HksParam.blobLength_ofBytes rfl hlt, Nat.add_zero]

theorem length_keyInfoParams (info : HksStoreKeyInfo) (authId : Bytes) : (keyInfoParams info authId).length ≤ 10 := by
  rw [keyInfoParams, List.length_append]
  split
  case isTrue => exact Nat.le_succ 9
  case isFalse => exact Nat.le_refl 10

theorem add_keyInfoParams (h : buildSize (keyInfoParams info authId) ≤ maxSize) :
    ∃ t u, checked (hksAddParams hksInitParamSet (storageFixedParams info)) = .ok t ∧
      (if authId = [] then .ok t else checked (hksAddParams t [.ofBytes HksTag.keyAuthId authId])) = .ok u ∧
      Accumulated (keyInfoParams info authId) u := by
  have hcnt := length_keyInfoParams info authId
  have hext := external_keyInfoParams info authId
  have hmax : buildSize ([] ++ storageFixedParams info) ≤ maxSize := Nat.le_trans (buildSize_le_append _ _) h
  obtain ⟨t, ht, hacc⟩ := Accumulated.init.add_fits (scalars_storageFixedParams info).external (by
    rw [List.nil_append]
    exact Nat.le_of_ble_eq_true rfl) hmax
  rw [List.nil_append] at hacc
  rw [keyInfoParams] at hcnt hext h ⊢
  by_cases hnil : authId = []
  case pos =>
    simp only [if_pos hnil, List.append_nil]
    exact ⟨t, t, checked_eq_ok.mpr ht, rfl, hacc⟩
  case neg =>
    simp only [if_neg hnil] at hcnt hext h ⊢
    obtain ⟨u, hu, hacc'⟩ := hacc.add_fits
      (fun q hq => hext q (List.mem_append_right (storageFixedParams info) hq)) (Nat.le_trans hcnt (by decide)) h
    exact ⟨t, u, checked_eq_ok.mpr ht, checked_eq_ok.mpr hu, hacc'⟩

-- A key blob whose auth id can be read
structure Readable (blob : Bytes) (info : HksStoreKeyInfo) (authId : Bytes) : Prop where
  head   : storeKeyInfo blob = info
  valid  : hksIsKeyInfoLenInvalid info = false
  length : keyInfoSize + info.aliasSize.toNat + info.authIdSize.toNat ≤ blob.length
  authId : slice blob (keyInfoSize + info.aliasSize.toNat) info.authIdSize.toNat = authId

namespace Readable

variable (r : Readable blob info authId)
include r

theorem length_authId : authId.length = info.authIdSize.toNat := by
  rw [← r.authId]
  exact length_slice r.length

theorem authId_le : authId.length ≤ hksMaxKeyAuthIdLen := by
  rw [r.length_authId]
  exact (hksIsKeyInfoLenInvalid_eq_false.mp r.valid).2.2.1

theorem addKeyAuthId_eq : addKeyAuthId info blob t =
    if authId = [] then .ok t else checked (hksAddParams t [.ofBytes HksTag.keyAuthId authId]) := by
  have hiff : info.authIdSize = 0 ↔ authId = [] := by
    rw [← List.length_eq_zero_iff, r.length_authId, ← UInt8.toNat_inj]
    rfl
  rw [addKeyAuthId]
  split
  case isTrue h => rw [if_pos (hiff.mp h)]; rfl
  case isFalse h =>
    rw [if_neg (fun hc => h (hiff.mpr hc)), readAt_eq_ok.mpr ⟨.inr r.length, r.authId⟩]
    rfl

theorem addStorageParams_eq (key : Option BlobData) : addStorageParams key blob t =
    checked (hksAddParams t (storageFixedParams info)) >>= fun t =>
      (if authId = [] then .ok t else checked (hksAddParams t [.ofBytes HksTag.keyAuthId authId])) >>= fun t =>
        checked (addKey key t) := by
  have hlen := r.length
  have hauth (u : HksParamSet) := r.addKeyAuthId_eq (t := u)
  rw [addStorageParams, if_neg (by omega)]
  dsimp only
  rw [r.head, if_neg (by rw [r.valid]; exact Bool.false_ne_true)]
  simp only [hauth]

-- What is read of a key blob is the param set of it.
theorem translateKeyInfoBlobToParamSet_carries (hne : rawKey ≠ []) (hmax : rawKey.length ≤ maxKeySize.toNat) :
    ∃ t, translateKeyInfoBlobToParamSet (some (.ext rawKey)) blob = .ok t ∧
      Carries (keyInfoParams info authId ++ [.ofBytes HksTag.key rawKey]) t := by
  have hauth := r.authId_le
  have hkey : rawKey.length < 2 ^ 32 := Nat.lt_of_le_of_lt hmax (by decide)
  have hcnt := length_keyInfoParams info authId
  have htotal := @blobTotal_keyInfoParams info authId hauth
  have hkeyTotal : blobTotal [HksParam.ofBytes HksTag.key rawKey] = rawKey.length := by
    rw [blobTotal_cons, blobTotal_nil, HksParam.blobLength_ofBytes rfl hkey, Nat.add_zero]
  have hcount : (keyInfoParams info authId ++ [HksParam.ofBytes HksTag.key rawKey]).length ≤ 11 := by
    rw [List.length_append]
    exact Nat.add_le_add_right hcnt 1
  have hbuild : buildSize (keyInfoParams info authId ++ [.ofBytes HksTag.key rawKey]) ≤ maxSize := by
    have hbound : HksParamSet.headerSize + paramSize * 11 + (hksMaxKeyAuthIdLen + maxKeySize.toNat) ≤
        maxSize := by decide
    rw [buildSize, blobTotal_append, htotal, hkeyTotal]
    exact Nat.le_trans (Nat.add_le_add (Nat.add_le_add_left (Nat.mul_le_mul_left _ hcount) _)
      (Nat.add_le_add hauth hmax)) hbound
  have hext : ∀ p ∈ keyInfoParams info authId ++ [.ofBytes HksTag.key rawKey], p.External := by
    intro p hp
    obtain hp | hp := List.mem_append.mp hp
    case inl => exact external_keyInfoParams info authId p hp
    case inr =>
      rw [List.mem_singleton.mp hp]
      exact .ofBytes _ _
  have hlast : LastBlobNonempty (keyInfoParams info authId ++ [.ofBytes HksTag.key rawKey]) := by
    refine .append_blob (HksParam.isBytes_ofBytes rfl rawKey) fun hzero => hne ?_
    have hsize := @HksParam.blobSize_ofBytes HksTag.key rawKey hkey
    rw [← List.length_eq_zero_iff, ← hsize, hzero]
    rfl
  obtain ⟨t, u, ht, hu, hacc⟩ := add_keyInfoParams (Nat.le_trans (buildSize_le_append _ _) hbuild)
  obtain ⟨v, hv, hacc⟩ := hacc.add_fits (fun q hq => hext q (List.mem_append_right _ hq))
    (Nat.le_trans hcount (by decide)) hbuild
  obtain ⟨w, hw, hcarries⟩ := hacc.build_carries hext hlast hbuild
  refine ⟨w, ?_, hcarries⟩
  rw [translateKeyInfoBlobToParamSet, r.addStorageParams_eq, ht, ok_bind, hu, ok_bind]
  show checked (hksAddParams u [.ofBytes HksTag.key rawKey]) >>= (fun t => checked (hksBuildParamSet t)) = _
  rw [checked_eq_ok.mpr hv, ok_bind, checked_eq_ok.mpr hw]

end Readable

end ParamSet

section RoundTrip

-- The attributes that a key blob keeps, with the widths of their fields
def storedFields : List (UInt32 × Nat) := [
  (HksTag.algorithm, 8),
  (HksTag.purpose, 32),
  (HksTag.keySize, 16),
  (HksTag.digest, 8),
  (HksTag.padding, 8),
  (HksTag.blockMode, 8),
  (HksTag.keyRole, 32),
  (HksTag.keyDomain, 16)
]

-- An attribute as its field holds it
def cut (width : Nat) (value : UInt32) : UInt32 := (value.toNat % 2 ^ width).toUInt32

theorem cut_eq {width : Nat} {value : UInt32} (h : value.toNat < 2 ^ width) : cut width value = value := by
  rw [cut, Nat.mod_eq_of_lt h, Nat.toUInt32, UInt32.ofNat_toNat]

theorem toUInt32_toUInt8 (value : UInt32) : value.toUInt8.toUInt32 = cut 8 value := by
  apply UInt32.toNat_inj.mp
  rw [cut, UInt8.toNat_toUInt32, UInt32.toNat_toUInt8, Nat.toUInt32, UInt32.toNat_ofNat']
  omega

theorem toUInt32_toUInt16 (value : UInt32) : value.toUInt16.toUInt32 = cut 16 value := by
  apply UInt32.toNat_inj.mp
  rw [cut, UInt16.toNat_toUInt32, UInt32.toNat_toUInt16, Nat.toUInt32, UInt32.toNat_ofNat']
  omega

-- A key that was opened is the key that was built, with its attributes.
structure Reopened (alg : UInt32) (keyFlag : UInt8) (key : Bytes) (paramSet : HksParamSet) (node : HksKeyNode) :
    Prop where
  key      : hksGetRawKey node.paramSet = .ok (reopened alg keyFlag key)
  keyFlag  : getUInt32 node.paramSet HksTag.keyFlag = .ok keyFlag.toUInt32
  fields   : ∀ field ∈ storedFields,
    getUInt32 node.paramSet field.1 = .ok (cut field.2 (lastUInt32 paramSet.params field.1))
  authId   : authIdOf paramSet paramSet.params ≠ [] →
    getBlob node.paramSet HksTag.keyAuthId = .ok (authIdOf paramSet paramSet.params)
  noAuthId : authIdOf paramSet paramSet.params = [] →
    getBlob node.paramSet HksTag.keyAuthId = .error .paramNotExist

variable {authId rawKey : Bytes} {t : HksParamSet}

theorem getUInt32_fixed (c : Carries (keyInfoParams info authId ++ [.ofBytes HksTag.key rawKey]) t) :
    ∀ p ∈ storageFixedParams info, getUInt32 t p.tag = .ok p.uint32Param := by
  intro p hp
  have hscalar := scalars_storageFixedParams info p hp
  refine c.uint32 (of_decide_eq_false hscalar) ?_
  simp only [storageFixedParams, List.mem_cons, List.not_mem_nil, or_false] at hp
  obtain rfl | rfl | rfl | rfl | rfl | rfl | rfl | rfl | rfl := hp <;> rfl

theorem getUInt32_info (c : Carries (keyInfoParams info authId ++ [.ofBytes HksTag.key rawKey]) t)
    {tag value : UInt32} (h : HksParam.ofUInt32 tag value ∈ storageFixedParams info) : getUInt32 t tag = .ok value := by
  have hvalue : (HksParam.ofUInt32 tag value).uint32Param = value := UInt32.toUInt32_toUInt64 value
  exact (getUInt32_fixed c _ h).trans (congrArg _ hvalue)

theorem BuiltBlob.fields (b : BuiltBlob env keyAlias keyFlag key paramSet blob info)
    (c : Carries (keyInfoParams info authId ++ [.ofBytes HksTag.key rawKey]) t) :
    ∀ field ∈ storedFields, getUInt32 t field.1 = .ok (cut field.2 (lastUInt32 paramSet.params field.1)) := by
  have hbyte {value : UInt8} {tag : UInt32}
      (h : value = (lastParam paramSet.params tag).elim 0 fun p => p.uint32Param.toUInt8) :
      value.toUInt32 = cut 8 (lastUInt32 paramSet.params tag) := by
    rw [h.trans (elim_lastParam UInt32.toUInt8 rfl), toUInt32_toUInt8]
  have hhalf {value : UInt16} {tag : UInt32}
      (h : value = (lastParam paramSet.params tag).elim 0 fun p => p.uint32Param.toUInt16) :
      value.toUInt32 = cut 16 (lastUInt32 paramSet.params tag) := by
    rw [h.trans (elim_lastParam UInt32.toUInt16 rfl), toUInt32_toUInt16]
  have hword {value tag : UInt32} (h : value = (lastParam paramSet.params tag).elim 0 HksParam.uint32Param) :
      value = cut 32 (lastUInt32 paramSet.params tag) := by
    rw [h, cut_eq (UInt32.toNat_lt _), lastUInt32]
  have hget {tag value : UInt32} {width : Nat} (hvalue : value = cut width (lastUInt32 paramSet.params tag))
      (hmem : HksParam.ofUInt32 tag value ∈ storageFixedParams info) :
      getUInt32 t tag = .ok (cut width (lastUInt32 paramSet.params tag)) :=
    hvalue ▸ getUInt32_info c hmem
  rintro ⟨tag, width⟩ hfield
  simp only [storedFields, List.mem_cons, List.not_mem_nil, or_false, Prod.mk.injEq] at hfield
  obtain ⟨rfl, rfl⟩ | ⟨rfl, rfl⟩ | ⟨rfl, rfl⟩ | ⟨rfl, rfl⟩ | ⟨rfl, rfl⟩ | ⟨rfl, rfl⟩ | ⟨rfl, rfl⟩ | ⟨rfl, rfl⟩ := hfield
  · exact hget (hbyte b.filled.keyAlg) (by simp [storageFixedParams])
  · exact hget (hword b.filled.purpose) (by simp [storageFixedParams])
  · exact hget (hhalf b.filled.keyLen) (by simp [storageFixedParams])
  · exact hget (hbyte b.filled.digest) (by simp [storageFixedParams])
  · exact hget (hbyte b.filled.padding) (by simp [storageFixedParams])
  · exact hget (hbyte b.filled.keyMode) (by simp [storageFixedParams])
  · exact hget (hword b.filled.role) (by simp [storageFixedParams])
  · exact hget (hhalf b.filled.domain) (by simp [storageFixedParams])

theorem BuiltBlob.readable (b : BuiltBlob env keyAlias keyFlag key paramSet blob info) :
    Readable blob info (authIdOf paramSet paramSet.params) where
  head   := b.enclosed.storeKeyInfo
  valid  := b.enclosed.valid
  length := by
    have hlen := b.enclosed.length_blob
    have hend := b.enclosed.keyInfoLen
    have hfront := b.enclosed.length
    omega
  authId := by
    rw [b.aliasSize, b.authIdSize]
    refine (b.enclosed.slice_front (Nat.le_of_eq (List.length_append).symm)).trans ?_
    rw [slice, List.drop_left, List.take_length]

theorem hksGetRawKey_eq (c : Carries (keyInfoParams info authId ++ [.ofBytes HksTag.key rawKey]) t)
    (hne : rawKey ≠ []) (hmax : rawKey.length ≤ maxKeySize.toNat) : hksGetRawKey t = .ok rawKey := by
  have hlt : rawKey.length < 2 ^ 32 := Nat.lt_of_le_of_lt hmax (by decide)
  have hfind : (keyInfoParams info authId ++ [HksParam.ofBytes HksTag.key rawKey]).find? (·.tag = HksTag.key) =
      some (.ofBytes HksTag.key rawKey) := by
    rw [keyInfoParams]
    split <;> rfl
  have hmalloc : mallocOk rawKey.length :=
    mallocOk_iff.mpr ⟨List.length_pos_iff.mpr hne, Nat.le_trans hmax (by decide)⟩
  rw [hksGetRawKey, c.blob rfl hlt hne hfind]
  show (if ¬mallocOk rawKey.length then .error .mallocFail else .ok rawKey : Except HksErrorCode Bytes) = _
  rw [if_neg (not_not.mpr hmalloc)]

theorem getBlob_authId (c : Carries (keyInfoParams info authId ++ [.ofBytes HksTag.key rawKey]) t)
    (hauth : authId.length ≤ hksMaxKeyAuthIdLen) :
    getBlob t HksTag.keyAuthId = if authId = [] then .error .paramNotExist else .ok authId := by
  by_cases hnil : authId = []
  case pos =>
    rw [if_pos hnil]
    refine c.blob_none rfl ?_
    rw [keyInfoParams, if_pos hnil]
    rfl
  case neg =>
    rw [if_neg hnil]
    refine c.blob rfl (Nat.lt_of_le_of_lt hauth (by decide)) hnil ?_
    rw [keyInfoParams, if_neg hnil]
    rfl

-- A key blob that was built is a key for the key store, and it opens to the key and its attributes.
theorem hksBuildKeyBlob_reopened (hinverts : LiteKeyEnv.Inverts env) (hone : OneAlgorithm paramSet alg)
    {keyOutSize : UInt32}
    (h : hksBuildKeyBlob env keyAlias keyFlag key paramSet keyOutSize = .ok blob) (hne : keyAlias ≠ []) :
    (∃ r : KeyRecord, r.bytes = blob ∧ r.keyAlias = keyAlias) ∧
      ∃ node, hksGenerateKeyNode env blob = .ok (some node) ∧ Reopened alg keyFlag key paramSet node := by
  unfold hksBuildKeyBlob at h
  obtain ⟨adjusted, hadjust, h⟩ := Except.bind_eq_ok.mp h
  obtain ⟨tmpOut, hfill, h⟩ := Except.bind_eq_ok.mp h
  obtain ⟨alg', halg, hadjusted⟩ := adjustKey_ok (checked_eq_ok.mp hadjust)
  obtain ⟨p, hmem, htag, hvalue⟩ := getParam_mem halg
  obtain rfl : alg' = alg := hvalue.symm.trans (hone.only p hmem htag)
  obtain ⟨info, b⟩ : ∃ info, BuiltBlob env keyAlias keyFlag adjusted paramSet tmpOut info :=
    fillStoreKeyInfo_built hfill hne
  split at h
  case isTrue => cases h
  case isFalse =>
    cases h
    obtain ⟨r, hr, halias⟩ := b.record
    refine ⟨⟨r, hr, halias⟩, ?_⟩
    have hauth := b.readable.authId_le
    have hraw := b.getRawKeyMaterial hinverts hone halg hadjusted
    have hne' := reopened_ne_nil hadjusted
    have hmax : (reopened alg' keyFlag key).length ≤ maxKeySize.toNat := by
      have hsize := b.enclosed.keySize
      have hvalid := (hksIsKeyInfoLenInvalid_eq_false.mp b.enclosed.valid).2.1.1
      rw [length_reopened hadjusted]
      split
      case isTrue => decide
      case isFalse => exact Nat.le_trans (by omega) (Nat.le_trans hvalid (by decide))
    obtain ⟨t, ht, c⟩ := b.readable.translateKeyInfoBlobToParamSet_carries hne' hmax
    refine ⟨{ paramSet := t }, ?_, hksGetRawKey_eq c hne' hmax, ?_, b.fields c, fun hnil => ?_, fun hnil => ?_⟩
    case refine_1 =>
      have hlen := hr ▸ r.length_le
      have hmax : maxKeySize.toNat = 2048 := rfl
      rw [hksGenerateKeyNode, if_neg (by omega), hraw, ok_bind, ht]
      rfl
    case refine_2 =>
      have hflag : info.flag = keyFlag := b.filled.flag
      rw [← hflag]
      exact getUInt32_info c (by simp [storageFixedParams])
    case refine_3 => rw [getBlob_authId c hauth, if_neg hnil]
    case refine_4 => rw [getBlob_authId c hauth, if_pos hnil]

end RoundTrip

section Sample

-- A library that leaves the key as it is, and a key with one attribute
def sampleEnv : LiteKeyEnv where
  getMainKey             := .ok (.zero _)
  fillRandom             := .ok (.zero _)
  deriveKey _ _ _ _      := .ok (.zero _)
  encrypt _ _ message    := .ok (⟨message, rfl⟩, .zero _)
  decrypt _ _ _ message  := .ok ⟨message, rfl⟩

theorem sampleEnv_inverts : sampleEnv.Inverts := by
  intro key usageSpec message cipher tag h
  cases h
  exact ⟨_, rfl, rfl⟩

def sampleParamSet : HksParamSet := ⟨32, [.ofUInt32 HksTag.algorithm HksKeyAlg.aes], []⟩

theorem sampleParamSet_oneAlgorithm : OneAlgorithm sampleParamSet HksKeyAlg.aes where
  fits := by decide
  only := by
    intro p hp _
    rw [List.mem_singleton.mp hp]
    rfl

-- What is built of the key `[7]`
def sampleBlob : KeyRecord where
  bytes  := [58, 0, 17, 0] ++ .replicate 16 0 ++ [1, 20] ++ .replicate 16 0 ++ [1, 0, 97, 7] ++ .replicate 16 0
  valid  := by decide
  length := by decide

theorem sampleBlob_built :
    hksBuildKeyBlob sampleEnv [97] 1 [7] sampleParamSet 2048 = .ok sampleBlob.bytes := by
  decide +kernel

end Sample

section Main

variable {store : LiteEnv}

-- What was built is a key for the key store, and it opens to the key and its attributes. So does what the store
-- gives for the alias later, whatever came in between and whatever failed there.
theorem storedKey_reopens (hwhole : store.Whole) (hinverts : LiteKeyEnv.Inverts env)
    (hone : OneAlgorithm paramSet alg) {keyOutSize : UInt32}
    (hbuild : hksBuildKeyBlob env keyAlias keyFlag key paramSet keyOutSize = .ok blob) (hne : keyAlias ≠ []) :
    ∃ (r : KeyRecord) (node : HksKeyNode), r.bytes = blob ∧ r.keyAlias = keyAlias ∧
      Reopened alg keyFlag key paramSet node ∧ hksGenerateKeyNode env blob = .ok (some node) ∧
      ∀ (front between : List Request) (answers : List Answer) (s : LiteStore) (value : Value) (bytes : Bytes),
        (serveAll store (front ++ .store r :: (between ++ [.ask (.blob keyAlias)]))).run {} = .ok answers s →
        (∀ request ∈ between, ¬request.StoresTo keyAlias) → answers[front.length]? = some (.ok value) →
        answers.getLast? = some (.ok (.bytes bytes)) → hksGenerateKeyNode env bytes = .ok (some node) := by
  obtain ⟨⟨r, rfl, rfl⟩, node, hopen, hnode⟩ := hksBuildKeyBlob_reopened hinverts hone hbuild hne
  refine ⟨r, node, rfl, rfl, hnode, hopen, fun front between answers s value bytes hrun hother hok hlast => ?_⟩
  obtain ⟨b, hsteps⟩ := run_machine hwhole hrun
  have hsettles : (Request.store r).Settles r.keyAlias (some r) := ⟨rfl, rfl⟩
  obtain ⟨r', hr, rfl⟩ := hsteps.newest_blob hsettles hother hok hlast
  cases hr
  exact hopen

theorem storedKey_reopens_sample : ∃ (r : KeyRecord) (node : HksKeyNode), r.bytes = sampleBlob.bytes ∧
    r.keyAlias = [97] ∧ Reopened HksKeyAlg.aes 1 [7] sampleParamSet node ∧
      hksGenerateKeyNode sampleEnv sampleBlob.bytes = .ok (some node) ∧
      ∀ (front between : List Request) (answers : List Answer) (s : LiteStore) (value : Value) (bytes : Bytes),
        (serveAll calm (front ++ .store r :: (between ++ [.ask (.blob [97])]))).run {} = .ok answers s →
        (∀ request ∈ between, ¬request.StoresTo [97]) → answers[front.length]? = some (.ok value) →
        answers.getLast? = some (.ok (.bytes bytes)) → hksGenerateKeyNode sampleEnv bytes = .ok (some node) :=
  storedKey_reopens calm_quiet.whole sampleEnv_inverts sampleParamSet_oneAlgorithm sampleBlob_built (by decide)

end Main

end Huks.KeyBlobLite
