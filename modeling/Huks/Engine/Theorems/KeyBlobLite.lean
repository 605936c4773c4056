import Huks.Common.Theorems.AddParams
import Huks.Common.Theorems.Construction
import Huks.Engine.KeyBlobLite
import Huks.Lib.KeyedList
import Huks.Storage.Theorems.LiteImage

namespace Huks.KeyBlobLite

open HksParamSet StorageLite

section Last

-- The last param with a tag
def lastParam (ps : List HksParam) (tag : UInt32) : Option HksParam := lastOf HksParam.tag ps tag

def lastUInt32 (ps : List HksParam) (tag : UInt32) : UInt32 := (lastParam ps tag).elim 0 HksParam.uint32Param

-- Where every param with the tag has the value, it is the last one.
theorem lastUInt32_eq {ps : List HksParam} {tag value : UInt32} {p : HksParam} (hmem : p ∈ ps) (htag : p.tag = tag)
    (h : ∀ q ∈ ps, q.tag = tag → q.uint32Param = value) : lastUInt32 ps tag = value := by
  cases hlast : lastParam ps tag
  case none => exact absurd htag (lastOf_eq_none.mp hlast p hmem)
  case some q =>
    obtain ⟨hq, hqtag⟩ := mem_of_lastOf hlast
    rw [lastUInt32, hlast]
    exact h q hq hqtag

end Last

section Fill

variable {paramSet : HksParamSet} {p : HksParam} {ps : List HksParam} {out out' : KeyOut}

-- What a param makes of the structure
def setField (p : HksParam) (info : HksStoreKeyInfo) : HksStoreKeyInfo :=
  { info with
    keyAlg     := if p.tag = HksTag.algorithm then p.uint32Param.toUInt8 else info.keyAlg
    padding    := if p.tag = HksTag.padding then p.uint32Param.toUInt8 else info.padding
    digest     := if p.tag = HksTag.digest then p.uint32Param.toUInt8 else info.digest
    keyMode    := if p.tag = HksTag.blockMode then p.uint32Param.toUInt8 else info.keyMode
    purpose    := if p.tag = HksTag.purpose then p.uint32Param else info.purpose
    keyLen     := if p.tag = HksTag.keySize then p.uint32Param.toUInt16 else info.keyLen
    role       := if p.tag = HksTag.keyRole then p.uint32Param else info.role
    domain     := if p.tag = HksTag.keyDomain then p.uint32Param.toUInt16 else info.domain
    authIdSize := if p.tag = HksTag.keyAuthId then p.blobSize.toUInt8 else info.authIdSize }

-- Every param but the auth id sets its field.
theorem fillParam_field (h : p.tag ≠ HksTag.keyAuthId) :
    fillParam paramSet out p = .ok ⟨setField p out.keyInfo, out.rest⟩ := by
  obtain ⟨tag, word, data⟩ := p
  dsimp only at h
  unfold fillParam setField
  dsimp only
  iterate 8
    split
    case isTrue htag =>
      subst htag
      rfl
  simp [*]

theorem fillParam_authId (h : p.tag = HksTag.keyAuthId) (hok : fillParam paramSet out p = .ok out') :
    p.blobSize.toNat ≤ hksMaxKeyAuthIdLen ∧ (paramSet.blob p).length = p.blobSize.toNat ∧
      out' = ⟨setField p out.keyInfo, splice out.rest out.keyInfo.aliasSize.toNat (paramSet.blob p)⟩ := by
  obtain ⟨tag, word, data⟩ := p
  dsimp only at h
  subst h
  rw [HksParamSet.blob]
  by_cases hsize : (HksParam.mk HksTag.keyAuthId word data).blobSize.toNat > hksMaxKeyAuthIdLen
  case pos =>
    have hfill : fillParam paramSet out ⟨HksTag.keyAuthId, word, data⟩ = .error .invalidArgument := if_pos hsize
    rw [hfill] at hok
    cases hok
  case neg =>
    cases hread : (HksParam.mk HksTag.keyAuthId word data).read paramSet.base paramSet.area
    case none =>
      have hfill : fillParam paramSet out ⟨HksTag.keyAuthId, word, data⟩ = .error .insufficientMemory :=
        (if_neg hsize).trans (by rw [hread])
      rw [hfill] at hok
      cases hok
    case some authId =>
      have hfill : fillParam paramSet out ⟨HksTag.keyAuthId, word, data⟩ =
          .ok ⟨setField ⟨HksTag.keyAuthId, word, data⟩ out.keyInfo,
            splice out.rest out.keyInfo.aliasSize.toNat authId⟩ :=
        (if_neg hsize).trans (by rw [hread]; rfl)
      rw [hfill] at hok
      cases hok
      exact ⟨Nat.le_of_not_lt hsize, HksParam.length_read hread, rfl⟩

theorem fillParam_keyInfo (h : fillParam paramSet out p = .ok out') : out'.keyInfo = setField p out.keyInfo := by
  by_cases htag : p.tag = HksTag.keyAuthId
  case pos => rw [(fillParam_authId htag h).2.2]
  case neg =>
    rw [fillParam_field htag] at h
    cases h
    rfl

-- The fields that a param set gives, and those that were there before
structure Filled (ps : List HksParam) (start info : HksStoreKeyInfo) : Prop where
  keySize   : info.keySize = start.keySize
  flag      : info.flag = start.flag
  aliasSize : info.aliasSize = start.aliasSize
  keyAlg    : info.keyAlg = (lastParam ps HksTag.algorithm).elim start.keyAlg fun p => p.uint32Param.toUInt8
  padding   : info.padding = (lastParam ps HksTag.padding).elim start.padding fun p => p.uint32Param.toUInt8
  digest    : info.digest = (lastParam ps HksTag.digest).elim start.digest fun p => p.uint32Param.toUInt8
  keyMode   : info.keyMode = (lastParam ps HksTag.blockMode).elim start.keyMode fun p => p.uint32Param.toUInt8
  purpose   : info.purpose = (lastParam ps HksTag.purpose).elim start.purpose HksParam.uint32Param
  keyLen    : info.keyLen = (lastParam ps HksTag.keySize).elim start.keyLen fun p => p.uint32Param.toUInt16
  role      : info.role = (lastParam ps HksTag.keyRole).elim start.role HksParam.uint32Param
  domain    : info.domain = (lastParam ps HksTag.keyDomain).elim start.domain fun p => p.uint32Param.toUInt16

theorem fillBaseInfo_filled (h : fillBaseInfo paramSet out = .ok out') :
    Filled paramSet.params out.keyInfo out'.keyInfo := by
  have hkeeps {β : Type} {get : HksStoreKeyInfo → β} (hget : ∀ p info, get (setField p info) = get info) :
      get out'.keyInfo = get out.keyInfo :=
    @foldlM_keeps _ _ _ _ paramSet.params _ (fun o => get o.keyInfo) _ _
      (fun s p t ht => by rw [fillParam_keyInfo ht, hget]) h
  have hlast {β : Type} {get : HksStoreKeyInfo → β} {value : HksParam → β} {tag : UInt32}
      (hget : ∀ p info, get (setField p info) = if p.tag = tag then value p else get info) :
      get out'.keyInfo = (lastParam paramSet.params tag).elim (get out.keyInfo) value :=
    @foldlM_last _ _ _ _ _ _ HksParam.tag paramSet.params tag _ (fun o => get o.keyInfo) value _ _
      (fun s p t ht => by rw [fillParam_keyInfo ht, hget]) h
  exact {
    keySize   := @hkeeps _ HksStoreKeyInfo.keySize fun _ _ => rfl
    flag      := @hkeeps _ HksStoreKeyInfo.flag fun _ _ => rfl
    aliasSize := @hkeeps _ HksStoreKeyInfo.aliasSize fun _ _ => rfl
    keyAlg    := @hlast _ HksStoreKeyInfo.keyAlg _ _ fun _ _ => rfl
    padding   := @hlast _ HksStoreKeyInfo.padding _ _ fun _ _ => rfl
    digest    := @hlast _ HksStoreKeyInfo.digest _ _ fun _ _ => rfl
    keyMode   := @hlast _ HksStoreKeyInfo.keyMode _ _ fun _ _ => rfl
    purpose   := @hlast _ HksStoreKeyInfo.purpose _ _ fun _ _ => rfl
    keyLen    := @hlast _ HksStoreKeyInfo.keyLen _ _ fun _ _ => rfl
    role      := @hlast _ HksStoreKeyInfo.role _ _ fun _ _ => rfl
    domain    := @hlast _ HksStoreKeyInfo.domain _ _ fun _ _ => rfl
  }

-- The auth id of a param set
def authIdOf (paramSet : HksParamSet) (ps : List HksParam) : Bytes :=
  (lastParam ps HksTag.keyAuthId).elim [] paramSet.blob

-- The bytes behind the structure: the alias and, behind it, the auth id
structure Room (paramSet : HksParamSet) (keyAlias : Bytes) (ps : List HksParam) (out : KeyOut) : Prop where
  length     : out.rest.length = keyOutRoom
  aliasSize  : out.keyInfo.aliasSize.toNat = keyAlias.length
  named      : out.rest.take keyAlias.length = keyAlias
  authIdSize : out.keyInfo.authIdSize.toNat = (authIdOf paramSet ps).length
  fits       : (authIdOf paramSet ps).length ≤ hksMaxKeyAuthIdLen
  authId     : slice out.rest keyAlias.length (authIdOf paramSet ps).length = authIdOf paramSet ps

variable {keyAlias : Bytes}

theorem Room.fill (halias : keyAlias.length ≤ hksMaxKeyAliasLen) (r : Room paramSet keyAlias ps out)
    (h : fillParam paramSet out p = .ok out') : Room paramSet keyAlias (ps ++ [p]) out' := by
  by_cases htag : p.tag = HksTag.keyAuthId
  case neg =>
    have hauth : authIdOf paramSet (ps ++ [p]) = authIdOf paramSet ps := by
      rw [authIdOf, lastParam, lastOf_append, if_neg htag, authIdOf, lastParam]
    rw [fillParam_field htag] at h
    cases h
    refine ⟨r.length, r.aliasSize, r.named, ?_, hauth ▸ r.fits, hauth ▸ r.authId⟩
    rw [hauth, ← r.authIdSize, setField]
    dsimp only
    rw [if_neg htag]
  case pos =>
    obtain ⟨hmax, hlen, rfl⟩ := fillParam_authId htag h
    have hauth : authIdOf paramSet (ps ++ [p]) = paramSet.blob p := by
      rw [authIdOf, lastParam, lastOf_append, if_pos htag, Option.elim_some]
    have hle : keyAlias.length ≤ out.rest.length := by
      rw [r.length]
      exact Nat.le_trans halias (by decide)
    have hroom : keyAlias.length + (paramSet.blob p).length ≤ out.rest.length := by
      rw [r.length, hlen]
      exact Nat.le_trans (Nat.add_le_add halias hmax) (by decide)
    have hsize : p.blobSize.toUInt8.toNat = p.blobSize.toNat := by
      rw [UInt32.toNat_toUInt8]
      exact Nat.mod_eq_of_lt (Nat.lt_of_le_of_lt hmax (by decide))
    refine ⟨?_, r.aliasSize, ?_, ?_, ?_, ?_⟩
    case refine_1 => exact (length_splice (r.aliasSize.symm ▸ hroom)).trans r.length
    case refine_2 =>
      dsimp only
      rw [r.aliasSize, take_splice (Nat.le_refl _) hle, r.named]
    case refine_3 =>
      rw [hauth, hlen, ← hsize, setField]
      dsimp only
      rw [if_pos htag]
    case refine_4 => rw [hauth, hlen]; exact hmax
    case refine_5 =>
      rw [hauth]
      dsimp only
      rw [r.aliasSize, slice_splice hle]

theorem fillBaseInfo_room (halias : keyAlias.length ≤ hksMaxKeyAliasLen) (r : Room paramSet keyAlias [] out)
    (h : fillBaseInfo paramSet out = .ok out') : Room paramSet keyAlias paramSet.params out' :=
  @foldlM_rounds _ _ _ paramSet.params _ _ _ (fun seen o => Room paramSet keyAlias seen o)
    (fun _ _ _ _ hr ht => hr.fill halias ht) r h

theorem Room.front (r : Room paramSet keyAlias ps out) :
    out.rest.take (out.keyInfo.aliasSize.toNat + out.keyInfo.authIdSize.toNat) = keyAlias ++ authIdOf paramSet ps := by
  rw [r.aliasSize, r.authIdSize, List.take_add, r.named]
  exact congrArg (keyAlias ++ ·) r.authId

end Fill

section Cipher

variable {env : LiteKeyEnv} {info : HksStoreKeyInfo} {front rest rawKey blob random : Bytes} {out : KeyOut}

-- Decryption undoes encryption.
def LiteKeyEnv.Inverts (env : LiteKeyEnv) : Prop :=
  ∀ {key usageSpec message cipher tag},
    env.encrypt key usageSpec message = .ok (cipher, tag) →
      ∃ text, env.decrypt key usageSpec tag cipher.val = .ok text ∧ text.val = message

theorem length_encode_keyInfo (info : HksStoreKeyInfo) : (HksStoreKeyInfo.codec.encode info).length = keyInfoSize :=
  HksStoreKeyInfo.codec.length_encode info

theorem storeKeyInfo_encode (info : HksStoreKeyInfo) (rest : Bytes) :
    storeKeyInfo (HksStoreKeyInfo.codec.encode info ++ rest) = info := by
  rw [storeKeyInfo, List.take_left' (length_encode_keyInfo info), HksStoreKeyInfo.codec.decode_encode]

theorem slice_aad (hfront : front.length = info.aliasSize.toNat + info.authIdSize.toNat) :
    slice (HksStoreKeyInfo.codec.encode info ++ front ++ rest) 2
        (keyInfoSize - 2 + info.aliasSize.toNat + info.authIdSize.toNat) =
      (HksStoreKeyInfo.codec.encode info ++ front).drop 2 := by
  have hlen : (HksStoreKeyInfo.codec.encode info ++ front).length =
      keyInfoSize + (info.aliasSize.toNat + info.authIdSize.toNat) := by
    rw [List.length_append, length_encode_keyInfo, hfront]
  have hdrop : ((HksStoreKeyInfo.codec.encode info ++ front).drop 2).length =
      keyInfoSize - 2 + info.aliasSize.toNat + info.authIdSize.toNat := by
    rw [List.length_drop, hlen, keyInfoSize]
    omega
  rw [slice, List.drop_append_of_le_length (by rw [hlen, keyInfoSize]; omega), List.take_left' hdrop]

-- The aad is what is in front of the encrypted key, whatever comes behind it.
theorem buildKeyBlobUsageSpec_front (hfront : front.length = info.aliasSize.toNat + info.authIdSize.toNat) :
    buildKeyBlobUsageSpec env (HksStoreKeyInfo.codec.encode info ++ front ++ rest) random =
      buildKeyBlobUsageSpec env (HksStoreKeyInfo.codec.encode info ++ front) random := by
  have hread (rest : Bytes) :
      (readAt (HksStoreKeyInfo.codec.encode info ++ front ++ rest) 2
        (keyInfoSize - 2 + info.aliasSize.toNat + info.authIdSize.toNat) : Except (Stop HksErrorCode) Bytes) =
        .ok ((HksStoreKeyInfo.codec.encode info ++ front).drop 2) := by
    refine readAt_eq_ok.mpr ⟨.inr ?_, slice_aad hfront⟩
    rw [List.length_append, List.length_append, length_encode_keyInfo, hfront, keyInfoSize]
    omega
  have hnil := hread []
  rw [List.append_nil] at hnil
  rw [buildKeyBlobUsageSpec, buildKeyBlobUsageSpec, storeKeyInfo_encode, List.append_assoc, storeKeyInfo_encode,
    ← List.append_assoc, hread, hnil]

-- A key blob with the key `rawKey` in it
structure Enclosed (env : LiteKeyEnv) (info : HksStoreKeyInfo) (front rawKey blob : Bytes) : Prop where
  length    : front.length = info.aliasSize.toNat + info.authIdSize.toNat
  valid     : hksIsKeyInfoLenInvalid info = false
  keySize   : info.keySize.toNat = rawKey.length + hksKeyBlobTagSize
  encrypted : ∃ kek usageSpec cipher tag, getDeriveMaterial env .kek info.random.val 32 = .ok kek ∧
    buildKeyBlobUsageSpec env (HksStoreKeyInfo.codec.encode info ++ front) info.random.val = .ok usageSpec ∧
    env.encrypt kek usageSpec rawKey = .ok (cipher, tag) ∧
    blob = HksStoreKeyInfo.codec.encode info ++ front ++ cipher.val ++ tag.val

theorem Enclosed.keyInfoLen (h : Enclosed env info front rawKey blob) :
    info.keyInfoLen.toNat = keyInfoSize + front.length + rawKey.length + hksKeyBlobTagSize := by
  have hlen := (hksIsKeyInfoLenInvalid_eq_false.mp h.valid).2.2.2
  rw [hlen, h.length, h.keySize]
  omega

theorem Enclosed.length_blob (h : Enclosed env info front rawKey blob) : blob.length = info.keyInfoLen.toNat := by
  obtain ⟨kek, usageSpec, cipher, tag, _, _, _, rfl⟩ := h.encrypted
  rw [h.keyInfoLen]
  simp only [List.length_append, length_encode_keyInfo, cipher.property, tag.property]

theorem Enclosed.storeKeyInfo (h : Enclosed env info front rawKey blob) : storeKeyInfo blob = info := by
  obtain ⟨kek, usageSpec, cipher, tag, _, _, _, rfl⟩ := h.encrypted
  rw [List.append_assoc, List.append_assoc, storeKeyInfo_encode]

theorem Enclosed.slice_front (h : Enclosed env info front rawKey blob) {i n : Nat} (hin : i + n ≤ front.length) :
    slice blob (keyInfoSize + i) n = slice front i n := by
  obtain ⟨kek, usageSpec, cipher, tag, _, _, _, rfl⟩ := h.encrypted
  rw [List.append_assoc, List.append_assoc, slice, ← List.drop_drop,
    List.drop_left' (length_encode_keyInfo info), List.drop_append_of_le_length (by omega),
    List.take_append_of_le_length (by rw [List.length_drop]; omega), slice]

theorem Enclosed.decryptKeyBlob (hinverts : LiteKeyEnv.Inverts env) (h : Enclosed env info front rawKey blob) :
    decryptKeyBlob env blob = .ok rawKey := by
  have hinfo := h.storeKeyInfo
  have hend := h.keyInfoLen
  have hsize := h.keySize
  obtain ⟨kek, usageSpec, cipher, tag, hkek, husage, hencrypt, rfl⟩ := h.encrypted
  obtain ⟨text, hdecrypt, htext⟩ := hinverts hencrypt
  have hpos : info.keyInfoLen.toNat - info.keySize.toNat = (HksStoreKeyInfo.codec.encode info ++ front).length := by
    rw [List.length_append, length_encode_keyInfo]
    omega
  have hcount : (info.keySize.toUInt32 - hksKeyBlobTagSize.toUInt32).toNat = cipher.val.length := by
    have hle : hksKeyBlobTagSize.toUInt32 ≤ info.keySize.toUInt32 := by
      rw [UInt32.le_iff_toNat_le, UInt16.toNat_toUInt32, hsize]
      exact Nat.le_add_left _ _
    rw [UInt32.toNat_sub_of_le _ _ hle, UInt16.toNat_toUInt32, hsize, cipher.property]
    exact Nat.add_sub_cancel _ _
  have hkey : (readAt (HksStoreKeyInfo.codec.encode info ++ front ++ cipher.val ++ tag.val)
      (info.keyInfoLen.toNat - info.keySize.toNat) (info.keySize.toUInt32 - hksKeyBlobTagSize.toUInt32).toNat :
        Except (Stop HksErrorCode) Bytes) = .ok cipher.val := by
    rw [hpos, hcount]
    refine readAt_eq_ok.mpr ⟨.inr ?_, ?_⟩
    case refine_1 =>
      simp only [List.length_append]
      omega
    case refine_2 => rw [List.append_assoc _ cipher.val, slice, List.drop_left, List.take_left]
  have htag : (readAt (HksStoreKeyInfo.codec.encode info ++ front ++ cipher.val ++ tag.val)
      (info.keyInfoLen.toNat - hksKeyBlobTagSize) hksKeyBlobTagSize : Except (Stop HksErrorCode) Bytes) =
        .ok tag.val := by
    have htagPos : info.keyInfoLen.toNat - hksKeyBlobTagSize =
        (HksStoreKeyInfo.codec.encode info ++ front ++ cipher.val).length := by
      simp only [List.length_append, length_encode_keyInfo, cipher.property]
      omega
    rw [htagPos]
    refine readAt_eq_ok.mpr ⟨.inr ?_, ?_⟩
    case refine_1 => exact Nat.le_of_eq (by rw [@List.length_append _ _ tag.val, tag.property])
    case refine_2 =>
      rw [slice, List.drop_left]
      exact List.take_of_length_le (Nat.le_of_eq tag.property)
  rw [KeyBlobLite.decryptKeyBlob, hinfo]
  dsimp only
  rw [hkek, List.append_assoc _ cipher.val, buildKeyBlobUsageSpec_front h.length, husage, ← List.append_assoc,
    hkey, htag]
  show (checked (env.decrypt kek usageSpec (.ofBytes _ tag.val) cipher.val) >>= _) = _
  rw [FixedBytes.ofBytes_val, hdecrypt]
  exact congrArg Except.ok htext

-- All fields but the random bytes are the same.
structure SameFields (info keyInfo : HksStoreKeyInfo) : Prop where
  eq : info = { keyInfo with random := info.random }

namespace SameFields

variable {keyInfo : HksStoreKeyInfo} (h : SameFields info keyInfo)
include h

theorem keyInfoLen : info.keyInfoLen = keyInfo.keyInfoLen := by rw [h.eq]

theorem keySize : info.keySize = keyInfo.keySize := by rw [h.eq]

theorem aliasSize : info.aliasSize = keyInfo.aliasSize := by rw [h.eq]

theorem authIdSize : info.authIdSize = keyInfo.authIdSize := by rw [h.eq]

theorem valid : hksIsKeyInfoLenInvalid info = hksIsKeyInfoLenInvalid keyInfo := by
  rw [hksIsKeyInfoLenInvalid, h.keyInfoLen, h.keySize, h.aliasSize, h.authIdSize, hksIsKeyInfoLenInvalid]

end SameFields

-- The structure that `EncryptKeyBlob` leaves, and what it puts behind it
theorem encryptKeyBlob_ok (h : encryptKeyBlob env rawKey out = .ok blob) :
    ∃ info kek usageSpec cipher tag, SameFields info out.keyInfo ∧
      getDeriveMaterial env .kek info.random.val 32 = .ok kek ∧
      buildKeyBlobUsageSpec env (HksStoreKeyInfo.codec.encode info ++ out.rest) info.random.val = .ok usageSpec ∧
      env.encrypt kek usageSpec rawKey = .ok (cipher, tag) ∧
      blob = splice (splice (HksStoreKeyInfo.codec.encode info ++ out.rest)
        (info.keyInfoLen.toNat - info.keySize.toNat) cipher.val) (info.keyInfoLen.toNat - hksKeyBlobTagSize)
          tag.val := by
  unfold encryptKeyBlob at h
  obtain ⟨random, hrandom, h⟩ := Except.bind_eq_ok.mp h
  obtain ⟨kek, hkek, h⟩ := Except.bind_eq_ok.mp h
  obtain ⟨usageSpec, husage, h⟩ := Except.bind_eq_ok.mp h
  obtain ⟨⟨cipher, tag⟩, hencrypt, h⟩ := Except.bind_eq_ok.mp h
  cases h
  exact ⟨{ out.keyInfo with random }, kek, usageSpec, cipher, tag, ⟨rfl⟩, checked_eq_ok.mp hkek, husage,
    checked_eq_ok.mp hencrypt, rfl⟩

-- The encrypted key and its tag are put behind the auth id, and there the key blob ends.
theorem take_splice_tag {a back cipher tag : Bytes} (h : cipher.length + tag.length ≤ back.length) :
    (splice (splice (a ++ back) a.length cipher) (a.length + cipher.length) tag).take
      (a.length + cipher.length + tag.length) = a ++ cipher ++ tag := by
  have hroom : a.length + cipher.length ≤ (a ++ back).length := by
    rw [List.length_append]
    omega
  rw [splice_append hroom, splice, List.take_left, ← List.append_assoc]
  refine List.take_left' ?_
  simp only [List.length_append]

theorem encryptKeyBlob_enclosed (h : encryptKeyBlob env rawKey out = .ok blob)
    (hvalid : hksIsKeyInfoLenInvalid out.keyInfo = false)
    (hsize : out.keyInfo.keySize.toNat = rawKey.length + hksKeyBlobTagSize)
    (hroom : out.keyInfo.keyInfoLen.toNat ≤ keyInfoSize + out.rest.length) :
    ∃ info, SameFields info out.keyInfo ∧
      Enclosed env info (out.rest.take (out.keyInfo.aliasSize.toNat + out.keyInfo.authIdSize.toNat)) rawKey
        (blob.take out.keyInfo.keyInfoLen.toNat) := by
  obtain ⟨info, kek, usageSpec, cipher, tag, hinfo, hkek, husage, hencrypt, rfl⟩ := encryptKeyBlob_ok h
  rw [← hinfo.valid] at hvalid
  rw [← hinfo.keySize] at hsize
  rw [← hinfo.keyInfoLen] at hroom ⊢
  rw [← hinfo.aliasSize, ← hinfo.authIdSize]
  have hend := (hksIsKeyInfoLenInvalid_eq_false.mp hvalid).2.2.2
  obtain ⟨front, back, hrest, hfront⟩ : ∃ front back, out.rest = front ++ back ∧
      front.length = info.aliasSize.toNat + info.authIdSize.toNat := by
    refine ⟨_, _, (List.take_append_drop (info.aliasSize.toNat + info.authIdSize.toNat) out.rest).symm, ?_⟩
    rw [List.length_take]
    omega
  rw [hrest, ← List.append_assoc] at husage
  rw [hrest, List.length_append] at hroom
  rw [hrest, List.take_left' hfront]
  refine ⟨info, hinfo, hfront, hvalid, hsize, kek, usageSpec, cipher, tag, hkek, ?_, hencrypt, ?_⟩
  case refine_1 => rw [← husage, buildKeyBlobUsageSpec_front hfront]
  case refine_2 =>
    have hlen : (HksStoreKeyInfo.codec.encode info ++ front).length = keyInfoSize + front.length := by
      rw [List.length_append, length_encode_keyInfo]
    have hcipher := cipher.property
    have htag := tag.property
    have hpos : info.keyInfoLen.toNat - info.keySize.toNat = (HksStoreKeyInfo.codec.encode info ++ front).length := by
      omega
    have htagPos : info.keyInfoLen.toNat - hksKeyBlobTagSize =
        (HksStoreKeyInfo.codec.encode info ++ front).length + cipher.val.length := by
      omega
    have hlast : info.keyInfoLen.toNat =
        (HksStoreKeyInfo.codec.encode info ++ front).length + cipher.val.length + tag.val.length := by
      omega
    rw [← List.append_assoc, hpos, htagPos, hlast]
    exact take_splice_tag (by omega)

end Cipher

section Build

variable {env : LiteKeyEnv} {keyAlias key blob : Bytes} {keyFlag : UInt8} {paramSet : HksParamSet}

-- The structure in the zeroed buffer
def blankKeyInfo (keyFlag : UInt8) (keyAlias key : Bytes) : HksStoreKeyInfo :=
  { storeKeyInfo (.replicate keyInfoSize 0) with
    flag      := keyFlag
    keySize   := (key.length + hksKeyBlobTagSize).toUInt16
    aliasSize := keyAlias.length.toUInt8 }

def blankKeyOut : KeyOut := ⟨storeKeyInfo (.replicate keyInfoSize 0), .replicate keyOutRoom 0⟩

theorem room_blank (halias : keyAlias.length ≤ hksMaxKeyAliasLen) :
    Room paramSet keyAlias [] ⟨blankKeyInfo keyFlag keyAlias key, splice (.replicate keyOutRoom 0) 0 keyAlias⟩ := by
  have hroom : 0 + keyAlias.length ≤ (List.replicate keyOutRoom (0 : UInt8)).length := by
    rw [List.length_replicate, Nat.zero_add]
    exact Nat.le_trans halias (by decide)
  refine ⟨?_, ?_, ?_, rfl, Nat.zero_le _, ?_⟩
  case refine_1 => exact (length_splice hroom).trans List.length_replicate
  case refine_2 => exact Nat.mod_eq_of_lt (Nat.lt_of_le_of_lt halias (by decide))
  case refine_3 => exact slice_splice (Nat.zero_le _)
  case refine_4 => exact List.take_zero

-- The parts of a key blob that was built
structure BuiltBlob (env : LiteKeyEnv) (keyAlias : Bytes) (keyFlag : UInt8) (key : Bytes) (paramSet : HksParamSet)
    (blob : Bytes) (info : HksStoreKeyInfo) : Prop where
  filled     : Filled paramSet.params (blankKeyInfo keyFlag keyAlias key) info
  aliasSize  : info.aliasSize.toNat = keyAlias.length
  authIdSize : info.authIdSize.toNat = (authIdOf paramSet paramSet.params).length
  enclosed   : Enclosed env info (keyAlias ++ authIdOf paramSet paramSet.params) key blob

theorem fillStoreKeyInfo_built (h : fillStoreKeyInfo env keyAlias keyFlag key paramSet blankKeyOut = .ok blob)
    (hne : keyAlias ≠ []) : ∃ info, BuiltBlob env keyAlias keyFlag key paramSet blob info := by
  unfold fillStoreKeyInfo at h
  split at h
  case isTrue => cases h
  case isFalse hsizes =>
    obtain ⟨out, hfill, h⟩ := Except.bind_eq_ok.mp h
    obtain ⟨bytes, hencrypt, h⟩ := Except.bind_eq_ok.mp h
    cases h
    have hfill := checked_eq_ok.mp hfill
    have hfilled : Filled paramSet.params (blankKeyInfo keyFlag keyAlias key) out.keyInfo := fillBaseInfo_filled hfill
    have hroom := fillBaseInfo_room (by omega) (room_blank (by omega)) hfill
    have halias := List.length_pos_iff.mpr hne
    have hmaxAlias : hksMaxKeyAliasLen = 64 := rfl
    have hmaxAuth : hksMaxKeyAuthIdLen = 64 := rfl
    have hmaxKey : hksMaxKeyLen = 1536 := rfl
    have hmaxMaterial : hksMaxKeyMaterialLen = 1572 := rfl
    have htag : hksKeyBlobTagSize = 16 := rfl
    have hinfoSize : keyInfoSize = 40 := rfl
    have htotal : keyOutRoom = 1700 := rfl
    have hfits := hroom.fits
    have hlength := hroom.length
    have hsize : out.keyInfo.keySize.toNat = key.length + hksKeyBlobTagSize := by
      rw [hfilled.keySize]
      exact Nat.mod_eq_of_lt (by omega)
    have hlen : (keyInfoSize + out.keyInfo.aliasSize.toNat + out.keyInfo.authIdSize.toNat +
        out.keyInfo.keySize.toNat).toUInt16.toNat =
          keyInfoSize + out.keyInfo.aliasSize.toNat + out.keyInfo.authIdSize.toNat + out.keyInfo.keySize.toNat := by
      rw [Nat.toUInt16, UInt16.toNat_ofNat', hroom.aliasSize, hroom.authIdSize, hsize]
      exact Nat.mod_eq_of_lt (by omega)
    obtain ⟨info, hinfo, henclosed⟩ := encryptKeyBlob_enclosed hencrypt
      (hksIsKeyInfoLenInvalid_eq_false.mpr ⟨by dsimp only; rw [hroom.aliasSize]; omega, by dsimp only; omega,
        by dsimp only; rw [hroom.authIdSize]; omega, hlen⟩) hsize
      (by dsimp only; rw [hlen, hroom.aliasSize, hroom.authIdSize, hsize]; omega)
    dsimp only at hinfo henclosed
    rw [hroom.front] at henclosed
    refine ⟨info, ?_, ?_, ?_, henclosed⟩
    case refine_1 =>
      rw [hinfo.eq]
      exact ⟨hfilled.keySize, hfilled.flag, hfilled.aliasSize, hfilled.keyAlg, hfilled.padding, hfilled.digest,
        hfilled.keyMode, hfilled.purpose, hfilled.keyLen, hfilled.role, hfilled.domain⟩
    case refine_2 => rw [hinfo.aliasSize, hroom.aliasSize]
    case refine_3 => rw [hinfo.authIdSize, hroom.authIdSize]

end Build

end Huks.KeyBlobLite
