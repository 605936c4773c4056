import Huks.Common.Theorems.ParamImage
import Huks.Engine.KeyBlob

namespace Huks

open HksParamSet

namespace HksKeyBlobInfo

theorem length_encode (info : HksKeyBlobInfo) : info.encode.length = hksKeyBlobInfoSize := by
  simp only [encode, List.length_append, info.salt.property, info.nonce.property, info.tag.property,
    length_toBytes32]
  rfl

theorem decode_encode_append (info : HksKeyBlobInfo) (rest : Bytes) :
    decode (info.encode ++ rest) = info := by
  obtain ⟨salt, nonce, tag, keySize⟩ := info
  have hsalt : (salt.val ++ (nonce.val ++ (tag.val ++ toBytes32 keySize))).length = 48 :=
    length_encode ⟨salt, nonce, tag, keySize⟩
  have hnonce : (encode ⟨salt, nonce, tag, keySize⟩ ++ rest).drop 16 =
      nonce.val ++ (tag.val ++ toBytes32 keySize ++ rest) := by
    simp only [encode, List.append_assoc]
    exact List.drop_left' salt.property
  have htag : (encode ⟨salt, nonce, tag, keySize⟩ ++ rest).drop 28 =
      tag.val ++ (toBytes32 keySize ++ rest) := by
    rw [show 28 = 16 + 12 from rfl, ← List.drop_drop, hnonce, List.append_assoc]
    exact List.drop_left' nonce.property
  have hsize : (encode ⟨salt, nonce, tag, keySize⟩ ++ rest).drop 44 = toBytes32 keySize ++ rest := by
    rw [show 44 = 28 + 16 from rfl, ← List.drop_drop, htag]
    exact List.drop_left' tag.property
  simp only [decode, hnonce, htag, hsize, FixedBytes.ofBytes_append, le32_toBytes32_append]
  simp only [encode, List.append_assoc, FixedBytes.ofBytes_append]

-- A header that was read is found in the bytes again.
theorem encode_decode {bytes : Bytes} (h : hksKeyBlobInfoSize ≤ bytes.length) :
    (decode bytes).encode = bytes.take hksKeyBlobInfoSize := by
  simp only [hksKeyBlobInfoSize] at h
  have hfield (n k : Nat) (hk : k + n ≤ bytes.length) :
      (FixedBytes.ofBytes n (bytes.drop k)).val = (bytes.drop k).take n := by
    apply takeD_eq_take
    rw [List.length_drop]
    omega
  have hsize := toBytes32_le32_take (bytes.drop 44) (by rw [List.length_drop]; omega)
  have hsplit : bytes.take 48 = bytes.take 16 ++ ((bytes.drop 16).take 12 ++
      ((bytes.drop 28).take 16 ++ (bytes.drop 44).take 4)) := by
    rw [show 48 = 16 + (12 + (16 + 4)) from rfl, List.take_add, List.take_add, List.take_add,
      List.drop_drop, List.drop_drop]
  have hsalt := hfield 16 0 (by omega)
  rw [List.drop_zero] at hsalt
  simp only [encode, decode, hksKeyBlobDeriveSaltSize, hksKeyBlobNonceSize, hksKeyBlobTagSize,
    hksKeyBlobInfoSize, hsalt, hfield 12 16 (by omega), hfield 16 28 (by omega), hsize, hsplit]

end HksKeyBlobInfo

-- What the code of the key blob makes of the value of a param.
def ParamValue.salt (info : HksKeyBlobInfo) : ParamValue → Except HksErrorCode Bytes
  | .blob name =>
    if name.length > hksMaxProcessNameLen then
      .error .invalidArgument
    else
      .ok (name ++ info.salt.val)
  | .scalar _ => .error .invalidArgument

theorem getSalt_value (s : HksParamSet) (info : HksKeyBlobInfo) :
    getSalt s info = (hksGetParam s HksTag.processName).map s.value >>= ParamValue.salt info := by
  unfold getSalt
  cases h : hksGetParam s HksTag.processName
  case error => rfl
  case ok p =>
    obtain ⟨htag, hdata⟩ := getParam_value h
    have hb : p.isBytes := by
      rw [HksParam.isBytes, htag]
      rfl
    obtain ⟨bytes, hread⟩ := HksParam.read_isSome s.base s.area (hdata hb)
    have hlen := HksParam.length_read hread
    simp only [Except.map, HksParamSet.value, HksParam.value, hb, if_true, HksParamSet.blob, hread,
      Option.getD_some, bind, Except.bind, ParamValue.salt, hlen]
    rfl

variable (env : KeyBlobEnv)

-- The key that the main key gives for an algorithm and a salt.
def KeyBlobEnv.keyBlobKey (alg : UInt32) (salt : Bytes) : Except HksErrorCode (FixedBytes 32) := do
  let derParam := { salt, iterations := hksKeyBlobDeriveCnt, digestAlg := HksKeyDigest.sha256 }
  let mainKey ← env.getMainKey
  env.deriveKey mainKey alg derParam

theorem getDeriveKey_ok {s : HksParamSet} {info : HksKeyBlobInfo} {key : FixedBytes 32} :
    getDeriveKey env s info = .ok key ↔
      ∃ salt, getSalt s info = .ok salt ∧ env.keyBlobKey (getDeriveKeyAlg env s) salt = .ok key :=
  Except.bind_eq_ok

-- The derived key hangs on the process name, the key version and the salt only.
theorem getDeriveKey_congr {s t : HksParamSet} {info info' : HksKeyBlobInfo}
    (hname : (hksGetParam s HksTag.processName).map s.value =
      (hksGetParam t HksTag.processName).map t.value)
    (hversion : (hksGetParam s HksTag.keyVersion).map s.value =
      (hksGetParam t HksTag.keyVersion).map t.value)
    (hsalt : info.salt = info'.salt) : getDeriveKey env s info = getDeriveKey env t info' := by
  have halg : getDeriveKeyAlg env s = getDeriveKeyAlg env t := by
    rw [getDeriveKeyAlg, getUInt32_value s (by decide), hversion, ← getUInt32_value t (by decide)]
    rfl
  have hget : getSalt s info = getSalt t info' := by
    rw [getSalt_value, getSalt_value, hname]
    have : ParamValue.salt info = ParamValue.salt info' := by
      funext v
      cases v <;> simp [ParamValue.salt, hsalt]
    rw [this]
  rw [getDeriveKey, getDeriveKey, hget, halg]

-- The core params in front of the key.
def versionParams (keyFlag : UInt8) : List HksParam := (coreServiceParams env [] keyFlag).dropLast

theorem coreServiceParams_eq (keyInfo : Bytes) (keyFlag : UInt8) :
    coreServiceParams env keyInfo keyFlag =
      versionParams env keyFlag ++ [.ofBytes HksTag.key keyInfo] := rfl

theorem versionParams_tags (keyFlag : UInt8) :
    (versionParams env keyFlag).map HksParam.tag =
      [HksTag.keyVersion, HksTag.osVersion, HksTag.osPatchlevel, HksTag.keyFlag] := rfl

theorem versionParams_isBytes {keyFlag : UInt8} : Scalars (versionParams env keyFlag) := by
  intro p hp
  have htypes : [HksTag.keyVersion, HksTag.osVersion, HksTag.osPatchlevel, HksTag.keyFlag].all
      (getTagType · ≠ .bytes) := by decide
  have htag := of_decide_eq_true (List.all_eq_true.mp htypes p.tag
    (versionParams_tags env keyFlag ▸ List.mem_map_of_mem hp))
  simp [HksParam.isBytes, htag]

-- The param of a key behind its header. Only the low half of the word is the size of its blob.
def keyBlobParam (word : UInt64) (info : HksKeyBlobInfo) (text : Bytes) : HksParam :=
  ⟨HksTag.key, word, .ext (info.encode ++ text)⟩

def KeyBlobWord (word : UInt64) (text : Bytes) : Prop :=
  word.toUInt32.toNat = hksKeyBlobInfoSize + text.length

theorem keyBlobParam_isBytes (word : UInt64) (info : HksKeyBlobInfo) (text : Bytes) :
    (keyBlobParam word info text).isBytes := by
  have htype : getTagType HksTag.key = .bytes := by decide
  simp [keyBlobParam, HksParam.isBytes, htype]

-- A key blob and how it was sealed. No blob is behind that of the key, but other params may be.
structure SealedKeyBlob (ps qs : List HksParam) (key : Bytes) where
  set        : HksParamSet
  word       : UInt64
  info       : HksKeyBlobInfo
  cipher     : FixedBytes key.length
  derivedKey : FixedBytes 32
  aad        : Bytes
  carries    : Carries (ps ++ keyBlobParam word info cipher.val :: qs) set
  word_eq    : KeyBlobWord word key
  scalars    : Scalars qs
  unique     : HksTag.key ∉ ps.map HksParam.tag
  nonempty   : key ≠ []
  fits       : mallocOk (key.length + hksKeyBlobInfoSize)
  keySize    : info.keySize = key.length.toUInt32
  aad_eq     : aad = set.headImage env.addressOf env.padding ++ payloads ps
  derived    : getDeriveKey env set info = .ok derivedKey
  encrypted  : env.encrypt derivedKey (buildKeyBlobUsageSpec aad info) key = .ok (cipher, info.tag)

-- The salt and the nonce of a header are those that were drawn for it.
structure KeyBlobEnv.Drawn (info : HksKeyBlobInfo) : Prop where
  salt  : env.fillSalt = .ok info.salt
  nonce : env.fillNonce = .ok info.nonce

theorem initKeyBlobInfo_ok {key keyInfo : Bytes} (h : initKeyBlobInfo env key = .ok keyInfo) :
    mallocOk (key.length + hksKeyBlobInfoSize) ∧
      ∃ info : HksKeyBlobInfo, env.Drawn info ∧ info.keySize = key.length.toUInt32 ∧
        keyInfo = info.encode ++ key := by
  unfold initKeyBlobInfo at h
  split at h
  case isTrue => cases h
  case isFalse hm =>
    have ⟨salt, hsalt, h⟩ := Except.bind_eq_ok.mp h
    have ⟨nonce, hnonce, h⟩ := Except.bind_eq_ok.mp h
    cases h
    exact ⟨not_not.mp hm, _, ⟨hsalt, hnonce⟩, rfl, rfl⟩

theorem lastBlobNonempty_append {ps : List HksParam} {k : HksParam} (hb : k.isBytes)
    (hz : k.blobSize ≠ 0) : LastBlobNonempty (ps ++ [k]) := by
  intro p hp
  rw [List.filter_append, List.filter_singleton, hb] at hp
  simp only [cond_true, List.getLast?_append, List.getLast?_singleton, Option.some_or,
    Option.mem_def, Option.some.injEq] at hp
  exact hp ▸ hz

theorem length_keyInfo (info : HksKeyBlobInfo) (key : Bytes) :
    (info.encode ++ key).length = hksKeyBlobInfoSize + key.length := by
  rw [List.length_append, HksKeyBlobInfo.length_encode]

theorem keyBlobParam_bytes {word : UInt64} {info : HksKeyBlobInfo} {text : Bytes}
    (h : KeyBlobWord word text) : (keyBlobParam word info text).bytes = info.encode ++ text := by
  have hlen : (keyBlobParam word info text).blobSize.toNat = (info.encode ++ text).length :=
    Eq.trans h (length_keyInfo info text).symm
  simp only [HksParam.bytes, HksParam.read, keyBlobParam, Option.getD_some] at hlen ⊢
  rw [hlen]
  exact FixedBytes.takeD_length_self _

theorem length_lt_of_mallocOk {n : Nat} (h : mallocOk n) : n < 2 ^ 32 := by
  rw [mallocOk_iff] at h
  omega

theorem contentsOf_keyBlobParam {word : UInt64} {info : HksKeyBlobInfo} {text : Bytes}
    (h : KeyBlobWord word text) (fits : mallocOk (text.length + hksKeyBlobInfoSize)) :
    contentsOf [keyBlobParam word info text] =
      contentsOf [.ofBytes HksTag.key (info.encode ++ text)] := by
  have hlt := length_lt_of_mallocOk fits
  have hlen := length_keyInfo info text
  have hb : (HksParam.ofBytes HksTag.key (info.encode ++ text)).isBytes :=
    HksParam.isBytes_ofBytes (by decide) _
  have hvalue : (keyBlobParam word info text).value 0 [] =
      (HksParam.ofBytes HksTag.key (info.encode ++ text)).value 0 [] := by
    simp only [HksParam.value, keyBlobParam_isBytes, hb, if_true]
    exact congrArg _ ((keyBlobParam_bytes h).trans (HksParam.bytes_ofBytes (by omega)).symm)
  simp only [contentsOf, List.map_cons, List.map_nil, HksParam.content, hvalue]
  rfl

theorem buildKeyBlobWithKeyParam_fresh {key : Bytes} {keyFlag : UInt8} {paramSet t : HksParamSet}
    (h : buildKeyBlobWithKeyParam env key keyFlag paramSet = .ok t) {tag : UInt32}
    (htag : tag ∈ [HksTag.keyVersion, HksTag.osVersion, HksTag.osPatchlevel, HksTag.keyFlag,
      HksTag.key]) : tag ∉ paramSet.entries.map HksParam.tag := by
  have ⟨s, hadd, h⟩ := Except.bind_eq_ok.mp h
  have ⟨keyInfo, _, h⟩ := Except.bind_eq_ok.mp h
  have ⟨_, hcore, _⟩ := Except.bind_eq_ok.mp h
  have ⟨⟨⟩, htags, _⟩ := Except.bind_eq_ok.mp hcore
  have hfresh := hksCheckIsTagAlreadyExist_ok htags
  have hparams : s.params = paramSet.entries := (Accumulated.init.add hadd).params
  rw [hparams] at hfresh
  intro hmem
  have ⟨p, hp, hptag⟩ := List.mem_map.mp hmem
  exact hfresh p hp (hptag ▸ htag)

-- What is there before the key is encrypted.
theorem buildKeyBlobWithKeyParam_ok {key : Bytes} {keyFlag : UInt8} {paramSet t : HksParamSet}
    (h : buildKeyBlobWithKeyParam env key keyFlag paramSet = .ok t) :
    mallocOk (key.length + hksKeyBlobInfoSize) ∧
      HksTag.key ∉ (paramSet.entries ++ versionParams env keyFlag).map HksParam.tag ∧
      ∃ info : HksKeyBlobInfo, env.Drawn info ∧ info.keySize = key.length.toUInt32 ∧
        Carries (paramSet.entries ++ versionParams env keyFlag ++
          [.ofBytes HksTag.key (info.encode ++ key)]) t := by
  have hfresh := buildKeyBlobWithKeyParam_fresh env h (List.mem_append_right _ (.head _) :
    HksTag.key ∈ [HksTag.keyVersion, HksTag.osVersion, HksTag.osPatchlevel, HksTag.keyFlag] ++ _)
  have ⟨s, hadd, h⟩ := Except.bind_eq_ok.mp h
  have ⟨keyInfo, hinfo, h⟩ := Except.bind_eq_ok.mp h
  have ⟨u, hcore, hbuild⟩ := Except.bind_eq_ok.mp h
  have ⟨⟨⟩, _, hcore⟩ := Except.bind_eq_ok.mp hcore
  have ⟨hm, info, drawn, hsize, hkey⟩ := initKeyBlobInfo_ok env hinfo
  have hentries := Accumulated.init.add hadd
  have hall := hentries.add hcore
  have hlt := length_lt_of_mallocOk hm
  have hlen := length_keyInfo info key
  have hext := entries_external hadd
  rw [List.nil_append] at hentries hall
  rw [coreServiceParams_eq, ← List.append_assoc] at hall
  refine ⟨hm, ?_, info, drawn, hsize, ?_⟩
  · rw [List.map_append, List.mem_append, not_or]
    refine ⟨hfresh, ?_⟩
    rw [versionParams_tags]
    decide
  · rw [hkey] at hall
    have hb := HksParam.isBytes_ofBytes (by decide : getTagType HksTag.key = .bytes) (info.encode ++ key)
    have hz : (HksParam.ofBytes HksTag.key (info.encode ++ key)).blobSize ≠ 0 := by
      rw [ne_eq, ← UInt32.toNat_inj, HksParam.blobSize_ofBytes (by omega), hlen]
      simp [hksKeyBlobInfoSize]
    have hext : ∀ p ∈ paramSet.entries ++ versionParams env keyFlag ++
        [.ofBytes HksTag.key (info.encode ++ key)], p.External := by
      intro p hp
      rcases List.mem_append.mp hp with hp | hp
      · rcases List.mem_append.mp hp with hp | hp
        · exact hext p hp
        · intro hb
          rw [versionParams_isBytes env p hp] at hb
          cases hb
      · rw [List.mem_singleton.mp hp]
        exact fun _ => ⟨_, rfl⟩
    have ⟨hmax, b⟩ := hall.built hext (lastBlobNonempty_append hb hz) hbuild
    exact b.carries hext hmax

theorem hksGetRawKey_blob {t : HksParamSet} {p : HksParam} {info : HksKeyBlobInfo} {text : Bytes}
    (hget : hksGetParam t HksTag.key = .ok p) (hblob : t.blob p = info.encode ++ text)
    (nonempty : text ≠ []) (keySize : info.keySize = text.length.toUInt32)
    (fits : mallocOk (text.length + hksKeyBlobInfoSize)) : hksGetRawKey t = .ok text := by
  have hlt := length_lt_of_mallocOk fits
  have hpos := List.length_pos_iff.mpr nonempty
  have hkeySize : (le32 ((info.encode ++ text).drop 44)).toNat = text.length := by
    have hinfo := HksKeyBlobInfo.decode_encode_append info text
    have hfield := congrArg HksKeyBlobInfo.keySize hinfo
    rw [show le32 ((info.encode ++ text).drop 44) = info.keySize from hfield, keySize, Nat.toUInt32,
      UInt32.toNat_ofNat']
    omega
  have hmalloc : mallocOk text.length := by
    rw [mallocOk_iff] at *
    omega
  rw [hksGetRawKey, hget]
  simp only [bind, Except.bind]
  rw [hblob, length_keyInfo, hkeySize, Nat.add_sub_cancel_left, if_neg (by omega),
    if_neg (not_not.mpr rfl), if_pos hmalloc, List.drop_left' info.length_encode]

theorem hksGetRawKey_congr {s t : HksParamSet} (h : getBlob s HksTag.key = getBlob t HksTag.key) :
    hksGetRawKey s = hksGetRawKey t := by
  have hbind (u : HksParamSet) : hksGetRawKey u = getBlob u HksTag.key >>= fun key =>
      if key.length ≤ hksKeyBlobInfoSize then
        .error .invalidKeyInfo
      else if key.length - hksKeyBlobInfoSize ≠ (le32 (key.drop 44)).toNat then
        .error .invalidKeyInfo
      else if mallocOk (key.length - hksKeyBlobInfoSize) then
        .ok (key.drop hksKeyBlobInfoSize)
      else
        .error .mallocFail := by
    rw [hksGetRawKey, getBlob]
    cases hksGetParam u HksTag.key <;> rfl
  rw [hbind, hbind, h]

section Cipher

variable {env} {ps qs : List HksParam} {word : UInt64} {info : HksKeyBlobInfo} {text : Bytes}
  {t : HksParamSet} (c : Carries (ps ++ keyBlobParam word info text :: qs) t)
  (hword : KeyBlobWord word text) (scalars : Scalars qs)
  (unique : HksTag.key ∉ ps.map HksParam.tag)
  (fits : mallocOk (text.length + hksKeyBlobInfoSize))

include c hword scalars unique

-- The key param of a set whose last blob is that of the key.
theorem getParam_key :
    ∃ p offset, hksGetParam t HksTag.key = .ok p ∧ p.data = .inSet offset ∧
      offset.toNat = t.base + blobTotal ps ∧
      p.blobSize.toNat = hksKeyBlobInfoSize + text.length ∧ t.blob p = info.encode ++ text := by
  have hsize : (keyBlobParam word info text).blobSize.toNat = hksKeyBlobInfoSize + text.length :=
    hword
  have hz : (keyBlobParam word info text).blobSize ≠ 0 := by
    rw [ne_eq, ← UInt32.toNat_inj, hsize]
    simp [hksKeyBlobInfoSize]
  have ⟨offset, hget, hoffset, hblob⟩ :=
    c.getParam_last (keyBlobParam_isBytes word info text) scalars hz unique
  rw [keyBlobParam_bytes hword] at hblob
  exact ⟨_, offset, hget, rfl, hoffset, hsize, hblob⟩

include fits

theorem encryptAndDecryptKeyBlob_eq (nonempty : text ≠ [])
    (keySize : info.keySize = text.length.toUInt32) (aad : Bytes) (isEncrypt : Bool) :
    encryptAndDecryptKeyBlob env aad t isEncrypt = do
      let derivedKey ← getDeriveKey env t info
      if isEncrypt then
        let (encKey, tag) ← env.encrypt derivedKey (buildKeyBlobUsageSpec aad info) text
        return t.writeBlob HksTag.key ({ info with tag }.encode ++ encKey.val)
      else
        let srcKey ← env.decrypt derivedKey (buildKeyBlobUsageSpec aad info) info.tag text
        return t.writeBlob HksTag.key (info.encode ++ srcKey.val) := by
  have ⟨p, offset, hget, _, _, hsize, hblob⟩ := getParam_key c hword scalars unique
  have hlt := length_lt_of_mallocOk fits
  have hpos := List.length_pos_iff.mpr nonempty
  have hkeySize : info.keySize.toNat = text.length := by
    rw [keySize, Nat.toUInt32, UInt32.toNat_ofNat']
    omega
  have hdrop : (info.encode ++ text).drop hksKeyBlobInfoSize = text :=
    List.drop_left' info.length_encode
  rw [encryptAndDecryptKeyBlob, hget]
  simp only [bind, Except.bind]
  rw [if_neg (by omega), hblob, HksKeyBlobInfo.decode_encode_append, hkeySize, hsize,
    Nat.add_sub_cancel_left, if_neg (not_not.mpr rfl), hdrop]

theorem hksGetRawKey_eq (nonempty : text ≠ []) (keySize : info.keySize = text.length.toUInt32) :
    hksGetRawKey t = .ok text := by
  have ⟨p, offset, hget, _, _, hsize, hblob⟩ := getParam_key c hword scalars unique
  exact hksGetRawKey_blob hget hblob nonempty keySize fits

end Cipher

section Sealing

variable {env} {ps qs : List HksParam} {word word' : UInt64} {info info' : HksKeyBlobInfo}
  {text text' : Bytes} {t t' : HksParamSet}

theorem Carries.getParam_other {k : HksParam} (c : Carries (ps ++ k :: qs) t) {tag : UInt32}
    (h : k.tag ≠ tag) : (hksGetParam t tag).map t.value = (contentsOf (ps ++ qs)).get tag := by
  rw [c.getParam, contentsOf_append, contentsOf_cons, contentsOf_append]
  exact Contents.get_insert h

-- The key and the header in front of it do not matter for the derived key, the salt apart.
theorem Carries.getDeriveKey_eq (c : Carries (ps ++ keyBlobParam word info text :: qs) t)
    (c' : Carries (ps ++ keyBlobParam word' info' text' :: qs) t') (hsalt : info.salt = info'.salt) :
    getDeriveKey env t info = getDeriveKey env t' info' := by
  refine getDeriveKey_congr env ?_ ?_ hsalt
  · have hne : HksTag.key ≠ HksTag.processName := by decide
    rw [c.getParam_other hne, c'.getParam_other hne]
  · have hne : HksTag.key ≠ HksTag.keyVersion := by decide
    rw [c.getParam_other hne, c'.getParam_other hne]

variable (env info') in
theorem Carries.writeKey (c : Carries (ps ++ keyBlobParam word info text :: qs) t)
    (hword : KeyBlobWord word text) (scalars : Scalars qs)
    (unique : HksTag.key ∉ ps.map HksParam.tag) (hlen : text'.length = text.length) :
    Carries (ps ++ keyBlobParam word info' text' :: qs)
        (t.writeBlob HksTag.key (info'.encode ++ text')) ∧
      (t.writeBlob HksTag.key (info'.encode ++ text')).headImage env.addressOf env.padding =
        t.headImage env.addressOf env.padding := by
  have hsize : (info'.encode ++ text').length = (keyBlobParam word info text).blobSize.toNat := by
    rw [length_keyInfo, hlen]
    exact hword.symm
  exact c.writeBlob_last env.addressOf env.padding (keyBlobParam_isBytes word info text) scalars
    unique hsize

variable (env) in
theorem keyBlobAad_eq (c : Carries (ps ++ keyBlobParam word info text :: qs) t)
    (hword : KeyBlobWord word text) (scalars : Scalars qs) {p : HksParam}
    (hp : p.blobSize.toNat = hksKeyBlobInfoSize + text.length) :
    keyBlobAad env t p = t.headImage env.addressOf env.padding ++ payloads ps := by
  have ⟨himage, hlen, hsize⟩ := c.image_last env.addressOf env.padding
    (keyBlobParam_isBytes word info text) scalars
  have hword : (keyBlobParam word info text).blobSize.toNat = hksKeyBlobInfoSize + text.length :=
    hword
  have hsub : (t.paramSetSize - p.blobSize).toNat = t.base + blobTotal ps := by
    rw [UInt32.toNat_sub_of_le _ _ (UInt32.le_iff_toNat_le.mpr (by omega))]
    omega
  rw [keyBlobAad, himage, hsub]
  exact List.take_left' hlen

end Sealing

-- What `HksBuildKeyBlob2` makes of a set with the key in the clear.
theorem hksBuildKeyBlob2_sealed {ps qs : List HksParam} {word : UInt64} {info : HksKeyBlobInfo}
    {s : HksParamSet} {key keyOut : Bytes} {keyOutSize : UInt32}
    (c : Carries (ps ++ keyBlobParam word info key :: qs) s) (hword : KeyBlobWord word key)
    (scalars : Scalars qs) (unique : HksTag.key ∉ ps.map HksParam.tag)
    (fits : mallocOk (key.length + hksKeyBlobInfoSize))
    (keySize : info.keySize = key.length.toUInt32) (h : hksBuildKeyBlob2 env s keyOutSize = .ok keyOut) :
    ∃ b : SealedKeyBlob env ps qs key,
      keyOut = b.set.image env.addressOf env.padding ∧ b.set.paramSetSize ≤ keyOutSize ∧
      ∃ p, hksGetParam s HksTag.key = .ok p ∧ keyBlobAad env s p = b.aad := by
  have ⟨p, hget, h⟩ := Except.bind_eq_ok.mp h
  have ⟨t, hencrypt, h⟩ := Except.bind_eq_ok.mp h
  have ⟨q, _, hget', _, _, hq, _⟩ := getParam_key c hword scalars unique
  cases hget.symm.trans hget'
  have nonempty : key ≠ [] := by
    rintro rfl
    rw [encryptKeyBlob, encryptAndDecryptKeyBlob, hget] at hencrypt
    simp only [bind, Except.bind] at hencrypt
    rw [if_pos (by rw [hq]; rfl)] at hencrypt
    cases hencrypt
  rw [encryptKeyBlob, encryptAndDecryptKeyBlob_eq c hword scalars unique fits nonempty keySize] at hencrypt
  have ⟨derivedKey, hderive, hencrypt⟩ := Except.bind_eq_ok.mp hencrypt
  have ⟨⟨cipher, tag⟩, hcipher, hencrypt⟩ := Except.bind_eq_ok.mp hencrypt
  cases hencrypt
  have ⟨c', hhead⟩ := Carries.writeKey env { info with tag } c hword scalars unique cipher.property
  have haad := keyBlobAad_eq env c hword scalars hq
  split at h
  case isTrue => cases h
  case isFalse hsize =>
    cases h
    refine ⟨⟨_, word, { info with tag }, cipher, derivedKey, keyBlobAad env s p, c', hword,
      scalars, unique, nonempty, fits, keySize, by rw [haad, hhead], ?_, hcipher⟩, rfl, ?_, p, hget, rfl⟩
    · rw [← hderive]
      exact c'.getDeriveKey_eq c rfl
    · exact UInt32.not_lt.mp fun hlt => hsize (.inr hlt)

theorem hksBuildKeyBlob_sealed {keyFlag : UInt8} {key keyOut : Bytes} {paramSet : HksParamSet}
    {keyOutSize : UInt32} (h : hksBuildKeyBlob env keyFlag key paramSet keyOutSize = .ok keyOut) :
    ∃ b : SealedKeyBlob env (paramSet.entries ++ versionParams env keyFlag) [] key,
      keyOut = b.set.image env.addressOf env.padding ∧ b.set.paramSetSize ≤ keyOutSize ∧
      ∃ s p, buildKeyBlobWithKeyParam env key keyFlag paramSet = .ok s ∧
        hksGetParam s HksTag.key = .ok p ∧ keyBlobAad env s p = b.aad := by
  have ⟨s, hbuild, h⟩ := Except.bind_eq_ok.mp h
  have ⟨fits, unique, info, _, keySize, c⟩ := buildKeyBlobWithKeyParam_ok env hbuild
  have hlt := length_lt_of_mallocOk fits
  have hlen := length_keyInfo info key
  have hword : (HksParam.ofBytes HksTag.key (info.encode ++ key)).blobSize.toNat =
      hksKeyBlobInfoSize + key.length := by
    rw [HksParam.blobSize_ofBytes (by omega), hlen]
  have ⟨b, hkeyOut, hsize, p, hget, haad⟩ :=
    hksBuildKeyBlob2_sealed env c hword (fun _ h => nomatch h) unique fits keySize h
  exact ⟨b, hkeyOut, hsize, s, p, hbuild, hget, haad⟩

-- What `GetAadAndParamSet` accepts is the aad and, behind it, the blob of the key param.
theorem getAadAndParamSet_ok {block : ParamBlock} {aad : Bytes} {u : HksParamSet}
    (h : getAadAndParamSet env block = .ok (aad, u)) :
    ∃ p, hksGetParam u HksTag.key = .ok p ∧ block.bytes = aad ++ u.blob p ∧
      (u.blob p).length = p.blobSize.toNat := by
  unfold getAadAndParamSet at h
  split at h
  case isTrue => cases h
  case isFalse =>
    obtain ⟨u', hset, h⟩ := Except.bind_eq_ok.mp h
    obtain ⟨p, hget, h⟩ := Except.bind_eq_ok.mp h
    split at h
    case isTrue => cases h
    case isFalse hlast =>
      cases h
      obtain ⟨holds, _, _⟩ := (hksGetParamSet_block env.memory block).1 u (.inl hset)
      obtain ⟨_, hfresh⟩ := (block.hksGetParamSet_iff env.memory).mp hset
      obtain ⟨_, _, hu⟩ := hksFreshParamSet_iff.mp hfresh
      obtain ⟨htag, hdata⟩ := getParam_value hget
      have hb : p.isBytes := by
        rw [HksParam.isBytes, htag]
        rfl
      have hmem : p ∈ u.blobs := by
        refine List.mem_filter.mpr ⟨?_, hb⟩
        exact hksGetParam_mem hget
      obtain ⟨offset, hoffset⟩ := holds.inSet p hmem
      obtain ⟨hbase, _, _⟩ := holds.within p hmem
      have harea : u.area = block.bytes.drop u.base := by
        rw [hu, base_relocated, ParamBlock.base_paramSet]
        rfl
      have hend : offset.toNat + p.blobSize.toNat = block.size.toNat := by
        simpa [isLastBlob, hoffset, holds.size] using hlast
      simp only [HksParam.span, hoffset] at hbase
      have hlen := block.length_eq
      have hblob : u.blob p = block.bytes.drop offset.toNat := by
        simp only [HksParamSet.blob, HksParam.read, hoffset, Option.getD_some]
        rw [harea, List.drop_drop, Nat.add_sub_cancel' hbase]
        have hdrop : (block.bytes.drop offset.toNat).length = p.blobSize.toNat := by
          rw [List.length_drop]
          omega
        rw [← hdrop]
        exact FixedBytes.takeD_length_self _
      have haad : (u.paramSetSize - p.blobSize).toNat = offset.toNat := by
        rw [holds.size, UInt32.toNat_sub_of_le _ _ (UInt32.le_iff_toNat_le.mpr (by omega))]
        omega
      refine ⟨p, hget, ?_, ?_⟩
      · rw [haad, hblob, List.take_append_drop]
      · rw [hblob, List.length_drop]
        omega

theorem decryptKeyBlob_writes {env : KeyBlobEnv} {aad : Bytes} {u v : HksParamSet}
    (h : decryptKeyBlob env aad u = .ok v) : ∃ bytes, v = u.writeBlob HksTag.key bytes := by
  have ⟨p, hget, h⟩ := Except.bind_eq_ok.mp h
  split at h
  case isTrue => cases h
  case isFalse =>
    simp only at h
    split at h
    case isTrue => cases h
    case isFalse =>
      have ⟨_, _, h⟩ := Except.bind_eq_ok.mp h
      have ⟨_, _, h⟩ := Except.bind_eq_ok.mp h
      cases h
      exact ⟨_, rfl⟩

theorem decryptKeyBlob_ok {aad : Bytes} {u v : HksParamSet} {p : HksParam}
    (hget : hksGetParam u HksTag.key = .ok p) (h : decryptKeyBlob env aad u = .ok v) :
    hksKeyBlobInfoSize < p.blobSize.toNat ∧
      p.blobSize.toNat - hksKeyBlobInfoSize = (HksKeyBlobInfo.decode (u.blob p)).keySize.toNat ∧
      ∃ derivedKey text, getDeriveKey env u (HksKeyBlobInfo.decode (u.blob p)) = .ok derivedKey ∧
        env.decrypt derivedKey (buildKeyBlobUsageSpec aad (HksKeyBlobInfo.decode (u.blob p)))
          (HksKeyBlobInfo.decode (u.blob p)).tag ((u.blob p).drop hksKeyBlobInfoSize) = .ok text := by
  rw [decryptKeyBlob, encryptAndDecryptKeyBlob, hget] at h
  simp only [bind, Except.bind] at h
  split at h
  case isTrue => cases h
  case isFalse hmin =>
    split at h
    case isTrue => cases h
    case isFalse hsize =>
      have ⟨derivedKey, hderive, h⟩ := Except.bind_eq_ok.mp h
      have ⟨text, hdecrypt, _⟩ := Except.bind_eq_ok.mp h
      exact ⟨by omega, not_not.mp hsize, derivedKey, text, hderive, hdecrypt⟩

end Huks
