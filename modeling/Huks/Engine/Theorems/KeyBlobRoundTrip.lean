import Huks.Engine.Theorems.KeyBlob

namespace Huks

open HksParamSet

variable (env : KeyBlobEnv)

-- Decryption undoes encryption.
def KeyBlobEnv.Inverts : Prop :=
  ∀ {key usageSpec message cipher tag},
    env.encrypt key usageSpec message = .ok (cipher, tag) →
      ∃ text, env.decrypt key usageSpec tag cipher.val = .ok text ∧ text.val = message

-- One use of the AEAD for a key blob; the key is named by what it was derived from.
structure KeyBlobSeal where
  alg       : UInt32
  salt      : Bytes
  usageSpec : HksUsageSpec
  tag       : FixedBytes hksKeyBlobTagSize
  cipher    : Bytes

-- A derived key opens nothing but what was sealed with it, and no other input of the KDF gives a
-- key that something was sealed with.
structure KeyBlobEnv.Authentic (seals : Set KeyBlobSeal) : Prop where
  opens  : ∀ {alg salt key usageSpec tag cipher text}, env.keyBlobKey alg salt = .ok key →
    env.decrypt key usageSpec tag cipher = .ok text →
      ∃ s ∈ seals, env.keyBlobKey s.alg s.salt = .ok key ∧ s.usageSpec = usageSpec ∧ s.tag = tag ∧
        s.cipher = cipher
  derive : ∀ s ∈ seals, ∀ {alg salt key}, env.keyBlobKey s.alg s.salt = .ok key →
    env.keyBlobKey alg salt = .ok key → alg = s.alg ∧ salt = s.salt

-- The header in front of the encrypted key, as it is read when a key blob is opened.
def keyBlobHeader (block : ParamBlock) : Except HksErrorCode HksKeyBlobInfo := do
  let (_, keyBlobParamSet) ← getAadAndParamSet env block
  let blob ← getBlob keyBlobParamSet HksTag.key
  return HksKeyBlobInfo.decode blob

-- A key blob and its parts: `aad` is all of it but the blob of the key param, and it is the aad
-- when the key is encrypted as well as when it is decrypted.
structure KeyBlobParts (keyFlag : UInt8) (key : Bytes) (paramSet : HksParamSet)
    (keyOut aad : Bytes) (info : HksKeyBlobInfo) (cipher : Bytes) : Prop where
  size    : keyOut.length ≤ maxKeySize.toNat
  length  : cipher.length = key.length
  bytes   : keyOut = aad ++ (info.encode ++ cipher)
  sealing : ∃ t p, buildKeyBlobWithKeyParam env key keyFlag paramSet = .ok t ∧
    hksGetParam t HksTag.key = .ok p ∧ keyBlobAad env t p = aad
  opening : ∀ block : ParamBlock, block.bytes = keyOut → ∃ u,
    getAadAndParamSet env block = .ok (aad, u) ∧
      u.contents = paramSet.contents ++
        contentsOf (coreServiceParams env (info.encode ++ cipher) keyFlag)
  node    : ∀ block : ParamBlock, block.bytes = keyOut → ∃ node,
    hksGenerateKeyNode env block = some node ∧ hksGetRawKey node.paramSet = .ok key ∧
      node.paramSet.contents = paramSet.contents ++
        contentsOf (coreServiceParams env (info.encode ++ key) keyFlag)

-- Nothing but the key blob was sealed under its salt.
def SealedOnce (seals : Set KeyBlobSeal) (aad : Bytes) (info : HksKeyBlobInfo) (cipher : Bytes) :
    Prop :=
  ∀ s ∈ seals, (∃ name, s.salt = name ++ info.salt.val) →
    s.usageSpec = buildKeyBlobUsageSpec aad info ∧ s.tag = info.tag ∧ s.cipher = cipher

variable {env}

theorem mallocOk_image {ps : List HksParam} {t : HksParamSet} (c : Carries ps t) :
    mallocOk t.paramSetSize.toNat := by
  have hmax := c.max
  rw [mallocOk_iff, c.size]
  simp only [buildSize, headerSize, maxSize] at *
  omega

namespace SealedKeyBlob

variable {ps qs : List HksParam} {key : Bytes} (b : SealedKeyBlob env ps qs key)

theorem fits_cipher : mallocOk (b.cipher.val.length + hksKeyBlobInfoSize) := by
  rw [b.cipher.property]
  exact b.fits

theorem word_cipher : KeyBlobWord b.word b.cipher.val := by
  rw [KeyBlobWord, b.cipher.property]
  exact b.word_eq

theorem image_eq : b.set.image env.addressOf env.padding =
    b.aad ++ (b.info.encode ++ b.cipher.val) := by
  have ⟨himage, _, _⟩ := b.carries.image_last env.addressOf env.padding
    (keyBlobParam_isBytes _ _ _) b.scalars
  rw [himage, b.aad_eq, keyBlobParam_bytes b.word_cipher]

theorem getAadAndParamSet {block : ParamBlock}
    (h : block.bytes = b.set.image env.addressOf env.padding) :
    ∃ u, getAadAndParamSet env block = .ok (b.aad, u) ∧
      Carries (ps ++ keyBlobParam b.word b.info b.cipher.val :: qs) u := by
  have ⟨u, hset, c⟩ := b.carries.hksGetParamSet_image env.addressOf env.padding env.memory h
  have ⟨p, offset, hget, hdata, hoffset, hsize, hblob⟩ :=
    getParam_key c b.word_cipher b.scalars b.unique
  have ⟨_, _, hend⟩ := c.image_last env.addressOf env.padding (keyBlobParam_isBytes _ _ _) b.scalars
  have hlen := length_keyInfo b.info b.cipher.val
  have hword : (keyBlobParam b.word b.info b.cipher.val).blobSize.toNat =
      hksKeyBlobInfoSize + b.cipher.val.length := b.word_cipher
  have hlast : isLastBlob u p := by
    simp only [isLastBlob, hdata, decide_eq_true_eq]
    omega
  have hblock : block.size.toNat = u.paramSetSize.toNat := by
    rw [← block.length_eq, h, b.carries.length_image, b.carries.size, c.size]
  have hbytes : block.bytes.take (u.paramSetSize - p.blobSize).toNat = b.aad := by
    have haad : (u.paramSetSize - p.blobSize).toNat = b.aad.length := by
      have haad := congrArg List.length (h.trans b.image_eq)
      rw [block.length_eq, hblock, List.length_append, hlen] at haad
      rw [UInt32.toNat_sub_of_le _ _ (UInt32.le_iff_toNat_le.mpr (by omega))]
      omega
    rw [h, b.image_eq, haad]
    exact List.take_left
  refine ⟨u, ?_, c⟩
  rw [Huks.getAadAndParamSet, hblock, if_neg (not_not.mpr (mallocOk_image c)), hset]
  simp only [bind, Except.bind, hget, hlast, not_true_eq_false, if_false, hbytes]
  rfl

theorem hksGenerateKeyNode (inverts : env.Inverts) {block : ParamBlock}
    (h : block.bytes = b.set.image env.addressOf env.padding)
    (hsize : b.set.paramSetSize ≤ maxKeySize) :
    ∃ node, hksGenerateKeyNode env block = some node ∧
      Carries (ps ++ keyBlobParam b.word b.info key :: qs) node.paramSet := by
  obtain ⟨u, haad, c⟩ := b.getAadAndParamSet h
  have hblock : block.size = b.set.paramSetSize := by
    rw [← UInt32.toNat_inj, ← block.length_eq, h, b.carries.length_image]
  have hcipher : b.cipher.val ≠ [] := by
    rw [ne_eq, ← List.length_eq_zero_iff, b.cipher.property, List.length_eq_zero_iff]
    exact b.nonempty
  have hderive := (c.getDeriveKey_eq b.carries rfl).trans b.derived
  obtain ⟨text, hdecrypt, htext⟩ := inverts b.encrypted
  have hopen : decryptKeyBlob env b.aad u =
      .ok (u.writeBlob HksTag.key (b.info.encode ++ key)) := by
    rw [decryptKeyBlob, encryptAndDecryptKeyBlob_eq c b.word_cipher b.scalars b.unique b.fits_cipher
      hcipher (by rw [b.cipher.property]; exact b.keySize), hderive]
    simp only [bind, Except.bind, hdecrypt, htext]
    rfl
  obtain ⟨c', _⟩ := Carries.writeKey env b.info c b.word_cipher b.scalars b.unique b.cipher.property.symm
  refine ⟨{ paramSet := u.writeBlob HksTag.key (b.info.encode ++ key) }, ?_, c'⟩
  rw [Huks.hksGenerateKeyNode, if_neg (by rw [hblock]; exact UInt32.not_lt.mpr hsize), haad]
  simp only [bind, Except.bind, hopen]

theorem parts (inverts : env.Inverts) {keyFlag : UInt8} {paramSet : HksParamSet}
    (b : SealedKeyBlob env (paramSet.entries ++ versionParams env keyFlag) [] key)
    (hsize : b.set.paramSetSize ≤ maxKeySize)
    (sealing : ∃ t p, buildKeyBlobWithKeyParam env key keyFlag paramSet = .ok t ∧
      hksGetParam t HksTag.key = .ok p ∧ keyBlobAad env t p = b.aad) :
    KeyBlobParts env keyFlag key paramSet (b.set.image env.addressOf env.padding) b.aad b.info
      b.cipher.val where
  size := by
    rw [b.carries.length_image]
    exact UInt32.le_iff_toNat_le.mp hsize
  length := b.cipher.property
  bytes := b.image_eq
  sealing := sealing
  opening block h := by
    have ⟨u, haad, c⟩ := b.getAadAndParamSet h
    refine ⟨u, haad, ?_⟩
    rw [c.contents, contentsOf_append, contentsOf_keyBlobParam b.word_cipher b.fits_cipher,
      ← contentsOf_append, List.append_assoc, ← coreServiceParams_eq, contentsOf_append,
      contentsOf_entries]
  node block h := by
    have ⟨node, hnode, c⟩ := b.hksGenerateKeyNode inverts h hsize
    refine ⟨node, hnode, hksGetRawKey_eq c b.word_eq b.scalars b.unique b.fits b.nonempty b.keySize, ?_⟩
    rw [c.contents, contentsOf_append, contentsOf_keyBlobParam b.word_eq b.fits,
      ← contentsOf_append, List.append_assoc, ← coreServiceParams_eq, contentsOf_append,
      contentsOf_entries]

theorem getSalt_ok {s : HksParamSet} {info : HksKeyBlobInfo} {salt : Bytes}
    (h : getSalt s info = .ok salt) : ∃ name, salt = name ++ info.salt.val := by
  rw [getSalt_value] at h
  have ⟨value, _, h⟩ := Except.bind_eq_ok.mp h
  cases value
  case scalar => cases h
  case blob name _ =>
    simp only [ParamValue.salt] at h
    split at h
    case isTrue => cases h
    case isFalse =>
      cases h
      exact ⟨name, rfl⟩

-- Two blobs with one salt that open are one: the AEAD covers the header and the aad of both.
theorem binding {seals : Set KeyBlobSeal} (authentic : env.Authentic seals)
    (once : SealedOnce seals b.aad b.info b.cipher.val) {block : ParamBlock} {node : HksKeyNode}
    {info : HksKeyBlobInfo} (hnode : Huks.hksGenerateKeyNode env block = some node)
    (hheader : keyBlobHeader env block = .ok info) (hsalt : info.salt = b.info.salt) :
    block.bytes = b.set.image env.addressOf env.padding := by
  unfold Huks.hksGenerateKeyNode at hnode
  split at hnode
  case isTrue => cases hnode
  case isFalse =>
    obtain ⟨⟨aad, u⟩, hopen, hheader⟩ := Except.bind_eq_ok.mp hheader
    obtain ⟨p, hget, hbytes, hlen⟩ := getAadAndParamSet_ok env hopen
    have hblob : getBlob u HksTag.key = .ok (u.blob p) := by
      rw [getBlob, hget]
      rfl
    simp only [hblob, bind, Except.bind, pure, Except.pure, Except.ok.injEq] at hheader
    simp only [hopen, bind, Except.bind] at hnode
    cases hdec : decryptKeyBlob env aad u
    case error e => simp [hdec] at hnode
    case ok v =>
      obtain ⟨hmin, hkeySize, key, text, hderive, hdecrypt⟩ := decryptKeyBlob_ok env hget hdec
      rw [hheader] at hkeySize hderive hdecrypt
      obtain ⟨salt, hget, hkey⟩ := (getDeriveKey_ok env).mp hderive
      obtain ⟨s, hs, hskey, hspec, htag, hcipher⟩ := authentic.opens hkey hdecrypt
      obtain ⟨_, hssalt⟩ := authentic.derive s hs hskey hkey
      obtain ⟨name, hname⟩ := getSalt_ok hget
      obtain ⟨hspec', htag', hcipher'⟩ := once s hs ⟨name, by rw [← hssalt, hname, hsalt]⟩
      have hspec : buildKeyBlobUsageSpec aad info = buildKeyBlobUsageSpec b.aad b.info :=
        hspec.symm.trans hspec'
      have haad : aad = b.aad := congrArg HksUsageSpec.aad hspec
      have hnonce : info.nonce = b.info.nonce := Subtype.ext (congrArg HksUsageSpec.iv hspec)
      have htag : info.tag = b.info.tag := htag.symm.trans htag'
      have hcipher : (u.blob p).drop hksKeyBlobInfoSize = b.cipher.val := hcipher.symm.trans hcipher'
      have hsize : info.keySize = b.info.keySize := by
        have := congrArg List.length hcipher
        rw [List.length_drop, hlen, hkeySize, b.cipher.property] at this
        rw [b.keySize, ← UInt32.toNat_inj, this, Nat.toUInt32, UInt32.toNat_ofNat']
        exact (Nat.mod_eq_of_lt (this ▸ info.keySize.toNat_lt)).symm
      have hinfo : info = b.info := by
        obtain ⟨_, _, _, _⟩ := info
        cases hsalt
        cases hnonce
        cases htag
        cases hsize
        rfl
      have hhead := @HksKeyBlobInfo.encode_decode (u.blob p) (by omega)
      rw [hheader, hinfo] at hhead
      rw [hbytes, b.image_eq, haad, hhead, ← hcipher, List.take_append_drop]

end SealedKeyBlob

-- A key blob opens to the key and the params it was built from, in order and followed by the core
-- params. If the AEAD and the KDF are sound, nothing else opens under its salt.
theorem keyBlob_roundTrip (env : KeyBlobEnv) (inverts : env.Inverts) {keyFlag : UInt8}
    {key keyOut : Bytes} {paramSet : HksParamSet} {keyOutSize : UInt32}
    (hsize : keyOutSize ≤ maxKeySize)
    (h : hksBuildKeyBlob env keyFlag key paramSet keyOutSize = .ok keyOut) :
    ∃ aad info cipher, KeyBlobParts env keyFlag key paramSet keyOut aad info cipher ∧
      ∀ seals, env.Authentic seals → SealedOnce seals aad info cipher →
        ∀ block node info', hksGenerateKeyNode env block = some node →
          keyBlobHeader env block = .ok info' → info'.salt = info.salt →
            block.bytes = keyOut ∧
            node.paramSet.contents = paramSet.contents ++
              contentsOf (coreServiceParams env (info.encode ++ key) keyFlag) := by
  have ⟨b, hkeyOut, hle, sealing⟩ := hksBuildKeyBlob_sealed env h
  subst hkeyOut
  have parts := b.parts inverts (UInt32.le_trans hle hsize) sealing
  refine ⟨b.aad, b.info, b.cipher.val, parts, ?_⟩
  intro seals authentic once block node info hnode hheader hsalt
  have hbytes := b.binding authentic once hnode hheader hsalt
  have ⟨node', hnode', _, hcontents⟩ := parts.node block hbytes
  cases hnode.symm.trans hnode'
  exact ⟨hbytes, hcontents⟩

-- Surroundings in which one key is sealed, for the process `a`, and nothing else.
section Fixed

def fixedSalt : Bytes := 97 :: .replicate 16 0

def fixedParamSet : HksParamSet :=
  ⟨0, [.ofUInt32 HksTag.algorithm HksKeyAlg.aes, .ofBytes HksTag.processName [97]], []⟩

def fixedInfo : HksKeyBlobInfo := ⟨.zero _, .ofBytes _ [3], .ofBytes _ [5], 1⟩

def bareKeyBlobEnv : KeyBlobEnv where
  hksChangeDeriveKeyAlgToHkdf := true
  hksKeyVersion := 3
  getMainKey    := .ok (.zero _)
  fillSalt      := .ok fixedInfo.salt
  fillNonce     := .ok fixedInfo.nonce
  deriveKey _ alg derParam :=
    if alg = HksKeyAlg.hkdf ∧ derParam.salt = fixedSalt then .ok (.ofBytes _ [1]) else .ok (.zero _)
  encrypt _ _ _   := .error .cryptoEngineError
  decrypt _ _ _ _ := .error .cryptoEngineError
  uninitialized := .zero _
  addressOf _   := 0x7f00
  memory _      := .null
  padding _     := 0

def fixedAad : Bytes :=
  let aad := do
    let paramSet ← buildKeyBlobWithKeyParam bareKeyBlobEnv [7] 2 fixedParamSet
    let keyParam ← hksGetParam paramSet HksTag.key
    return keyBlobAad bareKeyBlobEnv paramSet keyParam
  aad.toOption.getD []

def fixedSeal : KeyBlobSeal :=
  ⟨HksKeyAlg.hkdf, fixedSalt, buildKeyBlobUsageSpec fixedAad fixedInfo, fixedInfo.tag, [9]⟩

def fixedKeyBlobEnv : KeyBlobEnv := { bareKeyBlobEnv with
  encrypt := fun key usageSpec message =>
    if key = .ofBytes _ [1] ∧ usageSpec = fixedSeal.usageSpec ∧ message = [7] then
      .ok (.ofBytes _ [9], fixedSeal.tag)
    else
      .error .cryptoEngineError
  decrypt := fun key usageSpec tag message =>
    if key = .ofBytes _ [1] ∧ usageSpec = fixedSeal.usageSpec ∧ tag = fixedSeal.tag ∧
        message = fixedSeal.cipher then
      .ok (.ofBytes _ [7])
    else
      .error .cryptoEngineError }

theorem fixedKeyBlobEnv_inverts : fixedKeyBlobEnv.Inverts := by
  intro key usageSpec message cipher tag h
  simp only [fixedKeyBlobEnv] at h ⊢
  split at h
  case isFalse => cases h
  case isTrue hseal =>
    obtain ⟨hkey, hspec, rfl⟩ := hseal
    cases h
    rw [if_pos ⟨hkey, hspec, rfl, rfl⟩]
    exact ⟨_, rfl, rfl⟩

theorem fixedKeyBlobEnv_authentic : fixedKeyBlobEnv.Authentic {fixedSeal} where
  opens := by
    intro alg salt key usageSpec tag cipher text hkey h
    simp only [fixedKeyBlobEnv] at h
    split at h
    case isFalse => cases h
    case isTrue hseal =>
      obtain ⟨rfl, rfl, rfl, rfl⟩ := hseal
      exact ⟨fixedSeal, rfl, rfl, rfl, rfl, rfl⟩
  derive := by
    intro s hs alg salt key hkey hkey'
    cases hs
    cases hkey
    simp only [KeyBlobEnv.keyBlobKey, fixedKeyBlobEnv, bareKeyBlobEnv, bind, Except.bind] at hkey'
    split at hkey'
    case isTrue h => exact h
    case isFalse =>
      have := Subtype.ext_iff.mp (Except.ok.inj hkey')
      cases this

def fixedKeyBlob : Bytes := fixedAad ++ (fixedInfo.encode ++ [9])

theorem keyBlob_roundTrip_fixed :
    hksBuildKeyBlob fixedKeyBlobEnv 2 [7] fixedParamSet 2048 = .ok fixedKeyBlob ∧
    KeyBlobParts fixedKeyBlobEnv 2 [7] fixedParamSet fixedKeyBlob fixedAad fixedInfo [9] ∧
    ∀ block node info, hksGenerateKeyNode fixedKeyBlobEnv block = some node →
      keyBlobHeader fixedKeyBlobEnv block = .ok info → info.salt = fixedInfo.salt →
        block.bytes = fixedKeyBlob := by
  have h : hksBuildKeyBlob fixedKeyBlobEnv 2 [7] fixedParamSet 2048 = .ok fixedKeyBlob := by
    decide +kernel
  have ⟨aad, info, cipher, parts, binding⟩ :=
    keyBlob_roundTrip fixedKeyBlobEnv fixedKeyBlobEnv_inverts (by decide) h
  have hlen : cipher.length = 1 := parts.length
  have ⟨haad, htail⟩ := List.append_inj' parts.bytes (by
    rw [length_keyInfo, length_keyInfo, hlen]
    rfl)
  have ⟨hinfo, hcipher⟩ := List.append_inj htail (by
    rw [HksKeyBlobInfo.length_encode, HksKeyBlobInfo.length_encode])
  have hinfo : fixedInfo = info := by
    have := congrArg (HksKeyBlobInfo.decode <| · ++ []) hinfo
    simpa only [HksKeyBlobInfo.decode_encode_append] using this
  subst haad hinfo hcipher
  refine ⟨h, parts, fun block node info hnode hheader hsalt => ?_⟩
  have once : SealedOnce {fixedSeal} fixedAad fixedInfo [9] := by
    rintro s rfl _
    exact ⟨rfl, rfl, rfl⟩
  exact (binding _ fixedKeyBlobEnv_authentic once block node info hnode hheader hsalt).1

end Fixed

end Huks
