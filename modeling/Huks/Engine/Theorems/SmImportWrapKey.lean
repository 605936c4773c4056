import Huks.Common.Theorems.WrappedData
import Huks.Engine.SmImportWrapKey
import Huks.Engine.Theorems.OneStage

namespace Huks

open Except (bind_eq_ok)

namespace SmImport

variable {env : WrapEnv} {crypto : SmCrypto} {wrapped : Bytes} {offset offset' : Nat}
variable {dataParams dataParams' : HksSmWrappedKeyDataBlob} {key out : Bytes}

theorem cryptoAnswer_eq_ok {α : Type} {answer : Option α} {a : α} :
    cryptoAnswer answer = .ok a ↔ answer = some a := by
  cases answer <;> simp [cryptoAnswer]

-- The HMAC is computed over the cipher text and compared with the first bytes of the part.
theorem compareWrapKeyHmac_ok
    (h : compareWrapKeyHmac crypto wrapped dataParams offset = .ok (out, offset')) :
    ∃ mac digest, wrappedBlob wrapped offset = .ok mac ∧ wrappedBlob wrapped (offset + 1) = .ok out ∧
      crypto.hmacSm3 dataParams.deriveKekData2 out = some digest ∧
      hksDigestSm3Len ≤ mac.length ∧ mac.take digest.length = digest ∧ offset' = offset + 2 := by
  have ⟨mac, hmac, h⟩ := bind_eq_ok.mp h
  have ⟨kEncData, hkEncData, h⟩ := bind_eq_ok.mp h
  have ⟨_, _, h⟩ := bind_eq_ok.mp h
  have ⟨digest, hdigest, h⟩ := bind_eq_ok.mp h
  rw [hksCryptoHalHmac] at hdigest
  split at hdigest
  case isTrue => nomatch hdigest
  case isFalse hcheck =>
    split at h
    case isTrue => nomatch h
    case isFalse hcmp =>
      cases h
      exact ⟨mac, digest, hmac, hkEncData, cryptoAnswer_eq_ok.mp hdigest, by grind,
        not_not.mp hcmp, rfl⟩

theorem subPaddingPlaintext_ok {srcData : Bytes} {subLength : Nat}
    (h : subPaddingPlaintext srcData subLength = .ok out) : out = srcData.take subLength := by
  have ⟨_, _, h⟩ := bind_eq_ok.mp h
  cases h
  rfl

theorem hksOpensslSm4Decrypt_ok {iv message : Bytes} {size n : Nat}
    (h : hksOpensslSm4Decrypt env crypto key iv message size = .ok (out, n)) :
    ∃ plainText rest : Bytes, crypto.sm4CbcDecrypt key iv message = some plainText ∧
      out = plainText ++ rest ∧ size ≤ out.length := by
  have ⟨_, _, h⟩ := bind_eq_ok.mp h
  split at h
  case isTrue => nomatch h
  case isFalse =>
    have ⟨plainText, hplain, h⟩ := bind_eq_ok.mp h
    cases h
    refine ⟨plainText, _, cryptoAnswer_eq_ok.mp hplain, rfl, ?_⟩
    rw [List.length_append, List.length_drop, (env.fresh size).property]
    omega

-- The copy is the plaintext only where the declared size is its length.
theorem take_append_eq_iff {plainText rest : Bytes} {size : Nat}
    (h : size ≤ (plainText ++ rest).length) :
    (plainText ++ rest).take size = plainText ↔ size = plainText.length := by
  constructor
  case mp =>
    intro htake
    have hlen := congrArg List.length htake
    rwa [List.length_take, Nat.min_eq_left h] at hlen
  case mpr =>
    rintro rfl
    exact List.take_left

theorem decryptImportedSmKey_ok {kEncData : Bytes}
    (h : decryptImportedSmKey env crypto wrapped dataParams kEncData offset =
      .ok (dataParams', offset')) :
    ∃ iv declared plainText, wrappedBlob wrapped offset = .ok iv ∧
      getDataLenFromWrappedData wrapped (offset + 1) = .ok declared ∧
      crypto.sm4CbcDecrypt dataParams.deriveKekData1 iv kEncData = some plainText ∧
      (dataParams'.originKey = plainText ↔ declared.toNat = plainText.length) ∧
      dataParams' = { dataParams with originKey := dataParams'.originKey } := by
  have ⟨iv, hiv, h⟩ := bind_eq_ok.mp h
  have ⟨declared, hdeclared, h⟩ := bind_eq_ok.mp h
  have ⟨_, _, h⟩ := bind_eq_ok.mp h
  have ⟨(buffer, _), hbuffer, h⟩ := bind_eq_ok.mp h
  have ⟨originKey, horigin, h⟩ := bind_eq_ok.mp h
  have ⟨plainText, rest, hplain, hout, hsize⟩ := hksOpensslSm4Decrypt_ok hbuffer
  cases h
  refine ⟨iv, declared, plainText, hiv, hdeclared, hplain, ?_, rfl⟩
  rw [subPaddingPlaintext_ok horigin]
  subst hout
  exact take_append_eq_iff (Nat.le_of_add_right_le hsize)

theorem deriveKeyByFactor_ok
    (h : deriveKeyByFactor crypto wrapped dataParams offset = .ok (dataParams', offset')) :
    ∃ factor1 factor2, wrappedBlob wrapped offset = .ok factor1 ∧
      wrappedBlob wrapped (offset + 1) = .ok factor2 ∧
      deriveKeyBySm3 crypto dataParams.kekData factor1 = .ok dataParams'.deriveKekData1 ∧
      deriveKeyBySm3 crypto dataParams.kekData factor2 = .ok dataParams'.deriveKekData2 ∧
      offset' = offset + 2 := by
  have ⟨factor1, hfactor1, h⟩ := bind_eq_ok.mp h
  have ⟨factor2, hfactor2, h⟩ := bind_eq_ok.mp h
  have ⟨_, hkek1, h⟩ := bind_eq_ok.mp h
  have ⟨_, hkek2, h⟩ := bind_eq_ok.mp h
  cases h
  exact ⟨factor1, factor2, hfactor1, hfactor2, hkek1, hkek2, rfl⟩

-- The SM2 text in the part at `offset` opens to `plainText` with the unwrapping key of the node.
def Sm2Opens (crypto : SmCrypto) (paramSet nodeParamSet : HksParamSet) (wrapped : Bytes) (offset : Nat)
    (signLen : UInt32) (plainText : Bytes) : Prop :=
  ∃ part kekLen decryptParamSet rawKey usageSpec, wrappedBlob wrapped offset = .ok part ∧
    getDataLenFromWrappedData wrapped (offset + 1) = .ok kekLen ∧
    getSm2DecryptParamSet paramSet = .ok decryptParamSet ∧ hksGetRawKey nodeParamSet = .ok rawKey ∧
    hksBuildCipherUsageSpec decryptParamSet = .ok usageSpec ∧
    crypto.sm2Decrypt rawKey usageSpec part (kekLen + signLen).toNat = some plainText

theorem Sm2Opens.unique {paramSet nodeParamSet : HksParamSet} {signLen : UInt32} {plainText plainText' : Bytes}
    (h : Sm2Opens crypto paramSet nodeParamSet wrapped offset signLen plainText)
    (h' : Sm2Opens crypto paramSet nodeParamSet wrapped offset signLen plainText') : plainText = plainText' := by
  obtain ⟨_, _, _, _, _, hpart, hlen, hset, hraw, hspec, hplain⟩ := h
  obtain ⟨_, _, _, _, _, hpart', hlen', hset', hraw', hspec', hplain'⟩ := h'
  cases hpart.symm.trans hpart'
  cases hlen.symm.trans hlen'
  cases hset.symm.trans hset'
  cases hraw.symm.trans hraw'
  cases hspec.symm.trans hspec'
  exact Option.some.inj (hplain.symm.trans hplain')

theorem decryptKekWithSm2_ok {paramSet nodeParamSet : HksParamSet}
    (h : decryptKekWithSm2 crypto wrapped paramSet nodeParamSet dataParams offset =
      .ok (dataParams', offset')) :
    ∃ plainText, Sm2Opens crypto paramSet nodeParamSet wrapped offset dataParams.signatureDataLength plainText ∧
      dataParams' = (if dataParams.signatureDataLength = 0 then { dataParams with kekData := plainText }
        else { dataParams with kekAndSignData := plainText }) ∧ offset' = offset + 2 := by
  have ⟨part, hpart, h⟩ := bind_eq_ok.mp h
  have ⟨kekLen, hlen, h⟩ := bind_eq_ok.mp h
  have ⟨_, _, h⟩ := bind_eq_ok.mp h
  have ⟨decryptParamSet, hset, h⟩ := bind_eq_ok.mp h
  have ⟨rawKey, hraw, h⟩ := bind_eq_ok.mp h
  have ⟨usageSpec, hspec, h⟩ := bind_eq_ok.mp h
  have ⟨_, _, h⟩ := bind_eq_ok.mp h
  have ⟨plainText, hplain, h⟩ := bind_eq_ok.mp h
  refine ⟨plainText, ⟨part, kekLen, decryptParamSet, rawKey, usageSpec, hpart, hlen, hset, hraw, hspec,
    cryptoAnswer_eq_ok.mp hplain⟩, ?_⟩
  split at h
  case isTrue hzero => cases h; exact ⟨(if_pos hzero).symm, rfl⟩
  case isFalse hzero => cases h; exact ⟨(if_neg hzero).symm, rfl⟩

theorem getPublicKeyAndSignDataLength_ok {nodeParamSet : HksParamSet}
    (h : getPublicKeyAndSignDataLength env wrapped nodeParamSet {} offset = .ok (dataParams', offset')) :
    getDataLenFromWrappedData wrapped (offset + 1) = .ok dataParams'.signatureDataLength ∧
      dataParams'.kekAndSignData = [] ∧ offset' = offset + 2 := by
  have ⟨_, _, h⟩ := bind_eq_ok.mp h
  have ⟨_, hsign, h⟩ := bind_eq_ok.mp h
  have ⟨_, _, h⟩ := bind_eq_ok.mp h
  cases h
  exact ⟨hsign, rfl, rfl⟩

-- There is no empty key encryption key, so the signature is there, and it ends the text.
theorem splitKekAndSignData_ok (h : splitKekAndSignData dataParams = .ok dataParams') :
    dataParams.kekAndSignData ≠ [] ∧ dataParams'.kekData ++ dataParams'.signData = dataParams.kekAndSignData ∧
      dataParams'.signData.length = dataParams.signatureDataLength.toNat := by
  rw [splitKekAndSignData] at h
  split at h
  case isTrue => nomatch h
  case isFalse hlen =>
    have ⟨_, hmalloc, h⟩ := bind_eq_ok.mp h
    have hsplit : dataParams' = { dataParams with
        kekData  := dataParams.kekAndSignData.take
          (dataParams.kekAndSignData.length - dataParams.signatureDataLength.toNat)
        signData := dataParams.kekAndSignData.drop
          (dataParams.kekAndSignData.length - dataParams.signatureDataLength.toNat) } := by
      split at h
      case isTrue => have ⟨_, _, h⟩ := bind_eq_ok.mp h; exact (Except.ok.inj h).symm
      case isFalse => exact (Except.ok.inj h).symm
    subst hsplit
    refine ⟨fun hnil => ?_, List.take_append_drop _ _, ?_⟩
    case refine_1 =>
      simp only [hnil, List.length_nil, Nat.zero_sub] at hmalloc
      cases hmalloc
    case refine_2 =>
      rw [List.length_drop]
      omega

end SmImport

open SmImport

-- What a sender puts into wrapped data: the key encryption key with a signature, the factors of the two
-- keys that are derived from it, the key, which the first of them encrypts, and the size it declares.
@[ext]
structure SmSender where
  kek      : Bytes
  sign     : Bytes
  factor1  : Bytes
  factor2  : Bytes
  iv       : Bytes
  key      : Bytes
  declared : UInt32

-- The part with the wrapped key encryption key. With a signature the public key of the peer and the
-- length of the signature lie in front of it.
def smKekPart (suite : UInt32) : Nat :=
  if suite = HksUnwrapSuite.sm2Sm4128CbcPkcs7WithVerifyDigSm3 then 2 else 0

def smSignLen (suite : UInt32) (wrapped : Bytes) : Except HksErrorCode UInt32 :=
  if suite = HksUnwrapSuite.sm2Sm4128CbcPkcs7WithVerifyDigSm3 then
    getDataLenFromWrappedData wrapped 1
  else
    return 0

-- What the library says of its digests and of SM4 with CBC and PKCS7: the encryption is undone by the
-- decryption, which accepts nothing else, and fills up the last block or adds a whole one.
structure SmCrypto.Documented (crypto : SmCrypto) (sm4CbcEncrypt : Bytes → Bytes → Bytes → Option Bytes) :
    Prop where
  digest  : ∀ key msg digest, crypto.hmacSm3 key msg = some digest → digest.length = hksDigestSm3Len
  decrypt : ∀ key iv text plainText, crypto.sm4CbcDecrypt key iv text = some plainText ↔
    sm4CbcEncrypt key iv plainText = some text
  padded  : ∀ key iv text plainText, sm4CbcEncrypt key iv plainText = some text →
    text.length = (plainText.length / 16 + 1) * 16

namespace SmSender

section Wrapping

variable (crypto : SmCrypto) (sm4CbcEncrypt : Bytes → Bytes → Bytes → Option Bytes)
variable (paramSet nodeParamSet : HksParamSet) (suite : UInt32) (wrapped : Bytes) (s : SmSender)

-- The wrapped data holds all of it, for the unwrapping key of the node.
structure Wrote : Prop where
  kek      : ∃ signLen, smSignLen suite wrapped = .ok signLen ∧ s.sign.length = signLen.toNat ∧
    Sm2Opens crypto paramSet nodeParamSet wrapped (smKekPart suite) signLen (s.kek ++ s.sign)
  factor1  : wrappedBlob wrapped (smKekPart suite + 2) = .ok s.factor1
  factor2  : wrappedBlob wrapped (smKekPart suite + 3) = .ok s.factor2
  key      : ∃ wrapKey text, deriveKeyBySm3 crypto s.kek s.factor1 = .ok wrapKey ∧
    sm4CbcEncrypt wrapKey s.iv s.key = some text ∧ wrappedBlob wrapped (smKekPart suite + 5) = .ok text
  iv       : wrappedBlob wrapped (smKekPart suite + 6) = .ok s.iv
  declared : getDataLenFromWrappedData wrapped (smKekPart suite + 7) = .ok s.declared

-- The MAC part begins with the whole digest of the cipher text.
def Authentic : Prop :=
  ∃ macKey mac text digest, deriveKeyBySm3 crypto s.kek s.factor2 = .ok macKey ∧
    wrappedBlob wrapped (smKekPart suite + 4) = .ok mac ∧ wrappedBlob wrapped (smKekPart suite + 5) = .ok text ∧
    crypto.hmacSm3 macKey text = some digest ∧ digest.length = hksDigestSm3Len ∧
    mac.take hksDigestSm3Len = digest

end Wrapping

variable {crypto : SmCrypto} {sm4CbcEncrypt : Bytes → Bytes → Bytes → Option Bytes}
variable {paramSet nodeParamSet : HksParamSet} {suite : UInt32} {wrapped : Bytes} {s s' : SmSender}

-- Nobody else wrote the same.
theorem Wrote.unique (documented : crypto.Documented sm4CbcEncrypt)
    (h : s.Wrote crypto sm4CbcEncrypt paramSet nodeParamSet suite wrapped)
    (h' : s'.Wrote crypto sm4CbcEncrypt paramSet nodeParamSet suite wrapped) : s' = s := by
  obtain ⟨⟨_, hlen, hsign, hopens⟩, hfactor1, hfactor2, ⟨_, _, hwrap, henc, htext⟩, hiv, hdeclared⟩ := h
  obtain ⟨⟨_, hlen', hsign', hopens'⟩, hfactor1', hfactor2', ⟨_, _, hwrap', henc', htext'⟩, hiv', hdeclared'⟩ := h'
  cases hlen.symm.trans hlen'
  have ⟨hkek, hsign⟩ := List.append_inj' (hopens.unique hopens') (hsign.trans hsign'.symm)
  have hfactor1 := Except.ok.inj (hfactor1.symm.trans hfactor1')
  have hfactor2 := Except.ok.inj (hfactor2.symm.trans hfactor2')
  have hiv := Except.ok.inj (hiv.symm.trans hiv')
  have hdeclared := Except.ok.inj (hdeclared.symm.trans hdeclared')
  rw [hkek, hfactor1] at hwrap
  cases hwrap.symm.trans hwrap'
  cases htext.symm.trans htext'
  have hdec := (documented.decrypt _ _ _ _).mpr henc
  rw [hiv] at hdec
  have hkey := Option.some.inj (hdec.symm.trans ((documented.decrypt _ _ _ _).mpr henc'))
  exact SmSender.ext hkek.symm hsign.symm hfactor1.symm hfactor2.symm hiv.symm hkey.symm hdeclared.symm

end SmSender

section Import

variable {env : WrapEnv} {crypto : SmCrypto} {keyAlias wrapped keyOut : Bytes}
variable {paramSet nodeParamSet : HksParamSet} {dataParams dataParams' : HksSmWrappedKeyDataBlob}

theorem checkAlgAndGetSuit_ok {suite : UInt32} (h : checkAlgAndGetSuit paramSet = .ok suite) :
    getUInt32 paramSet HksTag.unwrapAlgorithmSuite = .ok suite := by
  have ⟨alg, _, h⟩ := bind_eq_ok.mp h
  split at h
  case isTrue => nomatch h
  case isFalse => exact Except.orError_eq_ok.mp h

-- The steps that a suite begins with leave the key encryption key, and go on behind its parts.
theorem hksSmImportWrappedKeyWithVerify_ok
    (h : hksSmImportWrappedKeyWithVerify env crypto keyAlias wrapped paramSet nodeParamSet =
      .ok (dataParams', keyOut)) :
    ∃ dataParams signLen, getDataLenFromWrappedData wrapped 1 = .ok signLen ∧
      dataParams.signData.length = signLen.toNat ∧
      Sm2Opens crypto paramSet nodeParamSet wrapped 2 signLen (dataParams.kekData ++ dataParams.signData) ∧
      importDerivedKey env crypto keyAlias wrapped paramSet dataParams 4 = .ok (dataParams', keyOut) := by
  have ⟨(keyParams, offset₁), hkey, h⟩ := bind_eq_ok.mp h
  have ⟨(kekParams, offset₂), hkek, h⟩ := bind_eq_ok.mp h
  have ⟨split, hsplit, h⟩ := bind_eq_ok.mp h
  have ⟨_, _, h⟩ := bind_eq_ok.mp h
  obtain ⟨hsign, hnil, rfl⟩ := getPublicKeyAndSignDataLength_ok hkey
  obtain ⟨plainText, hopens, hkekParams, rfl⟩ := decryptKekWithSm2_ok hkek
  have ⟨hne, happend, hlen⟩ := splitKekAndSignData_ok hsplit
  -- Without a signature there is nothing to split.
  have hzero : keyParams.signatureDataLength ≠ 0 := by
    intro hzero
    rw [hkekParams, if_pos hzero] at hne
    exact hne hnil
  rw [hkekParams, if_neg hzero] at happend hlen
  exact ⟨split, _, hsign, hlen, happend ▸ hopens, h⟩

theorem hksSmImportWrappedKeyWithoutVerify_ok
    (h : hksSmImportWrappedKeyWithoutVerify env crypto keyAlias wrapped paramSet nodeParamSet =
      .ok (dataParams', keyOut)) :
    ∃ dataParams, dataParams.signData = [] ∧
      Sm2Opens crypto paramSet nodeParamSet wrapped 0 0 dataParams.kekData ∧
      importDerivedKey env crypto keyAlias wrapped paramSet dataParams 2 = .ok (dataParams', keyOut) := by
  have ⟨(kekParams, offset₁), hkek, h⟩ := bind_eq_ok.mp h
  obtain ⟨plainText, hopens, hkekParams, rfl⟩ := decryptKekWithSm2_ok hkek
  rw [if_pos rfl] at hkekParams
  subst hkekParams
  exact ⟨_, rfl, hopens, h⟩

theorem hksSmImportWrappedKey_ok {wrappingKey : Bytes}
    (h : hksSmImportWrappedKey env crypto keyAlias paramSet wrappingKey wrapped =
      .ok (dataParams', keyOut)) :
    ∃ suite nodeParamSet dataParams signLen, getUInt32 paramSet HksTag.unwrapAlgorithmSuite = .ok suite ∧
      env.hksGenerateKeyNode wrappingKey = some nodeParamSet ∧
      smSignLen suite wrapped = .ok signLen ∧ dataParams.signData.length = signLen.toNat ∧
      Sm2Opens crypto paramSet nodeParamSet wrapped (smKekPart suite) signLen
        (dataParams.kekData ++ dataParams.signData) ∧
      importDerivedKey env crypto keyAlias wrapped paramSet dataParams (smKekPart suite + 2) =
        .ok (dataParams', keyOut) := by
  rw [hksSmImportWrappedKey] at h
  split at h
  case isTrue => nomatch h
  case isFalse =>
    have ⟨suite, hsuite, h⟩ := bind_eq_ok.mp h
    have ⟨nodeParamSet, hnode, h⟩ := bind_eq_ok.mp h
    have hsuite := checkAlgAndGetSuit_ok (Except.orError_eq_ok.mp hsuite)
    have hnode : env.hksGenerateKeyNode wrappingKey = some nodeParamSet := by
      cases hgen : env.hksGenerateKeyNode wrappingKey
      case none => rw [hgen] at hnode; nomatch hnode
      case some => rw [hgen] at hnode; exact congrArg some (Except.ok.inj hnode)
    split at h
    case isTrue hverify =>
      have ⟨dataParams, signLen, hsignLen, hsign, hopens, himport⟩ := hksSmImportWrappedKeyWithVerify_ok h
      have hpart : smKekPart suite = 2 := if_pos hverify
      exact ⟨suite, nodeParamSet, dataParams, signLen, hsuite, hnode, (if_pos hverify).trans hsignLen, hsign,
        hpart ▸ hopens, by rwa [hpart]⟩
    case isFalse hverify =>
      split at h
      case isFalse => nomatch h
      case isTrue =>
        have ⟨dataParams, hsign, hopens, himport⟩ := hksSmImportWrappedKeyWithoutVerify_ok h
        have hpart : smKekPart suite = 0 := if_neg hverify
        refine ⟨suite, nodeParamSet, dataParams, 0, hsuite, hnode, if_neg hverify, congrArg List.length hsign, ?_, ?_⟩
        case refine_1 => rwa [hpart, hsign, List.append_nil]
        case refine_2 => rwa [hpart]

end Import

-- A device on which every step of the import succeeds; the key blob is the key itself.
def steadyWrap (nodeParamSet : HksParamSet) : WrapEnv where
  hksGenerateKeyNode _        := some nodeParamSet
  coreCheckGenKeyParams _     := .ok ()
  getHksPubKeyInnerFormat _ k := .ok k
  hksCoreAgreeKey _ _ _       := .ok (.replicate 32 3)
  hksCoreImportKey _ key _    := .ok key
  fresh size                  := .zero size

-- The padding of PKCS7, which tells in every byte how many there are, and how it is taken off
def padBlock (plainText : Bytes) : Bytes :=
  plainText ++ .replicate (16 - plainText.length % 16) (16 - plainText.length % 16).toUInt8

def unpadBlock (text : Bytes) : Option Bytes :=
  let plainText := text.take (text.length - (text.getLast?.getD 0).toNat)
  if padBlock plainText = text then some plainText else none

theorem unpadBlock_eq_some {text plainText : Bytes} :
    unpadBlock text = some plainText ↔ some (padBlock plainText) = some text := by
  rw [unpadBlock]
  constructor
  case mp =>
    intro h
    split at h
    case isTrue hpad => exact congrArg some (Option.some.inj h ▸ hpad)
    case isFalse => nomatch h
  case mpr =>
    intro h
    obtain rfl := Option.some.inj h
    have hpos : 16 - plainText.length % 16 ≠ 0 := by omega
    have hlast : (padBlock plainText).getLast? = some (16 - plainText.length % 16).toUInt8 := by
      rw [padBlock, List.getLast?_append, List.getLast?_replicate, if_neg hpos]
      rfl
    have hcount : (16 - plainText.length % 16).toUInt8.toNat = 16 - plainText.length % 16 :=
      UInt8.toNat_ofNat_of_lt' (by rw [UInt8.size]; omega)
    have htake : (padBlock plainText).take
        ((padBlock plainText).length - ((padBlock plainText).getLast?.getD 0).toNat) = plainText := by
      rw [hlast, Option.getD_some, hcount, padBlock, List.length_append, List.length_replicate,
        Nat.add_sub_cancel, List.take_left]
    simp only [htake, if_true]

-- A library whose digests are fixed, and whose SM4 pads and encrypts nothing.
def steadySm : SmCrypto where
  sm2Decrypt _ _ _ size  := some (.replicate size 5)
  sm2Verify _ _ _ _      := true
  sm3 _                  := some (.replicate hksDigestSm3Len 7)
  hmacSm3 _ _            := some (.replicate hksDigestSm3Len 9)
  sm4CbcDecrypt _ _ text := unpadBlock text

theorem steadySm_documented : steadySm.Documented fun _ _ plainText => some (padBlock plainText) where
  digest _ _ _ h     := Option.some.inj h ▸ rfl
  decrypt _ _ _ _    := unpadBlock_eq_some
  padded _ _ _ key h := by
    rw [← Option.some.inj h, padBlock, List.length_append, List.length_replicate]
    omega

-- The key to be imported is one of 128 bits for an algorithm.
def wrapCallerParamSet (alg suite : UInt32) : HksParamSet := callerParamSet [
  .ofUInt32 HksTag.algorithm alg,
  .ofUInt32 HksTag.keySize 128,
  .ofUInt32 HksTag.purpose (HksKeyPurpose.encrypt ||| HksKeyPurpose.decrypt),
  .ofUInt32 HksTag.padding HksKeyPadding.none,
  .ofUInt32 HksTag.blockMode HksCipherMode.cbc,
  .ofUInt32 HksTag.unwrapAlgorithmSuite suite,
  .ofUInt32 HksTag.userId 100,
  ⟨HksTag.accessTokenId, 1, .null⟩]

-- The key pair that the device unwraps with, with its two coordinates and its secret number
def sm2UnwrapKey : HksParamSet :=
  openedKeyOf ([HksKeyAlg.sm2, 256, 32, 32, 32].flatMap toBytes32 ++ .replicate 96 7)
    [.ofUInt32 HksTag.algorithm HksKeyAlg.sm2, .ofUInt32 HksTag.keySize 256,
      .ofUInt32 HksTag.purpose HksKeyPurpose.unwrap, .ofUInt32 HksTag.digest HksKeyDigest.sm3]

-- A key, wrapped without a signature, with a declared length.
def smWrapped (key : Bytes) (declared : UInt32) : Bytes :=
  [.replicate 112 1, toBytes32 16, .replicate 16 2, .replicate 16 3, .replicate hksDigestSm3Len 9,
    padBlock key, .replicate 16 6, toBytes32 declared].flatMap wrapPart

def smImport (key : Bytes) (declared : UInt32) : Except HksErrorCode (HksSmWrappedKeyDataBlob × Bytes) :=
  hksSmImportWrappedKey (steadyWrap sm2UnwrapKey) steadySm [1]
    (wrapCallerParamSet HksKeyAlg.sm4 HksUnwrapSuite.sm2Sm4128CbcPkcs7) [1] (smWrapped key declared)

end Huks
