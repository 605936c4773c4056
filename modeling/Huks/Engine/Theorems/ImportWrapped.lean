import Huks.Engine.ImportWrapped
import Huks.Engine.Theorems.SmImportWrapKey
import Huks.Lib.Triple

namespace Huks

open EStateM
open Except (bind_eq_ok)

-- What the documentation of the library says of GCM: a cipher text is as long as its plaintext, and
-- a tag has at most 16 bytes.
structure OpensslGcm.Documented (gcm : OpensslGcm) : Prop where
  length : ∀ {key nonce aad message plainText},
    gcm.decryptUpdate key nonce aad message = some plainText → plainText.length = message.length
  tag    : ∀ {tag}, gcm.setTag tag → tag.length ≤ hksAeTagLen.toNat

def AllFit (writes : List BufferWrite) : Prop := ∀ w ∈ writes, w.Fits

theorem AllFit.concat {writes : List BufferWrite} {w : BufferWrite} (h : AllFit writes)
    (hw : w.Fits) : AllFit (writes ++ [w]) := by
  intro v hv
  rcases List.mem_append.mp hv with hv | hv
  · exact h v hv
  · cases List.mem_singleton.mp hv
    exact hw

namespace ImportWrapped

variable {env : WrapEnv} {crypto : SmCrypto} {gcm : OpensslGcm}
variable {key message wrapped : Bytes} {param : HksAeadParam} {size : Nat}

theorem opensslAesAeadInit_ok (h : opensslAesAeadInit gcm key param = .ok ()) :
    isGcmKeySize key.length := by
  rw [opensslAesAeadInit] at h
  split at h
  case isTrue hinit => exact hinit.1
  case isFalse => nomatch h

-- A decryption that returns has written as many bytes as it returns, for a key of the right size
-- and a tag that is not too long.
theorem hksCryptoHalDecrypt_fits (documented : gcm.Documented)
    (hfits : isGcmKeySize key.length → message.length ≤ size) :
    Triple AllFit (hksCryptoHalDecrypt gcm key param message size)
      (fun out writes => (out.length = message.length ∧ param.tagDec.length ≤ hksAeTagLen.toNat) ∧
        AllFit writes)
      fun _ => AllFit := by
  refine .ofExcept_bind (fun _ _ => .ofExcept_bind (fun _ hinit => ?_) fun _ _ _ => id) fun _ _ _ => id
  refine .ite (fun _ => .throw fun _ => id) fun _ => ?_
  cases hupdate : gcm.decryptUpdate key param.nonce param.aad message
  case none => exact .throw fun _ => id
  case some plainText =>
    have hlen := documented.length hupdate
    refine .bind (Q := fun _ => AllFit) (.modify fun _ h => AllFit.concat h ?_) fun _ => ?_
    · exact hlen.trans_le (hfits (opensslAesAeadInit_ok hinit))
    · refine .ite (fun _ => .throw fun _ => id) fun htag => .pure fun _ h => ⟨⟨hlen, ?_⟩, h⟩
      exact documented.tag (not_not.mp (not_or.mp htag).1)

end ImportWrapped

open ImportWrapped

-- The encrypted key encryption key has room in 32 bytes, and where it has the size of an AES key
-- (and its tag the size of a tag), the encrypted key has room in the declared size.
structure FitsDeclared (wrapped : Bytes) : Prop where
  kek       : ∀ {kek offset}, parseKekDecryptParams wrapped 1 = .ok (kek, offset) →
    kek.encData.length ≤ hksAesKeyBytes256
  originKey : ∀ {kek offset imported size offset'},
    parseKekDecryptParams wrapped 1 = .ok (kek, offset) →
    isGcmKeySize kek.encData.length → kek.param.tagDec.length ≤ hksAeTagLen.toNat →
    parseImportedKeyDecryptParams wrapped offset = .ok (imported, size, offset') →
    imported.encData.length ≤ size.toNat

-- Every decryption of every import of the data fits in its buffer.
def WritesFit (wrapped : Bytes) : Prop :=
  ∀ (env : WrapEnv) (crypto : SmCrypto) (gcm : OpensslGcm), gcm.Documented →
    ∀ (keyAlias wrappingKey : Bytes) (paramSet : HksParamSet),
      AllFit ((hksCoreImportWrappedKey env crypto gcm keyAlias wrappingKey wrapped paramSet).run
        []).final

namespace FitsDeclared

variable {env : WrapEnv} {crypto : SmCrypto} {gcm : OpensslGcm} {wrapped : Bytes}

theorem decryptKek (h : FitsDeclared wrapped) (documented : gcm.Documented) (secret : Bytes) :
    Triple AllFit (decryptKekWithAgreeSharedSecret gcm wrapped secret 1)
      (fun result writes => (∃ kek, parseKekDecryptParams wrapped 1 = .ok (kek, result.2) ∧
        result.1.length = kek.encData.length ∧ kek.param.tagDec.length ≤ hksAeTagLen.toNat) ∧
          AllFit writes)
      fun _ => AllFit := by
  refine .ofExcept_bind (fun (kek, offset) hparse => ?_) fun _ _ _ => id
  refine .bind (hksCryptoHalDecrypt_fits documented fun _ => h.kek hparse) fun out => ?_
  exact .pure fun _ ⟨⟨hlen, htag⟩, hfit⟩ => ⟨⟨kek, hparse, hlen, htag⟩, hfit⟩

theorem decryptOrigin (h : FitsDeclared wrapped) (documented : gcm.Documented) {kek : AeadParts}
    {kekData : Bytes} {offset : Nat} (hparse : parseKekDecryptParams wrapped 1 = .ok (kek, offset))
    (hlen : kekData.length = kek.encData.length)
    (htag : kek.param.tagDec.length ≤ hksAeTagLen.toNat) :
    Triple AllFit (decryptImportedKeyWithKek gcm wrapped kekData offset) (fun _ => AllFit)
      fun _ => AllFit := by
  refine .ofExcept_bind (fun (imported, size, offset') himported => ?_) fun _ _ _ => id
  have hfits (hkey : isGcmKeySize kekData.length) : imported.encData.length ≤ size.toNat :=
    h.originKey hparse (hlen ▸ hkey) htag himported
  exact .bind (hksCryptoHalDecrypt_fits documented hfits) fun _ => .pure fun _ h => h.2

theorem importKey (h : FitsDeclared wrapped) (documented : gcm.Documented)
    (keyAlias wrappingKey : Bytes) (paramSet : HksParamSet) (suite : UInt32) :
    Triple AllFit (importWithAgreedSecret env gcm keyAlias wrappingKey wrapped paramSet suite)
      (fun _ => AllFit) fun _ => AllFit := by
  refine .ofExcept_bind (fun (publicKey, offset) hpublic => ?_) fun _ _ _ => id
  have hoffset : offset = 1 := by
    have ⟨_, _, hpublic⟩ := bind_eq_ok.mp hpublic
    have ⟨_, _, hpublic⟩ := bind_eq_ok.mp hpublic
    have ⟨_, _, hpublic⟩ := bind_eq_ok.mp hpublic
    cases hpublic
    rfl
  subst hoffset
  refine .ofExcept_bind (fun secret _ => ?_) fun _ _ _ => id
  refine .bind (h.decryptKek documented secret) fun (kekData, offset) => .of_pure ?_
  rintro ⟨kek, hparse, hlen, htag⟩
  refine .bind (h.decryptOrigin documented hparse hlen htag) fun (originKey, _) => ?_
  exact .ofExcept (fun _ _ _ => id) fun _ _ _ => id

theorem writesFit (h : FitsDeclared wrapped) : WritesFit wrapped := by
  intro env crypto gcm documented keyAlias wrappingKey paramSet
  refine Triple.final (P := AllFit) (.ofExcept_bind (fun suite _ => ?_) fun _ _ _ => id) nofun
  refine .ite (fun _ => ?_) fun _ => h.importKey documented keyAlias wrappingKey paramSet suite
  exact .ofExcept_bind (fun _ _ => .pure fun _ => id) fun _ _ _ => id

end FitsDeclared

-- A library that finds every cipher text to be its own plaintext.
def lenientGcm : OpensslGcm where
  decryptInit _ _           := true
  updateAad _ _ _           := true
  decryptUpdate _ _ _ text  := some text
  setTag tag                := tag.length ≤ hksAeTagLen.toNat
  decryptFinal _ _ _ _ _    := true

theorem lenientGcm_documented : lenientGcm.Documented where
  length h := by
    cases h
    rfl
  tag      := of_decide_eq_true

-- The key pair that the device unwraps with
def x25519UnwrapKey : HksParamSet :=
  openedKeyOf ([HksKeyAlg.x25519, 256, 32, 32, 0].flatMap toBytes32 ++ .replicate 64 7)
    [.ofUInt32 HksTag.algorithm HksKeyAlg.x25519, .ofUInt32 HksTag.keySize 256,
      .ofUInt32 HksTag.purpose HksKeyPurpose.unwrap]

-- The import that gets as far as the parts of the wrapped data allow.
def steadyImport (wrapped : Bytes) : WrapM Bytes :=
  hksCoreImportWrappedKey (steadyWrap x25519UnwrapKey) steadySm lenientGcm [1] [1] wrapped
    (wrapCallerParamSet HksKeyAlg.aes HksUnwrapSuite.x25519Aes256GcmNopadding)

namespace ImportWrapped

variable {env : WrapEnv} {gcm : OpensslGcm} {key message wrapped : Bytes} {param : HksAeadParam}
variable {size : Nat}

theorem hksCryptoHalDecrypt_keeps (w : BufferWrite) :
    Preserves (w ∈ ·) (hksCryptoHalDecrypt gcm key param message size) := by
  refine .ofExcept_bind fun _ _ => .ofExcept_bind fun _ _ => .ite (.throw _) ?_
  cases gcm.decryptUpdate key param.nonce param.aad message
  case none => exact .throw _
  case some =>
    exact .bind (.modify fun _ => List.mem_append_left _) fun _ => .ite (.throw _) (.pure _)

theorem decryptImportedKeyWithKek_keeps {kek : Bytes} {offset : Nat} (w : BufferWrite) :
    Preserves (w ∈ ·) (decryptImportedKeyWithKek gcm wrapped kek offset) :=
  .ofExcept_bind fun _ _ => .bind (hksCryptoHalDecrypt_keeps w) fun _ => .pure _

-- The decryption writes before it looks at the tag.
theorem hksCryptoHalDecrypt_lenient (hkey : isGcmKeySize key.length) (hmessage : message ≠ [])
    (hsize : size ≠ 0) (writes : List BufferWrite) :
    (hksCryptoHalDecrypt lenientGcm key param message size).run writes =
      if param.tagDec.length ≤ hksAeTagLen.toNat then
        .ok message (writes ++ [⟨size, message.length⟩])
      else
        .error .cryptoEngineError (writes ++ [⟨size, message.length⟩]) := by
  have hne : key ≠ [] := by
    rintro rfl
    exact absurd hkey (by decide)
  have hcheck : decryptCheckParam key message size = .ok () := by
    rw [decryptCheckParam, if_neg (by grind)]
  have hinit : opensslAesAeadInit lenientGcm key param = .ok () := by
    rw [opensslAesAeadInit, if_pos ⟨hkey, rfl⟩]
  rw [hksCryptoHalDecrypt, hcheck]
  change (hksOpensslAesDecrypt lenientGcm key param message size).run writes = _
  rw [hksOpensslAesDecrypt, hinit]
  change (if ¬lenientGcm.setTag param.tagDec = true ∨ ¬true = true then throw _ else pure message :
    WrapM Bytes).run _ = _
  have htag : lenientGcm.setTag param.tagDec = true ↔ param.tagDec.length ≤ hksAeTagLen.toNat :=
    decide_eq_true_iff
  by_cases h : param.tagDec.length ≤ hksAeTagLen.toNat
  case pos =>
    rw [if_pos h, if_neg (by simp [htag.mpr h])]
    rfl
  case neg =>
    rw [if_neg h, if_pos (.inl (mt htag.mp h))]
    rfl

-- What an accepted blob is made of.
theorem accepted_parts (haccept : hksCheckWrappedDataFormatValidity wrapped
      hksImportWrappedKeyTotalBlobs none = .ok ()) :
    ∃ parts : List Bytes, parts ≠ [] ∧ (∀ part ∈ parts, part ≠ []) ∧
      ∀ {i}, i < hksImportWrappedKeyTotalBlobs →
        wrappedBlob wrapped i = (parts[i]?).elim (.error .invalidWrappedFormat) .ok := by
  have ⟨hne, hsize, _, parts, hparts⟩ := hksCheckWrappedDataFormatValidity_eq_ok.mp haccept
  refine ⟨parts, ?_, hparts.nonempty, hksGetBlobFromWrappedData_eq hne hsize hparts⟩
  rintro rfl
  exact hne hparts.packed

theorem wrappedBlob_ne_nil {i : Nat} {part : Bytes}
    (haccept : hksCheckWrappedDataFormatValidity wrapped hksImportWrappedKeyTotalBlobs none =
      .ok ()) (hi : i < hksImportWrappedKeyTotalBlobs) (h : wrappedBlob wrapped i = .ok part) :
    part ≠ [] := by
  have ⟨parts, _, hne, heq⟩ := accepted_parts haccept
  rw [heq hi] at h
  cases hpart : parts[i]?
  case none => simp [hpart] at h
  case some =>
    simp only [hpart, Option.elim_some, Except.ok.injEq] at h
    exact h ▸ hne _ (List.mem_of_getElem? hpart)

-- The steps of the import in front of the two decryptions succeed.
theorem steadyImport_eq (haccept : hksCheckWrappedDataFormatValidity wrapped
      hksImportWrappedKeyTotalBlobs none = .ok ()) :
    steadyImport wrapped = (do
      let (kek, partOffset) ←
        decryptKekWithAgreeSharedSecret lenientGcm wrapped (.replicate 32 3) 1
      let (originKey, _) ← decryptImportedKeyWithKek lenientGcm wrapped kek partOffset
      return originKey) := by
  have ⟨parts, hparts, _, heq⟩ := accepted_parts haccept
  have ⟨peer, rest, hcons⟩ := List.exists_cons_of_ne_nil hparts
  have hpeer : wrappedBlob wrapped 0 = .ok peer := by
    rw [heq (by decide), hcons]
    rfl
  generalize hnode : x25519UnwrapKey = node
  generalize hset : wrapCallerParamSet HksKeyAlg.aes HksUnwrapSuite.x25519Aes256GcmNopadding = paramSet
  have hcheck : hksCoreCheckImportWrappedKeyParams (steadyWrap node) [1] wrapped paramSet =
      .ok HksUnwrapSuite.x25519Aes256GcmNopadding := by
    have hsuite : checkAndGetWrappedKeyUnwrapAlgSuite paramSet =
        .ok HksUnwrapSuite.x25519Aes256GcmNopadding := by
      rw [← hset]
      decide
    rw [hksCoreCheckImportWrappedKeyParams, if_neg (by decide), hsuite]
    change (hksCheckWrappedDataFormatValidity _ _ _ >>= _) = _
    rw [haccept]
    rfl
  have hpublic : getPublicKeyInnerFormat (steadyWrap node) [1] wrapped 0 = .ok (peer, 1) := by
    rw [getPublicKeyInnerFormat, hpeer]
    rfl
  have hagree : agreeSharedSecretWithPeerPublicKey (steadyWrap node) [1] peer
      HksUnwrapSuite.x25519Aes256GcmNopadding paramSet = .ok (.replicate 32 3) := by
    have hunwrap : checkWrappingKeyIsUsedForUnwrap (steadyWrap node) [1] = .ok () := by
      rw [← hnode]
      decide +kernel
    have hgen : (genAgreeKeyParamSetFromUnwrapSuite HksUnwrapSuite.x25519Aes256GcmNopadding
        paramSet).toBool := by
      rw [← hset]
      decide
    rw [agreeSharedSecretWithPeerPublicKey, hunwrap]
    change (genAgreeKeyParamSetFromUnwrapSuite _ paramSet >>= _) = _
    cases hset : genAgreeKeyParamSetFromUnwrapSuite HksUnwrapSuite.x25519Aes256GcmNopadding paramSet
    case error => simp [hset, Except.toBool] at hgen
    case ok => rfl
  have himport : hksCoreImportWrappedKey (steadyWrap node) steadySm lenientGcm [1] [1] wrapped
      paramSet = importWithAgreedSecret (steadyWrap node) lenientGcm [1] [1] wrapped paramSet
        HksUnwrapSuite.x25519Aes256GcmNopadding := by
    rw [hksCoreImportWrappedKey, hcheck, ofExcept_ok_bind, if_neg (by decide)]
  rw [steadyImport, hnode, hset, himport, importWithAgreedSecret, hpublic, ofExcept_ok_bind]
  dsimp only
  rw [hagree]
  rfl

theorem parseKekDecryptParams_ok {kek : AeadParts} {offset : Nat}
    (h : parseKekDecryptParams wrapped 1 = .ok (kek, offset)) :
    wrappedBlob wrapped 4 = .ok kek.encData ∧ offset = 5 := by
  have ⟨_, _, h⟩ := bind_eq_ok.mp h
  have ⟨_, _, h⟩ := bind_eq_ok.mp h
  have ⟨_, _, h⟩ := bind_eq_ok.mp h
  have ⟨_, henc, h⟩ := bind_eq_ok.mp h
  cases h
  exact ⟨henc, rfl⟩

theorem parseKeyMaterialSize_ne_zero {part : Bytes} {n : UInt32}
    (h : parseKeyMaterialSize part = .ok n) : n.toNat ≠ 0 := by
  rw [parseKeyMaterialSize] at h
  split at h
  case isTrue => nomatch h
  case isFalse =>
    split at h
    case isTrue => nomatch h
    case isFalse hrange =>
      cases h
      exact fun hzero => hrange (.inl (UInt32.toNat_inj.mp hzero))

theorem parseImportedKeyDecryptParams_ok {imported : AeadParts} {n : UInt32} {offset : Nat}
    (h : parseImportedKeyDecryptParams wrapped 5 = .ok (imported, n, offset)) :
    wrappedBlob wrapped 9 = .ok imported.encData ∧ n.toNat ≠ 0 := by
  have ⟨_, _, h⟩ := bind_eq_ok.mp h
  have ⟨_, _, h⟩ := bind_eq_ok.mp h
  have ⟨_, _, h⟩ := bind_eq_ok.mp h
  have ⟨_, _, h⟩ := bind_eq_ok.mp h
  have ⟨_, hsize, h⟩ := bind_eq_ok.mp h
  have ⟨_, henc, h⟩ := bind_eq_ok.mp h
  cases h
  exact ⟨henc, parseKeyMaterialSize_ne_zero hsize⟩

section Lenient

variable {kek imported : AeadParts} {offset offset' : Nat} {n : UInt32}

theorem decryptKek_lenient
    (haccept : hksCheckWrappedDataFormatValidity wrapped hksImportWrappedKeyTotalBlobs none =
      .ok ()) (hkek : parseKekDecryptParams wrapped 1 = .ok (kek, offset)) :
    (decryptKekWithAgreeSharedSecret lenientGcm wrapped (.replicate 32 3) 1).run [] =
      if kek.param.tagDec.length ≤ hksAeTagLen.toNat then
        .ok (kek.encData, offset) [⟨hksAesKeyBytes256, kek.encData.length⟩]
      else
        .error .cryptoEngineError [⟨hksAesKeyBytes256, kek.encData.length⟩] := by
  have hne := wrappedBlob_ne_nil haccept (by decide) (parseKekDecryptParams_ok hkek).1
  have hsecret : isGcmKeySize (List.replicate 32 (3 : UInt8)).length := by decide
  have hsize : hksAesKeyBytes256 ≠ 0 := by decide
  have hrun := @hksCryptoHalDecrypt_lenient _ _ kek.param _ hsecret hne hsize []
  rw [decryptKekWithAgreeSharedSecret, hkek]
  change (hksCryptoHalDecrypt _ _ _ _ _ >>= _).run [] = _
  rw [run_bind, hrun]
  by_cases h : kek.param.tagDec.length ≤ hksAeTagLen.toNat
  case pos => rw [if_pos h, if_pos h]; rfl
  case neg => rw [if_neg h, if_neg h]; rfl

theorem decryptImported_lenient (writes : List BufferWrite) {kekData : Bytes}
    (haccept : hksCheckWrappedDataFormatValidity wrapped hksImportWrappedKeyTotalBlobs none =
      .ok ()) (hkey : isGcmKeySize kekData.length)
    (himported : parseImportedKeyDecryptParams wrapped 5 = .ok (imported, n, offset')) :
    ⟨n.toNat, imported.encData.length⟩ ∈
      ((decryptImportedKeyWithKek lenientGcm wrapped kekData 5).run writes).final := by
  have ⟨henc, hsize⟩ := parseImportedKeyDecryptParams_ok himported
  have hne := wrappedBlob_ne_nil haccept (by decide) henc
  have hrun := @hksCryptoHalDecrypt_lenient _ _ imported.param _ hkey hne hsize writes
  rw [decryptImportedKeyWithKek, himported]
  change _ ∈ ((hksCryptoHalDecrypt _ _ _ _ _ >>= _).run writes).final
  refine Preserves.final_bind (fun _ => .pure _) ?_
  rw [hrun]
  split <;> exact List.mem_append_right _ List.mem_cons_self

end Lenient

end ImportWrapped

-- An accepted blob fits in the buffers of the import exactly where its cipher text parts are no
-- longer than these.
theorem wrapped_import_fits {wrapped : Bytes}
    (haccept : hksCheckWrappedDataFormatValidity wrapped hksImportWrappedKeyTotalBlobs none =
      .ok ()) :
    WritesFit wrapped ↔ FitsDeclared wrapped := by
  refine ⟨fun h => ?_, FitsDeclared.writesFit⟩
  have hfit : AllFit ((steadyImport wrapped).run []).final :=
    h _ _ _ lenientGcm_documented [1] [1] _
  rw [steadyImport_eq haccept] at hfit
  constructor
  case kek =>
    intro kek offset hkek
    refine hfit ⟨hksAesKeyBytes256, kek.encData.length⟩ (Preserves.final_bind (fun _ => ?_) ?_)
    · exact .bind (decryptImportedKeyWithKek_keeps _) fun _ => .pure _
    · rw [decryptKek_lenient haccept hkek]
      split <;> exact List.mem_cons_self
  case originKey =>
    intro kek offset imported size offset' hkek hkey htag himported
    refine hfit ⟨size.toNat, imported.encData.length⟩ ?_
    cases (parseKekDecryptParams_ok hkek).2
    rw [run_bind, decryptKek_lenient haccept hkek, if_pos htag]
    exact Preserves.final_bind (fun _ => .pure _)
      (decryptImported_lenient _ haccept hkey himported)

-- Ten parts: a public key of 32 bytes, a key encryption key of `kekSize` bytes and a key of 16 bytes.
def gcmWrapped (kekSize : Nat) : Bytes :=
  [.replicate 32 1, .replicate 16 2, .replicate 12 3, .replicate 16 4, .replicate kekSize 5,
    .replicate 16 6, .replicate 12 7, .replicate 16 8, toBytes32 16, .replicate 16 9].flatMap wrapPart

theorem wrapped_import_fits_whole : WritesFit (gcmWrapped 32) := by
  refine (wrapped_import_fits (by decide +kernel)).mpr ⟨?_, ?_⟩
  case refine_1 =>
    intro kek offset hkek
    have hpart : wrappedBlob (gcmWrapped 32) 4 = .ok (.replicate 32 5) := by decide +kernel
    rw [← Except.ok.inj (hpart.symm.trans (parseKekDecryptParams_ok hkek).1)]
    decide
  case refine_2 =>
    intro kek offset imported size offset' hkek _ _ himported
    cases (parseKekDecryptParams_ok hkek).2
    have hsizes : (parseImportedKeyDecryptParams (gcmWrapped 32) 5).map
        (fun imported => (imported.1.encData.length, imported.2.1.toNat)) = .ok (16, 16) := by decide +kernel
    rw [himported] at hsizes
    have ⟨hlen, hsize⟩ := Prod.mk.inj (Except.ok.inj hsizes)
    rw [hlen, hsize]

-- The decryption of 40 bytes writes them all to the 32 bytes of the key encryption key.
theorem wrapped_import_overflows :
    hksCheckWrappedDataFormatValidity (gcmWrapped 40) hksImportWrappedKeyTotalBlobs none = .ok () ∧
      ((steadyImport (gcmWrapped 40)).run []).final = [⟨32, 40⟩] ∧ ¬WritesFit (gcmWrapped 40) := by
  have hrun : ((steadyImport (gcmWrapped 40)).run []).final = [⟨32, 40⟩] := by decide +kernel
  refine ⟨by decide +kernel, hrun, fun h => ?_⟩
  have hfit : AllFit ((steadyImport (gcmWrapped 40)).run []).final :=
    h _ _ _ lenientGcm_documented [1] [1] _
  rw [hrun] at hfit
  exact absurd (hfit _ List.mem_cons_self) (by decide)

end Huks
