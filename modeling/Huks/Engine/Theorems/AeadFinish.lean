import Huks.Engine.AeadFinish
import Huks.Engine.Theorems.KeyPolicy
import Huks.Engine.Theorems.OneStage

namespace Huks

open OutBuffer
open Except (orError_eq_ok)

namespace InPlace

-- What a caller passes: the size is that of the room.
def callerBuffer (room : Bytes) : OutBuffer := ⟨room, room.size⟩

section Sizes

variable {room : Bytes}

theorem size_toNat {bytes : Bytes} (h : bytes.length < 2 ^ 31) : bytes.size.toNat = bytes.length := by
  rw [Bytes.size, UInt32.toNat_ofNat', Nat.mod_eq_of_lt (by omega)]

theorem size_le (bytes : Bytes) : bytes.size.toNat ≤ bytes.length := by
  rw [Bytes.size, UInt32.toNat_ofNat']
  exact Nat.mod_le _ _

-- The sizes that are checked do not wrap around.
theorem sum_toNat {message : Bytes} {extra : UInt32} (hmessage : message.length < 2 ^ 31) (hextra : extra.toNat ≤ 12) :
    (message.size + 16 + extra).toNat = message.length + 16 + extra.toNat := by
  have hadd : (message.size + 16).toNat = message.length + 16 := by
    rw [toNat_add_of_lt (by rw [size_toNat hmessage, UInt32.size]; simp only [UInt32.reduceToNat]; omega),
      size_toNat hmessage]
    rfl
  rw [toNat_add_of_lt (by rw [hadd, UInt32.size]; omega), hadd]

theorem room_of_not_lt {message : Bytes} {extra : UInt32} (hmessage : message.length < 2 ^ 31)
    (hextra : extra.toNat ≤ 12) (h : ¬room.size < message.size + 16 + extra) :
    message.length + 16 + extra.toNat ≤ room.size.toNat := by
  rw [← sum_toNat hmessage hextra]
  exact UInt32.le_iff_toNat_le.mp (UInt32.not_lt.mp h)

end Sizes

-- The nonce that comes into the buffer: none, unless the engine has made it.
def generatedNonce (runtimeParamSet : HksParamSet) : Bytes :=
  match hksGetParam runtimeParamSet HksTag.nonce with
  | .ok nonceParam => if needAppendNonce runtimeParamSet then runtimeParamSet.blob nonceParam else []
  | .error _       => []

section Writes

variable {runtimeParamSet : HksParamSet} {inData : Bytes} {s : OutBuffer}

-- A nonce that is found has the size that its param says.
theorem length_nonce {nonceParam : HksParam} (h : hksGetParam runtimeParamSet HksTag.nonce = .ok nonceParam) :
    (runtimeParamSet.blob nonceParam).length = nonceParam.blobSize.toNat := by
  have hblob : nonceParam.checkBlob := hksGetParam_checkBlob (by decide) h
  have hdata : nonceParam.data ≠ .null := (of_decide_eq_true hblob).1
  rw [HksParamSet.blob, HksParam.read]
  split
  case h_1 hnull => exact absurd hnull hdata
  case h_2 => exact List.takeD_length _ _ _
  case h_3 => exact List.takeD_length _ _ _

theorem contained_appendNonce {nonceLen tagSize : UInt32} (hlen : 0 < nonceLen.toNat ∧ nonceLen.toNat ≤ secureMemMaxLen)
    {Q : PUnit → OutBuffer → Prop} :
    Contained Q (appendNonceWhenNeeded runtimeParamSet nonceLen inData tagSize) s ↔
      ((∀ p, hksGetParam runtimeParamSet HksTag.aesGcmNeedRegenerateNonce ≠ .ok p) → Q ⟨⟩ s) ∧
        (needAppendNonce runtimeParamSet → (generatedNonce runtimeParamSet).length = nonceLen.toNat →
          inData.size.toNat + tagSize.toNat + nonceLen.toNat ≤ s.room.length ∧
            Q ⟨⟩ ⟨splice s.room (inData.size.toNat + tagSize.toNat) (generatedNonce runtimeParamSet),
              s.size + nonceLen⟩) := by
  rw [appendNonceWhenNeeded]
  cases hflag : hksGetParam runtimeParamSet HksTag.aesGcmNeedRegenerateNonce
  case error e =>
    have hneed : ¬needAppendNonce runtimeParamSet := by rw [needAppendNonce, hflag]; nofun
    exact ⟨fun h => ⟨fun _ => h, fun hn => absurd hn hneed⟩, fun h => h.1 nofun⟩
  case ok flag =>
    have hneed : needAppendNonce runtimeParamSet ↔ flag.boolParam := by rw [needAppendNonce, hflag]
    rw [and_iff_right fun h => absurd rfl (h flag), hneed]
    dsimp only
    by_cases hbool : flag.boolParam
    case neg =>
      rw [if_pos hbool]
      exact iff_of_true trivial fun h => absurd h hbool
    case pos =>
      rw [if_neg (not_not.mpr hbool), forall_prop_of_true hbool, contained_bind, contained_reading, confined_checked]
      simp only [orError_eq_ok]
      cases hnonce : hksGetParam runtimeParamSet HksTag.nonce
      case error e =>
        have hnil : generatedNonce runtimeParamSet = [] := by rw [generatedNonce, hnonce]
        refine iff_of_true nofun fun hl => ?_
        rw [hnil, List.length_nil] at hl
        omega
      case ok nonceParam =>
        have hblob : generatedNonce runtimeParamSet = runtimeParamSet.blob nonceParam := by
          rw [generatedNonce, hnonce]
          exact if_pos (hneed.mpr hbool)
        have hl := length_nonce hnonce
        have hsize : (generatedNonce runtimeParamSet).length = nonceLen.toNat ↔ nonceParam.blobSize = nonceLen := by
          rw [hblob, hl, UInt32.toNat_inj]
        simp only [Except.ok.injEq, forall_eq']
        rw [hsize, contained_ite, ← hblob, not_ne_iff]
        refine (and_iff_right fun _ => trivial).trans (forall_congr' fun heq => ?_)
        have hnonceLen : (generatedNonce runtimeParamSet).length = nonceLen.toNat := hsize.mpr heq
        have hne : generatedNonce runtimeParamSet ≠ [] := List.ne_nil_of_length_pos (by omega)
        rw [contained_bind, contained_memcpyInto (by omega) (by omega), hnonceLen, or_iff_right hne]
        simp only [contained_ite, contained_bind, contained_get, contained_setSize, heq, forall_prop_of_true,
          not_true, IsEmpty.forall_iff, and_true]

end Writes

-- An encryption in GCM or CCM that `HksCoreInit` has started. The checks of the tags let no tag
-- through twice.
structure AeadSession where
  keyBlobParamSet : HksParamSet
  runtimeParamSet : HksParamSet
  ctx             : AeadCtx
  algorithm       : getUInt32 runtimeParamSet HksTag.algorithm = .ok HksKeyAlg.aes
  blockMode       : getUInt32 runtimeParamSet HksTag.blockMode = .ok ctx.mode
  purpose         : getUInt32 runtimeParamSet HksTag.purpose = .ok HksKeyPurpose.encrypt
  single          : ∀ tag ∈ [HksTag.algorithm, HksTag.blockMode, HksTag.purpose], Single tag runtimeParamSet.params

namespace AeadSession

variable (S : AeadSession) (ccm : CcmCipher) (inData room : Bytes)

def finish : OutM HksErrorCode PUnit := coreAesCipherFinish S.keyBlobParamSet S.runtimeParamSet ccm S.ctx inData

def nonceLen : UInt32 :=
  match S.ctx with
  | .gcm _ => hksAesGcmNonceLen
  | .ccm _ => hksAesCcmNonceLen

-- What the cipher makes of the data in this call
def Produces (cipherText tag : Bytes) : Prop :=
  match S.ctx with
  | .gcm evp        => ∃ ctx, evp = some ctx ∧
    (if inData = [] then cipherText = [] else ctx.update inData = some cipherText) ∧ ∃ t, ctx.tag = some t ∧ t = tag
  | .ccm cachedData => ∃ cached usageSpec key ctx, cachedData = some cached ∧
    hksBuildCipherUsageSpec S.runtimeParamSet = .ok usageSpec ∧ hksGetRawKey S.keyBlobParamSet = .ok key ∧
    ccm.encryptInit key usageSpec = .ok ctx ∧ ctx.update (cached ++ inData) = some cipherText ∧
      ∃ t, ctx.tag = some t ∧ t = tag

-- Cipher text, tag and nonce, which is what the caller needs to decrypt
structure Delivered (out : OutBuffer) : Prop where
  layout : ∃ cipherText tag, S.Produces ccm inData cipherText tag ∧
    out.size.toNat = cipherText.length + 16 + (if needAppendNonce S.runtimeParamSet then S.nonceLen.toNat else 0) ∧
      out.room.take out.size.toNat = cipherText ++ tag ++ generatedNonce S.runtimeParamSet
  fits   : out.size ≤ room.size

-- The finish delivers what it has to, or it refuses.
def FinishDelivers : Prop :=
  Contained (fun _ => S.Delivered ccm inData room) (S.finish ccm inData) (callerBuffer room)

-- In CCM, a buffer with room for the tag has room for the nonce as well.
def NonceFits : Prop :=
  ∀ cachedData, S.ctx = .ccm (some cachedData) →
    checkCachedSize cachedData inData hksCipherCcmModeMaxDataLen = .ok ⟨⟩ →
    ∀ message, getNewCachedData cachedData inData = .ok message →
    (∃ usageSpec, hksBuildCipherUsageSpec S.runtimeParamSet = .ok usageSpec) →
    (∃ key, hksGetRawKey S.keyBlobParamSet = .ok key) → needAppendNonce S.runtimeParamSet →
      ¬(message.size + 16 ≤ room.size ∧ room.size < message.size + 16 + 7)

section Sizes

variable {S : AeadSession}

theorem ctx_mode (ctx : AeadCtx) : ctx.mode = HksCipherMode.gcm ∨ ctx.mode = HksCipherMode.ccm := by
  cases ctx
  case gcm => exact .inl rfl
  case ccm => exact .inr rfl

theorem checkAesAeMode : hksCheckAesAeMode S.runtimeParamSet = .ok (true, true) := by
  have hmode : (S.ctx.mode = HksCipherMode.ccm ∨ S.ctx.mode = HksCipherMode.gcm) := (ctx_mode S.ctx).symm
  rw [hksCheckAesAeMode, S.algorithm, S.blockMode]
  change Except.ok (true, decide (S.ctx.mode = HksCipherMode.ccm ∨ S.ctx.mode = HksCipherMode.gcm)) = _
  rw [decide_eq_true hmode]

theorem getEncryptAeTag (inSize outSize : UInt32) : hksGetEncryptAeTag S.runtimeParamSet inSize outSize =
    if outSize < inSize + 16 then .error .invalidArgument else .ok 16 := by
  rw [hksGetEncryptAeTag, checkAesAeMode]
  rfl

theorem checkFinishOutSize (inSize outSize : UInt32) :
    hksCheckFinishOutSize true S.runtimeParamSet inSize outSize =
      if outSize < inSize + 16 then .error .bufferTooSmall else .ok () := by
  have halg := usageSpec_algType (S.single _ (by decide)) S.algorithm
  have hmode := usageSpec_mode (S.single _ (by decide)) S.blockMode
  rw [hksCheckFinishOutSize]
  rw [halg, if_neg (by decide), if_neg (by decide), if_pos (.inl rfl), checkBlockCipherData]
  rw [hmode, if_pos (ctx_mode S.ctx), if_pos halg]
  rfl

theorem buildCipherUsageSpec_purpose {usageSpec : HksUsageSpec}
    (h : hksBuildCipherUsageSpec S.runtimeParamSet = .ok usageSpec) : usageSpec.purpose = HksKeyPurpose.encrypt :=
  (hksBuildCipherUsageSpec_ok h).2.2.2.trans (usageSpec_purpose (S.single _ (by decide)) S.purpose)

end Sizes

section Layout

variable {S : AeadSession} {ccm : CcmCipher} {inData room message cipherText tag : Bytes}

theorem nonceLen_cases : S.nonceLen = 12 ∨ S.nonceLen = 7 := by
  rw [nonceLen]
  cases S.ctx
  case gcm => exact .inl rfl
  case ccm => exact .inr rfl

-- The nonce and the size complete a buffer that begins with the cipher text and its tag.
theorem contained_layout (hmessage : message.length < 2 ^ 31) (hcipher : cipherText.length = message.length)
    (htag : tag.length = 16) (hproduces : S.Produces ccm inData cipherText tag)
    (hroom : message.length + 16 ≤ room.size.toNat)
    (hnonce : needAppendNonce S.runtimeParamSet → message.length + 16 + S.nonceLen.toNat ≤ room.size.toNat) :
    Contained (fun _ => S.Delivered ccm inData room) (do
      appendNonceWhenNeeded S.runtimeParamSet S.nonceLen message 16
      let out ← get
      setSize (out.size + 16) : OutM HksErrorCode PUnit)
      ⟨splice room 0 (cipherText ++ tag), cipherText.size⟩ := by
  have hsize := size_le room
  have hlen : (cipherText ++ tag).length = message.length + 16 := by rw [List.length_append, hcipher, htag]
  have hsplice : (splice room 0 (cipherText ++ tag)).length = room.length := length_splice (by omega)
  have hct : cipherText.size.toNat = message.length := (size_toNat (hcipher ▸ hmessage)).trans hcipher
  have hnonceLen : 0 < S.nonceLen.toNat ∧ S.nonceLen.toNat ≤ 12 := by
    obtain h | h := nonceLen_cases (S := S) <;> rw [h] <;> decide
  have hmax : S.nonceLen.toNat ≤ secureMemMaxLen := Nat.le_trans hnonceLen.2 (by decide)
  have hbound : room.size.toNat < 2 ^ 32 := UInt32.toNat_lt _
  rw [contained_bind, contained_appendNonce ⟨hnonceLen.1, hmax⟩]
  constructor
  case left =>
    intro hflag
    have hneed : ¬needAppendNonce S.runtimeParamSet := by
      rw [needAppendNonce]
      split
      case h_1 => nofun
      case h_2 flag hok => exact absurd hok (hflag flag)
    have hnil : generatedNonce S.runtimeParamSet = [] := by
      rw [generatedNonce]
      split
      case h_1 => exact if_neg hneed
      case h_2 => rfl
    have hout : (cipherText.size + 16).toNat = message.length + 16 := by
      rw [toNat_add_of_lt (by rw [hct]; simp only [UInt32.reduceToNat, UInt32.size]; omega), hct]
      rfl
    rw [contained_bind, contained_get, contained_setSize]
    refine ⟨⟨cipherText, tag, hproduces, ?_, ?_⟩, UInt32.le_iff_toNat_le.mpr (by dsimp only; omega)⟩
    · rw [if_neg hneed]
      dsimp only
      omega
    · dsimp only
      rw [hout, hnil, List.append_nil, splice, List.take_zero, List.nil_append, ← hlen]
      exact List.take_left
  case right =>
    intro hneed hnonceSize
    have hroom := hnonce hneed
    have hplace : message.size.toNat + (16 : UInt32).toNat = 0 + (cipherText ++ tag).length := by
      rw [size_toNat hmessage, hlen, Nat.zero_add]
      rfl
    have hout : (cipherText.size + S.nonceLen + 16).toNat = message.length + 16 + S.nonceLen.toNat := by
      have hadd : (cipherText.size + S.nonceLen).toNat = message.length + S.nonceLen.toNat := by
        rw [toNat_add_of_lt (by rw [hct, UInt32.size]; omega), hct]
      rw [toNat_add_of_lt (by rw [hadd, UInt32.size]; simp only [UInt32.reduceToNat]; omega), hadd]
      simp only [UInt32.reduceToNat]
      omega
    rw [contained_bind, contained_get, contained_setSize, hplace, splice_append (by omega)]
    refine ⟨?_, ⟨cipherText, tag, hproduces, ?_, ?_⟩, UInt32.le_iff_toNat_le.mpr (by dsimp only; omega)⟩
    · rw [hsplice]
      omega
    · rw [if_pos hneed]
      dsimp only
      omega
    · have hall : (cipherText ++ tag ++ generatedNonce S.runtimeParamSet).length =
        message.length + 16 + S.nonceLen.toNat := by
        rw [List.length_append, hlen, hnonceSize]
      dsimp only
      rw [hout, splice, List.take_zero, List.nil_append, ← hall]
      exact List.take_left

end Layout

section Library

variable {evp : EvpAead} {s : OutBuffer}

theorem contained_encryptUpdate {Q : UInt32 → OutBuffer → Prop} {message : Bytes} :
    Contained Q (evp.encryptUpdate message) s ↔
      (message.length < 2 ^ 31 → ∀ cipherText, evp.update message = some cipherText →
        (cipherText = [] ∨ 0 + cipherText.length ≤ s.room.length) ∧
          Q cipherText.size { s with room := splice s.room 0 cipherText }) := by
  rw [EvpAead.encryptUpdate, contained_ite, Nat.not_le]
  refine (and_iff_right fun _ => trivial).trans (forall_congr' fun _ => ?_)
  cases evp.update message
  case none => exact iff_of_true trivial nofun
  case some cipherText =>
    simp only [contained_bind, contained_writeAt, contained_pure, Option.some.injEq, forall_eq']

theorem contained_encryptFinal {Q : PUnit → OutBuffer → Prop} :
    Contained Q evp.encryptFinal s ↔ (evp.final → Q ⟨⟩ s) := by
  rw [EvpAead.encryptFinal, contained_ite]
  exact and_iff_left fun _ => trivial

theorem contained_getTag {Q : PUnit → OutBuffer → Prop} {tagAead : Nat} :
    Contained Q (evp.getTag tagAead) s ↔ ∀ tag, evp.tag = some tag →
      tagAead + 16 ≤ s.room.length ∧ Q ⟨⟩ { s with room := splice s.room tagAead tag } := by
  rw [EvpAead.getTag]
  cases evp.tag
  case none => exact iff_of_true trivial nofun
  case some tag =>
    have hne : tag.val ≠ [] := List.ne_nil_of_length_pos (by rw [tag.property]; decide)
    dsimp only
    rw [contained_writeAt, tag.property, or_iff_right hne]
    simp only [Option.some.injEq, forall_eq']

end Library

section Finish

variable {S : AeadSession} {ccm : CcmCipher} {inData room : Bytes}

-- What both modes do behind the update: the tag behind the cipher text, then nonce and size
theorem contained_rest (room : Bytes) {evp : EvpAead} {message cipherText : Bytes} {size : UInt32}
    (hmessage : message.length < 2 ^ 31) (hcipher : cipherText.length = message.length)
    (hsize : size = cipherText.size)
    (hproduces : ∀ t, evp.tag = some t → S.Produces ccm inData cipherText t)
    (hroom : message.length + 16 ≤ room.size.toNat)
    (hnonce : needAppendNonce S.runtimeParamSet → message.length + 16 + S.nonceLen.toNat ≤ room.size.toNat)
    (tag : { tag : Bytes // tag.length = 16 }) (htag : evp.tag = some tag) :
    message.size.toNat + 16 ≤ (splice room 0 cipherText).length ∧
    Contained (fun _ => S.Delivered ccm inData room) (do
      appendNonceWhenNeeded S.runtimeParamSet S.nonceLen message 16
      let out ← get
      setSize (out.size + 16) : OutM HksErrorCode PUnit)
      ⟨splice (splice room 0 cipherText) message.size.toNat tag, size⟩ := by
  have hlen := size_le room
  have hct : 0 + cipherText.length ≤ room.length := by omega
  have hplace : message.size.toNat = 0 + cipherText.length := by
    rw [size_toNat hmessage, hcipher, Nat.zero_add]
  rw [hplace, splice_append hct, length_splice hct, hsize]
  refine ⟨by omega, ?_⟩
  exact contained_layout hmessage hcipher tag.property (hproduces tag htag) hroom hnonce

theorem tagSize_ok {tagSize : UInt32} {inSize outSize : UInt32}
    (h : hksGetEncryptAeTag S.runtimeParamSet inSize outSize = .ok tagSize) :
    ¬outSize < inSize + 16 ∧ tagSize = 16 := by
  rw [getEncryptAeTag] at h
  split at h
  case isTrue => nomatch h
  case isFalse hsmall => exact ⟨hsmall, (Except.ok.inj h).symm⟩

theorem gcm_delivers {evp : Option EvpAead} (hctx : S.ctx = .gcm evp) : S.FinishDelivers ccm inData room := by
  rw [FinishDelivers, finish, hctx]
  change Contained _ (coreAesEncryptFinish S.runtimeParamSet opensslAesAeadEncryptFinalGCM evp inData) _
  have hnonceLen : S.nonceLen = hksAesGcmNonceLen := by rw [nonceLen, hctx]
  rw [coreAesEncryptFinish, contained_bind, contained_get, contained_bind, contained_reading, confined_checked]
  intro tagSize htagSize
  obtain ⟨hsmall, rfl⟩ := tagSize_ok htagSize
  simp only [contained_bind, contained_discard, contained_reading, confined_checked]
  intro _ _ _ _
  match evp with
  | none     => exact trivial
  | some evp =>
    rw [contained_ite]
    refine ⟨fun _ => trivial, fun hfits => ?_⟩
    have hproduces {cipherText : Bytes}
        (hupdate : if inData = [] then cipherText = [] else evp.update inData = some cipherText)
        (t : { tag : Bytes // tag.length = 16 }) (ht : evp.tag = some t) : S.Produces ccm inData cipherText t := by
      rw [Produces, hctx]
      exact ⟨evp, rfl, hupdate, t, ht, rfl⟩
    have hrest {cipherText : Bytes} (hlen : inData.length < 2 ^ 31) (hcipher : cipherText.length = inData.length)
        (hupdate : if inData = [] then cipherText = [] else evp.update inData = some cipherText) :=
      contained_rest room hlen hcipher rfl (hproduces hupdate)
        (room_of_not_lt hlen (by decide : (0 : UInt32).toNat ≤ 12) (by rwa [UInt32.add_zero]))
        fun hneed => by
          rw [hnonceLen]
          exact room_of_not_lt hlen (by decide) fun hlt => hfits ⟨hneed, hlt⟩
    rw [← hnonceLen, opensslAesAeadEncryptFinalGCM]
    simp only [contained_bind, contained_ite, contained_pure, contained_encryptUpdate, contained_encryptFinal,
      contained_getTag, contained_setSize]
    constructor
    case left =>
      intro hnil _ tag htag
      have h := @hrest [] (by rw [hnil]; decide) (by rw [hnil]) (by rw [if_pos hnil]) tag htag
      rwa [splice_nil, contained_bind] at h
    case right =>
      intro hne hlen cipherText hupdate
      have hcipher := evp.length_update hupdate
      have hroom : 0 + cipherText.length ≤ room.length := by
        have hfit := room_of_not_lt hlen (by decide : (0 : UInt32).toNat ≤ 12) (by rwa [UInt32.add_zero])
        have hsize := size_le room
        omega
      refine ⟨.inr hroom, fun _ tag htag => ?_⟩
      have h := hrest hlen hcipher (by rwa [if_neg hne]) tag htag
      rwa [contained_bind] at h

theorem newCachedData_ok {cachedData message : Bytes} (h : getNewCachedData cachedData inData = .ok message) :
    message = cachedData ++ inData ∧ message ≠ [] ∧ message.length < 2 ^ 31 := by
  rw [getNewCachedData] at h
  split_ifs at h with _ hmalloc
  obtain rfl := Except.ok.inj h
  have ⟨hpos, hle⟩ := mallocOk_iff.mp hmalloc
  have hlen : (cachedData ++ inData).length ≤ 0x800000 := by rwa [List.length_append]
  refine ⟨rfl, List.ne_nil_of_length_pos (by rwa [List.length_append]), by omega⟩

-- What is left of the finish in CCM when the data has been gathered and the branch of too small a
-- buffer is not taken.
theorem ccm_encrypts {cachedData message rawKey : Bytes} {usageSpec : HksUsageSpec}
    (hctx : S.ctx = .ccm (some cachedData)) (hmessage : getNewCachedData cachedData inData = .ok message)
    (hspec : hksBuildCipherUsageSpec S.runtimeParamSet = .ok usageSpec)
    (hkey : hksGetRawKey S.keyBlobParamSet = .ok rawKey) (hsmall : ¬room.size < message.size + 16)
    (hfits : ¬(needAppendNonce S.runtimeParamSet ∧ room.size < message.size + 16 + hksAesCcmNonceLen)) :
    Contained (fun _ => S.Delivered ccm inData room) (do
      hksCryptoHalEncryptCcm ccm rawKey usageSpec message message.size.toNat
      appendNonceWhenNeeded S.runtimeParamSet hksAesCcmNonceLen message 16
      let out ← get
      setSize (out.size + 16) : OutM HksErrorCode PUnit) (callerBuffer room) := by
  have hnonceLen : S.nonceLen = hksAesCcmNonceLen := by rw [nonceLen, hctx]
  have ⟨hdata, hne, hlen⟩ := newCachedData_ok hmessage
  have hroom := room_of_not_lt hlen (by decide : (0 : UInt32).toNat ≤ 12) (by rwa [UInt32.add_zero])
  have hwrite : 0 + message.length ≤ room.length := by
    have hsize := size_le room
    omega
  rw [← hnonceLen]
  simp only [hksCryptoHalEncryptCcm, hksOpensslAesEncryptCcm, opensslAesAeadCipherFinal, opensslAesAeadCipherUpdate,
    contained_bind, contained_get, contained_ite, contained_refuse, contained_reading, confined_checked,
    contained_pure, contained_encryptUpdate, contained_encryptFinal, contained_getTag, contained_setSize,
    implies_true, true_and]
  refine fun _ evp hevp => ⟨fun hnil => absurd hnil hne, fun _ _ _ _ cipherText hupdate => ?_⟩
  have hcipher := evp.length_update hupdate
  refine ⟨.inr (hcipher ▸ hwrite), fun _ tag htag => ?_⟩
  have hproduces (t : { tag : Bytes // tag.length = 16 }) (ht : evp.tag = some t) :
      S.Produces ccm inData cipherText t := by
    rw [Produces, hctx]
    exact ⟨cachedData, usageSpec, rawKey, evp, rfl, hspec, hkey, hevp, hdata ▸ hupdate, t, ht, rfl⟩
  have h := contained_rest room hlen hcipher rfl hproduces hroom
    (fun hneed => by
      rw [hnonceLen]
      exact room_of_not_lt hlen (by decide) fun hlt => hfits ⟨hneed, hlt⟩) tag htag
  rwa [contained_bind] at h

-- Nothing has been written when the branch of too small a buffer is taken.
theorem ccm_not_delivered {cachedData message : Bytes} (hctx : S.ctx = .ccm (some cachedData))
    (hmessage : getNewCachedData cachedData inData = .ok message) (hneed : needAppendNonce S.runtimeParamSet)
    (hsmall : room.size < message.size + 16 + hksAesCcmNonceLen) :
    ¬S.Delivered ccm inData room (callerBuffer room) := by
  have ⟨hdata, _, hlen⟩ := newCachedData_ok hmessage
  intro h
  have ⟨cipherText, tag, hproduces, hsize, _⟩ := h.layout
  rw [Produces, hctx] at hproduces
  have ⟨cached, _, _, evp, hcached, _, _, _, hupdate, _⟩ := hproduces
  obtain rfl := Option.some.inj hcached
  have hcipher := evp.length_update hupdate
  rw [if_pos hneed, nonceLen, hctx, hcipher, ← hdata] at hsize
  have hlt := UInt32.lt_iff_toNat_lt.mp hsmall
  rw [sum_toNat hlen (by decide)] at hlt
  dsimp only [callerBuffer] at hsize
  omega

theorem ccm_iff {cachedData : Option Bytes} (hctx : S.ctx = .ccm cachedData) :
    S.FinishDelivers ccm inData room ↔ S.NonceFits inData room := by
  rw [FinishDelivers, finish, hctx]
  match cachedData with
  | none            => exact iff_of_true trivial fun _ h => by cases hctx.symm.trans h
  | some cachedData =>
    simp only [coreAesCipherFinish, coreAesCcmCipherFinish, contained_bind, contained_reading, confined_checked,
      contained_get, contained_ite, contained_pure]
    constructor
    case mp =>
      intro h cached hcached hcheck message hmessage hspec hkey hneed hsizes
      obtain rfl := Option.some.inj (AeadCtx.ccm.inj (hcached.symm.trans hctx))
      obtain ⟨usageSpec, hspec⟩ := hspec
      obtain ⟨rawKey, hkey⟩ := hkey
      have hout : hksCheckFinishOutSize true S.runtimeParamSet message.size (callerBuffer room).size = .ok ⟨⟩ := by
        rw [checkFinishOutSize]
        exact if_neg (UInt32.not_lt.mpr hsizes.1)
      have hdelivered := (h ⟨⟩ hcheck message hmessage ⟨⟩ hout usageSpec hspec rawKey hkey).1 ⟨hneed, hsizes.2⟩
      exact ccm_not_delivered hctx hmessage hneed hsizes.2 hdelivered
    case mpr =>
      intro h _ hcheck message hmessage _ hout usageSpec hspec rawKey hkey
      have hsmall : ¬room.size < message.size + 16 := by
        rw [checkFinishOutSize] at hout
        split at hout
        case isTrue => cases hout
        case isFalse hsmall => exact hsmall
      constructor
      case left =>
        rintro ⟨hneed, hlt⟩
        have hfits := h cachedData hctx hcheck message hmessage ⟨usageSpec, hspec⟩ ⟨rawKey, hkey⟩ hneed
        exact absurd ⟨UInt32.not_lt.mp hsmall, hlt⟩ hfits
      case right =>
        intro hfits
        refine ⟨fun _ tagSize htagSize => ?_, fun hpurpose => ?_⟩
        · obtain ⟨_, rfl⟩ := tagSize_ok htagSize
          have hencrypts := @ccm_encrypts S ccm _ _ _ _ _ _ hctx hmessage hspec hkey hsmall hfits
          simpa only [contained_bind, contained_get] using hencrypts
        · exact absurd (buildCipherUsageSpec_purpose hspec) hpurpose

theorem aeadFinish_iff : S.FinishDelivers ccm inData room ↔ S.NonceFits inData room := by
  cases hctx : S.ctx
  case gcm evp => exact iff_of_true (gcm_delivers hctx) fun _ h => nomatch hctx.symm.trans h
  case ccm cachedData => exact ccm_iff hctx

end Finish

end AeadSession

-- A context that takes every message as its own cipher text
def plainAead : EvpAead where
  setLength _   := true
  updateAad _   := true
  update        := some
  final         := true
  tag           := some ⟨.replicate 16 0, by decide⟩
  length_update := fun h => congrArg List.length (Option.some.inj h).symm

def plainCcm : CcmCipher where
  encryptInit _ _ := .ok plainAead
  decrypt _ _ _ _ := refuse .cryptoEngineError

-- An encryption in CCM whose nonce the engine has made, at its first byte
def ccmSession : AeadSession where
  keyBlobParamSet := openedKey [.ofUInt32 HksTag.algorithm HksKeyAlg.aes]
  runtimeParamSet := builtParamSet [.ofUInt32 HksTag.algorithm HksKeyAlg.aes,
    .ofUInt32 HksTag.purpose HksKeyPurpose.encrypt, .ofUInt32 HksTag.blockMode HksCipherMode.ccm,
    .ofBytes HksTag.nonce (.replicate 7 1), .ofBool HksTag.aesGcmNeedRegenerateNonce true]
  ctx             := .ccm (some [])
  algorithm       := by decide
  blockMode       := by decide
  purpose         := by decide
  single          := fun tag _ => single_of_nodup (by decide) tag

-- The buffer has room for the cipher text and the tag only. The call succeeds without a write.
theorem ccmFinish_undelivered : ¬ccmSession.FinishDelivers plainCcm [1] (.replicate 17 0) := by
  have hrun : (ccmSession.finish plainCcm [1]).run (callerBuffer (.replicate 17 0)) =
      .ok ⟨⟩ (callerBuffer (.replicate 17 0)) := by
    rfl
  intro h
  rw [AeadSession.FinishDelivers, Contained, hrun] at h
  have hneed : needAppendNonce ccmSession.runtimeParamSet := by decide
  have hmessage : getNewCachedData [] [1] = .ok [1] := by decide
  exact AeadSession.ccm_not_delivered rfl hmessage hneed (by decide) h

end InPlace

end Huks
