import Huks.Engine.BlockCipher
import Huks.Engine.Theorems.AeadFinish

namespace Huks

open OutBuffer

namespace EvpCipher

variable {C : EvpCipher} {fed message : Bytes} {s : OutBuffer}

theorem whole_le (n : Nat) : C.whole n ≤ n := by
  rw [whole]
  split
  case isTrue => exact Nat.sub_le _ _
  case isFalse => exact Nat.sub_le _ _

theorem length_emitted :
    (C.emitted fed message).length = C.whole (fed.length + message.length) - C.whole fed.length := by
  have hle := C.whole_le (fed.length + message.length)
  have hlen : (C.stream (fed ++ message)).length = fed.length + message.length := by
    rw [C.length_stream, List.length_append]
  by_cases h : C.whole fed.length ≤ C.whole (fed.length + message.length)
  case pos =>
    rw [emitted, length_slice]
    rw [hlen]
    omega
  case neg =>
    rw [emitted, slice, List.length_take]
    omega

theorem contained_evpUpdate {Q : Bytes → OutBuffer → Prop} : Contained Q (C.evpUpdate fed message) s ↔
    (message.length < 2 ^ 31 → (C.emitted fed message).length ≤ s.room.length ∧
      Q (C.emitted fed message) { s with room := splice s.room 0 (C.emitted fed message) }) := by
  rw [evpUpdate, contained_ite, Nat.not_le]
  refine (and_iff_right fun _ => trivial).trans (forall_congr' fun _ => ?_)
  rw [contained_bind, contained_writeAt, Nat.zero_add]
  refine and_congr ⟨fun h => ?_, .inr⟩ Iff.rfl
  obtain hnil | hle := h
  · rw [hnil]
    exact Nat.zero_le _
  · exact hle

theorem contained_update {Q : Bytes → Prop} :
    Contained (fun fed _ => Q fed) (C.opensslBlockCipherUpdate fed message) s ↔
      (message.length < 2 ^ 31 → (C.emitted fed message).length ≤ s.room.length ∧ Q (fed ++ message)) := by
  rw [opensslBlockCipherUpdate, contained_bind, contained_evpUpdate]
  exact Iff.rfl

-- The output of the finish: what its update adds, and what the final call does
theorem contained_final {R : OutBuffer → Prop}
    (hR : message.length < 2 ^ 31 → ∀ t : OutBuffer, t.room.length = s.room.length → R t) :
    Contained (fun _ => R) (C.opensslBlockCipherHandleFinalThree fed message) s ↔
      (message.length < 2 ^ 31 → ∀ out, out = (if message = [] then [] else C.emitted fed message) →
        out.length ≤ s.room.length ∧ ∀ last, C.final (fed ++ message) = some last →
          out.length + last.length ≤ s.room.length) := by
  rw [opensslBlockCipherHandleFinalThree, contained_ite, contained_bind, contained_bind]
  generalize C.final (fed ++ message) = final
  have hlast {t : OutBuffer} {out : Bytes} {rest : OutM HksErrorCode PUnit}
      (hnone : final = none → rest = refuse .cryptoEngineError)
      (hsome : ∀ last, final = some last → rest = (do
        writeAt out.length last
        setSize (out.size + Bytes.size last)))
      (hlen : message.length < 2 ^ 31) (ht : t.room.length = s.room.length) (hout : out.length ≤ s.room.length) :
      Contained (fun _ => R) (do setSize out.size; rest) t ↔
        ∀ last, final = some last → out.length + last.length ≤ s.room.length := by
    rw [contained_bind, contained_setSize]
    cases final
    case none => rw [hnone rfl]; exact iff_of_true trivial fun _ h => by cases h
    case some last =>
      rw [hsome last rfl, contained_bind, contained_writeAt, contained_setSize]
      dsimp only
      simp only [Option.some.injEq, forall_eq', ht]
      constructor
      case mp =>
        rintro ⟨h, _⟩
        obtain rfl | hle := h
        · exact hout
        · exact hle
      case mpr =>
        intro h
        refine ⟨.inr h, hR hlen _ ?_⟩
        dsimp only
        rw [length_splice (by omega), ht]
  by_cases hnil : message = []
  case pos =>
    rw [forall_prop_of_true hnil, and_iff_left fun h => absurd hnil h, contained_pure]
    have hlen : message.length < 2 ^ 31 := by rw [hnil]; decide
    beta_reduce
    refine Iff.trans (hlast ?_ ?_ hlen rfl (Nat.zero_le _)) ?_
    · rintro rfl; rfl
    · rintro last rfl; rfl
    simp only [if_pos hnil, forall_eq, List.length_nil, Nat.zero_le, true_and]
    exact ⟨fun h _ => h, fun h => h hlen⟩
  case neg =>
    rw [and_iff_right fun h => absurd h hnil, forall_prop_of_true hnil, contained_evpUpdate]
    simp only [if_neg hnil, forall_eq]
    refine forall_congr' fun hlen => and_congr_right fun hroom => ?_
    refine hlast ?_ ?_ hlen ?_ hroom
    · rintro rfl; rfl
    · rintro last rfl; rfl
    · exact length_splice (by omega)

end EvpCipher

namespace InPlace

-- A session of a block cipher, with the context that `HksCoreInit` has opened for it. The block of DES
-- has eight bytes, and CTR, CFB and OFB work byte by byte.
structure BlockCipherSession where
  runtimeParamSet : HksParamSet
  cipher          : EvpCipher
  alg             : UInt32
  mode            : UInt32
  algorithm       : getUInt32 runtimeParamSet HksTag.algorithm = .ok alg
  blockMode       : getUInt32 runtimeParamSet HksTag.blockMode = .ok mode
  purpose         : getUInt32 runtimeParamSet HksTag.purpose =
    .ok (if cipher.isEncrypt then HksKeyPurpose.encrypt else HksKeyPurpose.decrypt)
  alg_block       : alg ∈ [HksKeyAlg.aes, HksKeyAlg.des, HksKeyAlg.tripleDes, HksKeyAlg.sm4]
  mode_block      : mode ∈ [HksCipherMode.cbc, HksCipherMode.ecb, HksCipherMode.ctr, HksCipherMode.cfb,
    HksCipherMode.ofb]
  blockSize       : cipher.blockSize =
    if mode ∉ [HksCipherMode.cbc, HksCipherMode.ecb] then 1
    else if alg ∈ [HksKeyAlg.des, HksKeyAlg.tripleDes] then 8 else 16
  single          : ∀ tag ∈ [HksTag.algorithm, HksTag.blockMode], Single tag runtimeParamSet.params
  padded          : cipher.padded ↔ (hksFillUsageSpec runtimeParamSet).padding ≠ HksKeyPadding.none

-- A call on the session, with the data and the buffer for the output
inductive CipherCall
  | update (inData room : Bytes)
  | finish (inData room : Bytes)

def CipherCall.room : CipherCall → Bytes
  | .update _ room => room
  | .finish _ room => room

namespace BlockCipherSession

variable (S : BlockCipherSession)

-- The context that a call leaves: none behind the finish
def exec (ctx : Option Bytes) : CipherCall → OutM HksErrorCode (Option Bytes)
  | .update inData _ => coreCipherUpdate S.runtimeParamSet S.cipher ctx inData
  | .finish inData _ => do
    finishBlockCipher S.runtimeParamSet S.cipher S.alg ctx inData
    return none

-- No call of the run writes outside its buffer. A call that fails is the last one, as the engine
-- deletes the key node then.
def RunInside : Option Bytes → List CipherCall → Prop
  | _, []              => True
  | ctx, call :: calls =>
    Contained (fun ctx _ => RunInside ctx calls) (S.exec ctx call) (callerBuffer call.room)

-- The checks of an update let these sizes pass.
def UpdatePasses (inData room : Bytes) : Prop :=
  inData ≠ [] ∧ inData.length < 2 ^ 31 ∧ room.size ≠ 0 ∧ inData.size ≤ room.size

instance (inData room : Bytes) : Decidable (UpdatePasses inData room) := inferInstanceAs (Decidable (_ ∧ _))

def FinishPasses (inData room : Bytes) : Prop :=
  inData.length < 2 ^ 31 ∧
    hksCheckFinishOutSize S.cipher.isEncrypt S.runtimeParamSet inData.size room.size = .ok ⟨⟩ ∧
    (∃ ctxParam, hksGetParam S.runtimeParamSet HksTag.cryptoCtx = .ok ctxParam) ∧
    ¬(S.alg = HksKeyAlg.aes ∧ S.cipher.isEncrypt ∧ needAppendNonce S.runtimeParamSet ∧
      room.size < inData.size + 16 + 12)

-- What the cipher holds back of `fed` and the data in whole blocks now has room in each buffer, and
-- at the end the rest with its padding as well.
def RunFits : Bytes → List CipherCall → Prop
  | _, []                             => True
  | fed, .update inData room :: calls => UpdatePasses inData room →
    S.cipher.whole (fed.length + inData.length) - S.cipher.whole fed.length ≤ room.length ∧
      RunFits (fed ++ inData) calls
  | fed, .finish inData room :: _     => S.FinishPasses inData room →
    S.cipher.whole (fed.length + inData.length) - S.cipher.whole fed.length ≤ room.length ∧
      ∀ last, S.cipher.final (fed ++ inData) = some last →
        S.cipher.whole (fed.length + inData.length) - S.cipher.whole fed.length + last.length ≤ room.length

variable {S} {ctx : Option Bytes} {fed inData room : Bytes}

theorem mode_aead : ¬(S.mode = HksCipherMode.ccm ∨ S.mode = HksCipherMode.gcm) := by
  have hall : [HksCipherMode.cbc, HksCipherMode.ecb, HksCipherMode.ctr, HksCipherMode.cfb,
    HksCipherMode.ofb].all fun mode => ¬(mode = HksCipherMode.ccm ∨ mode = HksCipherMode.gcm) := by decide
  exact of_decide_eq_true (List.all_eq_true.mp hall S.mode S.mode_block)

theorem aeMode : ∃ isAes, hksCheckAesAeMode S.runtimeParamSet = .ok (isAes, false) := by
  rw [hksCheckAesAeMode, S.algorithm, S.blockMode]
  change ∃ isAes, (if S.alg ≠ HksKeyAlg.aes then Except.ok (false, false) else
    Except.ok (true, decide (S.mode = HksCipherMode.ccm ∨ S.mode = HksCipherMode.gcm))) = _
  split
  case isTrue => exact ⟨false, rfl⟩
  case isFalse => exact ⟨true, by rw [decide_eq_false S.mode_aead]⟩

theorem encryptAeTag (inSize outSize : UInt32) : hksGetEncryptAeTag S.runtimeParamSet inSize outSize = .ok 0 := by
  obtain ⟨isAes, hmode⟩ := S.aeMode
  rw [hksGetEncryptAeTag, hmode]
  exact if_pos (.inr (fun h => by cases h))

theorem contained_coreUpdate {R : Option Bytes → Prop} :
    Contained (fun ctx _ => R ctx) (coreCipherUpdate S.runtimeParamSet S.cipher (some fed) inData) (callerBuffer room) ↔
      (UpdatePasses inData room →
        S.cipher.whole (fed.length + inData.length) - S.cipher.whole fed.length ≤ room.length ∧
          R (some (fed ++ inData))) := by
  rw [coreCipherUpdate, contained_bind, contained_get]
  simp only [contained_ite, contained_refuse, implies_true, true_and, contained_bind, contained_discard,
    contained_reading, confined_checked, S.purpose, Except.ok.injEq, forall_eq', contained_pure]
  rw [EvpCipher.contained_update (Q := fun fed => R (some fed)), EvpCipher.length_emitted, UInt32.not_lt]
  exact ⟨fun h hp => h hp.2.2.1 hp.2.2.2 hp.1 hp.2.1, fun h hsize hle hne hlen => h ⟨hne, hlen, hsize, hle⟩⟩

-- The lengths of the output of a finish
theorem finalLength_iff {out : Bytes} (h : out = if inData = [] then [] else S.cipher.emitted fed inData) :
    out.length = S.cipher.whole (fed.length + inData.length) - S.cipher.whole fed.length := by
  rw [h]
  split
  case isTrue hnil => rw [hnil, List.length_nil, Nat.add_zero, Nat.sub_self]
  case isFalse => exact EvpCipher.length_emitted

theorem contained_coreFinal {R : OutBuffer → Prop}
    (hR : inData.length < 2 ^ 31 → ∀ t : OutBuffer, t.room.length = room.length → R t) :
    Contained (fun _ => R) (S.cipher.opensslBlockCipherHandleFinalThree fed inData) (callerBuffer room) ↔
      (inData.length < 2 ^ 31 →
        S.cipher.whole (fed.length + inData.length) - S.cipher.whole fed.length ≤ room.length ∧
        ∀ last, S.cipher.final (fed ++ inData) = some last →
          S.cipher.whole (fed.length + inData.length) - S.cipher.whole fed.length + last.length ≤ room.length) := by
  rw [EvpCipher.contained_final hR]
  refine forall_congr' fun _ => ?_
  constructor
  case mp =>
    intro h
    have h := h _ rfl
    rwa [finalLength_iff rfl] at h
  case mpr =>
    intro h out hout
    rwa [finalLength_iff hout]

-- A nonce behind the data stays in the buffer when its size has been checked.
theorem nonce_inside {t : OutBuffer} (hlen : inData.length < 2 ^ 31)
    (hfits : ¬(needAppendNonce S.runtimeParamSet ∧ room.size < inData.size + hksAeTagLen + hksAesGcmNonceLen))
    (ht : t.room.length = room.length) :
    Contained (fun _ _ => True) (appendNonceWhenNeeded S.runtimeParamSet hksAesGcmNonceLen inData 0) t := by
  rw [contained_appendNonce (by decide)]
  refine ⟨fun _ => trivial, fun hneed _ => ⟨?_, trivial⟩⟩
  have hroom := room_of_not_lt hlen (by decide) fun hlt => hfits ⟨hneed, hlt⟩
  have hsize := size_le room
  rw [size_toNat hlen, ht]
  simp only [UInt32.reduceToNat]
  omega

theorem contained_finish : Contained (fun _ _ => True)
    (finishBlockCipher S.runtimeParamSet S.cipher S.alg (some fed) inData) (callerBuffer room) ↔
      (S.FinishPasses inData room →
        S.cipher.whole (fed.length + inData.length) - S.cipher.whole fed.length ≤ room.length ∧
        ∀ last, S.cipher.final (fed ++ inData) = some last →
          S.cipher.whole (fed.length + inData.length) - S.cipher.whole fed.length + last.length ≤ room.length) := by
  have hblock : Contained (fun _ _ => True) (coreBlockCipherFinish S.runtimeParamSet S.cipher (some fed) inData)
      (callerBuffer room) ↔
        (hksCheckFinishOutSize S.cipher.isEncrypt S.runtimeParamSet inData.size room.size = .ok ⟨⟩ →
          (∃ ctxParam, hksGetParam S.runtimeParamSet HksTag.cryptoCtx = .ok ctxParam) → inData.length < 2 ^ 31 →
          S.cipher.whole (fed.length + inData.length) - S.cipher.whole fed.length ≤ room.length ∧
          ∀ last, S.cipher.final (fed ++ inData) = some last →
            S.cipher.whole (fed.length + inData.length) - S.cipher.whole fed.length + last.length ≤ room.length) := by
    simp only [coreBlockCipherFinish, contained_bind, contained_get, contained_discard, contained_reading,
      confined_checked]
    rw [contained_coreFinal (R := fun _ => True) fun _ _ _ => trivial]
    exact ⟨fun h hout ⟨p, hp⟩ => h ⟨⟩ hout p hp, fun h _ hout p hp => h hout ⟨p, hp⟩⟩
  rw [finishBlockCipher]
  by_cases halg : S.alg = HksKeyAlg.aes
  case neg =>
    rw [if_pos halg, hblock]
    exact ⟨fun h hp => h hp.2.1 hp.2.2.1 hp.1, fun h hout hp hlen => h ⟨hlen, hout, hp, fun hn => halg hn.1⟩⟩
  case pos =>
    rw [if_neg (not_not.mpr halg)]
    by_cases henc : S.cipher.isEncrypt
    case neg =>
      have ⟨isAes, hmode⟩ := S.aeMode
      rw [if_neg henc, coreAesDecryptFinish, contained_bind, contained_reading, hmode]
      change Contained _ (if isAes ∧ false then _ else _) _ ↔ _
      rw [if_neg (fun h => nomatch h.2), hblock]
      exact ⟨fun h hp => h hp.2.1 hp.2.2.1 hp.1, fun h hout hp hlen => h ⟨hlen, hout, hp, fun hn => henc hn.2.1⟩⟩
    case pos =>
      rw [if_pos henc, coreAesEncryptFinish, contained_bind, contained_get, contained_bind, contained_reading,
        encryptAeTag]
      simp only [contained_bind, contained_discard, contained_reading, confined_checked, contained_ite,
        contained_refuse, implies_true, true_and, Except.ok.injEq, forall_eq']
      rw [FinishPasses, henc]
      constructor
      case mp =>
        intro h ⟨hlen, hout, ⟨ctxParam, hctx⟩, hsmall⟩
        have hfits : ¬(needAppendNonce S.runtimeParamSet ∧
            room.size < inData.size + hksAeTagLen + hksAesGcmNonceLen) := fun hn => hsmall ⟨halg, rfl, hn⟩
        exact (contained_coreFinal fun hlen t ht => nonce_inside hlen hfits ht).mp (h ⟨⟩ hout ctxParam hctx hfits) hlen
      case mpr =>
        intro h _ hout ctxParam hctx hfits
        refine (contained_coreFinal fun hlen t ht => nonce_inside hlen hfits ht).mpr fun hlen => ?_
        exact h ⟨hlen, hout, ⟨ctxParam, hctx⟩, fun hsmall => hfits hsmall.2.2⟩

-- Without a context every call fails.
theorem update_withoutCtx {R : Option Bytes → OutBuffer → Prop} {t : OutBuffer} :
    Contained R (coreCipherUpdate S.runtimeParamSet S.cipher none inData) t := by
  simp only [coreCipherUpdate, contained_bind, contained_get, contained_ite, contained_refuse, implies_true, and_true]

theorem finish_withoutCtx {R : PUnit → OutBuffer → Prop} {t : OutBuffer} :
    Contained R (finishBlockCipher S.runtimeParamSet S.cipher S.alg none inData) t := by
  have hblock : Contained R (coreBlockCipherFinish S.runtimeParamSet S.cipher none inData) t := by
    simp only [coreBlockCipherFinish, contained_bind, contained_get, contained_discard, contained_reading,
      confined_checked, contained_refuse, implies_true]
  rw [finishBlockCipher, contained_ite, contained_ite]
  refine ⟨fun _ => hblock, fun _ => ⟨fun _ => ?_, fun _ => ?_⟩⟩
  · simp only [coreAesEncryptFinish, contained_bind, contained_get, contained_discard, contained_reading,
      confined_checked, contained_refuse, implies_true]
  · have ⟨isAes, hmode⟩ := S.aeMode
    rw [coreAesDecryptFinish, contained_bind, contained_reading, hmode]
    change Contained _ (if isAes ∧ false then _ else _) _
    rwa [if_neg fun h => nomatch h.2]

theorem runInside_none (calls : List CipherCall) : S.RunInside none calls := by
  cases calls
  case nil => exact trivial
  case cons call calls =>
    cases call
    case update => exact @update_withoutCtx S _ _ _
    case finish =>
      rw [RunInside, exec, contained_bind]
      exact @finish_withoutCtx S _ _ _

-- The induction is on the calls; the input so far is what the session has come to.
theorem runInside_iff (calls : List CipherCall) : S.RunInside (some fed) calls ↔ S.RunFits fed calls := by
  induction calls generalizing fed
  case nil => exact Iff.rfl
  case cons call calls ih =>
    cases call
    case update inData room =>
      rw [RunInside, exec, RunFits, CipherCall.room, contained_coreUpdate (R := fun ctx => S.RunInside ctx calls), ih]
    case finish inData room =>
      rw [RunInside, exec, RunFits, CipherCall.room, contained_bind, ← contained_finish]
      simp only [contained_pure, runInside_none]

theorem checkBlockCipherOther_le {mode padding inSize outSize : UInt32} {isEncrypt : Bool}
    (h : checkBlockCipherOther mode isEncrypt padding inSize outSize = .ok ⟨⟩) : inSize ≤ outSize := by
  by_contra hnot
  have hlt : outSize < inSize := UInt32.not_le.mp hnot
  rw [checkBlockCipherOther] at h
  split_ifs at h
  · nomatch h
  · dsimp only at h
    have hmod : (inSize % hksBlockCipherCbcBlockSize).toNat < 16 := Nat.mod_lt _ (by decide)
    have hblock : hksBlockCipherCbcBlockSize.toNat = 16 := rfl
    have hpadding : (hksBlockCipherCbcBlockSize - inSize % hksBlockCipherCbcBlockSize).toNat =
        16 - (inSize % hksBlockCipherCbcBlockSize).toNat :=
      UInt32.toNat_sub_of_le _ _ (UInt32.le_iff_toNat_le.mpr (by omega))
    split at h
    case isTrue => nomatch h
    case isFalse hmax =>
      split at h
      case isTrue => nomatch h
      case isFalse hroom =>
        generalize hksBlockCipherCbcBlockSize - inSize % hksBlockCipherCbcBlockSize = paddingSize at *
        have hsub : (0xffffffff - paddingSize).toNat = 0xffffffff - paddingSize.toNat :=
          UInt32.toNat_sub_of_le _ _ (UInt32.le_iff_toNat_le.mpr (by simp only [UInt32.reduceToNat]; omega))
        have hmax := UInt32.le_iff_toNat_le.mp (UInt32.not_lt.mp hmax)
        have hroom := UInt32.le_iff_toNat_le.mp (UInt32.not_lt.mp hroom)
        have hlt := UInt32.lt_iff_toNat_lt.mp hlt
        rw [toNat_add_of_lt (by rw [UInt32.size]; omega)] at hroom
        omega

-- The size check of the finish asks for the room of the data at least.
theorem checkFinishOutSize_le {isEncrypt : Bool} {inSize outSize : UInt32}
    (h : hksCheckFinishOutSize isEncrypt S.runtimeParamSet inSize outSize = .ok ⟨⟩) : inSize ≤ outSize := by
  have halg := usageSpec_algType (S.single _ (by decide)) S.algorithm
  have hmode := usageSpec_mode (S.single _ (by decide)) S.blockMode
  have hblock : S.alg ≠ HksKeyAlg.rsa ∧ S.alg ≠ HksKeyAlg.sm2 := by
    have hall : [HksKeyAlg.aes, HksKeyAlg.des, HksKeyAlg.tripleDes, HksKeyAlg.sm4].all fun alg =>
      alg ≠ HksKeyAlg.rsa ∧ alg ≠ HksKeyAlg.sm2 := by decide
    exact of_decide_eq_true (List.all_eq_true.mp hall S.alg S.alg_block)
  rw [hksCheckFinishOutSize, halg, if_neg hblock.1, if_neg hblock.2] at h
  split at h
  case isFalse => cases h
  case isTrue =>
    have haead : ¬(S.mode = HksCipherMode.gcm ∨ S.mode = HksCipherMode.ccm) := fun hm => S.mode_aead hm.symm
    rw [checkBlockCipherData, hmode, if_neg haead] at h
    split at h
    case isTrue =>
      split at h
      case isTrue => exact checkBlockCipherOther_le h
      case isFalse => cases h
    case isFalse =>
      split at h
      case isTrue => exact checkBlockCipherOther_le h
      case isFalse => cases h

-- In CTR, CFB and OFB nothing is held back, so that every run is one without a write outside.
theorem streamMode_runFits (hmode : S.mode ∉ [HksCipherMode.cbc, HksCipherMode.ecb]) (calls : List CipherCall) :
    S.RunFits fed calls := by
  have hsize : S.cipher.blockSize = 1 := S.blockSize.trans (if_pos hmode)
  have hwhole (n : Nat) : S.cipher.whole n = n := by
    rw [EvpCipher.whole, if_neg fun h => (S.cipher.holds_block h.1).2.2 hsize, hsize, Nat.mod_one, Nat.sub_zero]
  have hfits (fed : Bytes) {inData room : Bytes} (hlen : inData.length < 2 ^ 31) (hle : inData.size ≤ room.size) :
      S.cipher.whole (fed.length + inData.length) - S.cipher.whole fed.length ≤ room.length := by
    have hle := UInt32.le_iff_toNat_le.mp hle
    have hroom := size_le room
    rw [size_toNat hlen] at hle
    rw [hwhole, hwhole]
    omega
  induction calls generalizing fed
  case nil => exact trivial
  case cons call calls ih =>
    cases call
    case update => exact fun hpasses => ⟨hfits fed hpasses.2.1 hpasses.2.2.2, ih⟩
    case finish =>
      intro hpasses
      have hroom := hfits fed hpasses.1 (checkFinishOutSize_le hpasses.2.1)
      refine ⟨hroom, fun last hlast => ?_⟩
      rw [S.cipher.final_nothing (.inr hsize) hlast]
      exact hroom

end BlockCipherSession

-- A cipher with blocks of 16 bytes that are their own cipher text
def plainCipher : EvpCipher where
  blockSize     := 16
  isEncrypt     := true
  padded        := false
  holdsLast     := false
  stream        := id
  final input   := if input.length % 16 = 0 then some [] else none
  length_stream := fun _ => rfl
  final_nothing := by
    intro input bytes _ h
    split at h
    case isTrue => exact (Option.some.inj h).symm
    case isFalse => nomatch h
  final_padding := fun h _ => nomatch h.1
  holds_block   := nofun

def cbcSession : BlockCipherSession where
  runtimeParamSet := builtParamSet [.ofUInt32 HksTag.algorithm HksKeyAlg.aes,
    .ofUInt32 HksTag.purpose HksKeyPurpose.encrypt, .ofUInt32 HksTag.blockMode HksCipherMode.cbc,
    .ofUInt32 HksTag.padding HksKeyPadding.none]
  cipher          := plainCipher
  alg             := HksKeyAlg.aes
  mode            := HksCipherMode.cbc
  algorithm       := by decide
  blockMode       := by decide
  purpose         := by decide
  alg_block       := by decide
  mode_block      := by decide
  blockSize       := by decide
  single          := fun tag _ => single_of_nodup (by decide) tag
  padded          := by decide

end InPlace

end Huks
