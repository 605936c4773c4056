import Huks.Engine.Theorems.Dispatch
import Huks.Engine.Theorems.Policy

namespace Huks

open HksKeyPurpose

-- The key lets itself be used for `purpose`.
def Allows (keyBlobParamSet : HksParamSet) (purpose : UInt32) : Prop :=
  ∃ authorised, getUInt32 keyBlobParamSet HksTag.purpose = .ok authorised ∧
    purpose &&& authorised = purpose

-- What the key fixes for `tag`, if it does, is `value`.
def Fixes (keyBlobParamSet : HksParamSet) (tag value : UInt32) : Prop :=
  ∀ fixed, getUInt32 keyBlobParamSet tag = .ok fixed → value = fixed

structure PermitsKey (keyBlobParamSet : HksParamSet) (purpose : UInt32) (rawKey : Bytes) : Prop where
  rawKey  : hksGetRawKey keyBlobParamSet = .ok rawKey
  purpose : Allows keyBlobParamSet purpose

-- The policy for Ed25519 compares nothing but the purpose.
structure PermitsSign (keyBlobParamSet runtimeParamSet : HksParamSet) (purpose : UInt32)
    (rawKey : Bytes) (usageSpec : HksUsageSpec) : Prop
    extends PermitsKey keyBlobParamSet purpose rawKey where
  named     : getUInt32 runtimeParamSet HksTag.algorithm = .ok usageSpec.algType
  algorithm : usageSpec.algType ≠ HksKeyAlg.ed25519 →
    getUInt32 keyBlobParamSet HksTag.algorithm = .ok usageSpec.algType
  digest    : usageSpec.algType ≠ HksKeyAlg.ed25519 →
    Fixes keyBlobParamSet HksTag.digest usageSpec.digest
  padding   : usageSpec.algType = HksKeyAlg.rsa →
    Fixes keyBlobParamSet HksTag.padding usageSpec.padding

structure PermitsCipher (keyBlobParamSet : HksParamSet) (purpose : UInt32) (rawKey : Bytes)
    (usageSpec : HksUsageSpec) : Prop extends PermitsKey keyBlobParamSet purpose rawKey where
  algorithm : getUInt32 keyBlobParamSet HksTag.algorithm = .ok usageSpec.algType
  padding   : Fixes keyBlobParamSet HksTag.padding usageSpec.padding
  mode      : usageSpec.algType ≠ HksKeyAlg.rsa ∧ usageSpec.algType ≠ HksKeyAlg.sm2 →
    Fixes keyBlobParamSet HksTag.blockMode usageSpec.mode
  digest    : usageSpec.algType = HksKeyAlg.rsa ∨ usageSpec.algType = HksKeyAlg.sm2 →
    Fixes keyBlobParamSet HksTag.digest usageSpec.digest

-- A call goes on with a context that was opened with the key.
structure PermitsContext (keyBlobParamSet : HksParamSet) (purpose alg : UInt32) : Prop where
  purpose   : Allows keyBlobParamSet purpose
  algorithm : getUInt32 keyBlobParamSet HksTag.algorithm = .ok alg

-- The calls that work with a raw key or with a context that was opened with one, and the one that
-- starts to hash what is to be signed.
def HalCall.usesKey : HalCall → Bool
  | hashInit _ | encryptInit _ _ | decryptInit _ _ | encryptUpdate _ _ | decryptUpdate _ _
  | encryptFinal _ _ | decryptFinal _ _ _ | hmacInit _ _ | hmacUpdate _ | hmacFinal _ | cmacInit _ _
  | cmacUpdate _ | cmacFinal _ | sign _ _ _ | verify _ _ _ _ | signIsoIec97962 _ _ _
  | verifyIsoIec97962 _ _ _ _ | encrypt _ _ _ | decrypt _ _ _ _ | deriveKey _ _ _ _ _
  | agreeKey _ _ _ _ => true
  | _ => false

-- Whether the key lets a call be made on behalf of a caller with `runtimeParamSet`. The policy for
-- HMAC compares digest and purpose only.
def HalCall.Permitted (keyBlobParamSet runtimeParamSet : HksParamSet) : HalCall → Prop
  | hashInit digest =>
    (Allows keyBlobParamSet HksKeyPurpose.sign ∨ Allows keyBlobParamSet HksKeyPurpose.verify) ∧
      Fixes keyBlobParamSet HksTag.digest digest
  | sign rawKey usageSpec _ | signIsoIec97962 rawKey usageSpec _ =>
    PermitsSign keyBlobParamSet runtimeParamSet HksKeyPurpose.sign rawKey usageSpec
  | verify rawKey usageSpec _ _ | verifyIsoIec97962 rawKey usageSpec _ _ =>
    PermitsSign keyBlobParamSet runtimeParamSet HksKeyPurpose.verify rawKey usageSpec
  | encryptInit rawKey usageSpec | encrypt rawKey usageSpec _ =>
    PermitsCipher keyBlobParamSet HksKeyPurpose.encrypt rawKey usageSpec
  | decryptInit rawKey usageSpec | decrypt rawKey usageSpec _ _ =>
    PermitsCipher keyBlobParamSet HksKeyPurpose.decrypt rawKey usageSpec
  | encryptUpdate _ alg | encryptFinal _ alg =>
    PermitsContext keyBlobParamSet HksKeyPurpose.encrypt alg
  | decryptUpdate _ alg | decryptFinal _ _ alg =>
    PermitsContext keyBlobParamSet HksKeyPurpose.decrypt alg
  | hmacInit rawKey digest =>
    PermitsKey keyBlobParamSet mac rawKey ∧ Fixes keyBlobParamSet HksTag.digest digest ∧
      (getUInt32 runtimeParamSet HksTag.algorithm = .ok HksKeyAlg.hmac ∨
        getUInt32 keyBlobParamSet HksTag.algorithm = .ok HksKeyAlg.sm3)
  | cmacInit rawKey _ =>
    PermitsKey keyBlobParamSet mac rawKey ∧
      getUInt32 keyBlobParamSet HksTag.algorithm = .ok HksKeyAlg.tripleDes
  | hmacUpdate _ | hmacFinal _ | cmacUpdate _ | cmacFinal _ => Allows keyBlobParamSet mac
  | deriveKey rawKey _ _ derParam _ =>
    PermitsKey keyBlobParamSet derive rawKey ∧
      Fixes keyBlobParamSet HksTag.digest derParam.digestAlg
  | agreeKey rawKey _ _ _ => PermitsKey keyBlobParamSet agree rawKey
  | _ => True

theorem HalCall.permitted_of_not_usesKey {keyBlobParamSet runtimeParamSet : HksParamSet}
    {call : HalCall} (h : call.usesKey = false) :
    call.Permitted keyBlobParamSet runtimeParamSet := by
  cases call <;> trivial

-- What a policy leaves for the later stages.
structure Met (authId : HksAuthId) (keyBlobParamSet runtimeParamSet : HksParamSet) : Prop where
  algorithm : ∃ alg, getUInt32 keyBlobParamSet HksTag.algorithm = .ok alg
  purpose   : ∃ requested, getUInt32 runtimeParamSet HksTag.purpose = .ok requested ∧
    Allows keyBlobParamSet requested
  fixed     : ∀ tag ∈ authId.policyTag, tag ≠ HksTag.purpose → ∀ value,
    getUInt32 keyBlobParamSet tag = .ok value → getUInt32 runtimeParamSet tag = .ok value

theorem HksAuthId.policyTag_routine (authId : HksAuthId) :
    ∀ tag ∈ authId.policyTag, tag ∈ routineTags := by
  have hall : authId.policyTag.all (· ∈ routineTags) := by cases authId <;> decide
  exact fun tag hmem => of_decide_eq_true (List.all_eq_true.mp hall tag hmem)

theorem HksAuthId.purpose_mem (authId : HksAuthId) : HksTag.purpose ∈ authId.policyTag := by
  cases authId <;> decide

section Met

variable {env : EngineEnv} {authId : HksAuthId} {keyBlobParamSet runtimeParamSet : HksParamSet}

theorem met_of_auth
    (h : hksThreeStageAuth env authId keyBlobParamSet runtimeParamSet = .ok ()) :
    Met authId keyBlobParamSet runtimeParamSet where
  algorithm := by
    have ⟨alg, _, halg, _⟩ := authPolicy_ok h
    exact ⟨alg, halg⟩
  purpose := by
    have ⟨requested, authorised, hrequested, hauthorised, _, hsub⟩ :=
      authPolicy_purpose h authId.purpose_mem
    exact ⟨requested, hrequested, authorised, hauthorised, hsub⟩
  fixed _ hmem hne _ hvalue :=
    authPolicy_match h hmem (uint_of_routineTags (authId.policyTag_routine _ hmem)) hne hvalue

-- Which policy is asked for a purpose and an algorithm.
def authIdOf (pur alg : UInt32) : Option HksAuthId :=
  if pur = sign ∨ pur = verify then
    if alg = HksKeyAlg.ecc ∨ alg = HksKeyAlg.sm2 ∨ alg = HksKeyAlg.dsa then
      some .signVerifyEcc
    else if alg = HksKeyAlg.rsa then
      some .signVerifyRsa
    else if alg = HksKeyAlg.ed25519 then
      some .signVerifyEd25519
    else
      none
  else if pur = encrypt ∨ pur = decrypt then
    if alg = HksKeyAlg.rsa ∨ alg = HksKeyAlg.sm2 then
      some .asymCipher
    else if alg = HksKeyAlg.aes ∨ alg = HksKeyAlg.des ∨ alg = HksKeyAlg.tripleDes ∨
        alg = HksKeyAlg.sm4 then
      some .symCipher
    else
      none
  else if pur = agree then
    some .agree
  else if pur = mac then
    if alg = HksKeyAlg.hmac then
      some .macHmac
    else if alg = HksKeyAlg.tripleDes then
      some .macCmac
    else if alg = HksKeyAlg.sm3 then
      some .macSm3
    else
      none
  else
    none

variable {paramSet : HksParamSet} {pur alg : UInt32}

theorem signVerifyAuth_met (hpur : pur = sign ∨ pur = verify)
    (h : signVerifyAuth env keyBlobParamSet runtimeParamSet paramSet = .ok ())
    (halg : getUInt32 paramSet HksTag.algorithm = .ok alg) :
    ∃ authId, authIdOf pur alg = some authId ∧ Met authId keyBlobParamSet runtimeParamSet := by
  have ⟨alg', halg', h⟩ := Except.bind_eq_ok.mp h
  cases halg.symm.trans halg'
  rw [authIdOf, if_pos hpur]
  split at h
  case isTrue hecc => exact ⟨_, if_pos hecc, met_of_auth h⟩
  case isFalse hecc =>
    rw [if_neg hecc]
    split at h
    case isTrue hrsa =>
      rw [if_pos hrsa]
      have ⟨padding, _, h⟩ := Except.bind_eq_ok.mp h
      split at h
      case isTrue =>
        have ⟨_, _, h⟩ := Except.bind_eq_ok.mp h
        exact ⟨_, rfl, met_of_auth h⟩
      case isFalse => exact ⟨_, rfl, met_of_auth h⟩
    case isFalse hrsa =>
      rw [if_neg hrsa]
      split at h
      case isTrue hed => exact ⟨_, if_pos hed, met_of_auth h⟩
      case isFalse => cases h

theorem cipherAuth_met (hpur : pur = encrypt ∨ pur = decrypt)
    (h : cipherAuth env keyBlobParamSet runtimeParamSet paramSet = .ok ())
    (halg : getUInt32 paramSet HksTag.algorithm = .ok alg) :
    ∃ authId, authIdOf pur alg = some authId ∧ Met authId keyBlobParamSet runtimeParamSet := by
  have ⟨alg', halg', h⟩ := Except.bind_eq_ok.mp h
  cases halg.symm.trans halg'
  have hsign : ¬(pur = sign ∨ pur = verify) := by
    rcases hpur with rfl | rfl <;> decide
  rw [authIdOf, if_neg hsign, if_pos hpur]
  split at h
  case isTrue haes =>
    have hrsa : ¬(alg = HksKeyAlg.rsa ∨ alg = HksKeyAlg.sm2) := by
      rcases haes with rfl | rfl | rfl <;> decide
    rw [if_neg hrsa, if_pos (by tauto)]
    exact ⟨_, rfl, met_of_auth h⟩
  case isFalse haes =>
    split at h
    case isTrue hrsa =>
      rw [if_pos hrsa]
      exact ⟨_, rfl, met_of_auth h⟩
    case isFalse hrsa =>
      rw [if_neg hrsa]
      split at h
      case isTrue hsm4 =>
        rw [if_pos (by tauto)]
        exact ⟨_, rfl, met_of_auth h⟩
      case isFalse => cases h

theorem agreeAuth_met (h : agreeAuth env keyBlobParamSet runtimeParamSet paramSet = .ok ()) :
    ∃ authId, authIdOf agree alg = some authId ∧ Met authId keyBlobParamSet runtimeParamSet := by
  have ⟨_, _, h⟩ := Except.bind_eq_ok.mp h
  split at h
  case isTrue => exact ⟨_, rfl, met_of_auth h⟩
  case isFalse => cases h

theorem hmacAuth_met (h : hmacAuth env keyBlobParamSet runtimeParamSet paramSet = .ok ())
    (halg : getUInt32 paramSet HksTag.algorithm = .ok alg) :
    ∃ authId, authIdOf mac alg = some authId ∧ Met authId keyBlobParamSet runtimeParamSet := by
  have ⟨alg', halg', h⟩ := Except.bind_eq_ok.mp h
  cases halg.symm.trans halg'
  have hmac : authIdOf mac alg =
      if alg = HksKeyAlg.hmac then some .macHmac
      else if alg = HksKeyAlg.tripleDes then some .macCmac
      else if alg = HksKeyAlg.sm3 then some .macSm3
      else none := rfl
  rw [hmac]
  split at h
  case isTrue hhmac => exact ⟨_, if_pos hhmac, met_of_auth h⟩
  case isFalse hhmac =>
    rw [if_neg hhmac]
    split at h
    case isTrue hdes => exact ⟨_, if_pos hdes, met_of_auth h⟩
    case isFalse hdes =>
      rw [if_neg hdes]
      split at h
      case isTrue hsm3 => exact ⟨_, if_pos hsm3, met_of_auth h⟩
      case isFalse => cases h

end Met

namespace Met

variable {authId : HksAuthId} {keyBlobParamSet s t : HksParamSet}

theorem congr (m : Met authId keyBlobParamSet s)
    (h : ∀ tag ∈ routineTags, getUInt32 t tag = getUInt32 s tag) : Met authId keyBlobParamSet t where
  algorithm := m.algorithm
  purpose := by
    have ⟨requested, hrequested, hallows⟩ := m.purpose
    exact ⟨requested, (h _ (by decide)).trans hrequested, hallows⟩
  fixed tag hmem hne value hvalue :=
    (h tag (authId.policyTag_routine tag hmem)).trans (m.fixed tag hmem hne value hvalue)

theorem allows (m : Met authId keyBlobParamSet s) {pur : UInt32}
    (h : getUInt32 s HksTag.purpose = .ok pur) : Allows keyBlobParamSet pur := by
  have ⟨requested, hrequested, hallows⟩ := m.purpose
  cases h.symm.trans hrequested
  exact hallows

theorem sameAlgorithm (m : Met authId keyBlobParamSet s) {alg : UInt32}
    (hmem : HksTag.algorithm ∈ authId.policyTag) (h : getUInt32 s HksTag.algorithm = .ok alg) :
    getUInt32 keyBlobParamSet HksTag.algorithm = .ok alg := by
  have ⟨alg', halg'⟩ := m.algorithm
  cases h.symm.trans (m.fixed _ hmem (by decide) _ halg')
  exact halg'

theorem fixes (m : Met authId keyBlobParamSet s) {tag value : UInt32} (hmem : tag ∈ authId.policyTag)
    (hne : tag ≠ HksTag.purpose) (h : ∀ fixed, getUInt32 s tag = .ok fixed → value = fixed) :
    Fixes keyBlobParamSet tag value :=
  fun fixed hfixed => h fixed (m.fixed tag hmem hne fixed hfixed)

end Met

-- What the policy for a purpose and an algorithm compares.
section AuthIdOf

variable {pur alg : UInt32} {authId : HksAuthId}

theorem authIdOf_sign (hpur : pur = sign ∨ pur = verify) (h : authIdOf pur alg = some authId) :
    (alg ≠ HksKeyAlg.ed25519 →
      HksTag.algorithm ∈ authId.policyTag ∧ HksTag.digest ∈ authId.policyTag) ∧
    (alg = HksKeyAlg.rsa → HksTag.padding ∈ authId.policyTag) := by
  rw [authIdOf, if_pos hpur] at h
  split_ifs at h with hecc hrsa hed <;> cases h
  · exact ⟨fun _ => by decide, fun hrsa => absurd hecc (hrsa ▸ by decide)⟩
  · exact ⟨fun _ => by decide, fun _ => by decide⟩
  · exact ⟨fun hne => absurd hed hne, fun hrsa => absurd hrsa (hed ▸ by decide)⟩

theorem authIdOf_cipher (hpur : pur = encrypt ∨ pur = decrypt) (h : authIdOf pur alg = some authId) :
    HksTag.algorithm ∈ authId.policyTag ∧ HksTag.padding ∈ authId.policyTag ∧
    (alg ≠ HksKeyAlg.rsa ∧ alg ≠ HksKeyAlg.sm2 → HksTag.blockMode ∈ authId.policyTag) ∧
    (alg = HksKeyAlg.rsa ∨ alg = HksKeyAlg.sm2 → HksTag.digest ∈ authId.policyTag) := by
  have hsign : ¬(pur = sign ∨ pur = verify) := by
    rcases hpur with rfl | rfl <;> decide
  rw [authIdOf, if_neg hsign, if_pos hpur] at h
  split_ifs at h with hrsa haes <;> cases h
  · refine ⟨by decide, by decide, fun hne => ?_, fun _ => by decide⟩
    exact absurd hrsa (not_or.mpr hne)
  · exact ⟨by decide, by decide, fun _ => by decide, fun h => absurd h hrsa⟩

theorem authIdOf_mac (h : authIdOf mac alg = some authId) :
    (alg = HksKeyAlg.hmac ∧ HksTag.digest ∈ authId.policyTag) ∨
    (alg = HksKeyAlg.tripleDes ∧ HksTag.algorithm ∈ authId.policyTag) ∨
    (alg = HksKeyAlg.sm3 ∧ HksTag.algorithm ∈ authId.policyTag ∧
      HksTag.digest ∈ authId.policyTag) := by
  have hmac : authIdOf mac alg =
      if alg = HksKeyAlg.hmac then some .macHmac
      else if alg = HksKeyAlg.tripleDes then some .macCmac
      else if alg = HksKeyAlg.sm3 then some .macSm3
      else none := rfl
  rw [hmac] at h
  split_ifs at h with hhmac hdes hsm3 <;> cases h
  · exact .inl ⟨hhmac, by decide⟩
  · exact .inr (.inl ⟨hdes, by decide⟩)
  · exact .inr (.inr ⟨hsm3, by decide, by decide⟩)

end AuthIdOf

@[simp]
theorem setRsaPssSaltLenType_algType (s : HksParamSet) (spec : HksUsageSpec) :
    (setRsaPssSaltLenType s spec).algType = spec.algType := by
  unfold setRsaPssSaltLenType
  split <;> rfl

@[simp]
theorem setRsaPssSaltLenType_digest (s : HksParamSet) (spec : HksUsageSpec) :
    (setRsaPssSaltLenType s spec).digest = spec.digest := by
  unfold setRsaPssSaltLenType
  split <;> rfl

@[simp]
theorem setRsaPssSaltLenType_padding (s : HksParamSet) (spec : HksUsageSpec) :
    (setRsaPssSaltLenType s spec).padding = spec.padding := by
  unfold setRsaPssSaltLenType
  split <;> rfl

@[simp]
theorem setRsaPssSaltLenType_purpose (s : HksParamSet) (spec : HksUsageSpec) :
    (setRsaPssSaltLenType s spec).purpose = spec.purpose := by
  unfold setRsaPssSaltLenType
  split <;> rfl

-- A nonce or an initialisation vector is all that the spec for a cipher adds, but for RSA.
theorem hksBuildCipherUsageSpec_ok {s : HksParamSet} {spec : HksUsageSpec}
    (h : hksBuildCipherUsageSpec s = .ok spec) :
    spec.algType = (hksFillUsageSpec s).algType ∧ spec.mode = (hksFillUsageSpec s).mode ∧
      spec.padding = (hksFillUsageSpec s).padding ∧ spec.purpose = (hksFillUsageSpec s).purpose := by
  have aead {spec spec' : HksUsageSpec} (h : hksFillAeadParam s spec = .ok spec') :
      ∃ iv aad, spec' = { spec with iv := iv, aad := aad } := by
    have ⟨_, _, h⟩ := Except.bind_eq_ok.mp h
    dsimp only at h
    split at h <;> have ⟨_, haad, h⟩ := Except.bind_eq_ok.mp h
    case h_1 => exact ⟨_, _, (Except.ok.inj h).symm⟩
    case h_2 => cases haad
    case h_3 => exact ⟨_, _, (Except.ok.inj h).symm⟩
  have iv {spec spec' : HksUsageSpec} (h : hksFillIvParam s spec = .ok spec') :
      ∃ iv, spec' = { spec with iv := iv } := by
    have ⟨_, _, h⟩ := Except.bind_eq_ok.mp h
    exact ⟨_, (Except.ok.inj h).symm⟩
  have ⟨⟨isAes, isAeMode⟩, _, h⟩ := Except.bind_eq_ok.mp h
  have ⟨alg, _, h⟩ := Except.bind_eq_ok.mp h
  have hbase : ∃ digest, (if (hksFillUsageSpec s).algType = HksKeyAlg.rsa ∧
      (hksFillUsageSpec s).digest = HksKeyDigest.none then
        { hksFillUsageSpec s with digest := HksKeyDigest.sha1 }
      else hksFillUsageSpec s) = { hksFillUsageSpec s with digest := digest } := by
    split
    case isTrue => exact ⟨_, rfl⟩
    case isFalse => exact ⟨_, rfl⟩
  obtain ⟨digest, hbase⟩ := hbase
  rw [hbase] at h
  split_ifs at h
  · obtain ⟨_, rfl⟩ := iv h
    exact ⟨rfl, rfl, rfl, rfl⟩
  · obtain ⟨_, _, rfl⟩ := aead h
    exact ⟨rfl, rfl, rfl, rfl⟩
  · obtain ⟨_, rfl⟩ := iv h
    exact ⟨rfl, rfl, rfl, rfl⟩
  · cases h
    exact ⟨rfl, rfl, rfl, rfl⟩

-- A key that meets the policy permits what the handlers do.
section Permits

variable {keyBlobParamSet runtimeParamSet s : HksParamSet} {pur algParam alg : UInt32}
  {authId : HksAuthId} {rawKey : Bytes}

theorem permits_hashInit (d : Dispatched s pur algParam alg) (m : Met authId keyBlobParamSet s)
    (hid : authIdOf pur algParam = some authId) (hpur : pur = sign ∨ pur = verify)
    (hne : algParam ≠ HksKeyAlg.ed25519) :
    HalCall.Permitted keyBlobParamSet runtimeParamSet (.hashInit alg) := by
  have ⟨_, hdigest⟩ := (authIdOf_sign hpur hid).1 hne
  have hallows := m.allows d.purpose
  refine ⟨?_, m.fixes hdigest (by decide) fun fixed hfixed => ?_⟩
  · rcases hpur with rfl | rfl
    · exact .inl hallows
    · exact .inr hallows
  · exact Except.ok.inj ((d.digest (.inr (.inr hpur))).symm.trans hfixed)

theorem permitsSign (r : Readable s) (d : Dispatched s pur algParam alg)
    (m : Met authId keyBlobParamSet s) (hid : authIdOf pur algParam = some authId)
    (hpur : pur = sign ∨ pur = verify) (hkey : hksGetRawKey keyBlobParamSet = .ok rawKey)
    (hnamed : getUInt32 runtimeParamSet HksTag.algorithm = .ok algParam) :
    PermitsSign keyBlobParamSet runtimeParamSet pur rawKey
      (setRsaPssSaltLenType s (hksFillUsageSpec s)) := by
  have halg : (hksFillUsageSpec s).algType = algParam :=
    usageSpec_algType (r.single _ (by decide)) d.algorithm
  have ⟨hcompared, hpadding⟩ := authIdOf_sign hpur hid
  refine ⟨⟨hkey, m.allows d.purpose⟩, ?_, fun hne => ?_, fun hne => ?_, fun hrsa => ?_⟩ <;>
    simp only [setRsaPssSaltLenType_algType, setRsaPssSaltLenType_digest,
      setRsaPssSaltLenType_padding, halg] at *
  · exact hnamed
  · exact m.sameAlgorithm (hcompared hne).1 d.algorithm
  · refine m.fixes (hcompared hne).2 (by decide) fun fixed hfixed => ?_
    exact usageSpec_digest (r.single _ (by decide)) hfixed
  · refine m.fixes (hpadding hrsa) (by decide) fun fixed hfixed => ?_
    exact usageSpec_padding (r.single _ (by decide)) hfixed

theorem permitsCipher (r : Readable s) (d : Dispatched s pur algParam alg)
    (m : Met authId keyBlobParamSet s) (hid : authIdOf pur algParam = some authId)
    (hpur : pur = encrypt ∨ pur = decrypt) (hkey : hksGetRawKey keyBlobParamSet = .ok rawKey) :
    PermitsCipher keyBlobParamSet pur rawKey (hksFillUsageSpec s) := by
  have halg : (hksFillUsageSpec s).algType = algParam :=
    usageSpec_algType (r.single _ (by decide)) d.algorithm
  have ⟨halgorithm, hpadding, hmode, hdigest⟩ := authIdOf_cipher hpur hid
  refine ⟨⟨hkey, m.allows d.purpose⟩, ?_, ?_, fun hne => ?_, fun hrsa => ?_⟩ <;> rw [halg] at *
  · exact m.sameAlgorithm halgorithm d.algorithm
  · refine m.fixes hpadding (by decide) fun fixed hfixed => ?_
    exact usageSpec_padding (r.single _ (by decide)) hfixed
  · refine m.fixes (hmode hne) (by decide) fun fixed hfixed => ?_
    exact usageSpec_mode (r.single _ (by decide)) hfixed
  · refine m.fixes (hdigest hrsa) (by decide) fun fixed hfixed => ?_
    exact usageSpec_digest (r.single _ (by decide)) hfixed

-- The spec that AES, DES, 3DES and SM4 are called with.
theorem permitsBlockCipher (r : Readable s) (d : Dispatched s pur algParam alg)
    (m : Met authId keyBlobParamSet s) (hid : authIdOf pur algParam = some authId)
    (hpur : pur = encrypt ∨ pur = decrypt) (hkey : hksGetRawKey keyBlobParamSet = .ok rawKey)
    (hne : algParam ≠ HksKeyAlg.rsa ∧ algParam ≠ HksKeyAlg.sm2) {spec : HksUsageSpec}
    (hspec : hksBuildCipherUsageSpec s = .ok spec) :
    PermitsCipher keyBlobParamSet pur rawKey spec := by
  have p := permitsCipher r d m hid hpur hkey
  have halg : (hksFillUsageSpec s).algType = algParam :=
    usageSpec_algType (r.single _ (by decide)) d.algorithm
  have ⟨halg', hmode, hpadding, _⟩ := hksBuildCipherUsageSpec_ok hspec
  refine ⟨p.toPermitsKey, ?_, ?_, fun hne' => ?_, fun hrsa => ?_⟩
  · rw [halg']
    exact p.algorithm
  · rw [hpadding]
    exact p.padding
  · rw [hmode]
    exact p.mode (halg' ▸ hne')
  · rw [halg', halg] at hrsa
    exact absurd hrsa (not_or.mpr hne)

theorem permitsContext (d : Dispatched s pur algParam alg) (m : Met authId keyBlobParamSet s)
    (hid : authIdOf pur algParam = some authId) (hpur : pur = encrypt ∨ pur = decrypt) :
    PermitsContext keyBlobParamSet pur alg where
  purpose   := m.allows d.purpose
  algorithm := by
    have ⟨halgorithm, _⟩ := authIdOf_cipher hpur hid
    have hby : ¬ByDigest pur algParam := by
      rintro (rfl | rfl | hsign)
      · rcases hpur with rfl | rfl <;> cases hid
      · rcases hpur with rfl | rfl <;> cases hid
      · rcases hpur with rfl | rfl <;> exact absurd hsign (by decide)
    rw [d.alg hby]
    exact m.sameAlgorithm halgorithm d.algorithm

theorem permits_hmacInit (d : Dispatched s mac algParam alg) (m : Met authId keyBlobParamSet s)
    (hid : authIdOf mac algParam = some authId) (hkey : hksGetRawKey keyBlobParamSet = .ok rawKey)
    (hne : algParam ≠ HksKeyAlg.tripleDes)
    (hnamed : getUInt32 runtimeParamSet HksTag.algorithm = .ok algParam) :
    HalCall.Permitted keyBlobParamSet runtimeParamSet (.hmacInit rawKey alg) := by
  have fixes (hby : ByDigest mac algParam) (hmem : HksTag.digest ∈ authId.policyTag) :
      Fixes keyBlobParamSet HksTag.digest alg := by
    refine m.fixes hmem (by decide) fun fixed hfixed => ?_
    exact Except.ok.inj ((d.digest hby).symm.trans hfixed)
  refine ⟨⟨hkey, m.allows d.purpose⟩, ?_⟩
  rcases authIdOf_mac hid with ⟨rfl, hdigest⟩ | ⟨hdes, _⟩ | ⟨rfl, halgorithm, hdigest⟩
  · exact ⟨fixes (.inl rfl) hdigest, .inl hnamed⟩
  · exact absurd hdes hne
  · exact ⟨fixes (.inr (.inl rfl)) hdigest, .inr (m.sameAlgorithm halgorithm d.algorithm)⟩

theorem permits_cmacInit (d : Dispatched s mac HksKeyAlg.tripleDes alg)
    (m : Met authId keyBlobParamSet s) (hid : authIdOf mac HksKeyAlg.tripleDes = some authId)
    (hkey : hksGetRawKey keyBlobParamSet = .ok rawKey) :
    HalCall.Permitted keyBlobParamSet runtimeParamSet (.cmacInit rawKey alg) := by
  refine ⟨⟨hkey, m.allows d.purpose⟩, ?_⟩
  rcases authIdOf_mac hid with ⟨hhmac, _⟩ | ⟨_, halgorithm⟩ | ⟨hsm3, _⟩
  · exact absurd hhmac (by decide)
  · exact m.sameAlgorithm halgorithm d.algorithm
  · exact absurd hsm3 (by decide)

end Permits

end Huks
