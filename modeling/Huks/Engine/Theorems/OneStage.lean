import Huks.Engine.OneStage
import Huks.Engine.Theorems.EngineRuns
import Huks.Engine.Theorems.KeyPolicy

namespace Huks

open EStateM HksKeyPurpose OneStage

-- The check of the params that a call starts with.
def OneStageCall.check (engine : EngineEnv) (env : OneStageEnv) (key : Bytes)
    (paramSet : HksParamSet) : OneStageCall → Except HksErrorCode Unit
  | sign _ size       => hksCoreCheckSignVerifyParams engine env .sign key paramSet size
  | verify _ data     => hksCoreCheckSignVerifyParams engine env .verify key paramSet data.size
  | encrypt data size => hksCoreCheckCipherParams env .encrypt key paramSet data.size size
  | decrypt data size => hksCoreCheckCipherParams env .decrypt key paramSet data.size size
  | agreeKey _ size   => hksCoreCheckAgreeKeyParams env paramSet key size
  | deriveKey _       => hksCoreCheckDeriveKeyParams env paramSet
  | mac _ size        => hksCoreCheckMacParams paramSet size
  | exportPublicKey _ | getKeyProperties => .ok ()

-- What a call asks of the opened key besides the identity of its owner.
def OneStageCall.auth (engine : EngineEnv) (keyBlobParamSet paramSet : HksParamSet) :
    OneStageCall → Except HksErrorCode Unit
  | sign _ _ | verify _ _     => OneStage.signVerifyAuth engine keyBlobParamSet paramSet
  | encrypt _ _ | decrypt _ _ => OneStage.cipherAuth engine keyBlobParamSet paramSet
  | agreeKey _ _              => refuseUserAuth keyBlobParamSet
  | deriveKey _               => hksAuth engine .derive keyBlobParamSet paramSet
  | mac _ _                   => hksAuth engine .macHmac keyBlobParamSet paramSet
  | exportPublicKey _ | getKeyProperties => .ok ()

-- The gates that a call on `key` is through once it has returned.
structure OneStageCall.Passed (engine : EngineEnv) (env : OneStageEnv) (w : World) (key : Bytes)
    (paramSet : HksParamSet) (call : OneStageCall) (keyBlobParamSet : HksParamSet) : Prop where
  checked  : call.check engine env key paramSet = .ok ()
  opened   : engine.getKeyBlobParamSet w.tick key = .ok keyBlobParamSet
  identity : ∃ u v, (hksProcessIdentityVerify engine keyBlobParamSet paramSet).run u = .ok ⟨⟩ v
  auth     : call.auth engine keyBlobParamSet paramSet = .ok ()

section Passed

variable {engine : EngineEnv} {env : OneStageEnv} {w w' : World} {key out : Bytes}
  {paramSet : HksParamSet}

theorem generateKeyNode_ok {keyBlobParamSet : HksParamSet}
    (h : (generateKeyNode engine key).run w = .ok keyBlobParamSet w') :
    engine.getKeyBlobParamSet w.tick key = .ok keyBlobParamSet := by
  unfold generateKeyNode at h
  split at h
  case isTrue => cases h
  case isFalse =>
    have ⟨n, u, hn, h⟩ := run_bind_eq_ok.mp h
    cases hn
    exact Except.orError_eq_ok.mp (run_ofExcept_eq_ok.mp h).1

-- What every call does first.
theorem opening_ok {check : Except HksErrorCode Unit} {pre : HksParamSet → WorldM Unit}
    {f : HksParamSet → WorldM Bytes}
    (h : (do
      MonadExcept.ofExcept check
      let keyBlobParamSet ← generateKeyNode engine key
      pre keyBlobParamSet
      f keyBlobParamSet).run w = .ok out w') :
    check = .ok () ∧ ∃ keyBlobParamSet u v,
      engine.getKeyBlobParamSet w.tick key = .ok keyBlobParamSet ∧
      (pre keyBlobParamSet).run u = .ok ⟨⟩ v ∧ (f keyBlobParamSet).run v = .ok out w' := by
  have ⟨_, _, hc, h⟩ := run_bind_eq_ok.mp h
  have ⟨hcheck, hs⟩ := run_ofExcept_eq_ok.mp hc
  subst hs
  have ⟨keyBlobParamSet, u, hopen, h⟩ := run_bind_eq_ok.mp h
  have ⟨_, v, hpre, h⟩ := run_bind_eq_ok.mp h
  exact ⟨hcheck, keyBlobParamSet, u, v, generateKeyNode_ok hopen, hpre, h⟩

theorem OneStageCall.passed {call : OneStageCall}
    (h : (call.exec engine env key paramSet).run w = .ok out w') :
    ∃ keyBlobParamSet, call.Passed engine env w key paramSet keyBlobParamSet := by
  cases call
  case sign | verify | encrypt | decrypt =>
    have ⟨checked, blob, u, _, opened, hpre, _⟩ := opening_ok h
    have ⟨_, v, hid, hauth⟩ := run_bind_eq_ok.mp hpre
    exact ⟨blob, checked, opened, ⟨u, v, hid⟩, (run_ofExcept_eq_ok.mp hauth).1⟩
  case agreeKey | deriveKey | mac =>
    have ⟨checked, blob, u, v, opened, hid, h⟩ := opening_ok h
    have ⟨_, _, hauth, _⟩ := run_bind_eq_ok.mp h
    exact ⟨blob, checked, opened, ⟨u, v, hid⟩, (run_ofExcept_eq_ok.mp hauth).1⟩
  case exportPublicKey size =>
    simp only [exec, hksCoreExportPublicKey] at h
    split at h
    case isTrue => cases h
    case isFalse =>
      have ⟨blob, u, hopen, h⟩ := run_bind_eq_ok.mp h
      have ⟨_, v, hid, _⟩ := run_bind_eq_ok.mp h
      exact ⟨blob, rfl, generateKeyNode_ok hopen, ⟨u, v, hid⟩, rfl⟩
  case getKeyProperties =>
    have ⟨_, _, h, _⟩ := run_bind_eq_ok.mp h
    have ⟨blob, u, hopen, hid⟩ := run_bind_eq_ok.mp h
    exact ⟨blob, rfl, generateKeyNode_ok hopen, ⟨u, _, hid⟩, rfl⟩

end Passed

section Purpose

variable {env : OneStageEnv} {paramSet : HksParamSet} {alg : UInt32}

-- Whoever uses a key has to name a purpose.
theorem useKeyParams_purpose {params : ParamsValues} (h : useKeyParams alg = .ok params) :
    params.purpose.needCheck := by
  unfold useKeyParams at h
  repeat' split at h
  all_goals cases h
  all_goals rfl

theorem initInputParamsByAlg_purpose {params : ParamsValues}
    (h : initInputParamsByAlg env alg = .ok params) : params.purpose.needCheck := by
  unfold initInputParamsByAlg at h
  split at h <;> split at h
  case isTrue.isTrue | isFalse.isTrue => exact useKeyParams_purpose h
  case isTrue.isFalse | isFalse.isFalse => cases h

theorem fillKeyLen_purpose {key : Bytes} {params params' : ParamsValues}
    (h : fillKeyLen env alg key params = .ok params') : params'.purpose = params.purpose := by
  unfold fillKeyLen at h
  split at h
  case isTrue =>
    have ⟨_, _, h⟩ := Except.bind_eq_ok.mp h
    cases h
    rfl
  case isFalse =>
    cases h
    rfl

theorem hksGetInputParmasByAlg_purpose {params : ParamsValues}
    (h : hksGetInputParmasByAlg env alg paramSet = .ok params) :
    getUInt32 paramSet HksTag.purpose = .ok params.purpose.value := by
  have ⟨table, htable, h⟩ := Except.bind_eq_ok.mp h
  have hneed := initInputParamsByAlg_purpose htable
  have ⟨_, _, h⟩ := Except.bind_eq_ok.mp h
  have ⟨purpose, hpurpose, h⟩ := Except.bind_eq_ok.mp h
  have ⟨_, _, h⟩ := Except.bind_eq_ok.mp h
  have ⟨_, _, h⟩ := Except.bind_eq_ok.mp h
  have ⟨_, _, h⟩ := Except.bind_eq_ok.mp h
  cases h
  have hget := Except.orError_eq_ok.mp hpurpose
  simp only [getRequiredParams, hneed, not_true_eq_false, if_false] at hget
  have ⟨value, hvalue, hget⟩ := Except.bind_eq_ok.mp hget
  cases hget
  exact hvalue

theorem hksCheckSignVerifyMutableParams_ok {cmdId : HksCmdId} {params : ParamsValues}
    (h : hksCheckSignVerifyMutableParams env cmdId alg params = .ok ()) :
    params.purpose.value &&& cmdId.purpose ≠ 0 := by
  unfold hksCheckSignVerifyMutableParams at h
  split at h
  case isTrue => cases h
  case isFalse =>
    split at h
    case isTrue => cases h
    case isFalse hp => exact hp

theorem hksCheckCipherMutableParams_ok {cmdId : HksCmdId} {params : ParamsValues}
    (h : hksCheckCipherMutableParams env cmdId alg params = .ok ()) :
    params.purpose.value &&& cmdId.purpose ≠ 0 := by
  unfold hksCheckCipherMutableParams at h
  split at h
  case isTrue => cases h
  case isFalse =>
    split at h
    case isTrue => cases h
    case isFalse hp => exact hp

theorem signVerifyCheck_purpose {engine : EngineEnv} {cmdId : HksCmdId} {key : Bytes}
    {size : UInt32}
    (h : hksCoreCheckSignVerifyParams engine env cmdId key paramSet size = .ok ()) :
    ∃ requested, getUInt32 paramSet HksTag.purpose = .ok requested ∧
      requested &&& cmdId.purpose ≠ 0 := by
  have ⟨alg, _, h⟩ := Except.bind_eq_ok.mp h
  have ⟨params, hparams, h⟩ := Except.bind_eq_ok.mp h
  have ⟨_, hcheck, _⟩ := Except.bind_eq_ok.mp h
  have ⟨_, _, hmutable⟩ := Except.bind_eq_ok.mp hcheck
  exact ⟨_, hksGetInputParmasByAlg_purpose hparams, hksCheckSignVerifyMutableParams_ok hmutable⟩

theorem cipherCheck_purpose {cmdId : HksCmdId} {key : Bytes} {inSize outSize : UInt32}
    (h : hksCoreCheckCipherParams env cmdId key paramSet inSize outSize = .ok ()) :
    ∃ requested, getUInt32 paramSet HksTag.purpose = .ok requested ∧
      requested &&& cmdId.purpose ≠ 0 := by
  have ⟨alg, _, h⟩ := Except.bind_eq_ok.mp h
  have ⟨params, hparams, h⟩ := Except.bind_eq_ok.mp h
  have ⟨params', hkeyLen, h⟩ := Except.bind_eq_ok.mp h
  have ⟨_, hcheck, _⟩ := Except.bind_eq_ok.mp h
  have ⟨_, _, hcheck⟩ := Except.bind_eq_ok.mp hcheck
  have ⟨_, hmutable, _⟩ := Except.bind_eq_ok.mp hcheck
  have hpurpose := fillKeyLen_purpose hkeyLen
  exact ⟨_, hksGetInputParmasByAlg_purpose hparams,
    hpurpose ▸ hksCheckCipherMutableParams_ok hmutable⟩

theorem checkExactPurpose_ok {purpose : UInt32} (h : checkExactPurpose paramSet purpose = .ok ()) :
    getUInt32 paramSet HksTag.purpose = .ok purpose := by
  have ⟨requested, hget, h⟩ := Except.bind_eq_ok.mp h
  split at h
  case isTrue => cases h
  case isFalse heq => exact not_not.mp heq ▸ Except.orError_eq_ok.mp hget

-- The call's own purpose is among the purposes that the caller names.
theorem OneStageCall.check_purpose {engine : EngineEnv} {key : Bytes} {call : OneStageCall}
    {purpose : UInt32} (h : call.check engine env key paramSet = .ok ())
    (hpurpose : call.purpose = some purpose) (hagree : purpose ≠ agree) :
    ∃ requested, getUInt32 paramSet HksTag.purpose = .ok requested ∧ requested &&& purpose ≠ 0 := by
  cases call <;> cases hpurpose
  case sign | verify => exact signVerifyCheck_purpose h
  case encrypt | decrypt => exact cipherCheck_purpose h
  case agreeKey => exact absurd rfl hagree
  case deriveKey =>
    have ⟨_, _, h⟩ := Except.bind_eq_ok.mp h
    have ⟨_, hexact, _⟩ := Except.bind_eq_ok.mp h
    exact ⟨_, checkExactPurpose_ok hexact, by decide⟩
  case mac =>
    have ⟨_, hexact, _⟩ := Except.bind_eq_ok.mp h
    exact ⟨_, checkExactPurpose_ok hexact, by decide⟩

end Purpose

theorem refuseUserAuth_ok {keyBlobParamSet : HksParamSet}
    (h : refuseUserAuth keyBlobParamSet = .ok ()) :
    hksGetParam keyBlobParamSet HksTag.userAuthType = .error .paramNotExist := by
  have ⟨isSupport, hget, h⟩ := Except.bind_eq_ok.mp h
  cases isSupport
  case true => cases h
  case false =>
    unfold hksCheckKeybBlobIsSupportUserAuth at hget
    split at hget
    case h_1 hnone => exact hnone
    case h_2 | h_3 => cases hget

theorem hksAuth_ok {engine : EngineEnv} {authId : HksAuthId} {keyBlobParamSet paramSet : HksParamSet}
    (h : hksAuth engine authId keyBlobParamSet paramSet = .ok ()) :
    hksGetParam keyBlobParamSet HksTag.userAuthType = .error .paramNotExist ∧
      authPolicy engine authId.policyTag keyBlobParamSet paramSet = .ok () := by
  have ⟨_, hrefuse, h⟩ := Except.bind_eq_ok.mp h
  exact ⟨refuseUserAuth_ok hrefuse, h⟩

def OneStageCall.isSignVerify : OneStageCall → Bool
  | sign _ _ | verify _ _ => true
  | _                     => false

-- Whether the policy of the call compares the algorithm that the caller names with the key's.
def OneStageCall.comparesAlgorithm (paramSet : HksParamSet) : OneStageCall → Prop
  | sign _ _ | verify _ _     => getUInt32 paramSet HksTag.algorithm = .ok HksKeyAlg.rsa ∨
    getUInt32 paramSet HksTag.algorithm = .ok HksKeyAlg.ecc
  | encrypt _ _ | decrypt _ _ => True
  | _                         => False

section Auth

variable {engine : EngineEnv} {keyBlobParamSet paramSet : HksParamSet}

theorem signVerifyAuth_ok (h : OneStage.signVerifyAuth engine keyBlobParamSet paramSet = .ok ())
    (hdsa : getUInt32 paramSet HksTag.algorithm ≠ .ok HksKeyAlg.dsa) :
    ∃ authId : HksAuthId, hksAuth engine authId keyBlobParamSet paramSet = .ok () ∧
      (getUInt32 paramSet HksTag.algorithm = .ok HksKeyAlg.rsa ∨
        getUInt32 paramSet HksTag.algorithm = .ok HksKeyAlg.ecc →
          HksTag.algorithm ∈ authId.policyTag) := by
  have ⟨alg, halg, h⟩ := Except.bind_eq_ok.mp h
  split at h
  case isTrue =>
    have ⟨padding, _, h⟩ := Except.bind_eq_ok.mp h
    split at h
    case isTrue =>
      have ⟨_, _, h⟩ := Except.bind_eq_ok.mp h
      exact ⟨_, h, fun _ => by decide⟩
    case isFalse => exact ⟨_, h, fun _ => by decide⟩
  case isFalse hrsa =>
    split at h
    case isTrue => exact ⟨_, h, fun _ => by decide⟩
    case isFalse hecc =>
      split at h
      case isTrue heq => exact absurd (heq ▸ halg) hdsa
      case isFalse =>
        split at h
        case isFalse => cases h
        case isTrue =>
          refine ⟨_, h, ?_⟩
          rintro (heq | heq) <;> cases halg.symm.trans heq
          case inl => exact absurd rfl hrsa
          case inr => exact absurd rfl hecc

theorem cipherAuth_ok (h : OneStage.cipherAuth engine keyBlobParamSet paramSet = .ok ()) :
    ∃ authId : HksAuthId, hksAuth engine authId keyBlobParamSet paramSet = .ok () ∧
      HksTag.algorithm ∈ authId.policyTag := by
  have ⟨alg, _, h⟩ := Except.bind_eq_ok.mp h
  split at h
  case isTrue => exact ⟨_, h, by decide⟩
  case isFalse =>
    split at h
    case isTrue => exact ⟨_, h, by decide⟩
    case isFalse => cases h

-- Every branch but the one for DSA goes through the refusal of user auth and a policy.
theorem OneStageCall.auth_ok {call : OneStageCall} {purpose : UInt32}
    (h : call.auth engine keyBlobParamSet paramSet = .ok ()) (hpurpose : call.purpose = some purpose)
    (hagree : purpose ≠ agree)
    (hdsa : call.isSignVerify → getUInt32 paramSet HksTag.algorithm ≠ .ok HksKeyAlg.dsa) :
    ∃ authId : HksAuthId, hksAuth engine authId keyBlobParamSet paramSet = .ok () ∧
      (call.comparesAlgorithm paramSet → HksTag.algorithm ∈ authId.policyTag) := by
  cases call <;> cases hpurpose
  case sign | verify => exact signVerifyAuth_ok h (hdsa rfl)
  case encrypt | decrypt =>
    have ⟨authId, hauth, hmem⟩ := cipherAuth_ok h
    exact ⟨authId, hauth, fun _ => hmem⟩
  case agreeKey => exact absurd rfl hagree
  case deriveKey | mac => exact ⟨_, h, False.elim⟩

end Auth

theorem OneStageCall.purpose_twoPow {call : OneStageCall} {purpose : UInt32}
    (h : call.purpose = some purpose) : ∃ k, purpose.toNat = 2 ^ k := by
  cases call <;> cases h
  case sign => exact ⟨2, rfl⟩
  case verify => exact ⟨3, rfl⟩
  case encrypt => exact ⟨0, rfl⟩
  case decrypt => exact ⟨1, rfl⟩
  case agreeKey => exact ⟨8, rfl⟩
  case deriveKey => exact ⟨4, rfl⟩
  case mac => exact ⟨7, rfl⟩

-- The key lets `call` have its purpose, and the algorithm where the call's policy compares it.
structure OneStageCall.Authorised (call : OneStageCall) (purpose : UInt32)
    (keyBlobParamSet paramSet : HksParamSet) : Prop where
  noUserAuth : hksGetParam keyBlobParamSet HksTag.userAuthType = .error .paramNotExist
  purpose    : purpose ≠ agree → ∃ authorised,
    getUInt32 keyBlobParamSet HksTag.purpose = .ok authorised ∧ purpose &&& authorised = purpose
  algorithm  : call.comparesAlgorithm paramSet → ∃ alg,
    getUInt32 paramSet HksTag.algorithm = .ok alg ∧
    getUInt32 keyBlobParamSet HksTag.algorithm = .ok alg ∧
    (hksCheckParamSetTag paramSet = .ok () → (hksFillUsageSpec paramSet).algType = alg)

-- A build with all algorithms, where the file of every key holds `keyParamSet`, and whose tables of
-- paddings, modes and the like accept everything.
def steadyOneStage (keyParamSet : HksParamSet) : OneStageEnv where
  supportAlg _                       := true
  hksCheckFixedParams _ _            := .ok ()
  checkCipherPadding _ _             := .ok ()
  hksCheckCipherMaterialParams _ _ _ := .ok ()
  hksCheckCipherData _ _ _ _ _       := .ok ()
  hksGetKeySize alg _                := hksGetKeySize keyParamSet alg
  hksCryptoHalHash _ _ _             := .ok [1]
  hksCryptoHalHmac _ _ _ _           := .ok [1]
  hksCryptoHalGetPubKey _ _          := .ok [1]

def builtParamSet (params : List HksParam) : HksParamSet :=
  match hksAddParams hksInitParamSet params >>= hksBuildParamSet with
  | .ok s    => s
  | .error _ => hksInitParamSet

-- The param set of a caller, and of a key, that belong to one process.
def callerParamSet (params : List HksParam) : HksParamSet :=
  builtParamSet (params ++ [.ofBytes HksTag.processName [1]])

def processKey (processName rawKey : Bytes) (params : List HksParam) : HksParamSet :=
  builtParamSet (params ++ [.ofBytes HksTag.processName processName,
    .ofBytes HksTag.key (.replicate 44 0 ++ toBytes32 rawKey.size ++ rawKey)])

def openedKeyOf : Bytes → List HksParam → HksParamSet := processKey [1]

def openedKey : List HksParam → HksParamSet := openedKeyOf [1]

def OneStageCall.returns (call : OneStageCall) (keyBlobParamSet paramSet : HksParamSet) : Bool :=
  ((call.exec (steadyEnv keyBlobParamSet) (steadyOneStage keyBlobParamSet) [1] paramSet).run {}).toExcept.toBool

theorem OneStageCall.returns_ok (call : OneStageCall) (keyBlobParamSet paramSet : HksParamSet)
    (h : call.returns keyBlobParamSet paramSet) :
    ∃ out w, (call.exec (steadyEnv keyBlobParamSet) (steadyOneStage keyBlobParamSet) [1] paramSet).run {} =
      .ok out w := by
  unfold OneStageCall.returns at h
  cases hr : (call.exec (steadyEnv keyBlobParamSet) (steadyOneStage keyBlobParamSet) [1] paramSet).run {}
  case ok out w => exact ⟨out, w, rfl⟩
  case error => simp [hr, Result.toExcept, Except.toBool] at h

-- An AES key that was generated for a MAC, and a caller that names HMAC
def aesMacKey : HksParamSet := openedKeyOf (.replicate 32 7) [.ofUInt32 HksTag.algorithm HksKeyAlg.aes,
  .ofUInt32 HksTag.keySize 256, .ofUInt32 HksTag.purpose mac, .ofUInt32 HksTag.digest HksKeyDigest.sha256]

def hmacParamSet : HksParamSet := callerParamSet [.ofUInt32 HksTag.algorithm HksKeyAlg.hmac,
  .ofUInt32 HksTag.purpose mac, .ofUInt32 HksTag.digest HksKeyDigest.sha256]

-- The key material of a key pair on the curve of 256 bits
def eccMaterial : Bytes := [HksKeyAlg.ecc, 256, 32, 32, 32].flatMap toBytes32 ++ .replicate 96 7

def eccSignKey : HksParamSet := openedKeyOf eccMaterial [.ofUInt32 HksTag.algorithm HksKeyAlg.ecc,
  .ofUInt32 HksTag.keySize 256, .ofUInt32 HksTag.purpose sign,
  .ofUInt32 HksTag.digest HksKeyDigest.sha256]

def eccParamSet : HksParamSet := callerParamSet [.ofUInt32 HksTag.algorithm HksKeyAlg.ecc,
  .ofUInt32 HksTag.purpose sign, .ofUInt32 HksTag.digest HksKeyDigest.sha256]

-- A call that returns was authorised by the key itself, in every branch but the one of DSA.
theorem oneStage_authorised {engine : EngineEnv} {env : OneStageEnv} {key out : Bytes}
    {paramSet : HksParamSet} {call : OneStageCall} {w w' : World} {purpose : UInt32}
    (h : (call.exec engine env key paramSet).run w = .ok out w')
    (hpurpose : call.purpose = some purpose)
    (hdsa : call.isSignVerify → getUInt32 paramSet HksTag.algorithm ≠ .ok HksKeyAlg.dsa) :
    ∃ keyBlobParamSet, engine.getKeyBlobParamSet w.tick key = .ok keyBlobParamSet ∧
      call.Authorised purpose keyBlobParamSet paramSet := by
  have ⟨blob, passed⟩ := OneStageCall.passed h
  refine ⟨blob, passed.opened, ?_⟩
  by_cases hagree : purpose = agree
  case pos =>
    cases call <;> cases hpurpose <;> cases hagree
    exact {
      noUserAuth := refuseUserAuth_ok passed.auth
      purpose    := fun h => absurd rfl h
      algorithm  := False.elim }
  case neg =>
    have ⟨authId, hauth, hmem⟩ := OneStageCall.auth_ok passed.auth hpurpose hagree hdsa
    have ⟨noUserAuth, hpolicy⟩ := hksAuth_ok hauth
    have ⟨requested, hrequested, hne⟩ := OneStageCall.check_purpose passed.checked hpurpose hagree
    have ⟨_, authorised, hrequested', hauthorised, _, hsub⟩ :=
      authPolicy_purpose hpolicy authId.purpose_mem
    cases hrequested.symm.trans hrequested'
    have ⟨k, hk⟩ := OneStageCall.purpose_twoPow hpurpose
    have hbit : requested &&& purpose = purpose := and_eq_of_twoPow hk hne
    refine ⟨noUserAuth, fun _ => ⟨authorised, hauthorised, ?_⟩, fun hcompares => ?_⟩
    · calc purpose &&& authorised
        _ = requested &&& purpose &&& authorised := by rw [hbit]
        _ = requested &&& authorised &&& purpose := by
          rw [UInt32.and_assoc, UInt32.and_comm purpose, ← UInt32.and_assoc]
        _ = purpose := by rw [hsub, hbit]
    · have ⟨alg, halg, hblob⟩ := authPolicy_algorithm hpolicy (hmem hcompares)
      exact ⟨alg, halg, hblob, fun htags =>
        usageSpec_algType (single_of_nodup (hksCheckParamSetTag_eq_ok.mp htags).2 _) halg⟩

theorem oneStage_authorised_ecc :
    ∃ keyBlobParamSet, (steadyEnv eccSignKey).getKeyBlobParamSet 0 [1] = .ok keyBlobParamSet ∧
      (OneStageCall.sign [1] 72).Authorised sign keyBlobParamSet eccParamSet := by
  have ⟨_, _, h⟩ := OneStageCall.returns_ok (.sign [1] 72) eccSignKey eccParamSet (by decide +kernel)
  exact oneStage_authorised h rfl fun _ => by decide

-- The AES key computes an HMAC.
theorem oneStage_not_authorised :
    (OneStageCall.mac [1] 32).returns aesMacKey hmacParamSet ∧
      getUInt32 aesMacKey HksTag.algorithm = .ok HksKeyAlg.aes ∧
      getUInt32 hmacParamSet HksTag.algorithm = .ok HksKeyAlg.hmac := by
  decide

end Huks
