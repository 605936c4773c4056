import Huks.Common.Theorems.Contents
import Huks.Common.Theorems.Tags
import Huks.Engine.Auth
import Huks.Engine.CryptoAdapter
import Mathlib.Data.Nat.Bitwise

namespace Huks

theorem checkPurpose_ok {authParam requestParam : HksParam}
    (h : checkPurpose authParam requestParam = .ok ()) :
    requestParam.uint32Param ≠ 0 ∧
      requestParam.uint32Param &&& authParam.uint32Param = requestParam.uint32Param := by
  unfold checkPurpose at h
  split at h
  case isTrue => cases h
  case isFalse hz =>
    split at h
    case isTrue => cases h
    case isFalse hp => exact ⟨hz, not_not.mp hp⟩

-- A `uint` param matches one of the same value.
theorem hksCheckParamMatch_ok {baseSet set : HksParamSet} {baseParam param : HksParam}
    (ht : getTagType baseParam.tag = .uint)
    (h : hksCheckParamMatch baseSet baseParam set param = .ok ()) :
    baseParam.uint32Param = param.uint32Param := by
  unfold hksCheckParamMatch at h
  split at h
  case isTrue => cases h
  case isFalse =>
    split at h
    case isFalse => cases h
    case isTrue hm => simpa [hksCheckParamMatch.isMatch, ht] using hm

theorem and_eq_of_twoPow {x p : UInt32} {k : Nat} (hp : p.toNat = 2 ^ k) (h : x &&& p ≠ 0) :
    x &&& p = p := by
  have hand : (x &&& p).toNat = (x.toNat.testBit k).toNat * 2 ^ k := by
    rw [UInt32.toNat_and, hp, Nat.and_two_pow]
  cases hb : x.toNat.testBit k
  case false =>
    refine absurd (UInt32.toNat_inj.mp ?_) h
    rw [hand, hb]
    simp
  case true =>
    apply UInt32.toNat_inj.mp
    rw [hand, hb, hp]
    simp

section Policy

variable {env : EngineEnv} {tags : List UInt32} {keyBlobParamSet paramSet : HksParamSet}

theorem authPolicy_ok (h : authPolicy env tags keyBlobParamSet paramSet = .ok ()) :
    ∃ alg purpose, getUInt32 keyBlobParamSet HksTag.algorithm = .ok alg ∧
      getUInt32 keyBlobParamSet HksTag.purpose = .ok purpose ∧
      ∀ tag ∈ tags, authTagPolicy env keyBlobParamSet paramSet alg purpose tag = .ok () := by
  have ⟨alg, halg, h⟩ := Except.bind_eq_ok.mp h
  have ⟨purpose, hpurpose, h⟩ := Except.bind_eq_ok.mp h
  have ⟨_, _, h⟩ := Except.bind_eq_ok.mp h
  exact ⟨alg, purpose, Except.orError_eq_ok.mp halg, Except.orError_eq_ok.mp hpurpose,
    Except.forM_eq_ok.mp h⟩

-- A policy that lists the purpose lets only purposes of the key through.
theorem authPolicy_purpose (h : authPolicy env tags keyBlobParamSet paramSet = .ok ())
    (hmem : HksTag.purpose ∈ tags) :
    ∃ requested authorised, getUInt32 paramSet HksTag.purpose = .ok requested ∧
      getUInt32 keyBlobParamSet HksTag.purpose = .ok authorised ∧ requested ≠ 0 ∧
      requested &&& authorised = requested := by
  have ⟨alg, purpose, _, hpurpose, htags⟩ := authPolicy_ok h
  have ⟨authParam, hauth, hvalue⟩ := getUInt32_eq_ok.mp hpurpose
  have h := htags _ hmem
  simp only [authTagPolicy, hauth] at h
  have ⟨requestParam, hrequest, h⟩ := Except.bind_eq_ok.mp h
  have hpurpose' : checkPurpose authParam requestParam = .ok () := by simpa using h
  have ⟨hz, hsub⟩ := checkPurpose_ok hpurpose'
  exact ⟨_, _, getUInt32_eq_ok.mpr ⟨requestParam, hrequest, rfl⟩, hpurpose, hz, hvalue ▸ hsub⟩

-- What the key fixes and the policy lists, the caller has to ask for.
theorem authPolicy_match {tag value : UInt32}
    (h : authPolicy env tags keyBlobParamSet paramSet = .ok ()) (hmem : tag ∈ tags)
    (ht : getTagType tag = .uint) (hne : tag ≠ HksTag.purpose)
    (hvalue : getUInt32 keyBlobParamSet tag = .ok value) :
    getUInt32 paramSet tag = .ok value := by
  have ⟨alg, purpose, _, _, htags⟩ := authPolicy_ok h
  have ⟨authParam, hauth, hvalue⟩ := getUInt32_eq_ok.mp hvalue
  have h := htags _ hmem
  simp only [authTagPolicy, hauth, hne, ne_eq, not_false_eq_true, if_true] at h
  have ⟨requestParam, hrequest, h⟩ := Except.bind_eq_ok.mp h
  have hm := hksCheckParamMatch_ok (by rw [(getParam_value hauth).1, ht]) h
  exact getUInt32_eq_ok.mpr ⟨requestParam, hrequest, hm ▸ hvalue⟩

-- The key always has an algorithm, so a policy that lists it fixes the algorithm of the caller.
theorem authPolicy_algorithm (h : authPolicy env tags keyBlobParamSet paramSet = .ok ())
    (hmem : HksTag.algorithm ∈ tags) :
    ∃ alg, getUInt32 paramSet HksTag.algorithm = .ok alg ∧
      getUInt32 keyBlobParamSet HksTag.algorithm = .ok alg := by
  have ⟨alg, _, halg, _, _⟩ := authPolicy_ok h
  exact ⟨alg, authPolicy_match h hmem (by decide) (by decide) halg, halg⟩

end Policy

-- The usage spec takes the last entry with a tag, the policy the first.
section UsageSpec

variable {s : HksParamSet} {tag value : UInt32}

theorem usageSpec_field {get : HksUsageSpec → UInt32}
    (hfill : ∀ spec p, get (hksFillUsageSpec.fill spec p) =
      if p.tag = tag then p.uint32Param else get spec)
    (hs : Single tag s.params) (h : getUInt32 s tag = .ok value) :
    get (hksFillUsageSpec s) = value := by
  have ⟨p, hp, hvalue⟩ := getUInt32_eq_ok.mp h
  rw [hksFillUsageSpec, foldl_field hfill, hs.find?_reverse, hksGetParam_find hp]
  exact hvalue

theorem usageSpec_algType (hs : Single HksTag.algorithm s.params)
    (h : getUInt32 s HksTag.algorithm = .ok value) : (hksFillUsageSpec s).algType = value := by
  refine usageSpec_field (fun spec p => ?_) hs h
  unfold hksFillUsageSpec.fill
  split_ifs <;> rfl

theorem usageSpec_padding (hs : Single HksTag.padding s.params)
    (h : getUInt32 s HksTag.padding = .ok value) : (hksFillUsageSpec s).padding = value := by
  refine usageSpec_field (fun spec p => ?_) hs h
  grind [hksFillUsageSpec.fill, HksTag.algorithm, HksTag.padding]

theorem usageSpec_digest (hs : Single HksTag.digest s.params)
    (h : getUInt32 s HksTag.digest = .ok value) : (hksFillUsageSpec s).digest = value := by
  refine usageSpec_field (fun spec p => ?_) hs h
  grind [hksFillUsageSpec.fill, HksTag.algorithm, HksTag.padding, HksTag.digest]

theorem usageSpec_mode (hs : Single HksTag.blockMode s.params)
    (h : getUInt32 s HksTag.blockMode = .ok value) : (hksFillUsageSpec s).mode = value := by
  refine usageSpec_field (fun spec p => ?_) hs h
  grind [hksFillUsageSpec.fill, HksTag.algorithm, HksTag.padding, HksTag.digest, HksTag.blockMode]

theorem usageSpec_purpose (hs : Single HksTag.purpose s.params)
    (h : getUInt32 s HksTag.purpose = .ok value) : (hksFillUsageSpec s).purpose = value := by
  refine usageSpec_field (fun spec p => ?_) hs h
  grind [hksFillUsageSpec.fill, HksTag.algorithm, HksTag.padding, HksTag.digest, HksTag.blockMode,
    HksTag.purpose]

theorem derivationParam_digestAlg (hs : Single HksTag.digest s.params)
    (h : getUInt32 s HksTag.digest = .ok value) : (hksFillKeyDerivationParam s).digestAlg = value := by
  have ⟨p, hp, hvalue⟩ := getUInt32_eq_ok.mp h
  have hfill (spec : HksKeyDerivationParam) (p : HksParam) :
      (hksFillKeyDerivationParam.fill s spec p).digestAlg =
        if p.tag = HksTag.digest then p.uint32Param else spec.digestAlg := by
    unfold hksFillKeyDerivationParam.fill
    split_ifs <;> rfl
  rw [hksFillKeyDerivationParam, foldl_field hfill, hs.find?_reverse, hksGetParam_find hp]
  exact hvalue

end UsageSpec

end Huks
