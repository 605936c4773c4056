import Huks.Common.Theorems.Construction
import Huks.Engine.Theorems.OneStage

namespace Huks

open EStateM

-- What the param set of a call says about its caller.
structure Identifies (processName : Bytes) (userId : UInt32) (accessTokenId : UInt64)
    (s : HksParamSet) : Prop where
  processName   : getBlob s HksTag.processName = .ok processName
  userId        : getUInt32 s HksTag.userId = .ok userId
  accessTokenId : (hksGetParam s HksTag.accessTokenId).map HksParam.uint64Param = .ok accessTokenId

-- The key is one of that caller. It always names a process, the other two are there or not.
structure OwnedBy (processName : Bytes) (userId : UInt32) (accessTokenId : UInt64)
    (keyBlobParamSet : HksParamSet) : Prop where
  processName   : getBlob keyBlobParamSet HksTag.processName = .ok processName
  userId        : ∀ blobUserId,
    getUInt32 keyBlobParamSet HksTag.userId = .ok blobUserId → blobUserId = userId
  accessTokenId : ∀ blobAccessTokenId,
    hksGetParam keyBlobParamSet HksTag.accessTokenId = .ok blobAccessTokenId →
      blobAccessTokenId.uint64Param = accessTokenId

section Verify

variable {env : EngineEnv} {keyBlobParamSet s : HksParamSet} {processName : Bytes} {userId : UInt32}
  {accessTokenId : UInt64}

theorem hksCheckCompareAccessTokenId_ok
    (h : hksCheckCompareAccessTokenId keyBlobParamSet s = .ok ())
    (hs : (hksGetParam s HksTag.accessTokenId).map HksParam.uint64Param = .ok accessTokenId)
    {blobAccessTokenId : HksParam}
    (hb : hksGetParam keyBlobParamSet HksTag.accessTokenId = .ok blobAccessTokenId) :
    blobAccessTokenId.uint64Param = accessTokenId := by
  simp only [hksCheckCompareAccessTokenId, getParamOf, Option.elim_some, hb] at h
  obtain ⟨p, hp, h⟩ := Except.bind_eq_ok.mp h
  rw [Except.orError_eq_ok.mp hp] at hs
  cases hs
  split at h
  case isTrue => cases h
  case isFalse heq => exact not_not.mp heq

theorem hksCheckCompareUserId_ok (h : hksCheckCompareUserId keyBlobParamSet s = .ok ())
    (hs : getUInt32 s HksTag.userId = .ok userId) {blobUserId : UInt32}
    (hb : getUInt32 keyBlobParamSet HksTag.userId = .ok blobUserId) : blobUserId = userId := by
  simp only [hksCheckCompareUserId, getUInt32Of, Option.elim_some, hb] at h
  have ⟨value, hvalue, h⟩ := Except.bind_eq_ok.mp h
  cases hs.symm.trans (Except.orError_eq_ok.mp hvalue)
  split at h
  case isTrue => cases h
  case isFalse heq => exact not_not.mp heq

theorem hksCheckCompareProcessName_names
    (h : hksCheckCompareProcessName keyBlobParamSet s = .ok ()) :
    ∃ name, getBlob keyBlobParamSet HksTag.processName = .ok name ∧
      getBlob s HksTag.processName = .ok name := by
  have ⟨blobProcessName, hblob, h⟩ := Except.bind_eq_ok.mp h
  have ⟨name, hname, h⟩ := Except.bind_eq_ok.mp h
  split at h
  case isTrue => cases h
  case isFalse heq =>
    have heq := not_not.mp heq
    exact ⟨name, heq ▸ Except.orError_eq_ok.mp hblob, Except.orError_eq_ok.mp hname⟩

theorem hksCheckCompareProcessName_ok (h : hksCheckCompareProcessName keyBlobParamSet s = .ok ())
    (hs : getBlob s HksTag.processName = .ok processName) :
    getBlob keyBlobParamSet HksTag.processName = .ok processName := by
  have ⟨name, hblob, hname⟩ := hksCheckCompareProcessName_names h
  cases hs.symm.trans hname
  exact hblob

theorem hksProcessIdentityVerify_ok {u v : World}
    (h : (hksProcessIdentityVerify env keyBlobParamSet s).run u = .ok ⟨⟩ v)
    (i : Identifies processName userId accessTokenId s) :
    OwnedBy processName userId accessTokenId keyBlobParamSet := by
  have ⟨_, _, htoken, h⟩ := run_bind_eq_ok.mp h
  have ⟨_, _, huser, h⟩ := run_bind_eq_ok.mp h
  have ⟨_, _, hname, _⟩ := run_bind_eq_ok.mp h
  exact {
    processName   := hksCheckCompareProcessName_ok (run_ofExcept_eq_ok.mp hname).1 i.processName
    userId        := fun _ hb => hksCheckCompareUserId_ok (run_ofExcept_eq_ok.mp huser).1 i.userId hb
    accessTokenId := fun _ hb =>
      hksCheckCompareAccessTokenId_ok (run_ofExcept_eq_ok.mp htoken).1 i.accessTokenId hb }

end Verify

section Init

variable {env : EngineEnv} {key : Bytes} {paramSet : HksParamSet} {s t : Engine}

-- After its creation every node with the address of the new one has the opened key.
theorem hksCreateKeyNode_ok {keyNode : HuksKeyNode}
    (h : (hksCreateKeyNode env key paramSet).run s = .ok keyNode t) :
    ∃ n keyBlobParamSet runtimeParamSet, env.getKeyBlobParamSet n key = .ok keyBlobParamSet ∧
      buildRuntimeParamSet paramSet = .ok runtimeParamSet ∧
      ∀ m ∈ t.keyNodes, m.id = keyNode.id →
        m.keyBlobParamSet = keyBlobParamSet ∧ m.runtimeParamSet = runtimeParamSet := by
  have ⟨new, _, hnew, h⟩ := run_bind_eq_ok.mp h
  have ⟨id, _, _, hnew⟩ := run_bind_eq_ok.mp hnew
  have ⟨handle, _, _, hnew⟩ := run_bind_eq_ok.mp hnew
  have ⟨runtimeParamSet, _, hruntime, hnew⟩ := run_bind_eq_ok.mp hnew
  have ⟨n, _, _, hnew⟩ := run_bind_eq_ok.mp hnew
  have ⟨keyBlobParamSet, _, hopen, hnew⟩ := run_bind_eq_ok.mp hnew
  cases hnew
  have ⟨_, u, _, h⟩ := run_bind_eq_ok.mp h
  have ⟨_, _, hassign, h⟩ := run_bind_eq_ok.mp h
  cases h
  cases hassign
  refine ⟨n, keyBlobParamSet, runtimeParamSet, (run_ofExcept_eq_ok.mp hopen).1,
    (run_ofExcept_eq_ok.mp hruntime).1, fun m hm hid => ?_⟩
  have ⟨m', _, hm'⟩ := List.mem_map.mp hm
  subst hm'
  split
  case isTrue => exact ⟨rfl, rfl⟩
  case isFalse hne => exact absurd (by simp [hne] at hid) hne

theorem onKeyNode_ok {α : Type} {id : Nat} {x : NodeM α} {a : α}
    (h : (onKeyNode id x).run s = .ok a t) :
    ∃ keyNode ∈ s.keyNodes, keyNode.id = id ∧
      ∃ u, x.run ⟨keyNode, s.world, s.history⟩ = .ok a u := by
  change onKeyNode id x s = _ at h
  unfold onKeyNode at h
  split at h
  case h_1 => cases h
  case h_2 keyNode hfind =>
    have hid : keyNode.id = id := by simpa using List.find?_some hfind
    refine ⟨keyNode, List.mem_of_find?_eq_some hfind, hid, ?_⟩
    split at h
    case h_1 u hrun =>
      cases h
      exact ⟨u, hrun⟩
    case h_2 => cases h

-- An Init that returns has checked its params and compared its caller with the key's.
theorem hksCoreInit_ok {handleSize tokenSize : Nat} {r : UInt64 × Bytes}
    (h : (hksCoreInit env key paramSet handleSize tokenSize).run s = .ok r t) :
    coreInitPreCheck paramSet handleSize = .ok () ∧
    ∃ n keyBlobParamSet, env.getKeyBlobParamSet n key = .ok keyBlobParamSet ∧
      ∃ u v, (hksProcessIdentityVerify env keyBlobParamSet paramSet).run u = .ok ⟨⟩ v := by
  have ⟨_, _, _, h⟩ := run_bind_eq_ok.mp h
  have ⟨_, _, hpre, h⟩ := run_bind_eq_ok.mp h
  refine ⟨(run_ofExcept_eq_ok.mp hpre).1, ?_⟩
  have ⟨created, e, hcreate, h⟩ := run_bind_eq_ok.mp h
  split at h
  case h_1 => cases h
  case h_2 keyNode =>
    have ⟨n, keyBlobParamSet, _, hopen, _, hnodes⟩ := hksCreateKeyNode_ok (run_attempt_ok.mp hcreate)
    have ⟨ret, e', hinit, h⟩ := run_bind_eq_ok.mp h
    split at h
    case h_2 =>
      have ⟨_, _, _, h⟩ := run_bind_eq_ok.mp h
      cases h
    case h_1 token =>
      have ⟨m, hm, hid, v, hnode⟩ := onKeyNode_ok (run_attempt_ok.mp hinit)
      have ⟨_, v₁, htime, hnode⟩ := run_bind_eq_ok.mp hnode
      have ⟨_, v₂, hget, hnode⟩ := run_bind_eq_ok.mp hnode
      have ⟨_, v₃, hverify, _⟩ := run_bind_eq_ok.mp hnode
      cases hget
      have hsame := hksAddBatchTimeToKeyNode_same env (n := m) paramSet ⟨m, e.world, e.history⟩
        (.refl m)
      rw [htime, Result.final_ok] at hsame
      have ⟨w, hw, _⟩ := run_zoom_eq_ok.mp hverify
      have hblob := hsame.keyBlobParamSet.trans (hnodes m hm hid).1
      exact ⟨n, keyBlobParamSet, hopen, v₁.world, w, hblob ▸ hw⟩

end Init

end Huks
