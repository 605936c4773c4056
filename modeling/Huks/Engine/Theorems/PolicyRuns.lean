import Huks.Engine.Theorems.EngineRuns
import Huks.Engine.Theorems.OneStage
import Huks.Engine.Theorems.PolicyHandlers
import Huks.Lib.Triple

namespace Huks

open EStateM HksKeyPurpose

section Init

variable {env : EngineEnv} {keyBlobParamSet requested paramSet : HksParamSet}
  {pur algParam alg : UInt32}

-- An init handler that returns has checked the key.
theorem hksCoreInitHandler_authorised {st st' : RuntimeState}
    (d : Dispatched requested pur algParam alg)
    (hparam : getUInt32 paramSet HksTag.algorithm = .ok algParam)
    (hst : st.runtimeParamSet = requested)
    (h : (hksCoreInitHandler env paramSet pur alg keyBlobParamSet requested).run st = .ok () st') :
    Authorised keyBlobParamSet requested := by
  refine ⟨pur, algParam, d.purpose, d.algorithm, ?_⟩
  unfold hksCoreInitHandler at h
  split at h
  case isTrue hpur =>
    have ⟨_, h, _⟩ := run_zoom_eq_ok.mp h
    have ⟨_, _, hauth, _⟩ := run_bind_eq_ok.mp h
    exact .inr (signVerifyAuth_met hpur (run_ofExcept_eq_ok.mp hauth).1 d.algorithm)
  case isFalse =>
    split at h
    case isTrue hpur =>
      have ⟨_, _, hget, h⟩ := run_bind_eq_ok.mp h
      cases hget
      have ⟨_, _, hauth, _⟩ := run_bind_eq_ok.mp h
      rw [hst] at hauth
      exact .inr (cipherAuth_met hpur (run_ofExcept_eq_ok.mp hauth).1 hparam)
    case isFalse =>
      split at h
      case isTrue hpur => exact .inl hpur
      case isFalse =>
        split at h
        case isTrue hpur =>
          have ⟨_, h, _⟩ := run_zoom_eq_ok.mp h
          subst hpur
          exact .inr (agreeAuth_met (run_ofExcept_eq_ok.mp h).1)
        case isFalse =>
          split at h
          case isTrue hpur =>
            have ⟨_, h, _⟩ := run_zoom_eq_ok.mp h
            have ⟨_, _, hauth, _⟩ := run_bind_eq_ok.mp h
            subst hpur
            exact .inr (hmacAuth_met (run_ofExcept_eq_ok.mp hauth).1 d.algorithm)
          case isFalse => cases h

end Init

-- The node has its param sets, and later that the handlers may work with them.
def NodeState.Holds (keyBlobParamSet s : HksParamSet) (t : NodeState) : Prop :=
  t.node.keyBlobParamSet = some keyBlobParamSet ∧ t.node.runtimeParamSet = some s

def NodeState.Guarded (keyBlobParamSet requested : HksParamSet) (t : NodeState) : Prop :=
  ∃ s, t.Holds keyBlobParamSet s ∧ Serves requested s ∧ Authorised keyBlobParamSet s

theorem holds_fixed (keyBlobParamSet s : HksParamSet) :
    NodeFixed (NodeState.Holds keyBlobParamSet s) := fun _ _ _ _ _ h => h

theorem hksAddBatchTimeToKeyNode_holds (env : EngineEnv) (keyBlobParamSet s paramSet : HksParamSet) :
    Preserves (NodeState.Holds keyBlobParamSet s) (hksAddBatchTimeToKeyNode env paramSet) := by
  let P (n : HuksKeyNode) : Prop :=
    n.keyBlobParamSet = some keyBlobParamSet ∧ n.runtimeParamSet = some s
  have hP : TimeFree P := fun _ _ _ h => h
  exact hksAddBatchTimeToKeyNode_preserves env hP (holds_fixed keyBlobParamSet s).authFree paramSet

section Process

variable {env : EngineEnv} {hal' : Nat → HalCall → Except HksErrorCode Bytes}
  {keyBlobParamSet requested paramSet : HksParamSet} {pur algParam alg : UInt32}

theorem hksCoreInitProcess_withHal
    (h : env.AgreesOn hal' (HalCall.Permitted keyBlobParamSet requested)) (r : Readable requested)
    (d : Dispatched requested pur algParam alg)
    (hparam : getUInt32 paramSet HksTag.algorithm = .ok algParam) :
    SameRuns (NodeState.Holds keyBlobParamSet requested)
      (hksCoreInitProcess (env.withHal hal') paramSet pur alg)
      (hksCoreInitProcess env paramSet pur alg) := by
  refine .get_bind fun t ht => ?_
  have ⟨hblob, hruntime⟩ := ht
  simp only [hblob, hruntime]
  exact SameRuns.zoom (hksCoreInitHandler_withHal h r d hparam) (fun _ _ => rfl) t ht

theorem hksCoreInitProcess_guarded (r : Readable requested)
    (d : Dispatched requested pur algParam alg)
    (hparam : getUInt32 paramSet HksTag.algorithm = .ok algParam) :
    Triple (NodeState.Holds keyBlobParamSet requested) (hksCoreInitProcess env paramSet pur alg)
      (fun _ => NodeState.Guarded keyBlobParamSet requested) fun _ _ => True := by
  refine .get_bind fun _ => ?_
  rintro t ⟨rfl, hblob, hruntime⟩
  simp only [hblob, hruntime]
  split
  case h_2 => trivial
  case h_1 hzoom =>
    have ⟨st, hr, hs⟩ := run_zoom_eq_ok.mp hzoom
    have hserves := hksCoreInitHandler_runtime env (serves_nonceClosed requested) paramSet pur alg
      keyBlobParamSet requested ((NodeState.runtimeLens requested).get t) ⟨r, .refl _⟩
    rw [hr] at hserves
    subst hs
    have hauthorised := hksCoreInitHandler_authorised d hparam rfl hr
    exact ⟨st.runtimeParamSet, ⟨hblob, rfl⟩, hserves, hauthorised.congr hserves.same.routineTags⟩

theorem runtimePurposeAndAlgorithm_dispatched {t t' : NodeState}
    (hs : t.node.runtimeParamSet = some requested) (r : Readable requested)
    (h : runtimePurposeAndAlgorithm.run t = .ok (pur, alg) t') :
    t' = t ∧ ∃ algParam, Dispatched requested pur algParam alg := by
  have ⟨_, _, hget, h⟩ := run_bind_eq_ok.mp h
  cases hget
  rw [hs] at h
  have ⟨h, ht⟩ := run_ofExcept_eq_ok.mp h
  exact ⟨ht.symm, r.dispatched h⟩

theorem hksCoreUpdateProcess_withHal (r : Readable requested)
    (h : env.AgreesOn hal' (HalCall.Permitted keyBlobParamSet requested))
    (a : Authorised keyBlobParamSet requested) (inData : Bytes) (outSize : UInt32) :
    SameRuns (NodeState.Holds keyBlobParamSet requested)
      (hksCoreUpdateProcess (env.withHal hal') paramSet inData outSize)
      (hksCoreUpdateProcess env paramSet inData outSize) := by
  refine .bind_ok (.refl _) fun t dispatch t' ht hr => ?_
  have ⟨ht', algParam, d⟩ := runtimePurposeAndAlgorithm_dispatched ht.2 r hr
  subst ht'
  suffices SameRuns (NodeState.Holds keyBlobParamSet requested) _ _ from this t' ht
  have hfree := (holds_fixed keyBlobParamSet requested).authFree
  refine .ite (fun _ => .refl _) fun _ => ?_
  refine .bind (.refl _) (hksCoreAppendAuthInfoBeforeUpdate_authFree hfree _ _ _) fun inData => ?_
  refine .bind (.refl _) (recordExecuted_authFree hfree _ _ _) fun _ => .get_bind fun u hu => ?_
  simp only [hu.1, hu.2, hksCoreUpdateHandler_withHal h r d a]

theorem hksCoreFinishProcess_withHal
    (h : env.AgreesOn hal' (HalCall.Permitted keyBlobParamSet requested)) (isBatch : Bool)
    (inData : Bytes) (outSize : UInt32) :
    SameRuns (NodeState.Guarded keyBlobParamSet requested)
      (hksCoreFinishProcess (env.withHal hal') isBatch paramSet inData outSize)
      (hksCoreFinishProcess env isBatch paramSet inData outSize) := by
  refine .bind_ok (.refl _) ?_
  rintro t ⟨pur, alg⟩ t' ⟨s, hs, serves, a⟩ hr
  have ⟨ht', algParam, d⟩ := runtimePurposeAndAlgorithm_dispatched hs.2 serves.readable hr
  subst ht'
  suffices SameRuns (NodeState.Holds keyBlobParamSet s) _ _ from this t' hs
  have hfree := (holds_fixed keyBlobParamSet s).authFree
  have hnamed : getUInt32 requested HksTag.algorithm = .ok algParam :=
    (serves.same.routineTags _ (by decide)).symm.trans d.algorithm
  refine .ite (fun _ => .refl _) fun _ => ?_
  refine .bind (.refl _) (hksCoreAppendAuthInfoBeforeUpdate_authFree hfree _ _ _) fun inData => ?_
  refine .bind (.refl _) (recordExecuted_authFree hfree _ _ _) fun _ => ?_
  refine .bind_eq (.get_bind fun u hu => ?_) fun _ => rfl
  simp only [hu.1, hu.2, hksCoreFinishHandler_withHal h serves.readable d a hnamed]

theorem batchOperation_withHal
    (h : env.AgreesOn hal' (HalCall.Permitted keyBlobParamSet requested))
    (ht : hksCheckParamSetTag paramSet = .ok ())
    (hbuild : buildRuntimeParamSet (some paramSet) = .ok requested) (inData : Bytes)
    (outSize : UInt32) :
    SameRuns (NodeState.Holds keyBlobParamSet requested)
      (batchOperation (env.withHal hal') paramSet inData outSize)
      (batchOperation env paramSet inData outSize) := by
  refine .ofExcept_bind fun dispatch hdispatch => ?_
  have r := readable_of_build hbuild ht
  have ⟨algParam, d, hparam⟩ := dispatched_of_build hbuild ht hdispatch
  refine .bind_ok (hksCoreInitProcess_withHal h r d hparam) fun t u t' hs hr => ?_
  rw [hksCoreInitProcess_withHal h r d hparam t hs] at hr
  exact hksCoreFinishProcess_withHal h true inData outSize t'
    ((hksCoreInitProcess_guarded r d hparam).ok hs hr)

theorem hksBatchUpdate_withHal
    (h : ∀ requested, buildRuntimeParamSet (some paramSet) = .ok requested →
      env.AgreesOn hal' (HalCall.Permitted keyBlobParamSet requested))
    (ht : hksCheckParamSetTag paramSet = .ok ()) (inData : Bytes) (outSize : UInt32) :
    SameRuns (·.node.keyBlobParamSet = some keyBlobParamSet)
      (hksBatchUpdate (env.withHal hal') paramSet inData outSize)
      (hksBatchUpdate env paramSet inData outSize) := by
  have hfixed : NodeFixed (·.node.keyBlobParamSet = some keyBlobParamSet) := fun _ _ _ _ _ h => h
  refine .bind (.refl _) (resetAuth_authFree hfixed.authFree) fun _ => ?_
  refine .bind (.refl _) (hksCheckBatchUpdateTime_authFree hfixed.authFree _) fun _ => ?_
  refine .get_bind fun t hblob => ?_
  suffices SameRuns (· = t) _ _ from this t rfl
  refine .ofExcept_bind fun batchKeyNode hcreate => ?_
  have ⟨requested, hbuild, hnode⟩ := Except.bind_eq_ok.mp (Except.orError_eq_ok.mp hcreate)
  cases hnode
  refine .zoom (batchOperation_withHal (h requested hbuild) ht hbuild inData outSize) ?_
  rintro _ rfl
  exact ⟨hblob, rfl⟩

end Process

theorem hksBatchCheck_ok {n : HuksKeyNode} (h : hksBatchCheck n = .ok ()) :
    n.isBatchOperation = true := by
  cases hb : n.isBatchOperation
  case true => rfl
  case false => simp [hksBatchCheck, hb] at h

theorem hksBatchCheck_paramNotExist {n : HuksKeyNode} (h : hksBatchCheck n = .error .paramNotExist) :
    n.isBatchOperation = false := by
  cases hb : n.isBatchOperation
  case false => rfl
  case true =>
    dsimp only [hksBatchCheck] at h
    rw [if_neg (by simp [hb])] at h
    cases hpur : getUInt32Of n.runtimeParamSet HksTag.purpose <;>
      cases hbatch : getUInt32Of n.keyBlobParamSet HksTag.batchPurpose <;>
      simp [hpur, hbatch, Except.orError, Except.mapError, bind, Except.bind] at h
    split at h <;> cases h

-- A listed node: unless it is for a batch, its key was checked.
def HuksKeyNode.Checked (n : HuksKeyNode) : Prop :=
  ∃ keyBlobParamSet s, n.keyBlobParamSet = some keyBlobParamSet ∧ n.runtimeParamSet = some s ∧
    Readable s ∧ (n.isBatchOperation = false → Authorised keyBlobParamSet s)

theorem checked_fixed : NodeFixed (·.node.Checked) := fun _ _ _ _ _ h => h

-- The param set on whose behalf an update call works, which for a batch node is its own.
def HuksKeyNode.Requests (n : HuksKeyNode) (paramSet requested : HksParamSet) : Prop :=
  if n.isBatchOperation then
    buildRuntimeParamSet (some paramSet) = .ok requested
  else
    n.runtimeParamSet = some requested

section NodeCalls

variable {env : EngineEnv} {hal' : Nat → HalCall → Except HksErrorCode Bytes} {n : HuksKeyNode}
  {paramSet : HksParamSet}
  (hfree : env.AgreesOn hal' (·.usesKey = false))
include hfree

theorem updateKeyNode_withHal (hn : n.Checked) (ht : hksCheckParamSetTag paramSet = .ok ())
    (h : ∀ keyBlobParamSet requested, n.keyBlobParamSet = some keyBlobParamSet →
      n.Requests paramSet requested →
      env.AgreesOn hal' (HalCall.Permitted keyBlobParamSet requested))
    (inData : Bytes) (outSize : UInt32) :
    SameRuns (·.node = n) (updateKeyNode (env.withHal hal') paramSet inData outSize)
      (updateKeyNode env paramSet inData outSize) := by
  obtain ⟨keyBlobParamSet, s, hblob, hruntime, r, a⟩ := hn
  let P (t : NodeState) : Prop :=
    t.Holds keyBlobParamSet s ∧ t.node.isBatchOperation = n.isBatchOperation
  have hP : NodeFixed P := fun _ _ _ _ _ h => h
  have hstart (t : NodeState) (ht : t.node = n) : P t :=
    ⟨⟨ht ▸ hblob, ht ▸ hruntime⟩, congrArg HuksKeyNode.isBatchOperation ht⟩
  refine .mono ?_ hstart
  refine .bind (.refl _) .get fun _ => ?_
  refine .bind (.refl _) (hP.authFree.lift (checkIfNeedIsDevicePasswordSet_quiet _ _)) fun _ => ?_
  refine .bind (.of_eq (hksCoreSecureAccessVerifyParams_withHal hfree _))
    (hksCoreSecureAccessVerifyParams_authFree hP.authFree _ _) fun _ => .get_bind ?_
  rintro t ⟨hs, hb⟩
  split
  case h_1 hcheck =>
    have hbatch := hb ▸ hksBatchCheck_ok hcheck
    refine hksBatchUpdate_withHal (fun requested hbuild => ?_) ht inData outSize t hs.1
    exact h _ requested hblob ((if_pos hbatch).mpr hbuild)
  case h_2 hcheck =>
    have hbatch : n.isBatchOperation = false := hb ▸ hksBatchCheck_paramNotExist hcheck
    refine hksCoreUpdateProcess_withHal r (h _ s hblob ?_) (a hbatch) inData outSize t hs
    simpa [HuksKeyNode.Requests, hbatch] using hruntime
  case h_3 => rfl

theorem finishKeyNode_withHal (hn : n.Checked)
    (h : ∀ keyBlobParamSet requested, n.keyBlobParamSet = some keyBlobParamSet →
      n.runtimeParamSet = some requested →
      env.AgreesOn hal' (HalCall.Permitted keyBlobParamSet requested))
    (inData : Bytes) (outSize : UInt32) :
    SameRuns (·.node = n) (finishKeyNode (env.withHal hal') paramSet inData outSize)
      (finishKeyNode env paramSet inData outSize) := by
  obtain ⟨keyBlobParamSet, s, hblob, hruntime, r, a⟩ := hn
  let P (t : NodeState) : Prop :=
    t.Holds keyBlobParamSet s ∧ t.node.isBatchOperation = n.isBatchOperation
  have hP : NodeFixed P := fun _ _ _ _ _ h => h
  have hstart (t : NodeState) (ht : t.node = n) : P t :=
    ⟨⟨ht ▸ hblob, ht ▸ hruntime⟩, congrArg HuksKeyNode.isBatchOperation ht⟩
  refine .mono ?_ hstart
  refine .bind (.refl _) .get fun _ => ?_
  refine .bind (.refl _) (hP.authFree.lift (checkIfNeedIsDevicePasswordSet_quiet _ _)) fun _ => ?_
  refine .get_bind ?_
  rintro t ⟨hs, hb⟩
  split
  case h_1 => rfl
  case h_2 hcheck =>
    have hbatch : n.isBatchOperation = false := hb ▸ hksBatchCheck_paramNotExist hcheck
    suffices SameRuns P _ _ from this t ⟨hs, hb⟩
    refine .bind (.of_eq (hksCoreSecureAccessVerifyParams_withHal hfree _))
      (hksCoreSecureAccessVerifyParams_authFree hP.authFree _ _) fun _ => ?_
    refine .mono (hksCoreFinishProcess_withHal (h _ s hblob hruntime) false inData outSize) ?_
    exact fun _ hu => ⟨s, hu.1, ⟨r, .refl _⟩, a hbatch⟩
  case h_3 => rfl

theorem initKeyNode_withHal {keyBlobParamSet requested : HksParamSet}
    (h : env.AgreesOn hal' (HalCall.Permitted keyBlobParamSet requested))
    (ht : hksCheckParamSetTag paramSet = .ok ())
    (hbuild : buildRuntimeParamSet (some paramSet) = .ok requested) (tokenSize : Nat) :
    SameRuns (NodeState.Holds keyBlobParamSet requested)
      (initKeyNode (env.withHal hal') paramSet tokenSize) (initKeyNode env paramSet tokenSize) := by
  have hP := (holds_fixed keyBlobParamSet requested).authFree
  refine .bind (.refl _) (hksAddBatchTimeToKeyNode_holds _ _ _ _) fun _ => ?_
  refine .bind (.refl _) .get fun _ => ?_
  refine .bind (.refl _) (hP.lift (hksProcessIdentityVerify_quiet _ _ _)) fun _ => ?_
  refine .ofExcept_bind fun dispatch hdispatch => ?_
  refine .bind (.of_eq (hksCoreSecureAccessInitParams_withHal hfree _ _))
    (hksCoreSecureAccessInitParams_authFree hP _ _ _) fun token => .get_bind fun t hs => ?_
  split
  case h_1 => rfl
  case h_2 =>
    have ⟨algParam, d, hparam⟩ := dispatched_of_build hbuild ht hdispatch
    suffices SameRuns (NodeState.Holds keyBlobParamSet requested) _ _ from this t hs
    refine .bind_eq ?_ fun _ => rfl
    exact hksCoreInitProcess_withHal h (readable_of_build hbuild ht) d hparam
  case h_3 => rfl

end NodeCalls

-- What an init call leaves of its node: what it is for a batch, or what the init handler leaves.
theorem initKeyNode_triple {env : EngineEnv} {paramSet : HksParamSet} {P Q : NodeState → Prop}
    (hP : AuthFree P) (htime : Preserves P (hksAddBatchTimeToKeyNode env paramSet))
    (hbatch : ∀ t, P t → t.node.isBatchOperation = true → Q t)
    (hinit : ∀ pur alg, getPurposeAndAlgorithm paramSet = .ok (pur, alg) →
      Triple P (hksCoreInitProcess env paramSet pur alg) (fun _ => Q) fun _ _ => True)
    (tokenSize : Nat) :
    Triple P (initKeyNode env paramSet tokenSize) (fun _ => Q) fun _ _ => True := by
  refine .bind htime.triple fun _ => .bind (Preserves.get).triple fun _ => ?_
  refine .bind (hP.lift (hksProcessIdentityVerify_quiet _ _ _)).triple fun _ => ?_
  refine .ofExcept_bind (fun dispatch hdispatch => ?_) fun _ _ _ _ => trivial
  refine .bind (hksCoreSecureAccessInitParams_authFree hP _ _ _).triple fun token => ?_
  refine .get_bind fun t => ?_
  split
  case h_1 hcheck =>
    refine .pure ?_
    rintro _ ⟨rfl, hs⟩
    exact hbatch _ hs (hksBatchCheck_ok hcheck)
  case h_2 =>
    refine .bind ((hinit _ _ hdispatch).strengthen_pre fun _ h => h.2) fun _ => ?_
    exact .pure fun _ h => h
  case h_3 => exact .throw fun _ _ => trivial

theorem initKeyNode_checked {env : EngineEnv} {keyBlobParamSet requested paramSet : HksParamSet}
    (ht : hksCheckParamSetTag paramSet = .ok ())
    (hbuild : buildRuntimeParamSet (some paramSet) = .ok requested) (tokenSize : Nat) :
    Triple (NodeState.Holds keyBlobParamSet requested) (initKeyNode env paramSet tokenSize)
      (fun _ t => t.node.Checked) fun _ _ => True := by
  have r := readable_of_build hbuild ht
  refine initKeyNode_triple (holds_fixed keyBlobParamSet requested).authFree
    (hksAddBatchTimeToKeyNode_holds _ _ _ _) (fun t hs hb => ?_) (fun pur alg hdispatch => ?_) _
  · exact ⟨_, _, hs.1, hs.2, r, fun hb' => by simp [hb] at hb'⟩
  · have ⟨algParam, d, hparam⟩ := dispatched_of_build hbuild ht hdispatch
    refine (hksCoreInitProcess_guarded r d hparam).weaken_post fun _ t ⟨s, hs, serves, a⟩ => ?_
    exact ⟨_, s, hs.1, hs.2, serves.readable, fun _ => a⟩

-- The state of the table: every listed node was checked.
def Engine.Checked (s : Engine) : Prop := ∀ n ∈ s.keyNodes, n.Checked

section Table

variable {env : EngineEnv} {s : Engine}

theorem onKeyNode_congr {α : Type} {id : Nat} {x y : NodeM α}
    (h : ∀ n, s.keyNodes.find? (·.id = id) = some n →
      x.run ⟨n, s.world, s.history⟩ = y.run ⟨n, s.world, s.history⟩) :
    (onKeyNode id x).run s = (onKeyNode id y).run s := by
  simp only [onKeyNode, EStateM.run] at h ⊢
  cases hf : s.keyNodes.find? (·.id = id)
  case none => rfl
  case some n => simp only [h n hf]

theorem EngineCall.step_checked (wf : s.WF) (hs : s.Checked) (c : EngineCall) :
    (c.step env s).Checked := by
  refine c.step_forall wf hs (fun paramSet tokenSize new ht hbuild _ => ?_) fun _ _ _ _ => ?_
  · have holds (t : NodeState) (h : t.node = new.listed) :
        NodeState.Holds new.keyBlobParamSet new.runtimeParamSet t :=
      ⟨congrArg HuksKeyNode.keyBlobParamSet h, congrArg HuksKeyNode.runtimeParamSet h⟩
    exact (initKeyNode_checked ht hbuild tokenSize).strengthen_pre holds
  · exact (updateKeyNode_fixed checked_fixed env _ _ _).triple

theorem Engine.run_checked (wf : s.WF) (hs : s.Checked) (calls : List EngineCall) :
    (s.run env calls).Checked := by
  induction calls generalizing s
  case nil => exact hs
  case cons c calls ih => exact ih (c.step_wf wf) (c.step_checked wf hs)

end Table

namespace EngineCall

-- The node that a call works on: the one it creates, or the one it finds.
def node (env : EngineEnv) (s : Engine) : EngineCall → Option HuksKeyNode
  | init key paramSet _ _ =>
    match (hksCreateKeyNode env key paramSet).run s.called with
    | .ok keyNode s' => s'.keyNodes.find? (·.id = keyNode.id)
    | .error _ _     => none
  | update handle paramSet _ _ | finish handle paramSet _ _ | abort handle paramSet =>
    s.found env handle paramSet

def Requests (n : HuksKeyNode) (requested : HksParamSet) : EngineCall → Prop
  | update _ paramSet _ _ => n.Requests paramSet requested
  | _                     => n.runtimeParamSet = some requested

-- The key that a call works with, and the param set on whose behalf.
def WorksFor (env : EngineEnv) (s : Engine) (c : EngineCall)
    (keyBlobParamSet requested : HksParamSet) : Prop :=
  ∃ n, c.node env s = some n ∧ n.keyBlobParamSet = some keyBlobParamSet ∧ c.Requests n requested

end EngineCall

section Calls

variable {env : EngineEnv} {hal' : Nat → HalCall → Except HksErrorCode Bytes} {s : Engine}

theorem getParamsForUpdateAndFinish_ok {handle : Bytes} {paramSet : HksParamSet}
    {keyNode : HuksKeyNode} {t : Engine} (ht : hksCheckParamSetTag paramSet = .ok ())
    (h : (getParamsForUpdateAndFinish env handle).run s.called = .ok keyNode t) :
    s.found env handle paramSet = some keyNode ∧ t = s.opened := by
  cases hf : s.found env handle paramSet
  case none =>
    have ⟨e, s', hrun, _⟩ := getParamsForUpdateAndFinish_notFound ht hf
    rw [hrun] at h
    cases h
  case some n =>
    rw [getParamsForUpdateAndFinish_run hf] at h
    cases h
    exact ⟨rfl, rfl⟩

-- What is the same on the node that a call found is the same on the table.
theorem onKeyNode_found (wf : s.WF) {handle : Bytes} {paramSet : HksParamSet}
    {keyNode : HuksKeyNode} (hf : s.found env handle paramSet = some keyNode) {α : Type}
    {x y : NodeM α} (h : SameRuns (·.node = keyNode) x y) :
    SameRuns (· = s.opened) (EStateM.attempt (onKeyNode keyNode.id x))
      (EStateM.attempt (onKeyNode keyNode.id y)) := by
  refine .attempt ?_
  rintro _ rfl
  have ⟨l₁, l₂, hl, _⟩ := Engine.exists_of_found hf
  refine onKeyNode_congr fun n hn => h _ ?_
  rw [wf.opened.find?_id hl] at hn
  exact (Option.some.inj hn).symm

theorem checked_of_found (hs : s.Checked) {handle : Bytes} {paramSet : HksParamSet}
    {keyNode : HuksKeyNode} (hf : s.found env handle paramSet = some keyNode) : keyNode.Checked := by
  have ⟨_, _, hfind⟩ := Engine.found_eq_some hf
  exact hs keyNode (List.mem_of_find?_eq_some hfind)

theorem beginCall_bind {α : Type} {f g : PUnit → EngineM α}
    (h : SameRuns (· = s.called) (f ⟨⟩) (g ⟨⟩)) :
    SameRuns (· = s) (beginCall >>= f) (beginCall >>= g) := by
  rintro _ rfl
  exact h _ rfl

variable (wf : s.WF) (hs : s.Checked) (hfree : env.AgreesOn hal' (·.usesKey = false))
include wf hs hfree

theorem hksCoreUpdate_withHal {handle : Bytes} {paramSet : HksParamSet} {inData : Bytes}
    {outSize : UInt32}
    (h : ∀ keyBlobParamSet requested,
      (EngineCall.update handle paramSet inData outSize).WorksFor env s keyBlobParamSet requested →
      env.AgreesOn hal' (HalCall.Permitted keyBlobParamSet requested)) :
    SameRuns (· = s) (hksCoreUpdate (env.withHal hal') handle paramSet inData outSize)
      (hksCoreUpdate env handle paramSet inData outSize) := by
  refine beginCall_bind <| .ofExcept_bind fun _ ht => .bind_ok (.refl _) ?_
  rintro _ keyNode t rfl hget
  have ⟨hf, ht'⟩ := getParamsForUpdateAndFinish_ok ht hget
  have hsame := updateKeyNode_withHal hfree (checked_of_found hs hf) ht
    (fun _ _ hblob hrequests => h _ _ ⟨keyNode, hf, hblob, hrequests⟩) inData outSize
  exact SameRuns.bind_eq (onKeyNode_found wf hf hsame) (fun _ => rfl) t ht'

theorem hksCoreFinish_withHal {handle : Bytes} {paramSet : HksParamSet} {inData : Bytes}
    {outSize : UInt32}
    (h : ∀ keyBlobParamSet requested,
      (EngineCall.finish handle paramSet inData outSize).WorksFor env s keyBlobParamSet requested →
      env.AgreesOn hal' (HalCall.Permitted keyBlobParamSet requested)) :
    SameRuns (· = s) (hksCoreFinish (env.withHal hal') handle paramSet inData outSize)
      (hksCoreFinish env handle paramSet inData outSize) := by
  refine beginCall_bind <| .ofExcept_bind fun _ ht => .bind_ok (.refl _) ?_
  rintro _ keyNode t rfl hget
  have ⟨hf, ht'⟩ := getParamsForUpdateAndFinish_ok (Except.orError_eq_ok.mp ht) hget
  have hsame : SameRuns (·.node = keyNode)
      (finishKeyNode (env.withHal hal') paramSet inData outSize)
      (finishKeyNode env paramSet inData outSize) :=
    finishKeyNode_withHal hfree (checked_of_found hs hf)
      (fun _ _ hblob hruntime => h _ _ ⟨keyNode, hf, hblob, hruntime⟩) inData outSize
  exact SameRuns.bind_eq (onKeyNode_found wf hf hsame) (fun _ => rfl) t ht'

omit hs in
theorem hksCoreInit_withHal {key : Bytes} {paramSet : HksParamSet} {handleSize tokenSize : Nat}
    (h : ∀ keyBlobParamSet requested,
      (EngineCall.init key paramSet handleSize tokenSize).WorksFor env s keyBlobParamSet requested →
      env.AgreesOn hal' (HalCall.Permitted keyBlobParamSet requested)) :
    SameRuns (· = s) (hksCoreInit (env.withHal hal') key paramSet handleSize tokenSize)
      (hksCoreInit env key paramSet handleSize tokenSize) := by
  refine beginCall_bind <| .ofExcept_bind fun _ hpre => ?_
  rw [hksCreateKeyNode_withHal hfree]
  refine .bind_ok (.refl _) ?_
  rintro _ created t rfl hcreate
  cases created
  case error => rfl
  case ok keyNode =>
    have hcreate := run_attempt_ok.mp hcreate
    suffices SameRuns (· = t) _ _ from this t rfl
    refine .bind_eq (.attempt ?_) fun _ => rfl
    rintro _ rfl
    refine onKeyNode_congr fun n hn => ?_
    rcases hksCreateKeyNode_run env key paramSet wf.called with
      ⟨new, s₁, hrun, created⟩ | ⟨_, _, hrun, _⟩ <;> rw [hrun] at hcreate <;> cases hcreate
    have ⟨l₁, _, hl, _⟩ := created.insert.evicts
    have hlisted := created.linked.find?_id hl
    cases hn.symm.trans hlisted
    refine initKeyNode_withHal hfree (h _ new.runtimeParamSet ⟨new.listed, ?_, rfl, rfl⟩)
      (coreInitPreCheck_ok hpre).2 created.build tokenSize _ ⟨rfl, rfl⟩
    simp only [EngineCall.node, hrun]
    exact hlisted

end Calls

-- In every state that a run of calls reaches, the next call asks the crypto library nothing with a
-- key but what the key permits: a library that answers that and all questions without a key as the
-- one of `env` does is as good.
theorem threeStage_permitted (env : EngineEnv) (calls : List EngineCall) (c : EngineCall)
    (hal' : Nat → HalCall → Except HksErrorCode Bytes)
    (h : ∀ call : HalCall, (call.usesKey → ∃ keyBlobParamSet requested,
        c.WorksFor env (Engine.run env {} calls) keyBlobParamSet requested ∧
          call.Permitted keyBlobParamSet requested) →
      ∀ n, hal' n call = env.hal n call) :
    (c.exec (env.withHal hal')).run (Engine.run env {} calls) =
      (c.exec env).run (Engine.run env {} calls) := by
  have wf : (Engine.run env {} calls).WF := Engine.run_wf .init calls
  have hs : (Engine.run env {} calls).Checked :=
    Engine.run_checked .init (fun n hn => absurd hn List.not_mem_nil) calls
  have hfree : env.AgreesOn hal' (·.usesKey = false) := fun n call hcall =>
    h call (fun huses => absurd huses (by simp [hcall])) n
  have hpermitted (keyBlobParamSet requested : HksParamSet)
      (hw : c.WorksFor env (Engine.run env {} calls) keyBlobParamSet requested) :
      env.AgreesOn hal' (HalCall.Permitted keyBlobParamSet requested) := fun n call hcall =>
    h call (fun _ => ⟨keyBlobParamSet, requested, hw, hcall⟩) n
  cases c
  case init =>
    have hsame := hksCoreInit_withHal wf hfree hpermitted _ rfl
    simp only [EngineCall.exec, run_discard, hsame]
  case update =>
    have hsame := hksCoreUpdate_withHal wf hs hfree hpermitted _ rfl
    simp only [EngineCall.exec, run_discard, hsame]
  case finish =>
    have hsame := hksCoreFinish_withHal wf hs hfree hpermitted _ rfl
    simp only [EngineCall.exec, run_discard, hsame]
  case abort => rfl

-- The routine is one for the key's own algorithm.
def HalCall.OwnRoutine (keyBlobParamSet : HksParamSet) : HalCall → Prop
  | sign _ usageSpec _ | signIsoIec97962 _ usageSpec _ | verify _ usageSpec _ _
  | verifyIsoIec97962 _ usageSpec _ _ | encryptInit _ usageSpec | decryptInit _ usageSpec
  | encrypt _ usageSpec _ | decrypt _ usageSpec _ _ =>
    getUInt32 keyBlobParamSet HksTag.algorithm = .ok usageSpec.algType
  | encryptUpdate _ alg | encryptFinal _ alg | decryptUpdate _ alg | decryptFinal _ _ alg =>
    getUInt32 keyBlobParamSet HksTag.algorithm = .ok alg
  | hmacInit _ _ =>
    getUInt32 keyBlobParamSet HksTag.algorithm = .ok HksKeyAlg.hmac ∨
      getUInt32 keyBlobParamSet HksTag.algorithm = .ok HksKeyAlg.sm3
  | cmacInit _ _ =>
    getUInt32 keyBlobParamSet HksTag.algorithm = .ok HksKeyAlg.tripleDes ∨
      getUInt32 keyBlobParamSet HksTag.algorithm = .ok HksKeyAlg.cmac
  | _ => True

section Runs

def openedEcc : List EngineCall := [.init [1] eccParamSet 8 64]

def finishEcc : EngineCall := .finish (.replicate 8 0) eccParamSet [7] 72

def initHmac : EngineCall := .init [1] hmacParamSet 8 64

-- Libraries that do not agree on a secret, and that do not start an HMAC.
def withoutAgree (n : Nat) (call : HalCall) : Except HksErrorCode Bytes :=
  match call with
  | .agreeKey _ _ _ _ => .error .badState
  | call              => (steadyEnv eccSignKey).hal n call

def withoutHmac (n : Nat) (call : HalCall) : Except HksErrorCode Bytes :=
  match call with
  | .hmacInit _ _ => .error .badState
  | call          => (steadyEnv aesMacKey).hal n call

theorem worksFor_key {env : EngineEnv} {s : Engine} {c : EngineCall} {key keyBlobParamSet requested}
    (hnode : (c.node env s).map HuksKeyNode.keyBlobParamSet = some (some key))
    (h : c.WorksFor env s keyBlobParamSet requested) : keyBlobParamSet = key := by
  have ⟨n, hn, hblob, _⟩ := h
  rw [hn, Option.map_some, hblob] at hnode
  exact Option.some.inj (Option.some.inj hnode)

end Runs

theorem threeStage_permitted_sign :
    (finishEcc.exec ((steadyEnv eccSignKey).withHal withoutAgree)).run
        (Engine.run (steadyEnv eccSignKey) {} openedEcc) =
      (finishEcc.exec (steadyEnv eccSignKey)).run
        (Engine.run (steadyEnv eccSignKey) {} openedEcc) := by
  refine threeStage_permitted (steadyEnv eccSignKey) openedEcc finishEcc withoutAgree ?_
  intro call h n
  unfold withoutAgree
  split
  case h_1 =>
    have ⟨_, _, hw, hpermitted⟩ := h rfl
    have hkey := worksFor_key (by decide +kernel : _ = some (some eccSignKey)) hw
    have ⟨authorised, hauthorised, hsub⟩ := hpermitted.purpose
    have hpurpose : getUInt32 eccSignKey HksTag.purpose = .ok sign := by decide +kernel
    rw [hkey, hpurpose] at hauthorised
    cases hauthorised
    exact absurd hsub (by decide)
  case h_2 => rfl

-- An AES key that was generated for a MAC opens an HMAC, as the caller asks for it.
theorem threeStage_not_ownRoutine :
    ¬∀ (env : EngineEnv) (calls : List EngineCall) (c : EngineCall)
      (hal' : Nat → HalCall → Except HksErrorCode Bytes),
      (∀ call : HalCall, (call.usesKey → ∃ keyBlobParamSet requested,
          c.WorksFor env (Engine.run env {} calls) keyBlobParamSet requested ∧
            call.OwnRoutine keyBlobParamSet) →
        ∀ n, hal' n call = env.hal n call) →
      (c.exec (env.withHal hal')).run (Engine.run env {} calls) =
        (c.exec env).run (Engine.run env {} calls) := by
  intro hclaim
  have hsame := hclaim (steadyEnv aesMacKey) [] initHmac withoutHmac ?_
  case refine_1 =>
    intro call h n
    unfold withoutHmac
    split
    case h_1 =>
      have ⟨_, _, hw, hown⟩ := h rfl
      have hkey := worksFor_key (by decide +kernel : _ = some (some aesMacKey)) hw
      have halg : getUInt32 aesMacKey HksTag.algorithm = .ok HksKeyAlg.aes := by decide
      simp only [HalCall.OwnRoutine, hkey, halg] at hown
      rcases hown with hown | hown <;> exact absurd (Except.ok.inj hown) (by decide)
    case h_2 => rfl
  have hsame := congrArg (·.toExcept.toBool) hsame
  revert hsame
  decide +kernel

end Huks
