import Huks.Engine.Calls
import Huks.Engine.CheckParamSet
import Huks.Engine.Theorems.KeyNodeTable
import Huks.Engine.Theorems.NodeFrame
import Huks.Engine.Theorems.RuntimeParamSet
import Huks.Lib.Triple

namespace Huks

open Engine EStateM QuotaTable

-- What a call leaves of its node.
structure SameNode (n m : HuksKeyNode) : Prop where
  id              : m.id = n.id
  handle          : m.handle = n.handle
  keyBlobParamSet : m.keyBlobParamSet = n.keyBlobParamSet
  runtimeParamSet : Option.Rel SameScalars n.runtimeParamSet m.runtimeParamSet

abbrev NodeState.Same (n : HuksKeyNode) (s : NodeState) : Prop := SameNode n s.node

theorem SameNode.refl (n : HuksKeyNode) : SameNode n n where
  id              := rfl
  handle          := rfl
  keyBlobParamSet := rfl
  runtimeParamSet := by
    generalize n.runtimeParamSet = r
    cases r
    case none => exact .none
    case some s => exact .some (.refl s)

theorem SameNode.tokenId {n m : HuksKeyNode} (h : SameNode n m) : m.tokenId = n.tokenId := by
  have h := h.runtimeParamSet
  unfold HuksKeyNode.tokenId
  generalize n.runtimeParamSet = r, m.runtimeParamSet = r' at h ⊢
  cases h
  case none => rfl
  case some h => exact h.tokenId

theorem SameNode.setTime {n m : HuksKeyNode} (h : SameNode n m) (b : Bool) (time : UInt64) :
    SameNode n { m with isBatchOperation := b, batchOperationTimestamp := time } :=
  ⟨h.id, h.handle, h.keyBlobParamSet, h.runtimeParamSet⟩

theorem same_fixed (n : HuksKeyNode) : NodeFixed (NodeState.Same n) :=
  fun _ _ _ _ _ h => ⟨h.id, h.handle, h.keyBlobParamSet, h.runtimeParamSet⟩

section Init

variable (env : EngineEnv) {n : HuksKeyNode}

-- What holds of a node whatever its times are.
def TimeFree (P : HuksKeyNode → Prop) : Prop := ∀ m b time, P m →
  P { m with isBatchOperation := b, batchOperationTimestamp := time }

theorem addBatchTimeToKeyNode_preserves {P : HuksKeyNode → Prop} (hP : TimeFree P)
    {curTime : UInt64} {ps : List HksParam} :
    ∀ {m m' : HuksKeyNode} {findOperation findTimeout : Bool}, P m →
      addBatchTimeToKeyNode curTime m findOperation findTimeout ps = .ok m' → P m' := by
  have done {m m' : HuksKeyNode} {findOperation findTimeout : Bool} (h : P m)
      (hd : addBatchTimeToKeyNode.done m findOperation findTimeout = .ok m') : P m' := by
    unfold addBatchTimeToKeyNode.done at hd
    split_ifs at hd <;> cases hd
    · exact h
    · exact hP _ _ _ h
  induction ps
  case nil =>
    intro m m' _ _ h hr
    exact done h hr
  case cons p ps ih =>
    intro m m' _ _ h hr
    unfold addBatchTimeToKeyNode at hr
    split_ifs at hr
    · exact ih (hP _ _ _ h) hr
    · exact ih (hP _ _ _ h) hr
    · exact done h hr
    · exact ih h hr

theorem hksAddBatchTimeToKeyNode_preserves {P : HuksKeyNode → Prop} (hP : TimeFree P)
    (hA : AuthFree fun s => P s.node) (paramSet : HksParamSet) :
    Preserves (fun s => P s.node) (hksAddBatchTimeToKeyNode env paramSet) := by
  refine .bind (hA.lift (.hksElapsedRealTime env)) fun _ => ?_
  refine .get_bind fun s h => ?_
  suffices Preserves (fun s : NodeState => P s.node) _ from this s h
  refine .ofExcept_bind fun m hm => .modify fun _ _ => ?_
  exact addBatchTimeToKeyNode_preserves hP (hP _ _ _ h) hm

theorem hksAddBatchTimeToKeyNode_same (paramSet : HksParamSet) :
    Preserves (NodeState.Same n) (hksAddBatchTimeToKeyNode env paramSet) :=
  hksAddBatchTimeToKeyNode_preserves env (fun _ b time h => h.setTime b time)
    (same_fixed n).authFree paramSet

theorem hksCoreInitHandler_runtime {P : HksParamSet → Prop} (hP : NonceClosed P)
    (paramSet : HksParamSet) (pur alg : UInt32) (keyBlobParamSet runtimeParamSet : HksParamSet) :
    Preserves (RuntimeState.Has P)
      (hksCoreInitHandler env paramSet pur alg keyBlobParamSet runtimeParamSet) := by
  unfold hksCoreInitHandler
  split_ifs
  · exact liftCtx_runtime _
  · exact hksCoreCryptoThreeStageInit_runtime hP env _ _
  · exact liftCtx_runtime _
  · exact liftCtx_runtime _
  · exact liftCtx_runtime _
  · exact .throw _

theorem hksCoreInitProcess_same (paramSet : HksParamSet) (pur alg : UInt32) :
    Preserves (NodeState.Same n) (hksCoreInitProcess env paramSet pur alg) := by
  refine .get_bind fun s h => ?_
  dsimp only
  split
  case h_2 => exact h
  case h_1 keyBlobParamSet runtimeParamSet _ hr =>
    have hs := h.runtimeParamSet
    rw [hr] at hs
    generalize hn : n.runtimeParamSet = r at hs
    cases hs
    case some r hs =>
      suffices Preserves (NodeState.Same n) _ from this s h
      refine .zoom (hksCoreInitHandler_runtime env (sameScalars_nonceClosed r) _ _ _ _ _)
        (fun _ _ => hs) ?_
      intro t u ht hu
      exact ⟨ht.id, ht.handle, ht.keyBlobParamSet, hn ▸ .some hu⟩

theorem initKeyNode_same (paramSet : HksParamSet) (tokenSize : Nat) :
    Preserves (NodeState.Same n) (initKeyNode env paramSet tokenSize) := by
  have hP := (same_fixed n).authFree
  refine .bind (hksAddBatchTimeToKeyNode_same env paramSet) fun _ => .bind .get fun _ => ?_
  refine .bind (hP.lift (hksProcessIdentityVerify_quiet env _ _)) fun _ => ?_
  refine .bind (.ofExcept _) fun _ => ?_
  refine .bind (hksCoreSecureAccessInitParams_authFree hP env _ _) fun _ => .bind .get fun _ => ?_
  split
  case h_1 => exact .pure _
  case h_2 => exact .bind (hksCoreInitProcess_same env _ _ _) fun _ => .pure _
  case h_3 => exact .throw _

end Init

namespace Engine

-- The node `t.node` is back between its neighbours, or taken out from between them.
def put (s : Engine) (l₁ l₂ : List HuksKeyNode) (t : NodeState) : Engine := { s with
  keyNodes := l₁ ++ t.node :: l₂
  world := t.world
  history := t.history }

def drop (s : Engine) (l₁ l₂ : List HuksKeyNode) (t : NodeState) : Engine := { s with
  keyNodes := l₁ ++ l₂
  keyNodeCount := s.keyNodeCount - 1
  world := freeNodeParamSets t.node t.world
  history := t.history }

end Engine

-- The nodes before and behind a listed one are others.
theorem Engine.Linked.ne {s : Engine} {n : HuksKeyNode} {l₁ l₂ : List HuksKeyNode} (hl : s.Linked)
    (hs : s.keyNodes = l₁ ++ n :: l₂) : (∀ m ∈ l₁, m.id ≠ n.id) ∧ ∀ m ∈ l₂, m.id ≠ n.id := by
  have hnodup := hl.nodup
  rw [hs, List.map_append, List.map_cons, List.nodup_append, List.nodup_cons] at hnodup
  refine ⟨fun m hm => ?_, fun m hm he => ?_⟩
  · exact hnodup.2.2 _ (List.mem_map_of_mem hm) _ (by simp)
  · exact hnodup.2.1.1 (he ▸ List.mem_map_of_mem hm)

theorem Engine.Linked.find?_id {s : Engine} {n : HuksKeyNode} {l₁ l₂ : List HuksKeyNode}
    (hl : s.Linked) (hs : s.keyNodes = l₁ ++ n :: l₂) :
    s.keyNodes.find? (·.id = n.id) = some n := by
  rw [hs, List.find?_append, List.find?_eq_none.mpr (by simpa using (hl.ne hs).1)]
  simp

-- A call on a listed node leaves the others as they are.
section OnKeyNode

variable {α : Type} {s : Engine} {n m : HuksKeyNode} {l₁ l₂ : List HuksKeyNode}

theorem onKeyNode_run (hl : s.Linked) (hs : s.keyNodes = l₁ ++ n :: l₂) (x : NodeM α) :
    (attempt (onKeyNode n.id x)).run s =
      .ok (x.run ⟨n, s.world, s.history⟩).toExcept
        (s.put l₁ l₂ (x.run ⟨n, s.world, s.history⟩).final) := by
  have ⟨h₁, h₂⟩ := hl.ne hs
  have hfind := hl.find?_id hs
  have hstore (t : NodeState) : onKeyNode.store n.id s t = s.put l₁ l₂ t := by
    have hid (l : List HuksKeyNode) (h : ∀ m ∈ l, m.id ≠ n.id) :
        l.map (fun m => if m.id = n.id then t.node else m) = l :=
      (List.map_congr_left fun m hm => if_neg (h m hm)).trans (List.map_id' l)
    simp only [onKeyNode.store, put, hs, List.map_append, List.map_cons, hid l₁ h₁, hid l₂ h₂,
      if_pos]
  rw [run_attempt]
  simp only [onKeyNode, EStateM.run, hfind]
  cases x ⟨n, s.world, s.history⟩ <;> simp only [Result.toExcept, Result.final, hstore]

theorem hksDeleteKeyNode_run (hl : s.Linked) (hs : s.keyNodes = l₁ ++ n :: l₂)
    (hfirst : ∀ m ∈ l₁, m.handle ≠ n.handle) :
    (hksDeleteKeyNode n.handle).run s = .ok () { s with
      keyNodes := l₁ ++ l₂
      keyNodeCount := s.keyNodeCount - 1
      world := freeNodeParamSets n s.world } := by
  have hfind : s.keyNodes.find? (·.handle = n.handle) = some n := by
    rw [hs, List.find?_append, List.find?_eq_none.mpr (by simpa using hfirst)]
    simp
  have herase : s.keyNodes.eraseP (·.id = n.id) = l₁ ++ l₂ := by
    rw [hs]
    exact eraseP_addr (hs ▸ hl.nodup)
  simp only [hksDeleteKeyNode, run_bind, run_get, hfind, deleteKeyNodeFree, run_modify, herase]

theorem hksDeleteKeyNode_put (hl : s.Linked) (hs : s.keyNodes = l₁ ++ n :: l₂)
    (hfirst : ∀ m ∈ l₁, m.handle ≠ n.handle) {t : NodeState} (ht : SameNode n t.node) :
    (hksDeleteKeyNode n.handle).run (s.put l₁ l₂ t) = .ok () (s.drop l₁ l₂ t) := by
  have hput : (s.put l₁ l₂ t).Linked := hl.of_map (by rw [hs]; simp [ht.id]) _ _
  rw [← ht.handle]
  exact hksDeleteKeyNode_run hput rfl (ht.handle ▸ hfirst)

end OnKeyNode

namespace Engine

-- The state after `beginCall`, and the one in which a call works on the node that it found.
def called (s : Engine) : Engine := { s with
  history := { s.history with call := s.history.call + 1 } }

def opened (s : Engine) : Engine := { s.called with
  world := { s.world with tick := s.world.tick + 1 } }

def sessionId (env : EngineEnv) (s : Engine) (handle : Bytes) : UInt64 :=
  le64 ((handle ++ env.uninitialized s.world.tick).take 8)

-- The node that an update, finish or abort call finds.
def found (env : EngineEnv) (s : Engine) (handle : Bytes) (paramSet : HksParamSet) :
    Option HuksKeyNode :=
  if hksCheckParamSetTag paramSet = .ok () ∧ handle.length ≤ 8 then
    s.keyNodes.find? (·.handle = s.sessionId env handle)
  else
    none

variable {env : EngineEnv} {s : Engine} {handle : Bytes} {paramSet : HksParamSet}
  {keyNode : HuksKeyNode}

theorem Linked.opened (h : s.Linked) : s.opened.Linked := h.of_map rfl _ _

theorem found_eq_some (h : s.found env handle paramSet = some keyNode) :
    hksCheckParamSetTag paramSet = .ok () ∧ handle.length ≤ 8 ∧
      s.keyNodes.find? (·.handle = s.sessionId env handle) = some keyNode := by
  unfold found at h
  split_ifs at h with hc
  exact ⟨hc.left, hc.right, h⟩

theorem exists_of_found (h : s.found env handle paramSet = some keyNode) :
    ∃ l₁ l₂, s.keyNodes = l₁ ++ keyNode :: l₂ ∧ ∀ m ∈ l₁, m.handle ≠ keyNode.handle := by
  have ⟨_, _, hfind⟩ := found_eq_some h
  have ⟨l₁, l₂, hs, hn, hl₁⟩ := exists_of_find? hfind
  simp only [decide_eq_true_eq] at hn hl₁
  exact ⟨l₁, l₂, hs, by rwa [hn]⟩

end Engine

section Calls

variable {env : EngineEnv} {s : Engine} {handle : Bytes} {paramSet : HksParamSet}
  {keyNode : HuksKeyNode} {l₁ l₂ : List HuksKeyNode}

theorem sessionIdOf_run (h : handle.length ≤ 8) :
    (sessionIdOf env handle).run s.called = .ok (s.sessionId env handle) s.opened := by
  simp only [sessionIdOf, if_neg (Nat.not_lt.mpr h)]
  rfl

theorem hksQueryKeyNode_run (hf : s.found env handle paramSet = some keyNode) :
    (hksQueryKeyNode (s.sessionId env handle)).run s.opened = .ok (some keyNode) s.opened := by
  have ⟨_, _, hfind⟩ := found_eq_some hf
  rw [← hfind]
  rfl

theorem getParamsForUpdateAndFinish_run (hf : s.found env handle paramSet = some keyNode) :
    (getParamsForUpdateAndFinish env handle).run s.called = .ok keyNode s.opened := by
  have ⟨_, hlen, _⟩ := found_eq_some hf
  simp only [getParamsForUpdateAndFinish, run_bind, sessionIdOf_run hlen, hksQueryKeyNode_run hf]
  rfl

-- What the calls do to the table when they find their node.
theorem hksCoreUpdate_found (hl : s.Linked) (hf : s.found env handle paramSet = some keyNode)
    (hs : s.keyNodes = l₁ ++ keyNode :: l₂) (hfirst : ∀ m ∈ l₁, m.handle ≠ keyNode.handle)
    (inData : Bytes) (outSize : UInt32) :
    (hksCoreUpdate env handle paramSet inData outSize).run s =
      match (updateKeyNode env paramSet inData outSize).run
        ⟨keyNode, s.opened.world, s.opened.history⟩ with
      | .ok outData t => .ok outData (s.opened.put l₁ l₂ t)
      | .error e t    => .error e (s.opened.drop l₁ l₂ t) := by
  have ⟨htag, _⟩ := found_eq_some hf
  have hsame := updateKeyNode_fixed (same_fixed keyNode) env paramSet inData outSize
    ⟨keyNode, s.opened.world, s.opened.history⟩ (.refl keyNode)
  have hbegin : beginCall.run s = .ok () s.called := rfl
  have hs' : s.opened.keyNodes = l₁ ++ keyNode :: l₂ := hs
  simp only [hksCoreUpdate, run_bind, hbegin, htag, run_ofExcept_ok,
    getParamsForUpdateAndFinish_run hf, onKeyNode_run hl.opened hs']
  cases hr : (updateKeyNode env paramSet inData outSize).run
    ⟨keyNode, s.opened.world, s.opened.history⟩
  case ok outData t => rfl
  case error e t =>
    have hsame : SameNode keyNode t.node := by rwa [hr] at hsame
    simp only [Result.toExcept, Result.final_error, run_bind,
      hksDeleteKeyNode_put hl.opened hs' hfirst hsame, run_throw']

theorem hksCoreFinish_found (hl : s.Linked) (hf : s.found env handle paramSet = some keyNode)
    (hs : s.keyNodes = l₁ ++ keyNode :: l₂) (hfirst : ∀ m ∈ l₁, m.handle ≠ keyNode.handle)
    (inData : Bytes) (outSize : UInt32) :
    (hksCoreFinish env handle paramSet inData outSize).run s =
      match (finishKeyNode env paramSet inData outSize).run
        ⟨keyNode, s.opened.world, s.opened.history⟩ with
      | .ok outData t => .ok outData (s.opened.drop l₁ l₂ t)
      | .error e t    => .error e (s.opened.drop l₁ l₂ t) := by
  have ⟨htag, _⟩ := found_eq_some hf
  have hsame := finishKeyNode_fixed (same_fixed keyNode) env paramSet inData outSize
    ⟨keyNode, s.opened.world, s.opened.history⟩ (.refl keyNode)
  have hbegin : beginCall.run s = .ok () s.called := rfl
  have hs' : s.opened.keyNodes = l₁ ++ keyNode :: l₂ := hs
  have hok : (Except.ok () : Except HksErrorCode Unit).orError .nullPointer = .ok () := rfl
  simp only [hksCoreFinish, run_bind, hbegin, htag, hok, run_ofExcept_ok,
    getParamsForUpdateAndFinish_run hf, onKeyNode_run hl.opened hs',
    hksDeleteKeyNode_put hl.opened hs' hfirst hsame]
  cases (finishKeyNode env paramSet inData outSize).run
    ⟨keyNode, s.opened.world, s.opened.history⟩ <;> rfl

theorem hksCoreAbort_found (hl : s.Linked) (hf : s.found env handle paramSet = some keyNode)
    (hs : s.keyNodes = l₁ ++ keyNode :: l₂) (hfirst : ∀ m ∈ l₁, m.handle ≠ keyNode.handle) :
    (hksCoreAbort env handle paramSet).run s =
      match (abortKeyNode env paramSet).run ⟨keyNode, s.opened.world, s.opened.history⟩ with
      | .ok () t   => .ok () (s.opened.drop l₁ l₂ t)
      | .error e t => .error e (s.opened.drop l₁ l₂ t) := by
  have ⟨htag, hlen, _⟩ := found_eq_some hf
  have hsame := abortKeyNode_fixed (same_fixed keyNode) env paramSet
    ⟨keyNode, s.opened.world, s.opened.history⟩ (.refl keyNode)
  have hbegin : beginCall.run s = .ok () s.called := rfl
  have hs' : s.opened.keyNodes = l₁ ++ keyNode :: l₂ := hs
  simp only [hksCoreAbort, run_bind, hbegin, htag, run_ofExcept_ok, sessionIdOf_run hlen,
    hksQueryKeyNode_run hf, onKeyNode_run hl.opened hs', hksDeleteKeyNode_put hl.opened hs' hfirst hsame]
  cases (abortKeyNode env paramSet).run ⟨keyNode, s.opened.world, s.opened.history⟩ <;> rfl

-- What they do when there is none.
theorem getParamsForUpdateAndFinish_notFound (ht : hksCheckParamSetTag paramSet = .ok ())
    (hf : s.found env handle paramSet = none) :
    ∃ e s', (getParamsForUpdateAndFinish env handle).run s.called = .error e s' ∧
      s.called.Asked s' := by
  simp only [getParamsForUpdateAndFinish, run_bind]
  by_cases hlen : handle.length ≤ 8
  case neg =>
    refine ⟨.insufficientMemory, s.called, ?_, .refl _⟩
    simp only [sessionIdOf, if_pos (Nat.not_le.mp hlen), run_throw']
  case pos =>
    have hnone : s.keyNodes.find? (·.handle = s.sessionId env handle) = none := by
      simpa [found, ht, hlen] using hf
    have hquery : (hksQueryKeyNode (s.sessionId env handle)).run s.opened = .ok none s.opened := by
      rw [← hnone]
      rfl
    refine ⟨.badState, s.opened, ?_, ⟨_, Nat.le_succ _, rfl⟩⟩
    simp only [sessionIdOf_run hlen, hquery]
    rfl

theorem hksCoreUpdate_notFound (hf : s.found env handle paramSet = none) (inData : Bytes)
    (outSize : UInt32) :
    ∃ e s', (hksCoreUpdate env handle paramSet inData outSize).run s = .error e s' ∧
      s.called.Asked s' := by
  have hbegin : beginCall.run s = .ok () s.called := rfl
  simp only [hksCoreUpdate, run_bind, hbegin]
  cases htag : hksCheckParamSetTag paramSet
  case error e => exact ⟨e, s.called, rfl, .refl _⟩
  case ok =>
    have ⟨e, s', hrun, hasked⟩ := getParamsForUpdateAndFinish_notFound htag hf
    exact ⟨e, s', by simp only [run_ofExcept_ok, hrun], hasked⟩

theorem hksCoreFinish_notFound (hf : s.found env handle paramSet = none) (inData : Bytes)
    (outSize : UInt32) :
    ∃ e s', (hksCoreFinish env handle paramSet inData outSize).run s = .error e s' ∧
      s.called.Asked s' := by
  have hbegin : beginCall.run s = .ok () s.called := rfl
  simp only [hksCoreFinish, run_bind, hbegin]
  cases htag : hksCheckParamSetTag paramSet
  case error e => exact ⟨.nullPointer, s.called, rfl, .refl _⟩
  case ok =>
    have ⟨e, s', hrun, hasked⟩ := getParamsForUpdateAndFinish_notFound htag hf
    have hok : (Except.ok () : Except HksErrorCode Unit).orError .nullPointer = .ok () := rfl
    exact ⟨e, s', by simp only [hok, run_ofExcept_ok, hrun], hasked⟩

theorem hksCoreAbort_notFound (hf : s.found env handle paramSet = none) :
    s.called.Asked ((hksCoreAbort env handle paramSet).run s).final := by
  have hbegin : beginCall.run s = .ok () s.called := rfl
  simp only [hksCoreAbort, run_bind, hbegin]
  cases htag : hksCheckParamSetTag paramSet
  case error e => exact .refl _
  case ok =>
    simp only [run_ofExcept_ok]
    by_cases hlen : handle.length ≤ 8
    case neg =>
      simp only [sessionIdOf, if_pos (Nat.not_le.mp hlen), run_throw']
      exact .refl _
    case pos =>
      have hnone : s.keyNodes.find? (·.handle = s.sessionId env handle) = none := by
        simpa [found, htag, hlen] using hf
      have hquery : (hksQueryKeyNode (s.sessionId env handle)).run s.opened =
          .ok none s.opened := by
        rw [← hnone]
        rfl
      simp only [sessionIdOf_run hlen, hquery]
      exact ⟨_, Nat.le_succ _, rfl⟩

theorem coreInitPreCheck_ok {handleSize : Nat} (h : coreInitPreCheck paramSet handleSize = .ok ()) :
    hksCheckParamSet paramSet paramSet.paramSetSize = .ok () ∧
      hksCheckParamSetTag paramSet = .ok () := by
  unfold coreInitPreCheck at h
  split at h
  case isTrue => cases h
  case isFalse =>
    have ⟨⟨⟩, hcheck, h⟩ := Except.bind_eq_ok.mp h
    exact ⟨Except.orError_eq_ok.mp hcheck, Except.orError_eq_ok.mp h⟩

-- `HksCoreInit` creates a node and lists it at the end, or takes it out again.
theorem hksCoreInit_run (env : EngineEnv) (key : Bytes) (paramSet : HksParamSet)
    (handleSize tokenSize : Nat) (wf : s.WF) :
    (∃ e n s', (hksCoreInit env key paramSet handleSize tokenSize).run s = .error e s' ∧
        s.allocated ≤ n ∧ Asked { s.called with allocated := n } s') ∨
      ∃ new s₁ l₁, coreInitPreCheck paramSet handleSize = .ok () ∧
        KeyNodeCreated env paramSet new s.called s₁ ∧
        s₁.keyNodes = l₁ ++ [new.listed] ∧
        (hksCoreInit env key paramSet handleSize tokenSize).run s =
          match (initKeyNode env paramSet tokenSize).run ⟨new.listed, s₁.world, s₁.history⟩ with
          | .ok token t => .ok (new.keyNode.handle, token) (s₁.put l₁ [] t)
          | .error e t  => .error e (s₁.drop l₁ [] t) := by
  have hbegin : beginCall.run s = .ok () s.called := rfl
  have wf' : s.called.WF := ⟨wf.of_map rfl _ _, wf.handles, wf.within⟩
  simp only [hksCoreInit, run_bind, hbegin]
  cases hpre : coreInitPreCheck paramSet handleSize
  case error e => exact .inl ⟨e, s.allocated, s.called, rfl, Nat.le_refl _, .refl _⟩
  case ok u =>
    cases u
    simp only [run_ofExcept_ok, run_attempt (hksCreateKeyNode env key paramSet)]
    cases hksCreateKeyNode_run env key paramSet wf'
    case inr h =>
      obtain ⟨e, s', hrun, hasked⟩ := h
      refine .inl ⟨.badState, _, s', ?_, Nat.le_succ _, hasked⟩
      simp only [hrun, Result.toExcept, Result.final_error, run_throw']
    case inl h =>
      obtain ⟨new, s₁, hrun, created⟩ := h
      obtain ⟨l₁, evicts, hl, _⟩ := created.insert.evicts
      refine .inr ⟨new, s₁, l₁, trivial, created, hl, ?_⟩
      have hsame := initKeyNode_same env paramSet tokenSize
        ⟨new.listed, s₁.world, s₁.history⟩ (.refl new.listed)
      have hfirst : ∀ m ∈ l₁, m.handle ≠ new.listed.handle := by
        intro m hm
        simpa [NewKeyNode.listed] using List.all_eq_true.mp created.unique m (evicts.sublist.subset hm)
      have hid : new.keyNode.id = new.listed.id := rfl
      have hhandle : new.keyNode.handle = new.listed.handle := rfl
      have honKeyNode := onKeyNode_run created.linked hl (initKeyNode env paramSet tokenSize)
      simp only [hrun, Result.toExcept, Result.final_ok, hid, run_bind, honKeyNode]
      cases hr : (initKeyNode env paramSet tokenSize).run ⟨new.listed, s₁.world, s₁.history⟩
      case ok token t => rfl
      case error e t =>
        have hsame : SameNode new.listed t.node := by rwa [hr] at hsame
        simp only [Result.final_error, hhandle, run_bind,
          hksDeleteKeyNode_put created.linked hl hfirst hsame, run_throw']

end Calls

namespace EngineCall

def Fails (env : EngineEnv) (s : Engine) (c : EngineCall) : Prop :=
  ∃ e s', (c.exec env).run s = .error e s'

-- What a call that returns an error leaves of the table: of an init call nothing but evictions on
-- behalf of its token, of another one the node that it found is gone.
def Undone (env : EngineEnv) (s s' : Engine) : EngineCall → Prop
  | init _ paramSet _ _ => ∃ tick, keyNodePolicy.Evicts (env.Expired s.world.tick tick)
      (getTokenIdFromParamSet paramSet) s.keyNodes s'.keyNodes
  | update handle paramSet _ _ | finish handle paramSet _ _ | abort handle paramSet =>
    s'.keyNodes = (s.found env handle paramSet).elim s.keyNodes s.keyNodes.erase

end EngineCall

-- How an update, finish or abort call ends: without a node, with its node taken out, or, if it is a
-- call that keeps its node on success, with its node still there.
inductive CallOutcome (env : EngineEnv) (s : Engine) (handle : Bytes) (paramSet : HksParamSet)
    (keeps : Prop) (r : Result HksErrorCode Engine Unit) : Prop
  | notFound (none : s.found env handle paramSet = none) (asked : s.called.Asked r.final)
  | dropped {n : HuksKeyNode} {l₁ l₂ : List HuksKeyNode} {t : NodeState}
    (some : s.found env handle paramSet = some n) (nodes : s.keyNodes = l₁ ++ n :: l₂)
    (same : SameNode n t.node) (final : r.final = s.opened.drop l₁ l₂ t)
  | kept {n : HuksKeyNode} {l₁ l₂ : List HuksKeyNode} {t : NodeState}
    (some : s.found env handle paramSet = some n) (nodes : s.keyNodes = l₁ ++ n :: l₂)
    (same : SameNode n t.node) (keeps : keeps) (ok : r = .ok () (s.opened.put l₁ l₂ t))

section Runs

variable {env : EngineEnv} {s : Engine} {l₁ l₂ : List HuksKeyNode} {n : HuksKeyNode}

theorem Engine.Asked.wf {s' : Engine} (h : s.Asked s') (wf : s.WF) : s'.WF where
  toLinked := h.linked wf.toLinked
  handles  := h.keyNodes ▸ wf.handles
  within   := h.keyNodes ▸ wf.within

theorem Engine.WF.called (wf : s.WF) : s.called.WF := ⟨wf.of_map rfl _ _, wf.handles, wf.within⟩

theorem Engine.WF.malloc (wf : s.WF) {k : Nat} (h : s.allocated ≤ k) :
    WF { s with allocated := k } where
  nodup         := wf.nodup
  fresh node hn := Nat.lt_of_lt_of_le (wf.fresh node hn) h
  capacity      := wf.capacity
  count         := wf.count
  handles       := wf.handles
  within        := wf.within

theorem Engine.WF.opened (wf : s.WF) : s.opened.WF := ⟨wf.of_map rfl _ _, wf.handles, wf.within⟩

theorem Engine.WF.put (wf : s.WF) (hs : s.keyNodes = l₁ ++ n :: l₂) {t : NodeState}
    (ht : SameNode n t.node) : (s.put l₁ l₂ t).WF where
  toLinked := wf.of_map (by rw [hs]; simp [ht.id]) _ _
  handles  := by
    have := wf.handles
    rw [hs] at this
    simpa [Engine.put, ht.handle] using this
  within   := (hs ▸ wf.within).replace ht.tokenId

theorem Engine.WF.drop (wf : s.WF) (hs : s.keyNodes = l₁ ++ n :: l₂) (t : NodeState) :
    (s.drop l₁ l₂ t).WF where
  toLinked := by
    have h := wf.remove (l := l₁ ++ l₂) (by simp [hs]) (by simp [hs]; omega)
      (freeNodeParamSets t.node t.world)
    exact h.of_map rfl _ _
  handles  := wf.handles.sublist <| .map _ (by simp [Engine.drop, hs])
  within   := wf.within.sublist (by simp [Engine.drop, hs])

variable {handle : Bytes} {paramSet : HksParamSet}

theorem hksCoreUpdate_outcome (hl : s.Linked) (inData : Bytes) (outSize : UInt32) :
    CallOutcome env s handle paramSet True
      ((EngineCall.update handle paramSet inData outSize).exec env |>.run s) := by
  rw [EngineCall.exec, run_discard]
  cases hf : s.found env handle paramSet
  case none =>
    have ⟨e, s', hrun, hasked⟩ := hksCoreUpdate_notFound hf inData outSize
    rw [hrun]
    exact .notFound hf hasked
  case some n =>
    have ⟨l₁, l₂, hs, hfirst⟩ := exists_of_found hf
    have hsame := updateKeyNode_fixed (same_fixed n) env paramSet inData outSize
      ⟨n, s.opened.world, s.opened.history⟩ (.refl n)
    rw [hksCoreUpdate_found hl hf hs hfirst]
    cases hr : (updateKeyNode env paramSet inData outSize).run
      ⟨n, s.opened.world, s.opened.history⟩ <;> rw [hr] at hsame
    case ok => exact .kept hf hs hsame trivial rfl
    case error => exact .dropped hf hs hsame rfl

theorem hksCoreFinish_outcome (hl : s.Linked) (inData : Bytes) (outSize : UInt32) :
    CallOutcome env s handle paramSet False
      ((EngineCall.finish handle paramSet inData outSize).exec env |>.run s) := by
  rw [EngineCall.exec, run_discard]
  cases hf : s.found env handle paramSet
  case none =>
    have ⟨e, s', hrun, hasked⟩ := hksCoreFinish_notFound hf inData outSize
    rw [hrun]
    exact .notFound hf hasked
  case some n =>
    have ⟨l₁, l₂, hs, hfirst⟩ := exists_of_found hf
    have hsame := finishKeyNode_fixed (same_fixed n) env paramSet inData outSize
      ⟨n, s.opened.world, s.opened.history⟩ (.refl n)
    rw [hksCoreFinish_found hl hf hs hfirst]
    cases hr : (finishKeyNode env paramSet inData outSize).run
      ⟨n, s.opened.world, s.opened.history⟩ <;> rw [hr] at hsame
    case ok => exact .dropped hf hs hsame rfl
    case error => exact .dropped hf hs hsame rfl

theorem hksCoreAbort_outcome (hl : s.Linked) :
    CallOutcome env s handle paramSet False
      ((EngineCall.abort handle paramSet).exec env |>.run s) := by
  rw [EngineCall.exec]
  cases hf : s.found env handle paramSet
  case none => exact .notFound hf (hksCoreAbort_notFound hf)
  case some n =>
    have ⟨l₁, l₂, hs, hfirst⟩ := exists_of_found hf
    have hsame := abortKeyNode_fixed (same_fixed n) env paramSet
      ⟨n, s.opened.world, s.opened.history⟩ (.refl n)
    rw [hksCoreAbort_found hl hf hs hfirst]
    cases hr : (abortKeyNode env paramSet).run
      ⟨n, s.opened.world, s.opened.history⟩ <;> rw [hr] at hsame
    case ok => exact .dropped hf hs hsame rfl
    case error => exact .dropped hf hs hsame rfl

variable {keeps : Prop}

theorem CallOutcome.wf {r : Result HksErrorCode Engine Unit}
    (o : CallOutcome env s handle paramSet keeps r) (wf : s.WF) : r.final.WF := by
  cases o
  case notFound _ hasked => exact hasked.wf wf.called
  case dropped hs _ hfinal => exact hfinal ▸ wf.opened.drop hs _
  case kept hs hsame _ hok => exact hok ▸ wf.opened.put hs hsame

theorem CallOutcome.undone {e : HksErrorCode} {s' : Engine}
    (o : CallOutcome env s handle paramSet keeps (.error e s')) (wf : s.WF) :
    s'.keyNodes = (s.found env handle paramSet).elim s.keyNodes s.keyNodes.erase := by
  cases o
  case notFound hnone hasked =>
    rw [hnone]
    exact hasked.keyNodes
  case dropped n l₁ l₂ t hsome hs hsame hfinal =>
    have hnodup := hs ▸ wf.nodup.of_map _
    have hn : n ∉ l₁ := by
      have := (List.nodup_append.mp hnodup).2.2
      exact fun h => this n h n (by simp) rfl
    rw [hsome, Option.elim_some, hs, List.erase_append_right _ hn, List.erase_cons_head]
    exact congrArg Engine.keyNodes hfinal
  case kept h => cases h

-- The token that `HksCreateKeyNode` reads from its copy of the param set is the caller's.
theorem KeyNodeCreated.tokenId {new : NewKeyNode} {s' : Engine} {paramSet : HksParamSet}
    (c : KeyNodeCreated env paramSet new s s')
    (h : hksCheckParamSet paramSet paramSet.paramSetSize = .ok ()) :
    new.tokenId = getTokenIdFromParamSet paramSet := by
  have ⟨hwords, hcheck⟩ := buildRuntimeParamSet_words c.build
  refine getTokenIdFromParamSet_congr ?_
  rw [hksGetParam_word hcheck (by decide), hksGetParam_word h (by decide), hwords, List.find?_append]
  simp [show ¬HksTag.cryptoCtx = HksTag.accessTokenId by decide]

theorem EngineCall.step_wf (wf : s.WF) (c : EngineCall) : (c.step env s).WF := by
  cases c
  case init key paramSet handleSize tokenSize =>
    rw [step, exec, run_discard]
    cases hksCoreInit_run env key paramSet handleSize tokenSize wf
    case inl h =>
      have ⟨e, n, s', hrun, hn, hasked⟩ := h
      rw [hrun]
      exact hasked.wf (wf.called.malloc hn)
    case inr h =>
      have ⟨new, s₁, l₁, _, created, hs, hrun⟩ := h
      have hsame := initKeyNode_same env paramSet tokenSize
        ⟨new.listed, s₁.world, s₁.history⟩ (.refl new.listed)
      rw [hrun]
      cases hr : (initKeyNode env paramSet tokenSize).run ⟨new.listed, s₁.world, s₁.history⟩ <;>
        rw [hr] at hsame
      case ok => exact (created.wf wf.called).put hs hsame
      case error => exact (created.wf wf.called).drop hs _
  case update => exact (hksCoreUpdate_outcome wf.toLinked _ _).wf wf
  case finish => exact (hksCoreFinish_outcome wf.toLinked _ _).wf wf
  case abort => exact (hksCoreAbort_outcome wf.toLinked).wf wf

theorem CallOutcome.forall_of_dropped {r : Result HksErrorCode Engine Unit}
    (o : CallOutcome env s handle paramSet False r) {P : HuksKeyNode → Prop}
    (hs : ∀ n ∈ s.keyNodes, P n) : ∀ n ∈ r.final.keyNodes, P n := by
  cases o
  case notFound _ hasked => exact fun n hn => hs n (hasked.keyNodes ▸ hn)
  case dropped hnodes _ hfinal =>
    intro n hn
    rw [hfinal] at hn
    refine hs n ?_
    rw [hnodes]
    exact List.mem_append.mpr ((List.mem_append.mp hn).imp_right (List.mem_cons_of_mem _))
  case kept keeps _ => exact keeps.elim

-- What init and update calls that return leave of their node holds of every listed node.
theorem EngineCall.step_forall {P : HuksKeyNode → Prop} (wf : s.WF) (hs : ∀ n ∈ s.keyNodes, P n)
    (hinit : ∀ paramSet tokenSize (new : NewKeyNode), hksCheckParamSetTag paramSet = .ok () →
      buildRuntimeParamSet (some paramSet) = .ok new.runtimeParamSet → new.keyNode.ctx = none →
      Triple (·.node = new.listed) (initKeyNode env paramSet tokenSize) (fun _ t => P t.node)
        fun _ _ => True)
    (hupdate : ∀ paramSet inData outSize, hksCheckParamSetTag paramSet = .ok () →
      Triple (fun t => P t.node) (updateKeyNode env paramSet inData outSize) (fun _ t => P t.node)
        fun _ _ => True)
    (c : EngineCall) : ∀ n ∈ (c.step env s).keyNodes, P n := by
  cases c
  case init key paramSet handleSize tokenSize =>
    rw [step, exec, run_discard_final]
    cases hksCoreInit_run env key paramSet handleSize tokenSize wf
    case inl h =>
      have ⟨e, n, s', hrun, hn, hasked⟩ := h
      rw [hrun]
      exact fun m hm => hs m (hasked.keyNodes ▸ hm)
    case inr h =>
      have ⟨new, s₁, l₁, hpre, created, hl, hrun⟩ := h
      have ⟨l₁', evicts, hl', _⟩ := created.insert.evicts
      have ⟨hkept, _⟩ := List.append_inj' (hl.symm.trans hl') rfl
      have hold : ∀ m ∈ l₁, P m := fun m hm => hs m (evicts.sublist.subset (hkept ▸ hm))
      have hnew := hinit paramSet tokenSize new (coreInitPreCheck_ok hpre).2 created.build
        (congrArg HuksKeyNode.ctx created.bare) ⟨new.listed, s₁.world, s₁.history⟩ rfl
      rw [hrun]
      cases hr : (initKeyNode env paramSet tokenSize).run ⟨new.listed, s₁.world, s₁.history⟩ <;>
        rw [hr] at hnew
      case ok token t =>
        intro m hm
        rcases List.mem_append.mp hm with hm | hm
        · exact hold m hm
        · exact List.mem_singleton.mp hm ▸ hnew
      case error e t => exact fun m hm => hold m (by simpa [Engine.drop] using hm)
  case update handle paramSet inData outSize =>
    rw [step, exec, run_discard_final]
    cases hf : s.found env handle paramSet
    case none =>
      have ⟨e, s', hrun, hasked⟩ := hksCoreUpdate_notFound hf inData outSize
      rw [hrun]
      exact fun n hn => hs n (hasked.keyNodes ▸ hn)
    case some n =>
      have ⟨l₁, l₂, hl, hfirst⟩ := exists_of_found hf
      have hmem (m : HuksKeyNode) (hm : m ∈ l₁ ∨ m ∈ l₂) : P m := by
        refine hs m ?_
        rw [hl]
        exact List.mem_append.mpr (hm.imp_right (List.mem_cons_of_mem _))
      have hn : P n := hs n (hl ▸ List.mem_append_right _ List.mem_cons_self)
      have hnew := hupdate paramSet inData outSize (found_eq_some hf).1
        ⟨n, s.opened.world, s.opened.history⟩ hn
      rw [hksCoreUpdate_found wf.toLinked hf hl hfirst]
      cases hr : (updateKeyNode env paramSet inData outSize).run
        ⟨n, s.opened.world, s.opened.history⟩ <;> rw [hr] at hnew <;> intro m hm
      case ok =>
        rcases List.mem_append.mp hm with hm | hm
        · exact hmem m (.inl hm)
        · rcases List.mem_cons.mp hm with hm | hm
          · exact hm ▸ hnew
          · exact hmem m (.inr hm)
      case error => exact hmem m (List.mem_append.mp hm)
  case finish => exact (hksCoreFinish_outcome wf.toLinked _ _).forall_of_dropped hs
  case abort => exact (hksCoreAbort_outcome wf.toLinked).forall_of_dropped hs

theorem EngineCall.undone (wf : s.WF) (c : EngineCall) (h : c.Fails env s) :
    c.Undone env s (c.step env s) := by
  obtain ⟨e, s', h⟩ := h
  rw [step, h]
  cases c
  case init key paramSet handleSize tokenSize =>
    rw [exec, run_discard] at h
    cases hksCoreInit_run env key paramSet handleSize tokenSize wf
    case inl hrun =>
      have ⟨e', n, s'', hrun, _, hasked⟩ := hrun
      rw [hrun] at h
      cases h
      refine ⟨s.world.tick, ?_⟩
      rw [Result.final_error, hasked.keyNodes]
      exact .refl
    case inr hrun =>
      have ⟨new, s₁, l₁, hpre, created, hs, hrun⟩ := hrun
      rw [hrun] at h
      have ⟨l₁', evicts, hl, _⟩ := created.insert.evicts
      have ⟨hkept, _⟩ := List.append_inj' (hs.symm.trans hl) rfl
      rw [created.tokenId (coreInitPreCheck_ok hpre).left, ← hkept] at evicts
      cases hr : (initKeyNode env paramSet tokenSize).run ⟨new.listed, s₁.world, s₁.history⟩ <;>
        rw [hr] at h <;> cases h
      refine ⟨s₁.world.tick, ?_⟩
      rw [Result.final_error, drop, List.append_nil]
      exact evicts
  case update => exact (h ▸ hksCoreUpdate_outcome wf.toLinked _ _).undone wf
  case finish => exact (h ▸ hksCoreFinish_outcome wf.toLinked _ _).undone wf
  case abort => exact (h ▸ hksCoreAbort_outcome wf.toLinked).undone wf

theorem Engine.run_wf (wf : s.WF) (calls : List EngineCall) : (s.run env calls).WF := by
  induction calls generalizing s
  case nil => exact wf
  case cons c calls ih => exact ih (c.step_wf wf)

end Runs

-- The table in every state that a run of calls reaches, and what a call that fails there undoes.
theorem keyNodeTable_invariant (env : EngineEnv) (calls : List EngineCall) :
    let s := Engine.run env {} calls
    s.keyNodeCount.toNat = s.keyNodes.length ∧
    s.keyNodes.length ≤ maxKeyNodesCount ∧
    (∀ tokenId, s.keyNodes.countP (·.tokenId = tokenId) ≤ maxKeyNodesEachTokenId) ∧
    (s.keyNodes.map HuksKeyNode.handle).Nodup ∧
    ∀ c : EngineCall, c.Fails env s → c.Undone env s (c.step env s) := by
  have wf : (Engine.run env {} calls).WF := Engine.run_wf .init calls
  exact ⟨wf.count, wf.toLinked.capacity, wf.within.quota, wf.handles, fun c => c.undone wf⟩

-- Surroundings for runs on fixed inputs: every key has the key blob `keyBlobParamSet`, random
-- numbers are the number of the question, signatures have the sizes that the code asks for, and the
-- clock, the crypto library and the other checks of other files agree to everything.
def steadyEnv (keyBlobParamSet : HksParamSet) : EngineEnv where
  supportCmac              := true
  supportRsaIso97962       := true
  enableIsPasswordSet      := true
  elapsedRealTime _        := .ok 1000
  hal n call               := match call with
    | .fillRandom size => .ok (n.toUInt8 :: .replicate (size - 1) 0)
    | _                => .ok []
  getKeyBlobParamSet _ _   := .ok keyBlobParamSet
  hksGetAuthTokenKey _     := .ok ([], [])
  hksUserIdmGetAuthInfoNum _ _ := (.ok (), 1)
  uninitialized _          := []
  getInputParams _         := .ok ()
  hksCheckOptionalParam _ _ _ _   := .ok ()
  hksCheckGenKeyMutableParams _ _ := .ok ()
  hksCheckSignature               := Huks.hksCheckSignature
  hksCheckUserAuthKeyInfoValidity _       := .ok ()
  hksCheckSecureSignParams _              := .ok ()
  hksCoreCheckAgreeDeriveFinishParams _ _ := .ok ()
  hksCoreConvertUserIamTypeToHksType      := .ok

-- A set of params that are no blobs.
def scalarParamSet (params : List HksParam) : HksParamSet where
  paramSetSize := (8 + 24 * params.length).toUInt32
  params       := params
  area         := []

end Huks
