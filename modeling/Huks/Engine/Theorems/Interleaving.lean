import Huks.Engine.Theorems.EngineRuns
import Mathlib.Data.List.Induction

namespace Huks

open Engine EStateM QuotaTable

-- What the key node table is to guarantee at every point of a schedule.
def HuksKeyNode.Assigned (n : HuksKeyNode) : Prop :=
  n.keyBlobParamSet.isSome ∧ n.runtimeParamSet.isSome

instance (n : HuksKeyNode) : Decidable n.Assigned :=
  inferInstanceAs <| Decidable (n.keyBlobParamSet.isSome ∧ n.runtimeParamSet.isSome)

structure System.Sound (s : System) : Prop where
  assigned : ∀ n ∈ s.engine.keyNodes, n.Assigned
  count    : s.engine.keyNodeCount.toNat = s.engine.keyNodes.length
  capacity : s.engine.keyNodes.length ≤ maxKeyNodesCount
  quota    : ∀ tokenId, s.engine.keyNodes.countP (·.tokenId = tokenId) ≤ maxKeyNodesEachTokenId
  handles  : (s.engine.keyNodes.map HuksKeyNode.handle).Nodup
  unused   : s.usedEvicted = false

-- A thread that is alone does what its call does.
section Alone

variable {env : EngineEnv} {e : Engine}

theorem Thread.steps_returned (n : Nat) (e : Engine) :
    (steps env n returned).run e = .ok returned e := by
  induction n
  case zero => rfl
  case succ n ih => exact ih

theorem Thread.steps_deleting (n : Nat) (handle : UInt64) (e : Engine) :
    (steps env (n + 1) (deleting handle)).run e =
      .ok returned ((hksDeleteKeyNode handle).run e).final := by
  have hdelete : ∃ e', (hksDeleteKeyNode handle).run e = .ok () e' := by
    simp only [hksDeleteKeyNode, run_bind, run_get]
    split <;> exact ⟨_, rfl⟩
  obtain ⟨e', hdelete⟩ := hdelete
  simp only [steps_succ, step, run_bind, hdelete, run_pure, steps_returned, Result.final_ok]

theorem Thread.steps_init (key : Bytes) (paramSet : HksParamSet) (handleSize tokenSize : Nat) :
    (steps env 4 (.started (.init key paramSet handleSize tokenSize))).run e =
      .ok .returned ((hksCoreInit env key paramSet handleSize tokenSize).run e).final := by
  have hbegin : beginCall.run e = .ok () e.called := rfl
  rw [steps_succ]
  simp only [hksCoreInit, step, run_bind, hbegin, run_attempt]
  cases coreInitPreCheck paramSet handleSize
  case error => exact steps_returned 3 _
  case ok =>
    simp only [run_ofExcept_ok, hksCreateKeyNode, run_bind]
    cases (prepareKeyNode env key paramSet).run e.called
    case error => exact steps_returned 3 _
    case ok new e₁ =>
      simp only [Result.toExcept, Result.final_ok, run_pure]
      rw [steps_succ]
      simp only [step, run_bind, run_attempt]
      cases (addKeyNode env new.keyNode new.tokenId).run e₁
      case error => exact steps_returned 2 _
      case ok _ e₂ =>
        obtain ⟨e₃, hassign⟩ : ∃ e₃, (assignParamSets new).run e₂ = .ok () e₃ := ⟨_, rfl⟩
        simp only [Result.toExcept, Result.final_ok, run_pure]
        rw [steps_succ]
        simp only [step, run_bind, run_attempt, hassign, Result.final_ok]
        cases (onKeyNode new.keyNode.id (initKeyNode env paramSet tokenSize)).run e₃
        case ok => exact steps_returned 1 _
        case error error e₄ =>
          simp only [Result.toExcept, Result.final_error, run_pure, steps_deleting, run_bind]
          cases (hksDeleteKeyNode new.keyNode.handle).run e₄ <;> rfl

theorem onKeyNode_discard {α : Type} (id : Nat) (x : NodeM α) (e : Engine) :
    (onKeyNode id (discard x)).run e =
      match (onKeyNode id x).run e with
      | .ok _ e'      => .ok () e'
      | .error err e' => .error err e' := by
  have hrun := run_discard x
  simp only [EStateM.run] at hrun
  simp only [onKeyNode, EStateM.run]
  cases e.keyNodes.find? (·.id = id)
  case none => rfl
  case some n =>
    simp only [hrun]
    cases x ⟨n, e.world, e.history⟩ <;> rfl

-- What is left of a call that has found `keyNode`.
def NodeCall.rest (env : EngineEnv) (keyNode : HuksKeyNode) (call : NodeCall) (e : Engine) : Engine :=
  match call, (onKeyNode keyNode.id (call.exec env)).run e with
  | .update .., .ok _ e' => e'
  | _, r                 => ((hksDeleteKeyNode keyNode.handle).run r.final).final

theorem Thread.steps_queried (keyNode : HuksKeyNode) (call : NodeCall) (e : Engine) :
    (steps env 2 (queried keyNode.id keyNode.handle call)).run e =
      .ok returned (call.rest env keyNode e) := by
  rw [steps_succ]
  simp only [step, run_bind, run_attempt, NodeCall.rest]
  cases call <;> cases (onKeyNode keyNode.id _).run e
  case update.ok => exact steps_returned 1 _
  all_goals exact steps_deleting 0 _ _

theorem Thread.steps_query {c : EngineCall} {handle : Bytes} {paramSet : HksParamSet}
    {call : NodeCall} (hc : (started c).step env = startQuery env handle paramSet call) :
    (steps env 4 (.started c)).run e =
      match hksCheckParamSetTag paramSet, (sessionIdOf env handle).run e.called with
      | .error _, _              => .ok .returned e.called
      | .ok _, .error _ e'       => .ok .returned e'
      | .ok _, .ok sessionId e' =>
        match e'.keyNodes.find? (·.handle = sessionId) with
        | none         => .ok .returned e'
        | some keyNode => .ok .returned (call.rest env keyNode e') := by
  have hbegin : beginCall.run e = .ok () e.called := rfl
  rw [steps_succ, hc]
  simp only [startQuery, run_bind, hbegin, run_attempt]
  cases hksCheckParamSetTag paramSet
  case error => exact steps_returned 3 _
  case ok =>
    simp only [run_ofExcept_ok]
    cases (sessionIdOf env handle).run e.called
    case error => exact steps_returned 3 _
    case ok sessionId e' =>
      simp only [Result.toExcept, Result.final_ok, run_pure]
      rw [steps_succ]
      simp only [step, hksQueryKeyNode, run_bind, run_get]
      cases e'.keyNodes.find? (·.handle = sessionId)
      case none => exact steps_returned 2 _
      case some keyNode => exact steps_queried keyNode call e'

theorem Thread.steps_call (c : EngineCall) (e : Engine) :
    (steps env 4 (.started c)).run e = .ok .returned (c.step env e) := by
  have hbegin : beginCall.run e = .ok () e.called := rfl
  cases c
  case init key paramSet handleSize tokenSize =>
    rw [steps_init, EngineCall.step, EngineCall.exec, run_discard]
    cases (hksCoreInit env key paramSet handleSize tokenSize).run e <;> rfl
  case update handle paramSet inData outSize =>
    rw [steps_query rfl, EngineCall.step, EngineCall.exec, run_discard]
    simp only [hksCoreUpdate, getParamsForUpdateAndFinish, hksQueryKeyNode, run_bind, hbegin]
    cases hksCheckParamSetTag paramSet
    case error => rfl
    case ok =>
      simp only [run_ofExcept_ok]
      cases (sessionIdOf env handle).run e.called
      case error => rfl
      case ok sessionId e' =>
        simp only [run_get]
        cases e'.keyNodes.find? (·.handle = sessionId)
        case none => rfl
        case some keyNode =>
          simp only [run_pure, NodeCall.rest, NodeCall.exec, onKeyNode_discard, run_attempt]
          cases (onKeyNode keyNode.id (updateKeyNode env paramSet inData outSize)).run e'
          case ok => rfl
          case error err e'' =>
            simp only [Result.toExcept, Result.final_error, run_bind]
            cases (hksDeleteKeyNode keyNode.handle).run e'' <;> rfl
  case finish handle paramSet inData outSize =>
    rw [steps_query rfl, EngineCall.step, EngineCall.exec, run_discard]
    simp only [hksCoreFinish, getParamsForUpdateAndFinish, hksQueryKeyNode, run_bind, hbegin]
    cases hksCheckParamSetTag paramSet
    case error => rfl
    case ok =>
      have hok : (Except.ok () : Except HksErrorCode Unit).orError .nullPointer = .ok () := rfl
      simp only [hok, run_ofExcept_ok]
      cases (sessionIdOf env handle).run e.called
      case error => rfl
      case ok sessionId e' =>
        simp only [run_get]
        cases e'.keyNodes.find? (·.handle = sessionId)
        case none => rfl
        case some keyNode =>
          simp only [run_pure, NodeCall.rest, NodeCall.exec, onKeyNode_discard, run_attempt]
          cases (onKeyNode keyNode.id (finishKeyNode env paramSet inData outSize)).run e' <;>
            simp only [Result.toExcept, Result.final_ok, Result.final_error] <;>
            cases (hksDeleteKeyNode keyNode.handle).run _ <;> rfl
  case abort handle paramSet =>
    rw [steps_query rfl, EngineCall.step, EngineCall.exec]
    simp only [hksCoreAbort, hksQueryKeyNode, run_bind, hbegin]
    cases hksCheckParamSetTag paramSet
    case error => rfl
    case ok =>
      simp only [run_ofExcept_ok]
      cases (sessionIdOf env handle).run e.called
      case error => rfl
      case ok sessionId e' =>
        simp only [run_get]
        cases e'.keyNodes.find? (·.handle = sessionId)
        case none => rfl
        case some keyNode =>
          simp only [run_pure, NodeCall.rest, NodeCall.exec, run_attempt, run_bind]
          cases (onKeyNode keyNode.id (abortKeyNode env paramSet)).run e' <;>
            simp only [Result.toExcept, Result.final_ok, Result.final_error] <;>
            cases (hksDeleteKeyNode keyNode.handle).run _ <;> rfl

end Alone

-- What a section may do to the listed nodes, besides adding one: `assign` is the node whose param
-- sets it stores.
structure NodesKept (assign : Option (Nat × UInt32)) (e e' : Engine) : Prop where
  linked    : e'.Linked
  ids       : (e'.keyNodes.map HuksKeyNode.id).Sublist (e.keyNodes.map HuksKeyNode.id)
  handles   : (e'.keyNodes.map HuksKeyNode.handle).Sublist (e.keyNodes.map HuksKeyNode.handle)
  allocated : e.allocated ≤ e'.allocated
  tokens    : ∀ m ∈ e'.keyNodes, m.Assigned → assign = some (m.id, m.tokenId) ∨
    ∃ n ∈ e.keyNodes, n.Assigned ∧ n.id = m.id ∧ n.tokenId = m.tokenId

theorem NodesKept.of_sublist {e e' : Engine} (h : e'.Linked)
    (hn : e'.keyNodes.Sublist e.keyNodes) (ha : e.allocated ≤ e'.allocated) :
    NodesKept none e e' where
  linked         := h
  ids            := hn.map _
  handles        := hn.map _
  allocated      := ha
  tokens m hm hb := .inr ⟨m, hn.subset hm, hb, rfl, rfl⟩

theorem NodesKept.of_keyNodes {e e' : Engine} (h : e.Linked) (hn : e'.keyNodes = e.keyNodes)
    (hc : e'.keyNodeCount = e.keyNodeCount) (ha : e.allocated ≤ e'.allocated) :
    NodesKept none e e' := by
  refine .of_sublist ⟨hn ▸ h.nodup, fun n hm => ?_, hn ▸ h.capacity, by rw [hc, hn, h.count]⟩
    (by rw [hn]) ha
  exact Nat.lt_of_lt_of_le (h.fresh n (hn ▸ hm)) ha

theorem NodesKept.refl {e : Engine} (h : e.Linked) : NodesKept none e e :=
  .of_keyNodes h rfl rfl (Nat.le_refl _)

theorem NodesKept.trans {assign : Option (Nat × UInt32)} {e e' e'' : Engine}
    (h₁ : NodesKept assign e e') (h₂ : NodesKept none e' e'') : NodesKept assign e e'' where
  linked    := h₂.linked
  ids       := h₂.ids.trans h₁.ids
  handles   := h₂.handles.trans h₁.handles
  allocated := Nat.le_trans h₁.allocated h₂.allocated
  tokens    := by
    intro m hm hb
    cases h₂.tokens m hm hb
    case inl h => cases h
    case inr h =>
      have ⟨n, hn, hb', hid, htoken⟩ := h
      exact hid ▸ htoken ▸ h₁.tokens n hn hb'

theorem SameNode.assigned {n m : HuksKeyNode} (h : SameNode n m) (hm : m.Assigned) : n.Assigned := by
  have hr := h.runtimeParamSet
  have ⟨hk, hm⟩ := hm
  refine ⟨h.keyBlobParamSet ▸ hk, ?_⟩
  generalize n.runtimeParamSet = r, m.runtimeParamSet = r' at hr hm
  cases hr
  case none => cases hm
  case some => rfl

-- Work on a node that is no longer listed changes nothing.
theorem onKeyNode_kept {α : Type} {e : Engine} (h : e.Linked) (id : Nat) {x : NodeM α}
    (hx : ∀ n, Preserves (NodeState.Same n) x) :
    NodesKept none e ((onKeyNode id x).run e).final := by
  cases hf : e.keyNodes.find? (·.id = id)
  case none =>
    have hrun : (onKeyNode id x).run e = .error .internalError e := by
      simp only [onKeyNode, EStateM.run, hf]
    rw [hrun]
    exact .refl h
  case some n =>
    obtain ⟨l₁, l₂, hs, hid, _⟩ := exists_of_find? hf
    simp only [decide_eq_true_eq] at hid
    subst hid
    have hrun := onKeyNode_run h hs x
    have hsame := hx n ⟨n, e.world, e.history⟩ (.refl n)
    rw [run_attempt] at hrun
    injection hrun with _ hfinal
    rw [hfinal]
    generalize (x.run ⟨n, e.world, e.history⟩).final = t at hsame
    refine ⟨h.of_map (by rw [hs]; simp [hsame.id]) _ _, ?_, ?_, Nat.le_refl _, ?_⟩
    · simp [put, hs, hsame.id]
    · simp [put, hs, hsame.handle]
    · intro m hm hb
      simp only [put, List.mem_append, List.mem_cons] at hm
      refine .inr ?_
      rcases hm with hm | rfl | hm
      · exact ⟨m, by simp [hs, hm], hb, rfl, rfl⟩
      · exact ⟨n, by simp [hs], hsame.assigned hb, hsame.id.symm, hsame.tokenId.symm⟩
      · exact ⟨m, by simp [hs, hm], hb, rfl, rfl⟩

-- The node that a thread knows of.
def Thread.node : Thread → Option Nat
  | prepared new _ _ | added new _ _ => new.keyNode.id
  | queried id _ _                   => id
  | _                                => none

-- The new node of a thread is not listed yet.
def Thread.Unlisted (e : Engine) : Thread → Prop
  | prepared new _ _ => new.keyNode.id < e.allocated ∧ ∀ n ∈ e.keyNodes, n.id ≠ new.keyNode.id
  | _ => True

-- Everything that one section of a thread can do.
inductive Thread.Section (env : EngineEnv) (e : Engine) : Thread → Thread → Engine → Prop
  | prepare {call : EngineCall} {new : NewKeyNode} {paramSet : HksParamSet} {tokenSize : Nat}
    {e' : Engine} (kept : NodesKept none e e') (id : new.keyNode.id = e.allocated)
    (fresh : e.allocated < e'.allocated) (bare : new.keyNode.runtimeParamSet = none) :
    Section env e (started call) (prepared new paramSet tokenSize) e'
  | add {new : NewKeyNode} {paramSet : HksParamSet} {tokenSize : Nat} {e' : Engine}
    (run : (addKeyNode env new.keyNode new.tokenId).run e = .ok () e') :
    Section env e (prepared new paramSet tokenSize) (added new paramSet tokenSize) e'
  | assign {new : NewKeyNode} {paramSet : HksParamSet} {tokenSize : Nat} {t' : Thread} {e' : Engine}
    (next : t'.node = none) (kept : NodesKept (some (new.keyNode.id, new.tokenId)) e e') :
    Section env e (added new paramSet tokenSize) t' e'
  | query {sessionId : UInt64} {call : NodeCall} {n : HuksKeyNode} (listed : n ∈ e.keyNodes) :
    Section env e (querying sessionId call) (queried n.id n.handle call) e
  | work {id : Nat} {handle : UInt64} {call : NodeCall} {t' : Thread} {e' : Engine}
    (next : t'.node = none) (kept : NodesKept none e e') :
    Section env e (queried id handle call) t' e'
  | quiet {t t' : Thread} {e' : Engine} (this : t.node = none) (next : t'.node = none)
    (kept : NodesKept none e e') : Section env e t t' e'

section Step

variable {env : EngineEnv} {e : Engine}

theorem Engine.Asked.kept {e₀ e' : Engine} (hasked : e₀.Asked e') (h : e.Linked)
    (hn : e₀.keyNodes = e.keyNodes) (hc : e₀.keyNodeCount = e.keyNodeCount)
    (ha : e.allocated ≤ e₀.allocated) : NodesKept none e e' := by
  have ⟨_, _, he⟩ := hasked
  subst he
  exact .of_keyNodes h hn hc ha

theorem startQuery_section (h : e.Linked) (call : EngineCall) (handle : Bytes)
    (paramSet : HksParamSet) (work : NodeCall) :
    ∃ t' e', (Thread.startQuery env handle paramSet work).run e = .ok t' e' ∧
      Thread.Section env e (.started call) t' e' := by
  have hbegin : beginCall.run e = .ok () e.called := rfl
  have hcalled : NodesKept none e e.called := .of_keyNodes h rfl rfl (Nat.le_refl _)
  have hopened : NodesKept none e e.opened := .of_keyNodes h rfl rfl (Nat.le_refl _)
  simp only [Thread.startQuery, run_bind, hbegin, run_attempt]
  cases hksCheckParamSetTag paramSet
  case error => exact ⟨.returned, _, rfl, .quiet rfl rfl hcalled⟩
  case ok =>
    simp only [run_ofExcept_ok]
    by_cases hlen : handle.length ≤ 8
    case pos =>
      rw [sessionIdOf_run hlen]
      exact ⟨_, _, rfl, .quiet rfl rfl hopened⟩
    case neg =>
      simp only [sessionIdOf, if_pos (Nat.not_le.mp hlen), run_throw']
      exact ⟨.returned, _, rfl, .quiet rfl rfl hcalled⟩

theorem startInit_section (h : e.Linked) (key : Bytes) (paramSet : HksParamSet)
    (handleSize tokenSize : Nat) :
    ∃ t' e', (Thread.step env (.started (.init key paramSet handleSize tokenSize))).run e =
        .ok t' e' ∧
      Thread.Section env e (.started (.init key paramSet handleSize tokenSize)) t' e' := by
  have hbegin : beginCall.run e = .ok () e.called := rfl
  have hcalled : NodesKept none e e.called := .of_keyNodes h rfl rfl (Nat.le_refl _)
  simp only [Thread.step, run_bind, hbegin, run_attempt]
  cases coreInitPreCheck paramSet handleSize
  case error => exact ⟨.returned, _, rfl, .quiet rfl rfl hcalled⟩
  case ok =>
    simp only [run_ofExcept_ok]
    cases prepareKeyNode_run env key paramSet e.called
    case inl hp =>
      obtain ⟨new, e', hrun, hasked, hnode, _⟩ := hp
      have hid : new.keyNode.id = e.called.allocated := congrArg HuksKeyNode.id hnode
      have hbare : new.keyNode.runtimeParamSet = none := congrArg HuksKeyNode.runtimeParamSet hnode
      rw [hrun]
      have hallocated : e'.allocated = e.allocated + 1 := by
        obtain ⟨_, _, he⟩ := hasked
        rw [he]
        rfl
      refine ⟨_, _, rfl, .prepare (hasked.kept h rfl rfl (Nat.le_succ _)) hid ?_ hbare⟩
      rw [Result.final_ok, hallocated]
      exact Nat.lt_succ_self _
    case inr hp =>
      obtain ⟨_, e', hrun, hasked⟩ := hp
      rw [hrun]
      exact ⟨.returned, _, rfl, .quiet rfl rfl (hasked.kept h rfl rfl (Nat.le_succ _))⟩

theorem NodeCall.exec_same (env : EngineEnv) (call : NodeCall) (n : HuksKeyNode) :
    Preserves (NodeState.Same n) (call.exec env) := by
  have hP := same_fixed n
  cases call
  case update => exact .bind (updateKeyNode_fixed hP env _ _ _) fun _ => .pure _
  case finish => exact .bind (finishKeyNode_fixed hP env _ _ _) fun _ => .pure _
  case abort => exact abortKeyNode_fixed hP env _

theorem hksDeleteKeyNode_kept (h : e.Linked) (handle : UInt64) :
    ∃ e', (hksDeleteKeyNode handle).run e = .ok () e' ∧ NodesKept none e e' := by
  simp only [hksDeleteKeyNode, run_bind, run_get]
  cases hf : e.keyNodes.find? (·.handle = handle)
  case none => exact ⟨e, rfl, .refl h⟩
  case some n =>
    obtain ⟨l₁, l₂, hs, _⟩ := exists_of_find? hf
    obtain ⟨e', hrun, hnodes, linked, _, hallocated, _⟩ := deleteKeyNodeFree_run h hs
    exact ⟨e', hrun, .of_sublist linked (by simp [hnodes, hs]) (Nat.le_of_eq hallocated.symm)⟩

-- Storing the param sets of a new node, and the rest of `HksCoreInit`.
theorem assign_kept (h : e.Linked) (new : NewKeyNode) {α : Type} {x : NodeM α}
    (hx : ∀ n, Preserves (NodeState.Same n) x) :
    NodesKept (some (new.keyNode.id, new.tokenId)) e
      ((do assignParamSets new; onKeyNode new.keyNode.id x : EngineM α).run e).final := by
  let assign (n : HuksKeyNode) : HuksKeyNode :=
    if n.id = new.keyNode.id then
      { n with
        keyBlobParamSet := new.keyBlobParamSet
        runtimeParamSet := new.runtimeParamSet
        authRuntimeParamSet := none }
    else
      n
  have hid (n : HuksKeyNode) : (assign n).id = n.id := by
    simp only [assign]
    split <;> rfl
  have hhandle (n : HuksKeyNode) : (assign n).handle = n.handle := by
    simp only [assign]
    split <;> rfl
  have hids : (e.keyNodes.map assign).map HuksKeyNode.id = e.keyNodes.map HuksKeyNode.id := by
    simp [hid]
  let e₁ : Engine := { e with keyNodes := e.keyNodes.map assign }
  have hlinked : e₁.Linked := h.of_map hids _ _
  refine NodesKept.trans (show NodesKept _ e e₁ from
    ⟨hlinked, by rw [hids], by simp [e₁, Function.comp_def, hhandle], Nat.le_refl _, ?_⟩)
    (onKeyNode_kept hlinked new.keyNode.id hx)
  intro m hm hb
  have ⟨n, hn, hm⟩ := List.mem_map.mp hm
  subst hm
  by_cases hnew : n.id = new.keyNode.id
  case pos =>
    have htoken : (assign n).tokenId = new.tokenId := by
      simp only [assign, if_pos hnew]
      rfl
    exact .inl (by rw [hid, hnew, htoken])
  case neg =>
    have hsame : assign n = n := if_neg hnew
    exact .inr ⟨n, hn, hsame ▸ hb, by rw [hsame], by rw [hsame]⟩

theorem Thread.step_section (env : EngineEnv) (h : e.Linked) (t : Thread) (hu : t.Unlisted e) :
    ∃ t' e', (t.step env).run e = .ok t' e' ∧ t.Section env e t' e' := by
  cases t
  case started call =>
    cases call
    case init key paramSet handleSize tokenSize => exact startInit_section h _ _ _ _
    all_goals exact startQuery_section h _ _ _ _
  case prepared new paramSet tokenSize =>
    obtain ⟨_, e', hrun, _⟩ := addKeyNode_run env new.tokenId h hu.right hu.left
    refine ⟨_, e', ?_, .add hrun⟩
    simp only [step, run_bind, run_attempt, hrun]
    rfl
  case added new paramSet tokenSize =>
    have hkept := assign_kept h new fun n => initKeyNode_same env (n := n) paramSet tokenSize
    obtain ⟨e₁, hassign⟩ : ∃ e₁, (assignParamSets new).run e = .ok () e₁ := ⟨_, rfl⟩
    simp only [step, run_bind, hassign, run_attempt] at hkept ⊢
    cases ((onKeyNode new.keyNode.id (initKeyNode env paramSet tokenSize)).run e₁).toExcept
    case ok => exact ⟨_, _, rfl, .assign rfl hkept⟩
    case error => exact ⟨_, _, rfl, .assign rfl hkept⟩
  case querying sessionId call =>
    simp only [step, hksQueryKeyNode, run_bind, run_get]
    cases hf : e.keyNodes.find? (·.handle = sessionId)
    case none => exact ⟨_, e, rfl, .quiet rfl rfl (.refl h)⟩
    case some n => exact ⟨_, e, rfl, .query (List.mem_of_find?_eq_some hf)⟩
  case queried id handle call =>
    have hkept := onKeyNode_kept h id (call.exec_same env)
    simp only [step, run_bind, run_attempt]
    cases call <;> cases ((onKeyNode id _).run e).toExcept <;>
      exact ⟨_, _, rfl, .work rfl hkept⟩
  case deleting handle =>
    obtain ⟨e', hrun, hkept⟩ := hksDeleteKeyNode_kept h handle
    refine ⟨.returned, e', ?_, .quiet rfl rfl hkept⟩
    simp only [step, run_bind, hrun]
    rfl
  case returned => exact ⟨_, e, by rw [step_returned, run_pure], .quiet rfl rfl (.refl h)⟩

end Step

theorem of_getElem?_set {α : Type} {l : List α} {i j : Nat} {a b : α}
    (h : (l.set i a)[j]? = some b) : j = i ∧ b = a ∨ j ≠ i ∧ l[j]? = some b := by
  rw [List.getElem?_set] at h
  split at h
  case isFalse he => exact .inr ⟨fun hi => he hi.symm, h⟩
  case isTrue he =>
    split at h <;> cases h
    exact .inl ⟨he.symm, rfl⟩

-- The node that a thread is about to list.
def Thread.new : Thread → Option Nat
  | prepared new _ _ => new.keyNode.id
  | _                => none

theorem Thread.unlisted_iff (t : Thread) (e : Engine) :
    t.Unlisted e ↔ ∀ a, t.new = some a → a < e.allocated ∧ ∀ n ∈ e.keyNodes, n.id ≠ a := by
  cases t <;> simp [Unlisted, new]

-- It has no param sets yet.
def Thread.Bare : Thread → Prop
  | prepared new _ _ => new.keyNode.runtimeParamSet = none
  | _                => True

-- The part of a section that the other threads depend on.
structure Thread.Framed (e e' : Engine) (t t' : Thread) : Prop where
  linked    : e'.Linked
  allocated : e.allocated ≤ e'.allocated
  ids       : ∀ n ∈ e'.keyNodes, (∃ m ∈ e.keyNodes, m.id = n.id) ∨ t.new = some n.id
  new       : ∀ a, t'.new = some a → e.allocated ≤ a ∧ a < e'.allocated
  bare      : t'.Bare

theorem NodesKept.mem {assign : Option (Nat × UInt32)} {e e' : Engine} (h : NodesKept assign e e')
    {n : HuksKeyNode} (hn : n ∈ e'.keyNodes) : ∃ m ∈ e.keyNodes, m.id = n.id :=
  List.mem_map.mp <| h.ids.subset <| List.mem_map_of_mem hn

theorem Thread.new_eq_none {t : Thread} (h : t.node = none) : t.new = none := by
  cases t <;> first | rfl | cases h

theorem Thread.bare_of_new {t : Thread} (h : t.new = none) : t.Bare := by
  cases t <;> first | exact trivial | cases h

theorem Thread.Section.framed {env : EngineEnv} {e e' : Engine} {t t' : Thread} (h : e.Linked)
    (hu : t.Unlisted e) (c : t.Section env e t' e') : t.Framed e e' t' := by
  have kept {assign : Option (Nat × UInt32)} {t' : Thread} {e' : Engine} (next : t'.new = none)
      (k : NodesKept assign e e') : t.Framed e e' t' :=
    ⟨k.linked, k.allocated, fun n hn => .inl (k.mem hn),
      fun _ ha => absurd (next.symm.trans ha) nofun, bare_of_new next⟩
  cases c with
  | prepare hkept hid hfresh hbare =>
    refine ⟨hkept.linked, hkept.allocated, fun n hn => .inl (hkept.mem hn), fun a ha => ?_, hbare⟩
    cases ha
    exact ⟨Nat.le_of_eq hid.symm, hid ▸ hfresh⟩
  | @add new _ _ _ hrun =>
    have ⟨s₁, s', hrun', ev, linked, hnodes, hallocated, _⟩ :=
      addKeyNode_run env new.tokenId h hu.right hu.left
    cases hrun.symm.trans hrun'
    refine ⟨linked, Nat.le_of_eq (by rw [hallocated, ev.allocated]), fun n hn => ?_, nofun,
      trivial⟩
    rw [hnodes, List.mem_append, List.mem_singleton] at hn
    cases hn
    case inl hn => exact .inl ⟨n, ev.evicts.sublist.subset hn, rfl⟩
    case inr hn => exact .inr (by rw [hn]; rfl)
  | assign next hkept => exact kept (new_eq_none next) hkept
  | query => exact kept rfl (.refl h)
  | work next hkept => exact kept (new_eq_none next) hkept
  | quiet _ next hkept => exact kept (new_eq_none next) hkept

namespace System

-- What holds of every schedule.
structure WF (s : System) : Prop where
  linked   : s.engine.Linked
  unlisted : ∀ t ∈ s.threads, t.Unlisted s.engine
  bare     : ∀ t ∈ s.threads, t.Bare
  distinct : ∀ (i j : Nat) (t u : Thread) (a : Nat), s.threads[i]? = some t →
    s.threads[j]? = some u → t.new = some a → u.new = some a → i = j

def start (calls : List EngineCall) : System where
  threads := calls.map .started

theorem WF.start (calls : List EngineCall) : (start calls).WF where
  linked   := .init
  unlisted := by
    intro t ht
    have ⟨_, _, ht⟩ := List.mem_map.mp ht
    exact ht ▸ trivial
  bare     := by
    intro t ht
    have ⟨_, _, ht⟩ := List.mem_map.mp ht
    exact ht ▸ trivial
  distinct := by
    intro i _ t _ _ ht _ hn
    have ⟨_, _, ht⟩ := List.mem_map.mp (List.mem_of_getElem? ht)
    subst ht
    cases hn

variable {env : EngineEnv} {s : System} {i : Nat}

theorem step_none (env : EngineEnv) (hi : s.threads[i]? = none) : s.step env i = s := by
  simp only [step, hi]

theorem step_some (env : EngineEnv) (wf : s.WF) {t : Thread} (hi : s.threads[i]? = some t) :
    ∃ t' e', t.Section env s.engine t' e' ∧ s.step env i = {
      engine := e'
      threads := s.threads.set i t'
      evicted := s.evicted ++ s.victims env t
      usedEvicted := s.usedEvicted || t.uses.any (· ∈ s.evicted) } := by
  have ⟨t', e', hrun, c⟩ := t.step_section env wf.linked
    (wf.unlisted t (List.mem_of_getElem? hi))
  refine ⟨t', e', c, ?_⟩
  simp only [step, hi, hrun]

theorem WF.step (wf : s.WF) (i : Nat) : (s.step env i).WF := by
  cases hi : s.threads[i]?
  case none => exact (step_none env hi).symm ▸ wf
  case some t =>
    have ⟨t', e', c, heq⟩ := step_some env wf hi
    have hu := wf.unlisted t (List.mem_of_getElem? hi)
    have f := c.framed wf.linked hu
    rw [heq]
    have hfresh {j : Nat} {u : Thread} {a : Nat} (hj : s.threads[j]? = some u)
        (ha : u.new = some a) : a < s.engine.allocated ∧ ∀ n ∈ s.engine.keyNodes, n.id ≠ a :=
      (u.unlisted_iff _).mp (wf.unlisted u (List.mem_of_getElem? hj)) a ha
    refine ⟨f.linked, fun u hmem => ?_, fun u hmem => ?_, fun j k u v a hj hk hju hkv => ?_⟩
    · have ⟨j, hj⟩ := List.getElem?_of_mem hmem
      rw [Thread.unlisted_iff]
      intro a ha
      rcases of_getElem?_set hj with ⟨rfl, rfl⟩ | ⟨hne, hj⟩
      · have ⟨hle, hlt⟩ := f.new a ha
        refine ⟨hlt, fun n hn he => ?_⟩
        have hold : n.id < s.engine.allocated := by
          rcases f.ids n hn with ⟨m, hm, hid⟩ | hnew
          · exact hid ▸ wf.linked.fresh m hm
          · exact (hfresh hi hnew).left
        omega
      · have ⟨hlt, hn⟩ := hfresh hj ha
        refine ⟨Nat.lt_of_lt_of_le hlt f.allocated, fun n hmem he => ?_⟩
        rcases f.ids n hmem with ⟨m, hm, hid⟩ | hnew
        · exact hn m hm (hid.trans he)
        · exact hne <| wf.distinct j i u t a hj hi ha (he ▸ hnew)
    · rcases List.mem_or_eq_of_mem_set hmem with hmem | rfl
      · exact wf.bare u hmem
      · exact f.bare
    · rcases of_getElem?_set hj with ⟨hji, hut⟩ | ⟨_, hj'⟩ <;>
        rcases of_getElem?_set hk with ⟨hki, hvt⟩ | ⟨_, hk'⟩
      · rw [hji, hki]
      · exact absurd (hfresh hk' hkv).left (Nat.not_lt.mpr (f.new a (hut ▸ hju)).left)
      · exact absurd (hfresh hj' hju).left (Nat.not_lt.mpr (f.new a (hvt ▸ hkv)).left)
      · exact wf.distinct j k u v a hj' hk' hju hkv

theorem WF.run (wf : s.WF) (schedule : List Nat) : (s.run env schedule).WF := by
  induction schedule generalizing s
  case nil => exact wf
  case cons i schedule ih => exact ih (wf.step i)

theorem run_concat (s : System) (schedule : List Nat) (i : Nat) :
    s.run env (schedule ++ [i]) = (s.run env schedule).step env i :=
  List.foldl_concat ..

-- The `i`-th thread is about to run `AddKeyNode`.
def Adds (s : System) (i : Nat) : Prop :=
  ∃ new paramSet tokenSize, s.threads[i]? = some (.prepared new paramSet tokenSize)

-- `AddKeyNode` lists the node without its param sets.
theorem not_sound_of_adds (wf : s.WF) (h : s.Adds i) : ¬(s.step env i).Sound := by
  have ⟨new, paramSet, tokenSize, hi⟩ := h
  have hmem := List.mem_of_getElem? hi
  have hu : Thread.Unlisted s.engine (.prepared new paramSet tokenSize) := wf.unlisted _ hmem
  have hbare : new.keyNode.runtimeParamSet = none := wf.bare _ hmem
  have ⟨t', e', c, heq⟩ := step_some env wf hi
  intro sound
  rw [heq] at sound
  cases c with
  | add hrun =>
    have ⟨_, _, hrun', _, _, hnodes, _⟩ := addKeyNode_run env new.tokenId wf.linked hu.right hu.left
    cases hrun.symm.trans hrun'
    have := (sound.assigned new.keyNode (by simp [hnodes])).right
    rw [hbare] at this
    cases this
  | quiet this => cases this

-- As long as nothing was added there is nothing to find.
structure Empty (s : System) : Prop where
  keyNodes    : s.engine.keyNodes = []
  evicted     : s.evicted = []
  usedEvicted : s.usedEvicted = false

theorem Empty.step (h : s.Empty) (wf : s.WF) (ha : ¬s.Adds i) : (s.step env i).Empty := by
  cases hi : s.threads[i]?
  case none => exact (step_none env hi).symm ▸ h
  case some t =>
    have ⟨t', e', c, heq⟩ := step_some env wf hi
    have f := c.framed wf.linked (wf.unlisted t (List.mem_of_getElem? hi))
    have hnew : t.new = none := by
      cases t <;> first | rfl | exact absurd ⟨_, _, _, hi⟩ ha
    have hvictims : s.victims env t = [] := by
      cases t <;> first | rfl | cases hnew
    rw [heq]
    refine ⟨List.eq_nil_iff_forall_not_mem.mpr fun n hn => ?_, by simp [h.evicted, hvictims], ?_⟩
    · rcases f.ids n hn with ⟨m, hm, _⟩ | hn
      · rw [h.keyNodes] at hm
        cases hm
      · rw [hnew] at hn
        cases hn
    · simp [h.usedEvicted, h.evicted]

theorem Empty.sound (h : s.Empty) (wf : s.WF) : s.Sound where
  assigned := by simp [h.keyNodes]
  count    := wf.linked.count
  capacity := wf.linked.capacity
  quota    := by simp [h.keyNodes]
  handles  := by simp [h.keyNodes]
  unused   := h.usedEvicted

end System

-- The new node of a thread until the thread has stored its param sets.
def Thread.created : Thread → Option NewKeyNode
  | prepared new _ _ | added new _ _ => new
  | _                                => none

theorem Thread.node_of_created {t : Thread} {new : NewKeyNode} (h : t.created = some new) :
    t.node = some new.keyNode.id := by
  cases t <;> cases h <;> rfl

theorem Thread.node_of_uses {t : Thread} {a : Nat} (h : t.uses = some a) : t.node = some a := by
  cases t <;> cases h <;> rfl

namespace System

variable {env : EngineEnv} {s : System} {i : Nat} {token : Nat → UInt32}

-- `AddKeyNode` runs while no other thread has yet to store the param sets of a listed node, it
-- gets a handle that is still unique, and it evicts no node that a thread works on.
def Undisturbed (env : EngineEnv) (s : System) (i : Nat) : Prop :=
  ∀ new paramSet tokenSize, s.threads[i]? = some (.prepared new paramSet tokenSize) →
    (∀ n ∈ s.engine.keyNodes, n.Assigned) ∧
    hksCheckUniqueHandle s.engine.keyNodes new.keyNode.handle ∧
    ∀ t ∈ s.threads, ∀ a, t.uses = some a → a ∉ s.victims env (.prepared new paramSet tokenSize)

-- `token` tells for every node the token that it has or is about to get.
structure Inv (token : Nat → UInt32) (s : System) : Prop extends WF s where
  handles : (s.engine.keyNodes.map HuksKeyNode.handle).Nodup
  tokens  : ∀ n ∈ s.engine.keyNodes, n.Assigned → n.tokenId = token n.id
  created : ∀ t ∈ s.threads, ∀ new, t.created = some new → new.tokenId = token new.keyNode.id
  quota   : ∀ k, (s.engine.keyNodes.map HuksKeyNode.id).countP (token · = k) ≤ maxKeyNodesEachTokenId
  freed   : ∀ a ∈ s.evicted, a < s.engine.allocated ∧ ∀ n ∈ s.engine.keyNodes, n.id ≠ a
  known   : ∀ t ∈ s.threads, ∀ a, t.node = some a → a < s.engine.allocated ∧ a ∉ s.evicted
  unused  : s.usedEvicted = false

theorem Inv.start (calls : List EngineCall) : Inv (fun _ => 0) (start calls) := by
  have hnode : ∀ t ∈ (System.start calls).threads, t.node = none := by
    intro t ht
    have ⟨_, _, ht⟩ := List.mem_map.mp ht
    exact ht ▸ rfl
  refine { WF.start calls with
    handles := by simp [System.start]
    tokens := by simp [System.start]
    created := fun t ht new hnew => ?_
    quota := by simp [System.start]
    freed := by simp [System.start]
    known := fun t ht a ha => ?_
    unused := rfl }
  · have := (hnode t ht).symm.trans (Thread.node_of_created hnew)
    cases this
  · have := (hnode t ht).symm.trans ha
    cases this

-- A fresh node may get any token.
theorem Inv.extend (h : s.Inv token) (v : UInt32) :
    s.Inv (Function.update token s.engine.allocated v) := by
  have hold {a : Nat} (ha : a < s.engine.allocated) :
      Function.update token s.engine.allocated v a = token a :=
    Function.update_of_ne (Nat.ne_of_lt ha) _ _
  refine { h with
    tokens := fun n hn hb => ?_
    created := fun t ht new hnew => ?_
    quota := fun k => ?_ }
  · rw [hold (h.linked.fresh n hn)]
    exact h.tokens n hn hb
  · rw [hold (h.known t ht _ (Thread.node_of_created hnew)).left]
    exact h.created t ht new hnew
  · refine Nat.le_trans (Nat.le_of_eq ?_) (h.quota k)
    refine List.countP_congr fun a ha => ?_
    have ⟨n, hn, hid⟩ := List.mem_map.mp ha
    rw [hold (hid ▸ h.linked.fresh n hn)]

theorem Inv.uses (h : s.Inv token) {t : Thread} (ht : t ∈ s.threads) :
    t.uses.any (· ∈ s.evicted) = false := by
  cases hu : t.uses
  case none => rfl
  case some a => simpa using (h.known t ht a (Thread.node_of_uses hu)).right

-- A section that adds no node.
theorem Inv.kept (h : s.Inv token) {assign : Option (Nat × UInt32)} {e' : Engine} {t t' : Thread}
    (k : NodesKept assign s.engine e') (ht : t ∈ s.threads)
    (ha : ∀ a v, assign = some (a, v) → v = token a)
    (hc : ∀ new, t'.created = some new → new.tokenId = token new.keyNode.id)
    (hk : ∀ a, t'.node = some a → a < e'.allocated ∧ a ∉ s.evicted) (hv : s.victims env t = [])
    (wf : (s.step env i).WF)
    (heq : s.step env i = {
      engine := e'
      threads := s.threads.set i t'
      evicted := s.evicted ++ s.victims env t
      usedEvicted := s.usedEvicted || t.uses.any (· ∈ s.evicted) }) :
    (s.step env i).Inv token := by
  rw [hv, List.append_nil, h.uses ht, h.unused] at heq
  rw [heq] at wf ⊢
  refine { wf with
    handles := h.handles.sublist k.handles
    tokens := fun n hn hb => ?_
    created := fun u hu new hnew => ?_
    quota := fun v => Nat.le_trans k.ids.countP_le (h.quota v)
    freed := fun a hmem => ?_
    known := fun u hu a hn => ?_
    unused := rfl }
  · rcases k.tokens n hn hb with hassign | ⟨m, hm, hb', hid, htoken⟩
    · exact ha _ _ hassign
    · rw [← hid, ← htoken]
      exact h.tokens m hm hb'
  · rcases List.mem_or_eq_of_mem_set hu with hu | rfl
    · exact h.created u hu new hnew
    · exact hc new hnew
  · have ⟨hlt, hunlisted⟩ := h.freed a hmem
    refine ⟨Nat.lt_of_lt_of_le hlt k.allocated, fun n hn => ?_⟩
    have ⟨m, hm, hid⟩ := k.mem hn
    exact hid ▸ hunlisted m hm
  · rcases List.mem_or_eq_of_mem_set hu with hu | rfl
    · have ⟨hlt, hfree⟩ := h.known u hu a hn
      exact ⟨Nat.lt_of_lt_of_le hlt k.allocated, hfree⟩
    · exact hk a hn

-- With all param sets in place the tokens of the listed nodes are the ones they are to have.
theorem Inv.owned (h : s.Inv token) (ha : ∀ n ∈ s.engine.keyNodes, n.Assigned)
    {l : List HuksKeyNode} (hl : l.Sublist s.engine.keyNodes) (k : UInt32) :
    keyNodePolicy.owned l k = (l.map HuksKeyNode.id).countP (token · = k) := by
  rw [Policy.owned, List.countP_map]
  refine List.countP_congr fun n hn => ?_
  have hn := hl.subset hn
  simp [keyNodePolicy, h.tokens n hn (ha n hn)]

theorem Inv.add (h : s.Inv token) {new : NewKeyNode} {paramSet : HksParamSet} {tokenSize : Nat}
    {e' : Engine} (hget : s.threads[i]? = some (.prepared new paramSet tokenSize))
    (hi : (∀ n ∈ s.engine.keyNodes, n.Assigned) ∧
      hksCheckUniqueHandle s.engine.keyNodes new.keyNode.handle ∧
      ∀ t ∈ s.threads, ∀ a, t.uses = some a →
        a ∉ s.victims env (.prepared new paramSet tokenSize))
    (hrun : (addKeyNode env new.keyNode new.tokenId).run s.engine = .ok () e')
    (wf : (s.step env i).WF)
    (heq : s.step env i = {
      engine := e'
      threads := s.threads.set i (.added new paramSet tokenSize)
      evicted := s.evicted ++ s.victims env (.prepared new paramSet tokenSize)
      usedEvicted := s.usedEvicted ||
        (Thread.prepared new paramSet tokenSize).uses.any (· ∈ s.evicted) }) :
    (s.step env i).Inv token := by
  have ht := List.mem_of_getElem? hget
  have ⟨assigned, unique, unused⟩ := hi
  have ⟨hlt, hold⟩ : Thread.Unlisted s.engine (.prepared new paramSet tokenSize) := h.unlisted _ ht
  have hbare : new.keyNode.runtimeParamSet = none := h.bare _ ht
  have htoken : new.tokenId = token new.keyNode.id := h.created _ ht new rfl
  have hknown := h.known _ ht new.keyNode.id rfl
  have ⟨s₁, s', hrun', ev, linked, hnodes, hallocated, _, _, _, share⟩ :=
    addKeyNode_run env new.tokenId h.linked hold hlt
  cases hrun.symm.trans hrun'
  have hsub := ev.evicts.sublist
  have hsame : e'.allocated = s.engine.allocated := hallocated.trans ev.allocated
  have hvictims {a : Nat} (ha : a ∈ s.victims env (.prepared new paramSet tokenSize)) :
      (∃ n ∈ s.engine.keyNodes, n.id = a) ∧ ∀ n ∈ e'.keyNodes, n.id ≠ a := by
    simpa [victims, hrun] using ha
  rw [h.uses ht, h.unused] at heq
  rw [heq] at wf ⊢
  refine { wf with
    handles := ?_
    tokens := fun n hn hb => ?_
    created := fun u hu new' hnew => ?_
    quota := fun k => ?_
    freed := fun a hmem => ?_
    known := fun u hu a hn => ?_
    unused := rfl }
  · rw [hnodes, List.map_append, List.nodup_append]
    refine ⟨h.handles.sublist <| hsub.map _, by simp, ?_⟩
    intro handle hh handle' hn
    have ⟨n, hn', hh⟩ := List.mem_map.mp hh
    have hunique := List.all_eq_true.mp unique n (hsub.subset hn')
    simp only [List.map_cons, List.map_nil, List.mem_singleton] at hn
    subst hn hh
    simpa using hunique
  · rw [hnodes, List.mem_append, List.mem_singleton] at hn
    rcases hn with hn | rfl
    · exact h.tokens n (hsub.subset hn) hb
    · have := hb.right
      rw [hbare] at this
      cases this
  · rcases List.mem_or_eq_of_mem_set hu with hu | rfl
    · exact h.created u hu new' hnew
    · cases hnew
      exact htoken
  · simp only [hnodes, List.map_append, List.map_cons, List.map_nil, List.countP_append,
      List.countP_singleton, decide_eq_true_eq]
    split
    case isFalse => exact Nat.le_trans (hsub.map _).countP_le (h.quota k)
    case isTrue hk =>
      have room := share <| by
        rw [h.owned assigned (.refl _)]
        exact h.quota _
      rw [h.owned assigned hsub, htoken, hk] at room
      exact room
  · rw [hsame]
    rcases List.mem_append.mp hmem with hmem | hmem
    · have ⟨hlt', hunlisted⟩ := h.freed a hmem
      refine ⟨hlt', fun n hn => ?_⟩
      rw [hnodes, List.mem_append, List.mem_singleton] at hn
      rcases hn with hn | rfl
      · exact hunlisted n (hsub.subset hn)
      · exact fun he => hknown.right (he ▸ hmem)
    · have ⟨⟨n, hn, hid⟩, hgone⟩ := hvictims hmem
      exact ⟨hid ▸ h.linked.fresh n hn, hgone⟩
  · rw [hsame]
    -- A new node of a thread is not listed, so it is no victim.
    have notVictim {u : Thread} (hu : u ∈ s.threads) (hnew : u.new = some a) :
        a ∉ s.victims env (.prepared new paramSet tokenSize) := by
      intro hmem
      have ⟨⟨n, hn, hid⟩, _⟩ := hvictims hmem
      exact ((u.unlisted_iff _).mp (h.unlisted u hu) a hnew).right n hn hid
    have old {u : Thread} (hu : u ∈ s.threads) (hn : u.node = some a) :
        a < s.engine.allocated ∧
          a ∉ s.evicted ++ s.victims env (.prepared new paramSet tokenSize) := by
      have ⟨hlt', hfree⟩ := h.known u hu a hn
      refine ⟨hlt', fun hmem => (List.mem_append.mp hmem).elim hfree ?_⟩
      cases u
      case prepared => exact notVictim hu hn
      case added => exact unused _ hu a hn
      case queried => exact unused _ hu a hn
      all_goals cases hn
    rcases List.mem_or_eq_of_mem_set hu with hu | rfl
    · exact old hu hn
    · exact old ht hn

theorem Inv.step (h : s.Inv token) (hi : s.Undisturbed env i) :
    ∃ token', (s.step env i).Inv token' := by
  cases hget : s.threads[i]?
  case none => exact ⟨token, (step_none env hget).symm ▸ h⟩
  case some t =>
    have ht := List.mem_of_getElem? hget
    have ⟨t', e', c, heq⟩ := step_some env h.toWF hget
    have wf : (s.step env i).WF := h.toWF.step i
    have quiet {assign : Option (Nat × UInt32)} (next : t'.node = none)
        (k : NodesKept assign s.engine e') (ha : ∀ a v, assign = some (a, v) → v = token a)
        (hv : s.victims env t = []) : ∃ token', (s.step env i).Inv token' := by
      refine ⟨token, h.kept k ht ha (fun new hnew => ?_) (fun a hn => ?_) hv wf heq⟩
      · exact absurd (next.symm.trans (Thread.node_of_created hnew)) nofun
      · exact absurd (next.symm.trans hn) nofun
    cases c with
    | @prepare _ new _ _ _ hkept hid hfresh _ =>
      refine ⟨_, (h.extend new.tokenId).kept hkept ht nofun (fun _ hnew => ?_) (fun a ha => ?_) rfl wf
        heq⟩
      · cases hnew
        rw [hid, Function.update_self]
      · cases ha
        refine ⟨hid ▸ hfresh, fun hmem => ?_⟩
        exact absurd (h.freed _ hmem).left (Nat.not_lt.mpr (Nat.le_of_eq hid.symm))
    | add hrun => exact ⟨token, h.add hget (hi _ _ _ hget) hrun wf heq⟩
    | @assign new _ _ _ _ next hkept =>
      refine quiet next hkept (fun a v he => ?_) rfl
      cases he
      exact h.created _ ht new rfl
    | @query _ _ n hn =>
      refine ⟨token, h.kept (.refl h.linked) ht nofun (by simp [Thread.created]) (fun a ha => ?_) rfl wf
        heq⟩
      cases ha
      exact ⟨h.linked.fresh n hn, fun hmem => (h.freed _ hmem).right n hn rfl⟩
    | work next hkept => exact quiet next hkept nofun rfl
    | quiet this next hkept =>
      refine quiet next hkept nofun ?_
      cases t <;> first | rfl | cases this

theorem Inv.sound (h : s.Inv token) (ha : ∀ n ∈ s.engine.keyNodes, n.Assigned) : s.Sound where
  assigned := ha
  count    := h.linked.count
  capacity := h.linked.capacity
  quota k  := Nat.le_trans (Nat.le_of_eq (h.owned ha (.refl _) k)) (h.quota k)
  handles  := h.handles
  unused   := h.unused

end System

-- At every point of a schedule the list has at most 32 nodes and its counter is right. The whole
-- guarantee holds as long as no thread adds a node: the node is listed before its param sets are
-- stored. In a schedule in which no other thread disturbs `AddKeyNode`, it is back as soon as the
-- param sets of all nodes are there.
theorem keyNodeTable_interleaved (env : EngineEnv) (calls : List EngineCall) (schedule : List Nat) :
    let s (pre : List Nat) := (System.start calls).run env pre
    ((∀ pre, pre <+: schedule → (s pre).Sound) ↔
      ∀ pre i, pre ++ [i] <+: schedule → ¬(s pre).Adds i) ∧
    (∀ pre, pre <+: schedule →
      (s pre).engine.keyNodeCount.toNat = (s pre).engine.keyNodes.length ∧
      (s pre).engine.keyNodes.length ≤ maxKeyNodesCount) ∧
    ((∀ pre i, pre ++ [i] <+: schedule → (s pre).Undisturbed env i) →
      ∀ pre, pre <+: schedule → (∀ n ∈ (s pre).engine.keyNodes, n.Assigned) → (s pre).Sound) := by
  intro s
  have wf (pre : List Nat) : (s pre).WF := (System.WF.start calls).run pre
  have concat (pre : List Nat) (i : Nat) : s (pre ++ [i]) = (s pre).step env i :=
    System.run_concat _ _ _
  refine ⟨⟨fun sound pre i hpre hadds => ?_, fun hadds pre hpre => ?_⟩,
    fun pre _ => ⟨(wf pre).linked.count, (wf pre).linked.capacity⟩, fun hi pre hpre => ?_⟩
  · exact System.not_sound_of_adds (wf pre) hadds (concat pre i ▸ sound _ hpre)
  · suffices (s pre).Empty from this.sound (wf pre)
    induction pre using List.reverseRecOn
    case nil => exact ⟨rfl, rfl, rfl⟩
    case append_singleton pre i ih =>
      have ih := ih <| (List.prefix_append _ _).trans hpre
      exact concat pre i ▸ ih.step (wf pre) (hadds pre i hpre)
  · suffices ∃ token, (s pre).Inv token from fun ha => this.elim fun _ h => h.sound ha
    induction pre using List.reverseRecOn
    case nil => exact ⟨_, .start calls⟩
    case append_singleton pre i ih =>
      have ⟨_, ih⟩ := ih <| (List.prefix_append _ _).trans hpre
      exact concat pre i ▸ ih.step (hi pre i hpre)

-- Between the two sections of `HksCoreInit` that store the node and its param sets another thread
-- finds the node.
theorem keyNodeTable_unassigned :
    ¬∀ (env : EngineEnv) (calls : List EngineCall) (schedule : List Nat),
      ((System.start calls).run env schedule).Sound := by
  intro h
  let paramSet := scalarParamSet [.ofUInt32 HksTag.purpose HksKeyPurpose.derive]
  have := (h (steadyEnv paramSet)
    [.init [] paramSet 8 32, .abort [0, 0, 0, 0, 0, 0, 0, 0] paramSet] [0, 0, 1, 1]).assigned
  revert this
  decide

end Huks
