import Huks.Engine.KeyNode
import Huks.Lib.QuotaTable

namespace Huks

open QuotaTable

variable {env : EngineEnv}

-- Every node may be evicted.
def keyNodePolicy : Policy HuksKeyNode UInt32 where
  capacity := maxKeyNodesCount
  quota    := maxKeyNodesEachTokenId
  owner    := HuksKeyNode.tokenId
  idle _   := true

-- A batch node whose time is over at a reading of the clock between two ticks.
def EngineEnv.Expired (env : EngineEnv) (t₁ t₂ : Nat) (keyNode : HuksKeyNode) : Prop :=
  keyNode.isBatchOperation ∧ ∃ n curTime, t₁ ≤ n ∧ n < t₂ ∧ env.elapsedRealTime n = .ok curTime ∧
    keyNode.batchOperationTimestamp < curTime

theorem EngineEnv.Expired.mono {t₁ t₂ t₁' t₂' : Nat} {keyNode : HuksKeyNode}
    (h : env.Expired t₁ t₂ keyNode) (h₁ : t₁' ≤ t₁) (h₂ : t₂ ≤ t₂') :
    env.Expired t₁' t₂' keyNode := by
  have ⟨hb, n, curTime, hl, hr, h⟩ := h
  exact ⟨hb, n, curTime, Nat.le_trans h₁ hl, Nat.lt_of_lt_of_le hr h₂, h⟩

namespace Engine

-- What holds of the list between any two operations on it.
structure Linked (s : Engine) : Prop where
  nodup    : (s.keyNodes.map HuksKeyNode.id).Nodup
  fresh    : ∀ keyNode ∈ s.keyNodes, keyNode.id < s.allocated
  capacity : s.keyNodes.length ≤ maxKeyNodesCount
  count    : s.keyNodeCount.toNat = s.keyNodes.length

theorem Linked.init : Linked {} where
  nodup    := by simp
  fresh    := by simp
  capacity := by simp
  count    := rfl

variable {s : Engine}

theorem Linked.remove {l : List HuksKeyNode} (h : s.Linked) (hl : l.Sublist s.keyNodes)
    (hlen : s.keyNodes.length = l.length + 1) (world : World) :
    Linked { s with keyNodes := l, keyNodeCount := s.keyNodeCount - 1, world := world } where
  nodup         := h.nodup.sublist <| hl.map _
  fresh node hn := h.fresh node <| hl.subset hn
  capacity      := Nat.le_trans hl.length_le h.capacity
  count         := by
    have hc := h.count
    simp only
    rw [UInt32.toNat_sub_of_le _ _ (UInt32.le_iff_toNat_le.mpr (by simp; omega))]
    simp
    omega

theorem Linked.append {keyNode : HuksKeyNode} (h : s.Linked)
    (room : s.keyNodes.length < maxKeyNodesCount) (hold : ∀ n ∈ s.keyNodes, n.id ≠ keyNode.id)
    (hnew : keyNode.id < s.allocated) :
    Linked { s with
      keyNodes := s.keyNodes ++ [keyNode]
      keyNodeCount := s.keyNodeCount + 1 } where
  nodup := by
    simp only [List.map_append, List.map_cons, List.map_nil, List.nodup_append]
    refine ⟨h.nodup, by simp, ?_⟩
    simpa using hold
  fresh := by
    intro n hn
    simp only [List.mem_append, List.mem_singleton] at hn
    exact hn.elim (h.fresh n) (· ▸ hnew)
  capacity := by simpa [Nat.succ_le_iff] using room
  count := by
    have := h.count
    simp only [maxKeyNodesCount] at room
    simp [UInt32.toNat_add]
    omega

theorem Linked.malloc (h : s.Linked) : Linked { s with allocated := s.allocated + 1 } where
  nodup         := h.nodup
  fresh node hn := Nat.lt_succ_of_lt <| h.fresh node hn
  capacity      := h.capacity
  count         := h.count

theorem Linked.of_map {keyNodes : List HuksKeyNode} (h : s.Linked)
    (hids : keyNodes.map HuksKeyNode.id = s.keyNodes.map HuksKeyNode.id) (world : World)
    (history : History) :
    Linked { s with keyNodes := keyNodes, world := world, history := history } where
  nodup := hids ▸ h.nodup
  fresh := by
    intro n hn
    have hmem : n.id ∈ s.keyNodes.map HuksKeyNode.id := hids ▸ List.mem_map_of_mem hn
    have ⟨m, hm, hid⟩ := List.mem_map.mp hmem
    exact hid ▸ h.fresh m hm
  capacity := by
    have hlen : keyNodes.length = s.keyNodes.length := by simpa using congrArg List.length hids
    exact hlen ▸ h.capacity
  count := by
    have hlen : keyNodes.length = s.keyNodes.length := by simpa using congrArg List.length hids
    exact hlen ▸ h.count

end Engine

-- The destructor asks the surroundings nothing.
section Destructor

variable {n : Nat}

abbrev CtxState.AtTick (n : Nat) (s : CtxState) : Prop := s.world.tick = n

theorem record_atTick (event : CtxEvent) :
    EStateM.Preserves (CtxState.AtTick n) (World.record event : CtxM Unit) := by
  intro s h
  exact h

theorem useCtx_atTick (routine : CtxKind) :
    EStateM.Preserves (CtxState.AtTick n) (useCtx routine) := by
  apply EStateM.Preserves.get_bind
  intro s h
  split
  case h_1 => exact h
  case h_2 => exact record_atTick _ s h

theorem keyNodeFreeCtx_atTick (purpose alg : UInt32) (hasCalcHash : Bool) :
    EStateM.Preserves (CtxState.AtTick n) (keyNodeFreeCtx purpose alg hasCalcHash) := by
  unfold keyNodeFreeCtx freeCachedData
  split_ifs
  all_goals first | exact useCtx_atTick _ | exact .pure _

theorem freeRuntimeCtx_atTick (paramSet : HksParamSet) :
    EStateM.Preserves (CtxState.AtTick n) (freeRuntimeCtx paramSet) := by
  unfold freeRuntimeCtx freeCachedData
  split
  case h_2 => exact .pure _
  case h_1 =>
    split
    case h_1 => exact .pure _
    case h_2 =>
      split
      case h_1 => exact .pure _
      case h_2 => exact useCtx_atTick _
      case h_3 => exact keyNodeFreeCtx_atTick _ _ _

theorem freeRuntimeParamSet_atTick (paramSet : Option HksParamSet) :
    EStateM.Preserves (CtxState.AtTick n) (freeRuntimeParamSet paramSet) := by
  cases paramSet
  case none => exact .pure _
  case some paramSet =>
    apply EStateM.Preserves.get_bind
    intro s h
    split
    case h_1 => exact (record_atTick _).bind (fun _ => freeRuntimeCtx_atTick _) s h
    case h_2 => exact h

@[simp]
theorem tick_freeNodeParamSets (keyNode : HuksKeyNode) (world : World) :
    (freeNodeParamSets keyNode world).tick = world.tick :=
  freeRuntimeParamSet_atTick keyNode.runtimeParamSet ⟨keyNode.ctx, world⟩ rfl

end Destructor

-- Between `s` and `s'` nodes were only evicted, on behalf of the token `k`.
structure KeyNodesEvicted (env : EngineEnv) (k : UInt32) (s s' : Engine) : Prop where
  linked    : s'.Linked
  evicts    : keyNodePolicy.Evicts (env.Expired s.world.tick s'.world.tick) k s.keyNodes s'.keyNodes
  tick      : s.world.tick ≤ s'.world.tick
  allocated : s'.allocated = s.allocated
  history   : s'.history = s.history

namespace KeyNodesEvicted

variable {k : UInt32} {s t u : Engine}

theorem refl (h : s.Linked) : KeyNodesEvicted env k s s := ⟨h, .refl, Nat.le_refl _, rfl, rfl⟩

theorem trans (h₁ : KeyNodesEvicted env k s t) (h₂ : KeyNodesEvicted env k t u) :
    KeyNodesEvicted env k s u where
  linked    := h₂.linked
  evicts    := (h₁.evicts.mono fun _ h => h.mono (Nat.le_refl _) h₂.tick).trans <|
    h₂.evicts.mono fun _ h => h.mono h₁.tick (Nat.le_refl _)
  tick      := Nat.le_trans h₁.tick h₂.tick
  allocated := h₂.allocated.trans h₁.allocated
  history   := h₂.history.trans h₁.history

end KeyNodesEvicted

variable (env)

-- The node taken out is the one at its address.
theorem deleteKeyNodeFree_run {s : Engine} {l₁ l₂ : List HuksKeyNode} {keyNode : HuksKeyNode}
    (h : s.Linked) (hs : s.keyNodes = l₁ ++ keyNode :: l₂) :
    ∃ s', (deleteKeyNodeFree keyNode).run s = .ok () s' ∧ s'.keyNodes = l₁ ++ l₂ ∧ s'.Linked ∧
      s'.world = freeNodeParamSets keyNode s.world ∧ s'.allocated = s.allocated ∧
      s'.history = s.history := by
  have hn : s.keyNodes.eraseP (·.id = keyNode.id) = l₁ ++ l₂ := by
    rw [hs]
    exact eraseP_addr (hs ▸ h.nodup)
  refine ⟨{ s with
    keyNodes := l₁ ++ l₂
    keyNodeCount := s.keyNodeCount - 1
    world := freeNodeParamSets keyNode s.world }, ?_, rfl, ?_, rfl, rfl, rfl⟩
  · simp [deleteKeyNodeFree, hn]
  · exact h.remove (by simp [hs]) (by simp [hs]; omega) _

theorem deleteKeyNodeFree_evicted {k : UInt32} {s : Engine} {l₁ l₂ : List HuksKeyNode}
    {keyNode : HuksKeyNode} (h : s.Linked) (hs : s.keyNodes = l₁ ++ keyNode :: l₂)
    (e : keyNodePolicy.Evict (env.Expired s.world.tick s.world.tick) k (l₁ ++ keyNode :: l₂)
      (l₁ ++ l₂)) :
    ∃ s', (deleteKeyNodeFree keyNode).run s = .ok () s' ∧ s'.keyNodes = l₁ ++ l₂ ∧
      KeyNodesEvicted env k s s' := by
  have ⟨s', hrun, hnodes, linked, hworld, hallocated, hhistory⟩ := deleteKeyNodeFree_run h hs
  refine ⟨s', hrun, hnodes, linked, ?_, by simp [hworld], hallocated, hhistory⟩
  rw [hnodes, hs, hworld, tick_freeNodeParamSets]
  exact .single e

theorem attempt_hksElapsedRealTime_run (s : Engine) :
    (EStateM.attempt (World.hksElapsedRealTime env : EngineM UInt64)).run s =
      .ok (env.elapsedRealTime s.world.tick)
        { s with world := { s.world with tick := s.world.tick + 1 } } := by
  have h : World.hksElapsedRealTime env s.world =
      match env.elapsedRealTime s.world.tick with
      | .ok curTime => .ok curTime { s.world with tick := s.world.tick + 1 }
      | .error e    => .error e { s.world with tick := s.world.tick + 1 } := by
    simp only [World.hksElapsedRealTime, World.next]
    change (MonadExcept.ofExcept (env.elapsedRealTime s.world.tick) : WorldM UInt64) _ = _
    cases env.elapsedRealTime s.world.tick <;> rfl
  change EStateM.attempt (EStateM.zoom Engine.worldLens (World.hksElapsedRealTime env)) s = _
  simp only [EStateM.attempt, EStateM.zoom, EStateM.run]
  rw [show Engine.worldLens.get s = s.world from rfl, h]
  cases env.elapsedRealTime s.world.tick <;> rfl

theorem deleteFirstTimeOutKeyNode_run {k : UInt32} {rest : List HuksKeyNode} :
    ∀ {s : Engine} {pre : List HuksKeyNode}, s.Linked → s.keyNodes = pre ++ rest →
      maxKeyNodesCount ≤ s.keyNodes.length →
      ∃ s', (deleteFirstTimeOutKeyNode env rest).run s = .ok () s' ∧
        KeyNodesEvicted env k s s' := by
  induction rest
  case nil =>
    intro s pre h _ _
    exact ⟨s, rfl, .refl h⟩
  case cons keyNode rest ih =>
    intro s pre h hs full
    have hs' : s.keyNodes = (pre ++ [keyNode]) ++ rest := by simp [hs]
    unfold deleteFirstTimeOutKeyNode
    split
    case isTrue => exact ih h hs' full
    case isFalse hbatch =>
      let u : Engine := { s with world := { s.world with tick := s.world.tick + 1 } }
      have hu : u.Linked := h.of_map rfl _ _
      have ticked : KeyNodesEvicted env k s u := ⟨hu, .refl, Nat.le_succ _, rfl, rfl⟩
      have next : ∃ s', (deleteFirstTimeOutKeyNode env rest).run u = .ok () s' ∧
          KeyNodesEvicted env k s s' := by
        have ⟨s', hrun, e⟩ := ih (s := u) hu hs' full
        exact ⟨s', hrun, ticked.trans e⟩
      rw [EStateM.run_bind, attempt_hksElapsedRealTime_run]
      cases hclock : env.elapsedRealTime s.world.tick
      case error e => exact next
      case ok curTime =>
        simp only
        split
        case isTrue => exact next
        case isFalse hlate =>
          have ⟨s', hrun, hnodes, linked, hworld, hallocated, hhistory⟩ :=
            deleteKeyNodeFree_run (s := u) hu hs
          refine ⟨s', hrun, linked, ?_, by simp [hworld, u], hallocated, hhistory⟩
          rw [hnodes, hs]
          refine .single <| .stale (hs ▸ full) ⟨by simpa using hbatch, s.world.tick, _,
            Nat.le_refl _, by simp [hworld, u], hclock, by simpa using hlate⟩ rfl

theorem deleteFirstTimeOutBatchKeyNode_run {k : UInt32} {s : Engine} (h : s.Linked) :
    ∃ s', (deleteFirstTimeOutBatchKeyNode env).run s = .ok () s' ∧ KeyNodesEvicted env k s s' := by
  simp only [deleteFirstTimeOutBatchKeyNode, EStateM.run_bind, EStateM.run_get]
  split
  case isTrue => exact ⟨s, rfl, .refl h⟩
  case isFalse full =>
    exact deleteFirstTimeOutKeyNode_run env h (List.nil_append _).symm (by rw [← h.count]; omega)

-- A token at its quota has a first node.
theorem deleteFirstKeyNodeForTokenId_run {tokenId : UInt32} {s : Engine} (h : s.Linked)
    (exceeded : maxKeyNodesEachTokenId ≤ keyNodePolicy.owned s.keyNodes tokenId) :
    ∃ s', (deleteFirstKeyNodeForTokenId tokenId).run s = .ok true s' ∧
      KeyNodesEvicted env tokenId s s' ∧
      keyNodePolicy.owned s'.keyNodes tokenId + 1 = keyNodePolicy.owned s.keyNodes tokenId := by
  simp only [deleteFirstKeyNodeForTokenId, EStateM.run_bind, EStateM.run_get]
  split
  case h_2 hnone =>
    have : keyNodePolicy.owned s.keyNodes tokenId = 0 := by
      rw [Policy.owned, List.countP_eq_zero]
      exact List.find?_eq_none.mp hnone
    rw [this] at exceeded
    exact absurd exceeded (by decide)
  case h_1 keyNode hfind =>
    obtain ⟨l₁, l₂, hs, ho, hl₁⟩ := exists_of_find? hfind
    simp only [decide_eq_true_eq] at ho hl₁
    obtain ⟨s', hrun, hnodes, e⟩ := deleteKeyNodeFree_evicted env (k := tokenId) h hs <|
      .own (hs ▸ exceeded) ho rfl fun y hy howner => absurd howner (hl₁ y hy)
    refine ⟨s', by rw [EStateM.run_bind, hrun]; rfl, e, ?_⟩
    simp [hnodes, hs, Policy.owned, keyNodePolicy, ho, Nat.add_assoc]

theorem owned_le_keyNodes (l : List HuksKeyNode) (k : UInt32) :
    keyNodePolicy.owned l k ≤ l.length :=
  List.countP_le_length

-- One eviction is enough for a token that was within its quota.
theorem deleteKeyNodeForTokenIdIfExceedLimit_run (tokenId : UInt32) {s : Engine} (h : s.Linked) :
    ∃ s', (deleteKeyNodeForTokenIdIfExceedLimit tokenId).run s = .ok () s' ∧
      KeyNodesEvicted env tokenId s s' ∧
      (keyNodePolicy.owned s.keyNodes tokenId ≤ maxKeyNodesEachTokenId →
        keyNodePolicy.owned s'.keyNodes tokenId < maxKeyNodesEachTokenId) := by
  simp only [deleteKeyNodeForTokenIdIfExceedLimit, EStateM.run_bind, EStateM.run_get]
  split
  case isTrue hfew =>
    have := owned_le_keyNodes s.keyNodes tokenId
    exact ⟨s, rfl, .refl h, fun _ => by rw [h.count] at hfew; omega⟩
  case isFalse =>
    split
    case isFalse hown => exact ⟨s, rfl, .refl h, fun _ => Nat.not_le.mp hown⟩
    case isTrue hown =>
      obtain ⟨s', hrun, e, howned⟩ := deleteFirstKeyNodeForTokenId_run env h hown
      exact ⟨s', by simp [hrun], e, fun _ => by omega⟩

theorem deleteFirstKeyNode_run {k : UInt32} {s : Engine} (h : s.Linked)
    (full : maxKeyNodesCount ≤ s.keyNodes.length) :
    ∃ s', deleteFirstKeyNode.run s = .ok true s' ∧ KeyNodesEvicted env k s s' ∧
      s'.keyNodes.length + 1 = s.keyNodes.length := by
  simp only [deleteFirstKeyNode, EStateM.run_bind, EStateM.run_get]
  split
  case h_2 hnil =>
    rw [hnil] at full
    exact absurd full (by decide)
  case h_1 keyNode rest hs =>
    have hevict : keyNodePolicy.Evict (env.Expired s.world.tick s.world.tick) k
        ([] ++ keyNode :: rest) ([] ++ rest) := .oldest (hs ▸ full) rfl (by simp)
    have ⟨s', hrun, hnodes, e⟩ := deleteKeyNodeFree_evicted env h hs hevict
    exact ⟨s', by rw [EStateM.run_bind, hrun]; rfl, e, by simp [hnodes, hs]⟩

-- Everything `AddKeyNode` does: it evicts on behalf of the token, and then it appends the node.
theorem addKeyNode_run (tokenId : UInt32) {keyNode : HuksKeyNode} {s : Engine} (h : s.Linked)
    (hold : ∀ n ∈ s.keyNodes, n.id ≠ keyNode.id) (hnew : keyNode.id < s.allocated) :
    ∃ s₁ s', (addKeyNode env keyNode tokenId).run s = .ok () s' ∧
      KeyNodesEvicted env tokenId s s₁ ∧ s'.Linked ∧ s'.keyNodes = s₁.keyNodes ++ [keyNode] ∧
      s'.allocated = s₁.allocated ∧ s'.world = s₁.world ∧ s'.history = s₁.history ∧
      s₁.keyNodes.length < maxKeyNodesCount ∧
      (keyNodePolicy.owned s.keyNodes tokenId ≤ maxKeyNodesEachTokenId →
        keyNodePolicy.owned s₁.keyNodes tokenId < maxKeyNodesEachTokenId) := by
  simp only [addKeyNode, EStateM.run_bind]
  obtain ⟨s₁, hrun₁, e₁⟩ := deleteFirstTimeOutBatchKeyNode_run env (k := tokenId) h
  simp only [hrun₁]
  obtain ⟨s₂, hrun₂, e₂, hshare⟩ := deleteKeyNodeForTokenIdIfExceedLimit_run env tokenId e₁.linked
  have e₁₂ := e₁.trans e₂
  simp only [hrun₂, EStateM.run_get]
  -- Once the list has room the node goes to its end.
  have append {s₃ : Engine} (e : KeyNodesEvicted env tokenId s₂ s₃)
      (room : s₃.keyNodes.length < maxKeyNodesCount) :
      Engine.Linked { s₃ with
          keyNodes := s₃.keyNodes ++ [keyNode]
          keyNodeCount := s₃.keyNodeCount + 1 } ∧
        (keyNodePolicy.owned s.keyNodes tokenId ≤ maxKeyNodesEachTokenId →
          keyNodePolicy.owned s₃.keyNodes tokenId < maxKeyNodesEachTokenId) := by
    have e' := e₁₂.trans e
    refine ⟨e'.linked.append room ?_ (e'.allocated ▸ hnew), fun hquota => ?_⟩
    · intro n hn
      exact hold n <| e'.evicts.sublist.subset hn
    · have hquota₁ := Nat.le_trans e₁.evicts.sublist.countP_le hquota
      exact Nat.lt_of_le_of_lt e.evicts.sublist.countP_le (hshare hquota₁)
  split
  case isFalse few =>
    have room : s₂.keyNodes.length < maxKeyNodesCount := by rw [← e₂.linked.count]; omega
    obtain ⟨linked, share⟩ := append (.refl e₂.linked) room
    exact ⟨s₂, _, rfl, e₁₂, linked, rfl, rfl, rfl, rfl, room, share⟩
  case isTrue full =>
    obtain ⟨s₃, hrun₃, e₃, hlen⟩ := deleteFirstKeyNode_run env (k := tokenId) e₂.linked
      (e₂.linked.count ▸ full)
    simp only [EStateM.run_bind, hrun₃]
    have room : s₃.keyNodes.length < maxKeyNodesCount := by
      have := e₂.linked.capacity
      omega
    obtain ⟨linked, share⟩ := append e₃ room
    exact ⟨s₃, _, rfl, e₁₂.trans e₃, linked, rfl, rfl, rfl, rfl, room, share⟩

section Create

open Engine EStateM

-- The surroundings were only asked questions.
def Engine.Asked (s s' : Engine) : Prop :=
  ∃ tick, s.world.tick ≤ tick ∧ s' = { s with world := { s.world with tick := tick } }

theorem Engine.Asked.refl (s : Engine) : s.Asked s := ⟨s.world.tick, Nat.le_refl _, rfl⟩

theorem Engine.Asked.trans {s t u : Engine} (h₁ : s.Asked t) (h₂ : t.Asked u) : s.Asked u := by
  have ⟨m, hm, ht⟩ := h₁
  have ⟨n, hn, hu⟩ := h₂
  subst ht
  exact ⟨n, Nat.le_trans hm hn, hu⟩

theorem Engine.Asked.keyNodes {s s' : Engine} (h : s.Asked s') : s'.keyNodes = s.keyNodes := by
  have ⟨_, _, h⟩ := h
  rw [h]

theorem Engine.Asked.linked {s s' : Engine} (h : s.Asked s') (hl : s.Linked) : s'.Linked := by
  have ⟨_, _, h⟩ := h
  exact h ▸ hl.of_map rfl _ _

theorem fillRandom_final (size : Nat) (w : World) :
    ((World.fillRandom env size).run w).final = { w with tick := w.tick + 1 } := by
  simp only [World.fillRandom, World.hal, World.next, run_bind, run_modifyGet]
  cases env.hal w.tick (.fillRandom size) <;> rfl

theorem fillRandom_asked (size : Nat) (s : Engine) :
    s.Asked ((World.fillRandom env size : EngineM Bytes).run s).final := by
  refine ⟨s.world.tick + 1, Nat.le_succ _, ?_⟩
  change ((zoom Engine.worldLens (World.fillRandom env size)).run s).final = _
  rw [final_zoom]
  change { s with world := ((World.fillRandom env size).run s.world).final } = _
  rw [fillRandom_final]

theorem generateKeyNodeHandle_run (n : Nat) : ∀ s : Engine,
    s.Asked ((generateKeyNodeHandle env n).run s).final ∧
      ∀ handle s', (generateKeyNodeHandle env n).run s = .ok handle s' →
        hksCheckUniqueHandle s.keyNodes handle := by
  induction n
  case zero =>
    intro s
    exact ⟨.refl s, fun _ _ h => by cases h⟩
  case succ n ih =>
    intro s
    have hasked := fillRandom_asked env 4 s
    simp only [generateKeyNodeHandle, EStateM.run_bind]
    cases hr : (World.fillRandom env 4 : EngineM Bytes).run s
    case error e s₁ =>
      rw [hr] at hasked
      exact ⟨hasked, fun _ _ h => by cases h⟩
    case ok bytes s₁ =>
      rw [hr] at hasked
      have hnodes : s₁.keyNodes = s.keyNodes := hasked.keyNodes
      simp only [EStateM.run_get]
      split
      case isTrue hunique =>
        refine ⟨hasked, fun handle s' h => ?_⟩
        cases h
        exact hnodes ▸ hunique
      case isFalse =>
        have ⟨hasked', hunique⟩ := ih s₁
        exact ⟨hasked.trans hasked', fun handle s' h => hnodes ▸ hunique handle s' h⟩

theorem prepareKeyNode_run (key : Bytes) (paramSet : HksParamSet) (s : Engine) :
    (∃ new s', (prepareKeyNode env key paramSet).run s = .ok new s' ∧
        Asked { s with allocated := s.allocated + 1 } s' ∧
        new.keyNode = { id := s.allocated, handle := new.keyNode.handle } ∧
        hksCheckUniqueHandle s.keyNodes new.keyNode.handle ∧
        buildRuntimeParamSet paramSet = .ok new.runtimeParamSet) ∨
      ∃ e s', (prepareKeyNode env key paramSet).run s = .error e s' ∧
        Asked { s with allocated := s.allocated + 1 } s' := by
  simp only [prepareKeyNode, mallocKeyNode, run_bind, run_modifyGet]
  have ⟨hasked, hunique⟩ := generateKeyNodeHandle_run env maxRetryCheckUniqueHandleTime
    { s with allocated := s.allocated + 1 }
  cases hr : (generateKeyNodeHandle env maxRetryCheckUniqueHandleTime).run
    { s with allocated := s.allocated + 1 }
  case error e s₁ =>
    rw [hr] at hasked
    exact .inr ⟨e, s₁, rfl, hasked⟩
  case ok handle s₁ =>
    rw [hr] at hasked
    simp only
    cases hb : buildRuntimeParamSet (some paramSet)
    case error e => exact .inr ⟨e, s₁, rfl, hasked⟩
    case ok runtimeParamSet =>
      let s₂ : Engine := { s₁ with world := { s₁.world with tick := s₁.world.tick + 1 } }
      have hasked₂ : Asked { s with allocated := s.allocated + 1 } s₂ :=
        hasked.trans ⟨_, Nat.le_succ _, rfl⟩
      have hnext : (World.next : EngineM Nat).run s₁ = .ok s₁.world.tick s₂ := rfl
      simp only [run_ofExcept_ok, hnext]
      cases hk : env.getKeyBlobParamSet s₁.world.tick key
      case error e => exact .inr ⟨e, s₂, rfl, hasked₂⟩
      case ok keyBlobParamSet =>
        exact .inl ⟨_, s₂, rfl, hasked₂, rfl, hunique handle s₁ hr, rfl⟩

-- The table between two calls.
structure Engine.WF (s : Engine) : Prop extends Linked s where
  handles : (s.keyNodes.map HuksKeyNode.handle).Nodup
  within  : keyNodePolicy.Within s.keyNodes

theorem Engine.WF.init : WF {} where
  toLinked := .init
  handles  := by simp
  within   := .nil

-- The listed node once its param sets are there.
def NewKeyNode.listed (new : NewKeyNode) : HuksKeyNode :=
  { new.keyNode with
    keyBlobParamSet := new.keyBlobParamSet
    runtimeParamSet := new.runtimeParamSet
    authRuntimeParamSet := none }

structure KeyNodeCreated (env : EngineEnv) (paramSet : HksParamSet) (new : NewKeyNode)
    (s s' : Engine) : Prop where
  linked    : s'.Linked
  insert    : keyNodePolicy.Insert (env.Expired s.world.tick s'.world.tick) new.tokenId new.listed
    s.keyNodes s'.keyNodes
  bare      : new.keyNode = { id := s.allocated, handle := new.keyNode.handle }
  unique    : hksCheckUniqueHandle s.keyNodes new.keyNode.handle
  build     : buildRuntimeParamSet paramSet = .ok new.runtimeParamSet
  allocated : s'.allocated = s.allocated + 1
  history   : s'.history = s.history

theorem hksCreateKeyNode_run (key : Bytes) (paramSet : HksParamSet) {s : Engine}
    (wf : s.WF) :
    (∃ new s', (hksCreateKeyNode env key paramSet).run s = .ok new.keyNode s' ∧
        KeyNodeCreated env paramSet new s s') ∨
      ∃ e s', (hksCreateKeyNode env key paramSet).run s = .error e s' ∧
        Asked { s with allocated := s.allocated + 1 } s' := by
  simp only [hksCreateKeyNode, run_bind]
  cases prepareKeyNode_run env key paramSet s
  case inr h =>
    have ⟨e, s', hrun, hasked⟩ := h
    exact .inr ⟨e, s', by rw [hrun], hasked⟩
  case inl h =>
    have ⟨new, s₁, hrun, ⟨tick, htick, hs₁⟩, hbare, hunique, hbuild⟩ := h
    have hid := congrArg HuksKeyNode.id hbare
    have hold : ∀ n ∈ s.keyNodes, n.id ≠ new.keyNode.id := by
      intro n hn
      exact Nat.ne_of_lt (hid ▸ wf.fresh n hn)
    have linked : s₁.Linked := Asked.linked ⟨tick, htick, hs₁⟩ wf.malloc
    have hnodes : s₁.keyNodes = s.keyNodes := by rw [hs₁]
    have ⟨s₂, s₃, hadd, e, linked₃, hnodes₃, hallocated, hworld, hhistory, room, share⟩ :=
      addKeyNode_run env new.tokenId linked (hnodes ▸ hold) (by rw [hs₁, hid]; exact Nat.lt_succ_self _)
    have hids : ∀ n ∈ s₂.keyNodes, n.id ≠ new.keyNode.id := by
      intro n hn
      exact hold n <| hnodes ▸ e.evicts.sublist.subset hn
    have hassign : s₃.keyNodes.map (fun keyNode =>
        if keyNode.id = new.keyNode.id then
          { keyNode with
            keyBlobParamSet := some new.keyBlobParamSet
            runtimeParamSet := some new.runtimeParamSet
            authRuntimeParamSet := none }
        else
          keyNode) = s₂.keyNodes ++ [new.listed] := by
      rw [hnodes₃, List.map_append, List.map_cons, if_pos rfl]
      congr 1
      exact (List.map_congr_left fun n hn => if_neg (hids n hn)).trans (List.map_id' _)
    refine .inl ⟨new, { s₃ with keyNodes := s₂.keyNodes ++ [new.listed] }, ?_, ?_⟩
    · rw [hrun]
      simp only
      rw [hadd]
      simp only [assignParamSets, run_modify, hassign]
      rfl
    · refine ⟨linked₃.of_map (by rw [hnodes₃]; simp [NewKeyNode.listed]) _ _, ⟨_, ?_, rfl, room, ?_⟩,
        hbare, hunique, hbuild, ?_, ?_⟩
      · rw [← hnodes]
        refine e.evicts.mono fun _ h => h.mono ?_ (Nat.le_of_eq (by rw [hworld]))
        rw [hs₁]
        exact htick
      · apply share
        rw [hnodes]
        exact wf.within.quota _
      · rw [hallocated, e.allocated, hs₁]
      · rw [hhistory, e.history, hs₁]

-- The listed node differs from the ones before it.
theorem KeyNodeCreated.wf {env : EngineEnv} {paramSet : HksParamSet} {new : NewKeyNode}
    {s s' : Engine} (c : KeyNodeCreated env paramSet new s s') (wf : s.WF) : s'.WF where
  toLinked := c.linked
  handles  := by
    have ⟨l₁, evicts, hl, _⟩ := c.insert.evicts
    rw [hl, List.map_append, List.nodup_append]
    refine ⟨wf.handles.sublist <| evicts.sublist.map _, by simp, ?_⟩
    intro handle hh handle' hn
    have ⟨n, hn', hh⟩ := List.mem_map.mp hh
    have hunique := List.all_eq_true.mp c.unique n (evicts.sublist.subset hn')
    simp only [List.map_cons, List.map_nil, List.mem_singleton] at hn
    subst hn hh
    simpa [NewKeyNode.listed] using hunique
  within   := c.insert.within wf.within rfl

end Create

end Huks
