import Huks.Service.SessionManager
import Huks.Lib.QuotaTable
import Huks.Lib.StateError

namespace Huks

open QuotaTable

variable {σ : Type} {env : SessionEnv σ}

def sessionPolicy : Policy HksOperation UInt64 where
  capacity := maxOperationsCount
  quota    := maxOperationsEachTokenId
  owner    := HksOperation.accessTokenId
  idle o   := !o.isInUse

-- A batch operation whose time is over at a reading of the clock between two ticks.
def SessionEnv.Expired (env : SessionEnv σ) (t₁ t₂ : Nat) (o : HksOperation) : Prop :=
  o.isBatchOperation ∧ ∃ n curTime, t₁ ≤ n ∧ n < t₂ ∧ env.elapsedRealTime n = .ok curTime ∧
    o.batchOperationTimestamp < curTime

theorem SessionEnv.Expired.mono {t₁ t₂ t₁' t₂' : Nat} {o : HksOperation}
    (h : env.Expired t₁ t₂ o) (h₁ : t₁' ≤ t₁) (h₂ : t₂ ≤ t₂') : env.Expired t₁' t₂' o := by
  have ⟨hb, n, curTime, hl, hr, h⟩ := h
  exact ⟨hb, n, curTime, Nat.le_trans h₁ hl, Nat.lt_of_lt_of_le hr h₂, h⟩

namespace Sessions

structure WF (s : Sessions σ) : Prop where
  nodup    : (s.operations.map HksOperation.addr).Nodup
  fresh    : ∀ o ∈ s.operations, o.addr < s.tick
  capacity : s.operations.length ≤ maxOperationsCount
  count    : s.operationCount.toNat = s.operations.length

theorem WF.init (engine : σ) : WF { engine := engine } where
  nodup    := by simp
  fresh    := by simp
  capacity := by simp
  count    := rfl

theorem WF.remove {s : Sessions σ} {l : List HksOperation} (wf : s.WF) (h : l.Sublist s.operations)
    (hl : s.operations.length = l.length + 1) (engine : σ) :
    WF { s with engine := engine, operations := l, operationCount := s.operationCount - 1 } where
  nodup    := wf.nodup.sublist <| h.map _
  fresh o ho := wf.fresh o <| h.subset ho
  capacity := Nat.le_trans h.length_le wf.capacity
  count    := by
    have hc := wf.count
    simp only
    rw [UInt32.toNat_sub_of_le _ _ (UInt32.le_iff_toNat_le.mpr (by simp; omega))]
    simp
    omega

end Sessions

open Sessions

theorem Sessions.WF.tick {s : Sessions σ} (wf : s.WF) : WF { s with tick := s.tick + 1 } where
  nodup      := wf.nodup
  fresh o ho := Nat.lt_succ_of_lt <| wf.fresh o ho
  capacity   := wf.capacity
  count      := wf.count

-- Deleting sessions aborts their handles in the engine, one after the other.
def SessionEnv.abortAll (env : SessionEnv σ) (victims : List HksOperation) (engine : σ) : σ :=
  victims.foldl (fun engine o => env.huksAccessAbort o.handle engine) engine

-- What left the table between `s` and `s'` was aborted in the engine.
def Aborted (env : SessionEnv σ) (s s' : Sessions σ) : Prop :=
  ∃ victims, s'.engine = env.abortAll victims s.engine ∧
    ∀ o ∈ s.operations, o ∈ s'.operations ∨ o ∈ victims

theorem Aborted.refl (s : Sessions σ) : Aborted env s s := ⟨[], rfl, fun _ => .inl⟩

theorem Aborted.trans {s t u : Sessions σ} (h₁ : Aborted env s t) (h₂ : Aborted env t u) :
    Aborted env s u := by
  have ⟨v₁, e₁, m₁⟩ := h₁
  have ⟨v₂, e₂, m₂⟩ := h₂
  refine ⟨v₁ ++ v₂, by simp [e₂, e₁, SessionEnv.abortAll], ?_⟩
  intro o ho
  have := m₁ o ho
  have := m₂ o
  grind

-- Between `s` and `s'` operations were only evicted, on behalf of the token `k`.
structure Evicted (env : SessionEnv σ) (k : UInt64) (s s' : Sessions σ) : Prop where
  wf      : s'.WF
  evicts  : sessionPolicy.Evicts (env.Expired s.tick s'.tick) k s.operations s'.operations
  aborted : Aborted env s s'
  tick    : s.tick ≤ s'.tick

namespace Evicted

variable {k : UInt64} {s t u : Sessions σ}

theorem refl (wf : s.WF) : Evicted env k s s := ⟨wf, .refl, .refl s, Nat.le_refl _⟩

theorem trans (h₁ : Evicted env k s t) (h₂ : Evicted env k t u) : Evicted env k s u where
  wf      := h₂.wf
  evicts  := (h₁.evicts.mono fun _ h => h.mono (Nat.le_refl _) h₂.tick).trans <|
    h₂.evicts.mono fun _ h => h.mono h₁.tick (Nat.le_refl _)
  aborted := h₁.aborted.trans h₂.aborted
  tick    := Nat.le_trans h₁.tick h₂.tick

end Evicted

variable (env)

theorem deleteKeyNodeAndDecreaseGlobalCount_run {s : Sessions σ} {l₁ l₂ : List HksOperation}
    {o : HksOperation} (wf : s.WF) (h : s.operations = l₁ ++ o :: l₂) :
    ∃ s', (deleteKeyNodeAndDecreaseGlobalCount env o).run s = .ok () s' ∧
      s'.operations = l₁ ++ l₂ ∧ Aborted env s s' ∧ s'.tick = s.tick ∧ s'.WF := by
  have hn : s.operations.eraseP (·.addr = o.addr) = l₁ ++ l₂ := by
    rw [h]
    exact eraseP_addr (h ▸ wf.nodup)
  refine ⟨{ s with
    engine := env.huksAccessAbort o.handle s.engine
    operations := l₁ ++ l₂
    operationCount := s.operationCount - 1 }, ?_, rfl, ⟨[o], rfl, ?_⟩, rfl, ?_⟩
  · simp [deleteKeyNodeAndDecreaseGlobalCount, deleteKeyNode, freeOperation, hn]
  · intro p hp
    rw [h] at hp
    simp at hp ⊢
    grind
  · exact wf.remove (by simp [h]) (by simp [h]; omega) _

theorem deleteFirstTimeOut_run {k : UInt64} {rest : List HksOperation} :
    ∀ {s : Sessions σ} {pre : List HksOperation}, s.WF → s.operations = pre ++ rest →
      maxOperationsCount ≤ s.operations.length →
      ∃ s', (deleteFirstTimeOut env rest).run s = .ok () s' ∧ Evicted env k s s' := by
  induction rest
  case nil =>
    intro s pre wf _ _
    exact ⟨s, rfl, .refl wf⟩
  case cons o rest ih =>
    intro s pre wf hs full
    have hs' : s.operations = (pre ++ [o]) ++ rest := by simp [hs]
    unfold deleteFirstTimeOut
    split
    case isTrue => exact ih wf hs' full
    case isFalse hbatch =>
      have next := ih (s := { s with tick := s.tick + 1 }) wf.tick hs' full
      have ticked : Evicted env k s { s with tick := s.tick + 1 } :=
        ⟨wf.tick, .refl, ⟨[], rfl, fun _ => .inl⟩, Nat.le_succ _⟩
      simp only [hksElapsedRealTime, EStateM.run_bind, EStateM.run_modifyGet]
      cases hclock : env.elapsedRealTime s.tick
      case error e =>
        have ⟨s', hrun, e⟩ := next
        exact ⟨s', hrun, ticked.trans e⟩
      case ok curTime =>
        split
        case h_1 h => cases h
        case h_2 h =>
          cases h
          split
          case isTrue =>
            have ⟨s', hrun, e⟩ := next
            exact ⟨s', hrun, ticked.trans e⟩
          case isFalse hlate =>
            simp only [not_or, Bool.not_eq_true] at hlate
            have ⟨s', hrun, hops, haborted, htick, wf'⟩ :=
              deleteKeyNodeAndDecreaseGlobalCount_run env wf.tick hs
            refine ⟨s', hrun, wf', ?_, haborted, by simp [htick]⟩
            rw [hops, hs]
            refine .single <| .stale (hs ▸ full) ⟨by simpa using hbatch, s.tick, _,
              Nat.le_refl _, by simp [htick], hclock, ?_⟩ ?_
            · simpa using hlate.left
            · simp [sessionPolicy, hlate.right]

theorem deleteFirstTimeOutBatchOperation_run {k : UInt64} {s : Sessions σ} (wf : s.WF) :
    ∃ s', (deleteFirstTimeOutBatchOperation env).run s = .ok () s' ∧ Evicted env k s s' := by
  simp only [deleteFirstTimeOutBatchOperation, EStateM.run_bind, EStateM.run_get]
  split
  case isTrue => exact ⟨s, rfl, .refl wf⟩
  case isFalse full =>
    exact deleteFirstTimeOut_run env wf (List.nil_append _).symm (by rw [← wf.count]; omega)

theorem deleteFirstAbortableOperationForTokenId_run {tokenId : UInt32} {s : Sessions σ} (wf : s.WF)
    (exceeded : maxOperationsEachTokenId ≤ sessionPolicy.owned s.operations tokenId.toUInt64) :
    ∃ b s', (deleteFirstAbortableOperationForTokenId env tokenId).run s = .ok b s' ∧
      Evicted env tokenId.toUInt64 s s' ∧
      (b → sessionPolicy.owned s'.operations tokenId.toUInt64 + 1 =
        sessionPolicy.owned s.operations tokenId.toUInt64) ∧
      (¬b → ∀ o ∈ s.operations, o.accessTokenId = tokenId.toUInt64 → o.isInUse) := by
  simp only [deleteFirstAbortableOperationForTokenId, EStateM.run_bind, EStateM.run_get]
  split
  case h_2 hfind =>
    refine ⟨false, s, rfl, .refl wf, (fun h => by cases h), fun _ o ho hk => ?_⟩
    simpa [hk] using List.find?_eq_none.mp hfind o ho
  case h_1 o hfind =>
    obtain ⟨l₁, l₂, hs, ho, hl₁⟩ := exists_of_find? hfind
    simp only [Bool.not_eq_true, Bool.decide_and, Bool.and_eq_true, decide_eq_true_eq] at ho hl₁
    obtain ⟨s', hrun, hops, haborted, htick, wf'⟩ :=
      deleteKeyNodeAndDecreaseGlobalCount_run env wf hs
    refine ⟨true, s', by rw [EStateM.run_bind, hrun]; rfl, ⟨wf', ?_, haborted, by simp [htick]⟩,
      fun _ => ?_, fun h => absurd rfl h⟩
    · rw [hops, hs]
      refine .single <| .own (hs ▸ exceeded) ho.left (by simp [sessionPolicy, ho.right]) ?_
      intro y hy howner
      have := hl₁ y hy
      simp_all [sessionPolicy]
    · simp [hops, hs, Policy.owned, sessionPolicy, ho.left, Nat.add_assoc]

theorem owned_le_length (l : List HksOperation) (k : UInt64) : sessionPolicy.owned l k ≤ l.length :=
  List.countP_le_length

-- So many operations are in use, of the token or of all, that none can make room.
def Sessions.Crowded (s : Sessions σ) (tokenId : UInt64) : Prop :=
  maxOperationsEachTokenId ≤ s.operations.countP (fun o => o.accessTokenId = tokenId ∧ o.isInUse) ∨
    maxOperationsCount ≤ s.operations.countP (·.isInUse)

theorem Sessions.Crowded.of_sublist {s s' : Sessions σ} {tokenId : UInt64} (h : s'.Crowded tokenId)
    (hs : s'.operations.Sublist s.operations) : s.Crowded tokenId :=
  h.imp (Nat.le_trans · hs.countP_le) (Nat.le_trans · hs.countP_le)

-- One eviction is enough for a token that was within its quota.
theorem deleteForTokenIdIfExceedLimit_run (tokenId : UInt32) {s : Sessions σ} (wf : s.WF) :
    ∃ s', Evicted env tokenId.toUInt64 s s' ∧
      ((deleteForTokenIdIfExceedLimit env tokenId).run s = .ok () s' ∧
          (sessionPolicy.owned s.operations tokenId.toUInt64 ≤ maxOperationsEachTokenId →
            sessionPolicy.owned s'.operations tokenId.toUInt64 < maxOperationsEachTokenId) ∨
        s.Crowded tokenId.toUInt64 ∧
          ∃ e, (deleteForTokenIdIfExceedLimit env tokenId).run s = .error e s') := by
  simp only [deleteForTokenIdIfExceedLimit, EStateM.run_bind, EStateM.run_get]
  split
  case isTrue hfew =>
    have := owned_le_length s.operations tokenId.toUInt64
    exact ⟨s, .refl wf, .inl ⟨rfl, fun _ => by rw [wf.count] at hfew; omega⟩⟩
  case isFalse =>
    split
    case isFalse hown => exact ⟨s, .refl wf, .inl ⟨rfl, fun _ => Nat.not_le.mp hown⟩⟩
    case isTrue hown =>
      obtain ⟨b, s', hrun, hevicted, howned, hbusy⟩ :=
        deleteFirstAbortableOperationForTokenId_run env wf hown
      refine ⟨s', hevicted, ?_⟩
      cases b
      case false =>
        refine .inr ⟨.inl (Nat.le_trans hown (List.countP_mono_left fun o ho hk => ?_)),
          .sessionReachedLimit, by simp [hrun]⟩
        have hk : o.accessTokenId = tokenId.toUInt64 := by simpa using hk
        simpa [hk] using hbusy (fun h => by cases h) o ho hk
      case true => exact .inl ⟨by simp [hrun], fun _ => by have := howned rfl; omega⟩

theorem deleteFirstAbortableOperation_run {k : UInt64} {s : Sessions σ} (wf : s.WF)
    (full : maxOperationsCount ≤ s.operations.length) :
    ∃ b s', (deleteFirstAbortableOperation env).run s = .ok b s' ∧ Evicted env k s s' ∧
      (b → s'.operations.length + 1 = s.operations.length) ∧ (¬b → s.Crowded k) := by
  simp only [deleteFirstAbortableOperation, EStateM.run_bind, EStateM.run_get]
  split
  case h_2 hfind =>
    refine ⟨false, s, rfl, .refl wf, (fun h => by cases h), fun _ => .inr ?_⟩
    have : s.operations.countP (·.isInUse) = s.operations.length :=
      List.countP_eq_length.mpr <| by simpa using hfind
    rwa [this]
  case h_1 o hfind =>
    obtain ⟨l₁, l₂, hs, ho, hl₁⟩ := exists_of_find? hfind
    obtain ⟨s', hrun, hops, haborted, htick, wf'⟩ :=
      deleteKeyNodeAndDecreaseGlobalCount_run env wf hs
    refine ⟨true, s', by rw [EStateM.run_bind, hrun]; rfl, ⟨wf', ?_, haborted, by simp [htick]⟩,
      fun _ => by simp [hops, hs, Nat.add_assoc], fun h => absurd rfl h⟩
    rw [hops, hs]
    exact .single <| .oldest (hs ▸ full) ho hl₁

theorem Sessions.WF.append {s : Sessions σ} {o : HksOperation} (wf : s.WF)
    (room : s.operations.length < maxOperationsCount) (hold : ∀ p ∈ s.operations, p.addr ≠ o.addr)
    (hnew : o.addr < s.tick) :
    WF { s with operations := s.operations ++ [o], operationCount := s.operationCount + 1 } where
  nodup := by
    simp only [List.map_append, List.map_cons, List.map_nil, List.nodup_append]
    refine ⟨wf.nodup, by simp, ?_⟩
    simpa using hold
  fresh := by
    intro p hp
    simp only [List.mem_append, List.mem_singleton] at hp
    exact hp.elim (wf.fresh p) (· ▸ hnew)
  capacity := by simpa [Nat.succ_le_iff] using room
  count := by
    have := wf.count
    simp only [maxOperationsCount] at room
    simp [UInt32.toNat_add]
    omega

-- Everything `AddOperation` does: it evicts on behalf of the shortened token id, and if it
-- succeeds it appends the operation to a table with room for it.
theorem addOperation_run {o : HksOperation} {s : Sessions σ} (wf : s.WF)
    (hold : ∀ p ∈ s.operations, p.addr ≠ o.addr) (hnew : o.addr < s.tick) :
    ∃ s₁ s', Evicted env o.accessTokenId.toUInt32.toUInt64 s s₁ ∧ s'.WF ∧
      ((addOperation env o).run s = .ok () s' ∧ s'.operations = s₁.operations ++ [o] ∧
          s'.engine = s₁.engine ∧ s'.tick = s₁.tick ∧
          s₁.operations.length < maxOperationsCount ∧
          (sessionPolicy.owned s.operations o.accessTokenId.toUInt32.toUInt64 ≤
              maxOperationsEachTokenId →
            sessionPolicy.owned s₁.operations o.accessTokenId.toUInt32.toUInt64 <
              maxOperationsEachTokenId) ∨
        s' = s₁ ∧ s.Crowded o.accessTokenId.toUInt32.toUInt64 ∧
          ∃ e, (addOperation env o).run s = .error e s') := by
  simp only [addOperation, EStateM.run_bind]
  obtain ⟨s₁, hrun₁, e₁⟩ := deleteFirstTimeOutBatchOperation_run env
    (k := o.accessTokenId.toUInt32.toUInt64) wf
  simp only [hrun₁]
  obtain ⟨s₂, e₂, hrun₂⟩ := deleteForTokenIdIfExceedLimit_run env o.accessTokenId.toUInt32 e₁.wf
  have e₁₂ := e₁.trans e₂
  cases hrun₂
  case inr h =>
    obtain ⟨crowded, e, h⟩ := h
    exact ⟨s₂, s₂, e₁₂, e₁₂.wf, .inr ⟨rfl, crowded.of_sublist e₁.evicts.sublist, e, by simp [h]⟩⟩
  case inl h =>
    obtain ⟨hrun₂, hshare⟩ := h
    simp only [hrun₂, EStateM.run_get]
    -- Once the table has room the operation goes to its end.
    have append {s₃ : Sessions σ} (e : Evicted env o.accessTokenId.toUInt32.toUInt64 s₂ s₃)
        (room : s₃.operations.length < maxOperationsCount) :
        WF { s₃ with
            operations := s₃.operations ++ [o]
            operationCount := s₃.operationCount + 1 } ∧
          (sessionPolicy.owned s.operations o.accessTokenId.toUInt32.toUInt64 ≤
              maxOperationsEachTokenId →
            sessionPolicy.owned s₃.operations o.accessTokenId.toUInt32.toUInt64 <
              maxOperationsEachTokenId) := by
      have e' := e₁₂.trans e
      refine ⟨e'.wf.append room ?_ (Nat.lt_of_lt_of_le hnew e'.tick), fun hquota => ?_⟩
      · intro p hp
        exact hold p <| e'.evicts.sublist.subset hp
      · have hquota₁ := Nat.le_trans e₁.evicts.sublist.countP_le hquota
        exact Nat.lt_of_le_of_lt e.evicts.sublist.countP_le (hshare hquota₁)
    split
    case isFalse few =>
      have room : s₂.operations.length < maxOperationsCount := by rw [← e₂.wf.count]; omega
      obtain ⟨wf', share⟩ := append (.refl e₂.wf) room
      exact ⟨s₂, _, e₁₂, wf', .inl ⟨rfl, rfl, rfl, rfl, room, share⟩⟩
    case isTrue full =>
      obtain ⟨b, s₃, hrun₃, e₃, hlen, crowded⟩ := deleteFirstAbortableOperation_run env
        (k := o.accessTokenId.toUInt32.toUInt64) e₂.wf (e₂.wf.count ▸ full)
      simp only [EStateM.run_bind, hrun₃]
      cases b
      case false =>
        exact ⟨s₃, s₃, e₁₂.trans e₃, e₃.wf,
          .inr ⟨rfl, (crowded (fun h => by cases h)).of_sublist e₁₂.evicts.sublist, _, rfl⟩⟩
      case true =>
        have room : s₃.operations.length < maxOperationsCount := by
          have := hlen rfl
          have := e₂.wf.capacity
          omega
        obtain ⟨wf', share⟩ := append e₃ room
        exact ⟨s₃, _, e₁₂.trans e₃, wf', .inl ⟨rfl, rfl, rfl, rfl, room, share⟩⟩

-- The fields that are set before the batch time is read from the param set.
structure SameSession (o o' : HksOperation) : Prop where
  addr          : o'.addr = o.addr
  handle        : o'.handle = o.handle
  userId        : o'.userId = o.userId
  processName   : o'.processName = o.processName
  accessTokenId : o'.accessTokenId = o.accessTokenId
  isInUse       : o'.isInUse = o.isInUse

theorem addBatchTime_sameSession {curTime : UInt64} {ps : List HksParam} :
    ∀ {o o' : HksOperation} {findOperation findTimeout : Bool},
      addBatchTime curTime o findOperation findTimeout ps = .ok o' → SameSession o o' := by
  induction ps
  case nil =>
    intro o o' findOperation _ h
    unfold addBatchTime at h
    split at h <;> cases h <;> constructor <;> rfl
  case cons p ps ih =>
    intro o o' findOperation _ h
    unfold addBatchTime at h
    split at h
    case isTrue =>
      have e := ih h
      exact ⟨e.addr, e.handle, e.userId, e.processName, e.accessTokenId, e.isInUse⟩
    case isFalse =>
      split at h
      case isTrue =>
        split at h
        case isTrue => cases h
        case isFalse =>
          have e := ih h
          exact ⟨e.addr, e.handle, e.userId, e.processName, e.accessTokenId, e.isInUse⟩
      case isFalse =>
        split at h
        case isTrue =>
          cases h
          constructor <;> rfl
        case isFalse => exact ih h

theorem addBatchTime_ok {curTime : UInt64} {ps : List HksParam}
    (h : ∀ p ∈ ps, p.tag = HksTag.batchOperationTimeout → p.uint32Param.toUInt64 ≤ maxBatchTimeOut) :
    ∀ (o : HksOperation) (findOperation findTimeout : Bool),
      ∃ o', addBatchTime curTime o findOperation findTimeout ps = .ok o' := by
  induction ps
  case nil =>
    intro o findOperation findTimeout
    unfold addBatchTime
    split <;> exact ⟨_, rfl⟩
  case cons p ps ih =>
    intro o findOperation findTimeout
    have ih := ih fun q hq => h q (List.mem_cons_of_mem _ hq)
    unfold addBatchTime
    split
    case isTrue => exact ih _ _ _
    case isFalse =>
      split
      case isTrue htag =>
        have := UInt64.not_lt.mpr (h p List.mem_cons_self htag)
        rw [if_neg this]
        exact ih _ _ _
      case isFalse =>
        split
        case isTrue => exact ⟨_, rfl⟩
        case isFalse => exact ih _ _ _

-- The clock can be read, as the n-th answer, and the batch does not ask for too much time.
structure BatchTimeFits (env : SessionEnv σ) (paramSet : HksParamSet) (n : Nat) : Prop where
  clock   : ∃ curTime, env.elapsedRealTime n = .ok curTime
  timeout : ∀ p ∈ paramSet.params, p.tag = HksTag.batchOperationTimeout →
    p.uint32Param.toUInt64 ≤ maxBatchTimeOut

theorem hksAddBatchTimeToOperation_run (paramSet : HksParamSet) (o : HksOperation)
    (s : Sessions σ) :
    (∃ o', (hksAddBatchTimeToOperation env paramSet o).run s =
        .ok o' { s with tick := s.tick + 1 } ∧ SameSession o o') ∨
      ¬BatchTimeFits env paramSet s.tick ∧ ∃ e, (hksAddBatchTimeToOperation env paramSet o).run s =
        .error e { s with tick := s.tick + 1 } := by
  simp only [hksAddBatchTimeToOperation, hksElapsedRealTime, EStateM.run_bind, EStateM.run_modifyGet]
  cases hclock : env.elapsedRealTime s.tick
  case error e =>
    refine .inr ⟨fun fits => ?_, e, rfl⟩
    have ⟨_, h⟩ := fits.clock
    cases hclock.symm.trans h
  case ok curTime =>
    simp only [EStateM.run_ofExcept_ok]
    cases hb : addBatchTime curTime _ false false paramSet.params
    case error e =>
      refine .inr ⟨fun fits => ?_, e, rfl⟩
      obtain ⟨_, h⟩ := addBatchTime_ok fits.timeout _ _ _
      cases hb.symm.trans h
    case ok o' =>
      have e := addBatchTime_sameSession hb
      exact .inl ⟨o', rfl, e.addr, e.handle, e.userId, e.processName, e.accessTokenId, e.isInUse⟩

-- What `CreateOperation` adds to the table.
structure IsSessionOf (processInfo : HksProcessInfo) (operationHandle : Bytes) (o : HksOperation) :
    Prop where
  handle        : constructOperationHandle operationHandle = .ok o.handle
  userId        : o.userId = processInfo.userId
  processName   : o.processName = processInfo.processName
  accessTokenId : o.accessTokenId = processInfo.accessTokenId
  isInUse       : o.isInUse = false

-- What `CreateOperation` needs before it looks for room; the clock is read as the n-th answer.
structure Constructible (env : SessionEnv σ) (processInfo : HksProcessInfo)
    (paramSet : Option HksParamSet) (operationHandle : Bytes) (n : Nat) : Prop where
  userId      : mallocOk processInfo.userId.length
  processName : mallocOk processInfo.processName.length
  handle      : ∃ handle, constructOperationHandle operationHandle = .ok handle
  batchTime   : ∀ s, paramSet = some s → BatchTimeFits env s n

-- Either nothing but the clock moved, or `AddOperation` ran on the new operation.
theorem createOperation_eq (processInfo : HksProcessInfo) (paramSet : Option HksParamSet)
    (operationHandle : Bytes) (abortable : Bool) (s : Sessions σ) :
    (∃ e n, s.tick < n ∧ ¬Constructible env processInfo paramSet operationHandle (s.tick + 1) ∧
        (createOperation env processInfo paramSet operationHandle abortable).run s =
          .error e { s with tick := n }) ∨
      ∃ o n, IsSessionOf processInfo operationHandle o ∧ o.addr = s.tick ∧ s.tick < n ∧
        (createOperation env processInfo paramSet operationHandle abortable).run s =
          (addOperation env o).run { s with tick := n } := by
  simp only [createOperation, EStateM.run_bind, EStateM.run_modifyGet, constructOperationProcessInfo]
  split
  case h_2 e s' h =>
    split at h
    case isTrue => cases h
    case isFalse hmalloc =>
      cases h
      exact .inl ⟨_, _, Nat.lt_succ_self _, fun c => hmalloc ⟨c.userId, c.processName⟩, rfl⟩
  case h_1 o s' h =>
    split at h <;> cases h
    cases hh : constructOperationHandle operationHandle
    case error e =>
      refine .inl ⟨e, _, Nat.lt_succ_self _, fun c => ?_, rfl⟩
      have ⟨_, h⟩ := c.handle
      cases hh.symm.trans h
    case ok handle =>
      simp only [EStateM.run_ofExcept_ok]
      split
      case h_1 =>
        exact .inr ⟨_, _, ⟨hh, rfl, rfl, rfl, rfl⟩, rfl, Nat.lt_succ_self _, rfl⟩
      case h_2 paramSet =>
        have hb := hksAddBatchTimeToOperation_run env paramSet
          ⟨s.tick, processInfo.userId, processInfo.processName, handle, abortable,
            processInfo.accessTokenId, false, 0, false, false, 0⟩ { s with tick := s.tick + 1 }
        cases hb
        case inr h =>
          have ⟨hfits, e, hrun⟩ := h
          refine .inl ⟨e, s.tick + 2, by omega, fun c => hfits (c.batchTime _ rfl), ?_⟩
          rw [EStateM.run_bind, hrun]
        case inl h =>
          have ⟨o', hrun, e⟩ := h
          rw [EStateM.run_bind, hrun]
          have hn : s.tick < s.tick + 1 + 1 := by omega
          cases hksGetParam paramSet HksTag.specificUserId
          case error =>
            exact .inr ⟨o', _, ⟨e.handle ▸ hh, e.userId, e.processName, e.accessTokenId, e.isInUse⟩,
              e.addr, hn, rfl⟩
          case ok p =>
            refine .inr ⟨{ o' with
              isUserIdPassedDuringInit := true
              userIdPassedDuringInit := p.int32Param }, _, ?_, e.addr, hn, rfl⟩
            exact ⟨e.handle ▸ hh, e.userId, e.processName, e.accessTokenId, e.isInUse⟩

theorem Sessions.WF.at_tick {s : Sessions σ} {n : Nat} (wf : s.WF) (h : s.tick < n) :
    WF { s with tick := n } where
  nodup      := wf.nodup
  fresh o ho := Nat.lt_trans (wf.fresh o ho) h
  capacity   := wf.capacity
  count      := wf.count

theorem createOperation_run (processInfo : HksProcessInfo) (paramSet : Option HksParamSet)
    (operationHandle : Bytes) (abortable : Bool) {s : Sessions σ} (wf : s.WF) :
    ∃ s₁ s', Evicted env processInfo.accessTokenId.toUInt32.toUInt64 s s₁ ∧ s'.WF ∧
      ((createOperation env processInfo paramSet operationHandle abortable).run s = .ok () s' ∧
          (∃ o, IsSessionOf processInfo operationHandle o ∧ s.tick ≤ o.addr ∧
            s'.operations = s₁.operations ++ [o]) ∧ s'.engine = s₁.engine ∧ s'.tick = s₁.tick ∧
          s₁.operations.length < maxOperationsCount ∧
          (sessionPolicy.owned s.operations processInfo.accessTokenId.toUInt32.toUInt64 ≤
              maxOperationsEachTokenId →
            sessionPolicy.owned s₁.operations processInfo.accessTokenId.toUInt32.toUInt64 <
              maxOperationsEachTokenId) ∨
        s' = s₁ ∧ (Constructible env processInfo paramSet operationHandle (s.tick + 1) →
          s.Crowded processInfo.accessTokenId.toUInt32.toUInt64) ∧ ∃ e,
          (createOperation env processInfo paramSet operationHandle abortable).run s = .error e s') := by
  cases createOperation_eq env processInfo paramSet operationHandle abortable s
  case inl h =>
    have ⟨e, n, hn, hc, hrun⟩ := h
    have hwf := wf.at_tick hn
    exact ⟨_, _, ⟨hwf, .refl, ⟨[], rfl, fun _ => .inl⟩, Nat.le_of_lt hn⟩, hwf,
      .inr ⟨rfl, fun c => absurd c hc, e, hrun⟩⟩
  case inr h =>
    have ⟨o, n, ho, haddr, hn, hrun⟩ := h
    have hwf := wf.at_tick hn
    have ⟨s₁, s', e, wf', h⟩ := addOperation_run env (o := o) hwf
      (fun p hp => Nat.ne_of_lt (haddr ▸ wf.fresh p hp)) (by simp only; omega)
    have e : Evicted env o.accessTokenId.toUInt32.toUInt64 s s₁ :=
      ⟨e.wf, e.evicts.mono fun _ h => h.mono (Nat.le_of_lt hn) (Nat.le_refl _), e.aborted,
        Nat.le_trans (Nat.le_of_lt hn) e.tick⟩
    rw [hrun, ← ho.accessTokenId]
    refine ⟨s₁, s', e, wf', h.imp (fun h => ?_) fun ⟨hs, crowded, h⟩ => ⟨hs, fun _ => crowded, h⟩⟩
    have ⟨hok, hops, hengine, htick, room, share⟩ := h
    exact ⟨hok, ⟨o, ho, Nat.le_of_eq haddr.symm, hops⟩, hengine, htick, room, share⟩

theorem Sessions.WF.mark {s : Sessions σ} (wf : s.WF) (addr : Nat) (b : Bool) :
    EStateM.Result.final ((markOperation addr b).run s) |>.WF where
  nodup := by
    have : ((s.operations.map fun o => if o.addr = addr then { o with isInUse := b } else o).map
        HksOperation.addr) = s.operations.map HksOperation.addr := by
      rw [List.map_map]
      congr 1
      funext o
      simp only [Function.comp_apply]
      split <;> rfl
    simpa [markOperation, this] using wf.nodup
  fresh := by
    intro o ho
    simp only [markOperation, EStateM.run_modify, EStateM.Result.final_ok, List.mem_map] at ho ⊢
    have ⟨p, hp, ho⟩ := ho
    have := wf.fresh p hp
    split at ho <;> subst ho <;> exact this
  capacity := by simpa [markOperation] using wf.capacity
  count := by simpa [markOperation] using wf.count

-- Between `s` and `s'` only idle operations were removed.
structure Removed (s s' : Sessions σ) : Prop where
  wf      : s'.WF
  sublist : s'.operations.Sublist s.operations
  inUse   : ∀ o ∈ s.operations, o.isInUse → o ∈ s'.operations

theorem Removed.refl {s : Sessions σ} (wf : s.WF) : Removed s s := ⟨wf, .refl _, fun _ h _ => h⟩

theorem Removed.trans {s t u : Sessions σ} (h₁ : Removed s t) (h₂ : Removed t u) : Removed s u :=
  ⟨h₂.wf, h₂.sublist.trans h₁.sublist, fun o ho hu => h₂.inUse o (h₁.inUse o ho hu) hu⟩

theorem Removed.of_split {s s' : Sessions σ} {l₁ l₂ : List HksOperation} {o : HksOperation}
    (h : s.operations = l₁ ++ o :: l₂) (h' : s'.operations = l₁ ++ l₂) (idle : ¬o.isInUse)
    (wf : s'.WF) : Removed s s' := by
  refine ⟨wf, by simp [h, h'], ?_⟩
  intro p hp hu
  rw [h] at hp
  rw [h']
  grind

theorem deleteOperation_run (operationHandle : Bytes) {s : Sessions σ} (wf : s.WF) :
    ∃ s', (deleteOperation operationHandle).run s = .ok () s' ∧ s'.engine = s.engine ∧
      Removed s s' := by
  unfold deleteOperation
  cases constructOperationHandle operationHandle
  case error => exact ⟨s, rfl, rfl, .refl wf⟩
  case ok handle =>
    simp only [EStateM.run_bind, EStateM.run_get]
    split
    case h_1 => exact ⟨s, rfl, rfl, .refl wf⟩
    case h_2 o hfind =>
      split
      case isTrue => exact ⟨s, rfl, rfl, .refl wf⟩
      case isFalse idle =>
        have ⟨l₁, l₂, hs, _, _⟩ := exists_of_find? hfind
        have hn : s.operations.eraseP (·.addr = o.addr) = l₁ ++ l₂ := by
          rw [hs]
          exact eraseP_addr (hs ▸ wf.nodup)
        refine ⟨_, rfl, rfl, .of_split hs hn idle ?_⟩
        have := wf.remove (l := l₁ ++ l₂) (by simp [hs]) (by simp [hs]; omega) s.engine
        simpa [hn] using this

theorem deleteSession_run (processInfo : HksProcessInfo) {s : Sessions σ} {o : HksOperation}
    {pre rest : List HksOperation} (wf : s.WF) (hs : s.operations = pre ++ o :: rest) :
    ∃ s' pre', (deleteSession env processInfo o).run s = .ok () s' ∧
      s'.operations = pre' ++ rest ∧ Aborted env s s' ∧ Removed s s' := by
  have kept : ∃ pre', s.operations = pre' ++ rest ∧ Aborted env s s ∧ Removed s s :=
    ⟨pre ++ [o], by simp [hs], .refl s, .refl wf⟩
  unfold deleteSession
  split
  case isTrue =>
    have ⟨pre', h⟩ := kept
    exact ⟨s, pre', rfl, h⟩
  case isFalse idle =>
    split
    case isFalse =>
      have ⟨pre', h⟩ := kept
      exact ⟨s, pre', rfl, h⟩
    case isTrue =>
      have ⟨s', hrun, hops, haborted, _, wf'⟩ :=
        deleteKeyNodeAndDecreaseGlobalCount_run env wf hs
      exact ⟨s', pre, hrun, hops, haborted, .of_split hs hops idle wf'⟩

-- The loop keeps a prefix of the list and still has the suffix `rest` to visit.
theorem deleteSessions_run (processInfo : HksProcessInfo) {rest : List HksOperation} :
    ∀ {s : Sessions σ} {pre : List HksOperation}, s.WF → s.operations = pre ++ rest →
      ∃ s', (rest.forM (deleteSession env processInfo)).run s = .ok () s' ∧ Aborted env s s' ∧
        Removed s s' := by
  induction rest
  case nil =>
    intro s _ wf _
    exact ⟨s, rfl, .refl s, .refl wf⟩
  case cons o rest ih =>
    intro s pre wf hs
    have ⟨s₁, pre', hrun, hops, haborted, hremoved⟩ :=
      deleteSession_run env processInfo wf hs
    have ⟨s', hrun', haborted', hremoved'⟩ := ih hremoved.wf hops
    refine ⟨s', ?_, haborted.trans haborted', hremoved.trans hremoved'⟩
    rw [List.forM, EStateM.run_bind, hrun]
    exact hrun'

theorem deleteSessionByProcessInfo_run (processInfo : HksProcessInfo) {s : Sessions σ} (wf : s.WF) :
    ∃ s', (deleteSessionByProcessInfo env processInfo).run s = .ok () s' ∧ Aborted env s s' ∧
      Removed s s' :=
  deleteSessions_run env processInfo wf (List.nil_append _).symm

end Huks
