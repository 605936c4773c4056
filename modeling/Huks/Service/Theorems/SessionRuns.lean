import Mathlib.Algebra.Ring.Nat
import Huks.Service.Theorems.SessionTable

namespace Huks

open QuotaTable

variable {σ : Type} {env : SessionEnv σ}

-- A call into the session manager.
inductive SessionCall
  | create (processInfo : HksProcessInfo) (paramSet : Option HksParamSet) (operationHandle : Bytes)
    (abortable : Bool)
  | queryAndMarkInUse (processInfo : HksProcessInfo) (operationHandle : Bytes)
  | markUnUse (addr : Nat)
  | delete (operationHandle : Bytes)
  | deleteByProcessInfo (processInfo : HksProcessInfo)

namespace SessionCall

def step (env : SessionEnv σ) (s : Sessions σ) : SessionCall → Sessions σ
  | create processInfo paramSet operationHandle abortable =>
    (createOperation env processInfo paramSet operationHandle abortable |>.run s).final
  | queryAndMarkInUse processInfo operationHandle =>
    (queryOperationAndMarkInUse processInfo operationHandle |>.run s).final
  | markUnUse addr => (markOperationUnUse addr |>.run s).final
  | delete operationHandle => (deleteOperation operationHandle |>.run s).final
  | deleteByProcessInfo processInfo => (deleteSessionByProcessInfo env processInfo |>.run s).final

-- The access token id survives `AddOperation`'s conversion to `uint32_t`.
def TokenFits : SessionCall → Prop
  | create processInfo _ _ _ => processInfo.accessTokenId.toNat < 2 ^ 32
  | _ => True

end SessionCall

def Sessions.run (env : SessionEnv σ) (s : Sessions σ) (calls : List SessionCall) : Sessions σ :=
  calls.foldl (SessionCall.step env) s

theorem toUInt64_toUInt32 {tokenId : UInt64} (h : tokenId.toNat < 2 ^ 32) :
    tokenId.toUInt32.toUInt64 = tokenId := by
  rw [← UInt64.toNat_inj]
  simp only [UInt32.toNat_toUInt64, UInt64.toNat_toUInt32]
  omega

-- Marking keeps every operation but for its flag.
theorem mem_markOperation (addr : Nat) (b : Bool) {s : Sessions σ} {o : HksOperation}
    (h : o ∈ s.operations) :
    ∃ o' ∈ ((markOperation addr b).run s).final.operations, o'.addr = o.addr := by
  refine ⟨_, List.mem_map_of_mem h, ?_⟩
  split <;> rfl

theorem owned_markOperation (addr : Nat) (b : Bool) (s : Sessions σ) (k : UInt64) :
    sessionPolicy.owned ((markOperation addr b).run s).final.operations k =
      sessionPolicy.owned s.operations k := by
  simp only [markOperation, EStateM.run_modify, EStateM.Result.final_ok, Policy.owned,
    List.countP_map, sessionPolicy]
  congr 1
  funext o
  simp only [Function.comp_apply]
  split <;> rfl

-- A query leaves the table alone or marks one operation.
theorem queryOperationAndMarkInUse_run (processInfo : HksProcessInfo) (operationHandle : Bytes)
    (s : Sessions σ) :
    (queryOperationAndMarkInUse processInfo operationHandle).run s = .ok none s ∨
      ∃ o ∈ s.operations, o.isInUse = false ∧
        (queryOperationAndMarkInUse processInfo operationHandle).run s =
          .ok (some { o with isInUse := true }) ((markOperation o.addr true).run s).final := by
  unfold queryOperationAndMarkInUse
  cases constructOperationHandle operationHandle
  case error => exact .inl rfl
  case ok handle =>
    simp only [EStateM.run_bind, EStateM.run_get]
    split
    case h_1 => exact .inl rfl
    case h_2 o hfind =>
      split
      case isTrue => exact .inl rfl
      case isFalse idle => exact .inr ⟨o, List.mem_of_find?_eq_some hfind, by simpa using idle, rfl⟩

theorem SessionCall.step_wf {s : Sessions σ} (wf : s.WF) (c : SessionCall) : (c.step env s).WF := by
  cases c
  case create processInfo paramSet operationHandle abortable =>
    have ⟨_, s', _, wf', h⟩ := createOperation_run env processInfo paramSet operationHandle
      abortable wf
    cases h
    case inl h => simpa [step, h.left] using wf'
    case inr h =>
      have ⟨_, _, e, hrun⟩ := h
      simpa [step, hrun] using wf'
  case queryAndMarkInUse processInfo operationHandle =>
    cases queryOperationAndMarkInUse_run processInfo operationHandle s
    case inl h => simpa [step, h] using wf
    case inr h =>
      have ⟨o, _, _, hrun⟩ := h
      simpa [step, hrun] using wf.mark o.addr true
  case markUnUse addr => exact wf.mark addr false
  case delete operationHandle =>
    have ⟨s', hrun, _, h⟩ := deleteOperation_run operationHandle wf
    simpa [step, hrun] using h.wf
  case deleteByProcessInfo processInfo =>
    have ⟨s', hrun, _, h⟩ := deleteSessionByProcessInfo_run env processInfo wf
    simpa [step, hrun] using h.wf

-- No call removes an operation that is in use.
theorem SessionCall.step_inUse {s : Sessions σ} (wf : s.WF) (c : SessionCall) {o : HksOperation}
    (ho : o ∈ s.operations) (hu : o.isInUse) : ∃ o' ∈ (c.step env s).operations, o'.addr = o.addr := by
  have hi : ¬sessionPolicy.idle o := by simp [sessionPolicy, hu]
  cases c
  case create processInfo paramSet operationHandle abortable =>
    obtain ⟨_, s', e, wf', h⟩ := createOperation_run env processInfo paramSet operationHandle
      abortable wf
    have hmem := e.evicts.mem ho hi
    refine ⟨o, ?_, rfl⟩
    cases h
    case inl h =>
      obtain ⟨hrun, ⟨_, _, _, hops⟩, _⟩ := h
      simpa [step, hrun, hops] using .inl hmem
    case inr h =>
      obtain ⟨hs, _, e, hrun⟩ := h
      simpa [step, hrun, hs] using hmem
  case queryAndMarkInUse processInfo operationHandle =>
    cases queryOperationAndMarkInUse_run processInfo operationHandle s
    case inl h => exact ⟨o, by simpa [step, h] using ho, rfl⟩
    case inr h =>
      obtain ⟨p, _, _, hrun⟩ := h
      simpa [step, hrun] using mem_markOperation p.addr true ho
  case markUnUse addr => exact mem_markOperation addr false ho
  case delete operationHandle =>
    obtain ⟨s', hrun, _, h⟩ := deleteOperation_run operationHandle wf
    exact ⟨o, by simpa [step, hrun] using h.inUse o ho hu, rfl⟩
  case deleteByProcessInfo processInfo =>
    obtain ⟨s', hrun, _, h⟩ := deleteSessionByProcessInfo_run env processInfo wf
    exact ⟨o, by simpa [step, hrun] using h.inUse o ho hu, rfl⟩

theorem SessionCall.step_within {s : Sessions σ} (wf : s.WF) (within : sessionPolicy.Within s.operations)
    (c : SessionCall) (fits : c.TokenFits) : sessionPolicy.Within (c.step env s).operations := by
  cases c
  case create processInfo paramSet operationHandle abortable =>
    obtain ⟨_, s', e, wf', h⟩ := createOperation_run env processInfo paramSet operationHandle
      abortable wf
    cases h
    case inl h =>
      obtain ⟨hrun, ⟨o, ho, _, hops⟩, _, _, room, share⟩ := h
      have within' := within.sublist e.evicts.sublist
      have share := share (within.quota _)
      rw [toUInt64_toUInt32 fits, ← ho.accessTokenId] at share
      simpa [step, hrun, hops] using within'.push room share
    case inr h =>
      obtain ⟨hs, _, _, hrun⟩ := h
      simpa [step, hrun, hs] using within.sublist e.evicts.sublist
  case queryAndMarkInUse processInfo operationHandle =>
    cases queryOperationAndMarkInUse_run processInfo operationHandle s
    case inl h => simpa [step, h] using within
    case inr h =>
      obtain ⟨o, _, _, hrun⟩ := h
      refine ⟨?_, fun k => ?_⟩
      · simpa [step, hrun, markOperation] using within.capacity
      · simpa [step, hrun, owned_markOperation] using within.quota k
  case markUnUse addr =>
    refine ⟨?_, fun k => ?_⟩
    · simpa [step, markOperationUnUse, markOperation] using within.capacity
    · simpa [step, markOperationUnUse, owned_markOperation] using within.quota k
  case delete operationHandle =>
    obtain ⟨s', hrun, _, h⟩ := deleteOperation_run operationHandle wf
    simpa [step, hrun] using within.sublist h.sublist
  case deleteByProcessInfo processInfo =>
    obtain ⟨s', hrun, _, h⟩ := deleteSessionByProcessInfo_run env processInfo wf
    simpa [step, hrun] using within.sublist h.sublist

theorem Sessions.run_wf (env : SessionEnv σ) {s : Sessions σ} (wf : s.WF) (within : sessionPolicy.Within s.operations)
    {calls : List SessionCall} (fits : ∀ c ∈ calls, c.TokenFits) :
    (s.run env calls).WF ∧ sessionPolicy.Within (s.run env calls).operations := by
  induction calls generalizing s
  case nil => exact ⟨wf, within⟩
  case cons c calls ih =>
    exact ih (c.step_wf wf) (c.step_within wf within (fits c (by simp)))
      fun d hd => fits d (by simp [hd])

-- The operations that one `CreateOperation` removes are evicted for one of the three reasons on
-- behalf of the caller's own token.
theorem SessionCall.create_evicts {s : Sessions σ} (wf : s.WF) {processInfo : HksProcessInfo}
    {paramSet : Option HksParamSet} {operationHandle : Bytes} {abortable : Bool}
    (fits : processInfo.accessTokenId.toNat < 2 ^ 32) :
    let s' := (create processInfo paramSet operationHandle abortable).step env s
    ∃ kept added, sessionPolicy.Evicts (env.Expired s.tick s'.tick) processInfo.accessTokenId
      s.operations kept ∧ s'.operations = kept ++ added := by
  have ⟨s₁, s', e, wf', h⟩ := createOperation_run env processInfo paramSet operationHandle
    abortable wf
  have hevicts := e.evicts
  rw [toUInt64_toUInt32 fits] at hevicts
  cases h
  case inl h =>
    have ⟨hrun, ⟨o, _, _, hops⟩, _, htick, _⟩ := h
    exact ⟨s₁.operations, [o], by simpa [step, hrun, htick] using hevicts, by simp [step, hrun, hops]⟩
  case inr h =>
    have ⟨hs, _, _, hrun⟩ := h
    exact ⟨s₁.operations, [], by simpa [step, hrun, hs] using hevicts, by simp [step, hrun, hs]⟩

-- The table in every state that a run from the empty table reaches.
theorem sessionTable_invariant (env : SessionEnv σ) (engine : σ) (calls : List SessionCall)
    (fits : ∀ c ∈ calls, c.TokenFits) :
    let s := Sessions.run env { engine := engine } calls
    s.operationCount.toNat = s.operations.length ∧
    s.operations.length ≤ maxOperationsCount ∧
    (∀ tokenId, s.operations.countP (·.accessTokenId = tokenId) ≤ maxOperationsEachTokenId) ∧
    (∀ c : SessionCall, ∀ o ∈ s.operations, o.isInUse →
      ∃ o' ∈ (c.step env s).operations, o'.addr = o.addr) ∧
    ∀ processInfo paramSet operationHandle abortable, processInfo.accessTokenId.toNat < 2 ^ 32 →
      let s' := (SessionCall.create processInfo paramSet operationHandle abortable).step env s
      ∃ kept added, sessionPolicy.Evicts (env.Expired s.tick s'.tick) processInfo.accessTokenId
        s.operations kept ∧ s'.operations = kept ++ added := by
  have ⟨wf, within⟩ := Sessions.run_wf env (.init engine) Policy.Within.nil fits
  exact ⟨wf.count, wf.capacity, within.quota, fun c _ ho hu => c.step_inUse wf ho hu,
    fun _ _ _ _ h => SessionCall.create_evicts wf h⟩

def steadySessions : SessionEnv Unit := ⟨fun _ => .ok 0, fun _ e => e⟩

def sessionCaller : HksProcessInfo := ⟨[1], [2], 0, 0, 7⟩

def markedSession : Sessions Unit := Sessions.run steadySessions { engine := () }
  [.create sessionCaller none (toBytes64 1) true, .queryAndMarkInUse sessionCaller (toBytes64 1)]

-- The session that is in use outlasts any call, a further session included.
theorem sessionTable_invariant_two_calls :
    let s := markedSession
    let s' := (SessionCall.create sessionCaller none (toBytes64 2) true).step steadySessions s
    (s.operationCount.toNat = s.operations.length ∧ s.operations.length ≤ maxOperationsCount ∧
      ∀ tokenId, s.operations.countP (·.accessTokenId = tokenId) ≤ maxOperationsEachTokenId) ∧
    (∃ o ∈ s.operations, o.isInUse ∧
      ∀ c : SessionCall, ∃ o' ∈ (c.step steadySessions s).operations, o'.addr = o.addr) ∧
    ∃ kept added, sessionPolicy.Evicts (steadySessions.Expired s.tick s'.tick) sessionCaller.accessTokenId
      s.operations kept ∧ s'.operations = kept ++ added := by
  have ⟨count, capacity, quota, inUse, evicts⟩ := sessionTable_invariant steadySessions ()
    [.create sessionCaller none (toBytes64 1) true, .queryAndMarkInUse sessionCaller (toBytes64 1)]
    (by simp [SessionCall.TokenFits, sessionCaller])
  have hmarked : ∃ o ∈ markedSession.operations, o.isInUse := by decide
  have ⟨o, ho, hinUse⟩ := hmarked
  exact ⟨⟨count, capacity, quota⟩, ⟨o, ho, hinUse, fun c => inUse c o ho hinUse⟩,
    evicts sessionCaller none (toBytes64 2) true (by decide)⟩

-- Eleven sessions of one token whose id has its 33rd bit set: each `CreateOperation` counts the
-- sessions of another token, the one with the shortened id.
theorem sessionTable_quota_exceeded :
    ¬∀ tokenId, (Sessions.run steadySessions { engine := () }
      (List.replicate 11 (.create ⟨[1], [2], 0, 0, 0x100000005⟩ none [1, 0, 0, 0, 0, 0, 0, 0]
        true))).operations.countP (·.accessTokenId = tokenId) ≤ maxOperationsEachTokenId := by
  intro h
  have := h 0x100000005
  revert this
  decide

end Huks
