import Mathlib.Data.List.Induction
import Huks.Engine.Theorems.Handles
import Huks.Service.Theorems.ServiceFrame

namespace Huks

open EStateM

-- The handles that have a session.
def Sessions.handles {σ : Type} (s : Sessions σ) : Set UInt64 :=
  { h | ∃ o ∈ s.operations, o.handle = h }

namespace Sessions

variable {σ : Type} {s s' : Sessions σ}

theorem Beside.handles (h : s.Beside s') : s'.handles = s.handles := by
  simp only [Sessions.handles, h.operations]

theorem handles_mark (addr : Nat) (b : Bool) :
    ((markOperation addr b).run s).final.handles = s.handles := by
  ext h
  simp only [handles, markOperation, run_modify, Result.final_ok, List.mem_map, Set.mem_ofPred_eq]
  constructor
  · rintro ⟨_, ⟨o, ho, rfl⟩, rfl⟩
    exact ⟨o, ho, by split <;> rfl⟩
  · rintro ⟨o, ho, rfl⟩
    exact ⟨_, ⟨o, ho, rfl⟩, by split <;> rfl⟩

-- `DeleteOperation` removes no session but one of its handle.
theorem handles_deleteOperation (wf : s.WF) {operationHandle : Bytes} {handle : UInt64}
    (hh : constructOperationHandle operationHandle = .ok handle) :
    s.handles \ {handle} ⊆ ((deleteOperation operationHandle).run s).final.handles := by
  rintro _ ⟨⟨p, hp, rfl⟩, hne⟩
  simp only [deleteOperation, hh, run_bind, run_get]
  split
  case h_1 => exact ⟨p, hp, rfl⟩
  case h_2 o hfind =>
    split
    case isTrue => exact ⟨p, hp, rfl⟩
    case isFalse =>
      refine ⟨p, (List.mem_eraseP_of_neg ?_).mpr hp, rfl⟩
      intro haddr
      have ho := List.mem_of_find?_eq_some hfind
      have hp : p = o := List.inj_on_of_nodup_map wf.nodup hp ho (by simpa using haddr)
      exact hne (by simpa [hp] using List.find?_some hfind)

end Sessions

theorem constructOperationHandle_ok {operationHandle : Bytes} {handle : UInt64}
    (h : constructOperationHandle operationHandle = .ok handle) :
    operationHandle.length = 8 ∧ le64 operationHandle = handle := by
  unfold constructOperationHandle at h
  split at h
  case isTrue => cases h
  case isFalse =>
    split at h
    case isTrue => cases h
    case isFalse =>
      cases h
      exact ⟨by omega, rfl⟩

theorem queryOperationAndMarkInUse_handle {σ : Type} {processInfo : HksProcessInfo}
    {operationHandle : Bytes} {s s' : Sessions σ} {operation : HksOperation}
    (h : (queryOperationAndMarkInUse processInfo operationHandle).run s = .ok (some operation) s') :
    constructOperationHandle operationHandle = .ok operation.handle := by
  unfold queryOperationAndMarkInUse at h
  cases hh : constructOperationHandle operationHandle <;> rw [hh] at h
  case error => cases h
  case ok handle =>
    simp only [run_bind, run_get] at h
    split at h
    case h_1 => cases h
    case h_2 o hfind =>
      split at h
      case isTrue => cases h
      case isFalse =>
        cases h
        have ho := List.find?_some hfind
        simp only [Bool.decide_and, Bool.and_eq_true, decide_eq_true_eq] at ho
        rw [ho.left]

-- Every key node of the engine has a session, but perhaps those with a handle in `new`.
structure Sessions.PairedBut (new : Set UInt64) (s : Sessions Engine) : Prop where
  sessions : s.WF
  engine   : s.engine.WF
  covered  : s.engine.handles ⊆ new ∪ s.handles

abbrev Sessions.Paired (s : Sessions Engine) : Prop := s.PairedBut ∅

section Paired

variable (env : ServiceEnv) {s s' : Sessions Engine} {new : Set UInt64}

theorem Sessions.PairedBut.ticked (h : s.PairedBut new) (ht : s.Ticked s') : s'.PairedBut new where
  sessions := ht.wf h.sessions
  engine   := ht.engine ▸ h.engine
  covered  := by simpa [ht.engine, ht.toBeside.handles] using h.covered

theorem Sessions.PairedBut.mark (h : s.PairedBut new) (addr : Nat) (b : Bool) :
    ((markOperation addr b).run s).final.PairedBut new where
  sessions := h.sessions.mark addr b
  engine   := h.engine
  covered  := by
    rw [Sessions.handles_mark]
    exact h.covered

theorem Sessions.PairedBut.with_engine (h : s.PairedBut new) {new' : Set UInt64} {engine : Engine}
    (wf : engine.WF) (covered : engine.handles ⊆ new' ∪ s.handles) :
    PairedBut new' { s with engine := engine } where
  sessions := ⟨h.sessions.nodup, h.sessions.fresh, h.sessions.capacity, h.sessions.count⟩
  engine   := wf
  covered  := covered

theorem huksAccessAbort_handles {engine : Engine} (wf : engine.WF) (handle : UInt64) :
    let engine' := env.sessions.huksAccessAbort handle engine
    engine'.WF ∧ engine'.handles ⊆ engine.handles \ {handle} := by
  obtain ⟨built, hbuild, htags⟩ : ∃ built, hksBuildParamSet hksInitParamSet = .ok built ∧
      hksCheckParamSetTag built = .ok () := ⟨_, rfl, rfl⟩
  have habort : env.sessions.huksAccessAbort handle engine =
      (EngineCall.abort (toBytes64 handle) built).step env.engine engine := by
    simp only [ServiceEnv.sessions, hbuild]
    rfl
  obtain ⟨hsub, hnot⟩ := EngineCall.handles_abort env.engine (toBytes64 handle) built wf
  have hnot := hnot htags (length_toBytes64 handle)
  rw [le64_toBytes64] at hnot
  rw [habort]
  refine ⟨EngineCall.step_wf wf _, fun h hh => ⟨hsub hh, ?_⟩⟩
  rintro rfl
  exact hnot hh

theorem abortAll_handles (victims : List HksOperation) {engine : Engine} (wf : engine.WF) :
    let engine' := env.sessions.abortAll victims engine
    engine'.WF ∧ engine'.handles ⊆ engine.handles \ { h | ∃ o ∈ victims, o.handle = h } := by
  induction victims generalizing engine
  case nil => exact ⟨wf, by simp [SessionEnv.abortAll]⟩
  case cons o victims ih =>
    obtain ⟨wf', hsub⟩ := huksAccessAbort_handles env wf o.handle
    obtain ⟨wf'', hsub'⟩ := ih wf'
    refine ⟨wf'', fun h hh => ?_⟩
    obtain ⟨hmem, hvictims⟩ := hsub' hh
    obtain ⟨hmem, hne⟩ := hsub hmem
    refine ⟨hmem, ?_⟩
    rintro ⟨p, hp, rfl⟩
    rcases List.mem_cons.mp hp with rfl | hp
    · exact hne rfl
    · exact hvictims ⟨p, hp, rfl⟩

-- Sessions that are aborted in the engine leave no key node behind.
theorem Sessions.PairedBut.aborted (h : s.PairedBut new) (wf : s'.WF)
    (ha : Aborted env.sessions s s') : s'.PairedBut new := by
  have ⟨victims, hengine, hops⟩ := ha
  have ⟨wf', hsub⟩ := abortAll_handles env victims h.engine
  rw [← hengine] at wf' hsub
  refine ⟨wf, wf', fun handle hh => ?_⟩
  have ⟨hmem, hvictims⟩ := hsub hh
  refine (h.covered hmem).imp_right ?_
  rintro ⟨o, ho, rfl⟩
  rcases hops o ho with ho | ho
  · exact ⟨o, ho, rfl⟩
  · exact absurd ⟨o, ho, rfl⟩ hvictims

-- A session may go once its key node has gone.
theorem Sessions.PairedBut.deleteOperation (h : s.Paired) {operationHandle : Bytes} {handle : UInt64}
    (hh : constructOperationHandle operationHandle = .ok handle) (hnot : handle ∉ s.engine.handles) :
    ((Huks.deleteOperation operationHandle).run s).final.Paired := by
  have hkept := handles_deleteOperation h.sessions hh
  have ⟨s', hrun, hengine, removed⟩ := deleteOperation_run operationHandle h.sessions
  rw [hrun] at hkept ⊢
  refine ⟨removed.wf, hengine ▸ h.engine, fun g hg => .inr (hkept ⟨?_, ?_⟩)⟩
  · simpa using h.covered (hengine ▸ hg)
  · rintro rfl
    exact hnot (hengine ▸ hg)

theorem createOperation_paired {processInfo : HksProcessInfo} {paramSet : Option HksParamSet}
    {handle : UInt64} (h : s.PairedBut {handle})
    (constructible : Constructible env.sessions processInfo paramSet (toBytes64 handle) (s.tick + 1))
    (room : ¬s.Crowded processInfo.accessTokenId.toUInt32.toUInt64) (abortable : Bool) :
    ((createOperation env.sessions processInfo paramSet (toBytes64 handle) abortable).run
      s).final.Paired := by
  have ⟨s₁, s', evicted, wf', hrun⟩ := createOperation_run env.sessions processInfo paramSet
    (toBytes64 handle) abortable h.sessions
  have h₁ := h.aborted env evicted.wf evicted.aborted
  rcases hrun with ⟨hrun, ⟨o, ho, _, hops⟩, hengine, _⟩ | ⟨_, crowded, _⟩
  case inr => exact absurd (crowded constructible) room
  case inl =>
    have hhandle : o.handle = handle := by
      rw [← (constructOperationHandle_ok ho.handle).2, le64_toBytes64]
    rw [hrun]
    refine ⟨wf', hengine ▸ h₁.engine, ?_⟩
    rw [Result.final_ok, hengine]
    rintro g hg
    refine .inr ?_
    rcases h₁.covered hg with rfl | ⟨p, hp, rfl⟩
    · exact ⟨o, by simp [hops], hhandle⟩
    · exact ⟨p, by simp [hops, hp], rfl⟩

-- What the engine adds on behalf of `HksServiceInit`.
def InitPaired : Result HksErrorCode (Sessions Engine) (UInt64 × Bytes) → Prop
  | .ok (handle, _) s => s.PairedBut {handle}
  | .error _ s        => s.Paired

theorem huksAccessInit_paired (h : s.Paired) (key : Bytes) (paramSet : Option HksParamSet)
    (handleSize tokenSize : Nat) :
    InitPaired ((huksAccessInit env key paramSet handleSize tokenSize).run s) := by
  unfold huksAccessInit
  split
  case h_1 => exact h
  case h_2 paramSet =>
    have hinit := hksCoreInit_handles env.engine h.engine key paramSet handleSize tokenSize
    rw [huksAccess_run]
    cases hrun : (hksCoreInit env.engine key paramSet handleSize tokenSize).run s.engine <;>
      rw [hrun] at hinit
    case ok created e =>
      refine h.with_engine hinit.1 (hinit.2.trans (Set.insert_subset_insert ?_))
      simpa using h.covered
    case error err e => exact h.with_engine hinit.1 (hinit.2.trans h.covered)

theorem initInEngine_paired (h : s.Paired) (processInfo : HksProcessInfo) (key : Bytes)
    (paramSet : Option HksParamSet) (handleSize tokenSize : Nat) :
    InitPaired ((initInEngine env processInfo key paramSet handleSize tokenSize).run s) := by
  simp only [initInEngine, run_bind]
  cases hksCheckServiceInitParams processInfo.processName key paramSet
  case error => exact h
  case ok =>
    have ⟨⟨keyFromFile, newParamSet⟩, s₁, hrun, ticked⟩ :=
      getKeyAndNewParamSet_run env processInfo key paramSet s
    have h₁ := h.ticked ticked
    simp only [run_ofExcept_ok, run_bind, hrun, run_attempt]
    have backup {s₂ : Sessions Engine} (h₂ : s₂.Paired) (e : HksErrorCode) : InitPaired
        ((huksAccessInitBackup env processInfo key newParamSet handleSize tokenSize e).run s₂) := by
      unfold huksAccessInitBackup
      split
      case isFalse => exact h₂
      case isTrue =>
        have h₃ := h₂.ticked ((getKeyData_fixed env processInfo key newParamSet .bakKey).ticked s₂)
        rw [run_bind]
        cases hrun : (getKeyData env processInfo key newParamSet .bakKey).run s₂ <;> rw [hrun] at h₃
        case error => exact h₃
        case ok => exact huksAccessInit_paired env h₃ ..
    cases keyFromFile
    case error e => exact backup h₁ e
    case ok keyFromFile =>
      have h₂ := huksAccessInit_paired env h₁ keyFromFile newParamSet handleSize tokenSize
      simp only [run_ofExcept_ok]
      cases hrun : (huksAccessInit env keyFromFile newParamSet handleSize tokenSize).run s₁ <;>
        rw [hrun] at h₂
      case ok => exact h₂
      case error e s₂ => exact backup h₂ e

end Paired

-- A call on the session of a listed key node gets as far as the engine, with a param set that the
-- engine takes.
structure OperationCall.ReachesEngine (env : ServiceEnv) (s : Sessions Engine)
    (processInfo : HksProcessInfo) (paramSet : Option HksParamSet) (operation : HksOperation)
    (call : OperationCall) : Prop where
  inTime : call.IsUpdate → operation.InTime env s.tick
  made   : call.refusal = .delete → ∃ newParamSet s',
    (newParamSetFor env operation processInfo paramSet).run (call.asked operation s) =
      .ok newParamSet s'
  tags   : ∀ newParamSet s',
    (newParamSetFor env operation processInfo paramSet).run (call.asked operation s) =
      .ok newParamSet s' → hksCheckParamSetTag newParamSet = .ok ()

def OperationCall.Tidy (env : ServiceEnv) (s : Sessions Engine) (handle : Bytes)
    (processInfo : HksProcessInfo) (paramSet : Option HksParamSet) (call : OperationCall) : Prop :=
  ∀ operation s', (queryOperationAndMarkInUse processInfo handle).run s = .ok (some operation) s' →
    operation.handle ∈ s'.engine.handles → call.Proceeds processInfo operation →
      call.ReachesEngine env s' processInfo paramSet operation

-- The session can be created once the engine has its key node.
def InitTidy (env : ServiceEnv) (s : Sessions Engine) (processInfo : HksProcessInfo) (key : Bytes)
    (paramSet : Option HksParamSet) (handleSize tokenSize : Nat) : Prop :=
  ∀ handle token s', (initInEngine env processInfo key paramSet handleSize tokenSize).run s =
      .ok (handle, token) s' →
    Constructible env.sessions processInfo paramSet (toBytes64 handle) (s'.tick + 1) ∧
      ¬s'.Crowded processInfo.accessTokenId.toUInt32.toUInt64

def ServiceCall.Tidy (env : ServiceEnv) (s : Sessions Engine) : ServiceCall → Prop
  | init processInfo key paramSet handleSize tokenSize =>
    InitTidy env s processInfo key paramSet handleSize tokenSize
  | update handle processInfo paramSet inData outSize =>
    (OperationCall.update inData outSize).Tidy env s handle processInfo paramSet
  | finish handle processInfo paramSet inData outSize =>
    ∀ size, outputForFinish paramSet outSize = .ok size →
      (OperationCall.finish inData size).Tidy env s handle processInfo paramSet
  | abort handle processInfo paramSet => OperationCall.abort.Tidy env s handle processInfo paramSet
  | deleteProcessInfo _ => True

section Calls

variable {env : ServiceEnv} {s : Sessions Engine} {handle : Bytes} {processInfo : HksProcessInfo}
  {paramSet : Option HksParamSet} {operation : HksOperation} {call : OperationCall}

theorem hksServiceInit_paired (h : s.Paired) {key : Bytes} {handleSize tokenSize : Nat}
    (tidy : InitTidy env s processInfo key paramSet handleSize tokenSize) :
    ((hksServiceInit env processInfo key paramSet handleSize tokenSize).run s).final.Paired := by
  have hinit := initInEngine_paired env h processInfo key paramSet handleSize tokenSize
  simp only [hksServiceInit, run_bind]
  cases hrun : (initInEngine env processInfo key paramSet handleSize tokenSize).run s <;>
    rw [hrun] at hinit
  case error => exact hinit
  case ok created s' =>
    have ⟨constructible, room⟩ := tidy _ _ _ hrun
    have hcreate := createOperation_paired env hinit constructible room true
    dsimp only
    cases hrun : (createOperation env.sessions processInfo paramSet (toBytes64 created.1) true).run s' <;>
      rw [hrun] at hcreate <;> exact hcreate

namespace OperationCall

variable (env handle call) in
theorem engineCall_handles (wf : s.engine.WF) (newParamSet : HksParamSet) :
    let engine := (call.engineCall handle newParamSet).step env.engine s.engine
    engine.handles ⊆ s.engine.handles ∧ (hksCheckParamSetTag newParamSet = .ok () →
      handle.length = 8 →
      (call.IsUpdate → (call.engineCall handle newParamSet).Fails env.engine s.engine) →
        le64 handle ∉ engine.handles) := by
  cases call
  case update inData outSize =>
    have ⟨hsub, hnot⟩ := EngineCall.handles_update env.engine handle newParamSet wf inData outSize
    exact ⟨hsub, fun tags h hfails => hnot (hfails trivial) tags h⟩
  case finish inData outSize =>
    have ⟨hsub, hnot⟩ := EngineCall.handles_finish env.engine handle newParamSet wf inData outSize
    exact ⟨hsub, fun tags h _ => hnot tags h⟩
  case abort =>
    have ⟨hsub, hnot⟩ := EngineCall.handles_abort env.engine handle newParamSet wf
    exact ⟨hsub, fun tags h _ => hnot tags h⟩

-- When a call is done with the engine, there is no key node left of a session that it is to delete.
theorem Outcome.handles {release : Release} {s' : Sessions Engine} (wf : s.engine.WF)
    (hh : constructOperationHandle handle = .ok operation.handle)
    (reaches : operation.handle ∈ s.engine.handles → call.Proceeds processInfo operation →
      call.ReachesEngine env s processInfo paramSet operation)
    (o : call.Outcome env s handle processInfo paramSet operation release s') :
    s'.engine.WF ∧ s'.engine.handles ⊆ s.engine.handles ∧
      (release = .delete → operation.handle ∉ s'.engine.handles) := by
  have idle (ticked : s.Ticked s') (h : release = .delete → operation.handle ∉ s.engine.handles) :
      s'.engine.WF ∧ s'.engine.handles ⊆ s.engine.handles ∧
        (release = .delete → operation.handle ∉ s'.engine.handles) := by
    rw [ticked.engine]
    exact ⟨wf, subset_rfl, h⟩
  cases o
  case refused hr ticked =>
    refine idle ticked fun hdelete => ?_
    rcases hr with ⟨hr, _⟩ | ⟨hr, _⟩ <;> cases hr.symm.trans hdelete
  case late isUpdate fits late ticked =>
    exact idle ticked fun _ hmem => late ((reaches hmem fits).inTime isUpdate)
  case unmade hr fits made ticked =>
    refine idle ticked fun hdelete hmem => ?_
    have ⟨_, _, hmade⟩ := (reaches hmem fits).made (hr.symm.trans hdelete)
    cases made.symm.trans hmade
  case reached newParamSet _ hr fits made _ hengine =>
    have ⟨hlength, hle⟩ := constructOperationHandle_ok hh
    have ⟨hsub, hnot⟩ := engineCall_handles env handle call wf newParamSet
    rw [hengine]
    refine ⟨EngineCall.step_wf wf _, hsub, fun hdelete => ?_⟩
    by_cases hmem : operation.handle ∈ s.engine.handles
    case neg => exact fun h => hmem (hsub h)
    case pos =>
      rw [← hle]
      refine hnot ((reaches hmem fits).tags _ _ made) hlength ?_
      rcases hr with ⟨hr, _⟩ | ⟨_, hfails⟩
      · cases hr.symm.trans hdelete
      · exact hfails

theorem serve_paired (h : s.Paired) (tidy : call.Tidy env s handle processInfo paramSet) :
    ((call.serve env handle processInfo paramSet).run s).final.Paired := by
  simp only [serve, run_bind]
  rcases queryOperationAndMarkInUse_run processInfo handle s with hrun | ⟨p, hp, _, hrun⟩
  case inl =>
    rw [hrun]
    exact h
  case inr =>
    have tidy := tidy _ _ hrun
    rw [hrun]
    have hh := queryOperationAndMarkInUse_handle hrun
    have h₁ := h.mark p.addr true
    obtain ⟨release, s', hexec, o⟩ := call.exec_run env ((markOperation p.addr true).run s).final handle
      processInfo paramSet { p with isInUse := true }
    obtain ⟨wf, hsub, hnot⟩ := o.handles h₁.engine hh tidy
    have covered : s'.engine.handles ⊆ s'.handles := by
      rw [o.beside.handles]
      exact hsub.trans (by simpa using h₁.covered)
    have h₂ : s'.Paired := ⟨o.beside.wf h₁.sessions, wf, by simpa using covered⟩
    simp only [run_bind, hexec]
    cases release
    case none => exact h₂
    case unmark => exact h₂.mark p.addr false
    case delete =>
      exact (h₂.mark p.addr false).deleteOperation hh (hnot rfl)

end OperationCall

-- Completed calls keep the two tables paired.
theorem ServiceCall.step_paired (h : s.Paired) {c : ServiceCall} (tidy : c.Tidy env s) :
    (c.step env s).Paired := by
  cases c
  case init processInfo key paramSet handleSize tokenSize =>
    rw [step, exec, run_discard_final]
    exact hksServiceInit_paired h tidy
  case update handle processInfo paramSet inData outSize =>
    rw [step, exec, run_discard_final, hksServiceUpdate_final]
    exact OperationCall.serve_paired h tidy
  case finish handle processInfo paramSet inData outSize =>
    rw [step, exec, run_discard_final]
    cases hsize : outputForFinish paramSet outSize
    case error =>
      simp only [hksServiceFinish, hsize]
      exact h
    case ok size =>
      rw [hksServiceFinish_final env s handle processInfo paramSet inData outSize hsize]
      exact OperationCall.serve_paired h (tidy size hsize)
  case abort handle processInfo paramSet =>
    rw [step, exec, hksServiceAbort_final]
    exact OperationCall.serve_paired h tidy
  case deleteProcessInfo processInfo =>
    obtain ⟨s', hrun, aborted, removed⟩ :=
      deleteSessionByProcessInfo_run env.sessions processInfo h.sessions
    rw [step, exec, hksServiceDeleteProcessInfo, hrun]
    exact h.aborted env removed.wf aborted

end Calls

theorem Sessions.Paired.init : Paired { engine := {} } where
  sessions := .init _
  engine   := .init
  covered  := by
    rintro _ ⟨n, hn, _⟩
    cases hn

theorem Sessions.Paired.serve {env : ServiceEnv} {s : Sessions Engine} (h : s.Paired)
    {calls : List ServiceCall}
    (tidy : ∀ pre c, pre ++ [c] <+: calls → c.Tidy env (s.serve env pre)) :
    (s.serve env calls).Paired := by
  induction calls using List.reverseRecOn
  case nil => exact h
  case append_singleton calls c ih =>
    rw [Sessions.serve, List.foldl_concat]
    refine ServiceCall.step_paired (ih fun pre d hpre => ?_) (tidy calls c (List.prefix_refl _))
    exact tidy pre d (hpre.trans (List.prefix_append _ _))

-- In a run whose calls all get through, every key node has its session in every state.
theorem keyNodes_paired (env : ServiceEnv) (calls : List ServiceCall)
    (tidy : ∀ pre c, pre ++ [c] <+: calls → c.Tidy env (Sessions.serve env { engine := {} } pre)) :
    ∀ pre, pre <+: calls → let s := Sessions.serve env { engine := {} } pre
      ∀ n ∈ s.engine.keyNodes, ∃ o ∈ s.operations, o.handle = n.handle := by
  intro pre hpre s n hn
  have h : s.Paired := Sessions.Paired.init.serve fun pre' c hc => tidy pre' c (hc.trans hpre)
  exact (h.covered ⟨n, hn, rfl⟩).resolve_left id

-- Surroundings whose keys may be used for batches of derivations, with a clock that makes 100 s
-- between two readings.
def batchService : ServiceEnv := { steadyService with
  engine := steadyEnv (deriveKey [.ofUInt32 HksTag.batchPurpose HksKeyPurpose.derive])
  elapsedRealTime n := .ok (n.toUInt64 * 100000) }

def batchParamSet : HksParamSet := scalarParamSet (deriveParams ++ [.ofBool HksTag.isBatchOperation true])

-- An update after the time of the batch deletes the session and leaves the key node.
theorem keyNodes_paired_timeout :
    ¬∀ (env : ServiceEnv) (calls : List ServiceCall),
      let s := Sessions.serve env { engine := {} } calls
      ∀ n ∈ s.engine.keyNodes, ∃ o ∈ s.operations, o.handle = n.handle := by
  intro h
  have := h batchService
    [.init ⟨[1], [2], 0, 0, 7⟩ [9] batchParamSet 8 32,
      .update [0, 0, 0, 0, 0, 0, 0, 0] ⟨[1], [2], 0, 0, 7⟩ none [] 0]
  revert this
  decide +kernel

-- A derivation is begun, goes on and is aborted.
def deriveCaller : HksProcessInfo := ⟨[1], [2], 0, 0, 7⟩

def deriveCalls : List ServiceCall := [
  .init deriveCaller [9] deriveParamSet 8 32,
  .update (toBytes64 0) deriveCaller (some deriveParamSet) [1] 32,
  .abort (toBytes64 0) deriveCaller (some deriveParamSet)]

def afterCalls (n : Nat) : Sessions Engine := Sessions.serve steadyService { engine := {} } (deriveCalls.take n)

theorem initTidy_derive : InitTidy steadyService { engine := {} } deriveCaller [9] deriveParamSet 8 32 := by
  intro handle token s' hrun
  have hnone : ((initInEngine steadyService deriveCaller [9] deriveParamSet 8 32).run
      { engine := {} }).final.operations.length = 0 := by decide +kernel
  rw [hrun] at hnone
  refine ⟨⟨by decide, by decide, ⟨_, rfl⟩, ?_⟩, ?_⟩
  case refine_1 =>
    rintro _ ⟨⟩
    exact ⟨⟨1000, rfl⟩, by decide⟩
  case refine_2 =>
    have hoperations : s'.operations = [] := List.eq_nil_of_length_eq_zero hnone
    rw [Sessions.Crowded, hoperations]
    decide

-- Whether the call gets through to the engine with the session that it finds, which is not for a batch
def OperationCall.getsThrough (env : ServiceEnv) (s : Sessions Engine) (handle : Bytes)
    (processInfo : HksProcessInfo) (paramSet : Option HksParamSet) (call : OperationCall) : Bool :=
  match (queryOperationAndMarkInUse processInfo handle).run s with
  | .ok (some operation) s' =>
    match (newParamSetFor env operation processInfo paramSet).run (call.asked operation s') with
    | .ok newParamSet _ => operation.isBatchOperation = false ∧ hksCheckParamSetTag newParamSet = .ok ()
    | .error _ _        => false
  | _ => true

theorem OperationCall.tidy_of_getsThrough {env : ServiceEnv} {s : Sessions Engine} {handle : Bytes}
    {processInfo : HksProcessInfo} {paramSet : Option HksParamSet} {call : OperationCall}
    (h : call.getsThrough env s handle processInfo paramSet) :
    call.Tidy env s handle processInfo paramSet := by
  intro operation s' hrun _ _
  rw [getsThrough, hrun] at h
  cases hnew : (newParamSetFor env operation processInfo paramSet).run (call.asked operation s')
  case error => simp [hnew] at h
  case ok newParamSet t =>
    simp only [hnew, decide_eq_true_eq] at h
    refine ⟨fun _ hbatch => ?_, fun _ => ⟨_, _, hnew⟩, fun newParamSet' t' hnew' => ?_⟩
    case refine_1 => exact Bool.noConfusion (h.1.symm.trans hbatch)
    case refine_2 =>
      cases hnew.symm.trans hnew'
      exact h.2

theorem deriveCalls_tidy : ∀ pre c, pre ++ [c] <+: deriveCalls →
    c.Tidy steadyService (Sessions.serve steadyService { engine := {} } pre) := by
  intro pre c hpre
  have hlen : pre.length < 3 := by
    have := hpre.length_le
    rwa [List.length_append] at this
  have hc : deriveCalls[pre.length]? = some c := by
    have ⟨rest, hrest⟩ := hpre
    rw [← hrest, List.append_assoc, List.getElem?_append_right (Nat.le_refl _), Nat.sub_self]
    rfl
  have htake : pre = deriveCalls.take pre.length :=
    List.prefix_iff_eq_take.mp ((List.prefix_append _ _).trans hpre)
  rw [htake]
  generalize pre.length = n at hlen hc
  match n with
  | 0 => cases hc; exact initTidy_derive
  | 1 => cases hc; exact OperationCall.tidy_of_getsThrough (by decide +kernel)
  | 2 => cases hc; exact OperationCall.tidy_of_getsThrough (by decide +kernel)

-- The node has its session until the abort takes both away.
theorem keyNodes_paired_derive :
    (∃ n ∈ (afterCalls 2).engine.keyNodes, ∃ o ∈ (afterCalls 2).operations, o.handle = n.handle) ∧
      (afterCalls 3).engine.keyNodes.length = 0 ∧ (afterCalls 3).operations.length = 0 := by
  have hpaired := keyNodes_paired steadyService deriveCalls deriveCalls_tidy _ (List.take_prefix 2 _)
  refine ⟨?_, by decide +kernel, by decide +kernel⟩
  have hlisted : 0 < (afterCalls 2).engine.keyNodes.length := by decide +kernel
  have ⟨n, hn⟩ := List.exists_mem_of_length_pos hlisted
  rw [afterCalls] at hn ⊢
  exact ⟨n, hn, hpaired n hn⟩

end Huks
