import Huks.Engine.Theorems.OneStage
import Huks.Service.ServiceCalls
import Huks.Service.Theorems.SessionRuns

namespace Huks

open EStateM

-- From `s` to `s'` nothing happened to the table of sessions.
structure Sessions.Beside {σ : Type} (s s' : Sessions σ) : Prop where
  operations     : s'.operations = s.operations
  operationCount : s'.operationCount = s.operationCount
  tick           : s.tick ≤ s'.tick

namespace Sessions.Beside

variable {σ : Type} {s t u : Sessions σ}

theorem refl (s : Sessions σ) : s.Beside s := ⟨rfl, rfl, Nat.le_refl _⟩

theorem trans (h₁ : s.Beside t) (h₂ : t.Beside u) : s.Beside u where
  operations     := h₂.operations.trans h₁.operations
  operationCount := h₂.operationCount.trans h₁.operationCount
  tick           := Nat.le_trans h₁.tick h₂.tick

theorem wf (h : s.Beside t) (wf : s.WF) : t.WF where
  nodup      := h.operations ▸ wf.nodup
  fresh o ho := Nat.lt_of_lt_of_le (wf.fresh o (h.operations ▸ ho)) h.tick
  capacity   := h.operations ▸ wf.capacity
  count      := h.operationCount ▸ h.operations ▸ wf.count

end Sessions.Beside

-- From `s` to `s'` the clock and the other services were asked, and that is all.
structure Sessions.Ticked {σ : Type} (s s' : Sessions σ) : Prop extends s.Beside s' where
  engine : s'.engine = s.engine

namespace Sessions.Ticked

variable {σ : Type} {s t u : Sessions σ}

theorem refl (s : Sessions σ) : s.Ticked s := ⟨.refl s, rfl⟩

theorem trans (h₁ : s.Ticked t) (h₂ : t.Ticked u) : s.Ticked u :=
  ⟨h₁.toBeside.trans h₂.toBeside, h₂.engine.trans h₁.engine⟩

end Sessions.Ticked

-- Code that neither the table of sessions nor the engine notices.
abbrev TableFixed {α : Type} (x : ServiceM α) : Prop := ∀ s : Sessions Engine, Preserves s.Ticked x

section Fixed

variable (env : ServiceEnv)

theorem TableFixed.ticked {α : Type} {x : ServiceM α} (h : TableFixed x) (s : Sessions Engine) :
    s.Ticked (x.run s).final := h s s (.refl s)

theorem next_fixed : TableFixed ServiceM.next := fun _ => .modifyGet fun _ h =>
  ⟨⟨h.operations, h.operationCount, Nat.le_succ_of_le h.tick⟩, h.engine⟩

theorem huksAccess_run {α : Type} (x : EngineM α) (s : Sessions Engine) :
    (huksAccess x).run s = match x.run s.engine with
      | .ok a e    => .ok a { s with engine := e }
      | .error a e => .error a { s with engine := e } := by
  simp only [huksAccess, zoom, EStateM.run, Sessions.engineLens]
  cases x s.engine <;> rfl

theorem huksAccess_beside {α : Type} (x : EngineM α) (s : Sessions Engine) :
    Preserves s.Beside (huksAccess x) :=
  .zoom (Q := fun _ => True) (fun _ _ => trivial) (fun _ _ => trivial)
    fun _ _ h _ => ⟨h.operations, h.operationCount, h.tick⟩

theorem appendProcessInfoAndDefaultStrategy_fixed (paramSet : Option HksParamSet)
    (processInfo : HksProcessInfo) (operation : Option HksOperation) :
    TableFixed (appendProcessInfoAndDefaultStrategy env paramSet processInfo operation) :=
  fun s => .bind (next_fixed s) fun _ => .ofExcept _

theorem hksCheckAcrossAccountsPermission_fixed (paramSet : HksParamSet) (callerUserId : Int32) :
    TableFixed (hksCheckAcrossAccountsPermission env paramSet callerUserId) := by
  refine fun s => .bind (next_fixed s) fun n => .ite ?_ (.pure _)
  split
  case h_1 => exact .bind (.ofExcept _) fun _ => .ofExcept _
  case h_2 => exact .pure _
  case h_3 => exact .throw _

theorem newParamSetFor_fixed (operation : HksOperation) (processInfo : HksProcessInfo)
    (paramSet : Option HksParamSet) :
    TableFixed (newParamSetFor env operation processInfo paramSet) := by
  refine fun s => .bind (appendProcessInfoAndDefaultStrategy_fixed env _ _ _ s) fun _ => ?_
  exact .bind (hksCheckAcrossAccountsPermission_fixed env _ _ s) fun _ => .pure _

theorem getKeyData_fixed (processInfo : HksProcessInfo) (keyAlias : Bytes)
    (paramSet : Option HksParamSet) (mode : HksStorageType) :
    TableFixed (getKeyData env processInfo keyAlias paramSet mode) :=
  fun s => .bind (next_fixed s) fun _ => .ofExcept _

theorem huksAccessInit_beside (key : Bytes) (paramSet : Option HksParamSet)
    (handleSize tokenSize : Nat) (s : Sessions Engine) :
    Preserves s.Beside (huksAccessInit env key paramSet handleSize tokenSize) := by
  unfold huksAccessInit
  split
  case h_1 => exact .throw _
  case h_2 => exact huksAccess_beside _ s

theorem getKeyAndNewParamSet_fixed (processInfo : HksProcessInfo) (keyAlias : Bytes)
    (paramSet : Option HksParamSet) :
    TableFixed (getKeyAndNewParamSet env processInfo keyAlias paramSet) := by
  refine fun s => .bind (.attempt (appendProcessInfoAndDefaultStrategy_fixed env _ _ _ s)) fun r => ?_
  split
  case h_1 => exact .pure _
  case h_2 => exact .bind (.attempt (getKeyData_fixed env _ _ _ _ s)) fun _ => .pure _

theorem getKeyAndNewParamSet_run (processInfo : HksProcessInfo) (keyAlias : Bytes)
    (paramSet : Option HksParamSet) (s : Sessions Engine) :
    ∃ r s', (getKeyAndNewParamSet env processInfo keyAlias paramSet).run s = .ok r s' ∧ s.Ticked s' := by
  have h := (getKeyAndNewParamSet_fixed env processInfo keyAlias paramSet).ticked s
  unfold getKeyAndNewParamSet at h ⊢
  simp only [run_bind, run_attempt] at h ⊢
  split at h
  case h_1 => exact ⟨_, _, rfl, h⟩
  case h_2 =>
    simp only [run_bind, run_attempt] at h ⊢
    exact ⟨_, _, rfl, h⟩

theorem storeOrCopyKeyBlob_fixed (paramSet : HksParamSet) (processInfo : HksProcessInfo)
    (output : Bytes) (isNeedStorage : Bool) :
    TableFixed (storeOrCopyKeyBlob env paramSet processInfo output isNeedStorage) := by
  refine fun s => .ite (.pure _) <| .bind (.ofExcept _) fun _ => .ite (.throw _) ?_
  exact .bind (next_fixed s) fun _ => .bind (.ofExcept _) fun _ => .bind (.ofExcept _) fun _ => .pure _

end Fixed

theorem deleteOperation_ok {σ : Type} (operationHandle : Bytes) (s : Sessions σ) :
    ∃ s', (deleteOperation operationHandle).run s = .ok () s' := by
  unfold deleteOperation
  split
  case h_1 => exact ⟨s, rfl⟩
  case h_2 =>
    simp only [run_bind, run_get]
    split
    case h_1 => exact ⟨s, rfl⟩
    case h_2 => split <;> exact ⟨_, rfl⟩

theorem releaseOperation_ok (handle : Bytes) (operation : HksOperation) (release : Release)
    (s : Sessions Engine) : ∃ s', (releaseOperation handle operation release).run s = .ok () s' := by
  cases release
  case none => exact ⟨s, rfl⟩
  case unmark => exact ⟨_, rfl⟩
  case delete => exact deleteOperation_ok handle _

-- The batch operation is not over by the clock that `HksServiceCheckBatchUpdateTime` reads.
def HksOperation.InTime (env : ServiceEnv) (n : Nat) (operation : HksOperation) : Prop :=
  operation.isBatchOperation → ∃ curTime, env.elapsedRealTime n = .ok curTime ∧
    curTime ≤ operation.batchOperationTimestamp

namespace OperationCall

-- The tokens differ when a call tries to finish the operation.
def Mismatched (processInfo : HksProcessInfo) (operation : HksOperation) : OperationCall → Prop
  | finish _ _ => operation.accessTokenId ≠ processInfo.accessTokenId
  | _          => False

-- The call goes on with the operation that it found.
def Proceeds (processInfo : HksProcessInfo) (operation : HksOperation) : OperationCall → Prop
  | abort => True
  | _     => operation.accessTokenId = processInfo.accessTokenId

theorem Proceeds.not_mismatched {processInfo : HksProcessInfo} {operation : HksOperation}
    {call : OperationCall} (h : call.Proceeds processInfo operation) :
    ¬call.Mismatched processInfo operation := by
  cases call
  case update => exact id
  case finish => exact not_ne_iff.mpr h
  case abort => exact id

def IsUpdate : OperationCall → Prop
  | update _ _ => True
  | _          => False

-- The state in which the call makes the param set for the engine.
def asked (operation : HksOperation) (s : Sessions Engine) : OperationCall → Sessions Engine
  | update _ _ => if operation.isBatchOperation then { s with tick := s.tick + 1 } else s
  | _          => s

-- What becomes of the operation if there is no such param set.
def refusal : OperationCall → Release
  | finish _ _ => .delete
  | _          => .unmark

def engineCall (handle : Bytes) (newParamSet : HksParamSet) : OperationCall → EngineCall
  | update inData outSize => .update handle newParamSet inData outSize
  | finish inData outSize => .finish handle newParamSet inData outSize
  | abort                 => .abort handle newParamSet

-- How a call on an operation ends: it does not touch the operation of another token, it comes too
-- late for a batch, it cannot make the param set, or the engine has its turn.
inductive Outcome (env : ServiceEnv) (s : Sessions Engine) (handle : Bytes)
    (processInfo : HksProcessInfo) (paramSet : Option HksParamSet) (operation : HksOperation)
    (call : OperationCall) (release : Release) (s' : Sessions Engine) : Prop
  | refused (release : release = .none ∧ call.Mismatched processInfo operation ∨
      release = .unmark ∧ call.IsUpdate) (ticked : s.Ticked s')
  | late (release : release = .delete) (isUpdate : call.IsUpdate)
    (fits : call.Proceeds processInfo operation)
    (late : ¬operation.InTime env s.tick) (ticked : s.Ticked s')
  | unmade {e : HksErrorCode} (release : release = call.refusal)
    (fits : call.Proceeds processInfo operation)
    (made : (newParamSetFor env operation processInfo paramSet).run (call.asked operation s) =
      .error e s') (ticked : s.Ticked s')
  | reached {newParamSet : HksParamSet} {t : Sessions Engine}
    (release : release = .unmark ∧ call.IsUpdate ∨ release = .delete ∧
      (call.IsUpdate → (call.engineCall handle newParamSet).Fails env.engine s.engine))
    (fits : call.Proceeds processInfo operation)
    (made : (newParamSetFor env operation processInfo paramSet).run (call.asked operation s) =
      .ok newParamSet t) (beside : s.Beside s')
    (engine : s'.engine = (call.engineCall handle newParamSet).step env.engine s.engine)

variable (env : ServiceEnv) (s : Sessions Engine) (handle : Bytes) (processInfo : HksProcessInfo)
  (paramSet : Option HksParamSet) (inData : Bytes) (outSize : UInt32) (operation : HksOperation)

theorem checkTime_run :
    let checkTime : ServiceM Unit :=
      if operation.isBatchOperation then hksServiceCheckBatchUpdateTime env operation else pure ()
    (operation.InTime env s.tick ∧
        checkTime.run s = .ok () ((update inData outSize).asked operation s)) ∨
      ¬operation.InTime env s.tick ∧
        ∃ e, checkTime.run s = .error e ((update inData outSize).asked operation s) := by
  cases hb : operation.isBatchOperation
  case false => exact .inl ⟨fun h => absurd (hb.symm.trans h) (fun h => by cases h), by simp [asked, hb]⟩
  case true =>
    have hasked : (update inData outSize).asked operation s = { s with tick := s.tick + 1 } := by
      simp [asked, hb]
    rw [hasked]
    simp only [hksServiceCheckBatchUpdateTime, hksElapsedRealTime, ServiceEnv.sessions, if_pos,
      run_bind, run_modifyGet, HksOperation.InTime, hb]
    cases hclock : env.elapsedRealTime s.tick
    case error e =>
      refine .inr ⟨fun h => ?_, e, rfl⟩
      obtain ⟨_, h, _⟩ := h trivial
      cases h
    case ok curTime =>
      simp only [run_ofExcept_ok]
      by_cases hlate : operation.batchOperationTimestamp < curTime
      case pos =>
        refine .inr ⟨fun h => ?_, .invalidTimeOut, by simp [hlate]⟩
        obtain ⟨_, h, hle⟩ := h trivial
        cases h
        exact absurd hlate (UInt64.not_lt.mpr hle)
      case neg =>
        exact .inl ⟨fun _ => ⟨curTime, rfl, UInt64.not_lt.mp hlate⟩, by simp [hlate]⟩

theorem asked_ticked (call : OperationCall) : s.Ticked (call.asked operation s) := by
  cases call
  case update =>
    simp only [asked]
    split
    case isTrue => exact ⟨⟨rfl, rfl, Nat.le_succ _⟩, rfl⟩
    case isFalse => exact .refl s
  case finish => exact .refl s
  case abort => exact .refl s

-- The engine step of a call, and what comes after it.
theorem Outcome.of_made {call : OperationCall} {newParamSet : HksParamSet} {t s' : Sessions Engine}
    {release : Release}
    (hrelease : release = .unmark ∧ call.IsUpdate ∨ release = .delete ∧
      (call.IsUpdate → (call.engineCall handle newParamSet).Fails env.engine t.engine))
    (fits : call.Proceeds processInfo operation)
    (made : (newParamSetFor env operation processInfo paramSet).run (call.asked operation s) =
      .ok newParamSet t)
    (after : Sessions.Ticked
      { t with engine := (call.engineCall handle newParamSet).step env.engine t.engine } s') :
    call.Outcome env s handle processInfo paramSet operation release s' := by
  have ht := (newParamSetFor_fixed env operation processInfo paramSet).ticked (call.asked operation s)
  rw [made] at ht
  have ht := (asked_ticked s operation call).trans ht
  refine .reached (ht.engine ▸ hrelease) fits made ?_ (ht.engine ▸ after.engine)
  exact ht.toBeside.trans ⟨after.operations, after.operationCount, after.tick⟩

theorem updateOperation_run :
    ∃ ret release s', (updateOperation env handle processInfo paramSet inData outSize operation).run s
      = .ok (ret, release) s' ∧
      (update inData outSize).Outcome env s handle processInfo paramSet operation release s' := by
  unfold updateOperation
  split
  case isTrue => exact ⟨_, _, s, rfl, .refused (.inr ⟨rfl, trivial⟩) (.refl s)⟩
  case isFalse fits =>
    have fits := not_ne_iff.mp fits
    have hasked := asked_ticked s operation (update inData outSize)
    simp only [run_bind, run_attempt]
    rcases checkTime_run env s inData outSize operation with ⟨_, hrun⟩ | ⟨late, e, hrun⟩
    case inr =>
      rw [hrun]
      exact ⟨_, _, _, rfl, .late rfl trivial fits late hasked⟩
    case inl =>
      rw [hrun]
      simp only [Result.toExcept, Result.final_ok, run_bind, run_attempt]
      cases made : (newParamSetFor env operation processInfo paramSet).run
        ((update inData outSize).asked operation s)
      case error e t =>
        have ht := (newParamSetFor_fixed env operation processInfo paramSet).ticked
          ((update inData outSize).asked operation s)
        rw [made] at ht
        exact ⟨_, _, t, rfl, .unmade rfl fits made (hasked.trans ht)⟩
      case ok newParamSet t =>
        simp only [Result.final_ok, run_bind, run_attempt, huksAccess_run]
        have hexec := run_discard (hksCoreUpdate env.engine handle newParamSet inData outSize) t.engine
        cases hr : (hksCoreUpdate env.engine handle newParamSet inData outSize).run t.engine <;>
          rw [hr] at hexec
        case ok outData e =>
          refine ⟨_, _, _, rfl, .of_made env s _ _ _ _ (.inl ⟨rfl, trivial⟩) fits made ?_⟩
          simp only [engineCall, EngineCall.step, EngineCall.exec, hexec, Result.final_ok]
          exact .refl _
        case error err e =>
          refine ⟨_, _, _, rfl, .of_made env s _ _ _ _ (.inr ⟨rfl, fun _ => ⟨err, e, hexec⟩⟩) fits made ?_⟩
          simp only [engineCall, EngineCall.step, EngineCall.exec, hexec, Result.final_error]
          exact .refl _

theorem finishOperation_run :
    ∃ ret release s', (finishOperation env handle processInfo paramSet inData outSize operation).run s
      = .ok (ret, release) s' ∧
      (finish inData outSize).Outcome env s handle processInfo paramSet operation release s' := by
  unfold finishOperation
  split
  case isTrue differ => exact ⟨_, _, s, rfl, .refused (.inl ⟨rfl, differ⟩) (.refl s)⟩
  case isFalse fits =>
    have fits := not_ne_iff.mp fits
    simp only [run_bind, run_attempt]
    cases made : (newParamSetFor env operation processInfo paramSet).run s
    case error e t =>
      have ht := (newParamSetFor_fixed env operation processInfo paramSet).ticked s
      rw [made] at ht
      exact ⟨_, _, t, rfl, .unmade rfl fits made ht⟩
    case ok newParamSet t =>
      simp only [huksAccess_run]
      have hexec := run_discard (hksCoreFinish env.engine handle newParamSet inData outSize) t.engine
      cases hr : (hksCoreFinish env.engine handle newParamSet inData outSize).run t.engine <;>
        rw [hr] at hexec
      case ok outData e =>
        refine ⟨_, _, _, rfl, .of_made env s _ _ _ _ (.inr ⟨rfl, nofun⟩) fits made ?_⟩
        simp only [engineCall, EngineCall.step, EngineCall.exec, hexec, Result.final_ok]
        exact (storeOrCopyKeyBlob_fixed env _ _ _ _).ticked _
      case error err e =>
        refine ⟨_, _, _, rfl, .of_made env s _ _ _ _ (.inr ⟨rfl, nofun⟩) fits made ?_⟩
        simp only [engineCall, EngineCall.step, EngineCall.exec, hexec, Result.final_error]
        exact .refl _

theorem abortOperation_run :
    ∃ ret release s', (abortOperation env handle processInfo paramSet operation).run s
      = .ok (ret, release) s' ∧
      abort.Outcome env s handle processInfo paramSet operation release s' := by
  unfold abortOperation
  simp only [run_bind, run_attempt]
  cases made : (newParamSetFor env operation processInfo paramSet).run s
  case error e t =>
    have ht := (newParamSetFor_fixed env operation processInfo paramSet).ticked s
    rw [made] at ht
    exact ⟨_, _, t, rfl, .unmade rfl trivial made ht⟩
  case ok newParamSet t =>
    simp only [Result.toExcept, Result.final_ok, run_bind, run_attempt, huksAccess_run]
    cases hr : (hksCoreAbort env.engine handle newParamSet).run t.engine
    case ok e =>
      refine ⟨_, _, _, rfl, .of_made env s _ _ _ _ (.inr ⟨rfl, (fun h => by cases h)⟩) trivial made ?_⟩
      simp only [engineCall, EngineCall.step, EngineCall.exec, hr, Result.final_ok]
      exact .refl _
    case error err e =>
      refine ⟨_, _, _, rfl, .of_made env s _ _ _ _ (.inr ⟨rfl, (fun h => by cases h)⟩) trivial made ?_⟩
      simp only [engineCall, EngineCall.step, EngineCall.exec, hr, Result.final_error]
      exact .refl _

variable {env s handle processInfo paramSet operation}

theorem Outcome.beside {call : OperationCall} {release : Release} {s' : Sessions Engine}
    (o : call.Outcome env s handle processInfo paramSet operation release s') : s.Beside s' := by
  cases o
  case refused ticked => exact ticked.toBeside
  case late ticked => exact ticked.toBeside
  case unmade ticked => exact ticked.toBeside
  case reached beside _ => exact beside

-- Only an operation of another token that a call tried to finish stays marked.
theorem Outcome.release_eq_none {call : OperationCall} {release : Release} {s' : Sessions Engine}
    (o : call.Outcome env s handle processInfo paramSet operation release s') :
    release = .none ↔ call.Mismatched processInfo operation := by
  cases o
  case refused h _ =>
    rcases h with ⟨hr, hm⟩ | ⟨hr, hu⟩
    · exact iff_of_true hr hm
    · refine iff_of_false (hr ▸ nofun) ?_
      cases call <;> first | exact id | cases hu
  case late hr _ fits _ _ => exact iff_of_false (hr ▸ nofun) fits.not_mismatched
  case unmade hr fits _ _ =>
    refine iff_of_false ?_ fits.not_mismatched
    rw [hr]
    cases call <;> nofun
  case reached hr fits _ _ _ =>
    refine iff_of_false ?_ fits.not_mismatched
    rcases hr with ⟨hr, _⟩ | ⟨hr, _⟩ <;> exact hr ▸ nofun

variable (env s handle processInfo paramSet operation)

theorem exec_run (call : OperationCall) :
    ∃ release s', (call.exec env handle processInfo paramSet operation).run s = .ok release s' ∧
      call.Outcome env s handle processInfo paramSet operation release s' := by
  cases call
  case update inData outSize =>
    have ⟨_, release, s', hrun, o⟩ :=
      updateOperation_run env s handle processInfo paramSet inData outSize operation
    exact ⟨release, s', by simp only [exec, run_bind, hrun, run_pure], o⟩
  case finish inData outSize =>
    have ⟨_, release, s', hrun, o⟩ :=
      finishOperation_run env s handle processInfo paramSet inData outSize operation
    exact ⟨release, s', by simp only [exec, run_bind, hrun, run_pure], o⟩
  case abort =>
    have ⟨_, release, s', hrun, o⟩ :=
      abortOperation_run env s handle processInfo paramSet operation
    exact ⟨release, s', by simp only [exec, run_bind, hrun, run_pure], o⟩

end OperationCall

-- What the three calls on operations have in common, without their outputs.
def OperationCall.serve (env : ServiceEnv) (handle : Bytes) (processInfo : HksProcessInfo)
    (paramSet : Option HksParamSet) (call : OperationCall) : ServiceM Unit := do
  match ← queryOperationAndMarkInUse processInfo handle with
  | none           => return
  | some operation =>
    releaseOperation handle operation (← call.exec env handle processInfo paramSet operation)

section Serve

variable (env : ServiceEnv) (s : Sessions Engine) (handle : Bytes) (processInfo : HksProcessInfo)
  (paramSet : Option HksParamSet) (inData : Bytes) (outSize : UInt32)

theorem run_release {α : Type} (operation : HksOperation) (x : ServiceM (Except HksErrorCode α × Release)) :
    ((do
      let (ret, release) ← x
      releaseOperation handle operation release
      MonadExcept.ofExcept ret : ServiceM α).run s).final =
    ((do releaseOperation handle operation (← (do return (← x).2)) : ServiceM Unit).run s).final := by
  simp only [run_bind]
  cases x.run s
  case error => rfl
  case ok r s' =>
    have ⟨s'', hrun⟩ := releaseOperation_ok handle operation r.2 s'
    simp only [run_pure, hrun]
    cases r.1 <;> rfl

theorem hksServiceUpdate_final :
    ((hksServiceUpdate env handle processInfo paramSet inData outSize).run s).final =
      (((OperationCall.update inData outSize).serve env handle processInfo paramSet).run s).final := by
  simp only [hksServiceUpdate, OperationCall.serve, run_bind]
  cases (queryOperationAndMarkInUse processInfo handle).run s
  case error => rfl
  case ok found s' =>
    cases found
    case none => rfl
    case some operation => exact run_release s' handle operation _

theorem hksServiceFinish_final {size : UInt32} (h : outputForFinish paramSet outSize = .ok size) :
    ((hksServiceFinish env handle processInfo paramSet inData outSize).run s).final =
      (((OperationCall.finish inData size).serve env handle processInfo paramSet).run s).final := by
  simp only [hksServiceFinish, OperationCall.serve, run_bind, h, run_ofExcept_ok]
  cases (queryOperationAndMarkInUse processInfo handle).run s
  case error => rfl
  case ok found s' =>
    cases found
    case none => rfl
    case some operation => exact run_release s' handle operation _

theorem hksServiceAbort_final :
    ((hksServiceAbort env handle processInfo paramSet).run s).final =
      ((OperationCall.abort.serve env handle processInfo paramSet).run s).final := by
  simp only [hksServiceAbort, OperationCall.serve, run_bind]
  cases (queryOperationAndMarkInUse processInfo handle).run s
  case error => rfl
  case ok found s' =>
    cases found
    case none => rfl
    case some operation => exact run_release s' handle operation _

end Serve

-- A key of the process `[2]` that keys are derived from, with further params
def deriveKey (params : List HksParam) : HksParamSet :=
  processKey [2] (.replicate 32 7) ([.ofUInt32 HksTag.algorithm HksKeyAlg.aes, .ofUInt32 HksTag.keySize 256,
    .ofUInt32 HksTag.purpose HksKeyPurpose.derive, .ofUInt32 HksTag.digest HksKeyDigest.sha256] ++ params)

-- Surroundings for runs on fixed inputs: that is the only key, and the clock, the storage and the system
-- services agree to everything.
def steadyService : ServiceEnv where
  engine                                  := steadyEnv (deriveKey [])
  l2Standard                              := false
  supportGetBundleInfo                    := false
  supportStorageBackup                    := false
  enableSkipUpgradeKeyStorageSecureLevel  := false
  elapsedRealTime _               := .ok 1000
  getKeyData _ _ _ _ _            := .ok [1]
  checkKeyCondition _ _ _ _       := .ok ()
  hksManageStoreKeyBlob _ _ _ _ _ := .ok ()
  getCallerName _ _               := .ok [1]
  hksGetCallerType _              := 0
  hksMatchConfig _ _              := .ok false
  checkTokenType _                := .ok ()
  sensitivePermissionCheck _      := .ok ()

def deriveParams : List HksParam := [
  .ofUInt32 HksTag.algorithm HksKeyAlg.hkdf,
  .ofUInt32 HksTag.purpose HksKeyPurpose.derive,
  .ofUInt32 HksTag.digest HksKeyDigest.sha256,
  .ofUInt32 HksTag.deriveKeySize 32]

def deriveParamSet : HksParamSet := scalarParamSet deriveParams

end Huks
