import Huks.Lib.MarkProtocol
import Huks.Service.Theorems.ServiceFrame
import Huks.Service.Theorems.SessionRuns

namespace Huks

open EStateM

namespace Sessions

variable {σ : Type} {s s' : Sessions σ}

-- The addresses of the operations in use.
def inUse (s : Sessions σ) : Set Nat := { addr | ∃ o ∈ s.operations, o.isInUse ∧ o.addr = addr }

theorem Beside.inUse (h : s.Beside s') : s'.inUse = s.inUse := by
  simp only [Sessions.inUse, h.operations]

theorem inUse_eq (h : ∀ o : HksOperation, o.isInUse → (o ∈ s'.operations ↔ o ∈ s.operations)) :
    s'.inUse = s.inUse := by
  ext addr
  constructor
  · intro ⟨o, ho, hu, ha⟩
    exact ⟨o, (h o hu).mp ho, hu, ha⟩
  · intro ⟨o, ho, hu, ha⟩
    exact ⟨o, (h o hu).mpr ho, hu, ha⟩

theorem inUse_of_removed (h : Removed s s') : s'.inUse = s.inUse :=
  inUse_eq fun o hu => ⟨fun ho => h.sublist.subset ho, fun ho => h.inUse o ho hu⟩

theorem WF.eq_of_addr (wf : s.WF) {o p : HksOperation} (ho : o ∈ s.operations)
    (hp : p ∈ s.operations) (h : o.addr = p.addr) : o = p :=
  List.inj_on_of_nodup_map wf.nodup ho hp h

theorem inUse_mark {o : HksOperation} (ho : o ∈ s.operations) :
    ((markOperation o.addr true).run s).final.inUse = insert o.addr s.inUse := by
  ext addr
  simp only [inUse, markOperation, run_modify, Result.final_ok, List.mem_map, Set.mem_ofPred_eq,
    Set.mem_insert_iff]
  constructor
  · rintro ⟨_, ⟨p, hp, rfl⟩, hu, rfl⟩
    split at hu
    case isTrue he => exact .inl (by simp [he])
    case isFalse he => exact .inr ⟨p, hp, hu, by simp [he]⟩
  · rintro (rfl | ⟨p, hp, hu, rfl⟩)
    · exact ⟨_, ⟨o, ho, rfl⟩, by simp, by simp⟩
    · refine ⟨_, ⟨p, hp, rfl⟩, ?_, ?_⟩ <;> split <;> simp [hu]

theorem inUse_unmark (addr : Nat) :
    ((markOperation addr false).run s).final.inUse = s.inUse \ {addr} := by
  ext a
  simp only [inUse, markOperation, run_modify, Result.final_ok, List.mem_map, Set.mem_ofPred_eq,
    Set.mem_sdiff, Set.mem_singleton_iff]
  constructor
  · rintro ⟨_, ⟨p, hp, rfl⟩, hu, rfl⟩
    split at hu
    case isTrue => cases hu
    case isFalse he => exact ⟨⟨p, hp, hu, by simp [he]⟩, by simp [he]⟩
  · rintro ⟨⟨p, hp, hu, rfl⟩, hne⟩
    exact ⟨_, ⟨p, hp, rfl⟩, by simpa [hne] using hu, by simp [hne]⟩

theorem WF.not_inUse (wf : s.WF) {o : HksOperation} (ho : o ∈ s.operations)
    (idle : o.isInUse = false) : o.addr ∉ s.inUse := by
  intro ⟨p, hp, hu, ha⟩
  rw [wf.eq_of_addr hp ho ha, idle] at hu
  cases hu

end Sessions

-- `CreateOperation` touches idle operations only.
theorem createOperation_inUse {σ : Type} (env : SessionEnv σ) (processInfo : HksProcessInfo)
    (paramSet : Option HksParamSet) (operationHandle : Bytes) (abortable : Bool) {s : Sessions σ}
    (wf : s.WF) :
    let s' := ((createOperation env processInfo paramSet operationHandle abortable).run s).final
    s'.WF ∧ s'.inUse = s.inUse := by
  obtain ⟨s₁, s', e, wf', h⟩ := createOperation_run env processInfo paramSet operationHandle
    abortable wf
  have kept (o : HksOperation) (hu : o.isInUse) : o ∈ s₁.operations ↔ o ∈ s.operations :=
    ⟨fun ho => e.evicts.sublist.subset ho, fun ho => e.evicts.mem ho (by simp [sessionPolicy, hu])⟩
  cases h
  case inl h =>
    obtain ⟨hrun, ⟨o, ho, _, hops⟩, _⟩ := h
    rw [hrun]
    refine ⟨wf', Sessions.inUse_eq fun p hu => ?_⟩
    rw [Result.final_ok, hops, List.mem_append, List.mem_singleton, ← kept p hu]
    refine or_iff_left ?_
    rintro rfl
    rw [ho.isInUse] at hu
    cases hu
  case inr h =>
    obtain ⟨hs, _, e, hrun⟩ := h
    rw [hrun]
    exact ⟨wf', Sessions.inUse_eq fun p hu => hs ▸ kept p hu⟩

namespace ServiceThread

-- A thread that is alone does what its call does.
section Alone

variable (env : ServiceEnv) (s : Sessions Engine)

theorem steps_returned (n : Nat) : (steps env n returned).run s = .ok returned s := by
  induction n
  case zero => rfl
  case succ n ih => exact ih

theorem steps_deleting (n : Nat) (handle : Bytes) :
    (steps env (n + 1) (deleting handle)).run s =
      .ok returned ((deleteOperation handle).run s).final := by
  obtain ⟨s', hrun⟩ := deleteOperation_ok handle s
  simp only [steps_succ, step, run_bind, hrun, run_pure, steps_returned, Result.final_ok]

theorem steps_marked (n : Nat) (handle : Bytes) (processInfo : HksProcessInfo)
    (paramSet : Option HksParamSet) (call : OperationCall) (operation : HksOperation) :
    (steps env (n + 3) (marked handle processInfo paramSet call operation)).run s =
      .ok returned ((do
        releaseOperation handle operation
          (← call.exec env handle processInfo paramSet operation) : ServiceM Unit).run s).final := by
  have ⟨release, s', hrun, _⟩ :=
    call.exec_run env s handle processInfo paramSet operation
  rw [steps_succ]
  simp only [step, run_bind, hrun]
  cases release
  case none => exact steps_returned env s' (n + 2)
  case unmark => exact steps_returned env _ (n + 1)
  case delete => exact steps_deleting env _ n handle

theorem steps_querying (n : Nat) (handle : Bytes) (processInfo : HksProcessInfo)
    (paramSet : Option HksParamSet) (call : OperationCall) :
    (steps env (n + 4) (querying handle processInfo paramSet call)).run s =
      .ok returned ((call.serve env handle processInfo paramSet).run s).final := by
  rw [steps_succ]
  simp only [step, OperationCall.serve, run_bind]
  cases queryOperationAndMarkInUse_run processInfo handle s
  case inl hrun =>
    rw [hrun]
    exact steps_returned env s (n + 3)
  case inr h =>
    obtain ⟨o, _, _, hrun⟩ := h
    rw [hrun]
    exact steps_marked env _ n handle processInfo paramSet call _

theorem steps_creating (n : Nat) (processInfo : HksProcessInfo) (paramSet : Option HksParamSet)
    (handle : UInt64) :
    (steps env (n + 1) (creating processInfo paramSet handle)).run s = .ok returned
      ((createOperation env.sessions processInfo paramSet (toBytes64 handle) true).run s).final := by
  simp only [steps_succ, step, run_bind, run_discard, run_attempt, run_pure, steps_returned]

-- What is left of `HksServiceInit` once the engine has its answer.
def continueInit (env : ServiceEnv) (processInfo : HksProcessInfo) (paramSet : Option HksParamSet)
    (x : ServiceM (UInt64 × Bytes)) : ServiceM (UInt64 × Bytes) := do
  let (handle, token) ← x
  createOperation env.sessions processInfo paramSet (toBytes64 handle) true
  return (handle, token)

theorem steps_created (n : Nat) (processInfo : HksProcessInfo) (paramSet : Option HksParamSet)
    (r : UInt64 × Bytes) :
    (steps env (n + 1) (creating processInfo paramSet r.1)).run s =
      .ok returned ((continueInit env processInfo paramSet (pure r)).run s).final := by
  simp only [steps_creating, continueInit, run_bind, run_pure]
  cases (createOperation env.sessions processInfo paramSet (toBytes64 r.1) true).run s <;> rfl

theorem steps_backup (n : Nat) (processInfo : HksProcessInfo) (key : Bytes)
    (paramSet newParamSet : Option HksParamSet) (handleSize tokenSize : Nat) (e : HksErrorCode) :
    ((do
      steps env (n + 2) (← startInit env processInfo key paramSet newParamSet handleSize tokenSize
        (.error e)) : ServiceM ServiceThread).run s) =
      .ok returned ((continueInit env processInfo paramSet
        (huksAccessInitBackup env processInfo key newParamSet handleSize tokenSize e)).run s).final := by
  simp only [continueInit, huksAccessInitBackup, startInit, run_bind]
  split_ifs
  · simp only [run_bind, run_attempt]
    cases (getKeyData env processInfo key newParamSet .bakKey).run s
    case error e s' => exact steps_returned env s' (n + 2)
    case ok keyFromFile s' =>
      simp only [Result.toExcept, run_pure, Result.final_ok]
      rw [steps_succ]
      simp only [step, run_bind, run_attempt]
      cases (huksAccessInit env keyFromFile newParamSet handleSize tokenSize).run s'
      case ok r s'' => exact steps_created env s'' n processInfo paramSet r
      case error e s'' => exact steps_returned env s'' (n + 1)
  · exact steps_returned env s (n + 2)

theorem steps_init (processInfo : HksProcessInfo) (key : Bytes) (paramSet : Option HksParamSet)
    (handleSize tokenSize : Nat) :
    (steps env 5 (.started (.init processInfo key paramSet handleSize tokenSize))).run s =
      .ok returned
        ((hksServiceInit env processInfo key paramSet handleSize tokenSize).run s).final := by
  rw [steps_succ]
  simp only [hksServiceInit, initInEngine, step, run_bind]
  cases hksCheckServiceInitParams processInfo.processName key paramSet
  case error => exact steps_returned env s 4
  case ok =>
    obtain ⟨⟨keyFromFile, newParamSet⟩, s₁, hrun, _⟩ :=
      getKeyAndNewParamSet_run env processInfo key paramSet s
    simp only [run_ofExcept_ok, run_bind, hrun, run_attempt]
    cases keyFromFile
    case error e => exact steps_backup env s₁ 2 ..
    case ok keyFromFile =>
      simp only [run_ofExcept_ok, startInit, run_pure]
      rw [steps_succ]
      simp only [step, run_bind, run_attempt]
      cases (huksAccessInit env keyFromFile newParamSet handleSize tokenSize).run s₁
      case ok r s₂ => exact steps_created env s₂ 2 processInfo paramSet r
      case error e s₂ => exact steps_backup env s₂ 1 ..

theorem steps_call (wf : s.WF) (c : ServiceCall) :
    (steps env 5 (.started c)).run s = .ok returned (c.step env s) := by
  cases c
  case init processInfo key paramSet handleSize tokenSize =>
    rw [steps_init, ServiceCall.step, ServiceCall.exec, run_discard]
    cases (hksServiceInit env processInfo key paramSet handleSize tokenSize).run s <;> rfl
  case update handle processInfo paramSet inData outSize =>
    refine (steps_querying env s 0 handle processInfo paramSet (.update inData outSize)).trans ?_
    rw [ServiceCall.step, ServiceCall.exec, ← hksServiceUpdate_final, run_discard]
    cases (hksServiceUpdate env handle processInfo paramSet inData outSize).run s <;> rfl
  case finish handle processInfo paramSet inData outSize =>
    rw [ServiceCall.step, ServiceCall.exec, run_discard, steps]
    simp only [step]
    cases hsize : outputForFinish paramSet outSize
    case error =>
      simp only [hksServiceFinish, hsize]
      exact steps_returned env s 4
    case ok size =>
      refine (steps_querying env s 0 handle processInfo paramSet (.finish inData size)).trans ?_
      rw [← hksServiceFinish_final env s handle processInfo paramSet inData outSize hsize]
      cases (hksServiceFinish env handle processInfo paramSet inData outSize).run s <;> rfl
  case abort handle processInfo paramSet =>
    refine (steps_querying env s 0 handle processInfo paramSet .abort).trans ?_
    rw [ServiceCall.step, ServiceCall.exec, ← hksServiceAbort_final]
  case deleteProcessInfo processInfo =>
    obtain ⟨s', hrun, _⟩ := deleteSessionByProcessInfo_run env.sessions processInfo wf
    rw [steps_succ]
    simp only [step, ServiceCall.step, ServiceCall.exec, hksServiceDeleteProcessInfo, run_bind, hrun,
      run_pure, Result.final_ok]
    exact steps_returned env s' 4

end Alone

variable {s s' : Sessions Engine} {t t' : ServiceThread}

-- The thread is about to finish an operation of another token.
def Mismatched : ServiceThread → Prop
  | marked _ processInfo _ call operation => call.Mismatched processInfo operation
  | _                                     => False

-- What one step of a thread does to the marks.
inductive Effect (s : Sessions Engine) (t : ServiceThread) (s' : Sessions Engine) (t' : ServiceThread) :
    Prop
  | keep (holds : t'.holds = t.holds) (inUse : s'.inUse = s.inUse) (fits : ¬t.Mismatched)
  | mark (addr : Nat) (idle : t.holds = none) (free : addr ∉ s.inUse) (holds : t'.holds = some addr)
    (inUse : s'.inUse = insert addr s.inUse) (fits : ¬t.Mismatched)
  | unmark (addr : Nat) (held : t.holds = some addr) (holds : t'.holds = none)
    (inUse : s'.inUse = s.inUse \ {addr}) (fits : ¬t.Mismatched)
  | forget (addr : Nat) (held : t.holds = some addr) (holds : t'.holds = none)
    (inUse : s'.inUse = s.inUse) (mismatched : t.Mismatched)

variable (env : ServiceEnv)

theorem startInit_run (processInfo : HksProcessInfo) (key : Bytes)
    (paramSet newParamSet : Option HksParamSet) (handleSize tokenSize : Nat)
    (keyFromFile : Except HksErrorCode Bytes) (s : Sessions Engine) :
    ∃ t' s', (startInit env processInfo key paramSet newParamSet handleSize tokenSize
      keyFromFile).run s = .ok t' s' ∧ s.Ticked s' ∧ t'.holds = none := by
  unfold startInit
  split
  case h_1 => exact ⟨_, _, rfl, .refl s, rfl⟩
  case h_2 =>
    split
    case isFalse => exact ⟨_, _, rfl, .refl s, rfl⟩
    case isTrue =>
      have hkey := (getKeyData_fixed env processInfo key newParamSet .bakKey).ticked s
      simp only [run_bind, run_attempt]
      split
      case h_1 => exact ⟨_, _, rfl, hkey, rfl⟩
      case h_2 => exact ⟨_, _, rfl, hkey, rfl⟩

theorem step_effect (wf : s.WF) (t : ServiceThread) :
    ∃ t' s', (t.step env).run s = .ok t' s' ∧ s'.WF ∧ Effect s t s' t' := by
  have keep {t' : ServiceThread} {s' : Sessions Engine} (h : s.Beside s') (hold : t'.holds = t.holds)
      (fits : ¬t.Mismatched) : s'.WF ∧ Effect s t s' t' := ⟨h.wf wf, .keep hold h.inUse fits⟩
  cases t
  case started call =>
    cases call
    case init processInfo key paramSet handleSize tokenSize =>
      simp only [step]
      split
      case h_1 => exact ⟨_, s, rfl, keep (.refl s) rfl id⟩
      case h_2 =>
        obtain ⟨r, s₁, hrun, h₁⟩ := getKeyAndNewParamSet_run env processInfo key paramSet s
        obtain ⟨t', s', hrun', h₂, hold⟩ := startInit_run env processInfo key paramSet r.2 handleSize
          tokenSize r.1 s₁
        exact ⟨t', s', by simp only [run_bind, hrun, hrun'], keep (h₁.trans h₂).toBeside hold id⟩
    case update => exact ⟨_, s, rfl, keep (.refl s) rfl id⟩
    case finish handle processInfo paramSet inData outSize =>
      simp only [step]
      split
      case h_1 => exact ⟨_, s, rfl, keep (.refl s) rfl id⟩
      case h_2 => exact ⟨_, s, rfl, keep (.refl s) rfl id⟩
    case abort => exact ⟨_, s, rfl, keep (.refl s) rfl id⟩
    case deleteProcessInfo processInfo =>
      obtain ⟨s', hrun, _, h⟩ := deleteSessionByProcessInfo_run env.sessions processInfo wf
      refine ⟨.returned, s', ?_, h.wf, .keep rfl (Sessions.inUse_of_removed h) id⟩
      simp only [step, hksServiceDeleteProcessInfo, run_bind, hrun, run_pure]
  case initing processInfo key paramSet newParamSet handleSize tokenSize keyFromFile isBackup =>
    have h := huksAccessInit_beside env keyFromFile newParamSet handleSize tokenSize s s (.refl s)
    simp only [step, run_bind, run_attempt]
    split
    case h_1 => exact ⟨_, _, rfl, keep h rfl id⟩
    case h_2 e _ =>
      split
      case isTrue => exact ⟨_, _, rfl, keep h rfl id⟩
      case isFalse =>
        obtain ⟨t', s', hrun, h', hold⟩ := startInit_run env processInfo key paramSet newParamSet
          handleSize tokenSize (.error e)
          ((huksAccessInit env keyFromFile newParamSet handleSize tokenSize).run s).final
        exact ⟨t', s', hrun, keep (h.trans h'.toBeside) hold id⟩
  case creating processInfo paramSet handle =>
    obtain ⟨wf', h⟩ := createOperation_inUse env.sessions processInfo paramSet (toBytes64 handle) true wf
    exact ⟨.returned, _, by simp only [step, run_bind, run_discard, run_attempt, run_pure], wf',
      .keep rfl h id⟩
  case querying handle processInfo paramSet call =>
    cases queryOperationAndMarkInUse_run processInfo handle s
    case inl hrun => exact ⟨.returned, s, by simp only [step, run_bind, hrun, run_pure], keep (.refl s) rfl id⟩
    case inr h =>
      obtain ⟨o, ho, idle, hrun⟩ := h
      refine ⟨.marked handle processInfo paramSet call { o with isInUse := true }, _,
        by simp only [step, run_bind, hrun, run_pure], wf.mark o.addr true, ?_⟩
      exact .mark o.addr rfl (wf.not_inUse ho idle) rfl (Sessions.inUse_mark ho) id
  case marked handle processInfo paramSet call operation =>
    obtain ⟨release, s', hrun, o⟩ :=
      call.exec_run env s handle processInfo paramSet operation
    simp only [step, run_bind, hrun]
    split
    case h_1 =>
      exact ⟨_, _, rfl, o.beside.wf wf,
        .forget operation.addr rfl rfl o.beside.inUse (o.release_eq_none.mp rfl)⟩
    case h_2 hne => exact ⟨_, _, rfl, keep o.beside rfl fun hm => hne (o.release_eq_none.mpr hm)⟩
  case unmarking handle operation release =>
    refine ⟨_, _, rfl, wf.mark operation.addr false, ?_⟩
    refine .unmark operation.addr rfl ?_ (Sessions.inUse_unmark operation.addr) id
    split <;> rfl
  case deleting handle =>
    obtain ⟨s', hrun, _, h⟩ := deleteOperation_run handle wf
    exact ⟨.returned, s', by simp only [step, run_bind, hrun, run_pure], h.wf,
      .keep rfl (Sessions.inUse_of_removed h) id⟩
  case returned => exact ⟨_, s, by rw [step_returned, run_pure], keep (.refl s) rfl id⟩

end ServiceThread

namespace ServiceSystem

open MarkProtocol

def marks (s : ServiceSystem) : MarkProtocol.State Nat where
  marked  := s.sessions.inUse
  holders := s.threads.map ServiceThread.holds

-- Every operation in use belongs to a call in progress that will still release it.
def Released (s : ServiceSystem) : Prop :=
  ∀ o ∈ s.sessions.operations, o.isInUse → ∃ t ∈ s.threads, t.holds = some o.addr

def Mismatched (s : ServiceSystem) (i : Nat) : Prop := ∃ t, s.threads[i]? = some t ∧ t.Mismatched

variable {env : ServiceEnv} {s : ServiceSystem}

theorem accounted_marks : s.marks.Accounted ↔ s.Released := by
  constructor
  · intro h o ho hu
    have ⟨t, ht, hold⟩ := List.mem_map.mp (h o.addr ⟨o, ho, hu, rfl⟩)
    exact ⟨t, ht, hold⟩
  · rintro h _ ⟨o, ho, hu, rfl⟩
    have ⟨t, ht, hold⟩ := h o ho hu
    exact List.mem_map.mpr ⟨t, ht, hold⟩

-- The service runs the mark protocol, but for the calls that finish an operation of another token.
theorem step_marks (wf : s.sessions.WF) (i : Nat) :
    (s.step env i).sessions.WF ∧
      (¬s.Mismatched i → Step s.marks (s.step env i).marks) ∧
      (s.Mismatched i → Forget s.marks (s.step env i).marks) := by
  cases hi : s.threads[i]?
  case none =>
    have hstep : s.step env i = s := by simp only [step, hi]
    rw [hstep]
    refine ⟨wf, fun _ => .keep, fun ⟨t, ht, _⟩ => ?_⟩
    cases hi.symm.trans ht
  case some t =>
    have ⟨t', s', hrun, wf', effect⟩ := t.step_effect env wf
    have hstep : s.step env i = ⟨s', s.threads.set i t'⟩ := by simp only [step, hi, hrun]
    have hold : s.marks.holders[i]? = some t.holds := by simp [marks, hi]
    have hmarks : (s.step env i).marks = ⟨s'.inUse, s.marks.holders.set i t'.holds⟩ := by
      rw [hstep, marks, List.map_set]
      rfl
    have hfits : s.Mismatched i ↔ t.Mismatched :=
      ⟨fun ⟨u, hu, hm⟩ => Option.some.inj (hi.symm.trans hu) ▸ hm, fun hm => ⟨t, hi, hm⟩⟩
    rw [hmarks, hfits]
    refine ⟨hstep ▸ wf', ?_⟩
    cases effect with
    | keep holds inUse fits =>
      refine ⟨fun _ => ?_, fun h => absurd h fits⟩
      have ⟨_, hget⟩ := List.getElem?_eq_some_iff.mp hold
      rw [holds, inUse, ← hget, List.set_getElem_self]
      exact .keep
    | mark addr idle free holds inUse fits =>
      refine ⟨fun _ => ?_, fun h => absurd h fits⟩
      rw [holds, inUse]
      exact .mark (idle ▸ hold) free
    | unmark addr held holds inUse fits =>
      refine ⟨fun _ => ?_, fun h => absurd h fits⟩
      rw [holds, inUse]
      exact .unmark (held ▸ hold)
    | forget addr held holds inUse mismatched =>
      refine ⟨fun h => absurd mismatched h, fun _ => ?_⟩
      rw [holds, inUse]
      exact .intro (held ▸ hold)

theorem run_concat (s : ServiceSystem) (schedule : List Nat) (i : Nat) :
    s.run env (schedule ++ [i]) = (s.run env schedule).step env i :=
  List.foldl_concat ..

theorem holders_start (calls : List ServiceCall) {i addr : Nat} :
    (start calls).marks.holders[i]? ≠ some (some addr) := by
  intro h
  have ⟨t, ht, hold⟩ := List.mem_map.mp (List.mem_of_getElem? h)
  have ⟨call, _, hstarted⟩ := List.mem_map.mp ht
  rw [← hstarted] at hold
  cases hold

theorem run_wf (wf : s.sessions.WF) (schedule : List Nat) : (s.run env schedule).sessions.WF := by
  induction schedule generalizing s
  case nil => exact wf
  case cons i schedule ih => exact ih (step_marks wf i).left

end ServiceSystem

-- In every schedule of calls, every operation in use belongs to a call in progress exactly as long
-- as no call finishes an operation of another token; then none is in use when no call is in
-- progress.
theorem operations_released (env : ServiceEnv) (calls : List ServiceCall) (schedule : List Nat) :
    let s (pre : List Nat) := (ServiceSystem.start calls).run env pre
    ((∀ pre, pre <+: schedule → (s pre).Released) ↔
      ∀ pre i, pre ++ [i] <+: schedule → ¬(s pre).Mismatched i) ∧
    ∀ pre, (s pre).Released → (∀ t ∈ (s pre).threads, t.holds = none) →
      ∀ o ∈ (s pre).sessions.operations, o.isInUse = false := by
  intro s
  have wf (pre : List Nat) : (s pre).sessions.WF := ServiceSystem.run_wf (Sessions.WF.init _) pre
  have concat (pre : List Nat) (i : Nat) : s (pre ++ [i]) = (s pre).step env i :=
    ServiceSystem.run_concat _ _ _
  refine ⟨?_, fun pre released idle o ho => ?_⟩
  · simp only [← ServiceSystem.accounted_marks]
    refine MarkProtocol.accounted_iff ⟨fun hi => ?_, fun hi => ?_⟩ ?_ (fun pre i => ?_)
      (fun pre i => ?_) schedule
    · exact absurd hi (ServiceSystem.holders_start calls)
    · exact absurd hi (ServiceSystem.holders_start calls)
    · rintro _ ⟨o, ho, _⟩
      cases ho
    · exact concat pre i ▸ (ServiceSystem.step_marks (wf pre) i).2.1
    · exact concat pre i ▸ (ServiceSystem.step_marks (wf pre) i).2.2
  · by_contra hu
    have ⟨t, ht, hold⟩ := released o ho (by simpa using hu)
    cases (idle t ht).symm.trans hold

-- A session of token 7 that token 8, of the same process, tries to finish.
theorem operations_released_mismatch :
    ¬∀ (env : ServiceEnv) (calls : List ServiceCall) (schedule : List Nat),
      let s := (ServiceSystem.start calls).run env schedule
      (∀ t ∈ s.threads, t.holds = none) → ∀ o ∈ s.sessions.operations, o.isInUse = false := by
  intro h
  have := h steadyService
    [.init ⟨[1], [2], 0, 0, 7⟩ [9] deriveParamSet 8 32,
      .finish [0, 0, 0, 0, 0, 0, 0, 0] ⟨[1], [2], 0, 0, 8⟩ none [] 32] [0, 0, 0, 1, 1, 1]
  revert this
  decide +kernel

end Huks
