import Huks.Engine.KeyOperate

namespace Huks

open EStateM

-- Code that hands no context to any routine.
def Quiet {α : Type} (x : WorldM α) : Prop := ∀ events, Preserves (·.ctxEvents = events) x

namespace Quiet

variable {α β : Type} {x : WorldM α} {f : α → WorldM β}

theorem pure (a : α) : Quiet (pure a) := fun _ => .pure a

theorem ofExcept (x : Except HksErrorCode α) : Quiet (MonadExcept.ofExcept x) := fun _ => .ofExcept x

theorem bind (hx : Quiet x) (hf : ∀ a, Quiet (f a)) : Quiet (x >>= f) :=
  fun events => .bind (hx events) fun a => hf a events

theorem attempt (hx : Quiet x) : Quiet (EStateM.attempt x) := fun events => .attempt (hx events)

theorem next : Quiet World.next := fun _ _ h => h

theorem hksElapsedRealTime (env : EngineEnv) : Quiet (World.hksElapsedRealTime env) :=
  next.bind fun _ => ofExcept _

theorem hal (env : EngineEnv) (call : HalCall) : Quiet (World.hal env call) :=
  next.bind fun _ => ofExcept _

theorem fillRandom (env : EngineEnv) (size : Nat) : Quiet (World.fillRandom env size) :=
  (hal env _).bind fun _ => pure _

-- Only the number of questions to the surroundings changed.
theorem final_eq (hx : Quiet x) (w : World) : ∃ tick, (x.run w).final = { w with tick := tick } := by
  have h := hx w.ctxEvents w rfl
  refine ⟨(x.run w).final.tick, ?_⟩
  cases hf : (x.run w).final
  rw [hf] at h
  cases h
  rfl

end Quiet

section World

variable (env : EngineEnv)

theorem buildAuthRuntimeParamSet_quiet (innerParams : HksSecureAccessInnerParams) (b : Bool) :
    Quiet (buildAuthRuntimeParamSet env innerParams b) := by
  refine (Quiet.hksElapsedRealTime env).bind fun _ => ?_
  refine (Quiet.fillRandom env tokenSize).attempt.bind fun _ => ?_
  refine (Quiet.ofExcept _).bind fun _ => (Quiet.ofExcept _).bind fun _ => ?_
  exact (Quiet.ofExcept _).bind fun _ => .pure _

theorem hksVerifyAuthTokenSign_quiet (authToken : HksUserAuthToken) :
    Quiet (hksVerifyAuthTokenSign env authToken) := by
  refine Quiet.next.bind fun _ => (Quiet.ofExcept _).bind fun _ => ?_
  exact (Quiet.hal env _).bind fun _ events => .ite (.throw _) (.pure _)

theorem hksDecryptAuthToken_quiet (authToken : HksUserAuthToken) :
    Quiet (hksDecryptAuthToken env authToken) := by
  refine Quiet.next.bind fun _ => (Quiet.ofExcept _).bind fun _ => ?_
  exact (Quiet.hal env _).bind fun _ => .pure _

theorem verifyAuthToken_quiet (keyBlobParamSet authRuntimeParamSet : Option HksParamSet)
    (paramSet : HksParamSet) :
    Quiet (verifyAuthToken env keyBlobParamSet authRuntimeParamSet paramSet) := by
  refine (Quiet.ofExcept _).bind fun _ => (hksVerifyAuthTokenSign_quiet env _).bind fun _ => ?_
  refine (Quiet.ofExcept _).bind fun _ => (hksDecryptAuthToken_quiet env _).bind fun _ => ?_
  refine (Quiet.ofExcept _).bind fun _ => (Quiet.ofExcept _).bind fun _ => ?_
  exact .pure _

theorem checkIfNeedIsDevicePasswordSet_quiet (blobParamSet : Option HksParamSet) :
    Quiet (checkIfNeedIsDevicePasswordSet env blobParamSet) := by
  refine fun events => .ite (.bind (.ofExcept _) fun _ => .bind (Quiet.next events) fun n => ?_)
    (.pure _)
  dsimp only
  exact .ite (.throw _) (.pure _)

theorem hksProcessIdentityVerify_quiet (blobParamSet : Option HksParamSet)
    (runtimeParamSet : HksParamSet) :
    Quiet (hksProcessIdentityVerify env blobParamSet runtimeParamSet) := by
  refine (Quiet.ofExcept _).bind fun _ => (Quiet.ofExcept _).bind fun _ => ?_
  exact (Quiet.ofExcept _).bind fun _ => checkIfNeedIsDevicePasswordSet_quiet env _

end World

-- The code for the access to secure keys works on the authentication of a node only.
def AuthFree (P : NodeState → Prop) : Prop := ∀ s auth tick history, P s →
  P ⟨{ s.node with authRuntimeParamSet := auth }, { s.world with tick := tick }, history⟩

section AuthFree

variable {P : NodeState → Prop} (hP : AuthFree P) (env : EngineEnv)
include hP

theorem AuthFree.lift {α : Type} {x : WorldM α} (hx : Quiet x) :
    Preserves P (liftM x : NodeM α) := by
  intro s h
  change P ((zoom NodeState.worldLens x).run s).final
  have ⟨tick, hfinal⟩ := hx.final_eq s.world
  rw [final_zoom]
  change P { s with world := (x.run s.world).final }
  rw [hfinal]
  exact hP s s.node.authRuntimeParamSet tick s.history h

theorem AuthFree.modifyAuth (f : HksParamSet → HksParamSet) : Preserves P (modifyAuth f) :=
  fun s h => hP s _ s.world.tick s.history h

theorem AuthFree.recordNode (event : History → HuksKeyNode → NodeEvent) :
    Preserves P (recordNode event) :=
  fun s h => hP s s.node.authRuntimeParamSet s.world.tick _ h

theorem hksCoreSecureAccessInitParams_authFree (initParamSet : HksParamSet) (outTokenSize : Nat) :
    Preserves P (hksCoreSecureAccessInitParams env initParamSet outTokenSize) := by
  refine .bind .get fun _ => .bind (.ofExcept _) fun _ => ?_
  refine .bind (hP.lift (buildAuthRuntimeParamSet_quiet env _ _)) fun _ => ?_
  refine .bind (.modify fun s h => ?_) fun _ => .pure _
  exact hP s _ s.world.tick s.history h

theorem hksAddVerifiedAuthTokenIfNeed_authFree (authToken : HksUserAuthToken) :
    Preserves P (hksAddVerifiedAuthTokenIfNeed authToken) := by
  refine .bind .get fun s => ?_
  split
  case h_1 => exact .throw _
  case h_2 =>
    refine .bind (.ofExcept _) fun _ => .ite (.bind (.ofExcept _) fun _ => ?_) (.pure _)
    exact hP.modifyAuth _

theorem assignVerifyResult_authFree (authToken : Except HksErrorCode HksUserAuthToken) :
    Preserves P (assignVerifyResult authToken) := by
  cases authToken
  case error => exact .bind (hP.modifyAuth _) fun _ => .throw _
  case ok authToken =>
    refine .bind (hP.modifyAuth _) fun _ => .bind (hP.recordNode _) fun _ => ?_
    exact .bind (.attempt (hksAddVerifiedAuthTokenIfNeed_authFree hP authToken)) fun _ => .ofExcept _

theorem hksCoreSecureAccessVerifyParams_authFree (paramSet : HksParamSet) :
    Preserves P (hksCoreSecureAccessVerifyParams env paramSet) := by
  refine .bind .get fun s => .bind (.ofExcept _) fun authResult => ?_
  split
  case h_1 => exact .pure _
  case h_2 =>
    refine .ite (.throw _) <| .bind (.attempt (hP.lift (verifyAuthToken_quiet env _ _ _))) ?_
    exact fun _ => assignVerifyResult_authFree hP _

theorem doAppendPrefixAuthInfoToUpdateInData_authFree (secureSignInfo inData : Bytes) :
    Preserves P (doAppendPrefixAuthInfoToUpdateInData secureSignInfo inData) := by
  unfold doAppendPrefixAuthInfoToUpdateInData
  refine .guard <| .bind .get fun _ => .bind (.ofExcept _) fun _ => ?_
  exact .guard <| .bind (hP.modifyAuth _) fun _ => .pure _

theorem hksCoreAppendAuthInfoBeforeUpdate_authFree (pur : UInt32) (inData : Bytes) :
    Preserves P (hksCoreAppendAuthInfoBeforeUpdate env pur inData) := by
  refine .ite (.pure _) <| .bind .get fun s => .bind (.ofExcept _) fun authResult => ?_
  split
  case h_1 => exact .pure _
  case h_2 =>
    refine .guard <| .bind (.ofExcept _) fun _ => ?_
    refine .bind (doAppendPrefixAuthInfoToUpdateInData_authFree hP _ _) fun _ => ?_
    exact .bind (hP.modifyAuth _) fun _ => .pure _

omit hP in
theorem hksCoreAppendAuthInfoAfterFinish_preserves (pur outSize : UInt32) (outData : Bytes) :
    Preserves P (hksCoreAppendAuthInfoAfterFinish pur outSize outData) := by
  refine .ite (.pure _) <| .bind .get fun _ => .bind (.ofExcept _) fun _ => ?_
  exact .ite (.ofExcept _) (.pure _)

theorem recordExecuted_authFree (stage : Stage) (pur : UInt32) (isBatch : Bool) :
    Preserves P (recordExecuted stage pur isBatch) := by
  refine .bind .get fun s => ?_
  split
  case h_1 => exact .pure _
  case h_2 => exact hP.recordNode _

theorem resetAuth_authFree : Preserves P resetAuth := by
  refine .bind .get fun s => .bind (.bind (.ofExcept _) fun _ => .pure _) fun _ => ?_
  refine .bind (hP.modifyAuth _) fun _ => .bind (.bind (.ofExcept _) fun _ => .pure _) fun _ => ?_
  exact hP.modifyAuth _

theorem hksCheckBatchUpdateTime_authFree : Preserves P (hksCheckBatchUpdateTime env) := by
  refine .bind (hP.lift (.hksElapsedRealTime env)) fun _ => .bind .get fun _ => ?_
  exact .ite (.throw _) (.pure _)

end AuthFree

-- After init a call changes the authentication and the context of its node only.
def NodeFixed (P : NodeState → Prop) : Prop := ∀ s auth ctx world history, P s →
  P ⟨{ s.node with authRuntimeParamSet := auth, ctx := ctx }, world, history⟩

-- A batch call changes the authentication of the node it works for only.
def AuthFixed (P : NodeState → Prop) : Prop := ∀ s auth world history, P s →
  P ⟨{ s.node with authRuntimeParamSet := auth }, world, history⟩

theorem AuthFixed.authFree {P : NodeState → Prop} (hP : AuthFixed P) : AuthFree P :=
  fun s auth _ history h => hP s auth _ history h

theorem NodeFixed.authFixed {P : NodeState → Prop} (hP : NodeFixed P) : AuthFixed P :=
  fun s auth _ history h => hP s auth s.node.ctx _ history h

theorem NodeFixed.authFree {P : NodeState → Prop} (hP : NodeFixed P) : AuthFree P :=
  hP.authFixed.authFree

section NodeFixed

variable {P : NodeState → Prop} (hP : NodeFixed P) (env : EngineEnv) (paramSet : HksParamSet)
  (inData : Bytes) (outSize : UInt32)
include hP

theorem onCtx_fixed {α : Type} (x : HksParamSet → HksParamSet → CtxM α) : Preserves P (onCtx x) := by
  refine .bind .get fun s => ?_
  dsimp only
  split
  case h_1 =>
    refine .zoom (Q := fun _ => True) (fun _ _ => trivial) (fun _ _ => trivial) fun s c h _ => ?_
    exact hP s s.node.authRuntimeParamSet c.ctx c.world s.history h
  case h_2 => exact .throw _

omit hP in
theorem runtimePurposeAndAlgorithm_preserves : Preserves P runtimePurposeAndAlgorithm :=
  .bind .get fun _ => .ofExcept _

theorem hksCoreUpdateProcess_fixed : Preserves P (hksCoreUpdateProcess env paramSet inData outSize) := by
  refine .bind runtimePurposeAndAlgorithm_preserves fun _ => .ite (.throw _) ?_
  refine .bind (hksCoreAppendAuthInfoBeforeUpdate_authFree hP.authFree env _ _) fun _ => ?_
  exact .bind (recordExecuted_authFree hP.authFree _ _ _) fun _ => onCtx_fixed hP _

theorem hksCoreFinishProcess_fixed (isBatch : Bool) :
    Preserves P (hksCoreFinishProcess env isBatch paramSet inData outSize) := by
  refine .bind runtimePurposeAndAlgorithm_preserves fun _ => .ite (.throw _) ?_
  refine .bind (hksCoreAppendAuthInfoBeforeUpdate_authFree hP.authFree env _ _) fun _ => ?_
  refine .bind (recordExecuted_authFree hP.authFree _ _ _) fun _ => ?_
  refine .bind (onCtx_fixed hP _) fun _ => ?_
  exact hksCoreAppendAuthInfoAfterFinish_preserves _ _ _

omit hP in
theorem hksBatchUpdate_fixed (hP : AuthFixed P) :
    Preserves P (hksBatchUpdate env paramSet inData outSize) := by
  refine .bind (resetAuth_authFree hP.authFree) fun _ => ?_
  refine .bind (hksCheckBatchUpdateTime_authFree hP.authFree env) fun _ => ?_
  refine .bind .get fun _ => .bind (.ofExcept _) fun batchKeyNode => ?_
  refine .zoom (Q := fun _ => True) (fun _ _ => trivial) (fun _ _ => trivial) fun s t h _ => ?_
  exact hP s t.node.authRuntimeParamSet _ t.history h

theorem updateKeyNode_fixed : Preserves P (updateKeyNode env paramSet inData outSize) := by
  refine .bind .get fun _ => ?_
  refine .bind (hP.authFree.lift (checkIfNeedIsDevicePasswordSet_quiet env _)) fun _ => ?_
  refine .bind (hksCoreSecureAccessVerifyParams_authFree hP.authFree env _) fun _ => ?_
  refine .bind .get fun _ => ?_
  split
  case h_1 => exact hksBatchUpdate_fixed env _ _ _ hP.authFixed
  case h_2 => exact hksCoreUpdateProcess_fixed hP env _ _ _
  case h_3 => exact .throw _

theorem finishKeyNode_fixed : Preserves P (finishKeyNode env paramSet inData outSize) := by
  refine .bind .get fun _ => ?_
  refine .bind (hP.authFree.lift (checkIfNeedIsDevicePasswordSet_quiet env _)) fun _ => ?_
  refine .bind .get fun _ => ?_
  split
  case h_1 => exact .pure _
  case h_2 =>
    refine .bind (hksCoreSecureAccessVerifyParams_authFree hP.authFree env _) fun _ => ?_
    exact hksCoreFinishProcess_fixed hP env _ _ _ _
  case h_3 => exact .throw _

theorem abortKeyNode_fixed : Preserves P (abortKeyNode env paramSet) :=
  .bind runtimePurposeAndAlgorithm_preserves fun _ => onCtx_fixed hP _

end NodeFixed

end Huks
