import Huks.Common.Theorems.Words
import Huks.Engine.Theorems.EngineRuns

namespace Huks

open Engine EStateM

def Engine.handles (s : Engine) : Set UInt64 := { h | ∃ n ∈ s.keyNodes, n.handle = h }

section Handles

variable {env : EngineEnv} {s : Engine} {handle : Bytes} {paramSet : HksParamSet}
  {l₁ l₂ : List HuksKeyNode} {n : HuksKeyNode} {keeps : Prop}

theorem Engine.sessionId_eq (env : EngineEnv) (s : Engine) (h : handle.length = 8) :
    s.sessionId env handle = le64 handle := by
  rw [sessionId, List.take_append_of_le_length (Nat.le_of_eq h.symm), List.take_of_length_le]
  exact Nat.le_of_eq h

theorem Engine.handles_put (hs : s.keyNodes = l₁ ++ n :: l₂) {t : NodeState}
    (ht : SameNode n t.node) : (s.put l₁ l₂ t).handles = s.handles := by
  ext h
  simp only [handles, put, hs, Set.mem_ofPred_eq, List.mem_append, List.mem_cons, or_and_right,
    exists_or, exists_eq_left, ht.handle]

theorem Engine.handles_drop (wf : s.WF) (hs : s.keyNodes = l₁ ++ n :: l₂) (t : NodeState) :
    (s.drop l₁ l₂ t).handles = s.handles \ {n.handle} := by
  have hn := wf.handles
  rw [hs, List.map_append, List.map_cons, List.nodup_append, List.nodup_cons] at hn
  have h₁ (m : HuksKeyNode) (hm : m ∈ l₁) : m.handle ≠ n.handle :=
    hn.2.2 _ (List.mem_map_of_mem hm) _ (by simp)
  have h₂ (m : HuksKeyNode) (hm : m ∈ l₂) : m.handle ≠ n.handle := fun he =>
    hn.2.1.1 (he ▸ List.mem_map_of_mem hm)
  ext h
  simp only [handles, drop, hs, Set.mem_ofPred_eq, Set.mem_sdiff, Set.mem_singleton_iff,
    List.mem_append, List.mem_cons]
  constructor
  · rintro ⟨m, hm, rfl⟩
    exact ⟨⟨m, hm.imp_right .inr, rfl⟩, hm.elim (h₁ m) (h₂ m)⟩
  · rintro ⟨⟨m, hm | rfl | hm, rfl⟩, hne⟩
    · exact ⟨m, .inl hm, rfl⟩
    · exact absurd rfl hne
    · exact ⟨m, .inr hm, rfl⟩

theorem Engine.Asked.handles {s' : Engine} (h : s.Asked s') : s'.handles = s.handles := by
  simp only [Engine.handles, h.keyNodes]

-- No call but an init adds a handle.
theorem CallOutcome.handles_subset {r : Result HksErrorCode Engine Unit}
    (o : CallOutcome env s handle paramSet keeps r) (wf : s.WF) : r.final.handles ⊆ s.handles := by
  cases o
  case notFound _ hasked => exact Eq.subset hasked.handles
  case dropped hs _ hfinal =>
    rw [hfinal, handles_drop wf.opened hs]
    exact Set.sdiff_subset
  case kept hs hsame _ hok =>
    have hput : (s.opened.put _ _ _).handles = s.opened.handles := handles_put hs hsame
    rw [hok, Result.final_ok, hput]
    rfl

-- The call that was to drop a node and found no fault with its param set has dropped it.
theorem CallOutcome.not_mem_handles {r : Result HksErrorCode Engine Unit}
    (o : CallOutcome env s handle paramSet keeps r) (wf : s.WF)
    (dropping : ∀ s', keeps → r ≠ .ok () s') (tags : hksCheckParamSetTag paramSet = .ok ())
    (length : handle.length = 8) : le64 handle ∉ r.final.handles := by
  cases o
  case notFound hnone hasked =>
    rw [found, if_pos ⟨tags, Nat.le_of_eq length⟩, sessionId_eq env s length,
      List.find?_eq_none] at hnone
    rw [hasked.handles]
    rintro ⟨m, hm, he⟩
    exact hnone m hm (by simpa using he)
  case dropped n l₁ l₂ t hsome hs _ hfinal =>
    have hn := List.find?_some (found_eq_some hsome).2.2
    rw [sessionId_eq env s length] at hn
    have hn : n.handle = le64 handle := by simpa using hn
    rw [hfinal, handles_drop wf.opened hs, hn]
    exact fun h => h.2 rfl
  case kept hkeeps hok => exact absurd hok (dropping _ hkeeps)

variable (env handle paramSet) in
theorem EngineCall.handles_update (wf : s.WF) (inData : Bytes) (outSize : UInt32) :
    ((update handle paramSet inData outSize).step env s).handles ⊆ s.handles ∧
      ((update handle paramSet inData outSize).Fails env s → hksCheckParamSetTag paramSet = .ok () →
        handle.length = 8 → le64 handle ∉ ((update handle paramSet inData outSize).step env s).handles) := by
  have o : CallOutcome env s handle paramSet True _ :=
    hksCoreUpdate_outcome wf.toLinked inData outSize
  refine ⟨o.handles_subset wf, fun ⟨e, s', hfails⟩ => o.not_mem_handles wf fun _ _ hok => ?_⟩
  cases hfails.symm.trans hok

variable (env handle paramSet) in
theorem EngineCall.handles_finish (wf : s.WF) (inData : Bytes) (outSize : UInt32) :
    ((finish handle paramSet inData outSize).step env s).handles ⊆ s.handles ∧
      (hksCheckParamSetTag paramSet = .ok () → handle.length = 8 →
        le64 handle ∉ ((finish handle paramSet inData outSize).step env s).handles) := by
  have o : CallOutcome env s handle paramSet False _ :=
    hksCoreFinish_outcome wf.toLinked inData outSize
  exact ⟨o.handles_subset wf, o.not_mem_handles wf nofun⟩

variable (env handle paramSet) in
theorem EngineCall.handles_abort (wf : s.WF) :
    ((abort handle paramSet).step env s).handles ⊆ s.handles ∧
      (hksCheckParamSetTag paramSet = .ok () → handle.length = 8 →
        le64 handle ∉ ((abort handle paramSet).step env s).handles) := by
  have o : CallOutcome env s handle paramSet False _ := hksCoreAbort_outcome wf.toLinked
  exact ⟨o.handles_subset wf, o.not_mem_handles wf nofun⟩

variable (env) in
theorem hksCoreInit_handles (wf : s.WF) (key : Bytes) (paramSet : HksParamSet)
    (handleSize tokenSize : Nat) :
    match (hksCoreInit env key paramSet handleSize tokenSize).run s with
    | .ok (h, _) s' => s'.WF ∧ s'.handles ⊆ insert h s.handles
    | .error _ s'   => s'.WF ∧ s'.handles ⊆ s.handles := by
  have hwf : ((EngineCall.init key paramSet handleSize tokenSize).step env s).WF :=
    EngineCall.step_wf wf _
  rw [EngineCall.step, EngineCall.exec, run_discard] at hwf
  cases hksCoreInit_run env key paramSet handleSize tokenSize wf
  case inl h =>
    obtain ⟨e, k, s', hrun, _, hasked⟩ := h
    rw [hrun] at hwf ⊢
    exact ⟨hwf, Eq.subset hasked.handles⟩
  case inr h =>
    obtain ⟨new, s₁, l₁, _, created, hs, hrun⟩ := h
    obtain ⟨l, evicts, hl, _⟩ := created.insert.evicts
    have hl₁ : l₁ = l := (List.append_inj' (hs.symm.trans hl) rfl).left
    have hold : ∀ m ∈ l₁, m.handle ∈ s.handles := fun m hm =>
      ⟨m, evicts.sublist.subset (hl₁ ▸ hm), rfl⟩
    rw [hrun] at hwf ⊢
    cases hr : (initKeyNode env paramSet tokenSize).run ⟨new.listed, s₁.world, s₁.history⟩ <;>
      rw [hr] at hwf
    case ok token t =>
      have hsame : SameNode new.listed t.node := by
        simpa [hr] using initKeyNode_same env paramSet tokenSize
          ⟨new.listed, s₁.world, s₁.history⟩ (.refl new.listed)
      refine ⟨hwf, ?_⟩
      rw [handles_put hs hsame]
      rintro _ ⟨m, hm, rfl⟩
      rw [hs, List.mem_append, List.mem_singleton] at hm
      rcases hm with hm | rfl
      · exact .inr (hold m hm)
      · exact .inl rfl
    case error e t =>
      refine ⟨hwf, ?_⟩
      rw [handles_drop (created.wf wf.called) hs]
      rintro _ ⟨⟨m, hm, rfl⟩, hne⟩
      rw [hs, List.mem_append, List.mem_singleton] at hm
      rcases hm with hm | rfl
      · exact hold m hm
      · exact absurd rfl hne

end Handles

end Huks
