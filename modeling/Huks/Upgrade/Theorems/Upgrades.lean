import Huks.Upgrade.Theorems.TransferStep

namespace Huks

open EStateM Function

section PowerOn

variable {const : TransferConst} {env : TransferEnv} {st : UpgradeState}

theorem UpgradeState.exec_bind {x y : StorageM Unit} (h : ∀ s, ∃ t, x.run s = .ok ⟨⟩ t) :
    st.exec (do x; y) = (st.exec x).exec y := by
  have ⟨t, ht⟩ := h st.disk
  simp only [exec, run_bind, ht, Result.final_ok]

theorem discard_attempt_ok (x : StorageM Unit) (s : Disk) :
    ∃ t, (discard (attempt x)).run s = .ok ⟨⟩ t := by
  rw [run_discard, run_attempt]
  exact ⟨_, rfl⟩

theorem forM_ok {f : Path → StorageM Unit} (h : ∀ path s, ∃ t, (f path).run s = .ok ⟨⟩ t)
    (paths : List Path) (s : Disk) : ∃ t, (paths.forM f).run s = .ok ⟨⟩ t := by
  induction paths generalizing s
  case nil => exact ⟨s, rfl⟩
  case cons path paths ih =>
    have ⟨t, ht⟩ := h path s
    have ⟨u, hu⟩ := ih t
    exact ⟨u, run_bind_eq_ok.mpr ⟨⟨⟩, t, ht, hu⟩⟩

variable (const) in
theorem processFileUpgrade_ok (fs : FileSystem) (frontUserId : UInt32) (path : Path) (s : Disk) :
    ∃ t, (processFileUpgrade const fs frontUserId path).run s = .ok ⟨⟩ t :=
  discard_attempt_ok _ s

variable (const) in
theorem processRdbCeToDeUpgrade_ok (fs : FileSystem) (frontUserId : UInt32) (path : Path) (s : Disk) :
    ∃ t, (processRdbCeToDeUpgrade const fs frontUserId path).run s = .ok ⟨⟩ t := by
  dsimp only [processRdbCeToDeUpgrade]
  split
  case isTrue => exact discard_attempt_ok _ s
  case isFalse => exact ⟨s, rfl⟩

-- The walk over a tree, file by file.
theorem exec_walk (st : UpgradeState) (root : UInt32 → Path) (paths : List Path)
    {f : UInt32 → Path → StorageM Unit} (h : ∀ u path s, ∃ t, (f u path).run s = .ok ⟨⟩ t) :
    st.exec ((paths.filter (isBelow (root st.frontUserId))).forM (f st.frontUserId)) =
      paths.foldl (fun st path =>
        if isBelow (root st.frontUserId) path then st.exec (f st.frontUserId path) else st) st := by
  induction paths generalizing st
  case nil => rfl
  case cons path paths ih =>
    rw [List.foldl_cons, List.filter_cons]
    split
    case isTrue =>
      have ih := ih (st.exec (f st.frontUserId path))
      have hcons (l : List Path) : (path :: l).forM (f st.frontUserId) =
        (do f st.frontUserId path; l.forM (f st.frontUserId)) := rfl
      rw [hcons, UpgradeState.exec_bind (h _ path)]
      exact ih
    case isFalse => exact ih st

theorem exec_attempt (x : StorageM Unit) : st.exec (discard (attempt x)) = st.exec x := by
  simp only [UpgradeState.exec, run_discard_final, final_attempt]

-- An upgrade is the run of its actions.
theorem powerOn_actions : st.exec (hksUpgradeFileTransferOnPowerOn const env st.frontUserId) =
    runUpgrades const st ((powerOnActions env).map (env, ·)) := by
  have hce := exec_walk (st.exec (copyDeToTmpPathIfNeed env)) huksCePath env.ceWalk
    (processRdbCeToDeUpgrade_ok const env.fs)
  have htmp := exec_walk
    ((st.exec (copyDeToTmpPathIfNeed env)).exec (copyRdbCeToDePathIfNeed const env st.frontUserId))
    (fun _ => hksKeyStoreTmpPath) env.tmpWalk (processFileUpgrade_ok const env.fs)
  have hok : ∀ s, ∃ t, (copyRdbCeToDePathIfNeed const env st.frontUserId).run s = .ok ⟨⟩ t :=
    forM_ok (processRdbCeToDeUpgrade_ok const env.fs st.frontUserId) _
  rw [hksUpgradeFileTransferOnPowerOn, UpgradeState.exec_bind (discard_attempt_ok _), exec_attempt,
    UpgradeState.exec_bind hok]
  simp only [runUpgrades, powerOnActions, List.map_cons, List.map_append, List.map_map, List.foldl_cons,
    List.foldl_append, List.foldl_map, Function.comp_apply, UpgradeAction.run]
  rw [← hce]
  exact htmp

theorem userUnlock_actions (userId : UInt32) : hksUpgradeFileTransferOnUserUnlock const env userId st =
    runUpgrades const st ((.unlock userId :: powerOnActions env).map (env, ·)) :=
  @powerOn_actions _ _ { st with frontUserId := userId }

end PowerOn

end Huks
