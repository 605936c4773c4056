import Huks.Storage.Theorems.Isolation
import Huks.Upgrade.Theorems.KeptRuns

namespace Huks

def ManagerState.atTick (st : ManagerState) (n : Nat) : ManagerState :=
  { st with disk := { st.disk with tick := n } }

-- A call for this key is the first one of the process, and it finds the account unlocked.
def TransferDue (env : ManagerEnv) (c : StoreCoordinate) (st : ManagerState) : Prop :=
  st.isCeUpgradeSucc = false ∧ c.storageLevel = hksAuthStorageLevelCe ∧ env.isOsAccountVerified c.storeUserId

section Transfer

variable {env : ManagerEnv} {storageLevel : UInt32} {storeUserId : Int32} {st : ManagerState}

theorem hksTransferFileIfNeed_once :
    (hksTransferFileIfNeed env storageLevel storeUserId st).isCeUpgradeSucc = true := by
  unfold hksTransferFileIfNeed
  split
  case isTrue h => exact h
  case isFalse => split <;> rfl

theorem hksTransferFileIfNeed_again (h : st.isCeUpgradeSucc = true) :
    hksTransferFileIfNeed env storageLevel storeUserId st = st :=
  if_pos h

theorem transferBeforeCall_eq {processInfo : HksProcessInfo} {paramSet : HksParamSet} {keyAlias : Bytes}
    {storageType : HksStorageType} {c : StoreCoordinate}
    (hcoord : storeCoordinate processInfo paramSet keyAlias storageType = .ok c) :
    transferBeforeCall env processInfo paramSet st =
      hksTransferFileIfNeed env c.storageLevel c.storeUserId st := by
  rw [transferBeforeCall, (storeCoordinate_ok hcoord).1]

-- A call that transfers nothing only takes note that it was the first.
theorem hksTransferFileIfNeed_idle {c : StoreCoordinate} (h : ¬TransferDue env c st) :
    hksTransferFileIfNeed env c.storageLevel c.storeUserId st = { st with isCeUpgradeSucc := true } := by
  unfold hksTransferFileIfNeed
  split
  case isTrue hdone => cases st; cases hdone; rfl
  case isFalse hfirst =>
    split
    case isTrue hce => exact absurd ⟨by simpa using hfirst, hce⟩ h
    case isFalse => rfl

end Transfer

-- Keys with different coordinates have different main files. A call for one key changes what is read
-- of another at most by the transfer that comes before it.
theorem storage_isolated {env : ManagerEnv} {processInfo processInfo' : HksProcessInfo}
    {paramSet paramSet' : HksParamSet} {keyAlias keyAlias' : Bytes} {storageType storageType' : HksStorageType}
    {c c' : StoreCoordinate} (hc : c.WellFormed) (hc' : c'.WellFormed) (hne : c ≠ c')
    (hcoord : storeCoordinate processInfo paramSet keyAlias storageType = .ok c)
    (hcoord' : storeCoordinate processInfo' paramSet' keyAlias' storageType' = .ok c') :
    MainFilesApart env.storage processInfo processInfo' paramSet paramSet' keyAlias keyAlias' storageType
      storageType' ∧
    ∀ (call : StoreCall) (st : ManagerState) (keyBlobSize n : Nat),
      let read (st : ManagerState) := (manage env processInfo' paramSet'
        (hksManageStoreGetKeyBlob env.storage processInfo' paramSet' keyAlias' keyBlobSize storageType')
        (st.atTick n)).1
      let begun := transferBeforeCall env processInfo paramSet st
      read (manage env processInfo paramSet
        (call.exec env.storage processInfo paramSet keyAlias storageType) st).2 = read begun ∧
      (¬TransferDue env c st → begun = { st with isCeUpgradeSucc := true }) := by
  refine ⟨mainFilesApart hc hc' hne hcoord hcoord', fun call st keyBlobSize n => ⟨?_, fun hdue => ?_⟩⟩
  case refine_1 =>
    have hbegun : (transferBeforeCall env processInfo paramSet st).isCeUpgradeSucc = true :=
      (transferBeforeCall_eq hcoord) ▸ hksTransferFileIfNeed_once
    -- The reading call is not the first one, on either side.
    have hagain (disk : Disk) : transferBeforeCall env processInfo' paramSet'
        ({ transferBeforeCall env processInfo paramSet st with disk := disk }) =
          { transferBeforeCall env processInfo paramSet st with disk := disk } :=
      (transferBeforeCall_eq hcoord').trans (hksTransferFileIfNeed_again hbegun)
    simp only [manage, ManagerState.atTick, hagain]
    exact storeCall_sameRead hc hc' hne hcoord hcoord' call _ keyBlobSize n
  case refine_2 => exact (transferBeforeCall_eq hcoord).trans (hksTransferFileIfNeed_idle hdue)

-- The uid 513 of user 0, which keeps the key `k` in the old area and stores the key `j` for user 100.
def uid513Process : HksProcessInfo where
  userId        := [0, 0, 0, 0]
  processName   := [1, 2, 0, 0]
  accessTokenId := 7

def ceParamSet : HksParamSet where
  paramSetSize := 56
  params       := [.ofUInt32 HksTag.authStorageLevel hksAuthStorageLevelCe, ⟨HksTag.specificUserId, 100, .null⟩]
  area         := []

def oldKeyCoordinate : StoreCoordinate :=
  ⟨0, uid513Process.processName, hksAuthStorageLevelOldDeTmp, .key, [0x6b]⟩

def ceKeyCoordinate : StoreCoordinate :=
  ⟨100, uid513Process.processName, hksAuthStorageLevelCe, .key, [0x6a]⟩

-- All accounts are unlocked, and a transfer finds the old key.
def managerEnv : ManagerEnv where
  storage               := steadyStorage
  const                 := { transferConst with supportStorageBackup := true }
  transfer              := {
    fs       := steadyFileSystem
    rename _ := none
    ceWalk   := []
    tmpWalk  := [oldKeyCoordinate.filePath mainArea] }
  isOsAccountVerified _ := true

def oldKeyState (isCeUpgradeSucc : Bool) : ManagerState where
  disk            := { files := (∅ : Files).insert (oldKeyCoordinate.filePath mainArea) transferKeyBytes }
  isCeUpgradeSucc := isCeUpgradeSucc

def readOldKey (st : ManagerState) : Except HksErrorCode Bytes :=
  (manage managerEnv uid513Process (levelParamSet hksAuthStorageLevelOldDeTmp)
    (hksManageStoreGetKeyBlob managerEnv.storage uid513Process (levelParamSet hksAuthStorageLevelOldDeTmp)
      [0x6b] 100 .key) (st.atTick 0)).1

def storeCeKey (st : ManagerState) : ManagerState :=
  (manage managerEnv uid513Process ceParamSet
    ((StoreCall.store [5]).exec managerEnv.storage uid513Process ceParamSet [0x6a] .key) st).2

theorem oldKeyCoordinate_wellFormed : oldKeyCoordinate.WellFormed :=
  ⟨rfl, .inr (.inr (.inr rfl)), by decide, by decide⟩

theorem ceKeyCoordinate_wellFormed : ceKeyCoordinate.WellFormed :=
  ⟨rfl, .inr (.inl rfl), by decide, by decide⟩

-- A process that was there before stores the new key.
theorem storage_isolated_store : readOldKey (storeCeKey (oldKeyState true)) = .ok transferKeyBytes := by
  have hcoord : storeCoordinate uid513Process ceParamSet [0x6a] .key = .ok ceKeyCoordinate := rfl
  have hcoord' : storeCoordinate uid513Process (levelParamSet hksAuthStorageLevelOldDeTmp) [0x6b] .key =
      .ok oldKeyCoordinate := rfl
  have hisolated := (@storage_isolated managerEnv _ _ _ _ _ _ _ _ _ _ ceKeyCoordinate_wellFormed
    oldKeyCoordinate_wellFormed (by decide) hcoord hcoord').2
  have ⟨hread, hidle⟩ := hisolated (.store [5]) (oldKeyState true) 100 0
  have hbegun := hidle fun hdue => Bool.noConfusion hdue.1
  have hkept : readOldKey (oldKeyState true) = .ok transferKeyBytes := by decide
  exact hread.trans (hbegun ▸ hkept)

-- The first call of a process stores the new key, and moves the old one away.
theorem storage_transferred :
    ceKeyCoordinate.WellFormed ∧ oldKeyCoordinate.WellFormed ∧ ceKeyCoordinate ≠ oldKeyCoordinate ∧
    storeCoordinate uid513Process ceParamSet [0x6a] .key = .ok ceKeyCoordinate ∧
    storeCoordinate uid513Process (levelParamSet hksAuthStorageLevelOldDeTmp) [0x6b] .key =
      .ok oldKeyCoordinate ∧
    readOldKey (oldKeyState false) = .ok transferKeyBytes ∧
    readOldKey (storeCeKey (oldKeyState false)) = .error .notExist := by
  refine ⟨ceKeyCoordinate_wellFormed, oldKeyCoordinate_wellFormed, by decide, rfl, rfl, ?_, ?_⟩
  case refine_1 => decide
  case refine_2 => decide +kernel

end Huks
