import Huks.Storage.Theorems.Isolation
import Huks.Upgrade.Theorems.FileMoves

namespace Huks

open EStateM Function PathText

-- The user under whom a key is stored from then on.
def HksUpgradeFileTransferInfo.storeUserId (frontUserId : UInt32) (info : HksUpgradeFileTransferInfo) :
    UInt32 :=
  if info.needFrontUser then frontUserId else info.userId

def HksUpgradeFileTransferInfo.storageLevel (info : HksUpgradeFileTransferInfo) : UInt32 :=
  if info.needDe then hksAuthStorageLevelDe else hksAuthStorageLevelCe

-- Where the storage manager has the key of such an owner.
def HksUpgradeFileTransferInfo.coordinate (frontUserId : UInt32) (keyAlias : Bytes)
    (info : HksUpgradeFileTransferInfo) : StoreCoordinate where
  storeUserId  := (info.storeUserId frontUserId).toInt32
  processName  := toBytes32 info.uid
  storageLevel := info.storageLevel
  storageType  := .key
  keyAlias     := keyAlias

section Coordinate

variable {info : HksUpgradeFileTransferInfo} {frontUserId : UInt32} {keyAlias : Bytes} {alias' : Path}
  {material : HksStoreMaterial}

theorem HksUpgradeFileTransferInfo.coordinate_wellFormed (h : keyAlias.length ≤ hksMaxKeyAliasLen) :
    (info.coordinate frontUserId keyAlias).WellFormed where
  processName  := rfl
  storageLevel := by
    cases hde : info.needDe <;> simp [coordinate, storageLevel, hde]
  storageType  := nofun
  keyAlias     := h

theorem HksUpgradeFileTransferInfo.coordinate_plain :
    getIsPlainPath (info.coordinate frontUserId keyAlias).storageLevel := by
  cases hde : info.needDe <;> simp only [coordinate, storageLevel, hde] <;> decide

theorem constructPlainName_word {n : UInt32} {nameLen : Nat} {path : Path}
    (h : constructPlainName (toBytes32 n) nameLen = .ok path) : path = decimal n.toInt32.toInt := by
  have hle : le32 (toBytes32 n) = n := by simpa using le32_toBytes32_append n []
  rw [constructPlainName_uid rfl h, hle]

theorem getStoreMaterial_ok (h : getStoreMaterial frontUserId alias' info = .ok material) :
    material.pathType = (if info.needDe then .de else .ce) ∧
      material.userIdPath = decimal (info.storeUserId frontUserId).toInt32.toInt ∧
      material.uidPath = decimal info.uid.toInt32.toInt ∧
      material.storageTypePath = hksKeyStoreKeyPath := by
  have ⟨keyAliasPath, _, h⟩ := Except.bind_eq_ok.mp h
  have ⟨uidPath, huid, h⟩ := Except.bind_eq_ok.mp h
  have ⟨userIdPath, huser, h⟩ := Except.bind_eq_ok.mp h
  obtain rfl := Except.ok.inj h
  exact ⟨rfl, constructPlainName_word huser, constructPlainName_word huid, rfl⟩

-- The directory of the transfer is the one of the storage manager.
theorem standardizePath_getStoreMaterial (hlen : keyAlias.length ≤ hksMaxKeyAliasLen)
    (h : getStoreMaterial frontUserId alias' info = .ok material) :
    standardizePath (rawPath material hksKeyStorePath hksStoreServicePath) =
      render '/' ((info.coordinate frontUserId keyAlias).dirs mainArea) := by
  have ⟨hpathType, huser, huid, hstorage⟩ := getStoreMaterial_ok h
  have hle : le32 (toBytes32 info.uid) = info.uid := by simpa using le32_toBytes32_append info.uid []
  refine standardizePath_material (show '/' ∉ mainArea by decide) (by decide)
    (HksUpgradeFileTransferInfo.coordinate_wellFormed hlen) ?_ ?_ ?_ hstorage
  · rw [hpathType]
    cases hde : info.needDe <;>
      simp only [HksUpgradeFileTransferInfo.coordinate, HksUpgradeFileTransferInfo.storageLevel, hde] <;>
      decide
  · rw [HksUpgradeFileTransferInfo.coordinate_plain, if_pos rfl, huser]
    rfl
  · rw [HksUpgradeFileTransferInfo.coordinate_plain, if_pos rfl, huid]
    simp only [HksUpgradeFileTransferInfo.coordinate, hle]

end Coordinate

-- The full path of the file to which a key is transferred.
def destination (frontUserId : UInt32) (alias' : Path) (info : HksUpgradeFileTransferInfo) :
    Except HksErrorCode Path := do
  let material ← getStoreMaterial frontUserId alias' info
  getValidFileName (standardizePath (rawPath material hksKeyStorePath hksStoreServicePath)) alias'

section NewPath

variable {const : TransferConst} {fs : FileSystem} {frontUserId : UInt32} {alias' : Path}
  {info : HksUpgradeFileTransferInfo} {P : Disk → Prop}

theorem hksGetFileInfo_path (hP : DiskFact P) (backup : Bool) (material : HksStoreMaterial) :
    Triple P (hksGetFileInfo fs backup material)
      (fun fileInfo s => P s ∧ fileInfo.mainPath =
        ⟨standardizePath (rawPath material hksKeyStorePath hksStoreServicePath),
          material.keyAliasPath.getD []⟩) fun _ => P := by
  dsimp only [hksGetFileInfo]
  refine (getPathInfo_triple P hP).bind fun mainPath => ?_
  refine .ite (fun hbackup => ?_) fun hbackup => ?_
  · refine .strengthen_pre (.of_pure fun hmainPath => ?_) fun s hs => ⟨hs.2, hs.1⟩
    refine (getPathInfo_triple P hP).bind fun bakPath => ?_
    exact .pure fun s hs => ⟨hs.1, hmainPath.1⟩
  · exact .pure fun s hs => ⟨hs.1, hs.2.1⟩

theorem constructNewFilePath_triple (hP : DiskFact P) :
    Triple P (constructNewFilePath const fs frontUserId alias' info)
      (fun newPath s => P s ∧ ∃ material, getStoreMaterial frontUserId alias' info = .ok material ∧
        newPath = standardizePath (rawPath material hksKeyStorePath hksStoreServicePath))
      fun _ => P := by
  dsimp only [constructNewFilePath]
  refine .ofExcept_bind (fun material hmaterial => ?_) fun _ _ _ => id
  refine (hksGetFileInfo_path hP _ material).bind fun fileInfo => ?_
  exact .pure fun s hs => ⟨hs.1, material, hmaterial, by rw [hs.2]⟩

end NewPath

end Huks
