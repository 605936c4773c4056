import Huks.Storage.Theorems.Files
import Huks.Storage.Theorems.Paths

namespace Huks

open EStateM PathText

def mainArea : Path := "maindata".toList
def bakArea  : Path := "bakdata".toList

theorem le32_injOn {b b' : Bytes} (hb : b.length = 4) (hb' : b'.length = 4) (h : le32 b = le32 b') :
    b = b' := by
  have hword := toBytes32_le32_take b (by omega)
  have hword' := toBytes32_le32_take b' (by omega)
  rw [List.take_of_length_le (by omega)] at hword hword'
  rw [← hword, ← hword', h]

theorem toBytes32_injective : Function.Injective toBytes32 := by
  intro n n' h
  have hle := le32_toBytes32_append n []
  rw [h, le32_toBytes32_append] at hle
  exact hle.symm

namespace StoreCoordinate

variable {c c' : StoreCoordinate} {area area' : Path}

theorem getStorageTypePath_injOn {storageType storageType' : HksStorageType}
    (h : storageType ≠ .bakKey) (h' : storageType' ≠ .bakKey)
    (heq : getStorageTypePath storageType = getStorageTypePath storageType') :
    storageType = storageType' := by
  revert h h' heq
  cases storageType <;> cases storageType' <;> decide

theorem uidText_injective (hc : c.WellFormed) (hc' : c'.WellFormed) (h : c.uidText = c'.uidText) :
    c.processName = c'.processName := by
  refine le32_injOn hc.processName hc'.processName ?_
  have hint : (le32 c.processName).toInt32 = (le32 c'.processName).toInt32 :=
    Int32.toInt_inj.mp (decimal_injective h)
  simpa using congrArg Int32.toUInt32 hint

theorem userIdText_injective (h : c.userIdText = c'.userIdText) : c.storeUserId = c'.storeUserId :=
  Int32.toInt_inj.mp (decimal_injective h)

theorem userIdName_injective {n n' : Int32}
    (h : encodeName (toBytes32 n.toUInt32) = encodeName (toBytes32 n'.toUInt32)) : n = n' := by
  have h := toBytes32_injective (encodeName_injective h)
  simpa using congrArg UInt32.toInt32 h

def levelOf : HksPathType → UInt32
  | .de  => hksAuthStorageLevelDe
  | .ce  => hksAuthStorageLevelCe
  | .ece => hksAuthStorageLevelEce
  | .tmp => hksAuthStorageLevelOldDeTmp

theorem levelOf_getPathType (hc : c.WellFormed) :
    levelOf (getPathType c.storageLevel) = c.storageLevel := by
  obtain h | h | h | h := hc.storageLevel <;> rw [h] <;> decide

theorem getPathType_injective (hc : c.WellFormed) (hc' : c'.WellFormed)
    (h : getPathType c.storageLevel = getPathType c'.storageLevel) :
    c.storageLevel = c'.storageLevel := by
  rw [← levelOf_getPathType hc, h, levelOf_getPathType hc']

-- The third component of a directory, and the sixth below `el1`, tell the level.
theorem dirs_second (c : StoreCoordinate) (area : Path) :
    (c.dirs area)[2]? = some (match getPathType c.storageLevel with
      | .de | .tmp => "el1".toList
      | .ce        => "el2".toList
      | .ece       => "el4".toList) := by
  rw [dirs]
  cases getPathType c.storageLevel <;> simp [el1Dirs]

theorem dirs_de (h : getPathType c.storageLevel = .de) : (c.dirs area)[5]? = some area := by
  simp [dirs, h, el1Dirs]

theorem dirs_tmp (h : getPathType c.storageLevel = .tmp) :
    (c.dirs area)[5]? = some "tmp".toList := by
  simp [dirs, h, el1Dirs]

theorem pathType_of_dirs (harea : area ≠ "tmp".toList) (harea' : area' ≠ "tmp".toList)
    (h : c.dirs area = c'.dirs area') :
    getPathType c.storageLevel = getPathType c'.storageLevel := by
  have hel := (dirs_second c area).symm.trans ((congrArg (·[2]?) h).trans (dirs_second c' area'))
  have hsixth : (c.dirs area)[5]? = (c'.dirs area')[5]? := by rw [h]
  cases htype : getPathType c.storageLevel <;> cases htype' : getPathType c'.storageLevel
  case de.tmp =>
    rw [dirs_de htype, dirs_tmp htype'] at hsixth
    exact absurd (Option.some.inj hsixth) harea
  case tmp.de =>
    rw [dirs_tmp htype, dirs_de htype'] at hsixth
    exact absurd (Option.some.inj hsixth).symm harea'
  all_goals first | rfl | simp [htype, htype'] at hel

theorem dirs_injective (hc : c.WellFormed) (hc' : c'.WellFormed) (harea : area ≠ "tmp".toList)
    (harea' : area' ≠ "tmp".toList) (h : c.dirs area = c'.dirs area') :
    c.storeUserId = c'.storeUserId ∧ c.processName = c'.processName ∧
      c.storageLevel = c'.storageLevel ∧ c.storageType = c'.storageType := by
  have hpathType := pathType_of_dirs harea harea' h
  have hlevel := getPathType_injective hc hc' hpathType
  suffices h : c.storeUserId = c'.storeUserId ∧ c.processName = c'.processName ∧
      c.typeText = c'.typeText from
    ⟨h.1, h.2.1, hlevel, getStorageTypePath_injOn hc.storageType hc'.storageType h.2.2⟩
  have huid := uidText_injective hc hc'
  rw [dirs, dirs, ← hpathType] at h
  cases htype : getPathType c.storageLevel
  case de =>
    simp only [htype, List.append_cancel_left_eq, List.cons.injEq] at h
    exact ⟨userIdText_injective h.2.1, huid h.2.2.1, h.2.2.2.1⟩
  case ce =>
    simp only [htype, List.cons.injEq] at h
    exact ⟨userIdText_injective h.2.2.2.1, huid h.2.2.2.2.2.2.1, h.2.2.2.2.2.2.2.1⟩
  case ece =>
    simp only [htype, List.cons.injEq] at h
    exact ⟨userIdText_injective h.2.2.2.1, huid h.2.2.2.2.2.2.1, h.2.2.2.2.2.2.2.1⟩
  case tmp =>
    simp only [htype, List.append_cancel_left_eq, List.cons.injEq, true_and] at h
    have hlength := congrArg List.length h
    split at h <;> split at h
    case isTrue.isTrue hzero hzero' =>
      simp only [List.nil_append, List.cons.injEq] at h
      exact ⟨hzero.trans hzero'.symm, encodeName_injective h.1, h.2.1⟩
    case isTrue.isFalse hzero hzero' => simp at h
    case isFalse.isTrue hzero hzero' => simp at h
    case isFalse.isFalse =>
      simp only [List.cons_append, List.nil_append, List.cons.injEq] at h
      exact ⟨userIdName_injective h.1, encodeName_injective h.2.1, h.2.2.1⟩

-- No two keys share a file.
theorem filePath_injective (hc : c.WellFormed) (hc' : c'.WellFormed)
    (harea : area ≠ "tmp".toList) (harea' : area' ≠ "tmp".toList)
    (hslash : '/' ∉ area) (hslash' : '/' ∉ area') (h : c.filePath area = c'.filePath area') :
    c = c' := by
  have hplain : ∀ (c : StoreCoordinate) (area : Path), '/' ∉ area →
      Plain '/' (c.dirs area ++ [encodeName c.keyAlias]) := fun c area hslash =>
    List.forall_mem_append.mpr ⟨plain_dirs c hslash, by simpa using slash_notMem_encodeName _⟩
  have hcomps := render_injective (hplain c area hslash) (hplain c' area' hslash') h
  have ⟨hdirs, hname⟩ := List.append_inj' hcomps rfl
  have ⟨huser, huid, hlevel, htype⟩ := dirs_injective hc hc' harea harea' hdirs
  have halias := encodeName_injective (List.singleton_inj.mp hname)
  cases c
  cases c'
  simp_all

theorem dirs_dot (hdot : area.getLast? ≠ some '.') :
    ∀ comp ∈ c.dirs area, comp.getLast? ≠ some '.' :=
  dirs_forall c (by decide) hdot decimal_getLast (encodeName_getLast _) (encodeName_getLast _)

-- No path leads out of its directory.
theorem filePath_valid (hslash : '/' ∉ area) (hdot : area.getLast? ≠ some '.') :
    ¬"../".toList <:+: c.filePath area := by
  intro hocc
  have hplain : Plain '/' (c.dirs area ++ [encodeName c.keyAlias]) :=
    List.forall_mem_append.mpr ⟨plain_dirs c hslash, by simpa using slash_notMem_encodeName _⟩
  have hsub : ['.', '/'] <:+: "../".toList := by decide
  have ⟨comp, hcomp, hlast⟩ :=
    exists_getLast_of_infix (by decide) hplain (hsub.trans hocc)
  obtain hcomp | hcomp := List.mem_append.mp hcomp
  · exact dirs_dot hdot comp hcomp hlast
  · rw [List.mem_singleton.mp hcomp] at hlast
    exact encodeName_getLast _ hlast

end StoreCoordinate

section FileInfo

variable {env : StorageEnv} {processInfo : HksProcessInfo} {paramSet : HksParamSet}
  {keyAlias : Bytes} {storageType : HksStorageType} {material : HksStoreMaterial}
  {c : StoreCoordinate} {P : Disk → Prop}

-- What is known of the files of a key once they are found.
structure StoreCoordinate.Found (c : StoreCoordinate) (backup : Bool) (info : HksStoreFileInfo) :
    Prop where
  mainPath : info.mainPath = c.storeInfo mainArea
  bakPath  : backup → info.bakPath = c.storeInfo bakArea
  length   : info.mainPath.path.length < hksMaxDirentFileLen

theorem keyAliasPath_eq (hcoord : storeCoordinate processInfo paramSet keyAlias storageType = .ok c)
    (h : initStorageMaterial processInfo paramSet (some keyAlias) storageType = .ok material) :
    material.keyAliasPath.getD [] = encodeName c.keyAlias := by
  obtain ⟨_, _, _, _, _, _, _, halias⟩ := initStorageMaterial_ok h
  rw [halias, (storeCoordinate_ok hcoord).2.2.2]
  rfl

theorem hksGetFileInfo_triple (hP : DiskFact P) (hc : c.WellFormed)
    (hcoord : storeCoordinate processInfo paramSet keyAlias storageType = .ok c)
    (h : initStorageMaterial processInfo paramSet (some keyAlias) storageType = .ok material)
    (backup : Bool) : Triple P (hksGetFileInfo env.fs backup material)
      (fun info s => P s ∧ c.Found backup info) fun _ => P := by
  have hmain : standardizePath (rawPath material hksKeyStorePath hksStoreServicePath) =
      render '/' (c.dirs mainArea) :=
    standardizePath_rawPath (show '/' ∉ mainArea by decide) (by decide) hc hcoord h
  have hbak : standardizePath (rawPath material hksKeyStoreBakPath hksStoreServiceBakPath) =
      render '/' (c.dirs bakArea) :=
    standardizePath_rawPath (show '/' ∉ bakArea by decide) (by decide) hc hcoord h
  have halias := keyAliasPath_eq hcoord h
  have hlength {info : HksStoreInfo} {text name : Path}
      (h : info = ⟨standardizePath text, name⟩ ∧ text.length < hksMaxDirentFileLen) :
      info.path.length < hksMaxDirentFileLen := by
    rw [h.1]
    exact Nat.lt_of_le_of_lt (collapse_length text) h.2
  dsimp only [hksGetFileInfo]
  refine (getPathInfo_triple P hP).bind fun mainPath => ?_
  refine .ite (fun hbackup => ?_) fun hbackup => ?_
  · refine .strengthen_pre (.of_pure fun hmainPath => ?_) fun s hs => ⟨hs.2, hs.1⟩
    refine ((getPathInfo_triple P hP).bind fun bakPath => ?_)
    exact .pure fun s hs => ⟨hs.1, hmainPath.1.trans (by rw [hmain, halias]; rfl),
      fun _ => hs.2.1.trans (by rw [hbak, halias]; rfl), hlength hmainPath⟩
  · exact .pure fun s hs => ⟨hs.1, hs.2.1.trans (by rw [hmain, halias]; rfl),
      fun h => (hbackup h).elim, hlength hs.2⟩

theorem storeFileInfo_triple (hP : DiskFact P) (hc : c.WellFormed)
    (hcoord : storeCoordinate processInfo paramSet keyAlias storageType = .ok c) :
    Triple P (storeFileInfo env processInfo paramSet keyAlias storageType)
      (fun info s => P s ∧ c.Found env.supportStorageBackup info) fun _ => P := by
  dsimp only [storeFileInfo, hksConstructStoreFileInfo]
  refine .ofExcept_bind (fun material hmaterial => ?_) fun _ _ _ => id
  refine .ofExcept_bind (fun _ _ => ?_) fun _ _ _ => id
  exact hksGetFileInfo_triple hP hc hcoord hmaterial _

theorem getFileName_storeInfo (c : StoreCoordinate) (area : Path) :
    (if (c.storeInfo area).path.getLast? = some '/' then (c.storeInfo area).path
      else (c.storeInfo area).path ++ ['/']) ++ (c.storeInfo area).fileName = c.filePath area := by
  have hlast : (c.storeInfo area).path.getLast? ≠ some '/' := by
    have htype : '/' ∉ c.typeText ∧ c.typeText ≠ [] := by
      rw [StoreCoordinate.typeText]
      cases c.storageType <;> decide
    obtain ⟨front, hfront⟩ : ∃ front, c.dirs area = front ++ [c.typeText] :=
      ⟨_, (List.dropLast_append_getLast? _ (dirs_getLast c area)).symm⟩
    rw [StoreCoordinate.storeInfo, hfront, render_append, render_cons, render_nil,
      List.append_nil, List.getLast?_append_of_ne_nil _ (List.cons_ne_nil _ _),
      List.getLast?_cons_of_ne_nil htype.2]
    exact fun h => htype.1 (List.mem_of_getLast? h)
  rw [if_neg hlast]
  simp [StoreCoordinate.storeInfo, StoreCoordinate.filePath]

-- A key is in one file and its backup in another.
theorem touches_storeInfo {area full : Path}
    (h : Touches (c.storeInfo area).path (c.storeInfo area).fileName full) :
    full = c.filePath area := by
  rw [Touches, getFileName] at h
  simp only [getFileName_storeInfo] at h
  split at h
  case isTrue => exact (Except.ok.inj h).symm
  case isFalse => contradiction

theorem StoreCoordinate.Found.touches {backup : Bool} {info : HksStoreFileInfo}
    (h : c.Found backup info) {full : Path} (hfull : info.Touches backup full) :
    full = c.filePath mainArea ∨ full = c.filePath bakArea := by
  obtain hfull | ⟨hbackup, hfull⟩ := hfull
  · exact .inl (touches_storeInfo (h.mainPath ▸ hfull))
  · exact .inr (touches_storeInfo (h.bakPath hbackup ▸ hfull))

end FileInfo

section Isolation

variable {env : StorageEnv} {processInfo processInfo' : HksProcessInfo}
  {paramSet paramSet' : HksParamSet} {keyAlias keyAlias' : Bytes}
  {storageType storageType' : HksStorageType} {c c' : StoreCoordinate}

theorem filePath_ne (hc : c.WellFormed) (hc' : c'.WellFormed) (hne : c ≠ c') {full : Path}
    (hfull : full = c.filePath mainArea ∨ full = c.filePath bakArea) : c'.filePath mainArea ≠ full := by
  obtain rfl | rfl := hfull
  · exact fun h => hne (StoreCoordinate.filePath_injective hc hc' (by decide) (by decide) (by decide)
      (by decide) h.symm)
  · exact fun h => hne (StoreCoordinate.filePath_injective hc hc' (by decide) (by decide) (by decide)
      (by decide) h.symm)

-- Storing and deleting a key leaves the main file of every other key alone.
theorem hksManageStoreKeyBlob_preserves (hc : c.WellFormed) (hc' : c'.WellFormed) (hne : c ≠ c')
    (hcoord : storeCoordinate processInfo paramSet keyAlias storageType = .ok c)
    (content : Option Bytes) (keyBlob : Bytes) :
    Preserves (fun disk => disk.files.lookup (c'.filePath mainArea) = content)
      (hksManageStoreKeyBlob env processInfo paramSet keyAlias keyBlob storageType) := by
  refine (storeFileInfo_triple (fun _ _ => id) hc hcoord).preserves_bind fun info hinfo => ?_
  refine hksStoreKeyBlob_preserves (fun _ _ => id) fun full content s hfull hs => ?_
  rwa [lookup_set_ne _ (filePath_ne hc hc' hne (hinfo.touches hfull))]

theorem hksManageStoreDeleteKeyBlob_preserves (hc : c.WellFormed) (hc' : c'.WellFormed) (hne : c ≠ c')
    (hcoord : storeCoordinate processInfo paramSet keyAlias storageType = .ok c)
    (content : Option Bytes) :
    Preserves (fun disk => disk.files.lookup (c'.filePath mainArea) = content)
      (hksManageStoreDeleteKeyBlob env processInfo paramSet keyAlias storageType) := by
  refine (storeFileInfo_triple (fun _ _ => id) hc hcoord).preserves_bind fun info hinfo => ?_
  refine hksStoreDeleteKeyBlob_preserves (fun _ _ => id) (fun full content s hfull hs => ?_)
    fun full s hfull hs => ?_
  · rwa [lookup_set_ne _ (filePath_ne hc hc' hne (hinfo.touches hfull))]
  · rwa [lookup_erase_ne _ (filePath_ne hc hc' hne (hinfo.touches hfull))]

-- The disks agree on the main file of the key.
def SameKey (c : StoreCoordinate) (s t : Disk) : Prop :=
  s.files.lookup (c.filePath mainArea) = t.files.lookup (c.filePath mainArea) ∧ s.tick = t.tick

theorem makeFullDir_respects (fs : FileSystem) : Respects (SameKey c) (hksMakeFullDir fs) :=
  .bind (.modifyGet fun _ _ h => ⟨h.2, h.1, congrArg (· + 1) h.2⟩) fun _ => .pure _

theorem getPathInfo_respects {fs : FileSystem} {material : HksStoreMaterial}
    {deDataPath ceOrEceDataPath : Path} :
    Respects (SameKey c) (getPathInfo fs material deDataPath ceOrEceDataPath) := by
  dsimp only [getPathInfo]
  refine .bind (.ofExcept _) fun _ => .bind (makeFullDir_respects fs) fun _ => ?_
  refine .bind (.ofExcept _) fun _ => ?_
  split
  case h_1 => exact .pure _
  case h_2 => exact .ite (.throw _) (.ite (.throw _) (.pure _))

theorem storeFileInfo_respects :
    Respects (SameKey c) (storeFileInfo env processInfo paramSet keyAlias storageType) := by
  dsimp only [storeFileInfo, hksConstructStoreFileInfo, hksGetFileInfo]
  refine .bind (.ofExcept _) fun _ => .bind (.ofExcept _) fun _ => ?_
  refine .bind getPathInfo_respects fun _ => .ite (.bind getPathInfo_respects fun _ => ?_) (.pure _)
  exact .pure _

theorem sameKey_sameFile (c : StoreCoordinate) :
    SameFile (c.storeInfo mainArea).path (c.storeInfo mainArea).fileName (SameKey c) where
  lookup _ _ _ h hfull := touches_storeInfo hfull ▸ h.1
  tick _ _ h           := h.2
  setTick _ _ _ h      := ⟨h.1, rfl⟩

-- Reading a key looks at its main file only.
theorem hksManageStoreGetKeyBlob_respects (hc : c.WellFormed)
    (hcoord : storeCoordinate processInfo paramSet keyAlias storageType = .ok c) (keyBlobSize : Nat) :
    Respects (SameKey c)
      (hksManageStoreGetKeyBlob env processInfo paramSet keyAlias keyBlobSize storageType) := by
  have htype : storageType ≠ .bakKey := (storeCoordinate_ok hcoord).2.2.1 ▸ hc.storageType
  refine .bind_ok storeFileInfo_respects fun s info t hinfo => ?_
  have hfound : Triple (fun _ => True) (storeFileInfo env processInfo paramSet keyAlias storageType)
      (fun info _ => True ∧ c.Found env.supportStorageBackup info) fun _ _ => True :=
    storeFileInfo_triple (fun _ _ => id) hc hcoord
  have ⟨_, hinfo⟩ := hfound.ok trivial hinfo
  rw [if_pos htype, hinfo.mainPath]
  exact hksStoreGetKeyBlob_respects (sameKey_sameFile c) _

-- What a call for one key does to the files, whether it succeeds or not.
inductive StoreCall
  | store (keyBlob : Bytes)
  | delete

def StoreCall.exec (env : StorageEnv) (processInfo : HksProcessInfo) (paramSet : HksParamSet)
    (keyAlias : Bytes) (storageType : HksStorageType) : StoreCall → StorageM Unit
  | store keyBlob =>
    hksManageStoreKeyBlob env processInfo paramSet keyAlias keyBlob storageType
  | delete        => hksManageStoreDeleteKeyBlob env processInfo paramSet keyAlias storageType

-- A well formed key gets the path of its coordinate.
theorem StoreCoordinate.Found.getFileName {backup : Bool} {info : HksStoreFileInfo}
    (hc : c.WellFormed) (h : c.Found backup info) :
    getFileName info.mainPath.path info.mainPath.fileName = .ok (c.filePath mainArea) := by
  have hlength := h.length
  have hname := encodeName_length c.keyAlias
  have halias := hc.keyAlias
  rw [h.mainPath] at hlength ⊢
  have hfull : (c.filePath mainArea).length < hksMaxFileNameLen := by
    rw [StoreCoordinate.filePath, render_append, List.length_append, render_cons, render_nil,
      List.append_nil, List.length_cons]
    simp only [StoreCoordinate.storeInfo, hksMaxDirentFileLen, hksMaxKeyAliasLen,
      hksMaxFileNameLen] at *
    omega
  rw [Huks.getFileName]
  simp only [getFileName_storeInfo]
  rw [if_pos hfull]
  rfl

-- Two calls find different main files, whose paths stay in their directories.
def MainFilesApart (env : StorageEnv) (processInfo processInfo' : HksProcessInfo)
    (paramSet paramSet' : HksParamSet) (keyAlias keyAlias' : Bytes) (storageType storageType' : HksStorageType) :
    Prop :=
  ∀ material material' fileInfo fileInfo' disk disk' t t',
    initStorageMaterial processInfo paramSet (some keyAlias) storageType = .ok material →
    initStorageMaterial processInfo' paramSet' (some keyAlias') storageType' = .ok material' →
    (hksGetFileInfo env.fs env.supportStorageBackup material).run disk = .ok fileInfo t →
    (hksGetFileInfo env.fs env.supportStorageBackup material').run disk' = .ok fileInfo' t' →
    ∃ path path',
      getFileName fileInfo.mainPath.path fileInfo.mainPath.fileName = .ok path ∧
      getFileName fileInfo'.mainPath.path fileInfo'.mainPath.fileName = .ok path' ∧
      path ≠ path' ∧ ¬"../".toList <:+: path ∧ ¬"../".toList <:+: path'

theorem mainFilesApart (hc : c.WellFormed) (hc' : c'.WellFormed) (hne : c ≠ c')
    (hcoord : storeCoordinate processInfo paramSet keyAlias storageType = .ok c)
    (hcoord' : storeCoordinate processInfo' paramSet' keyAlias' storageType' = .ok c') :
    MainFilesApart env processInfo processInfo' paramSet paramSet' keyAlias keyAlias' storageType storageType' := by
  intro material material' fileInfo fileInfo' disk disk' t t' hmaterial hmaterial' hinfo hinfo'
  have hfound := (hksGetFileInfo_triple (P := fun _ => True) (fun _ _ => id) hc hcoord
    hmaterial env.supportStorageBackup).ok trivial hinfo
  have hfound' := (hksGetFileInfo_triple (P := fun _ => True) (fun _ _ => id) hc' hcoord'
    hmaterial' env.supportStorageBackup).ok trivial hinfo'
  refine ⟨_, _, hfound.2.getFileName hc, hfound'.2.getFileName hc', ?_, ?_, ?_⟩
  · exact (filePath_ne hc hc' hne (.inl rfl)).symm
  · exact StoreCoordinate.filePath_valid (by decide) (by decide)
  · exact StoreCoordinate.filePath_valid (by decide) (by decide)

-- A call for one key does not change what a call for another key reads.
theorem storeCall_sameRead (hc : c.WellFormed) (hc' : c'.WellFormed) (hne : c ≠ c')
    (hcoord : storeCoordinate processInfo paramSet keyAlias storageType = .ok c)
    (hcoord' : storeCoordinate processInfo' paramSet' keyAlias' storageType' = .ok c')
    (call : StoreCall) (disk : Disk) (keyBlobSize n : Nat) :
    let read := hksManageStoreGetKeyBlob env processInfo' paramSet' keyAlias' keyBlobSize storageType'
    let disk' := ((call.exec env processInfo paramSet keyAlias storageType).run disk).final
    (read.run { disk' with tick := n }).toExcept = (read.run { disk with tick := n }).toExcept := by
  intro read disk'
  refine (hksManageStoreGetKeyBlob_respects hc' hcoord' keyBlobSize { disk' with tick := n }
    { disk with tick := n } ⟨?_, rfl⟩).1
  cases call
  case store keyBlob =>
    exact hksManageStoreKeyBlob_preserves hc hc' hne hcoord _ keyBlob disk rfl
  case delete => exact hksManageStoreDeleteKeyBlob_preserves hc hc' hne hcoord _ disk rfl

-- A file system on which every call succeeds.
def steadyFileSystem : FileSystem where
  write _    := .done
  read _     := .done
  stat _     := true
  remove _   := none
  makeDir _  := none
  dirExist _ := true

def steadyStorage : StorageEnv where
  fs                              := steadyFileSystem
  supportStorageBackup            := true
  enableCleanFile                 := true
  huksAccessGenerateRandom _ size := .ok (List.replicate size 7)

-- The calls of the process with uid 1000 of user 0.
def uidProcess : HksProcessInfo where
  userId        := [0, 0, 0, 0]
  processName   := [0xe8, 3, 0, 0]
  accessTokenId := 0

def levelParamSet (level : UInt32) : HksParamSet where
  paramSetSize := 32
  params       := [.ofUInt32 HksTag.authStorageLevel level]
  area         := []

def uidCoordinate (level : UInt32) (keyAlias : Bytes) : StoreCoordinate :=
  ⟨0, uidProcess.processName, level, .key, keyAlias⟩

end Isolation

end Huks
