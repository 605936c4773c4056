import Huks.Storage.Theorems.RemovedKeys

namespace Huks

open EStateM PathText StoreCoordinate

-- `BAK_KEY` has the directory of `KEY`.
def HksStorageType.directory : HksStorageType → HksStorageType
  | bakKey      => key
  | storageType => storageType

structure StoreRequest where
  processInfo : HksProcessInfo
  paramSet    : HksParamSet
  keyAlias    : Bytes
  storageType : HksStorageType
  keyBlob     : Bytes

namespace StoreRequest

def coordinate (r : StoreRequest) : Except HksErrorCode StoreCoordinate :=
  storeCoordinate r.processInfo r.paramSet r.keyAlias r.storageType.directory

-- A request is for one of the levels, and the name of the process is its uid.
def WellFormed (r : StoreRequest) : Prop := ∀ c, r.coordinate = .ok c → c.WellFormed

def exec (env : StorageEnv) (r : StoreRequest) : StorageM Unit :=
  hksManageStoreKeyBlob env r.processInfo r.paramSet r.keyAlias r.keyBlob r.storageType

end StoreRequest

-- What is on the disk after the requests, whether they succeeded or not.
def storeAll (env : StorageEnv) (requests : List StoreRequest) : Disk :=
  requests.foldl (fun disk r => ((r.exec env).run disk).final) { files := ∅ }

-- All there is are files of keys, in the areas that the build has.
def Disk.KeyFiles (backup : Bool) (disk : Disk) : Prop :=
  ∀ path, (disk.files.lookup path).isSome → path.length < hksMaxFileNameLen ∧
    ∃ c : StoreCoordinate, c.WellFormed ∧ ∃ area ∈ areas backup, path = c.filePath area

section Store

variable {env : StorageEnv} {disk : Disk} {backup : Bool} {c : StoreCoordinate}

theorem Disk.KeyFiles.set {area path : Path} (h : disk.KeyFiles backup)
    (hlength : path.length < hksMaxFileNameLen) (hc : c.WellFormed) (harea : area ∈ areas backup)
    (hpath : path = c.filePath area) (content : Bytes) : (disk.set path content).KeyFiles backup := by
  intro path' hsome
  by_cases heq : path' = path
  case pos => exact heq ▸ ⟨hlength, c, hc, area, harea, hpath⟩
  case neg =>
    rw [lookup_set_ne _ heq] at hsome
    exact h path' hsome

theorem touches_length {path fileName full : Path} (h : Touches path fileName full) :
    full.length < hksMaxFileNameLen := by
  have hroom (text : Path) (h : (if text.length < hksMaxFileNameLen then return text
      else throw .internalError : Except HksErrorCode Path) = .ok full) :
      full.length < hksMaxFileNameLen := by
    split at h
    case isTrue hlength =>
      cases h
      exact hlength
    case isFalse => contradiction
  exact hroom _ h

theorem mainArea_mem (backup : Bool) : mainArea ∈ areas backup := by cases backup <;> simp [areas]

theorem bakArea_mem : bakArea ∈ areas true := by simp [areas]

-- The file of a found key that is written is the main one, or the backup if there are backups.
theorem StoreCoordinate.Found.touches_area {info : HksStoreFileInfo}
    (h : c.Found backup info) {full : Path} (hfull : info.Touches backup full) :
    full.length < hksMaxFileNameLen ∧ ∃ area ∈ areas backup, full = c.filePath area := by
  obtain hfull | ⟨hbackup, hfull⟩ := hfull
  · exact ⟨touches_length hfull, mainArea, mainArea_mem _, touches_storeInfo (h.mainPath ▸ hfull)⟩
  · subst hbackup
    exact ⟨touches_length hfull, bakArea, bakArea_mem, touches_storeInfo (h.bakPath rfl ▸ hfull)⟩

-- A key without a level has no file.
theorem storeFileInfo_fails {P : Disk → Prop} {processInfo : HksProcessInfo}
    {paramSet : HksParamSet} {keyAlias : Bytes} {storageType : HksStorageType} {e : HksErrorCode}
    (h : storeCoordinate processInfo paramSet keyAlias storageType = .error e) :
    Triple P (storeFileInfo env processInfo paramSet keyAlias storageType)
      (fun _ s => P s ∧ False) fun _ => P := by
  refine .ofExcept_bind (fun material hmaterial => ?_) fun _ _ _ => id
  obtain ⟨level, userId, hparams, -⟩ := initStorageMaterial_ok hmaterial
  rw [storeCoordinate, hparams] at h
  cases h

theorem storeFileInfo_directory (processInfo : HksProcessInfo) (paramSet : HksParamSet)
    (keyAlias : Bytes) (storageType : HksStorageType) :
    storeFileInfo env processInfo paramSet keyAlias storageType =
      storeFileInfo env processInfo paramSet keyAlias storageType.directory := by
  cases storageType <;> rfl

-- A request writes the file of its key, and the backup if the build has backups.
theorem StoreRequest.exec_preserves {P : Disk → Prop} (hfact : DiskFact P) {r : StoreRequest}
    (hr : r.WellFormed) (hset : ∀ c full content s, r.coordinate = .ok c →
      full.length < hksMaxFileNameLen → (∃ area ∈ areas env.supportStorageBackup, full = c.filePath area) →
      P s → P (s.set full content)) : Preserves P (r.exec env) := by
  rw [exec, hksManageStoreKeyBlob, storeFileInfo_directory]
  cases hcoord : r.coordinate
  case error e =>
    exact (storeFileInfo_fails hcoord).preserves_bind fun _ => False.elim
  case ok c =>
    refine (storeFileInfo_triple hfact (hr c hcoord) hcoord).preserves_bind fun info hinfo => ?_
    refine hksStoreKeyBlob_preserves hfact fun full content s hfull hs => ?_
    have ⟨hlength, harea⟩ := hinfo.touches_area hfull
    exact hset c full content s hcoord hlength harea hs

theorem StoreRequest.exec_keyFiles {r : StoreRequest} (hr : r.WellFormed) :
    Preserves (Disk.KeyFiles env.supportStorageBackup) (r.exec env) := by
  refine exec_preserves (fun _ _ => id) hr fun c full content s hcoord hlength hfull hs => ?_
  have ⟨area, harea, hpath⟩ := hfull
  exact hs.set hlength (hr c hcoord) harea hpath content

-- What the requests keep holds of the disk that they leave.
theorem storeAll_induction {P : Disk → Prop} {requests : List StoreRequest} (hempty : P { files := ∅ })
    (hr : ∀ r ∈ requests, Preserves P (r.exec env)) : P (storeAll env requests) := by
  rw [storeAll]
  generalize ({ files := ∅ } : Disk) = disk at hempty ⊢
  induction requests generalizing disk
  case nil => exact hempty
  case cons r requests ih =>
    have ⟨hhead, htail⟩ := List.forall_mem_cons.mp hr
    exact ih htail _ (hhead disk hempty)

variable (env) in
theorem storeAll_keyFiles {requests : List StoreRequest} (hr : ∀ r ∈ requests, r.WellFormed) :
    (storeAll env requests).KeyFiles env.supportStorageBackup := by
  refine storeAll_induction (fun path hpath => ?_) fun r h => StoreRequest.exec_keyFiles (hr r h)
  simp at hpath

theorem component_of_areas {area : Path} (h : area ∈ areas backup) : Component area := by
  revert area
  cases backup <;> decide

theorem Disk.KeyFiles.tidy (h : disk.KeyFiles backup) : disk.Tidy := by
  intro path hpath
  have ⟨hlength, c, hc, area, harea, heq⟩ := h path hpath
  have ⟨hslash, hnil, _⟩ := component_of_areas harea
  refine ⟨hlength, c.dirs area, encodeName c.keyAlias, ?_, slash_notMem_encodeName _, heq⟩
  exact ⟨plain_dirs c hslash, fun h => by simpa [h] using dirs_getLast c area, dirs_ne_nil hnil hc⟩

-- At the temporary level there are no backups.
theorem StoreCoordinate.filePath_tmp (h : getPathType c.storageLevel = .tmp) (area area' : Path) :
    c.filePath area = c.filePath area' := by
  simp [filePath, dirs, h]

theorem StoreCoordinate.filePath_bakArea_ne (h : getPathType c.storageLevel ≠ .tmp) :
    c.filePath bakArea ≠ c.filePath mainArea := by
  intro heq
  rw [filePath, filePath, components_eq, components_eq] at heq
  have hplain (area : Path) (harea : '/' ∉ area) :
      Plain '/' (rootDirs (getPathType c.storageLevel) ++ c.belowRoot area) :=
    List.forall_mem_append.mpr ⟨plain_rootDirs _, plain_belowRoot c harea⟩
  have hbelow := List.append_cancel_left
    (render_injective (hplain bakArea (by decide)) (hplain mainArea (by decide)) heq)
  have hne : bakArea ≠ mainArea := by decide
  cases htype : getPathType c.storageLevel
  case de => simp [belowRoot, htype, hne] at hbelow
  case ce => simp [belowRoot, htype, hne] at hbelow
  case ece => simp [belowRoot, htype, hne] at hbelow
  case tmp => exact h htype

theorem StoreCoordinate.level_of_pathType (hc : c.WellFormed) :
    (getPathType c.storageLevel = .tmp ↔ c.storageLevel = hksAuthStorageLevelOldDeTmp) ∧
      (getPathType c.storageLevel = .de ↔ c.storageLevel = hksAuthStorageLevelDe) := by
  obtain h | h | h | h := hc.storageLevel <;> rw [h] <;> decide

-- Without backups there are none.
theorem Disk.KeyFiles.no_backup (h : disk.KeyFiles backup) (hc : c.WellFormed) {area : Path}
    (harea : area ∈ [mainArea, bakArea]) (hnot : area ∉ areas backup)
    (htype : getPathType c.storageLevel ≠ .tmp) :
    disk.files.lookup (c.filePath area) = none := by
  obtain rfl | rfl : area = mainArea ∨ area = bakArea := by simpa using harea
  · exact absurd (mainArea_mem backup) hnot
  · cases backup
    case true => exact absurd bakArea_mem hnot
    case false =>
      refine Option.not_isSome_iff_eq_none.mp fun hsome => ?_
      have ⟨_, c', hc', area', harea', hpath⟩ := h _ hsome
      obtain rfl : area' = mainArea := by simpa [areas] using harea'
      have heq := StoreCoordinate.filePath_injective hc hc' (by decide) (by decide) (by decide)
        (by decide) hpath
      exact filePath_bakArea_ne htype (heq ▸ hpath)

-- The directories below the areas hold the keys of their user, of the uid if there is one.
theorem within_areas {area userData : Path} {tail : List Path} (harea : '/' ∉ area)
    (huser : Component userData) (htail : ∀ c ∈ tail, Component c) :
    (∃ area' ∈ areas backup, ∃ dir ∈ plainDirs area' userData tail, Within dir 3 (c.filePath area)) ↔
      getPathType c.storageLevel ≠ .tmp ∧ area ∈ areas backup ∧ c.userIdText = userData ∧
        ∃ name rest, rest.length < 3 ∧
          [c.uidText, c.typeText, encodeName c.keyAlias] = tail ++ name :: rest := by
  have hwithin (area' : Path) (harea' : area' ∈ areas backup) :=
    have htmp : area' ≠ "tmp".toList := by
      revert area'
      cases backup <;> decide
    within_plainDirs (c := c) harea (component_of_areas harea') htmp huser htail
  constructor
  case mp =>
    rintro ⟨area', harea', h⟩
    have ⟨htype, heq, h⟩ := (hwithin area' harea').mp h
    exact ⟨htype, heq ▸ harea', h⟩
  case mpr =>
    rintro ⟨htype, harea', h⟩
    exact ⟨area, harea', (hwithin area harea').mpr ⟨htype, rfl, h⟩⟩

end Store

-- Whose keys a removal is for, and what else its old directory is taken for.
structure Removal where
  mine : StoreCoordinate → Prop
  old  : StoreCoordinate → Prop

namespace Removal

def ofUser (userId : Int32) : Removal where
  mine c := c.storeUserId = userId
  old c  := c.userIdText = encodeName (toBytes32 userId.toUInt32)

def ofUid (userId : Int32) (uid : UInt32) : Removal where
  mine c := c.storeUserId = userId ∧ c.processName = toBytes32 uid
  old c  :=
    if userId = 0 then c.userIdText = encodeName (toBytes32 uid)
    else c.userIdText = encodeName (toBytes32 userId.toUInt32) ∧ c.uidText = encodeName (toBytes32 uid)

-- No file of a key that the removal is for remains, and all others are as they were.
def Exact (r : Removal) (disk disk' : Disk) : Prop :=
  ∀ c : StoreCoordinate, c.WellFormed → ∀ area ∈ [mainArea, bakArea],
    (r.mine c → disk'.files.lookup (c.filePath area) = none) ∧
    (¬r.mine c → disk'.files.lookup (c.filePath area) = disk.files.lookup (c.filePath area))

-- No key that the removal is for is at the temporary level, and no other key is in the directory
-- whose name is the escaped one of the user or the uid.
def Clear (r : Removal) (disk : Disk) : Prop :=
  ∀ c : StoreCoordinate, c.WellFormed → (disk.files.lookup (c.filePath mainArea)).isSome →
    (r.mine c → c.storageLevel ≠ hksAuthStorageLevelOldDeTmp) ∧
    (¬r.mine c → c.storageLevel = hksAuthStorageLevelDe → ¬r.old c)

-- The files that are deleted.
def Deletes (r : Removal) (backup : Bool) (S : Path → Prop) : Prop :=
  ∀ c : StoreCoordinate, c.WellFormed → ∀ area ∈ [mainArea, bakArea], S (c.filePath area) ↔
    (getPathType c.storageLevel = .de ∧ area = mainArea ∧ r.old c) ∨
    (getPathType c.storageLevel ≠ .tmp ∧ area ∈ areas backup ∧ r.mine c)

section Exact

variable {disk : Disk} {backup : Bool} {r : Removal}

-- A removal that deletes these files is exact just for a disk that is clear.
theorem exact_iff {S : Path → Prop} {x : StorageM Unit} (hdisk : disk.KeyFiles backup)
    (hS : r.Deletes backup S) (hx : Erases S x) :
    r.Exact disk (x.run disk).final ↔ r.Clear disk := by
  have ⟨t, hrun, hfiles⟩ := hx disk hdisk.tidy
  rw [hrun]
  constructor
  case mp =>
    intro hexact c hc hsome
    have ⟨hgone, hkept⟩ := hexact c hc mainArea (by simp)
    have hS := hS c hc mainArea (by simp)
    have ⟨htmp, hde⟩ := level_of_pathType hc
    refine ⟨fun hmine hlevel => ?_, fun hother hlevel hold => ?_⟩
    · have htype := htmp.mpr hlevel
      have hnot : ¬S (c.filePath mainArea) := by simp [hS, htype]
      rw [← (hfiles _).2 hnot, show t.files.lookup _ = none from hgone hmine] at hsome
      cases hsome
    · have hin : S (c.filePath mainArea) := hS.mpr (.inl ⟨hde.mpr hlevel, rfl, hold⟩)
      have hsame : t.files.lookup (c.filePath mainArea) = disk.files.lookup (c.filePath mainArea) :=
        hkept hother
      rw [← hsame, (hfiles _).1 hin] at hsome
      cases hsome
  case mpr =>
    intro hclear c hc area harea
    have hS := hS c hc area harea
    have ⟨htmp, hde⟩ := level_of_pathType hc
    refine ⟨fun hmine => ?_, fun hother => ?_⟩
    · by_cases hin : S (c.filePath area)
      case pos => exact (hfiles _).1 hin
      case neg =>
        refine ((hfiles _).2 hin).trans ?_
        by_cases htype : getPathType c.storageLevel = .tmp
        case pos =>
          rw [filePath_tmp htype area mainArea]
          exact Option.not_isSome_iff_eq_none.mp fun hsome =>
            (hclear c hc hsome).1 hmine (htmp.mp htype)
        case neg =>
          exact hdisk.no_backup hc harea (fun hmem => hin (hS.mpr (.inr ⟨htype, hmem, hmine⟩))) htype
    · by_cases hin : S (c.filePath area)
      case neg => exact (hfiles _).2 hin
      case pos =>
        obtain ⟨htype, rfl, hold⟩ := (hS.mp hin).resolve_right fun h => hother h.2.2
        refine ((hfiles _).1 hin).trans (Option.not_isSome_iff_eq_none.mp fun hsome => ?_).symm
        exact (hclear c hc hsome).2 hother (hde.mp htype) hold

end Exact

theorem ofUser_deletes (backup : Bool) (userId : Int32) :
    (ofUser userId).Deletes backup fun path => ∃ dir ∈ userDirs backup userId, Within dir 3 path := by
  intro c hc area harea
  have hareas : area ∈ areas true := harea
  have hslash := (component_of_areas hareas).1
  have huser : c.userIdText = decimal userId.toInt ↔ c.storeUserId = userId :=
    ⟨fun h => Int32.toInt_inj.mp (decimal_injective h), fun h => h ▸ rfl⟩
  dsimp only
  rw [userDirs, exists_mem_dirs, within_oldUserDir hslash, within_areas hslash (component_decimal _)
    (by simp), huser]
  simp [ofUser]

theorem ofUid_deletes (backup : Bool) (userId : Int32) (uid : UInt32) :
    (ofUid userId uid).Deletes backup fun path =>
      ∃ dir ∈ uidDirs backup userId uid, Within dir 3 path := by
  intro c hc area harea
  have hareas : area ∈ areas true := harea
  have hslash := (component_of_areas hareas).1
  have huser : c.userIdText = decimal userId.toInt ↔ c.storeUserId = userId :=
    ⟨fun h => Int32.toInt_inj.mp (decimal_injective h), fun h => h ▸ rfl⟩
  have hword : le32 (toBytes32 uid) = uid := by simpa using le32_toBytes32_append uid []
  have huid : c.uidText = decimal uid.toInt32.toInt ↔ c.processName = toBytes32 uid := by
    constructor
    case mp =>
      intro h
      have hint : (le32 c.processName).toInt32 = uid.toInt32 := Int32.toInt_inj.mp (decimal_injective h)
      refine le32_injOn hc.processName rfl ?_
      rw [hword]
      simpa using congrArg Int32.toUInt32 hint
    case mpr =>
      intro h
      rw [uidText, h, hword]
  dsimp only
  rw [uidDirs, exists_mem_dirs, within_oldUidDir hslash, within_areas hslash (component_decimal _)
    (List.forall_mem_singleton.mpr (component_decimal _)), huser]
  simp [ofUid, huid]

end Removal

section AccountRemoval

variable (env : StorageEnv)

-- An account that is removed loses its keys, and nobody else loses one, just if there is none at
-- the temporary level and none of another user under the escaped name. The same holds for an
-- application.
theorem account_removal (requests : List StoreRequest) (hrequests : ∀ r ∈ requests, r.WellFormed)
    (userId : Int32) (uid : UInt32) :
    let disk := storeAll env requests
    let deleteUser := hksServiceDeleteUserIDKeyAliasFile env (toBytes32 userId.toUInt32)
    let deleteUid := hksServiceDeleteUIDKeyAliasFile env (Storage.getProcessInfo userId uid)
    ((Removal.ofUser userId).Exact disk (deleteUser.run disk).final ↔
      (Removal.ofUser userId).Clear disk) ∧
    ((Removal.ofUid userId uid).Exact disk (deleteUid.run disk).final ↔
      (Removal.ofUid userId uid).Clear disk) := by
  have hdisk := storeAll_keyFiles env hrequests
  exact ⟨Removal.exact_iff hdisk (Removal.ofUser_deletes _ userId)
      (hksServiceDeleteUserIDKeyAliasFile_erases userId),
    Removal.exact_iff hdisk (Removal.ofUid_deletes _ userId uid)
      (hksServiceDeleteUIDKeyAliasFile_erases userId uid)⟩

end AccountRemoval

-- The uid 1000 of user 100 stores a key at a level.
def userRequest (level : UInt32) : StoreRequest where
  processInfo := { uidProcess with userId := [100, 0, 0, 0], userIdInt := 100 }
  paramSet    := levelParamSet level
  keyAlias    := [0x61]
  storageType := .key
  keyBlob     := [1, 2, 3]

def userCoordinate (level : UInt32) : StoreCoordinate :=
  ⟨100, uidProcess.processName, level, .key, [0x61]⟩

theorem account_removal_user :
    let disk := storeAll steadyStorage [userRequest hksAuthStorageLevelCe]
    let deleteUser := hksServiceDeleteUserIDKeyAliasFile steadyStorage (toBytes32 (100 : Int32).toUInt32)
    let deleteUid := hksServiceDeleteUIDKeyAliasFile steadyStorage (Storage.getProcessInfo 100 1000)
    ((Removal.ofUser 100).Exact disk (deleteUser.run disk).final ↔ (Removal.ofUser 100).Clear disk) ∧
    ((Removal.ofUid 100 1000).Exact disk (deleteUid.run disk).final ↔
      (Removal.ofUid 100 1000).Clear disk) := by
  have hwellFormed : (userRequest hksAuthStorageLevelCe).WellFormed := by
    intro c hc
    have hcoord : (userRequest hksAuthStorageLevelCe).coordinate =
        .ok (userCoordinate hksAuthStorageLevelCe) := rfl
    cases hcoord.symm.trans hc
    exact ⟨rfl, .inr (.inl rfl), by decide, by decide⟩
  exact account_removal steadyStorage [userRequest hksAuthStorageLevelCe]
    (List.forall_mem_singleton.mpr hwellFormed) 100 1000

-- A key at the temporary level outlives its account and its application.
theorem temporary_key_outlives_account :
    let disk := storeAll steadyStorage [userRequest hksAuthStorageLevelOldDeTmp]
    let deleteUser := hksServiceDeleteUserIDKeyAliasFile steadyStorage (toBytes32 (100 : Int32).toUInt32)
    let deleteUid := hksServiceDeleteUIDKeyAliasFile steadyStorage (Storage.getProcessInfo 100 1000)
    (userRequest hksAuthStorageLevelOldDeTmp).WellFormed ∧
    ¬(Removal.ofUser 100).Exact disk (deleteUser.run disk).final ∧
    ¬(Removal.ofUid 100 1000).Exact disk (deleteUid.run disk).final := by
  have hc : (userCoordinate hksAuthStorageLevelOldDeTmp).WellFormed :=
    ⟨rfl, .inr (.inr (.inr rfl)), by decide, by decide⟩
  refine ⟨fun c hcoord => ?_, fun hexact => ?_, fun hexact => ?_⟩
  · have hcoord' : (userRequest hksAuthStorageLevelOldDeTmp).coordinate =
        .ok (userCoordinate hksAuthStorageLevelOldDeTmp) := rfl
    cases hcoord'.symm.trans hcoord
    exact hc
  · have hgone := (hexact _ hc mainArea (by simp)).1 rfl
    exact absurd hgone (by decide +kernel)
  · have hgone := (hexact _ hc mainArea (by simp)).1 ⟨rfl, rfl⟩
    exact absurd hgone (by decide +kernel)

end Huks
