import Huks.Lib.Triple
import Huks.Storage.StorageManager
import Huks.Storage.Theorems.Names

namespace Huks

open EStateM PathText

-- Where a key is stored.
structure StoreCoordinate where
  storeUserId  : Int32
  processName  : Bytes
  storageLevel : UInt32
  storageType  : HksStorageType
  keyAlias     : Bytes
  deriving DecidableEq

def storeCoordinate (processInfo : HksProcessInfo) (paramSet : HksParamSet) (keyAlias : Bytes)
    (storageType : HksStorageType) : Except HksErrorCode StoreCoordinate := do
  let (storageLevel, storeUserId) ← getStorageLevelAndStoreUserIdParam processInfo paramSet
  return ⟨storeUserId, processInfo.processName, storageLevel, storageType, keyAlias⟩

-- The uid is the process name, and there are the four storage levels.
structure StoreCoordinate.WellFormed (c : StoreCoordinate) : Prop where
  processName  : c.processName.length = 4
  storageLevel : c.storageLevel = hksAuthStorageLevelDe ∨ c.storageLevel = hksAuthStorageLevelCe ∨
    c.storageLevel = hksAuthStorageLevelEce ∨ c.storageLevel = hksAuthStorageLevelOldDeTmp
  storageType  : c.storageType ≠ .bakKey
  keyAlias     : c.keyAlias.length ≤ hksMaxKeyAliasLen

namespace StoreCoordinate

variable (c : StoreCoordinate)

def userIdText : Path := decimal c.storeUserId.toInt

def uidText : Path := decimal (le32 c.processName).toInt32.toInt

def typeText : Path := getStorageTypePath c.storageType

def el1Dirs : List Path :=
  ["data".toList, "service".toList, "el1".toList, "public".toList, "huks_service".toList]

-- The directory of a key; `area` is the one of the main files or the one of the backups.
def dirs (area : Path) : List Path :=
  match getPathType c.storageLevel with
  | .de  => el1Dirs ++ [area, c.userIdText, c.uidText, c.typeText]
  | .ce  =>
    ["data".toList, "service".toList, "el2".toList, c.userIdText, "huks_service".toList, area,
      c.uidText, c.typeText]
  | .ece =>
    ["data".toList, "service".toList, "el4".toList, c.userIdText, "huks_service".toList, area,
      c.uidText, c.typeText]
  | .tmp =>
    el1Dirs ++ "tmp".toList ::
      ((if c.storeUserId = 0 then [] else [encodeName (toBytes32 c.storeUserId.toUInt32)]) ++
        [encodeName c.processName, c.typeText])

def storeInfo (area : Path) : HksStoreInfo := ⟨render '/' (c.dirs area), encodeName c.keyAlias⟩

-- The full path of the file.
def filePath (area : Path) : Path := render '/' (c.dirs area ++ [encodeName c.keyAlias])

end StoreCoordinate

section PathInfo

variable {env : StorageEnv} {fs : FileSystem} {material : HksStoreMaterial} {s t : Disk}
  {deDataPath ceOrEceDataPath path : Path}

theorem sprintfS_ok {destMax : Nat} {text path : Path} (h : sprintfS destMax text = .ok path) :
    path = text ∧ text.length < destMax := by
  rw [sprintfS] at h
  split at h
  case isTrue hroom =>
    cases h
    exact ⟨rfl, hroom.2⟩
  case isFalse => contradiction

-- The text of the path of a directory, before its slashes are standardized.
def rawPath (material : HksStoreMaterial) (deDataPath ceOrEceDataPath : Path) : Path :=
  let ⟨pathType, userIdPath, uidPath, storageTypePath, _⟩ := material
  match pathType with
  | .de  => joinPath [deDataPath, userIdPath, uidPath, storageTypePath]
  | .ce  => joinPath [hksCeRootPath, userIdPath, ceOrEceDataPath, uidPath, storageTypePath]
  | .ece => joinPath [hksEceRootPath, userIdPath, ceOrEceDataPath, uidPath, storageTypePath]
  | .tmp => joinPath [hksKeyStoreTmpPath, userIdPath, uidPath, storageTypePath]

theorem constructPath_ok (h : constructPath fs material deDataPath ceOrEceDataPath = .ok path) :
    path = rawPath material deDataPath ceOrEceDataPath ∧ path.length < hksMaxDirentFileLen := by
  obtain ⟨pathType, userIdPath, uidPath, storageTypePath, keyAliasPath⟩ := material
  cases pathType
  case de =>
    have ⟨hpath, hlength⟩ := sprintfS_ok h
    exact ⟨hpath, hpath ▸ hlength⟩
  case tmp =>
    have ⟨hpath, hlength⟩ := sprintfS_ok h
    exact ⟨hpath, hpath ▸ hlength⟩
  case ce =>
    have ⟨_, _, h⟩ := Except.bind_eq_ok.mp h
    have ⟨hpath, hlength⟩ := sprintfS_ok h
    exact ⟨hpath, hpath ▸ hlength⟩
  case ece =>
    have ⟨_, _, h⟩ := Except.bind_eq_ok.mp h
    have ⟨hpath, hlength⟩ := sprintfS_ok h
    exact ⟨hpath, hpath ▸ hlength⟩

theorem getPathInfo_triple (P : Disk → Prop) (hP : ∀ s n, P s → P { s with tick := n }) :
    Triple P (getPathInfo fs material deDataPath ceOrEceDataPath)
      (fun info s => P s ∧ info = ⟨standardizePath (rawPath material deDataPath ceOrEceDataPath),
          material.keyAliasPath.getD []⟩ ∧
        (rawPath material deDataPath ceOrEceDataPath).length < hksMaxDirentFileLen)
      fun _ => P := by
  dsimp only [getPathInfo]
  refine Triple.ofExcept_bind (fun path hpath => ?_) fun _ _ _ => id
  have ⟨hraw, hlength⟩ := constructPath_ok hpath
  subst hraw
  refine Triple.bind (Q := fun _ => P) (fun s hs => hP s _ hs) fun ret => ?_
  refine Triple.ofExcept_bind (fun _ _ => ?_) fun _ _ _ => id
  split
  case h_1 hnone => exact Triple.pure fun s hs => ⟨hs, by rw [hnone]; rfl, hlength⟩
  case h_2 keyAliasPath hsome =>
    refine Triple.ite (fun _ => Triple.throw fun _ => id) fun _ => ?_
    refine Triple.ite (fun _ => Triple.throw fun _ => id) fun _ => ?_
    exact Triple.pure fun s hs => ⟨hs, by rw [hsome]; rfl, hlength⟩

end PathInfo

section Material

variable {processInfo : HksProcessInfo} {paramSet : HksParamSet} {keyAlias : Bytes}
  {storageType : HksStorageType} {material : HksStoreMaterial} {c : StoreCoordinate} {path : Path}

theorem storeCoordinate_ok (h : storeCoordinate processInfo paramSet keyAlias storageType = .ok c) :
    getStorageLevelAndStoreUserIdParam processInfo paramSet = .ok (c.storageLevel, c.storeUserId) ∧
      c.processName = processInfo.processName ∧ c.storageType = storageType ∧
      c.keyAlias = keyAlias := by
  have ⟨⟨storageLevel, storeUserId⟩, hparams, h⟩ := Except.bind_eq_ok.mp h
  cases h
  exact ⟨hparams, rfl, rfl, rfl⟩

theorem constructPlainName_uid {blob : Bytes} {nameLen : Nat} (hlength : blob.length = 4)
    (h : constructPlainName blob nameLen = .ok path) :
    path = decimal (le32 blob).toInt32.toInt := by
  rw [constructPlainName, if_pos hlength] at h
  exact (sprintfS_ok h).1

theorem getUserIdPath_ok {userId : Int32} {isPlain : Bool}
    (h : getUserIdPath userId isPlain = .ok path) :
    path = if isPlain then decimal userId.toInt else if userId = 0 then []
      else encodeName (toBytes32 userId.toUInt32) := by
  dsimp only [getUserIdPath] at h
  split at h
  case isTrue hplain =>
    have hle : le32 (toBytes32 userId.toUInt32) = userId.toUInt32 := by
      simpa using le32_toBytes32_append userId.toUInt32 []
    rw [if_pos hplain, constructPlainName_uid rfl h, hle, Int32.toInt32_toUInt32]
  case isFalse hplain =>
    rw [if_neg hplain]
    split at h
    case isTrue hzero =>
      cases h
      rw [if_pos hzero]
    case isFalse hzero => rw [if_neg hzero, constructName_ok h]

theorem getUidPath_ok {isPlain : Bool} {processName : Bytes} (hlength : processName.length = 4)
    (h : getUidPath isPlain processName = .ok path) :
    path = if isPlain then decimal (le32 processName).toInt32.toInt else encodeName processName := by
  rw [getUidPath] at h
  split at h
  case isTrue hplain => rw [if_pos hplain, constructPlainName_uid hlength h]
  case isFalse hplain => rw [if_neg hplain, constructName_ok h]

theorem initStorageMaterial_ok
    (h : initStorageMaterial processInfo paramSet (some keyAlias) storageType = .ok material) :
    ∃ storageLevel storeUserId,
      getStorageLevelAndStoreUserIdParam processInfo paramSet = .ok (storageLevel, storeUserId) ∧
      material.pathType = getPathType storageLevel ∧
      getUserIdPath storeUserId (getIsPlainPath storageLevel) = .ok material.userIdPath ∧
      getUidPath (getIsPlainPath storageLevel) processInfo.processName = .ok material.uidPath ∧
      material.storageTypePath = getStorageTypePath storageType ∧
      material.keyAliasPath = some (encodeName keyAlias) := by
  have ⟨⟨storageLevel, storeUserId⟩, hparams, h⟩ := Except.bind_eq_ok.mp h
  have ⟨userIdPath, huser, h⟩ := Except.bind_eq_ok.mp h
  have ⟨uidPath, huid, h⟩ := Except.bind_eq_ok.mp h
  have ⟨keyAliasPath, halias, h⟩ := Except.bind_eq_ok.mp h
  have ⟨name, hname, halias⟩ := Except.bind_eq_ok.mp halias
  cases halias
  cases h
  exact ⟨storageLevel, storeUserId, hparams, rfl, huser, huid, rfl, by rw [constructName_ok hname]⟩

-- What holds of the fixed components, the area, the numbers and the names holds of every
-- component of a directory.
theorem dirs_forall {Q : Path → Prop} {area : Path} (c : StoreCoordinate)
    (hfixed : ∀ comp ∈ ["data".toList, "service".toList, "el1".toList, "el2".toList, "el4".toList,
      "public".toList, "huks_service".toList, "tmp".toList, "key".toList, "info".toList], Q comp)
    (harea : Q area) (hnumber : ∀ n, Q (decimal n)) (huser : Q (encodeName (toBytes32 c.storeUserId.toUInt32)))
    (huid : Q (encodeName c.processName)) : ∀ comp ∈ c.dirs area, Q comp := by
  simp only [List.forall_mem_cons] at hfixed
  obtain ⟨hdata, hservice, hel1, hel2, hel4, hpublic, hhuks, htmp, hkey, hinfo, -⟩ := hfixed
  have htype : Q c.typeText := by
    rw [StoreCoordinate.typeText]
    cases c.storageType
    case key => exact hkey
    case rootKey => exact hinfo
    case bakKey => exact hkey
  have hel1Dirs : ∀ comp ∈ StoreCoordinate.el1Dirs, Q comp := by
    simp only [StoreCoordinate.el1Dirs, List.forall_mem_cons]
    exact ⟨hdata, hservice, hel1, hpublic, hhuks, by simp⟩
  rw [StoreCoordinate.dirs]
  cases getPathType c.storageLevel
  case de =>
    simp only [List.forall_mem_append, List.forall_mem_cons]
    exact ⟨hel1Dirs, harea, hnumber _, hnumber _, htype, by simp⟩
  case ce =>
    simp only [List.forall_mem_cons]
    exact ⟨hdata, hservice, hel2, hnumber _, hhuks, harea, hnumber _, htype, by simp⟩
  case ece =>
    simp only [List.forall_mem_cons]
    exact ⟨hdata, hservice, hel4, hnumber _, hhuks, harea, hnumber _, htype, by simp⟩
  case tmp =>
    simp only [List.forall_mem_append, List.forall_mem_cons]
    refine ⟨hel1Dirs, htmp, ?_, huid, htype, by simp⟩
    split
    case isTrue => simp
    case isFalse => simpa using huser

theorem plain_dirs (c : StoreCoordinate) {area : Path} (harea : '/' ∉ area) :
    Plain '/' (c.dirs area) :=
  dirs_forall c (by decide) harea slash_notMem_decimal (slash_notMem_encodeName _)
    (slash_notMem_encodeName _)

theorem typeText_ne_nil (c : StoreCoordinate) : c.typeText ≠ [] := by
  rw [StoreCoordinate.typeText]
  cases c.storageType <;> decide

theorem uidName_ne_nil (hc : c.WellFormed) : encodeName c.processName ≠ [] := by
  rw [Ne, encodeName_eq_nil, ← List.length_eq_zero_iff, hc.processName]
  decide

theorem isPlainPath_iff (hc : c.WellFormed) :
    getIsPlainPath c.storageLevel = true ↔ getPathType c.storageLevel ≠ .tmp := by
  obtain h | h | h | h := hc.storageLevel <;> rw [h] <;> decide

theorem dirs_ne_nil {area : Path} (hnil : area ≠ []) (hc : c.WellFormed) :
    ∀ comp ∈ c.dirs area, comp ≠ [] :=
  dirs_forall c (by decide) hnil decimal_ne_nil (encodeName_eq_nil.not.mpr (List.cons_ne_nil _ _))
    (uidName_ne_nil hc)

theorem dirs_getLast (c : StoreCoordinate) (area : Path) :
    (c.dirs area).getLast? = some c.typeText := by
  rw [StoreCoordinate.dirs]
  cases getPathType c.storageLevel
  case tmp =>
    rw [List.getLast?_append_of_ne_nil _ (by simp), List.getLast?_cons_of_ne_nil (by simp)]
    simp
  case de => simp
  case ce => simp
  case ece => simp

theorem standardizePath_render {comps : List Path} (h : Plain '/' comps) (hnil : comps ≠ [])
    (hlast : comps.getLast? ≠ some []) :
    standardizePath (render '/' comps) = render '/' (comps.filter (· ≠ [])) := by
  cases comps
  case nil => contradiction
  case cons => exact collapse_render h hlast

-- The components of the path of a directory, before its slashes are standardized.
def StoreCoordinate.rawDirs (c : StoreCoordinate) (area : Path) : List Path :=
  if getPathType c.storageLevel = .tmp ∧ c.storeUserId = 0 then
    el1Dirs ++ ["tmp".toList, [], encodeName c.processName, c.typeText]
  else
    c.dirs area

theorem standardizePath_rawDirs {area : Path} (harea : '/' ∉ area) (hnil : area ≠ [])
    (hc : c.WellFormed) : standardizePath (render '/' (c.rawDirs area)) = render '/' (c.dirs area) := by
  have hplain := plain_dirs c harea
  have htype := typeText_ne_nil c
  have hlast := dirs_getLast c area
  rw [StoreCoordinate.rawDirs]
  split
  case isTrue h =>
    have hdirs : c.dirs area =
        StoreCoordinate.el1Dirs ++ ["tmp".toList, encodeName c.processName, c.typeText] := by
      simp [StoreCoordinate.dirs, h]
    rw [hdirs] at hplain ⊢
    rw [standardizePath_render _ (by simp) (by simpa using htype)]
    · simp [StoreCoordinate.el1Dirs, uidName_ne_nil hc, htype]
    · simpa [Plain, or_imp, forall_and] using hplain
  case isFalse =>
    have hne : c.dirs area ≠ [] := fun h => by simp [h] at hlast
    rw [standardizePath_render hplain hne (by simpa [hlast] using htype),
      List.filter_eq_self.mpr fun comp hcomp => by simpa using dirs_ne_nil hnil hc comp hcomp]

theorem joinPath_cons (part : Path) (parts : List Path) :
    joinPath (part :: parts) = part ++ render '/' parts := by
  induction parts generalizing part
  case nil => simp [joinPath]
  case cons next parts ih =>
    have hjoin : joinPath (part :: next :: parts) = part ++ '/' :: joinPath (next :: parts) := by
      simp [joinPath, List.intercalate]
    rw [hjoin, ih, render_cons]

-- The directory that `ConstructPath` and `StandardizePath` find is the one of the coordinate.
theorem standardizePath_material {area : Path} (harea : '/' ∉ area) (hnil : area ≠ [])
    (hc : c.WellFormed) (hpathType : material.pathType = getPathType c.storageLevel)
    (huser : material.userIdPath = if getIsPlainPath c.storageLevel then decimal c.storeUserId.toInt
      else if c.storeUserId = 0 then [] else encodeName (toBytes32 c.storeUserId.toUInt32))
    (huid : material.uidPath = if getIsPlainPath c.storageLevel then
      decimal (le32 c.processName).toInt32.toInt else encodeName c.processName)
    (hstorage : material.storageTypePath = c.typeText) :
    standardizePath (rawPath material (hksConfigKeyStorePath ++ '/' :: area)
      ("huks_service/".toList ++ area)) = render '/' (c.dirs area) := by
  have hplain := isPlainPath_iff hc
  rw [← standardizePath_rawDirs harea hnil hc]
  congr 1
  obtain ⟨pathType, userIdPath, uidPath, storageTypePath, keyAliasPath⟩ := material
  simp only at hpathType huser huid hstorage
  subst hpathType huser huid hstorage
  rw [StoreCoordinate.rawDirs, StoreCoordinate.dirs]
  have hel1 : hksConfigKeyStorePath = render '/' StoreCoordinate.el1Dirs := rfl
  have hce : hksCeRootPath = render '/' ["data".toList, "service".toList, "el2".toList] := rfl
  have hece : hksEceRootPath = render '/' ["data".toList, "service".toList, "el4".toList] := rfl
  have hservice : "huks_service/".toList ++ area = "huks_service".toList ++ '/' :: area := rfl
  have htmp : hksKeyStoreTmpPath = render '/' (StoreCoordinate.el1Dirs ++ ["tmp".toList]) := rfl
  cases htype : getPathType c.storageLevel
  case de =>
    simp [rawPath, joinPath_cons, htype, hplain, hel1, StoreCoordinate.userIdText, StoreCoordinate.uidText]
  case ce =>
    have hplain : getIsPlainPath c.storageLevel = true := by simp [hplain, htype]
    simp only [rawPath, joinPath_cons, hplain, hce, hservice, if_true, render_cons, render_nil, reduceCtorEq,
      false_and, if_false, List.append_assoc, List.cons_append, List.append_nil,
      StoreCoordinate.userIdText, StoreCoordinate.uidText]
  case ece =>
    have hplain : getIsPlainPath c.storageLevel = true := by simp [hplain, htype]
    simp only [rawPath, joinPath_cons, hplain, hece, hservice, if_true, render_cons, render_nil, reduceCtorEq,
      false_and, if_false, List.append_assoc, List.cons_append, List.append_nil,
      StoreCoordinate.userIdText, StoreCoordinate.uidText]
  case tmp =>
    by_cases hzero : c.storeUserId = 0
    case pos => simp [rawPath, joinPath_cons, htype, hplain, hzero, htmp]
    case neg => simp [rawPath, joinPath_cons, htype, hplain, hzero, htmp]

theorem standardizePath_rawPath {area : Path} (harea : '/' ∉ area) (hnil : area ≠ [])
    (hc : c.WellFormed) (hcoord : storeCoordinate processInfo paramSet keyAlias storageType = .ok c)
    (h : initStorageMaterial processInfo paramSet (some keyAlias) storageType = .ok material) :
    standardizePath (rawPath material (hksConfigKeyStorePath ++ '/' :: area)
      ("huks_service/".toList ++ area)) = render '/' (c.dirs area) := by
  have ⟨hparams, hname, htype, _⟩ := storeCoordinate_ok hcoord
  obtain ⟨level, userId, hparams', hpathType, huser, huid, hstorage, -⟩ := initStorageMaterial_ok h
  rw [hparams] at hparams'
  obtain ⟨rfl, rfl⟩ : c.storageLevel = level ∧ c.storeUserId = userId := by
    simpa using hparams'
  rw [← hname] at huid
  exact standardizePath_material harea hnil hc hpathType (getUserIdPath_ok huser)
    (getUidPath_ok hc.processName huid) (by rw [hstorage, ← htype]; rfl)

end Material

end Huks
