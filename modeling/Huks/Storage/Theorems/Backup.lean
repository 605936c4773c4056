import Huks.Storage.Theorems.AccountRemoval
import Huks.Storage.Theorems.FileCalls

namespace Huks

open EStateM PathText StoreCoordinate

-- What a call for a key whose files are `p` and `q` leaves: all other files are those of `g`, and
-- where there is a copy of the key, it is `v`.
def Leaves (g : Path → Option Bytes) (p q : Path) (v : Option Bytes) (disk : Disk) : Prop :=
  ∃ g', On g' disk ∧ (∀ path, path ≠ p → path ≠ q → g' path = g path) ∧
    ∀ b, g' p = some b ∨ g' q = some b → v = some b

section Operations

variable {env : StorageEnv} {info : HksStoreFileInfo} {g : Path → Option Bytes} {p q : Path}
  {v : Option Bytes}

theorem On.leaves {disk : Disk} (h : On g disk) (hv : ∀ b, g p = some b ∨ g q = some b → v = some b) :
    Leaves g p q v disk := ⟨g, h, fun _ _ _ => rfl, hv⟩

-- One of the two files was changed.
theorem On.leaves_update {disk : Disk} {full : Path} {b : Option Bytes}
    (h : On (Function.update g full b) disk) (hfull : full = p ∨ full = q)
    (hb : ∀ c, b = some c → v = some c)
    (hv : ∀ b, g p = some b ∨ g q = some b → v = some b) : Leaves g p q v disk := by
  refine ⟨_, h, fun path hp hq => ?_, fun c hc => ?_⟩
  · rw [Function.update_of_ne]
    rintro rfl
    exact hfull.elim hp hq
  · simp only [Function.update_apply] at hc
    grind

variable (hp : getValidFileName info.mainPath.path info.mainPath.fileName = .ok p)
  (hq : getValidFileName info.bakPath.path info.bakPath.fileName = .ok q)
  (hbackup : env.supportStorageBackup = true) (hv : ∀ b, g p = some b ∨ g q = some b → v = some b)
include hp hq hbackup hv

-- No backup of an older key stays behind when its write fails.
theorem hksStoreKeyBlob_leaves {keyBlob : Bytes} (hwhole : env.fs.WritesWhole)
    (hagree : (∀ n, env.fs.write n = .done) ∨ (∀ n, env.fs.write n ≠ .done) ∨ g q = none ∨ p = q) :
    Triple (On g) (hksStoreKeyBlob env info keyBlob) (fun _ => Leaves g p q (some keyBlob))
      fun _ => Leaves g p q v := by
  dsimp only [hksStoreKeyBlob, hksStorageWriteFile]
  refine .bind ((hksFileWrite_triple hp hwhole).weaken_error fun _ _ hs => hs.1.leaves hv) fun _ => ?_
  rw [if_pos hbackup]
  refine .strengthen_pre (.of_pure fun hwrite => ?_) fun s hs => ⟨hs.2, hs.1⟩
  have ⟨hnil, n, hdone⟩ := hwrite
  refine .attempt_discard fun s => Triple.final <|
    (hksFileWrite_triple hq hwhole).weaken (fun _ => id) (fun _ t ht => ?_) fun e t ht => ?_
  · refine ⟨_, ht.1, fun path hp hq => ?_, fun c hc => ?_⟩
    · rw [Function.update_of_ne hq, Function.update_of_ne hp]
    · simp only [Function.update_apply] at hc
      grind
  · refine ⟨_, ht.1, fun path hp _ => Function.update_of_ne hp _ _, fun c hc => ?_⟩
    have hnone : g q = none ∨ p = q := by
      obtain hall | hall | h := hagree
      · obtain h | ⟨m, h⟩ := ht.2
        · exact absurd h hnil
        · exact absurd (hall m) h
      · exact absurd hdone (hall n)
      · exact h
    simp only [Function.update_apply] at hc
    grind

theorem hksStoreDeleteKeyBlob_leaves (hmain : g p = none → g q = none)
    (hcode : ∀ n, env.fs.remove n ≠ some .notExist)
    (hremove : (∀ n, env.fs.remove n = none) ∨ CleaningSpares env (g p) ∧ CleaningSpares env (g q)) :
    Triple (On g) (hksStoreDeleteKeyBlob env info) (fun _ => Leaves g p q none)
      fun e disk => Leaves g p q v disk ∧ (e = .notExist → g p = none ∧ g q = none) := by
  dsimp only [hksStoreDeleteKeyBlob, deleteKeyBlob]
  refine .bind (fileExists_triple hp) fun isMainFileExist => ?_
  refine .strengthen_pre (.of_pure fun hmainExists => ?_) fun s hs => ⟨hs.2, hs.1⟩
  rw [if_pos hbackup]
  refine .bind (fileExists_triple hq) fun isBakFileExist => ?_
  refine .strengthen_pre (.of_pure fun hbakExists => ?_) fun s hs => ⟨hs.2, hs.1⟩
  refine .guard (fun hnone s hs => ?_) fun hsome => ?_
  · refine ⟨hs.leaves hv, fun _ => ?_⟩
    simpa [hmainExists, hbakExists] using hnone
  have hfound : (g p).isSome := by
    by_contra hmissing
    have hnone := Option.not_isSome_iff_eq_none.mp hmissing
    exact hsome ⟨by simp [hmainExists, hnone], by simp [hbakExists, hmain hnone]⟩
  have hnotNotExist {e : HksErrorCode} (he : ∃ n, env.fs.remove n = some e)
      (heq : e = .notExist) : g p = none ∧ g q = none := by
    obtain ⟨n, hn⟩ := he
    exact absurd (heq ▸ hn) (hcode n)
  rw [if_pos (hmainExists.mpr hfound)]
  -- The backup goes first.
  refine .ite (fun _ => ?_) fun hbak => ?_
  · refine .bind ((hksStorageRemoveFile_triple hq (hremove.imp_right And.right)).weaken_error
      fun e s hs => ⟨hs.1.leaves hv, hnotNotExist hs.2⟩) fun _ => ?_
    have hmainSpares : (∀ n, env.fs.remove n = none) ∨
        CleaningSpares env (Function.update g q none p) := by
      by_cases heq : p = q
      case pos =>
        rw [heq, Function.update_self]
        exact .inr (.large nofun)
      case neg =>
        rw [Function.update_of_ne heq]
        exact hremove.imp_right And.left
    refine (hksStorageRemoveFile_triple hp hmainSpares).weaken (fun _ => id) (fun _ s hs => ?_)
      fun e s hs => ⟨hs.1.leaves_update (.inr rfl) nofun hv, hnotNotExist hs.2⟩
    refine ⟨_, hs, fun path hp hq => ?_, fun c hc => ?_⟩
    · rw [Function.update_of_ne hp, Function.update_of_ne hq]
    · simp only [Function.update_apply] at hc
      grind
  · have hnone : g q = none := by simpa using hbakExists.not.mp hbak
    refine (hksStorageRemoveFile_triple hp (hremove.imp_right And.left)).weaken (fun _ => id)
      (fun _ s hs => ?_) fun e s hs => ⟨hs.1.leaves hv, hnotNotExist hs.2⟩
    refine ⟨_, hs, fun path hp _ => Function.update_of_ne hp _ _, fun c hc => ?_⟩
    simp only [Function.update_apply] at hc
    grind

omit hbackup in
-- The main file that is missing becomes a copy of the backup.
theorem copyKeyBlobFromSrc_leaves (hread : env.fs.ReadsWhole) (hwhole : env.fs.WritesWhole) :
    Triple (On g) (copyKeyBlobFromSrc env info.bakPath info.mainPath) (fun _ => Leaves g p q v)
      fun _ => Leaves g p q v := by
  dsimp only [copyKeyBlobFromSrc]
  refine .bind (hksFileSize_triple hq) fun size => ?_
  refine .guard (fun _ s hs => hs.1.leaves hv) fun hsize => .guard (fun _ s hs => hs.1.leaves hv) fun _ => ?_
  refine .strengthen_pre (.of_pure fun hcontent => ?_) fun s hs => ⟨hs.2, hs.1⟩
  have ⟨_, content, hfound, hlength⟩ := hcontent hsize
  refine .bind (hksFileRead_triple hq hread).attempt fun ret => ?_
  split
  case h_1 => exact .throw fun s hs => (hs.2 _ rfl).leaves hv
  case h_2 => exact .throw fun s hs => (hs.2 _ rfl).leaves hv
  case h_3 buffer =>
    refine .strengthen_pre (.of_pure fun hbuffer => ?_) fun s hs => ⟨(hs.1 _ rfl).2, (hs.1 _ rfl).1⟩
    have ⟨content', hfound', htake⟩ := hbuffer
    obtain rfl : content = content' := Option.some.inj (hfound.symm.trans hfound')
    rw [hlength, List.take_length] at htake
    subst htake
    refine (hksFileWrite_triple hp hwhole).weaken (fun _ => id) (fun _ s hs => ?_) fun _ s hs => hs.1.leaves hv
    refine hs.1.leaves_update (.inl rfl) (fun c hc => ?_) hv
    cases hc
    exact hv _ (.inr hfound)

theorem hksStoreIsKeyBlobExist_leaves (hread : env.fs.ReadsWhole) (hwhole : env.fs.WritesWhole) :
    Triple (On g) (hksStoreIsKeyBlobExist env info)
      (fun _ disk => Leaves g p q v disk ∧ v.isSome) fun _ => Leaves g p q v := by
  dsimp only [hksStoreIsKeyBlobExist, isKeyBlobExist]
  refine .bind (fileExists_triple hp) fun isMainFileExist => ?_
  refine .strengthen_pre (.of_pure fun hmainExists => ?_) fun s hs => ⟨hs.2, hs.1⟩
  have hsome {full : Path} (hfound : (g full).isSome) (hfull : full = p ∨ full = q) : v.isSome := by
    have ⟨b, hb⟩ := Option.isSome_iff_exists.mp hfound
    have hcopy : g p = some b ∨ g q = some b := hfull.imp (fun h => by rwa [← h]) fun h => by rwa [← h]
    rw [hv b hcopy]
    rfl
  refine .ite (fun _ => .guard (fun h => absurd hbackup h) fun _ => ?_) fun hfound => ?_
  · refine .bind (fileExists_triple hq) fun isBakFileExist => ?_
    refine .guard (fun _ s hs => hs.1.leaves hv) fun hfound => ?_
    refine .strengthen_pre (.of_pure fun hbakExists => ?_) fun s hs => ⟨hs.2, hs.1⟩
    refine .attempt_discard fun s hs => ⟨?_, hsome (hbakExists.mp (not_not.mp hfound)) (.inr rfl)⟩
    exact (copyKeyBlobFromSrc_leaves hp hq hv hread hwhole).final hs
  · exact .pure fun s hs => ⟨hs.leaves hv, hsome (hmainExists.mp (not_not.mp hfound)) (.inl rfl)⟩

end Operations

-- Under which name a key is stored.
structure KeyRef where
  processInfo : HksProcessInfo
  paramSet    : HksParamSet
  keyAlias    : Bytes
  storageType : HksStorageType

def KeyRef.coordinate (key : KeyRef) : Except HksErrorCode StoreCoordinate :=
  storeCoordinate key.processInfo key.paramSet key.keyAlias key.storageType.directory

inductive KeyCall
  | store (keyBlob : Bytes)
  | delete
  | isExist
  | get (keyBlobSize : Nat)

namespace KeyCall

-- Runs the call on the files of the key and returns what it returned.
def exec (env : StorageEnv) (key : KeyRef) : KeyCall → StorageM (Except HksErrorCode Bytes)
  | store keyBlob   => onFiles fun info => do
    hksStoreKeyBlob env info keyBlob
    return []
  | delete          => onFiles fun info => do
    hksStoreDeleteKeyBlob env info
    return []
  | isExist         => onFiles fun info => do
    hksStoreIsKeyBlobExist env info
    return []
  | get keyBlobSize => EStateM.attempt <|
    hksManageStoreGetKeyBlob env key.processInfo key.paramSet key.keyAlias keyBlobSize key.storageType
where
  onFiles (x : HksStoreFileInfo → StorageM Bytes) : StorageM (Except HksErrorCode Bytes) := do
    let info ← storeFileInfo env key.processInfo key.paramSet key.keyAlias key.storageType
    EStateM.attempt (x info)

-- The blob that a map has for the key after a call that returned `ret`.
def after (v : Option Bytes) : KeyCall → Except HksErrorCode Bytes → Option Bytes
  | store keyBlob, .ok _ => some keyBlob
  | delete, .ok _        => none
  | _, _                 => v

-- What a map that has `v` for the key may answer.
def Right (v mainCopy bakCopy : Option Bytes) : KeyCall → Except HksErrorCode Bytes → Prop
  | isExist, .ok _           => v.isSome
  | get _, .ok keyBlob       => v = some keyBlob
  | delete, .error .notExist => mainCopy = none ∧ bakCopy = none
  | _, _                     => True

-- The file system does no damage to a copy of a key whose files are `p` and `q`.
def Sound (env : StorageEnv) (g : Path → Option Bytes) (p q : Path) : KeyCall → Prop
  | store _ => env.fs.WritesWhole ∧
    ((∀ n, env.fs.write n = .done) ∨ (∀ n, env.fs.write n ≠ .done) ∨ g q = none ∨ p = q)
  | delete  => (g p = none → g q = none) ∧
    ((∀ n, env.fs.remove n = none) ∨ CleaningSpares env (g p) ∧ CleaningSpares env (g q))
  | isExist => env.fs.ReadsWhole ∧ env.fs.WritesWhole
  | get _   => env.fs.ReadsWhole ∧ env.fs.WritesWhole

end KeyCall

section Call

variable {env : StorageEnv} {g : Path → Option Bytes} {c : StoreCoordinate} {v : Option Bytes}
  {backup : Bool} {info : HksStoreFileInfo} {key : KeyRef}

theorem getValidFileName_filePath {storeInfo : HksStoreInfo} {area : Path} (harea : Component area)
    (h : getFileName storeInfo.path storeInfo.fileName = .ok (c.filePath area)) :
    getValidFileName storeInfo.path storeInfo.fileName = .ok (c.filePath area) := by
  rw [getValidFileName, h]
  change ((isValidPath (c.filePath area)).orError _ >>= fun _ => _) = _
  rw [isValidPath, if_neg (filePath_valid harea.1 harea.2.2)]
  rfl

-- The path of the backup is the shorter one.
theorem length_bakPath (c : StoreCoordinate) :
    (c.filePath bakArea).length ≤ (c.filePath mainArea).length := by
  have hlength : bakArea.length ≤ mainArea.length := by decide
  rw [filePath, filePath, dirs, dirs]
  cases getPathType c.storageLevel
  case tmp => exact Nat.le_refl _
  all_goals
    simp only [render_append, render_cons, List.length_append, List.length_cons]
    omega

theorem StoreCoordinate.Found.validFiles (hc : c.WellFormed) (h : c.Found true info) :
    getValidFileName info.mainPath.path info.mainPath.fileName = .ok (c.filePath mainArea) ∧
      getValidFileName info.bakPath.path info.bakPath.fileName = .ok (c.filePath bakArea) := by
  have hmain := h.getFileName hc
  refine ⟨getValidFileName_filePath (by decide) hmain, getValidFileName_filePath (by decide) ?_⟩
  have hlength : (c.filePath bakArea).length < hksMaxFileNameLen :=
    Nat.lt_of_le_of_lt (length_bakPath c) (touches_length hmain)
  rw [h.bakPath rfl, Huks.getFileName]
  simp only [getFileName_storeInfo]
  rw [if_pos hlength]
  rfl

variable (hbackup : env.supportStorageBackup = true) (hc : c.WellFormed)
  (hcoord : key.coordinate = .ok c)
include hbackup hc hcoord

theorem storeFileInfo_files : Triple (On g)
    (storeFileInfo env key.processInfo key.paramSet key.keyAlias key.storageType)
    (fun info disk => (getValidFileName info.mainPath.path info.mainPath.fileName =
        .ok (c.filePath mainArea) ∧
      getValidFileName info.bakPath.path info.bakPath.fileName = .ok (c.filePath bakArea)) ∧ On g disk)
    fun _ => On g := by
  rw [storeFileInfo_directory]
  have hfound := @storeFileInfo_triple env _ _ _ _ _ (On g) on_fact hc hcoord
  rw [hbackup] at hfound
  exact hfound.weaken_post fun info s hs => ⟨hs.2.validFiles hc, hs.1⟩

theorem KeyCall.onFiles_triple {x : HksStoreFileInfo → StorageM Bytes} {Q : Bytes → Disk → Prop}
    {E : HksErrorCode → Disk → Prop}
    (hx : ∀ info, getValidFileName info.mainPath.path info.mainPath.fileName =
        .ok (c.filePath mainArea) →
      getValidFileName info.bakPath.path info.bakPath.fileName = .ok (c.filePath bakArea) →
      Triple (On g) (x info) Q E) :
    Triple (On g) (KeyCall.exec.onFiles env key x)
      (fun ret disk => (∀ a, ret = .ok a → Q a disk) ∧ ∀ e, ret = .error e → E e disk)
      fun _ => On g :=
  .bind (storeFileInfo_files hbackup hc hcoord) fun info => .of_pure fun hinfo =>
    (hx info hinfo.1 hinfo.2).attempt

variable (hv : ∀ b, g (c.filePath mainArea) = some b ∨ g (c.filePath bakArea) = some b → v = some b)
include hv

theorem hksManageStoreGetKeyBlob_leaves (hread : env.fs.ReadsWhole) (hwhole : env.fs.WritesWhole)
    {keyBlobSize : Nat} :
    Triple (On g) (hksManageStoreGetKeyBlob env key.processInfo key.paramSet key.keyAlias keyBlobSize
      key.storageType)
      (fun keyBlob disk => Leaves g (c.filePath mainArea) (c.filePath bakArea) v disk ∧ v = some keyBlob)
      fun _ => Leaves g (c.filePath mainArea) (c.filePath bakArea) v := by
  dsimp only [hksManageStoreGetKeyBlob]
  refine .bind ((storeFileInfo_files hbackup hc hcoord).weaken_error fun _ _ hs => hs.leaves hv)
    fun info => .of_pure fun ⟨hp, hq⟩ => ?_
  refine .ite (fun _ => ?_) fun _ => .ite (fun h => absurd hbackup h) fun _ => ?_
  · exact (hksStoreGetKeyBlob_triple hp hread).weaken (fun _ => id)
      (fun keyBlob s hs => ⟨hs.1.leaves hv, hv _ (.inl hs.2)⟩) fun _ s hs => hs.leaves hv
  · refine .bind ((hksStoreGetKeyBlob_triple hq hread).weaken_error fun _ s hs => hs.leaves hv)
      fun keyBlob => ?_
    refine .strengthen_pre (.of_pure fun hcopy => ?_) fun s hs => ⟨hs.2, hs.1⟩
    have hkey := hv _ (.inr hcopy)
    refine .bind (.attempt_discard fun s => Triple.final (S := Leaves g _ _ v) <|
      (hksFileWrite_triple hp hwhole).weaken (fun _ => id) (fun _ t ht => ?_)
        fun _ t ht => ht.1.leaves hv) fun _ => .pure fun s hs => ⟨hs, hkey⟩
    refine ht.1.leaves_update (.inl rfl) (fun b hb => ?_) hv
    cases hb
    exact hkey

-- A sound call answers like the map, and leaves copies of what the map has then.
theorem KeyCall.exec_leaves (hcode : ∀ n, env.fs.remove n ≠ some .notExist) (call : KeyCall)
    (hsound : call.Sound env g (c.filePath mainArea) (c.filePath bakArea)) :
    Triple (On g) (call.exec env key)
      (fun ret disk => Leaves g (c.filePath mainArea) (c.filePath bakArea) (call.after v ret) disk ∧
        call.Right v (g (c.filePath mainArea)) (g (c.filePath bakArea)) ret)
      fun _ => Leaves g (c.filePath mainArea) (c.filePath bakArea) v := by
  cases call
  case store keyBlob =>
    refine (KeyCall.onFiles_triple (Q := fun _ => Leaves g _ _ (some keyBlob)) hbackup hc hcoord
      fun info hp hq => .bind (hksStoreKeyBlob_leaves hp hq hbackup hv hsound.1 hsound.2)
        fun _ => .pure fun _ => id).weaken (fun _ => id) (fun ret s hs => ?_) fun _ s hs => hs.leaves hv
    cases ret
    case ok => exact ⟨hs.1 _ rfl, trivial⟩
    case error => exact ⟨hs.2 _ rfl, trivial⟩
  case delete =>
    refine (KeyCall.onFiles_triple (Q := fun _ => Leaves g _ _ none) hbackup hc hcoord
      fun info hp hq => .bind (hksStoreDeleteKeyBlob_leaves hp hq hbackup hv hsound.1 hcode hsound.2)
        fun _ => .pure fun _ => id).weaken (fun _ => id) (fun ret s hs => ?_) fun _ s hs => hs.leaves hv
    cases ret
    case ok => exact ⟨hs.1 _ rfl, trivial⟩
    case error e =>
      have ⟨hleaves, hnotExist⟩ := hs.2 e rfl
      refine ⟨hleaves, ?_⟩
      cases e
      case notExist => exact hnotExist rfl
      all_goals trivial
  case isExist =>
    refine (KeyCall.onFiles_triple (Q := fun _ s => Leaves g _ _ v s ∧ v.isSome) hbackup hc hcoord
      fun info hp hq => .bind (hksStoreIsKeyBlobExist_leaves hp hq hbackup hv hsound.1 hsound.2)
        fun _ => .pure fun _ => id).weaken (fun _ => id) (fun ret s hs => ?_) fun _ s hs => hs.leaves hv
    cases ret
    case ok => exact hs.1 _ rfl
    case error => exact ⟨hs.2 _ rfl, trivial⟩
  case get keyBlobSize =>
    refine (hksManageStoreGetKeyBlob_leaves hbackup hc hcoord hv hsound.1 hsound.2).attempt.weaken_post
      fun ret s hs => ?_
    cases ret
    case ok => exact hs.1 _ rfl
    case error => exact ⟨hs.2 _ rfl, trivial⟩

end Call

inductive StorageEvent
  | call (key : KeyRef) (call : KeyCall)
  | mainLost (c : StoreCoordinate)

-- A call with what the file system and the random generator do in it, or the loss of a main file.
-- `HksFileRemove` has no way to return `HKS_ERROR_NOT_EXIST`.
structure StorageStep where
  fs         : FileSystem
  removeCode : ∀ n, fs.remove n ≠ some .notExist
  random     : Nat → Nat → Except HksErrorCode Bytes
  event      : StorageEvent

-- The map from the keys to their blobs that the answers so far amount to, and the disk.
structure KeyMap where
  keys : StoreCoordinate → Option Bytes := fun _ => none
  disk : Disk := { files := ∅ }

def KeyMap.call (env : StorageEnv) (s : KeyMap) (key : KeyRef) (call : KeyCall) : KeyMap :=
  match (call.exec env key).run s.disk with
  | .error _ disk => { s with disk }
  | .ok ret disk  =>
    match key.coordinate with
    | .error _ => { s with disk }
    | .ok c    => ⟨Function.update s.keys c (call.after (s.keys c) ret), disk⟩

-- The copies that are there are those of the map.
def KeyMap.Agree (s : KeyMap) : Prop :=
  ∀ c : StoreCoordinate, c.WellFormed → ∀ b,
    s.disk.files.lookup (c.filePath mainArea) = some b ∨
      s.disk.files.lookup (c.filePath bakArea) = some b → s.keys c = some b

namespace StorageStep

variable (enableCleanFile : Bool) (step : StorageStep) (s : KeyMap)

def env : StorageEnv where
  fs                       := step.fs
  supportStorageBackup     := true
  enableCleanFile          := enableCleanFile
  huksAccessGenerateRandom := step.random

def next : KeyMap :=
  match step.event with
  | .mainLost c    => { s with disk := s.disk.erase (c.filePath mainArea) }
  | .call key call => s.call (step.env enableCleanFile) key call

-- The step is for one of the levels, and the name of the process is its uid.
def WellFormed : Prop :=
  match step.event with
  | .mainLost c => c.WellFormed
  | .call key _ => ∀ c, key.coordinate = .ok c → c.WellFormed

-- The answer is one of the map, and `HKS_ERROR_NOT_EXIST` means that there was no copy.
def Right : Prop :=
  match step.event with
  | .mainLost _    => True
  | .call key call => ∀ c ret disk, key.coordinate = .ok c →
    (call.exec (step.env enableCleanFile) key).run s.disk = .ok ret disk →
    call.Right (s.keys c) (s.disk.files.lookup (c.filePath mainArea))
      (s.disk.files.lookup (c.filePath bakArea)) ret

def Sound : Prop :=
  match step.event with
  | .mainLost _    => True
  | .call key call => ∀ c, key.coordinate = .ok c →
    call.Sound (step.env enableCleanFile) (fun path => s.disk.files.lookup path)
      (c.filePath mainArea) (c.filePath bakArea)

end StorageStep

def KeyMap.run (enableCleanFile : Bool) (s : KeyMap) (steps : List StorageStep) : KeyMap :=
  steps.foldl (fun s step => step.next enableCleanFile s) s

section Run

variable {enableCleanFile : Bool} {step : StorageStep} {s : KeyMap} {c : StoreCoordinate}

theorem KeyMap.Agree.init : KeyMap.Agree {} := by
  intro c hc b hb
  simp at hb

-- What a call leaves of the files of one key leaves those of the others alone.
theorem KeyMap.Agree.update (h : s.Agree) (hc : c.WellFormed) {v : Option Bytes} {disk : Disk}
    (hleaves : Leaves (fun path => s.disk.files.lookup path) (c.filePath mainArea)
      (c.filePath bakArea) v disk) : KeyMap.Agree ⟨Function.update s.keys c v, disk⟩ := by
  obtain ⟨g', hon, hframe, hcopies⟩ := hleaves
  intro c' hc' b hb
  simp only [hon.lookup] at hb
  by_cases heq : c' = c
  case pos =>
    subst heq
    have hself : Function.update s.keys c' v c' = v := Function.update_self ..
    exact hself.trans (hcopies b hb)
  case neg =>
    have hother : Function.update s.keys c v c' = s.keys c' := Function.update_of_ne heq ..
    have hne (area area' : Path) (harea : area ∈ areas true) (harea' : area' ∈ areas true) :
        c'.filePath area ≠ c.filePath area' := by
      have htmp : ∀ area ∈ areas true, area ≠ "tmp".toList ∧ '/' ∉ area := by decide
      exact fun h => heq (filePath_injective hc' hc (htmp _ harea).1 (htmp _ harea').1
        (htmp _ harea).2 (htmp _ harea').2 h)
    have hkept (area : Path) (harea : area ∈ areas true) :
        g' (c'.filePath area) = s.disk.files.lookup (c'.filePath area) :=
      hframe _ (hne _ _ harea (mainArea_mem _)) (hne _ _ harea bakArea_mem)
    rw [hkept _ (mainArea_mem _), hkept _ bakArea_mem] at hb
    exact hother.trans (h c' hc' b hb)

-- The loss of a main file takes one copy away.
theorem KeyMap.Agree.erase (h : s.Agree) (full : Path) :
    KeyMap.Agree { s with disk := s.disk.erase full } := by
  intro c hc b hb
  have hkept {path : Path} (hpath : (s.disk.erase full).files.lookup path = some b) :
      s.disk.files.lookup path = some b := by
    by_cases heq : path = full
    case pos =>
      subst heq
      rw [lookup_erase] at hpath
      cases hpath
    case neg => rwa [lookup_erase_ne _ heq] at hpath
  exact h c hc b (hb.imp hkept hkept)

-- A call that has no path for the key touches no file.
theorem KeyCall.exec_noCoordinate (env : StorageEnv) {g : Path → Option Bytes} {key : KeyRef}
    {e : HksErrorCode} (hcoord : key.coordinate = .error e) (call : KeyCall) :
    Triple (On g) (call.exec env key) (fun _ => On g) fun _ => On g := by
  have hfails : Triple (On g)
      (storeFileInfo env key.processInfo key.paramSet key.keyAlias key.storageType)
      (fun _ disk => On g disk ∧ False) fun _ => On g := by
    rw [storeFileInfo_directory]
    exact storeFileInfo_fails hcoord
  have hget {keyBlobSize : Nat} : Triple (On g) (hksManageStoreGetKeyBlob env key.processInfo
      key.paramSet key.keyAlias keyBlobSize key.storageType) (fun _ => On g) fun _ => On g :=
    .bind hfails fun _ _ hs => hs.2.elim
  cases call
  case get =>
    refine hget.attempt.weaken_post fun ret s hs => ?_
    cases ret
    case ok => exact hs.1 _ rfl
    case error => exact hs.2 _ rfl
  all_goals exact .bind hfails fun _ _ hs => hs.2.elim

theorem KeyMap.Agree.keep (h : s.Agree) {disk : Disk}
    (hon : On (fun path => s.disk.files.lookup path) disk) : KeyMap.Agree { s with disk } := by
  intro c hc b hb
  simp only [hon.lookup] at hb
  exact h c hc b hb

theorem KeyMap.Agree.call {env : StorageEnv} {key : KeyRef} {call : KeyCall} (h : s.Agree)
    (hbackup : env.supportStorageBackup = true) (hcode : ∀ n, env.fs.remove n ≠ some .notExist)
    (hwf : ∀ c, key.coordinate = .ok c → c.WellFormed)
    (hsound : ∀ c, key.coordinate = .ok c → call.Sound env (fun path => s.disk.files.lookup path)
      (c.filePath mainArea) (c.filePath bakArea)) : (s.call env key call).Agree := by
  rw [KeyMap.call]
  cases hcoord : key.coordinate
  case error e =>
    have hkept := KeyCall.exec_noCoordinate (g := fun path => s.disk.files.lookup path) env hcoord
      call
    cases hrun : (call.exec env key).run s.disk
    case ok ret disk => exact h.keep (hkept.ok rfl hrun)
    case error disk  => exact h.keep (hkept.error rfl hrun)
  case ok c =>
    have hc := hwf c hcoord
    have hleaves := KeyCall.exec_leaves hbackup hc hcoord (h c hc) hcode call (hsound c hcoord)
    cases hrun : (call.exec env key).run s.disk
    case ok ret disk => exact h.update hc (hleaves.ok rfl hrun).1
    case error disk  =>
      have hsame := h.update hc (hleaves.error rfl hrun)
      rwa [Function.update_eq_self] at hsame

-- A sound step answers like the map.
theorem StorageStep.Sound.right (hsound : step.Sound enableCleanFile s) (h : s.Agree)
    (hwf : step.WellFormed) : step.Right enableCleanFile s := by
  rw [Right]
  rw [WellFormed] at hwf
  rw [Sound] at hsound
  split
  case h_1 => trivial
  case h_2 key call hevent =>
    rw [hevent] at hwf hsound
    intro c ret disk hcoord hrun
    have hc := hwf c hcoord
    exact ((KeyCall.exec_leaves rfl hc hcoord (h c hc) step.removeCode call (hsound c hcoord)).ok rfl hrun).2

-- A sound step keeps the copies those of the map.
theorem StorageStep.Sound.agree (hsound : step.Sound enableCleanFile s) (h : s.Agree)
    (hwf : step.WellFormed) : (step.next enableCleanFile s).Agree := by
  rw [next]
  rw [WellFormed] at hwf
  rw [Sound] at hsound
  split
  case h_1 => exact h.erase _
  case h_2 key call hevent =>
    rw [hevent] at hwf hsound
    exact h.call rfl step.removeCode hwf hsound

theorem KeyMap.run_concat (steps : List StorageStep) (step : StorageStep) :
    s.run enableCleanFile (steps ++ [step]) = step.next enableCleanFile (s.run enableCleanFile steps) := by
  rw [run, List.foldl_append]
  rfl

theorem KeyMap.run_agree (steps : List StorageStep) (hwf : ∀ step ∈ steps, step.WellFormed)
    (hsound : ∀ pre step, pre ++ [step] <+: steps →
      step.Sound enableCleanFile (KeyMap.run enableCleanFile {} pre)) :
    (KeyMap.run enableCleanFile {} steps).Agree := by
  induction steps using List.reverseRecOn
  case nil => exact .init
  case append_singleton steps step hi =>
    rw [KeyMap.run_concat]
    have hagree := hi (fun step h => hwf step (List.mem_append_left _ h)) fun pre step h =>
      hsound pre step (h.trans (List.prefix_append _ _))
    have hstep := hwf step (List.mem_append_right _ (List.mem_singleton_self _))
    exact (hsound steps step List.prefix_rfl).agree hagree hstep

-- The two copies behave as one map over runs in which the file system does them no damage.
theorem backup_one_map (enableCleanFile : Bool) (steps : List StorageStep)
    (hwf : ∀ step ∈ steps, step.WellFormed)
    (hsound : ∀ pre step, pre ++ [step] <+: steps →
      step.Sound enableCleanFile (KeyMap.run enableCleanFile {} pre)) :
    ∀ pre step, pre ++ [step] <+: steps →
      step.Right enableCleanFile (KeyMap.run enableCleanFile {} pre) := by
  intro pre step hpre
  have hinit : pre <+: steps := (List.prefix_append _ _).trans hpre
  have hagree := KeyMap.run_agree pre (fun step h => hwf step (hinit.subset h)) fun pre' step h =>
    hsound pre' step (h.trans hinit)
  have hstep := hwf step (hpre.subset (List.mem_append_right _ (List.mem_singleton_self _)))
  exact (hsound pre step hpre).right hagree hstep

end Run

-- A key of the uid 1000 at the level without a password.
def localKey : KeyRef where
  processInfo := uidProcess
  paramSet    := levelParamSet hksAuthStorageLevelDe
  keyAlias    := [0x61]
  storageType := .key

def localCoordinate : StoreCoordinate := uidCoordinate hksAuthStorageLevelDe [0x61]

-- The write of a number fails, nothing else does.
def steadyStep (event : StorageEvent) (failingWrite : Option Nat) : StorageStep where
  fs := { steadyFileSystem with
    write n := if failingWrite = some n then .cut none .writeFileFail else .done }
  removeCode := nofun
  random _ size := .ok (List.replicate size 7)
  event := event

theorem localCoordinate_wellFormed : localCoordinate.WellFormed :=
  ⟨rfl, .inl rfl, by decide, by decide⟩

theorem localKey_coordinate : localKey.coordinate = .ok localCoordinate := rfl

theorem localKey_wellFormed {call : KeyCall} {failingWrite : Option Nat} :
    (steadyStep (.call localKey call) failingWrite).WellFormed := by
  intro c hc
  cases localKey_coordinate.symm.trans hc
  exact localCoordinate_wellFormed

-- A file system without failures does no damage to what is not deleted.
theorem steadyStep_sound (call : KeyCall) (hcall : call ≠ .delete) {s : KeyMap} :
    (steadyStep (.call localKey call) none).Sound false s := by
  intro c _
  have hwhole : (steadyStep (.call localKey call) none).fs.WritesWhole := fun _ _ _ => nofun
  have hread : (steadyStep (.call localKey call) none).fs.ReadsWhole := fun _ _ => nofun
  cases call
  case delete => exact absurd rfl hcall
  case store => exact ⟨hwhole, .inl fun _ => rfl⟩
  all_goals exact ⟨hread, hwhole⟩

-- A key is read again after the loss of its main file.
theorem backup_one_map_restored :
    let steps := [
      steadyStep (.call localKey (.store [1])) none,
      steadyStep (.mainLost localCoordinate) none,
      steadyStep (.call localKey .isExist) none,
      steadyStep (.call localKey (.get 16)) none]
    ∀ pre step, pre ++ [step] <+: steps → step.Right false (KeyMap.run false {} pre) := by
  refine backup_one_map false _ ?_ fun pre step hpre => ?_
  · simp only [List.forall_mem_cons]
    exact ⟨localKey_wellFormed, localCoordinate_wellFormed, localKey_wellFormed,
      localKey_wellFormed, nofun⟩
  · have hmem := hpre.subset (List.mem_append_right _ (List.mem_singleton_self _))
    simp only [List.mem_cons, List.not_mem_nil, or_false] at hmem
    obtain rfl | rfl | rfl | rfl := hmem
    · exact steadyStep_sound (.store [1]) nofun
    · trivial
    · exact steadyStep_sound .isExist nofun
    · exact steadyStep_sound (.get 16) nofun

-- The write of the second backup fails and is not reported.
def staleBackup : List StorageStep := [
  steadyStep (.call localKey (.store [1])) none,
  steadyStep (.call localKey (.store [2])) (some 7),
  steadyStep (.mainLost localCoordinate) none,
  steadyStep (.call localKey .isExist) none]

def readBack : StorageStep := steadyStep (.call localKey (.get 16)) none

-- The first of two blobs comes back from its backup.
theorem stale_backup_restored :
    (∀ step ∈ staleBackup ++ [readBack], step.WellFormed) ∧
    (KeyMap.run false {} staleBackup).keys localCoordinate = some [2] ∧
    ¬readBack.Right false (KeyMap.run false {} staleBackup) := by
  have hkeys : (KeyMap.run false {} staleBackup).keys localCoordinate = some [2] := by
    decide +kernel
  refine ⟨?_, hkeys, fun hright => ?_⟩
  · simp only [staleBackup, readBack, List.cons_append, List.nil_append, List.forall_mem_cons]
    exact ⟨localKey_wellFormed, localKey_wellFormed, localCoordinate_wellFormed,
      localKey_wellFormed, localKey_wellFormed, nofun⟩
  · have hread : (((KeyCall.get 16).exec (readBack.env false) localKey).run
        (KeyMap.run false {} staleBackup).disk).toExcept = .ok (.ok [1]) := by decide +kernel
    cases hrun : ((KeyCall.get 16).exec (readBack.env false) localKey).run
        (KeyMap.run false {} staleBackup).disk
    case error e disk =>
      rw [hrun] at hread
      cases hread
    case ok ret disk =>
      rw [hrun] at hread
      cases hread
      have hold := hright localCoordinate _ disk localKey_coordinate hrun
      cases hkeys.symm.trans hold

end Huks
