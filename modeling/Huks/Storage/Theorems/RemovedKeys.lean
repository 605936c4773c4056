import Huks.Storage.Theorems.Removal

namespace Huks

open EStateM PathText StoreCoordinate

section Within

variable {dir comps : List Path} {n : Nat}

theorem within_render (hdir : Plain '/' dir) (hcomps : Plain '/' comps) :
    Within dir n (render '/' comps) ↔ ∃ name rest, rest.length < n ∧ comps = dir ++ name :: rest := by
  constructor
  case mp =>
    rintro ⟨name, rest, hlength, hplain, h⟩
    exact ⟨name, rest, hlength,
      render_injective hcomps (List.forall_mem_append.mpr ⟨hdir, hplain⟩) h⟩
  case mpr =>
    rintro ⟨name, rest, hlength, rfl⟩
    exact ⟨name, rest, hlength, fun c hc => hcomps c (List.mem_append_right _ hc), rfl⟩

-- Below a common root only the rest of the components counts.
theorem within_root {root names rel : List Path} (hroot : Plain '/' root) (hnames : Plain '/' names)
    (hrel : Plain '/' rel) : Within (root ++ names) n (render '/' (root ++ rel)) ↔
      ∃ name rest, rest.length < n ∧ rel = names ++ name :: rest := by
  rw [within_render (List.forall_mem_append.mpr ⟨hroot, hnames⟩)
    (List.forall_mem_append.mpr ⟨hroot, hrel⟩)]
  simp only [List.append_assoc, List.append_cancel_left_eq]

theorem not_within_root {root root' names rel : List Path} (hroot : Plain '/' root)
    (hroot' : Plain '/' root') (hnames : Plain '/' names) (hrel : Plain '/' rel) {i : Nat}
    (hi : i < root.length) (hi' : i < root'.length) (hne : root[i]? ≠ root'[i]?) :
    ¬Within (root ++ names) n (render '/' (root' ++ rel)) := by
  rw [within_render (List.forall_mem_append.mpr ⟨hroot, hnames⟩)
    (List.forall_mem_append.mpr ⟨hroot', hrel⟩)]
  rintro ⟨name, rest, -, h⟩
  have hat := congrArg (·[i]?) h
  rw [List.append_assoc] at hat
  simp only [List.getElem?_append_left hi, List.getElem?_append_left hi'] at hat
  exact hne hat.symm

end Within

namespace StoreCoordinate

variable {c : StoreCoordinate} {area : Path}

-- The directory that all keys of a level are below.
def rootDirs : HksPathType → List Path
  | .de | .tmp => el1Dirs
  | .ce        => ["data".toList, "service".toList, "el2".toList]
  | .ece       => ["data".toList, "service".toList, "el4".toList]

-- Where the file of a key is below the directory of its level.
def belowRoot (c : StoreCoordinate) (area : Path) : List Path :=
  match getPathType c.storageLevel with
  | .de        => [area, c.userIdText, c.uidText, c.typeText, encodeName c.keyAlias]
  | .ce | .ece =>
    [c.userIdText, "huks_service".toList, area, c.uidText, c.typeText, encodeName c.keyAlias]
  | .tmp       =>
    "tmp".toList :: ((if c.storeUserId = 0 then [] else
      [encodeName (toBytes32 c.storeUserId.toUInt32)]) ++
        [encodeName c.processName, c.typeText, encodeName c.keyAlias])

theorem components_eq (c : StoreCoordinate) (area : Path) :
    c.dirs area ++ [encodeName c.keyAlias] =
      rootDirs (getPathType c.storageLevel) ++ c.belowRoot area := by
  cases h : getPathType c.storageLevel <;> simp [dirs, rootDirs, belowRoot, h]

theorem plain_rootDirs (pathType : HksPathType) : Plain '/' (rootDirs pathType) := by
  cases pathType <;> decide

theorem plain_belowRoot (c : StoreCoordinate) (harea : '/' ∉ area) :
    Plain '/' (c.belowRoot area) := by
  have hplain : Plain '/' (c.dirs area ++ [encodeName c.keyAlias]) :=
    List.forall_mem_append.mpr ⟨plain_dirs c harea, by simpa using slash_notMem_encodeName _⟩
  rw [components_eq] at hplain
  exact fun comp hcomp => hplain comp (List.mem_append_right _ hcomp)

-- The third component tells the roots apart.
theorem rootDirs_second {pathType pathType' : HksPathType} (h : rootDirs pathType ≠ rootDirs pathType') :
    2 < (rootDirs pathType).length ∧ 2 < (rootDirs pathType').length ∧
      (rootDirs pathType)[2]? ≠ (rootDirs pathType')[2]? := by
  revert h
  cases pathType <;> cases pathType' <;> decide

-- A key is near the top of a directory if that is below its own root.
theorem within_filePath (c : StoreCoordinate) (harea : '/' ∉ area) {pathType : HksPathType}
    {names : List Path} (hnames : Plain '/' names) {n : Nat} :
    Within (rootDirs pathType ++ names) n (c.filePath area) ↔
      rootDirs pathType = rootDirs (getPathType c.storageLevel) ∧
        ∃ name rest, rest.length < n ∧ c.belowRoot area = names ++ name :: rest := by
  have hbelow := plain_belowRoot c harea
  rw [filePath, components_eq]
  by_cases h : rootDirs pathType = rootDirs (getPathType c.storageLevel)
  case pos =>
    rw [h, within_root (plain_rootDirs _) hnames hbelow]
    exact (and_iff_right rfl).symm
  case neg =>
    obtain ⟨hi, hi', hne⟩ := rootDirs_second h
    have hnot : ¬Within (rootDirs pathType ++ names) n _ :=
      not_within_root (plain_rootDirs _) (plain_rootDirs _) hnames hbelow hi hi' hne
    exact iff_of_false hnot fun hroot => h hroot.1

end StoreCoordinate

section Dirs

variable {c : StoreCoordinate} {area : Path}

theorem plain_of_components {names : List Path} (h : ∀ c ∈ names, Component c) : Plain '/' names :=
  fun c hc => (h c hc).1

theorem belowRoot_tmp (h : getPathType c.storageLevel = .tmp) {first : Path} {names : List Path}
    (hne : first ≠ "tmp".toList) : c.belowRoot area ≠ first :: names := by
  intro heq
  have hhead := congrArg List.head? heq
  simp only [belowRoot, h, List.head?_cons, Option.some.injEq] at hhead
  exact hne hhead.symm

-- Which keys were below the old directory of a user: those of a user whose number is that text.
theorem within_oldUserDir (harea : '/' ∉ area) (userId : Int32) :
    Within (oldUserDir userId) 3 (c.filePath area) ↔ getPathType c.storageLevel = .de ∧
      area = mainArea ∧ c.userIdText = encodeName (toBytes32 userId.toUInt32) := by
  have hnames : Plain '/' [mainArea, encodeName (toBytes32 userId.toUInt32)] :=
    plain_of_components (List.forall_mem_cons.mpr ⟨by decide,
      List.forall_mem_singleton.mpr (component_word _)⟩)
  rw [show oldUserDir userId = rootDirs .de ++ [mainArea, encodeName (toBytes32 userId.toUInt32)] from rfl,
    within_filePath c harea hnames]
  cases h : getPathType c.storageLevel
  case de => simp [belowRoot, h]
  case ce => exact iff_of_false (fun h => absurd h.1 (by decide)) (by simp)
  case ece => exact iff_of_false (fun h => absurd h.1 (by decide)) (by simp)
  case tmp =>
    refine iff_of_false ?_ (by simp)
    rintro ⟨-, name, rest, -, hbelow⟩
    exact belowRoot_tmp h (by decide) hbelow

-- The same for the old directory of a uid; that of user 0 was where the directories of the users
-- are now.
theorem within_oldUidDir (harea : '/' ∉ area) (userId : Int32) (uid : UInt32) :
    Within (oldUidDir userId uid) 3 (c.filePath area) ↔ getPathType c.storageLevel = .de ∧
      area = mainArea ∧
      if userId = 0 then c.userIdText = encodeName (toBytes32 uid)
      else c.userIdText = encodeName (toBytes32 userId.toUInt32) ∧
        c.uidText = encodeName (toBytes32 uid) := by
  have hnames : Plain '/' (mainArea :: ((if userId = 0 then [] else
      [encodeName (toBytes32 userId.toUInt32)]) ++ [encodeName (toBytes32 uid)])) := by
    refine plain_of_components (List.forall_mem_cons.mpr ⟨by decide, List.forall_mem_append.mpr
      ⟨?_, List.forall_mem_singleton.mpr (component_word _)⟩⟩)
    split
    case isTrue => simp
    case isFalse => exact List.forall_mem_singleton.mpr (component_word _)
  rw [show oldUidDir userId uid = rootDirs .de ++ _ from rfl, within_filePath c harea hnames]
  cases h : getPathType c.storageLevel
  case de =>
    by_cases hzero : userId = 0
    case pos => simp [belowRoot, h, hzero]
    case neg => simp [belowRoot, h, hzero]
  case ce => exact iff_of_false (fun h => absurd h.1 (by decide)) (by simp)
  case ece => exact iff_of_false (fun h => absurd h.1 (by decide)) (by simp)
  case tmp =>
    refine iff_of_false ?_ (by simp)
    rintro ⟨-, name, rest, -, hbelow⟩
    exact belowRoot_tmp h (by decide) hbelow

theorem within_plainDirs (harea : '/' ∉ area) {area' userData : Path} {tail : List Path}
    (harea' : Component area') (htmp : area' ≠ "tmp".toList) (huser : Component userData)
    (htail : ∀ c ∈ tail, Component c) :
    (∃ dir ∈ plainDirs area' userData tail, Within dir 3 (c.filePath area)) ↔
      getPathType c.storageLevel ≠ .tmp ∧ area = area' ∧ c.userIdText = userData ∧
        ∃ name rest, rest.length < 3 ∧
          [c.uidText, c.typeText, encodeName c.keyAlias] = tail ++ name :: rest := by
  have hde : Plain '/' (area' :: userData :: tail) := plain_of_components
    (List.forall_mem_cons.mpr ⟨harea', List.forall_mem_cons.mpr ⟨huser, htail⟩⟩)
  have hce : Plain '/' (userData :: "huks_service".toList :: area' :: tail) := plain_of_components
    (List.forall_mem_cons.mpr ⟨huser, List.forall_mem_cons.mpr ⟨by decide,
      List.forall_mem_cons.mpr ⟨harea', htail⟩⟩⟩)
  rw [show plainDirs area' userData tail = [rootDirs .de ++ area' :: userData :: tail,
    rootDirs .ce ++ userData :: "huks_service".toList :: area' :: tail,
    rootDirs .ece ++ userData :: "huks_service".toList :: area' :: tail] from rfl]
  simp only [List.exists_mem_cons_iff, List.not_mem_nil, false_and, exists_false, or_false,
    within_filePath c harea hde, within_filePath c harea hce]
  have hroots : rootDirs .de ≠ rootDirs .ce ∧ rootDirs .de ≠ rootDirs .ece ∧
      rootDirs .ce ≠ rootDirs .ece ∧ rootDirs .ce ≠ rootDirs .tmp ∧ rootDirs .ece ≠ rootDirs .tmp := by
    decide
  cases h : getPathType c.storageLevel
  case de =>
    simp only [hroots.1.symm, hroots.2.1.symm, false_and, or_false, true_and, belowRoot, h,
      List.cons_append, List.cons.injEq]
    grind
  case ce =>
    simp only [hroots.1, hroots.2.2.1.symm, false_and, or_false, false_or, true_and, belowRoot, h,
      List.cons_append, List.cons.injEq]
    grind
  case ece =>
    simp only [hroots.2.1, hroots.2.2.1, false_and, false_or, true_and, belowRoot, h,
      List.cons_append, List.cons.injEq]
    grind
  case tmp =>
    refine iff_of_false ?_ (by simp)
    rintro (⟨-, name, rest, -, hbelow⟩ | ⟨hroot, -⟩ | ⟨hroot, -⟩)
    · exact belowRoot_tmp h htmp hbelow
    · exact hroots.2.2.2.1 hroot
    · exact hroots.2.2.2.2 hroot

end Dirs

end Huks
