import Huks.Storage.Theorems.Isolation

namespace Huks

open EStateM PathText

-- The components of a directory.
structure IsDir (dir : List Path) : Prop where
  plain  : Plain '/' dir
  nonnil : dir ≠ []
  names  : ∀ c ∈ dir, c ≠ []

-- Every file is in a directory, and its path fits into the buffer of `GetFileName`.
def Disk.Tidy (disk : Disk) : Prop :=
  ∀ path, (disk.files.lookup path).isSome → path.length < hksMaxFileNameLen ∧
    ∃ dir name, IsDir dir ∧ '/' ∉ name ∧ path = render '/' (dir ++ [name])

theorem Disk.Tidy.of_lookup {disk disk' : Disk} (h : disk.Tidy)
    (hlookup : ∀ path, (disk'.files.lookup path).isSome → (disk.files.lookup path).isSome) :
    disk'.Tidy := fun path hpath => h path (hlookup path hpath)

-- From a tidy disk `x` removes exactly the files in `S`.
def Erases (S : Path → Prop) (x : StorageM Unit) : Prop :=
  ∀ s, s.Tidy → ∃ t, x.run s = .ok ⟨⟩ t ∧
    ∀ path, (S path → t.files.lookup path = none) ∧ (¬S path → t.files.lookup path = s.files.lookup path)

namespace Erases

variable {S T : Path → Prop} {x y : StorageM Unit} {s t : Disk}

theorem tidy (h : ∀ path, (S path → t.files.lookup path = none) ∧
    (¬S path → t.files.lookup path = s.files.lookup path)) (hs : s.Tidy) : t.Tidy := by
  refine hs.of_lookup fun path hpath => ?_
  by_cases hS : S path
  case pos => simp [(h path).1 hS] at hpath
  case neg => rwa [← (h path).2 hS]

theorem pure : Erases (fun _ => False) (pure ⟨⟩) := fun s _ => ⟨s, rfl, fun _ => ⟨False.elim, fun _ => rfl⟩⟩

theorem bind (hx : Erases S x) (hy : Erases T y) :
    Erases (fun path => S path ∨ T path) (x >>= fun _ => y) := by
  intro s hs
  have ⟨t, hxt, hS⟩ := hx s hs
  have ⟨u, hyu, hT⟩ := hy t (tidy hS hs)
  refine ⟨u, run_bind_eq_ok.mpr ⟨_, t, hxt, hyu⟩, fun path => ⟨fun h => ?_, fun h => ?_⟩⟩
  · by_cases hTp : T path
    case pos => exact (hT path).1 hTp
    case neg => rw [(hT path).2 hTp, (hS path).1 (h.resolve_right hTp)]
  · have ⟨hSp, hTp⟩ := not_or.mp h
    rw [(hT path).2 hTp, (hS path).2 hSp]

theorem congr (h : Erases S x) (hST : ∀ path, S path ↔ T path) : Erases T x := by
  rwa [show T = S from funext fun path => propext (hST path).symm]

theorem forM {α : Type} {l : List α} {f : α → StorageM Unit} {S : α → Path → Prop}
    (h : ∀ a ∈ l, Erases (S a) (f a)) : Erases (fun path => ∃ a ∈ l, S a path) (l.forM f) := by
  induction l
  case nil => exact pure.congr fun _ => by simp
  case cons a l ih =>
    refine ((h a List.mem_cons_self).bind (ih fun b hb => h b (List.mem_cons_of_mem _ hb))).congr
      fun path => ?_
    simp

-- The caller goes on in any case.
theorem attempt (h : Erases S x) : Erases S (discard (EStateM.attempt x)) := by
  intro s hs
  have ⟨t, hx, hS⟩ := h s hs
  refine ⟨t, ?_, hS⟩
  rw [run_discard, run_attempt, hx]
  rfl

theorem removePath (path : Path) : Erases (· = path) (removePath path) := by
  refine fun s _ => ⟨s.erase path, rfl, fun path' => ⟨?_, lookup_erase_ne s⟩⟩
  rintro rfl
  exact lookup_erase s _

end Erases

-- The files at most `n` levels below a directory.
def Within (dir : List Path) (n : Nat) (path : Path) : Prop :=
  ∃ name rest, rest.length < n ∧ Plain '/' (name :: rest) ∧ path = render '/' (dir ++ name :: rest)

section ReadDir

variable {dir : List Path}

theorem direntBelow_some {comps : List Path} (hdir : Plain '/' dir) (hcomps : Plain '/' comps)
    {dire : Dirent} (h : direntBelow (render '/' dir) (render '/' comps) = some dire) :
    ∃ rest, comps = dir ++ dire.name :: rest ∧ (dire.isDir = true ↔ rest ≠ []) := by
  rw [direntBelow] at h
  split at h
  case isFalse => contradiction
  case isTrue hpre =>
    obtain ⟨text, htext⟩ := hpre
    rw [List.append_assoc] at htext
    have ⟨name, rest, hrest, hname⟩ := render_eq_append hdir hcomps htext.symm
    have hplain : '/' ∉ name := hcomps name (by simp [hrest])
    have hdrop : (render '/' comps).drop ((render '/' dir).length + 1) = name ++ render '/' rest := by
      rw [← htext, ← hname]
      simp [List.drop_append]
    simp only [hdrop, takeWhile_component hplain] at h
    cases h
    refine ⟨rest, hrest, ?_⟩
    cases rest
    case nil => simp [hplain]
    case cons => simp

theorem direntBelow_append (dir : List Path) {name : Path} {rest : List Path}
    (hname : '/' ∉ name) :
    direntBelow (render '/' dir) (render '/' (dir ++ name :: rest)) = some ⟨name, rest ≠ []⟩ := by
  have hpre : render '/' dir ++ ['/'] <+: render '/' (dir ++ name :: rest) :=
    ⟨name ++ render '/' rest, by simp⟩
  have hdrop : (render '/' (dir ++ name :: rest)).drop ((render '/' dir).length + 1) =
      name ++ render '/' rest := by
    simp [List.drop_append]
  rw [direntBelow, if_pos hpre]
  simp only [hdrop, takeWhile_component hname]
  cases rest
  case nil => simp [hname]
  case cons => simp

theorem mem_readDir {s : Disk} {path : Path} {dire : Dirent} :
    dire ∈ (s.files.keys.filterMap (direntBelow path)).dedup ↔
      ∃ file, (s.files.lookup file).isSome ∧ direntBelow path file = some dire := by
  simp only [List.mem_dedup, List.mem_filterMap, AList.lookup_isSome, AList.mem_keys]

-- What is known of an entry: it is the beginning of the path of a file.
structure IsEntry (dir : List Path) (dire : Dirent) : Prop where
  plain  : '/' ∉ dire.name
  nonnil : dire.isDir → dire.name ≠ []
  length : (render '/' (dir ++ [dire.name])).length < hksMaxFileNameLen

theorem isEntry_of_mem {s : Disk} (hs : s.Tidy) (hdir : IsDir dir) {dire : Dirent}
    (h : dire ∈ (s.files.keys.filterMap (direntBelow (render '/' dir))).dedup) :
    IsEntry dir dire := by
  have ⟨file, hfile, hbelow⟩ := mem_readDir.mp h
  have ⟨hlength, parent, name, hparent, hname, hpath⟩ := hs file hfile
  subst hpath
  have hplain : Plain '/' (parent ++ [name]) :=
    List.forall_mem_append.mpr ⟨hparent.plain, by simpa using hname⟩
  have ⟨rest, hcomps, hisDir⟩ := direntBelow_some hdir.plain hplain hbelow
  constructor
  case plain => exact hplain _ (by simp [hcomps])
  case nonnil =>
    intro hd
    -- A directory on the way to the file is among the components of its parent.
    have hrest := hisDir.mp hd
    obtain ⟨rest, last, rfl⟩ := List.eq_nil_or_concat rest |>.resolve_left hrest
    have hcomps' : parent ++ [name] = (dir ++ dire.name :: rest) ++ [last] := by simp [hcomps]
    have hmem : dire.name ∈ parent := by
      rw [(List.append_inj' hcomps' rfl).1]
      simp
    exact hparent.names _ hmem
  case length =>
    refine Nat.lt_of_le_of_lt ?_ hlength
    rw [hcomps]
    simp only [render_append, render_cons, render_nil, List.length_append, List.length_cons,
      List.length_nil]
    omega

theorem getFileName_render (hdir : IsDir dir) {dire : Dirent} (h : IsEntry dir dire) :
    getFileName (render '/' dir) dire.name = .ok (render '/' (dir ++ [dire.name])) := by
  have hlast : (render '/' dir).getLast? ≠ some '/' := by
    obtain ⟨front, last, rfl⟩ := List.eq_nil_or_concat dir |>.resolve_left hdir.nonnil
    have hlast := hdir.names last (by simp)
    rw [List.concat_eq_append, render_append, render_cons, render_nil, List.append_nil,
      List.getLast?_append_of_ne_nil _ (List.cons_ne_nil _ _), List.getLast?_cons_of_ne_nil hlast]
    exact fun h => hdir.plain last (by simp) (List.mem_of_getLast? h)
  have hlength := h.length
  rw [render_append] at hlength ⊢
  rw [getFileName]
  simp only [if_neg hlast]
  rw [if_pos (by simpa using hlength)]
  simp [pure, Except.pure]

theorem IsEntry.isDir (hdir : IsDir dir) {dire : Dirent} (h : IsEntry dir dire) (hd : dire.isDir) :
    IsDir (dir ++ [dire.name]) where
  plain  := List.forall_mem_append.mpr ⟨hdir.plain, by simpa using h.plain⟩
  nonnil := by simp
  names  := List.forall_mem_append.mpr ⟨hdir.names, by simpa using h.nonnil hd⟩

-- Every entry is removed with what is at most `n` levels below it.
theorem erases_entries {n : Nat} {f : Dirent → StorageM Unit} {S : Dirent → Path → Prop}
    (hdir : IsDir dir) (hf : ∀ dire, IsEntry dir dire → Erases (S dire) (f dire))
    (hsound : ∀ dire path, IsEntry dir dire → S dire path → Within dir (n + 1) path)
    (hfile : ∀ dire, ¬dire.isDir → S dire (render '/' (dir ++ [dire.name])))
    (hbelow : ∀ dire path, dire.isDir → Within (dir ++ [dire.name]) n path → S dire path) :
    Erases (Within dir (n + 1)) (readDir (render '/' dir) >>= fun dires => dires.forM f) := by
  intro s hs
  have hentry := fun dire => @isEntry_of_mem dir s hs hdir dire
  have ⟨t, ht, hS⟩ := Erases.forM (fun dire hdire => hf dire (hentry dire hdire)) s hs
  refine ⟨t, ht, fun path => ⟨fun hwithin => ?_, fun hwithin => ?_⟩⟩
  · by_cases hfound : (s.files.lookup path).isSome
    case pos =>
      refine (hS path).1 ?_
      obtain ⟨name, rest, hlength, hplain, rfl⟩ := hwithin
      have ⟨hname, hrest⟩ := List.forall_mem_cons.mp hplain
      refine ⟨⟨name, rest ≠ []⟩, mem_readDir.mpr ⟨_, hfound, direntBelow_append dir hname⟩, ?_⟩
      cases rest
      case nil => exact hfile _ (by simp)
      case cons next rest =>
        exact hbelow _ _ (by simp) ⟨next, rest, Nat.lt_of_succ_lt_succ hlength, hrest, by simp⟩
    case neg =>
      have hnone : s.files.lookup path = none := by simpa using hfound
      by_cases hunion : ∃ dire ∈ (s.files.keys.filterMap (direntBelow (render '/' dir))).dedup,
          S dire path
      case pos => exact (hS path).1 hunion
      case neg => rw [(hS path).2 hunion, hnone]
  · refine (hS path).2 ?_
    rintro ⟨dire, hdire, hpath⟩
    exact hwithin (hsound dire path (hentry dire hdire) hpath)

theorem within_entry {n : Nat} {dire : Dirent} (h : IsEntry dir dire) :
    Within dir (n + 1) (render '/' (dir ++ [dire.name])) :=
  ⟨dire.name, [], Nat.succ_pos _, List.forall_mem_singleton.mpr h.plain, rfl⟩

theorem within_below {n : Nat} {dire : Dirent} (h : IsEntry dir dire) {path : Path}
    (hpath : Within (dir ++ [dire.name]) n path) : Within dir (n + 1) path := by
  obtain ⟨name, rest, hlength, hplain, rfl⟩ := hpath
  exact ⟨dire.name, name :: rest, Nat.succ_lt_succ hlength, List.forall_mem_cons.mpr ⟨h.plain, hplain⟩,
    by simp⟩

theorem not_within_zero {path : Path} : ¬Within dir 0 path := fun ⟨_, _, h, _⟩ => Nat.not_lt_zero _ h

theorem hksDeletDirPartTwo_erases (hdir : IsDir dir) :
    Erases (Within dir 1) (hksDeletDirPartTwo (render '/' dir)) := by
  refine erases_entries (S := fun dire => (· = render '/' (dir ++ [dire.name]))) hdir ?_ ?_ ?_ ?_
  · intro dire hdire
    rw [getFileName_render hdir hdire]
    exact Erases.removePath _
  · rintro dire _ hdire rfl
    exact within_entry hdire
  · exact fun _ _ => rfl
  · exact fun _ _ _ h => (not_within_zero h).elim

-- A directory loses what is at most `n` levels below it, and a file is removed.
theorem erases_dirs {n : Nat} {next : Path → StorageM Unit} (hdir : IsDir dir)
    (hnext : ∀ dir, IsDir dir → Erases (Within dir n) (next (render '/' dir))) :
    Erases (Within dir (n + 1)) (readDir (render '/' dir) >>= fun dires => dires.forM fun dire => do
      let deletePath ← MonadExcept.ofExcept (getFileName (render '/' dir) dire.name)
      if dire.isDir then discard <| EStateM.attempt (next deletePath) else removePath deletePath) := by
  refine erases_entries (S := fun dire path =>
    if dire.isDir then Within (dir ++ [dire.name]) n path
    else path = render '/' (dir ++ [dire.name])) hdir ?_ ?_ ?_ ?_
  · intro dire hdire
    rw [getFileName_render hdir hdire]
    by_cases hd : dire.isDir
    case pos =>
      simp only [hd, if_true]
      exact (hnext _ (hdire.isDir hdir hd)).attempt
    case neg =>
      simp only [hd]
      exact Erases.removePath _
  · intro dire path hdire hpath
    split at hpath
    case isTrue => exact within_below hdire hpath
    case isFalse => exact hpath ▸ within_entry hdire
  · intro dire hd
    rw [if_neg hd]
  · intro dire path hd hpath
    rwa [if_pos hd]

theorem hksDeletDirPartOne_erases (hdir : IsDir dir) :
    Erases (Within dir 2) (hksDeletDirPartOne (render '/' dir)) :=
  erases_dirs hdir fun _ => hksDeletDirPartTwo_erases

-- `HksDeleteDir` reaches three levels.
theorem hksDeleteDir_erases {path : Path} (hdir : IsDir dir) (hvalid : ¬"../".toList <:+: path)
    (hpath : collapse '/' path = render '/' dir) : Erases (Within dir 3) (hksDeleteDir path) := by
  dsimp only [hksDeleteDir]
  rw [isValidPath, if_neg hvalid, hpath]
  exact erases_dirs hdir fun _ => hksDeletDirPartOne_erases

end ReadDir

-- A name that can be a component of a path.
abbrev Component (c : Path) : Prop := '/' ∉ c ∧ c ≠ [] ∧ c.getLast? ≠ some '.'

theorem component_decimal (n : Int) : Component (decimal n) :=
  ⟨slash_notMem_decimal n, decimal_ne_nil n, decimal_getLast n⟩

theorem component_encodeName {blob : Bytes} (h : blob ≠ []) : Component (encodeName blob) :=
  ⟨slash_notMem_encodeName blob, encodeName_eq_nil.not.mpr h, encodeName_getLast blob⟩

theorem component_el1Dirs : ∀ c ∈ StoreCoordinate.el1Dirs, Component c := by decide

theorem isDir_of_components {dir : List Path} (hnonnil : dir ≠ []) (h : ∀ c ∈ dir, Component c) :
    IsDir dir where
  plain c hc := (h c hc).1
  nonnil     := hnonnil
  names c hc := (h c hc).2.1

theorem render_valid {comps : List Path} (hplain : Plain '/' comps)
    (hdot : ∀ c ∈ comps, c.getLast? ≠ some '.') : ¬"../".toList <:+: render '/' comps := by
  intro hocc
  have hsub : ['.', '/'] <:+: "../".toList := by decide
  have ⟨comp, hcomp, hlast⟩ := exists_getLast_of_infix (by decide) hplain (hsub.trans hocc)
  exact hdot comp hcomp hlast

theorem joinPath_render (base parts : List Path) :
    joinPath (render '/' base :: parts) = render '/' (base ++ parts) := by
  rw [joinPath_cons, render_append]

-- The directory is deleted to three levels.
theorem deletePath_erases {parts dir raw : List Path} (hjoin : joinPath parts = render '/' raw)
    (hraw : collapse '/' (render '/' raw) = render '/' dir) (hplain : Plain '/' raw)
    (hdot : ∀ c ∈ raw, c.getLast? ≠ some '.') (hnil : raw ≠ []) (hdir : IsDir dir)
    (hlength : (render '/' raw).length < hksMaxDirentFileLen) :
    ∃ path, sprintfS hksMaxDirentFileLen (joinPath parts) = .ok path ∧
      Erases (Within dir 3) (hksDeleteDir path) := by
  refine ⟨_, ?_, hksDeleteDir_erases hdir (render_valid hplain hdot) hraw⟩
  have hne : render '/' raw ≠ [] := by
    cases raw
    case nil => contradiction
    case cons => exact List.cons_ne_nil _ _
  rw [hjoin, sprintfS, if_pos ⟨hne, hlength⟩]
  rfl

theorem collapse_components {dir : List Path} (hnonnil : dir ≠ []) (h : ∀ c ∈ dir, Component c) :
    collapse '/' (render '/' dir) = render '/' dir := by
  have hlast : dir.getLast? ≠ some [] := fun hnil => (h [] (List.mem_of_getLast? hnil)).2.1 rfl
  have hself : dir.filter (· ≠ []) = dir :=
    List.filter_eq_self.mpr fun c hc => by simpa using (h c hc).2.1
  have hstandard := standardizePath_render (fun c hc => (h c hc).1) hnonnil hlast
  rwa [hself] at hstandard

-- The parts of a directory that is deleted, with its components.
structure Deletable (parts dir : List Path) : Prop where
  join    : joinPath parts = render '/' dir
  nonnil  : dir ≠ []
  comps   : ∀ c ∈ dir, Component c
  length  : (render '/' dir).length < hksMaxDirentFileLen

theorem Deletable.erases {parts dir : List Path} (h : Deletable parts dir) :
    Erases (Within dir 3) (discard (EStateM.attempt (deleteJoinedPath parts))) := by
  have hdir := isDir_of_components h.nonnil h.comps
  have ⟨path, hpath, herases⟩ := deletePath_erases h.join (collapse_components h.nonnil h.comps)
    hdir.plain (fun c hc => (h.comps c hc).2.2) h.nonnil hdir h.length
  rw [deleteJoinedPath, hpath]
  exact herases.attempt

theorem deleteDirs_erases {dirs comps : List (List Path)} (h : List.Forall₂ Deletable dirs comps) :
    Erases (fun path => ∃ dir ∈ comps, Within dir 3 path) (deleteDirs dirs) := by
  induction h
  case nil => exact Erases.pure.congr fun _ => by simp
  case cons hparts _ ih => exact (hparts.erases.bind ih).congr fun _ => by simp

section Service

open StoreCoordinate

theorem decimal_length (n : Int32) : (decimal n.toInt).length ≤ 11 := by
  have hlt := n.toInt_lt
  have hge := n.le_toInt
  have hdigits {k : Nat} (hk : k < 10 ^ 10) : (Nat.toDigits 10 k).length ≤ 10 :=
    (Nat.length_toDigits_le_iff (by decide) (by decide)).mpr hk
  cases hn : n.toInt
  case ofNat k =>
    rw [hn, Int.ofNat_eq_natCast] at hlt
    exact Nat.le_succ_of_le (hdigits (by omega))
  case negSucc k =>
    rw [hn] at hge
    exact Nat.succ_le_succ (hdigits (by omega))

-- The directories of one area that hold the keys of a user, or with `tail` of one of its uids.
def plainDirs (area userData : Path) (tail : List Path) : List (List Path) := [
  el1Dirs ++ area :: userData :: tail,
  ["data".toList, "service".toList, "el2".toList, userData, "huks_service".toList, area] ++ tail,
  ["data".toList, "service".toList, "el4".toList, userData, "huks_service".toList, area] ++ tail]

theorem plainDirs_deletable {area userData : Path} {tail : List Path} (harea : Component area)
    (huser : Component userData) (htail : ∀ c ∈ tail, Component c) (hareaLength : area.length ≤ 8)
    (huserLength : userData.length ≤ 11) (htailLength : (render '/' tail).length ≤ 12) :
    List.Forall₂ Deletable [
      (hksConfigKeyStorePath ++ '/' :: area) :: userData :: tail,
      hksCeRootPath :: userData :: ("huks_service/".toList ++ area) :: tail,
      hksEceRootPath :: userData :: ("huks_service/".toList ++ area) :: tail]
      (plainDirs area userData tail) := by
  have hel1 : hksConfigKeyStorePath = render '/' el1Dirs := rfl
  have hce : hksCeRootPath = render '/' ["data".toList, "service".toList, "el2".toList] := rfl
  have hece : hksEceRootPath = render '/' ["data".toList, "service".toList, "el4".toList] := rfl
  have hservice : "huks_service/".toList ++ area = "huks_service".toList ++ '/' :: area := rfl
  refine .cons ?_ (.cons ?_ (.cons ?_ .nil))
  · constructor
    case join => simp [joinPath_cons, hel1]
    case nonnil => simp
    case comps =>
      simp only [List.forall_mem_append, List.forall_mem_cons]
      exact ⟨component_el1Dirs, harea, huser, htail⟩
    case length =>
      simp [el1Dirs, hksMaxDirentFileLen]
      omega
  · constructor
    case join =>
      simp only [joinPath_cons, hce, hservice, render_cons, render_nil, List.append_assoc,
        List.cons_append, List.nil_append, List.append_nil]
    case nonnil => simp
    case comps =>
      simp only [List.forall_mem_append, List.forall_mem_cons]
      exact ⟨⟨by decide, by decide, by decide, huser, by decide, harea, by simp⟩, htail⟩
    case length =>
      simp [hksMaxDirentFileLen]
      omega
  · constructor
    case join =>
      simp only [joinPath_cons, hece, hservice, render_cons, render_nil, List.append_assoc,
        List.cons_append, List.nil_append, List.append_nil]
    case nonnil => simp
    case comps =>
      simp only [List.forall_mem_append, List.forall_mem_cons]
      exact ⟨⟨by decide, by decide, by decide, huser, by decide, harea, by simp⟩, htail⟩
    case length =>
      simp [hksMaxDirentFileLen]
      omega

-- The areas that the build has.
def areas (supportStorageBackup : Bool) : List Path :=
  if supportStorageBackup then [mainArea, bakArea] else [mainArea]

variable {env : StorageEnv}

theorem constructPlainName_decimal {blob : Bytes} {nameLen : Nat} (hlength : blob.length = 4)
    (hname : 11 < nameLen) :
    constructPlainName blob nameLen = .ok (decimal (le32 blob).toInt32.toInt) := by
  have hroom := Nat.lt_of_le_of_lt (decimal_length (le32 blob).toInt32) hname
  rw [constructPlainName, if_pos hlength, sprintfS, if_pos ⟨decimal_ne_nil _, hroom⟩]
  rfl

theorem constructPlainName_userId (userId : Int32) :
    constructPlainName (toBytes32 userId.toUInt32) hksMaxFileNameLen = .ok (decimal userId.toInt) := by
  have hle : le32 (toBytes32 userId.toUInt32) = userId.toUInt32 := by
    simpa using le32_toBytes32_append userId.toUInt32 []
  rw [constructPlainName_decimal rfl (by decide), hle, Int32.toInt32_toUInt32]

variable (env) in
theorem deleteUserIdPath_erases (userId : Int32) :
    Erases (fun path => ∃ area ∈ areas env.supportStorageBackup,
      ∃ dir ∈ plainDirs area (decimal userId.toInt) [], Within dir 3 path)
      (deleteUserIdPath env (toBytes32 userId.toUInt32)) := by
  have hdeletable {area : Path} (harea : Component area) (hlength : area.length ≤ 8) :=
    plainDirs_deletable harea (component_decimal userId.toInt) (List.forall_mem_nil Component) hlength
      (decimal_length userId) (by simp)
  have hmain := deleteDirs_erases (hdeletable (show Component mainArea by decide) (by decide))
  have hbak := deleteDirs_erases (hdeletable (show Component bakArea by decide) (by decide))
  rw [deleteUserIdPath, constructPlainName_userId]
  by_cases hbackup : env.supportStorageBackup
  case pos =>
    simp only [hbackup, if_true, areas]
    exact (hmain.bind hbak).congr fun path => by simp
  case neg =>
    simp only [hbackup, areas]
    exact (hmain.bind .pure).congr fun path => by simp

theorem constructName_word (n : UInt32) :
    constructName (toBytes32 n) hksMaxFileNameLen = .ok (encodeName (toBytes32 n)) :=
  constructName_of_room (show 2 * 4 < hksMaxFileNameLen - 1 by decide)

theorem encodeName_word_length (n : UInt32) : (encodeName (toBytes32 n)).length ≤ 8 :=
  encodeName_length _

theorem component_word (n : UInt32) : Component (encodeName (toBytes32 n)) :=
  component_encodeName (List.cons_ne_nil _ _)

-- The directory below the main files is deleted, whether or not its text has an empty component.
theorem oldDir_erases (names : List Path) {dir : List Path} (hdir : dir = names.filter (· ≠ []))
    (hnames : ∀ c ∈ names, '/' ∉ c ∧ c.getLast? ≠ some '.') (hnil : names ≠ [])
    (hlast : names.getLast? ≠ some []) (hlength : (render '/' names).length ≤ 18) {S : Path → Prop}
    {x : StorageM Unit} (hx : Erases S x) :
    Erases (fun path => Within (el1Dirs ++ mainArea :: dir) 3 path ∨ S path) (do
      let userProcess ← MonadExcept.ofExcept
        (sprintfS hksMaxDirentFileLen (joinPath (hksKeyStorePath :: names)))
      discard <| EStateM.attempt (hksDeleteDir userProcess)
      x) := by
  subst hdir
  let raw := el1Dirs ++ [mainArea] ++ names
  have hbase : ∀ c ∈ el1Dirs ++ [mainArea], Component c := by decide
  have hjoin : joinPath (hksKeyStorePath :: names) = render '/' raw :=
    joinPath_render (el1Dirs ++ [mainArea]) names
  have hplain : Plain '/' raw :=
    List.forall_mem_append.mpr ⟨fun c hc => (hbase c hc).1, fun c hc => (hnames c hc).1⟩
  have hdot : ∀ c ∈ raw, c.getLast? ≠ some '.' :=
    List.forall_mem_append.mpr ⟨fun c hc => (hbase c hc).2.2, fun c hc => (hnames c hc).2⟩
  have hrawLast : raw.getLast? ≠ some [] := by rwa [List.getLast?_append_of_ne_nil _ hnil]
  have hfilter : raw.filter (· ≠ []) = el1Dirs ++ mainArea :: names.filter (· ≠ []) := by
    rw [List.filter_append, List.filter_eq_self.mpr fun c hc => by simpa using (hbase c hc).2.1]
    simp
  have hcollapse := hfilter ▸ standardizePath_render hplain (by simp [raw]) hrawLast
  have hisDir : IsDir (el1Dirs ++ mainArea :: names.filter (· ≠ [])) := by
    constructor
    case plain => exact hfilter ▸ fun c hc => hplain c (List.mem_of_mem_filter hc)
    case nonnil => simp
    case names => exact hfilter ▸ fun c hc => by simpa using (List.mem_filter.mp hc).2
  have hroom : (render '/' raw).length < hksMaxDirentFileLen := by
    have hbaseLength : (render '/' (el1Dirs ++ [mainArea])).length ≤ 60 := by decide
    rw [render_append, List.length_append, hksMaxDirentFileLen]
    omega
  obtain ⟨path, hpath, hold⟩ := deletePath_erases hjoin hcollapse hplain hdot (by simp [raw]) hisDir hroom
  rw [hpath]
  exact hold.attempt.bind hx

-- The directories that were those of a user and of a uid before the names became plain.
def oldUserDir (userId : Int32) : List Path :=
  el1Dirs ++ [mainArea, encodeName (toBytes32 userId.toUInt32)]

def oldUidDir (userId : Int32) (uid : UInt32) : List Path :=
  el1Dirs ++ mainArea :: ((if userId = 0 then [] else [encodeName (toBytes32 userId.toUInt32)]) ++
    [encodeName (toBytes32 uid)])

-- The directories that are deleted with a user.
def userDirs (supportStorageBackup : Bool) (userId : Int32) : List (List Path) :=
  oldUserDir userId ::
    (areas supportStorageBackup).flatMap fun area => plainDirs area (decimal userId.toInt) []

-- The directories that are deleted with a uid.
def uidDirs (supportStorageBackup : Bool) (userId : Int32) (uid : UInt32) : List (List Path) :=
  oldUidDir userId uid ::
    (areas supportStorageBackup).flatMap fun area =>
      plainDirs area (decimal userId.toInt) [decimal uid.toInt32.toInt]

theorem exists_mem_dirs {old : List Path} {dirs : Path → List (List Path)} {areas : List Path}
    {p : List Path → Prop} :
    (∃ dir ∈ old :: areas.flatMap dirs, p dir) ↔ p old ∨ ∃ area ∈ areas, ∃ dir ∈ dirs area, p dir := by
  constructor
  case mp =>
    rintro ⟨dir, hdir, h⟩
    obtain rfl | hdir := List.mem_cons.mp hdir
    · exact .inl h
    · have ⟨area, harea, hdir⟩ := List.mem_flatMap.mp hdir
      exact .inr ⟨area, harea, dir, hdir, h⟩
  case mpr =>
    rintro (h | ⟨area, harea, dir, hdir, h⟩)
    · exact ⟨old, List.mem_cons_self, h⟩
    · exact ⟨dir, List.mem_cons_of_mem _ (List.mem_flatMap.mpr ⟨area, harea, hdir⟩), h⟩

theorem hksServiceDeleteUserIDKeyAliasFile_erases (userId : Int32) :
    Erases (fun path => ∃ dir ∈ userDirs env.supportStorageBackup userId, Within dir 3 path)
      (hksServiceDeleteUserIDKeyAliasFile env (toBytes32 userId.toUInt32)) := by
  have hlength := encodeName_word_length userId.toUInt32
  have ⟨hslash, hnil, hdot⟩ := component_word userId.toUInt32
  have hold := oldDir_erases [encodeName (toBytes32 userId.toUInt32)] rfl
    (List.forall_mem_singleton.mpr ⟨hslash, hdot⟩) (by simp) (by simpa using hnil)
    (by simp only [render_cons, render_nil, List.length_cons, List.length_append, List.length_nil]; omega)
    (deleteUserIdPath_erases env userId)
  refine Erases.attempt ?_
  rw [constructName_word]
  refine hold.congr fun path => ?_
  rw [userDirs, exists_mem_dirs, oldUserDir, List.filter_cons_of_pos (by simpa using hnil),
    List.filter_nil]

theorem constructPlainName_getProcessInfo (userId : Int32) (uid : UInt32) :
    constructPlainName (Storage.getProcessInfo userId uid).userId hksMaxFileNameLen =
      .ok (decimal userId.toInt) := by
  rw [Storage.getProcessInfo]
  by_cases hzero : userId = 0
  case pos =>
    subst hzero
    exact (by decide : constructPlainName [0x30] hksMaxFileNameLen = .ok (decimal 0))
  case neg =>
    simp only [hzero, if_false]
    exact constructPlainName_userId userId

variable (env) in
theorem deleteUidPath_erases (userId : Int32) (uid : UInt32) :
    Erases (fun path => ∃ area ∈ areas env.supportStorageBackup,
      ∃ dir ∈ plainDirs area (decimal userId.toInt) [decimal uid.toInt32.toInt], Within dir 3 path)
      (deleteUidPath env (Storage.getProcessInfo userId uid)) := by
  have huidLength := decimal_length uid.toInt32
  have hdeletable {area : Path} (harea : Component area) (hlength : area.length ≤ 8) :=
    plainDirs_deletable harea (component_decimal userId.toInt)
      (List.forall_mem_singleton.mpr (component_decimal uid.toInt32.toInt)) hlength
      (decimal_length userId) (by
        simp only [render_cons, render_nil, List.length_cons, List.length_append, List.length_nil]
        omega)
  have hmain := deleteDirs_erases (hdeletable (show Component mainArea by decide) (by decide))
  have hbak := deleteDirs_erases (hdeletable (show Component bakArea by decide) (by decide))
  have huid : constructPlainName (Storage.getProcessInfo userId uid).processName hksMaxFileNameLen =
      .ok (decimal uid.toInt32.toInt) := by
    have hle : le32 (toBytes32 uid) = uid := by simpa using le32_toBytes32_append uid []
    rw [Storage.getProcessInfo, constructPlainName_decimal rfl (by decide), hle]
  rw [deleteUidPath, constructPlainName_getProcessInfo, huid]
  by_cases hbackup : env.supportStorageBackup
  case pos =>
    simp only [hbackup, if_true, areas]
    exact (hmain.bind hbak).congr fun path => by simp
  case neg =>
    simp only [hbackup, areas]
    exact (hmain.bind .pure).congr fun path => by simp

theorem hksServiceDeleteUIDKeyAliasFile_erases (userId : Int32) (uid : UInt32) :
    Erases (fun path => ∃ dir ∈ uidDirs env.supportStorageBackup userId uid, Within dir 3 path)
      (hksServiceDeleteUIDKeyAliasFile env (Storage.getProcessInfo userId uid)) := by
  have huserLength := encodeName_word_length userId.toUInt32
  have huidLength := encodeName_word_length uid
  have ⟨huserSlash, huserNil, huserDot⟩ := component_word userId.toUInt32
  have ⟨huidSlash, huidNil, huidDot⟩ := component_word uid
  have hname : constructName (Storage.getProcessInfo userId uid).processName hksMaxFileNameLen =
      .ok (encodeName (toBytes32 uid)) := constructName_word uid
  have hold (userData : Path) (hslash : '/' ∉ userData) (hdot : userData.getLast? ≠ some '.')
      (hlength : userData.length ≤ 8) := oldDir_erases
    [userData, encodeName (toBytes32 uid)] rfl (by simp [hslash, hdot, huidSlash, huidDot])
    (by simp) (by simpa using huidNil)
    (by
      simp only [render_cons, render_nil, List.length_cons, List.length_append, List.length_nil]
      omega)
    (deleteUidPath_erases env userId uid)
  refine Erases.attempt ?_
  dsimp only
  split
  case isTrue h =>
    have hzero : userId ≠ 0 := h
    have huser : constructName (Storage.getProcessInfo userId uid).userId hksMaxFileNameLen =
        .ok (encodeName (toBytes32 userId.toUInt32)) := by
      simp only [Storage.getProcessInfo, if_neg hzero, constructName_word]
    rw [huser, hname]
    refine (hold _ huserSlash huserDot huserLength).congr fun path => ?_
    rw [uidDirs, exists_mem_dirs, oldUidDir, if_neg hzero]
    simp [huserNil, huidNil]
  case isFalse h =>
    have hzero : userId = 0 := not_not.mp h
    rw [hname]
    refine (hold [] (by simp) (by simp) (by simp)).congr fun path => ?_
    rw [uidDirs, exists_mem_dirs, oldUidDir, if_pos hzero]
    simp [huidNil]

end Service

end Huks
