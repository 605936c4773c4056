import Huks.Storage.AliasList
import Huks.Storage.Theorems.AccountRemoval

namespace Huks

open EStateM PathText StoreCoordinate

-- The regular files that there are in the directory, whether the scan finds them or not.
def DirScan.fileNames (scan : DirScan) : List Path :=
  (scan.entries.filter (¬·.isDir)).map (·.name)

-- The directory can be opened, and each of its names fits into the record.
def DirScan.Complete (scan : DirScan) : Prop :=
  scan.fileNames ≠ [] → scan.opened ∧ ∀ name ∈ scan.fileNames, name.length < hksMaxDirentFileLen

section Scan

variable {scan : DirScan} {names : List Path}

theorem hksGetDirFiles_isPrefix (entries : List Dirent) :
    hksGetDirFiles entries <+: (entries.filter (¬·.isDir)).map (·.name) := by
  induction entries
  case nil => exact List.prefix_rfl
  case cons dire entries hi =>
    rw [hksGetDirFiles]
    split
    case isTrue hdir => simpa [hdir] using hi
    case isFalse hdir =>
      split
      case isTrue => exact List.nil_prefix
      case isFalse => simpa [hdir, List.cons_prefix_cons] using hi

theorem hksGetDirFiles_length {entries : List Dirent} :
    ∀ name ∈ hksGetDirFiles entries, name.length < hksMaxDirentFileLen := by
  induction entries
  case nil => nofun
  case cons dire entries hi =>
    rw [hksGetDirFiles]
    split
    case isTrue => exact hi
    case isFalse =>
      split
      case isTrue => nofun
      case isFalse hlength =>
        rw [hksMaxDirentFileLen] at hlength
        exact List.forall_mem_cons.mpr ⟨by rw [hksMaxDirentFileLen]; omega, hi⟩

theorem hksGetDirFiles_eq {entries : List Dirent}
    (h : ∀ name ∈ (entries.filter (¬·.isDir)).map (·.name), name.length < hksMaxDirentFileLen) :
    hksGetDirFiles entries = (entries.filter (¬·.isDir)).map (·.name) := by
  induction entries
  case nil => rfl
  case cons dire entries hi =>
    rw [hksGetDirFiles]
    split
    case isTrue hdir => simpa [hdir] using hi (by simpa [hdir] using h)
    case isFalse hdir =>
      have hnames : ∀ name ∈ dire.name :: (entries.filter (¬·.isDir)).map (·.name),
          name.length < hksMaxDirentFileLen := by simpa [hdir] using h
      have ⟨hname, hrest⟩ := List.forall_mem_cons.mp hnames
      rw [if_neg (by rw [hksMaxDirentFileLen] at *; omega), hi hrest]
      simp [hdir]

theorem openDirFiles_isPrefix (scan : DirScan) : openDirFiles scan <+: scan.fileNames := by
  rw [openDirFiles]
  split
  case isTrue => exact hksGetDirFiles_isPrefix _
  case isFalse => exact List.nil_prefix

theorem openDirFiles_length : ∀ name ∈ openDirFiles scan, name.length < hksMaxDirentFileLen := by
  rw [openDirFiles]
  split
  case isTrue => exact hksGetDirFiles_length
  case isFalse => nofun

-- A scan reads all the files just if it is complete.
theorem openDirFiles_eq_iff : openDirFiles scan = scan.fileNames ↔ scan.Complete := by
  constructor
  case mp =>
    intro heq hne
    refine ⟨?_, heq ▸ openDirFiles_length⟩
    by_contra hclosed
    rw [openDirFiles, if_neg hclosed] at heq
    exact hne heq.symm
  case mpr =>
    intro hcomplete
    by_cases hnil : scan.fileNames = []
    case pos =>
      have hempty := openDirFiles_isPrefix scan
      rw [hnil, List.prefix_nil] at hempty
      rw [hnil, hempty]
    case neg =>
      have ⟨hopened, hlength⟩ := hcomplete hnil
      rw [openDirFiles, if_pos hopened]
      exact hksGetDirFiles_eq hlength

theorem readNames_eq {fileCount : Nat} {files : List Path}
    (h : ∀ name ∈ files, name.length < hksMaxDirentFileLen) {count : Nat} (hcount : count ≤ fileCount) :
    getFileNameList.readNames fileCount files count =
      (files.take (fileCount - count), min (count + files.length) (fileCount + 1)) := by
  induction files generalizing count
  case nil => simp [getFileNameList.readNames]; omega
  case cons name files hi =>
    have ⟨hname, hfiles⟩ := List.forall_mem_cons.mp h
    rw [getFileNameList.readNames]
    split
    case isTrue hfull =>
      have hlast : fileCount = count := by
        rw [hksMaxDirentFileLen] at hname
        rw [hksMaxFileNameLen] at hfull
        omega
      subst hlast
      simp
    case isFalse hroom =>
      have hnext : count + 1 ≤ fileCount := by omega
      have hsucc : fileCount - count = fileCount - (count + 1) + 1 := by omega
      simp only [hi hfiles hnext, hsucc, List.take_succ_cons, List.length_cons]
      congr 2
      omega

theorem getFileNameList_eq (scan : DirScan) (fileCount : Nat) :
    getFileNameList scan fileCount =
      ((openDirFiles scan).take fileCount, min (openDirFiles scan).length (fileCount + 1)) := by
  rw [getFileNameList, readNames_eq openDirFiles_length (Nat.zero_le _)]
  simp

end Scan

-- The blobs that take the aliases are large enough.
def Fits (names : List Path) (aliasSizes : List Nat) : Prop :=
  ∀ p ∈ names.zip aliasSizes, ∃ keyAlias, constructBlob p.1 p.2 = .ok keyAlias

section ConstructBlobs

variable {names : List Path} {aliases : List Bytes} {sizes : List Nat} {n : Nat}

theorem constructBlobs_cons (name : Path) (size n : Nat) :
    (constructBlobs (name :: names) (size :: sizes) (n + 1)).run =
      match constructBlob name size with
      | .error e     => some (.error e)
      | .ok keyAlias => (constructBlobs names sizes n).run.map (·.map (keyAlias :: ·)) := by
  rw [constructBlobs]
  cases constructBlob name size
  case error => rfl
  case ok keyAlias =>
    change (constructBlobs names sizes n >>= fun rest => pure (keyAlias :: rest)).run = _
    dsimp only
    cases h : (constructBlobs names sizes n).run
    case none => simp [h]
    case some ret => cases ret <;> simp [h, Except.map]

theorem fits_cons {name : Path} {size : Nat} : Fits (name :: names) (size :: sizes) ↔
    (∃ keyAlias, constructBlob name size = .ok keyAlias) ∧ Fits names sizes := by
  simp [Fits]

-- A blob that is too small ends the loop.
theorem constructBlobs_error (h : ¬Fits (names.take n) sizes) :
    ∃ e, (constructBlobs names sizes n).run = some (.error e) := by
  have hnil {names : List Path} : Fits names [] := by simp [Fits]
  induction names generalizing sizes n
  case nil => exact absurd (by simp [Fits]) h
  case cons name names hi =>
    cases n
    case zero => exact absurd (by simp [Fits]) h
    case succ n =>
      cases sizes
      case nil => exact absurd hnil h
      case cons size sizes =>
        rw [List.take_succ_cons, fits_cons] at h
        rw [constructBlobs_cons]
        cases hblob : constructBlob name size
        case error e => exact ⟨e, rfl⟩
        case ok keyAlias =>
          have ⟨e, he⟩ := hi fun hfits => h ⟨⟨keyAlias, hblob⟩, hfits⟩
          exact ⟨e, by simp [he, Except.map]⟩

theorem constructBlobs_ok (hsizes : aliases.length ≤ sizes.length)
    (hnames : ∀ p ∈ aliases.zip sizes, constructBlob (encodeName p.1) p.2 = .ok p.1) :
    (constructBlobs (aliases.map encodeName) sizes aliases.length).run = some (.ok aliases) := by
  induction aliases generalizing sizes
  case nil => rfl
  case cons keyAlias aliases hi =>
    cases sizes
    case nil => contradiction
    case cons size sizes =>
      have ⟨hname, hrest⟩ := List.forall_mem_cons.mp hnames
      rw [List.map_cons, List.length_cons, constructBlobs_cons, hname]
      simp [hi (Nat.le_of_succ_le_succ hsizes) hrest, Except.map]

-- The loop goes past the end of the names that were copied.
theorem constructBlobs_pastEnd (hfits : Fits names sizes) (hlength : names.length < n) :
    (constructBlobs names sizes n).run = none := by
  induction names generalizing sizes n
  case nil =>
    cases n
    case zero => contradiction
    case succ => rfl
  case cons name names hi =>
    cases n
    case zero => contradiction
    case succ n =>
      cases sizes
      case nil => rfl
      case cons size sizes =>
        have ⟨⟨keyAlias, hblob⟩, hrest⟩ := fits_cons.mp hfits
        rw [constructBlobs_cons, hblob]
        simp [hi hrest (Nat.lt_of_succ_lt_succ hlength)]

end ConstructBlobs

-- A listing that returns lists the files of the reading scan, or none where none were counted.
def ListsExactly (counting reading : DirScan) : Option (Except HksErrorCode (List Bytes)) → Prop
  | none                  => False
  | some (.error _)       => True
  | some (.ok keyAliases) =>
    keyAliases.map encodeName = reading.fileNames ∨ keyAliases = [] ∧ counting.fileNames = []

-- The directory is empty when it is counted or read.
def NoFiles (counting reading : DirScan) : Prop := counting.fileNames = [] ∨ reading.fileNames = []

-- A list of the caller that is too small is refused; else the reading scan is complete and finds
-- no more files than were counted.
def AliasesListable (counting reading : DirScan) (aliasSizes : List Nat) : Prop :=
  let fileCount := getFileCount counting
  if fileCount = 0 then
    NoFiles counting reading
  else
    aliasSizes.length < fileCount ∨ (∃ e, fileNameListInit fileCount = .error e) ∨
      ¬Fits ((openDirFiles reading).take fileCount) aliasSizes ∨
      reading.Complete ∧ reading.fileNames.length ≤ fileCount

-- The reading scan is complete and finds as many files as were counted.
def AliasSetListable (counting reading : DirScan) : Prop :=
  let fileCount := getFileCount counting
  if fileCount = 0 then
    NoFiles counting reading
  else
    fileCount > hksMaxKeyAliasCount ∨ reading.fileNames = [] ∨
      reading.Complete ∧ reading.fileNames.length = fileCount

-- The scan shows the files of keys with these aliases.
structure DirScan.OfAliases (scan : DirScan) (aliases : List Bytes) : Prop where
  fileNames : scan.fileNames = aliases.map encodeName
  nonempty  : ∀ keyAlias ∈ aliases, keyAlias ≠ []
  length    : ∀ keyAlias ∈ aliases, keyAlias.length ≤ hksMaxKeyAliasLen

section Listings

variable {counting reading : DirScan} {aliases : List Bytes} {aliasSizes : List Nat}

theorem constructBlob_encodeName {keyAlias blob : Bytes} {size : Nat}
    (h : constructBlob (encodeName keyAlias) size = .ok blob) : blob = keyAlias := by
  simp only [constructBlob, decodeName_encodeName, bind, Except.bind, pure, Except.pure] at h
  split at h
  case isTrue => contradiction
  case isFalse =>
    split at h
    case isTrue => contradiction
    case isFalse => exact (Except.ok.inj h).symm

theorem length_le_encodeName (keyAlias : Bytes) : keyAlias.length ≤ (encodeName keyAlias).length := by
  induction keyAlias
  case nil => exact Nat.le_refl 0
  case cons b keyAlias hi =>
    have hbyte := (encodeByte_length b).1
    rw [encodeName_cons, List.length_append, List.length_cons]
    omega

-- The file name is at least as long as the alias.
theorem constructBlob_encodeName_length {keyAlias : Bytes} (hnil : keyAlias ≠ [])
    (hlength : keyAlias.length ≤ hksMaxKeyAliasLen) :
    constructBlob (encodeName keyAlias) (encodeName keyAlias).length = .ok keyAlias := by
  have hroom := length_le_encodeName keyAlias
  have hmalloc : mallocOk (encodeName keyAlias).length = true := by
    have hpos := List.length_pos_iff.mpr hnil
    have hbound := encodeName_length keyAlias
    rw [hksMaxKeyAliasLen] at hlength
    rw [mallocOk_iff]
    omega
  simp [constructBlob, hmalloc, decodeName_encodeName, hroom, bind, Except.bind, pure, Except.pure]

theorem getFileCount_ne_zero {scan : DirScan} (h : getFileCount scan ≠ 0) : scan.fileNames ≠ [] := by
  intro hnil
  have hempty := openDirFiles_isPrefix scan
  rw [hnil, List.prefix_nil] at hempty
  rw [getFileCount, hempty] at h
  exact h rfl

-- The files that are read are those of the first aliases.
theorem DirScan.OfAliases.seen (h : reading.OfAliases aliases) : ∃ seen,
    openDirFiles reading = seen.map encodeName ∧ seen <+: aliases ∧
      (seen = aliases ↔ reading.Complete) := by
  have hpre := openDirFiles_isPrefix reading
  rw [h.fileNames] at hpre
  have hseen : openDirFiles reading = (aliases.take (openDirFiles reading).length).map encodeName := by
    rw [List.map_take]
    exact List.prefix_iff_eq_take.mp hpre
  refine ⟨_, hseen, List.take_prefix _ _, ?_⟩
  rw [← openDirFiles_eq_iff, h.fileNames]
  constructor
  case mp =>
    intro heq
    rw [hseen, heq]
  case mpr =>
    intro heq
    rw [heq, List.length_map, List.take_length]

theorem getKeyAliasByProcessName_run (counting reading : DirScan) (aliasSizes : List Nat) :
    (getKeyAliasByProcessName counting reading aliasSizes).run =
      if aliasSizes.length < getFileCount counting then
        some (.error .bufferTooSmall)
      else if getFileCount counting = 0 then
        some (.ok [])
      else
        match fileNameListInit (getFileCount counting) with
        | .error e => some (.error e)
        | .ok _    =>
          (constructBlobs ((openDirFiles reading).take (getFileCount counting)) aliasSizes
            (min (openDirFiles reading).length (getFileCount counting + 1))).run := by
  rw [getKeyAliasByProcessName]
  split
  case isTrue => rfl
  case isFalse =>
    split
    case isTrue => rfl
    case isFalse =>
      rw [getFileNameList_eq]
      cases fileNameListInit (getFileCount counting) <;> rfl

-- The names that are copied have blobs of their own lengths.
theorem hksListAliasesByProcessName_run (counting reading : DirScan) :
    (hksListAliasesByProcessName counting reading).run =
      if getFileCount counting = 0 then
        some (.ok none)
      else if getFileCount counting > hksMaxKeyAliasCount then
        some (.error .bufferTooSmall)
      else if (openDirFiles reading).length < getFileCount counting then
        some (.ok none)
      else
        (constructBlobs ((openDirFiles reading).take (getFileCount counting))
          (((openDirFiles reading).take (getFileCount counting)).map List.length)
          (getFileCount counting)).run.map (·.map some) := by
  rw [hksListAliasesByProcessName, getHksFileEntry]
  by_cases hzero : getFileCount counting = 0
  case pos =>
    rw [if_pos hzero, if_pos hzero]
    rfl
  case neg =>
    by_cases hmany : getFileCount counting > hksMaxKeyAliasCount
    case pos =>
      rw [if_neg hzero, if_neg hzero, if_pos hmany, if_pos hmany]
      rfl
    case neg =>
      have hinit : fileNameListInit (getFileCount counting) = .ok ⟨⟩ := by
        rw [hksMaxKeyAliasCount] at hmany
        have hmalloc : mallocOk (getFileCount counting * sizeofHksFileEntry) = true := by
          rw [sizeofHksFileEntry]
          exact decide_eq_true ⟨by omega, by omega⟩
        rw [fileNameListInit, if_neg, if_neg (not_not.mpr hmalloc)]
        · rfl
        · simp only [UInt32.size, sizeofHksFileEntry]
          omega
      rw [if_neg hzero, if_neg hzero, if_neg hmany, if_neg hmany, hinit, getFileNameList_eq]
      by_cases hless : (openDirFiles reading).length < getFileCount counting
      case pos =>
        have hreal : min (openDirFiles reading).length (getFileCount counting + 1) <
            getFileCount counting := by omega
        rw [if_pos hless]
        dsimp only
        simp only [if_pos hreal]
        rfl
      case neg =>
        have hreal : ¬min (openDirFiles reading).length (getFileCount counting + 1) <
            getFileCount counting := by omega
        rw [if_neg hless]
        dsimp only
        simp only [if_neg hreal]
        change (getHksKeyAliasSet _ _).run = _
        rw [getHksKeyAliasSet, if_neg hzero, ExceptT.run_map]
        rfl

theorem fits_encodeName {seen : List Bytes} : Fits (seen.map encodeName) aliasSizes ↔
    ∀ p ∈ seen.zip aliasSizes, constructBlob (encodeName p.1) p.2 = .ok p.1 := by
  rw [Fits, List.zip_map_left, List.forall_mem_map]
  refine forall₂_congr fun p _ => ⟨fun ⟨blob, hblob⟩ => ?_, fun h => ⟨_, h⟩⟩
  exact hblob.trans (congrArg _ (constructBlob_encodeName hblob))

-- Blobs of the lengths of the names are large enough.
theorem constructBlobs_own (hnonempty : ∀ keyAlias ∈ aliases, keyAlias ≠ [])
    (hlength : ∀ keyAlias ∈ aliases, keyAlias.length ≤ hksMaxKeyAliasLen) :
    (constructBlobs (aliases.map encodeName) ((aliases.map encodeName).map List.length)
      aliases.length).run = some (.ok aliases) := by
  refine constructBlobs_ok (by simp) ?_
  rw [List.map_map, List.zip_map_right, List.forall_mem_map]
  rintro ⟨keyAlias, keyAlias'⟩ hp
  obtain rfl : keyAlias = keyAlias' := by
    have ⟨i, hi, hget⟩ := List.mem_iff_getElem.mp hp
    rw [List.getElem_zip, Prod.mk.injEq] at hget
    exact hget.1.symm.trans hget.2
  have hmem := (List.of_mem_zip hp).1
  exact constructBlob_encodeName_length (hnonempty _ hmem) (hlength _ hmem)

theorem listsExactly_nil :
    ListsExactly counting reading (some (.ok [])) ↔ NoFiles counting reading := by
  rw [ListsExactly, NoFiles, List.map_nil, eq_self, true_and, or_comm, @eq_comm _ [] reading.fileNames]

theorem listsExactly_ok (h : reading.OfAliases aliases) (hcounted : counting.fileNames ≠ [])
    {keyAliases : List Bytes} :
    ListsExactly counting reading (some (.ok keyAliases)) ↔ keyAliases = aliases := by
  rw [ListsExactly, or_iff_left fun h => hcounted h.2, h.fileNames,
    (List.map_injective_iff.mpr encodeName_injective).eq_iff]

-- The copied names are decoded, one for each file that was read.
theorem constructBlobs_exact (h : reading.OfAliases aliases) (hcounted : counting.fileNames ≠ [])
    {n : Nat} (hsizes : n ≤ aliasSizes.length) :
    ListsExactly counting reading (constructBlobs ((openDirFiles reading).take n) aliasSizes
        (min (openDirFiles reading).length (n + 1))).run ↔
      ¬Fits ((openDirFiles reading).take n) aliasSizes ∨
        reading.Complete ∧ reading.fileNames.length ≤ n := by
  have ⟨seen, hseen, hpre, hcomplete⟩ := h.seen
  rw [hseen, h.fileNames, List.length_map, List.length_map]
  by_cases hfits : Fits ((seen.map encodeName).take n) aliasSizes
  case neg =>
    have hsame : ((seen.map encodeName).take n).take (min seen.length (n + 1)) =
        (seen.map encodeName).take n := by
      rw [List.take_take, List.take_eq_take_iff, List.length_map]
      omega
    have ⟨e, he⟩ := constructBlobs_error (hsame.symm ▸ hfits)
    rw [he]
    exact iff_of_true trivial (.inl hfits)
  case pos =>
    rw [or_iff_right (not_not.mpr hfits)]
    by_cases hmore : seen.length ≤ n
    case pos =>
      have hall : (seen.map encodeName).take n = seen.map encodeName :=
        List.take_of_length_le (by rwa [List.length_map])
      rw [hall] at hfits ⊢
      rw [Nat.min_eq_left (Nat.le_succ_of_le hmore),
        constructBlobs_ok (Nat.le_trans hmore hsizes) (fits_encodeName.mp hfits)]
      rw [listsExactly_ok h hcounted, ← hcomplete]
      exact ⟨fun heq => ⟨heq, heq ▸ hmore⟩, And.left⟩
    case neg =>
      rw [constructBlobs_pastEnd hfits (by rw [List.length_take, List.length_map]; omega)]
      refine iff_of_false id fun ⟨hall, hlength⟩ => ?_
      rw [← hcomplete.mpr hall] at hlength
      exact hmore hlength

theorem getKeyAliasByProcessName_exact (h : reading.OfAliases aliases) :
    ListsExactly counting reading (getKeyAliasByProcessName counting reading aliasSizes).run ↔
      AliasesListable counting reading aliasSizes := by
  rw [getKeyAliasByProcessName_run, AliasesListable]
  by_cases hzero : getFileCount counting = 0
  case pos =>
    rw [if_neg (by simp [hzero]), if_pos hzero, if_pos hzero]
    exact listsExactly_nil
  case neg =>
    rw [if_neg hzero]
    split
    case isTrue hroom => exact iff_of_true trivial (.inl hroom)
    case isFalse hroom =>
      rw [or_iff_right hroom]
      cases hinit : fileNameListInit (getFileCount counting)
      case error e => exact iff_of_true trivial (.inl ⟨e, rfl⟩)
      case ok =>
        rw [or_iff_right (by simp)]
        exact constructBlobs_exact h (getFileCount_ne_zero hzero) (Nat.le_of_not_lt hroom)

theorem hksListAliasesByProcessName_exact (h : reading.OfAliases aliases) :
    ListsExactly counting reading
      ((hksListAliasesByProcessName counting reading).run.map (·.map (·.getD []))) ↔
      AliasSetListable counting reading := by
  have ⟨seen, hseen, hpre, hcomplete⟩ := h.seen
  have hnames : reading.fileNames.length = aliases.length := by rw [h.fileNames, List.length_map]
  rw [hksListAliasesByProcessName_run, AliasSetListable]
  by_cases hzero : getFileCount counting = 0
  case pos =>
    rw [if_pos hzero, if_pos hzero]
    exact listsExactly_nil
  case neg =>
    have hcounted := getFileCount_ne_zero hzero
    rw [if_neg hzero, if_neg hzero]
    split
    case isTrue hmany => exact iff_of_true trivial (.inl hmany)
    case isFalse hmany =>
      rw [or_iff_right hmany, hseen, List.length_map, ← hcomplete, hnames]
      split
      case isTrue hless =>
        refine (listsExactly_nil.trans (or_iff_right hcounted)).trans (or_iff_left ?_).symm
        rintro ⟨rfl, hlength⟩
        exact Nat.ne_of_lt hless hlength
      case isFalse hless =>
        have hlength : (seen.take (getFileCount counting)).length = getFileCount counting :=
          List.length_take_of_le (Nat.le_of_not_lt hless)
        have hok : (constructBlobs ((seen.map encodeName).take (getFileCount counting))
            (((seen.map encodeName).take (getFileCount counting)).map List.length)
            (getFileCount counting)).run = some (.ok (seen.take (getFileCount counting))) := by
          have hmem {keyAlias : Bytes} (hkey : keyAlias ∈ seen.take (getFileCount counting)) :=
            hpre.subset (List.mem_of_mem_take hkey)
          have hown := constructBlobs_own (fun _ hkey => h.nonempty _ (hmem hkey))
            fun _ hkey => h.length _ (hmem hkey)
          rwa [hlength, List.map_take] at hown
        rw [hok]
        refine (listsExactly_ok h hcounted).trans ?_
        change seen.take (getFileCount counting) = aliases ↔ _
        constructor
        case mp =>
          intro heq
          have hshort := (List.take_prefix (getFileCount counting) seen).length_le
          rw [heq] at hshort
          exact .inr ⟨hpre.eq_of_length_le hshort, heq ▸ hlength⟩
        case mpr =>
          rintro (hnil | ⟨rfl, hcount⟩)
          · have hempty : aliases = [] := by simpa [h.fileNames] using hnil
            have hseenEmpty := List.prefix_nil.mp (hempty ▸ hpre)
            rw [hseenEmpty, hempty, List.take_nil]
          · exact List.take_of_length_le hcount.le

end Listings

-- All there is are files of keys, and each key has an alias.
def Disk.NamedKeys (backup : Bool) (disk : Disk) : Prop :=
  ∀ path, (disk.files.lookup path).isSome → ∃ c : StoreCoordinate, c.WellFormed ∧ c.keyAlias ≠ [] ∧
    ∃ area ∈ areas backup, path = c.filePath area

-- The scan finds the directory as it is on the disk, in some order.
def DirScan.Shows (scan : DirScan) (disk : Disk) (path : Path) : Prop :=
  ∃ entries, (readDir path).run disk = .ok entries disk ∧ scan.entries.Perm entries

section Disks

variable {env : StorageEnv} {backup : Bool} {disk : Disk} {scan : DirScan} {c : StoreCoordinate}

theorem storeAll_namedKeys {requests : List StoreRequest} (hr : ∀ r ∈ requests, r.WellFormed)
    (hnamed : ∀ r ∈ requests, r.keyAlias ≠ []) :
    (storeAll env requests).NamedKeys env.supportStorageBackup := by
  refine storeAll_induction (fun path hpath => by simp at hpath) fun r hmem => ?_
  refine StoreRequest.exec_preserves (fun _ _ => id) (hr r hmem) ?_
  intro c full content s hcoord _ hfull hs path hpath
  by_cases heq : path = full
  case pos =>
    have halias : c.keyAlias = r.keyAlias := (storeCoordinate_ok hcoord).2.2.2
    exact ⟨c, hr r hmem c hcoord, halias ▸ hnamed r hmem, heq ▸ hfull⟩
  case neg =>
    rw [lookup_set_ne _ heq] at hpath
    exact hs path hpath

theorem exists_map_of_forall {α β : Type} {f : α → β} {P : α → Prop} {l : List β}
    (h : ∀ b ∈ l, ∃ a, P a ∧ b = f a) : ∃ as : List α, l = as.map f ∧ ∀ a ∈ as, P a := by
  induction l
  case nil => exact ⟨[], rfl, nofun⟩
  case cons b l hi =>
    have ⟨⟨a, ha, hb⟩, hl⟩ := List.forall_mem_cons.mp h
    have ⟨as, heq, has⟩ := hi hl
    exact ⟨a :: as, by rw [hb, heq, List.map_cons], List.forall_mem_cons.mpr ⟨ha, has⟩⟩

-- A file in the directory of a process has the name of an alias.
theorem DirScan.Shows.ofAliases (h : scan.Shows disk (render '/' (c.dirs mainArea)))
    (hdisk : disk.NamedKeys backup) : ∃ aliases, scan.OfAliases aliases := by
  have ⟨entries, hread, hperm⟩ := h
  cases hread
  have hname : ∀ name ∈ scan.fileNames, ∃ keyAlias : Bytes,
      (keyAlias ≠ [] ∧ keyAlias.length ≤ hksMaxKeyAliasLen) ∧ name = encodeName keyAlias := by
    intro name hname
    have ⟨dire, hdire, hdireName⟩ := List.mem_map.mp hname
    have ⟨hentry, hfile⟩ := List.mem_filter.mp hdire
    have ⟨file, hfound, hbelow⟩ := mem_readDir.mp (hperm.mem_iff.mp hentry)
    obtain ⟨c', hc', hnil, area, harea, rfl⟩ := hdisk file hfound
    have hslash := (component_of_areas harea).1
    have hplain : Plain '/' (c'.dirs area ++ [encodeName c'.keyAlias]) :=
      List.forall_mem_append.mpr ⟨plain_dirs c' hslash, by simpa using slash_notMem_encodeName _⟩
    have ⟨rest, hcomps, hdir⟩ := direntBelow_some (plain_dirs c (by decide)) hplain hbelow
    have hlast : rest = [] := by
      by_contra hrest
      exact absurd (hdir.mpr hrest) (by simpa using hfile)
    subst hlast
    have ⟨_, hsame⟩ := List.append_inj' hcomps rfl
    exact ⟨c'.keyAlias, ⟨hnil, hc'.keyAlias⟩, hdireName ▸ (List.cons.inj hsame).1.symm⟩
  have ⟨aliases, hnames, haliases⟩ := exists_map_of_forall hname
  exact ⟨aliases, hnames, fun a h => (haliases a h).1, fun a h => (haliases a h).2⟩

end Disks

-- What a caller of a listing gets.
def listed {α : Type} : EStateM.Result HksErrorCode Disk (Option α) → Option (Except HksErrorCode α)
  | .error e _ => some (.error e)
  | .ok ret _  => ret.map .ok

section Manager

variable {env : StorageEnv} {counting reading : Path → DirScan} {processInfo : HksProcessInfo}
  {paramSet : HksParamSet} {c : StoreCoordinate} {disk second : Disk} {backup : Bool}

theorem getPathInfo_none (fs : FileSystem) (material : HksStoreMaterial)
    (deDataPath ceOrEceDataPath : Path) :
    getPathInfo fs { material with keyAliasPath := none } deDataPath ceOrEceDataPath =
      getPathInfo fs { material with keyAliasPath := some [] } deDataPath ceOrEceDataPath := by
  have hdots : ¬"../".toList <:+: ([] : Path) := by decide
  have hroom : ¬([] : Path).length > hksMaxFileNameLen := Nat.not_lt_zero _
  simp only [getPathInfo, if_neg hdots, if_neg hroom]
  rfl

theorem initStorageMaterial_none (storageType : HksStorageType) :
    (∃ e, initStorageMaterial processInfo paramSet none storageType = .error e ∧
      initStorageMaterial processInfo paramSet (some []) storageType = .error e) ∨
    ∃ material : HksStoreMaterial,
      initStorageMaterial processInfo paramSet none storageType =
        .ok { material with keyAliasPath := none } ∧
      initStorageMaterial processInfo paramSet (some []) storageType =
        .ok { material with keyAliasPath := some [] } := by
  rw [initStorageMaterial, initStorageMaterial]
  cases getStorageLevelAndStoreUserIdParam processInfo paramSet
  case error e => exact .inl ⟨e, rfl, rfl⟩
  case ok params =>
    obtain ⟨level, userId⟩ := params
    cases huser : getUserIdPath userId (getIsPlainPath level)
    case error e => exact .inl ⟨e, by simp [huser, bind, Except.bind], by simp [huser, bind, Except.bind]⟩
    case ok userIdPath =>
      cases huid : getUidPath (getIsPlainPath level) processInfo.processName
      case error e =>
        exact .inl ⟨e, by simp [huser, huid, bind, Except.bind], by simp [huser, huid, bind, Except.bind]⟩
      case ok uidPath =>
        have hnone : getKeyAliasPath none = .ok none := rfl
        have hempty : getKeyAliasPath (some []) = .ok (some []) := rfl
        refine .inr ⟨⟨getPathType level, userIdPath, uidPath, getStorageTypePath storageType, none⟩, ?_, ?_⟩
        · simp [huser, huid, hnone, bind, Except.bind, pure, Except.pure]
        · simp [huser, huid, hempty, bind, Except.bind, pure, Except.pure]

-- Without an alias, the directory is found as for the empty one.
theorem storeFileInfo_none (storageType : HksStorageType) :
    storeFileInfo env processInfo paramSet none storageType =
      storeFileInfo env processInfo paramSet (some []) storageType := by
  rw [storeFileInfo, storeFileInfo]
  obtain ⟨e, hnone, hempty⟩ | ⟨material, hnone, hempty⟩ :=
    @initStorageMaterial_none processInfo paramSet storageType
  · rw [hnone, hempty]
  · rw [hnone, hempty]
    change hksConstructStoreFileInfo _ _ _ _ = hksConstructStoreFileInfo _ _ _ _
    simp only [hksConstructStoreFileInfo, hksGetFileInfo, getPathInfo_none]

theorem manageListing_listed {α : Type} (listing : DirScan → DirScan → Listing α) :
    listed ((manageListing env counting reading processInfo paramSet listing).run disk) =
      match (storeFileInfo env processInfo paramSet none .key).run disk with
      | .error e _ => some (.error e)
      | .ok info _ =>
        (listing (counting info.mainPath.path) (reading info.mainPath.path)).run := by
  rw [manageListing, EStateM.run_bind]
  cases hinfo : (storeFileInfo env processInfo paramSet none .key).run disk
  case error e t => rfl
  case ok info t =>
    dsimp only
    cases (listing (counting info.mainPath.path) (reading info.mainPath.path)).run
    case none => rfl
    case some ret => cases ret <;> rfl

-- The listings of a process are exact just if what its directory shows can be listed. The counting
-- scan finds anything, the reading scan a directory with keys.
theorem alias_listing (hc : c.WellFormed)
    (hcoord : storeCoordinate processInfo paramSet [] .key = .ok c) (hkeys : second.NamedKeys backup)
    (hreading : (reading (render '/' (c.dirs mainArea))).Shows second (render '/' (c.dirs mainArea)))
    (aliasSizes : List Nat) :
    let counted := counting (render '/' (c.dirs mainArea))
    let read := reading (render '/' (c.dirs mainArea))
    let found := ∃ info t, (storeFileInfo env processInfo paramSet none .key).run disk = .ok info t
    (ListsExactly counted read (listed <|
        (hksManageGetKeyAliasByProcessName env counting reading processInfo paramSet aliasSizes).run disk) ↔
      (found → AliasesListable counted read aliasSizes)) ∧
    (ListsExactly counted read ((listed <|
        (hksManageListAliasesByProcessName env counting reading processInfo paramSet).run disk).map
        (·.map (·.getD []))) ↔
      (found → AliasSetListable counted read)) := by
  dsimp only
  have ⟨aliases, haliases⟩ := hreading.ofAliases hkeys
  rw [hksManageGetKeyAliasByProcessName, hksManageListAliasesByProcessName, manageListing_listed,
    manageListing_listed]
  have hpath := @storeFileInfo_triple env _ _ _ _ _ (fun _ => True) (fun _ _ => id) hc hcoord
  rw [storeFileInfo_none]
  cases hinfo : (storeFileInfo env processInfo paramSet (some []) .key).run disk
  case error e t => exact ⟨iff_of_true trivial nofun, iff_of_true trivial nofun⟩
  case ok info t =>
    have hmain : info.mainPath.path = render '/' (c.dirs mainArea) :=
      congrArg HksStoreInfo.path (hpath.ok trivial hinfo).2.mainPath
    have hfound : ∃ info' t', Result.ok info t = (Result.ok info' t' : Result HksErrorCode _ _) :=
      ⟨info, t, rfl⟩
    dsimp only
    rw [hmain]
    refine ⟨(getKeyAliasByProcessName_exact haliases).trans ⟨fun h _ => h, fun h => h hfound⟩, ?_⟩
    exact (hksListAliasesByProcessName_exact haliases).trans ⟨fun h _ => h, fun h => h hfound⟩

end Manager

-- The uid 1000 of user 0 stores a key at the level without a password.
def aliasRequest (keyAlias : Bytes) : StoreRequest where
  processInfo := uidProcess
  paramSet    := levelParamSet hksAuthStorageLevelDe
  keyAlias    := keyAlias
  storageType := .key
  keyBlob     := [1, 2, 3]

def storedKeys (aliases : List Bytes) : Disk := storeAll steadyStorage (aliases.map aliasRequest)

def shownBy (disk : Disk) (path : Path) : DirScan where
  opened  := true
  entries := (disk.files.keys.filterMap (direntBelow path)).dedup

theorem shownBy_shows (disk : Disk) (path : Path) : (shownBy disk path).Shows disk path :=
  ⟨_, rfl, List.Perm.refl _⟩

theorem storedKeys_namedKeys {aliases : List Bytes}
    (h : ∀ keyAlias ∈ aliases, keyAlias ≠ [] ∧ keyAlias.length ≤ hksMaxKeyAliasLen) :
    (storedKeys aliases).NamedKeys true := by
  refine @storeAll_namedKeys steadyStorage _ ?_ ?_
  · rw [List.forall_mem_map]
    intro keyAlias hmem c hcoord
    have hparams : getStorageLevelAndStoreUserIdParam uidProcess
        (levelParamSet hksAuthStorageLevelDe) = .ok (hksAuthStorageLevelDe, 0) := rfl
    have ⟨hlevel, hname, htype, halias⟩ := storeCoordinate_ok hcoord
    have hde : c.storageLevel = hksAuthStorageLevelDe := by
      have hsame := Except.ok.inj (hlevel.symm.trans hparams)
      exact congrArg Prod.fst hsame
    exact ⟨by rw [hname]; rfl, .inl hde, by rw [htype]; exact nofun, halias ▸ (h keyAlias hmem).2⟩
  · rw [List.forall_mem_map]
    exact fun keyAlias hmem => (h keyAlias hmem).1

def listingPath : Path := render '/' ((uidCoordinate hksAuthStorageLevelDe []).dirs mainArea)

-- Two keys that are there in both scans.
theorem alias_listing_two_keys :
    let disk := storedKeys [[0x61], [0x62]]
    let scan := shownBy disk listingPath
    let found := ∃ info t, (storeFileInfo steadyStorage uidProcess
      (levelParamSet hksAuthStorageLevelDe) none .key).run disk = .ok info t
    (ListsExactly scan scan (listed <| (hksManageGetKeyAliasByProcessName steadyStorage (shownBy disk)
        (shownBy disk) uidProcess (levelParamSet hksAuthStorageLevelDe) [64, 64]).run disk) ↔
      (found → AliasesListable scan scan [64, 64])) ∧
    (ListsExactly scan scan ((listed <| (hksManageListAliasesByProcessName steadyStorage (shownBy disk)
        (shownBy disk) uidProcess (levelParamSet hksAuthStorageLevelDe)).run disk).map
        (·.map (·.getD []))) ↔
      (found → AliasSetListable scan scan)) :=
  alias_listing ⟨rfl, .inl rfl, by decide, by decide⟩ rfl (storedKeys_namedKeys (by decide))
    (shownBy_shows _ _) [64, 64]

-- The name of this alias is too long for the record of `HksGetDirFile`.
def longAlias : Bytes := List.replicate 64 0

-- The key with the long name is missed without an error, and a key that is added between the scans
-- is looked for past the end of the list.
theorem aliases_missed :
    let disk := storedKeys [longAlias]
    let scan := shownBy disk listingPath
    let one := storedKeys [[0x61]]
    let two := storedKeys [[0x61], [0x62]]
    (disk.NamedKeys true ∧ one.NamedKeys true ∧ two.NamedKeys true) ∧
    ¬ListsExactly scan scan (listed <| (hksManageGetKeyAliasByProcessName steadyStorage (shownBy disk)
      (shownBy disk) uidProcess (levelParamSet hksAuthStorageLevelDe) [64]).run disk) ∧
    ¬ListsExactly scan scan ((listed <| (hksManageListAliasesByProcessName steadyStorage
      (shownBy disk) (shownBy disk) uidProcess (levelParamSet hksAuthStorageLevelDe)).run disk).map
      (·.map (·.getD []))) ∧
    ¬ListsExactly (shownBy one listingPath) (shownBy two listingPath) (listed <|
      (hksManageGetKeyAliasByProcessName steadyStorage (shownBy one) (shownBy two) uidProcess
        (levelParamSet hksAuthStorageLevelDe) [64, 64]).run one) := by
  dsimp only
  have hlong : (listed <| (hksManageGetKeyAliasByProcessName steadyStorage
      (shownBy (storedKeys [longAlias])) (shownBy (storedKeys [longAlias])) uidProcess
      (levelParamSet hksAuthStorageLevelDe) [64]).run (storedKeys [longAlias])) = some (.ok []) := by
    decide +kernel
  have hlongSet : (listed <| (hksManageListAliasesByProcessName steadyStorage
      (shownBy (storedKeys [longAlias])) (shownBy (storedKeys [longAlias])) uidProcess
      (levelParamSet hksAuthStorageLevelDe)).run (storedKeys [longAlias])) = some (.ok none) := by
    decide +kernel
  have hmore : (listed <| (hksManageGetKeyAliasByProcessName steadyStorage
      (shownBy (storedKeys [[0x61]])) (shownBy (storedKeys [[0x61], [0x62]])) uidProcess
      (levelParamSet hksAuthStorageLevelDe) [64, 64]).run (storedKeys [[0x61]])) = none := by
    decide +kernel
  have hthere : (shownBy (storedKeys [longAlias]) listingPath).fileNames ≠ [] := by decide +kernel
  have hmissed : ¬ListsExactly (shownBy (storedKeys [longAlias]) listingPath)
      (shownBy (storedKeys [longAlias]) listingPath) (some (.ok [])) := by
    rw [listsExactly_nil, NoFiles, or_self]
    exact hthere
  refine ⟨⟨storedKeys_namedKeys (by decide), storedKeys_namedKeys (by decide),
    storedKeys_namedKeys (by decide)⟩, ?_, ?_, ?_⟩
  · rw [hlong]
    exact hmissed
  · rw [hlongSet]
    exact hmissed
  · rw [hmore]
    exact id

end Huks
