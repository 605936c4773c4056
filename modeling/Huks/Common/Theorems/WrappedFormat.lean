import Huks.Common.Theorems.WrappedData

namespace Huks

-- The data starts with these parts, none of which is empty.
structure PartsInFront (data : Bytes) (parts : List Bytes) (rest : Bytes) : Prop where
  nonempty : ∀ part ∈ parts, part ≠ []
  small    : ∀ part ∈ parts, part.length < UInt32.size
  packed   : data = parts.flatMap wrapPart ++ rest

-- The parts up to `blobIndex` are there, and this is the last one of them.
def PartPresent (data : Bytes) (blobIndex : Nat) (part : Bytes) : Prop :=
  ∃ parts rest, PartsInFront data parts rest ∧ parts.length = blobIndex + 1 ∧ parts[blobIndex]? = some part

section Cancel

variable {part part' data data' rest : Bytes} {parts : List Bytes} {blobIndex : Nat}

theorem wrapPart_append_cancel (hsmall : part.length < UInt32.size) (hsmall' : part'.length < UInt32.size)
    (h : wrapPart part ++ data = wrapPart part' ++ data') : part = part' ∧ data = data' := by
  have hlen : part.length = part'.length := by
    rw [← le32_wrapPart_append hsmall data, ← le32_wrapPart_append hsmall' data', h]
  have hwrap : (wrapPart part).length = (wrapPart part').length := by
    rw [length_wrapPart, length_wrapPart, hlen]
  have ⟨hpart, hdata⟩ := List.append_inj h hwrap
  have hhead : (toBytes32 part.length.toUInt32).length = (toBytes32 part'.length.toUInt32).length := rfl
  exact ⟨(List.append_inj hpart hhead).2, hdata⟩

theorem PartsInFront.nil : PartsInFront data [] data := ⟨nofun, nofun, rfl⟩

theorem PartsInFront.cons (h : PartsInFront data parts rest) (hne : part ≠ [])
    (hsmall : part.length < UInt32.size) : PartsInFront (wrapPart part ++ data) (part :: parts) rest where
  nonempty := List.forall_mem_cons.mpr ⟨hne, h.nonempty⟩
  small    := List.forall_mem_cons.mpr ⟨hsmall, h.small⟩
  packed   := by rw [h.packed, List.flatMap_cons, List.append_assoc]

-- The first part of the data is the first of all parts.
theorem PartsInFront.uncons (h : PartsInFront (wrapPart part ++ data) (part' :: parts) rest)
    (hsmall : part.length < UInt32.size) : part' = part ∧ PartsInFront data parts rest := by
  have hpacked := h.packed
  rw [List.flatMap_cons, List.append_assoc] at hpacked
  have ⟨heq, hdata⟩ := wrapPart_append_cancel hsmall (h.small _ List.mem_cons_self) hpacked
  exact ⟨heq.symm, (List.forall_mem_cons.mp h.nonempty).2, (List.forall_mem_cons.mp h.small).2, hdata⟩

theorem partPresent_cons (hne : part ≠ []) (hsmall : part.length < UInt32.size) :
    PartPresent (wrapPart part ++ data) (blobIndex + 1) part' ↔ PartPresent data blobIndex part' := by
  constructor
  case mp =>
    rintro ⟨parts, rest, hfront, hlen, hpart⟩
    cases parts
    case nil => cases hlen
    case cons first parts =>
      have ⟨_, hfront⟩ := hfront.uncons hsmall
      exact ⟨parts, rest, hfront, Nat.succ.inj hlen, by simpa using hpart⟩
  case mpr =>
    rintro ⟨parts, rest, hfront, hlen, hpart⟩
    exact ⟨part :: parts, rest, hfront.cons hne hsmall, by simp [hlen], by simpa using hpart⟩

theorem partPresent_head (hne : part ≠ []) (hsmall : part.length < UInt32.size) :
    PartPresent (wrapPart part ++ data) 0 part' ↔ part' = part := by
  constructor
  case mp =>
    rintro ⟨parts, rest, hfront, hlen, hpart⟩
    cases parts
    case nil => cases hlen
    case cons first parts =>
      have ⟨hfirst, _⟩ := hfront.uncons hsmall
      have hpart : first = part' := by simpa using hpart
      rw [← hpart, hfirst]
  case mpr =>
    rintro rfl
    exact ⟨[part'], data, PartsInFront.nil.cons hne hsmall, rfl, rfl⟩

-- Where the first length does not fit there is no part.
theorem PartsInFront.eq_nil (h : PartsInFront data parts rest)
    (hfit : data.length < 4 ∨ (le32 data).toNat = 0 ∨ (le32 data).toNat > data.length - 4) : parts = [] := by
  cases parts
  case nil => rfl
  case cons part parts =>
    have hsmall := h.small part List.mem_cons_self
    have hne := h.nonempty part List.mem_cons_self
    have hpos : 0 < part.length := List.length_pos_of_ne_nil hne
    have hdata := h.packed
    rw [List.flatMap_cons, List.append_assoc] at hdata
    have hle := le32_wrapPart_append hsmall (parts.flatMap wrapPart ++ rest)
    rw [← hdata] at hle
    have hlen := congrArg List.length hdata
    rw [List.length_append, length_wrapPart] at hlen
    omega

end Cancel

section Access

variable {data part : Bytes} {blobIndex count : Nat}

-- What is wrong in front of the part: a length of which bytes are missing, or a part that is there and
-- longer than the data may be.
structure PartsReadable (data : Bytes) (blobIndex : Nat) : Prop where
  whole : ∀ parts rest, PartsInFront data parts rest → parts.length ≤ blobIndex →
    (∀ part ∈ parts, part.length ≤ hksWrappedFormatMaxSize) → rest = [] ∨ 4 ≤ rest.length
  small : ∀ parts rest, PartsInFront data parts rest → parts.length = blobIndex + 1 →
    ∀ part ∈ parts, part.length ≤ hksWrappedFormatMaxSize

-- The part is read inside of the data, and exactly when it is there.
structure PartRead (data : Bytes) (blobIndex : Nat) (x : Except (Stop HksErrorCode) Bytes) : Prop where
  inside : Inside x
  result : ∀ part, x = .ok part ↔ PartPresent data blobIndex part

theorem PartPresent.parts (h : PartPresent data blobIndex part) :
    ∃ parts rest, PartsInFront data parts rest ∧ parts ≠ [] :=
  have ⟨parts, rest, hfront, hlen, _⟩ := h
  ⟨parts, rest, hfront, by rintro rfl; cases hlen⟩

theorem slice_wrapPart (part rest : Bytes) : slice (wrapPart part ++ rest) 4 part.length = part :=
  take_drop_wrapPart_append part rest

theorem readAt_length (h : 4 ≤ data.length) :
    (readAt data 0 4 : Except (Stop HksErrorCode) Bytes) = .ok (data.take 4) :=
  readAt_eq_ok.mpr ⟨.inr (by omega), rfl⟩

theorem le32_take : le32 (data.take 4) = le32 data := by
  rw [le32, le32, List.take_take, Nat.min_self]

theorem accessPart_eq (hne : data ≠ []) (hhead : 4 ≤ data.length) : accessPart blobIndex (count + 1) data =
    if (le32 data).toNat = 0 ∨ (le32 data).toNat > hksWrappedFormatMaxSize ∨
        (le32 data).toNat > data.length - 4 then
      throw (.error .invalidWrappedFormat)
    else
      match blobIndex with
      | 0             => return slice data 4 (le32 data).toNat
      | blobIndex + 1 => accessPart blobIndex count (data.drop (4 + (le32 data).toNat)) := by
  have hcons : data = [] → False := hne
  rw [accessPart.eq_3 _ _ _ hcons, readAt_length hhead, ← @le32_take data]
  cases blobIndex <;> rfl

-- Where the data starts with no part the length in front is refused.
theorem partRead_of_unfit (blobIndex count : Nat) (hrest : data = [] ∨ 4 ≤ data.length)
    (hfit : data.length < 4 ∨ (le32 data).toNat = 0 ∨ (le32 data).toNat > data.length - 4) :
    PartRead data blobIndex (accessPart blobIndex (count + 1) data) ∧ PartsReadable data blobIndex := by
  have hrefused : accessPart blobIndex (count + 1) data = throw (.error .invalidWrappedFormat) := by
    by_cases hne : data = []
    case pos => rw [hne]; cases blobIndex <;> rfl
    case neg =>
      have hhead := hrest.resolve_left hne
      rw [accessPart_eq hne hhead, if_pos (by omega)]
  refine ⟨⟨hrefused ▸ inside_throw _, fun part => ?_⟩, ?_, ?_⟩
  case refine_1 =>
    rw [hrefused]
    refine ⟨nofun, fun hpresent => ?_⟩
    have ⟨parts, rest, hfront, hne⟩ := hpresent.parts
    exact absurd (hfront.eq_nil hfit) hne
  case refine_2 =>
    intro parts rest hfront _ _
    have hparts := hfront.eq_nil hfit
    have hdata : data = rest := by rw [hfront.packed, hparts]; rfl
    rwa [← hdata]
  case refine_3 =>
    intro parts rest hfront hlen
    rw [hfront.eq_nil hfit] at hlen
    cases hlen

theorem partsReadable_cons (hne : part ≠ []) (hsmall : part.length < UInt32.size)
    (hmax : part.length ≤ hksWrappedFormatMaxSize) :
    PartsReadable (wrapPart part ++ data) (blobIndex + 1) ↔ PartsReadable data blobIndex := by
  constructor
  case mp =>
    intro h
    constructor
    case whole =>
      intro parts rest hfront hlen hall
      exact h.whole (part :: parts) rest (hfront.cons hne hsmall) (Nat.succ_le_succ hlen)
        (List.forall_mem_cons.mpr ⟨hmax, hall⟩)
    case small =>
      intro parts rest hfront hlen part' hmem
      exact h.small (part :: parts) rest (hfront.cons hne hsmall) (by simp [hlen]) part'
        (List.mem_cons_of_mem _ hmem)
  case mpr =>
    intro h
    constructor
    case whole =>
      intro parts rest hfront hlen hall
      cases parts
      case nil =>
        right
        have hrest : wrapPart part ++ data = rest := hfront.packed
        rw [← hrest, List.length_append, length_wrapPart]
        omega
      case cons first parts =>
        have ⟨_, hfront⟩ := hfront.uncons hsmall
        exact h.whole parts rest hfront (Nat.le_of_succ_le_succ hlen) (List.forall_mem_cons.mp hall).2
    case small =>
      intro parts rest hfront hlen
      cases parts
      case nil => cases hlen
      case cons first parts =>
        have ⟨hfirst, hfront⟩ := hfront.uncons hsmall
        exact List.forall_mem_cons.mpr
          ⟨hfirst ▸ hmax, h.small parts rest hfront (Nat.succ.inj hlen)⟩

-- A length of which bytes are missing.
theorem partRead_of_short (blobIndex count : Nat) (hne : data ≠ []) (hhead : data.length < 4) :
    ¬PartRead data blobIndex (accessPart blobIndex (count + 1) data) ∧ ¬PartsReadable data blobIndex := by
  constructor
  case left =>
    intro h
    have hread : (readAt data 0 4 : Except (Stop HksErrorCode) Bytes) = .error .outside :=
      if_neg (by omega)
    apply h.inside
    rw [accessPart.eq_3 _ _ _ hne, hread]
    rfl
  case right =>
    intro h
    have hrest := h.whole [] data .nil (Nat.zero_le _) nofun
    exact absurd hrest (by rw [not_or]; exact ⟨hne, by omega⟩)

-- A part that is there and too long.
theorem partRead_of_large (hlarge : hksWrappedFormatMaxSize < part.length) (hsmall : part.length < UInt32.size) :
    PartRead (wrapPart part ++ data) blobIndex (accessPart blobIndex (count + 1) (wrapPart part ++ data)) ↔
      PartsReadable (wrapPart part ++ data) blobIndex := by
  have hlen : (wrapPart part ++ data).length = 4 + part.length + data.length := by
    rw [List.length_append, length_wrapPart]
  have hne : wrapPart part ++ data ≠ [] := List.ne_nil_of_length_pos (by omega)
  have hrefused : accessPart blobIndex (count + 1) (wrapPart part ++ data) =
      throw (.error .invalidWrappedFormat) := by
    rw [accessPart_eq hne (by omega), le32_wrapPart_append hsmall, if_pos (by omega)]
  have hlong {parts : List Bytes} {rest : Bytes} (hfront : PartsInFront (wrapPart part ++ data) parts rest)
      (hall : ∀ part ∈ parts, part.length ≤ hksWrappedFormatMaxSize) : parts = [] := by
    cases parts
    case nil => rfl
    case cons first parts =>
      have ⟨hfirst, _⟩ := hfront.uncons hsmall
      have hle := hall first List.mem_cons_self
      rw [hfirst] at hle
      omega
  rw [hrefused]
  constructor
  case mp =>
    intro h
    constructor
    case whole =>
      intro parts rest hfront _ hall
      have hrest : wrapPart part ++ data = rest := by
        rw [hfront.packed, hlong hfront hall]
        rfl
      exact .inr (by rw [← hrest]; omega)
    case small =>
      intro parts rest hfront hcount
      have ⟨last, hlast⟩ : ∃ last, parts[blobIndex]? = some last :=
        ⟨parts[blobIndex], List.getElem?_eq_getElem (by omega)⟩
      nomatch (h.result last).mpr ⟨parts, rest, hfront, hcount, hlast⟩
  case mpr =>
    intro h
    refine ⟨inside_throw _, fun last => ⟨nofun, ?_⟩⟩
    rintro ⟨parts, rest, hfront, hcount, _⟩
    rw [hlong hfront (h.small parts rest hfront hcount)] at hcount
    cases hcount

theorem accessPart_wrapPart (hne : part ≠ []) (hsmall : part.length < UInt32.size)
    (hmax : part.length ≤ hksWrappedFormatMaxSize) :
    accessPart blobIndex (count + 1) (wrapPart part ++ data) =
      match blobIndex with
      | 0             => return part
      | blobIndex + 1 => accessPart blobIndex count data := by
  have hlen : (wrapPart part ++ data).length = 4 + part.length + data.length := by
    rw [List.length_append, length_wrapPart]
  have hpos : 0 < part.length := List.length_pos_of_ne_nil hne
  rw [accessPart_eq (List.ne_nil_of_length_pos (by omega)) (by omega), le32_wrapPart_append hsmall,
    if_neg (by omega), slice_wrapPart, drop_wrapPart_append]

theorem partsReadable_head (hsmall : part.length < UInt32.size)
    (hmax : part.length ≤ hksWrappedFormatMaxSize) : PartsReadable (wrapPart part ++ data) 0 where
  whole := by
    intro parts rest hfront hlen _
    have hparts : parts = [] := List.eq_nil_of_length_eq_zero (Nat.le_zero.mp hlen)
    have hrest : wrapPart part ++ data = rest := by
      rw [hfront.packed, hparts]
      rfl
    rw [← hrest, List.length_append, length_wrapPart]
    exact .inr (by omega)
  small := by
    intro parts rest hfront hlen
    have ⟨only, honly⟩ := List.length_eq_one_iff.mp hlen
    rw [honly] at hfront
    have ⟨hfirst, _⟩ := hfront.uncons hsmall
    rw [honly, hfirst]
    exact List.forall_mem_singleton.mpr hmax

-- What the data may start with.
theorem dataStart (data : Bytes) : (data ≠ [] ∧ data.length < 4) ∨
    ((data = [] ∨ 4 ≤ data.length) ∧
      (data.length < 4 ∨ (le32 data).toNat = 0 ∨ (le32 data).toNat > data.length - 4)) ∨
    ∃ part rest, data = wrapPart part ++ rest ∧ part ≠ [] ∧ part.length < UInt32.size := by
  by_cases hnil : data = []
  case pos => exact .inr (.inl ⟨.inl hnil, .inl (by rw [hnil]; decide)⟩)
  case neg =>
    by_cases hhead : data.length < 4
    case pos => exact .inl ⟨hnil, hhead⟩
    case neg =>
      by_cases hfit : (le32 data).toNat = 0 ∨ (le32 data).toNat > data.length - 4
      case pos => exact .inr (.inl ⟨.inr (by omega), .inr hfit⟩)
      case neg =>
        have ⟨hpos, hle⟩ := not_or.mp hfit
        have ⟨part, hlen, hdata⟩ := wrapPart_of_le (by omega) (Nat.le_of_not_lt hle)
        refine .inr (.inr ⟨part, _, hdata, ?_, hlen ▸ UInt32.toNat_lt _⟩)
        rintro rfl
        exact hpos hlen.symm

theorem partRead_iff (h : blobIndex < count) : PartRead data blobIndex (accessPart blobIndex count data) ↔
    PartsReadable data blobIndex := by
  induction blobIndex generalizing count data
  all_goals
    obtain ⟨count, rfl⟩ : ∃ n, count = n + 1 := ⟨count - 1, by omega⟩
    obtain ⟨hne, hhead⟩ | ⟨hrest, hfit⟩ | ⟨part, rest, rfl, hne, hsmall⟩ := dataStart data
  case zero.inl =>
    have hshort := partRead_of_short 0 count hne hhead
    exact iff_of_false hshort.1 hshort.2
  case succ.inl n _ =>
    have hshort := partRead_of_short (n + 1) count hne hhead
    exact iff_of_false hshort.1 hshort.2
  case zero.inr.inl =>
    have hunfit := partRead_of_unfit 0 count hrest hfit
    exact iff_of_true hunfit.1 hunfit.2
  case succ.inr.inl n _ =>
    have hunfit := partRead_of_unfit (n + 1) count hrest hfit
    exact iff_of_true hunfit.1 hunfit.2
  case zero.inr.inr =>
    by_cases hmax : part.length ≤ hksWrappedFormatMaxSize
    case neg => exact partRead_of_large (by omega) hsmall
    case pos =>
      rw [accessPart_wrapPart hne hsmall hmax]
      refine iff_of_true ⟨inside_pure _, fun found => ?_⟩ (partsReadable_head hsmall hmax)
      rw [partPresent_head hne hsmall]
      exact ⟨fun h => (Except.ok.inj h).symm, fun h => h ▸ rfl⟩
  case succ.inr.inr n ih =>
    by_cases hmax : part.length ≤ hksWrappedFormatMaxSize
    case neg => exact partRead_of_large (by omega) hsmall
    case pos =>
      rw [accessPart_wrapPart hne hsmall hmax, partsReadable_cons hne hsmall hmax,
        ← ih (Nat.lt_of_succ_lt_succ h)]
      have hpresent (found : Bytes) : PartPresent (wrapPart part ++ rest) (n + 1) found ↔ PartPresent rest n found :=
        partPresent_cons hne hsmall
      exact ⟨fun h => ⟨h.inside, fun found => (h.result found).trans (hpresent found)⟩,
        fun h => ⟨h.inside, fun found => (h.result found).trans (hpresent found).symm⟩⟩

end Access

section Format

variable {data : Bytes} {blobIndex total total' : Nat} {validBlobLengths : Option (Nat → UInt32)}
  {parts parts' : List Bytes}

-- Exactly so many parts, with the lengths of the table.
def ExactFormat (total : Nat) (validBlobLengths : Option (Nat → UInt32)) (data : Bytes) : Prop :=
  data.length ≤ hksWrappedFormatMaxSize ∧
    ∃ parts, WrappedParts total data parts ∧ parts.length = total ∧ LengthsMatch validBlobLengths 0 parts

-- Some parts, but fewer than so many.
def FewerParts (total : Nat) (validBlobLengths : Option (Nat → UInt32)) (data : Bytes) : Prop :=
  data ≠ [] ∧ data.length ≤ hksWrappedFormatMaxSize ∧
    ∃ parts, WrappedParts total data parts ∧ parts.length < total ∧ LengthsMatch validBlobLengths 0 parts

-- Data is made of parts in one way.
theorem WrappedParts.unique (h : WrappedParts total data parts) (h' : WrappedParts total' data parts') :
    parts = parts' := by
  induction parts generalizing total total' data parts'
  case nil =>
    have hdata : data = [] := h.packed
    cases parts'
    case nil => rfl
    case cons part' parts' =>
      have hlen := congrArg List.length (hdata.symm.trans h'.eq_append)
      rw [List.length_append, length_wrapPart] at hlen
      simp at hlen
      omega
  case cons part parts ih =>
    have hdata := h.eq_append
    cases parts'
    case nil =>
      have hlen := congrArg List.length ((show data = [] from h'.packed).symm.trans hdata)
      rw [List.length_append, length_wrapPart] at hlen
      simp at hlen
      omega
    case cons part' parts' =>
      obtain ⟨total, rfl⟩ : ∃ n, total = n + 1 := ⟨total - 1, by have := h.length; simp at this; omega⟩
      obtain ⟨total', rfl⟩ : ∃ n, total' = n + 1 := ⟨total' - 1, by have := h'.length; simp at this; omega⟩
      have ⟨hpart, hrest⟩ := wrapPart_append_cancel h.head.2 h'.head.2 (hdata.symm.trans h'.eq_append)
      rw [hpart, ih h.tail (hrest ▸ h'.tail)]

theorem checkFormat_iff (htotal : total ≠ 0) :
    (hksCheckWrappedDataFormatValidity data total validBlobLengths = .ok () ↔
      ExactFormat total validBlobLengths data) ↔ ¬FewerParts total validBlobLengths data := by
  rw [hksCheckWrappedDataFormatValidity_iff]
  constructor
  case mp =>
    rintro h ⟨hne, hmax, parts, hparts, hlt, hmatch⟩
    have ⟨_, parts', hparts', heq, _⟩ := h.mp ⟨hne, hmax, htotal, parts, hparts, hmatch⟩
    rw [hparts.unique hparts'] at hlt
    omega
  case mpr =>
    intro hmany
    constructor
    case mp =>
      rintro ⟨hne, hmax, _, parts, hparts, hmatch⟩
      refine ⟨hmax, parts, hparts, ?_, hmatch⟩
      by_contra hlen
      exact hmany ⟨hne, hmax, parts, hparts, lt_of_le_of_ne hparts.length hlen, hmatch⟩
    case mpr =>
      rintro ⟨hmax, parts, hparts, hlen, hmatch⟩
      refine ⟨?_, hmax, htotal, parts, hparts, hmatch⟩
      rintro rfl
      have hnil : WrappedParts 0 [] [] := .nil
      rw [hparts.unique hnil] at hlen
      exact htotal hlen.symm

theorem access_iff (hindex : blobIndex < total) :
    PartRead data blobIndex (hksGetBlobFromWrappedDataAccess data blobIndex total) ↔
      PartsReadable data blobIndex := by
  by_cases hne : data = []
  case pos =>
    obtain ⟨total, rfl⟩ : ∃ n, total = n + 1 := ⟨total - 1, by omega⟩
    have ⟨hread, hreadable⟩ := partRead_of_unfit blobIndex total (.inl hne) (.inl (by rw [hne]; decide))
    refine iff_of_true ⟨?_, fun part => ?_⟩ hreadable
    · rw [hksGetBlobFromWrappedDataAccess, if_pos (.inl hne)]
      exact inside_throw _
    · rw [hksGetBlobFromWrappedDataAccess, if_pos (.inl hne), ← hread.result part, hne]
      cases blobIndex <;> exact ⟨nofun, nofun⟩
  case neg =>
    rw [hksGetBlobFromWrappedDataAccess, if_neg (by grind)]
    exact partRead_iff hindex

-- The check accepts exactly the format, and each part is read inside of the data, exactly where there
-- are not fewer parts and no length in front of the part misses a byte.
theorem wrappedFormat_iff (data : Bytes) (total blobIndex : Nat) (validBlobLengths : Option (Nat → UInt32)) :
    ((total ≠ 0 → (hksCheckWrappedDataFormatValidity data total validBlobLengths = .ok () ↔
        ExactFormat total validBlobLengths data)) ∧
      (blobIndex < total → PartRead data blobIndex (hksGetBlobFromWrappedDataAccess data blobIndex total))) ↔
    (total ≠ 0 → ¬FewerParts total validBlobLengths data) ∧
      (blobIndex < total → PartsReadable data blobIndex) := by
  refine and_congr (forall_congr' fun htotal => ?_) (forall_congr' fun hindex => ?_)
  · exact checkFormat_iff htotal
  · exact access_iff hindex

-- Two bytes of a length are read as four, and one part passes for two.
theorem wrappedFormat_violated :
    hksGetBlobFromWrappedDataAccess [1, 0] 0 1 = .error .outside ∧
    hksCheckWrappedDataFormatValidity [1, 0, 0, 0, 7] 2 none = .ok () ∧
    ¬ExactFormat 2 none [1, 0, 0, 0, 7] := by
  refine ⟨by decide, by decide, ?_⟩
  rintro ⟨_, parts, hparts, hlen, _⟩
  have hone : WrappedParts 1 [1, 0, 0, 0, 7] [[7]] := ⟨by decide, by decide, by decide, by decide⟩
  rw [hparts.unique hone] at hlen
  cases hlen

end Format

end Huks
