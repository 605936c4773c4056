import Huks.Common.Theorems.ParamImage
import Huks.Common.WrappedData

namespace Huks

-- A part as it lies in the wrapped data.
def wrapPart (part : Bytes) : Bytes := toBytes32 part.length.toUInt32 ++ part

-- The data is made of at most `total` parts, none of which is empty.
structure WrappedParts (total : Nat) (data : Bytes) (parts : List Bytes) : Prop where
  length   : parts.length ≤ total
  nonempty : ∀ part ∈ parts, part ≠ []
  small    : ∀ part ∈ parts, part.length < UInt32.size
  packed   : data = parts.flatMap wrapPart

-- Each length is the one of the table; `blobIndex` is the index of the first part.
def LengthsMatch (validBlobLengths : Option (Nat → UInt32)) (blobIndex : Nat) (parts : List Bytes) : Prop :=
  ∀ table, validBlobLengths = some table → ∀ i part, parts[i]? = some part →
    table (blobIndex + i) = part.length.toUInt32

theorem length_wrapPart (part : Bytes) : (wrapPart part).length = 4 + part.length := by
  rw [wrapPart, List.length_append]
  rfl

theorem le32_wrapPart_append {part : Bytes} (h : part.length < UInt32.size) (rest : Bytes) :
    (le32 (wrapPart part ++ rest)).toNat = part.length := by
  rw [wrapPart, List.append_assoc, le32_toBytes32_append, Nat.toUInt32, UInt32.toNat_ofNat']
  exact Nat.mod_eq_of_lt h

theorem drop_wrapPart_append (part rest : Bytes) :
    (wrapPart part ++ rest).drop (4 + part.length) = rest := by
  rw [← length_wrapPart, List.drop_left]

theorem take_drop_wrapPart_append (part rest : Bytes) :
    ((wrapPart part ++ rest).drop 4).take part.length = part := by
  rw [wrapPart, List.append_assoc]
  exact List.take_left

-- The data in front of what a length that fits leaves over is one part.
theorem wrapPart_of_le {data : Bytes} (hhead : 4 ≤ data.length)
    (hlen : (le32 data).toNat ≤ data.length - 4) :
    ∃ part : Bytes, part.length = (le32 data).toNat ∧
      data = wrapPart part ++ data.drop (4 + (le32 data).toNat) := by
  refine ⟨(data.drop 4).take (le32 data).toNat, by simpa using hlen, ?_⟩
  have hword : toBytes32 (le32 data) = data.take 4 := toBytes32_le32_take data hhead
  have hlen' : ((data.drop 4).take (le32 data).toNat).length.toUInt32 = le32 data := by
    rw [List.length_take, List.length_drop, Nat.min_eq_left hlen, Nat.toUInt32,
      UInt32.ofNat_toNat]
  rw [wrapPart, hlen', hword, ← List.drop_drop, List.append_assoc, List.take_append_drop,
    List.take_append_drop]

namespace WrappedParts

variable {total : Nat} {data part : Bytes} {parts : List Bytes}

theorem nil : WrappedParts total [] [] where
  length   := Nat.zero_le _
  nonempty := nofun
  small    := nofun
  packed   := rfl

theorem cons (h : WrappedParts total data parts) (hne : part ≠ [])
    (hsmall : part.length < UInt32.size) :
    WrappedParts (total + 1) (wrapPart part ++ data) (part :: parts) where
  length   := Nat.succ_le_succ h.length
  nonempty := List.forall_mem_cons.mpr ⟨hne, h.nonempty⟩
  small    := List.forall_mem_cons.mpr ⟨hsmall, h.small⟩
  packed   := by rw [h.packed, List.flatMap_cons]

theorem tail (h : WrappedParts (total + 1) data (part :: parts)) :
    WrappedParts total (parts.flatMap wrapPart) parts where
  length   := Nat.le_of_succ_le_succ h.length
  nonempty := (List.forall_mem_cons.mp h.nonempty).2
  small    := (List.forall_mem_cons.mp h.small).2
  packed   := rfl

theorem eq_append (h : WrappedParts total data (part :: parts)) :
    data = wrapPart part ++ parts.flatMap wrapPart := by
  rw [h.packed, List.flatMap_cons]

theorem head (h : WrappedParts total data (part :: parts)) :
    part ≠ [] ∧ part.length < UInt32.size :=
  ⟨h.nonempty part List.mem_cons_self, h.small part List.mem_cons_self⟩

end WrappedParts

section Lengths

variable {validBlobLengths : Option (Nat → UInt32)} {blobIndex : Nat} {part : Bytes} {parts : List Bytes}

theorem lengthsMatch_none : LengthsMatch none blobIndex parts := nofun

theorem lengthsMatch_cons : LengthsMatch validBlobLengths blobIndex (part :: parts) ↔
    validBlobLengths.any (· blobIndex ≠ part.length.toUInt32) = false ∧
      LengthsMatch validBlobLengths (blobIndex + 1) parts := by
  cases validBlobLengths
  case none => exact iff_of_true nofun ⟨rfl, nofun⟩
  case some table =>
    constructor
    case mp =>
      intro h
      refine ⟨by simpa using h table rfl 0 part rfl, fun t ht i p hp => ?_⟩
      rw [← h t ht (i + 1) p (by simpa using hp)]
      congr 1
      omega
    case mpr =>
      rintro ⟨hfirst, hrest⟩ t ht i p hp
      cases i
      case zero =>
        obtain rfl : part = p := by simpa using hp
        obtain rfl := Option.some.inj ht
        simpa using hfirst
      case succ i =>
        rw [← hrest t ht i p (by simpa using hp)]
        congr 1
        omega

end Lengths

section Check

variable {validBlobLengths : Option (Nat → UInt32)}

theorem checkParts_wrapPart {part : Bytes} {blobIndex : Nat} (hne : part ≠ [])
    (hsmall : part.length < UInt32.size) (count : Nat) (rest : Bytes) :
    checkParts validBlobLengths blobIndex (count + 1) (wrapPart part ++ rest) =
      if validBlobLengths.any (· blobIndex ≠ part.length.toUInt32) then .error .invalidWrappedFormat
      else checkParts validBlobLengths (blobIndex + 1) count rest := by
  have hle := le32_wrapPart_append hsmall rest
  have hlen : (wrapPart part ++ rest).length = 4 + part.length + rest.length := by
    rw [List.length_append, length_wrapPart]
  have hword : le32 (wrapPart part ++ rest) = part.length.toUInt32 := by
    rw [wrapPart, List.append_assoc, le32_toBytes32_append]
  have hpos : le32 (wrapPart part ++ rest) ≠ 0 := by
    intro h
    rw [h] at hle
    exact hne (List.length_eq_zero_iff.mp hle.symm)
  have hcons : wrapPart part ++ rest ≠ [] := by
    apply List.ne_nil_of_length_pos
    omega
  rw [checkParts.eq_3 _ _ _ _ (by simpa using hcons), if_neg (by omega),
    if_neg (by rw [hle]; rintro (h | h); exacts [hpos h, by omega]), hle, drop_wrapPart_append, hword]

theorem checkParts_eq_ok {blobIndex count : Nat} {data : Bytes} :
    checkParts validBlobLengths blobIndex count data = .ok () ↔
      ∃ parts, WrappedParts count data parts ∧ LengthsMatch validBlobLengths blobIndex parts := by
  constructor
  case mp =>
    intro h
    induction count generalizing blobIndex data
    case zero =>
      cases data
      case nil => exact ⟨[], .nil, nofun⟩
      case cons => nomatch h
    case succ count ih =>
      by_cases hnil : data = []
      case pos => exact ⟨[], hnil ▸ .nil, nofun⟩
      case neg =>
        by_cases hfits : data.length < 4 ∨ (le32 data = 0 ∨ (le32 data).toNat > data.length - 4)
        case pos =>
          rw [checkParts.eq_3 _ _ _ _ (by simpa using hnil)] at h
          split at h
          case isTrue => nomatch h
          case isFalse hhead => nomatch (if_pos (hfits.resolve_left hhead)).symm.trans h
        case neg =>
          have ⟨hhead, hfits⟩ := not_or.mp hfits
          have ⟨hpos, hle⟩ := not_or.mp hfits
          have ⟨part, hlen, hdata⟩ := wrapPart_of_le (by omega) (Nat.le_of_not_lt hle)
          have hne : part ≠ [] := by
            rintro rfl
            exact hpos (UInt32.toNat_inj.mp hlen.symm)
          have hsmall : part.length < UInt32.size := hlen ▸ UInt32.toNat_lt _
          rw [hdata, checkParts_wrapPart hne hsmall] at h
          split at h
          case isTrue => nomatch h
          case isFalse htable =>
            have ⟨parts, hparts, hmatch⟩ := ih h
            rw [hdata]
            exact ⟨_, hparts.cons hne hsmall, lengthsMatch_cons.mpr ⟨Bool.eq_false_iff.mpr htable, hmatch⟩⟩
  case mpr =>
    rintro ⟨parts, h, hmatch⟩
    induction parts generalizing blobIndex count data
    case nil =>
      rw [show data = [] from h.packed]
      cases count <;> rfl
    case cons part parts ih =>
      cases count
      case zero => exact absurd h.length (by simp)
      case succ count =>
        have ⟨hfirst, hmatch⟩ := lengthsMatch_cons.mp hmatch
        rw [h.eq_append, checkParts_wrapPart h.head.1 h.head.2, if_neg (Bool.eq_false_iff.mp hfirst)]
        exact ih h.tail hmatch

-- What the format check accepts are the non-empty sequences of at most `total` non-empty parts, with
-- the lengths of the table.
theorem hksCheckWrappedDataFormatValidity_iff {data : Bytes} {total : Nat} :
    hksCheckWrappedDataFormatValidity data total validBlobLengths = .ok () ↔
      data ≠ [] ∧ data.length ≤ hksWrappedFormatMaxSize ∧ total ≠ 0 ∧
        ∃ parts, WrappedParts total data parts ∧ LengthsMatch validBlobLengths 0 parts := by
  rw [hksCheckWrappedDataFormatValidity, ← checkParts_eq_ok]
  split
  case isTrue h => exact ⟨nofun, fun ⟨hdata, hlen, htotal, _⟩ => absurd h (by grind)⟩
  case isFalse h => exact ⟨fun hok => ⟨by grind, by grind, by grind, hok⟩, fun hok => hok.2.2.2⟩

end Check

-- Without a table.
theorem hksCheckWrappedDataFormatValidity_eq_ok {data : Bytes} {total : Nat} :
    hksCheckWrappedDataFormatValidity data total none = .ok () ↔
      data ≠ [] ∧ data.length ≤ hksWrappedFormatMaxSize ∧ total ≠ 0 ∧
        ∃ parts, WrappedParts total data parts := by
  simp only [hksCheckWrappedDataFormatValidity_iff, lengthsMatch_none, and_true]

-- The parts are read back one by one.
theorem getPart_eq {blobIndex count : Nat} {data : Bytes} {parts : List Bytes}
    (h : WrappedParts count data parts)
    (hmax : ∀ part ∈ parts, part.length ≤ hksWrappedFormatMaxSize) :
    getPart blobIndex count data = (parts[blobIndex]?).elim (.error .invalidWrappedFormat) .ok := by
  induction parts generalizing blobIndex count data
  case nil =>
    rw [show data = [] from h.packed]
    cases blobIndex <;> cases count <;> rfl
  case cons part parts ih =>
    cases count
    case zero => exact absurd h.length (by simp)
    case succ count =>
      have ⟨hne, hsmall⟩ := h.head
      have hle := le32_wrapPart_append hsmall (parts.flatMap wrapPart)
      have hpos : 0 < part.length := List.length_pos_of_ne_nil hne
      have hpart := hmax part List.mem_cons_self
      rw [← h.eq_append] at hle
      have hdata : data.length = 4 + part.length + (parts.flatMap wrapPart).length := by
        rw [h.eq_append, List.length_append, length_wrapPart]
      have hcons : data = [] → False := by
        rintro rfl
        exact absurd hdata (by simp; omega)
      cases blobIndex
      case zero =>
        rw [getPart.eq_3 _ _ hcons, hle, if_neg (by omega), if_neg (by omega), h.eq_append]
        exact congrArg _ (take_drop_wrapPart_append _ _)
      case succ blobIndex =>
        rw [getPart.eq_4 _ _ _ hcons, hle, if_neg (by omega), if_neg (by omega), h.eq_append,
          drop_wrapPart_append]
        exact ih h.tail fun _ hp => hmax _ (List.mem_cons_of_mem _ hp)

namespace WrappedParts

variable {total : Nat} {data part : Bytes} {parts : List Bytes}

theorem length_le (h : WrappedParts total data parts) (hmem : part ∈ parts) :
    part.length ≤ data.length := by
  have hsub : (wrapPart part).length ≤ data.length := by
    rw [h.packed]
    exact (List.sublist_flatten_of_mem (List.mem_map_of_mem hmem)).length_le
  rw [length_wrapPart] at hsub
  omega

end WrappedParts

theorem hksGetBlobFromWrappedData_eq {data : Bytes} {blobIndex total : Nat} {parts : List Bytes}
    (hdata : data ≠ []) (hsize : data.length ≤ hksWrappedFormatMaxSize)
    (h : WrappedParts total data parts) (hindex : blobIndex < total) :
    hksGetBlobFromWrappedData data blobIndex total =
      (parts[blobIndex]?).elim (.error .invalidWrappedFormat) .ok := by
  rw [hksGetBlobFromWrappedData, if_neg (by grind)]
  exact getPart_eq h fun _ hp => (h.length_le hp).trans hsize

end Huks
