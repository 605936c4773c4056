import Huks.Storage.FileName
import Huks.Storage.Theorems.Names

namespace Huks.InPlace

open EStateM OutBuffer

variable {b : UInt8} {blob : Bytes} {nameLen count : UInt32} {s : OutBuffer}

-- The bytes of an encoded name
def encodedName (blob : Bytes) : Bytes := (encodeName blob).map Char.toUInt8

@[simp]
theorem encodedName_nil : encodedName [] = [] := rfl

theorem encodedName_cons (b : UInt8) (blob : Bytes) :
    encodedName (b :: blob) = encodedName [b] ++ encodedName blob := by
  simp [encodedName]

theorem length_encodedName_single (b : UInt8) :
    1 ≤ (encodedName [b]).length ∧ (encodedName [b]).length ≤ 2 := by
  simpa [encodedName] using encodeByte_length b

-- What a name may hold: visible ASCII without the characters that a path or a shell reads.
def Plain (c : UInt8) : Prop := 0x20 ≤ c ∧ c ≤ '~'.toUInt8 ∧ c ∉ ":<>?\\|/".toList.map Char.toUInt8

instance (c : UInt8) : Decidable (Plain c) := inferInstanceAs (Decidable (_ ∧ _ ∧ _))

-- The 256 bytes one by one: what is written of a byte, and what is visible of that.
theorem encodedName_single (b : UInt8) :
    (encodedName [b]).map Char.ofUInt8 = encodeByte b ∧
      (encodedName [b] = if b < '0'.toUInt8 ∨ b > '~'.toUInt8 then
        ['+'.toUInt8 + (b >>> hksEncodeOffsetLen),
          constructInvalidCharacter ('0'.toUInt8 + (b &&& hksEncodeKeySaltValue))]
      else [constructInvalidCharacter b]) ∧
      (b < '0'.toUInt8 ∨ b > '~'.toUInt8 → Plain ('+'.toUInt8 + (b >>> hksEncodeOffsetLen)) ∧
        '0'.toUInt8 ≤ '0'.toUInt8 + (b &&& hksEncodeKeySaltValue) ∧
        '0'.toUInt8 + (b &&& hksEncodeKeySaltValue) ≤ '~'.toUInt8) ∧
      ('0'.toUInt8 ≤ b ∧ b ≤ '~'.toUInt8 → Plain (constructInvalidCharacter b)) := by
  revert b
  decide +kernel

theorem encodedName_chars (blob : Bytes) : (encodedName blob).map Char.ofUInt8 = encodeName blob := by
  induction blob
  case nil => rfl
  case cons b blob ih =>
    rw [encodedName_cons, List.map_append, (encodedName_single b).1, ih, encodeName_cons]

theorem encodedName_escaped (h : b < '0'.toUInt8 ∨ b > '~'.toUInt8) :
    encodedName [b] = ['+'.toUInt8 + (b >>> hksEncodeOffsetLen),
      constructInvalidCharacter ('0'.toUInt8 + (b &&& hksEncodeKeySaltValue))] :=
  (encodedName_single b).2.1.trans (if_pos h)

theorem encodedName_same (h : ¬(b < '0'.toUInt8 ∨ b > '~'.toUInt8)) :
    encodedName [b] = [constructInvalidCharacter b] :=
  (encodedName_single b).2.1.trans (if_neg h)

theorem plain_constructInvalidCharacter {c : UInt8} (h : '0'.toUInt8 ≤ c ∧ c ≤ '~'.toUInt8) :
    Plain (constructInvalidCharacter c) :=
  (encodedName_single c).2.2.2 h

-- Both halves of an escaped byte are visible, and the lower one is mapped like any other character.
theorem encodedName_plain_single (b : UInt8) : ∀ c ∈ encodedName [b], Plain c := by
  by_cases h : b < '0'.toUInt8 ∨ b > '~'.toUInt8
  case pos =>
    have ⟨hhigh, hlow⟩ := (encodedName_single b).2.2.1 h
    rw [encodedName_escaped h]
    simpa using ⟨hhigh, plain_constructInvalidCharacter hlow⟩
  case neg =>
    have hvisible : '0'.toUInt8 ≤ b ∧ b ≤ '~'.toUInt8 := by simpa using h
    rw [encodedName_same h]
    simpa using plain_constructInvalidCharacter hvisible

theorem encodedName_plain (blob : Bytes) : ∀ c ∈ encodedName blob, Plain c := by
  induction blob
  case nil => simp
  case cons b blob ih =>
    rw [encodedName_cons, List.forall_mem_append]
    exact ⟨encodedName_plain_single b, ih⟩

theorem elemAt_splice {l m : Bytes} {i k : Nat} (hi : i + m.length ≤ l.length) (hk : k < m.length) :
    (elemAt (splice l i m) (i + k) : Except (Stop HksErrorCode) UInt8) = .ok m[k] := by
  have hlen : (l.take i).length = i := by
    rw [List.length_take]
    omega
  rw [elemAt_eq (by rw [length_splice hi]; omega)]
  simp only [splice, List.append_assoc]
  rw [List.getElem_append_right (by omega), List.getElem_append_left (by omega)]
  simp only [hlen, Nat.add_sub_cancel_left]

-- The last character that was written is mapped in its place.
theorem mapLast_run {i : Nat} {front : Bytes} {c : UInt8} {count r : UInt32}
    (hi : i + front.length + 1 ≤ s.room.length) (hcount : count.toNat = i + front.length) :
    (do let last ← reading (elemAt (← get).room count.toNat)
        writeAt count.toNat [constructInvalidCharacter last]
        return r : OutM HksErrorCode UInt32).run { s with room := splice s.room i (front ++ [c]) } =
      .ok r { s with room := splice s.room i (front ++ [constructInvalidCharacter c]) } := by
  have hlen : (front ++ [c]).length = front.length + 1 := List.length_append
  have hmid : splice (front ++ [c]) front.length [constructInvalidCharacter c] =
      front ++ [constructInvalidCharacter c] := by
    simpa using @splice_middle _ front [c] [constructInvalidCharacter c] [] rfl
  rw [run_bind, run_get]
  dsimp only
  rw [hcount, elemAt_splice (by omega) (by omega)]
  simp only [List.getElem_concat_length, reading]
  have hroom : i + front.length + 1 ≤ (splice s.room i (front ++ [c])).length := by
    rw [length_splice (by omega)]
    exact hi
  rw [ofExcept_ok_bind, run_bind, writeAt_run (.inr hroom)]
  dsimp only
  rw [splice_splice (by omega) (by rw [List.length_singleton]; omega), hmid]
  rfl

-- One round writes one encoded byte.
theorem constructNextCharacter_run (hroom : count.toNat + (encodedName [b]).length ≤ s.room.length)
    (hsmall : s.room.length < UInt32.size) : (constructNextCharacter b count).run s =
      .ok (count + (encodedName [b]).length.toUInt32)
        { s with room := splice s.room count.toNat (encodedName [b]) } := by
  rw [constructNextCharacter]
  by_cases h : b < '0'.toUInt8 ∨ b > '~'.toUInt8
  case pos =>
    rw [encodedName_escaped h] at hroom ⊢
    rw [if_pos h]
    generalize '+'.toUInt8 + (b >>> hksEncodeOffsetLen) = high at hroom ⊢
    generalize '0'.toUInt8 + (b &&& hksEncodeKeySaltValue) = low at hroom ⊢
    have hroom : count.toNat + 1 + 1 ≤ s.room.length := hroom
    have hnext : (count + 1).toNat = count.toNat + 1 := toNat_add_of_lt (by change _ + 1 < _; omega)
    have hsub : count + 2 - 1 = count + 1 := by grind
    have hlow : (splice s.room count.toNat [high]).length = s.room.length :=
      length_splice (by rw [List.length_singleton]; omega)
    have happend : splice (splice s.room count.toNat [high]) (count.toNat + 1) [low] =
        splice s.room count.toNat [high, low] :=
      @splice_append _ s.room [high] _ [low] (by rw [List.length_singleton]; omega)
    rw [run_bind, writeAt_run (.inr (by rw [List.length_singleton]; omega))]
    dsimp only
    rw [run_bind, hnext, writeAt_run (.inr (by dsimp only; rw [hlow, List.length_singleton]; omega))]
    dsimp only
    rw [happend, pure_bind, hsub]
    exact @mapLast_run _ _ [high] _ _ _ hroom hnext
  case neg =>
    rw [encodedName_same h] at hroom ⊢
    have hroom : count.toNat + 1 ≤ s.room.length := hroom
    have hsub : count + 1 - 1 = count := UInt32.add_sub_cancel _ _
    rw [if_neg h, run_bind, writeAt_run (.inr (by rw [List.length_singleton]; omega))]
    dsimp only
    rw [pure_bind, hsub]
    exact @mapLast_run _ _ [] _ _ _ hroom rfl

-- The limit is tested in front of every byte, so that only the last one can reach the end of the room.
def Admitted (blob : Bytes) (count nameLen : Nat) : Prop :=
  blob = [] ∨ count + (encodedName blob.dropLast).length < nameLen - 1

theorem admitted_cons {count nameLen : Nat} : Admitted (b :: blob) count nameLen ↔
    count < nameLen - 1 ∧ Admitted blob (count + (encodedName [b]).length) nameLen := by
  cases blob
  case nil => simp [Admitted]
  case cons c blob =>
    simp only [Admitted, List.dropLast_cons_cons, reduceCtorEq, false_or]
    rw [encodedName_cons, List.length_append]
    omega

theorem full_iff (hmin : 1 < nameLen.toNat) : count ≥ nameLen - 1 ↔ ¬count.toNat < nameLen.toNat - 1 := by
  have hle : (1 : UInt32) ≤ nameLen := UInt32.le_iff_toNat_le.mpr (by change 1 ≤ _; omega)
  rw [ge_iff_le, UInt32.le_iff_toNat_le, UInt32.toNat_sub_of_le _ _ hle]
  exact Nat.not_lt.symm

section

variable (hlen : s.room.length = nameLen.toNat) (hmin : 1 < nameLen.toNat)

include hlen hmin

theorem constructNextCharacter_fits (hlt : count.toNat < nameLen.toNat - 1) :
    (constructNextCharacter b count).run s = .ok (count + (encodedName [b]).length.toUInt32)
        { s with room := splice s.room count.toNat (encodedName [b]) } ∧
      (count + (encodedName [b]).length.toUInt32).toNat = count.toNat + (encodedName [b]).length ∧
      (splice s.room count.toNat (encodedName [b])).length = nameLen.toNat := by
  obtain ⟨hpos, hle⟩ := length_encodedName_single b
  have hsmall := nameLen.toNat_lt
  have hnext : (encodedName [b]).length.toUInt32.toNat = (encodedName [b]).length :=
    Nat.mod_eq_of_lt (by omega)
  refine ⟨constructNextCharacter_run (by omega) (by rw [UInt32.size]; omega), ?_, ?_⟩
  · rw [toNat_add_of_lt, hnext]
    rw [hnext, UInt32.size]
    omega
  · rw [length_splice (by omega), hlen]

theorem constructCharacters_run (h : Admitted blob count.toNat nameLen.toNat) :
    (constructCharacters nameLen blob count).run s =
      .ok ⟨⟩ { s with room := splice s.room count.toNat (encodedName blob) } := by
  induction blob generalizing count s
  case nil =>
    rw [encodedName_nil, splice_nil]
    rfl
  case cons b blob ih =>
    obtain ⟨hlt, hrest⟩ := admitted_cons.mp h
    obtain ⟨hrun, hcount, hroom⟩ := constructNextCharacter_fits hlen hmin hlt
    rw [constructCharacters, if_neg fun hge => (full_iff hmin).mp hge hlt, run_bind, hrun]
    dsimp only
    rw [ih hroom (hcount ▸ hrest)]
    dsimp only
    rw [hcount, splice_append, ← encodedName_cons]
    have := (length_encodedName_single b).2
    omega

theorem constructCharacters_refused (h : ¬Admitted blob count.toNat nameLen.toNat) :
    ∃ t, (constructCharacters nameLen blob count).run s = .error (.error .insufficientData) t := by
  induction blob generalizing count s
  case nil => exact absurd (.inl rfl) h
  case cons b blob ih =>
    rw [constructCharacters]
    by_cases hlt : count.toNat < nameLen.toNat - 1
    case neg =>
      rw [if_pos ((full_iff hmin).mpr hlt)]
      exact ⟨s, rfl⟩
    case pos =>
      obtain ⟨hrun, hcount, hroom⟩ := constructNextCharacter_fits hlen hmin hlt
      rw [if_neg fun hge => (full_iff hmin).mp hge hlt, run_bind, hrun]
      exact ih hroom (hcount ▸ fun hrest => h (admitted_cons.mpr ⟨hlt, hrest⟩))

end

-- `ConstructBlob`

theorem elemAt_behind {n : Nat} (front : Bytes) (c : UInt8) (rest : Bytes) (hn : rest.length = n) :
    (elemAt (front ++ c :: rest) ((front ++ c :: rest).length - (n + 1)) :
      Except (Stop HksErrorCode) UInt8) = .ok c := by
  have hi : (front ++ c :: rest).length - (n + 1) = front.length := by simp [← hn]
  rw [hi, elemAt_eq (by simp)]
  simp

theorem escape_iff (c : UInt8) : ('+'.toUInt8 ≤ c ∧ c ≤ '.'.toUInt8) ↔
    '+' ≤ Char.ofUInt8 c ∧ Char.ofUInt8 c ≤ '.' := by
  rw [Char.le_def, Char.le_def, UInt8.le_iff_toNat_le, UInt8.le_iff_toNat_le, UInt32.le_iff_toNat_le,
    UInt32.le_iff_toNat_le]
  exact Iff.rfl

theorem ofUInt8_toUInt8 (c : UInt8) : (Char.ofUInt8 c).toUInt8 = c := UInt8.toUInt8_toUInt32 c

-- One step of the loop, with the characters in front of it.
theorem resumeCharacters_same {front rest : Bytes} {c : UInt8} (h : ¬('+'.toUInt8 ≤ c ∧ c ≤ '.'.toUInt8)) :
    resumeCharacters (front ++ c :: rest) (rest.length + 1) count = (do
      writeAt count.toNat [resumeInvalidCharacter c]
      resumeCharacters (front ++ [c] ++ rest) rest.length (count + 1)) := by
  rw [resumeCharacters.eq_def]
  dsimp only
  rw [elemAt_behind front c rest rfl, reading, ofExcept_ok_bind, if_neg h, List.append_assoc]
  rfl

theorem resumeCharacters_cut {front : Bytes} {c : UInt8} (h : '+'.toUInt8 ≤ c ∧ c ≤ '.'.toUInt8) :
    resumeCharacters (front ++ [c]) 1 count = refuse .invalidKeyFile := by
  rw [resumeCharacters.eq_def]
  dsimp only
  rw [@elemAt_behind 0 front c [] rfl, reading, ofExcept_ok_bind, if_pos h]

theorem resumeCharacters_escaped {front rest : Bytes} {c d : UInt8}
    (h : '+'.toUInt8 ≤ c ∧ c ≤ '.'.toUInt8) :
    resumeCharacters (front ++ c :: d :: rest) (rest.length + 2) count = (do
      writeAt count.toNat
        [((c - '+'.toUInt8) <<< hksEncodeOffsetLen) + (resumeInvalidCharacter d - '0'.toUInt8)]
      resumeCharacters (front ++ [c, d] ++ rest) rest.length (count + 1)) := by
  have hd := elemAt_behind (front ++ [c]) d rest rfl
  rw [List.append_assoc, List.singleton_append] at hd
  rw [resumeCharacters.eq_def]
  dsimp only
  rw [@elemAt_behind (rest.length + 1) front c (d :: rest) rfl, reading, ofExcept_ok_bind, if_pos h,
    hd, reading, ofExcept_ok_bind, List.append_assoc]
  rfl

-- What a step says of the rest of the name goes over to the whole of it.
theorem decodeName_same {rest : Bytes} {c : UInt8} (h : ¬('+'.toUInt8 ≤ c ∧ c ≤ '.'.toUInt8)) :
    decodeName ((c :: rest).map Char.ofUInt8) =
      (decodeName (rest.map Char.ofUInt8)).map (resumeInvalidCharacter c :: ·) := by
  rw [List.map_cons, decodeName.eq_def]
  dsimp only
  rw [if_neg (mt (escape_iff c).mpr h), resumeInvalidCharacter]
  cases decodeName (rest.map Char.ofUInt8) <;> rfl

theorem decodeName_escaped {rest : Bytes} {c d : UInt8} (h : '+'.toUInt8 ≤ c ∧ c ≤ '.'.toUInt8) :
    decodeName ((c :: d :: rest).map Char.ofUInt8) = (decodeName (rest.map Char.ofUInt8)).map
      ((((c - '+'.toUInt8) <<< hksEncodeOffsetLen) + (resumeInvalidCharacter d - '0'.toUInt8)) :: ·) := by
  rw [List.map_cons, List.map_cons, decodeName.eq_def]
  dsimp only
  rw [if_pos ((escape_iff c).mp h), ofUInt8_toUInt8]
  cases decodeName (rest.map Char.ofUInt8) <;> rfl

-- The loop has room for a byte for every character that is left.
theorem resumeCharacters_inside (front rest : Bytes) (hroom : count.toNat + rest.length ≤ s.room.length)
    (hsmall : s.room.length < UInt32.size) :
    Contained (fun c t => t.room.length = s.room.length ∧ c.toNat ≤ s.room.length)
      (resumeCharacters (front ++ rest) rest.length count) s := by
  induction hn : rest.length using Nat.strong_induction_on generalizing front rest count s
  case h n ih =>
  subst hn
  have hstep {front rest' : Bytes} {b : UInt8} (hlt : rest'.length < rest.length) :
      Contained (fun c t => t.room.length = s.room.length ∧ c.toNat ≤ s.room.length) (do
        writeAt count.toNat [b]
        resumeCharacters (front ++ rest') rest'.length (count + 1)) s := by
    have hcount : (count + 1).toNat = count.toNat + 1 := toNat_add_of_lt (by change _ + 1 < _; omega)
    have hlen : (splice s.room count.toNat [b]).length = s.room.length :=
      length_splice (by rw [List.length_singleton]; omega)
    rw [contained_bind, contained_writeAt]
    refine ⟨.inr (by rw [List.length_singleton]; omega), ?_⟩
    rw [← hlen] at hsmall ⊢
    exact ih _ hlt front rest' (by rw [hcount, hlen]; omega) hsmall rfl
  cases rest
  case nil => exact ⟨rfl, hroom⟩
  case cons c rest =>
    by_cases h : '+'.toUInt8 ≤ c ∧ c ≤ '.'.toUInt8
    case neg =>
      rw [List.length_cons, resumeCharacters_same h]
      exact hstep (Nat.lt_succ_self _)
    case pos =>
      cases rest
      case nil =>
        rw [List.length_singleton, resumeCharacters_cut h]
        exact contained_refuse _
      case cons d rest =>
        rw [List.length_cons, List.length_cons, resumeCharacters_escaped h]
        exact hstep (Nat.lt_succ_of_lt (Nat.lt_succ_self _))

-- A name that decodes is read back character by character.
theorem resumeCharacters_run {front rest bytes : Bytes}
    (hdecodes : decodeName (rest.map Char.ofUInt8) = .ok bytes)
    (hroom : count.toNat + rest.length ≤ s.room.length) (hsmall : s.room.length < UInt32.size) :
    (resumeCharacters (front ++ rest) rest.length count).run s =
        .ok (count + bytes.length.toUInt32) { s with room := splice s.room count.toNat bytes } ∧
      bytes.length ≤ rest.length := by
  induction hn : rest.length using Nat.strong_induction_on generalizing front rest bytes count s
  case h n ih =>
  subst hn
  have hstep {front rest' bytes : Bytes} {b : UInt8} (hlt : rest'.length < rest.length)
      (hdecodes : decodeName (rest'.map Char.ofUInt8) = .ok bytes) :
      (do writeAt count.toNat [b]
          resumeCharacters (front ++ rest') rest'.length (count + 1) : OutM HksErrorCode UInt32).run s =
          .ok (count + (b :: bytes).length.toUInt32) { s with room := splice s.room count.toNat (b :: bytes) } ∧
        (b :: bytes).length ≤ rest.length := by
    have hone : count.toNat + [b].length ≤ s.room.length := by rw [List.length_singleton]; omega
    have hcount : (count + 1).toNat = count.toNat + [b].length := toNat_add_of_lt (by change _ + 1 < _; omega)
    have hlen : (splice s.room count.toNat [b]).length = s.room.length := length_splice hone
    obtain ⟨hrun, hle⟩ := @ih _ hlt (count + 1) { s with room := splice s.room count.toNat [b] } front rest' bytes
      hdecodes (by dsimp only; rw [hcount, hlen, List.length_singleton]; omega) (by rwa [hlen]) rfl
    refine ⟨?_, by rw [List.length_cons]; omega⟩
    rw [run_bind, writeAt_run (.inr hone)]
    dsimp only
    rw [hrun]
    dsimp only
    have hsize : (bytes.length + 1).toUInt32 = bytes.length.toUInt32 + 1 := UInt32.ofNat_add _ 1
    rw [hcount, splice_append hone, List.singleton_append, List.length_cons, hsize,
      UInt32.add_assoc count, UInt32.add_comm 1]
  cases rest
  case nil =>
    cases hdecodes
    refine ⟨?_, Nat.le_refl _⟩
    rw [splice_nil]
    exact congrArg (Result.ok · s) (UInt32.add_zero count).symm
  case cons c rest =>
    by_cases h : '+'.toUInt8 ≤ c ∧ c ≤ '.'.toUInt8
    case neg =>
      rw [decodeName_same h] at hdecodes
      obtain ⟨bytes, hrest, rfl⟩ := Except.map_eq_ok.mp hdecodes
      rw [List.length_cons, resumeCharacters_same h]
      exact hstep (Nat.lt_succ_self _) hrest
    case pos =>
      cases rest
      case nil =>
        rw [List.map_singleton, decodeName, if_pos ((escape_iff c).mp h)] at hdecodes
        cases hdecodes
      case cons d rest =>
        rw [decodeName_escaped h] at hdecodes
        obtain ⟨bytes, hrest, rfl⟩ := Except.map_eq_ok.mp hdecodes
        rw [List.length_cons, List.length_cons, resumeCharacters_escaped h]
        exact hstep (Nat.lt_succ_of_lt (Nat.lt_succ_self _)) hrest

-- Whatever the name, `ConstructBlob` stays in its buffers.
theorem constructBlob_inside (src : Bytes) (dest : Destination) :
    Contained (fun _ t => t.room.length = dest.out.room.length) (constructBlob src) dest.out := by
  rw [constructBlob, contained_ite]
  refine ⟨fun _ => contained_refuse _, fun hm => ?_⟩
  have hmalloc := mallocOk_iff.mp (not_not.mp hm)
  have hsmall : src.length < UInt32.size := by
    rw [UInt32.size]
    omega
  rw [contained_bind, contained_onBlock]
  have hblock : (List.replicate src.length (0 : UInt8)).length = src.length := List.length_replicate
  refine (@resumeCharacters_inside 0 ⟨_, _⟩ [] src ?_ ?_).mono ?_
  · dsimp only
    rw [hblock]
    exact Nat.le_of_eq (Nat.zero_add _)
  · dsimp only
    rwa [hblock]
  · rintro count t ⟨hlen, hcount⟩
    dsimp only at hlen hcount
    dsimp only
    rw [contained_bind, contained_get, contained_ite]
    refine ⟨fun _ => contained_refuse _, fun _ => ?_⟩
    rw [contained_bind, contained_reading, confined_readAt, contained_bind, contained_get, contained_bind]
    rw [contained_discard]
    exact ⟨.inr (by omega), contained_memcpyInto_room dest.room
      (fun hle => length_splice (by rw [dest.room]; omega)) fun t ht _ => ht⟩

-- The name that `blob` has gives its bytes back in every blob of sufficient size, which is one that
-- `memcpy_s` copies to.
def Recovers (blob name : Bytes) : Prop :=
  blob.length ≤ secureMemMaxLen ∧ ∀ dest : Destination,
    blob.length ≤ dest.out.size.toNat → dest.out.size.toNat ≤ secureMemMaxLen →
      ∃ t, (constructBlob name).run dest.out = .ok ⟨⟩ t ∧ t.size.toNat = blob.length ∧
        t.room.take blob.length = blob

theorem le_length_encodedName (blob : Bytes) : blob.length ≤ (encodedName blob).length := by
  induction blob
  case nil => exact Nat.le_refl _
  case cons b blob ih =>
    have := (length_encodedName_single b).1
    rw [encodedName_cons, List.length_append, List.length_cons]
    omega

theorem recovers_iff (blob : Bytes) : Recovers blob (encodedName blob) ↔ mallocOk (encodedName blob).length := by
  have hlen := le_length_encodedName blob
  constructor
  case mp =>
    rintro ⟨hmax, h⟩
    -- Some blob takes the bytes, and the program returns.
    have hsize : blob.length.toUInt32.toNat = blob.length :=
      Nat.mod_eq_of_lt (by rw [secureMemMaxLen] at hmax; omega)
    obtain ⟨t, hrun, _⟩ := h ⟨⟨.replicate blob.length 0, blob.length.toUInt32⟩, by
      dsimp only
      rw [List.length_replicate, hsize]⟩ (Nat.le_of_eq hsize.symm) (by rwa [hsize])
    by_contra hm
    rw [constructBlob, if_pos hm] at hrun
    cases hrun
  case mpr =>
    intro hm
    have hmalloc := mallocOk_iff.mp hm
    have hsmall : (encodedName blob).length < UInt32.size := by
      rw [UInt32.size]
      omega
    have hcount : (0 + blob.length.toUInt32).toNat = blob.length := by
      rw [UInt32.zero_add]
      exact Nat.mod_eq_of_lt (by rw [UInt32.size] at hsmall; omega)
    have hblock : (List.replicate (encodedName blob).length (0 : UInt8)).length = (encodedName blob).length :=
      List.length_replicate
    refine ⟨by rw [secureMemMaxLen]; omega, fun dest hfits hmax => ?_⟩
    obtain ⟨hrun, _⟩ := @resumeCharacters_run 0 ⟨.replicate (encodedName blob).length 0,
      (List.replicate (encodedName blob).length (0 : UInt8)).length.toUInt32⟩ [] (encodedName blob) blob
      (by rw [encodedName_chars, decodeName_encodeName])
      (by dsimp only; rw [hblock]; exact Nat.le_of_eq (Nat.zero_add _))
      (by dsimp only; rwa [hblock])
    rw [List.nil_append] at hrun
    have hne : 0 < blob.length := by
      cases blob
      case nil => exact absurd hmalloc.1 (by decide)
      case cons => exact Nat.succ_pos _
    have hread : (readAt (splice (.replicate (encodedName blob).length 0) 0 blob) 0 blob.length :
        Except (Stop HksErrorCode) Bytes) = .ok blob :=
      readAt_eq_ok.mpr ⟨.inr (by rw [length_splice (by omega)]; omega), slice_splice (Nat.zero_le _)⟩
    refine ⟨⟨splice dest.out.room 0 blob, 0 + blob.length.toUInt32⟩, ?_, hcount, ?_⟩
    · rw [constructBlob, if_neg (not_not.mpr hm), run_bind, onBlock_run hrun]
      dsimp only
      rw [run_bind, run_get]
      dsimp only
      rw [if_neg (by rw [UInt32.lt_iff_toNat_lt, hcount]; omega), hcount, UInt32.toNat_zero, run_bind,
        reading_run hread]
      dsimp only
      rw [run_bind, run_get]
      dsimp only
      rw [run_bind, run_discard, memcpyInto_run ⟨by omega, hmax⟩ hfits (.inr (by rw [dest.room]; omega))]
      rfl
    · rw [splice, List.take_zero, List.nil_append, List.take_left]

-- What `ConstructName` leaves in its buffer, up to the terminator
def nameOf (room : Bytes) : Bytes := room.takeWhile (· ≠ 0)

def NameHolds (blob : Bytes) (nameLen : UInt32) : Prop :=
  Contained (fun _ t => 0 ∈ t.room ∧ (∀ c ∈ nameOf t.room, Plain c) ∧ Recovers blob (nameOf t.room))
    (constructName blob nameLen) ⟨.replicate nameLen.toNat 0, nameLen⟩

-- How many characters a blob takes
def encodedLen (blob : Bytes) : Nat := (blob.map fun b => if b < '0'.toUInt8 ∨ b > '~'.toUInt8 then 2 else 1).sum

theorem length_encodedName_eq (blob : Bytes) : (encodedName blob).length = encodedLen blob := by
  induction blob
  case nil => rfl
  case cons b blob ih =>
    have hb : (encodedName [b]).length = if b < '0'.toUInt8 ∨ b > '~'.toUInt8 then 2 else 1 := by
      rw [(encodedName_single b).2.1]
      split
      case isTrue => rfl
      case isFalse => rfl
    rw [encodedName_cons, List.length_append, hb, ih]
    rfl

-- The characters of all bytes but the last one leave a place for one character and the terminator.
-- Then the last byte has to leave its place to the terminator too, and `HksMalloc` needs a block for
-- the name.
def NameFits (blob : Bytes) (nameLen : Nat) : Prop :=
  1 < nameLen → blob ≠ [] ∧
    (encodedLen blob.dropLast < nameLen - 1 → encodedLen blob < nameLen ∧ encodedLen blob ≤ 0x800000)

instance (blob : Bytes) (nameLen : Nat) : Decidable (NameFits blob nameLen) :=
  inferInstanceAs (Decidable (_ → _ ∧ (_ → _)))

theorem nameOf_fits {name : Bytes} {n : Nat} (hplain : ∀ c ∈ name, Plain c) (hn : 0 < n) :
    0 ∈ name ++ List.replicate n 0 ∧ nameOf (name ++ List.replicate n 0) = name := by
  have hne : ∀ c ∈ name, decide (c ≠ 0) = true := by
    intro c hc
    apply decide_eq_true
    rintro rfl
    exact absurd (hplain 0 hc) (by decide)
  obtain ⟨n, rfl⟩ := Nat.exists_eq_succ_of_ne_zero hn.ne'
  refine ⟨by simp, ?_⟩
  rw [nameOf, List.takeWhile_append_of_pos hne]
  simp [List.replicate_succ]

theorem admitted_length {nameLen : Nat} (hmin : 1 < nameLen) (h : Admitted blob 0 nameLen) :
    (encodedName blob).length ≤ nameLen := by
  induction blob using List.reverseRecOn
  case nil => exact Nat.zero_le _
  case append_singleton blob b _ =>
    have hb := (length_encodedName_single b).2
    have happend : encodedName (blob ++ [b]) = encodedName blob ++ encodedName [b] := by simp [encodedName, encodeName]
    rw [Admitted, List.dropLast_concat] at h
    rw [happend, List.length_append]
    have hlt := h.resolve_left (by simp)
    omega

theorem mallocOk_encodedName (blob : Bytes) :
    mallocOk (encodedName blob).length ↔ blob ≠ [] ∧ (encodedName blob).length ≤ 0x800000 := by
  have hlen := le_length_encodedName blob
  rw [mallocOk_iff]
  cases blob
  case nil => simp
  case cons b blob =>
    rw [List.length_cons] at hlen
    exact ⟨fun h => ⟨List.cons_ne_nil _ _, h.2⟩, fun h => ⟨by omega, h.2⟩⟩

theorem nameHolds_iff (blob : Bytes) (nameLen : UInt32) : NameHolds blob nameLen ↔ NameFits blob nameLen.toNat := by
  have hlen : (List.replicate nameLen.toNat (0 : UInt8)).length = nameLen.toNat := List.length_replicate
  rw [NameHolds, constructName, contained_ite, NameFits]
  simp only [← length_encodedName_eq]
  by_cases hmin : nameLen ≤ 1
  case pos =>
    have hmin' : nameLen.toNat ≤ 1 := UInt32.le_iff_toNat_le.mp hmin
    exact iff_of_true ⟨fun _ => contained_refuse _, fun h => absurd hmin h⟩ fun h => absurd h (by omega)
  case neg =>
    have hmin' : 1 < nameLen.toNat := Nat.lt_of_not_le fun h => hmin (UInt32.le_iff_toNat_le.mpr h)
    rw [and_iff_right fun h => absurd h hmin, forall_prop_of_true hmin, forall_prop_of_true hmin']
    by_cases ha : Admitted blob 0 nameLen.toNat
    case neg =>
      obtain ⟨t, hrun⟩ := @constructCharacters_refused blob nameLen 0 ⟨_, nameLen⟩ hlen hmin' ha
      rw [Contained, hrun]
      rw [Admitted, not_or, Nat.zero_add] at ha
      exact iff_of_true trivial ⟨ha.1, fun h => absurd h ha.2⟩
    case pos =>
      have hfits := admitted_length hmin' ha
      have hrun := @constructCharacters_run blob nameLen 0 ⟨_, nameLen⟩ hlen hmin' ha
      have hroom : splice (.replicate nameLen.toNat 0) (0 : UInt32).toNat (encodedName blob) =
          encodedName blob ++ .replicate (nameLen.toNat - (encodedName blob).length) 0 := by
        simp [splice, List.drop_replicate]
      rw [Contained, hrun]
      dsimp only
      rw [hroom]
      rw [Admitted, Nat.zero_add] at ha
      by_cases hlt : (encodedName blob).length < nameLen.toNat
      case pos =>
        obtain ⟨hmem, hname⟩ := nameOf_fits (encodedName_plain blob) (Nat.sub_pos_of_lt hlt)
        rw [hname, recovers_iff, and_iff_right hmem, and_iff_right (encodedName_plain blob),
          mallocOk_encodedName, and_congr_right_iff]
        intro hne
        rw [forall_prop_of_true (ha.resolve_left hne), and_iff_right hlt]
      case neg =>
        -- The last byte took the place of the terminator.
        have hfull : nameLen.toNat - (encodedName blob).length = 0 := by omega
        rw [hfull, List.replicate_zero, List.append_nil]
        refine iff_of_false (fun h => ?_) fun h => hlt (h.2 (ha.resolve_left h.1)).1
        exact absurd (encodedName_plain blob 0 h.1) (by decide)

-- Two blobs do not give one name.
theorem Recovers.unique {blob' name : Bytes} (h : Recovers blob name) (h' : Recovers blob' name) : blob = blob' := by
  -- A blob that both of them fit in
  let n := max blob.length blob'.length
  have hmax : n ≤ secureMemMaxLen := max_le h.1 h'.1
  have hsize : n.toUInt32.toNat = n := Nat.mod_eq_of_lt (by rw [secureMemMaxLen] at hmax; omega)
  let dest : Destination := ⟨⟨.replicate n 0, n.toUInt32⟩, by rw [List.length_replicate, hsize]⟩
  have hfits : dest.out.size.toNat = n := hsize
  obtain ⟨t, hrun, hlen, hroom⟩ := h.2 dest (hfits ▸ le_max_left _ _) (hfits ▸ hmax)
  obtain ⟨t', hrun', hlen', hroom'⟩ := h'.2 dest (hfits ▸ le_max_right _ _) (hfits ▸ hmax)
  rw [hrun] at hrun'
  obtain rfl : t = t' := by simpa using hrun'
  rw [← hroom, ← hroom', ← hlen, ← hlen']

-- A name comes back exactly where its characters leave a place for the terminator; no two blobs share
-- one, and no string makes `ConstructBlob` leave its buffers.
theorem fileName_iff (blob : Bytes) (nameLen : UInt32) :
    (NameHolds blob nameLen ↔ NameFits blob nameLen.toNat) ∧
      (∀ blob' name, Recovers blob name → Recovers blob' name → blob = blob') ∧
      ∀ src (dest : Destination),
        Contained (fun _ t => t.room.length = dest.out.room.length) (constructBlob src) dest.out :=
  ⟨nameHolds_iff blob nameLen, fun _ _ => Recovers.unique, constructBlob_inside⟩

-- The byte 0 takes two characters, and a buffer of two has no place for the terminator.
theorem fileName_unterminated : ¬NameHolds [0] 2 := by
  rw [nameHolds_iff]
  decide

end Huks.InPlace
