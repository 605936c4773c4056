import Huks.Common.Theorems.Words
import Huks.Storage.StorageUtils
import Mathlib.Data.FinEnum

namespace Huks

-- What `ConstructName` writes when there is room.
def encodeName (blob : Bytes) : Path := blob.flatMap encodeByte

@[simp]
theorem encodeName_nil : encodeName [] = [] := rfl

@[simp]
theorem encodeName_cons (b : UInt8) (blob : Bytes) :
    encodeName (b :: blob) = encodeByte b ++ encodeName blob := rfl

theorem encodeByte_length (b : UInt8) : 1 ≤ (encodeByte b).length ∧ (encodeByte b).length ≤ 2 := by
  rw [encodeByte]
  split <;> simp

theorem encodeName_length (blob : Bytes) : (encodeName blob).length ≤ 2 * blob.length := by
  induction blob
  case nil => simp
  case cons b blob ih =>
    have := encodeByte_length b
    simp only [encodeName_cons, List.length_append, List.length_cons]
    omega

theorem encodeName_eq_nil {blob : Bytes} : encodeName blob = [] ↔ blob = [] := by
  cases blob
  case nil => simp
  case cons b blob =>
    have := encodeByte_length b
    simp only [encodeName_cons, List.append_eq_nil_iff, reduceCtorEq, iff_false]
    rintro ⟨h, -⟩
    simp [h] at this

-- The letters of an encoded byte: no separator, and a dot only in front of another letter.
theorem encodeByte_letters (b : UInt8) :
    '/' ∉ encodeByte b ∧ (encodeByte b).getLast? ≠ some '.' ∧ encodeByte b ≠ [] := by
  revert b
  decide +kernel

theorem slash_notMem_encodeName (blob : Bytes) : '/' ∉ encodeName blob := by
  rw [encodeName, List.mem_flatMap]
  exact fun ⟨b, _, hb⟩ => (encodeByte_letters b).1 hb

theorem encodeName_getLast (blob : Bytes) : (encodeName blob).getLast? ≠ some '.' := by
  induction blob using List.reverseRecOn
  case nil => simp
  case append_singleton blob b _ =>
    have ⟨_, hlast, hne⟩ := encodeByte_letters b
    rwa [encodeName, List.flatMap_append, List.flatMap_singleton, List.getLast?_append_of_ne_nil _ hne]

-- One step of `ConstructBlob` reads one encoded byte.
theorem encodeByte_decodes (b : UInt8) :
    (∃ c, encodeByte b = [c] ∧ ¬('+' ≤ c ∧ c ≤ '.') ∧ (resumeInvalidCharacter c).toUInt8 = b) ∨
      ∃ c d, encodeByte b = [c, d] ∧ ('+' ≤ c ∧ c ≤ '.') ∧
        ((c.toUInt8 - '+'.toUInt8) <<< hksEncodeOffsetLen) +
          ((resumeInvalidCharacter d).toUInt8 - '0'.toUInt8) = b := by
  rw [encodeByte]
  split
  case isTrue h =>
    refine .inr ⟨_, _, rfl, ?_⟩
    revert b
    decide +kernel
  case isFalse h =>
    refine .inl ⟨_, rfl, ?_⟩
    revert b
    decide +kernel

theorem decodeName_encodeByte (b : UInt8) (src : Path) :
    decodeName (encodeByte b ++ src) = (decodeName src).map (b :: ·) := by
  obtain ⟨c, heq, hc, hb⟩ | ⟨c, d, heq, hc, hb⟩ := encodeByte_decodes b
  · rw [heq, List.singleton_append, decodeName.eq_def]
    simp only [if_neg hc, hb]
    cases decodeName src <;> rfl
  · rw [heq, List.cons_append, List.singleton_append, decodeName]
    simp only [if_pos hc, hb]
    cases decodeName src <;> rfl

-- `ConstructBlob` reads back what `ConstructName` wrote.
theorem decodeName_encodeName (blob : Bytes) : decodeName (encodeName blob) = .ok blob := by
  induction blob
  case nil => rfl
  case cons b blob ih =>
    rw [encodeName_cons, decodeName_encodeByte, ih]
    rfl

theorem encodeName_injective : Function.Injective encodeName := by
  intro blob blob' h
  have := decodeName_encodeName blob
  rw [h, decodeName_encodeName] at this
  exact (Except.ok.inj this).symm

theorem foldlM_appendByte {blob : Bytes} {nameLen : Nat} {start name : Path}
    (h : blob.foldlM (appendByte nameLen) start = .ok name) : name = start ++ encodeName blob := by
  induction blob generalizing start
  case nil =>
    cases h
    simp
  case cons b blob ih =>
    obtain ⟨name', hname', h⟩ := Except.foldlM_cons_eq_ok.mp h
    rw [appendByte] at hname'
    split at hname'
    case isTrue => contradiction
    case isFalse =>
      cases hname'
      rw [ih h, encodeName_cons, List.append_assoc]

theorem constructName_ok {blob : Bytes} {nameLen : Nat} {name : Path}
    (h : constructName blob nameLen = .ok name) : name = encodeName blob := by
  rw [constructName] at h
  split at h
  case isTrue => contradiction
  case isFalse => exact foldlM_appendByte h

theorem foldlM_appendByte_of_room {blob : Bytes} {nameLen : Nat} {start : Path}
    (h : start.length + 2 * blob.length < nameLen - 1) :
    blob.foldlM (appendByte nameLen) start = .ok (start ++ encodeName blob) := by
  induction blob generalizing start
  case nil => simp [pure, Except.pure]
  case cons b blob ih =>
    have := encodeByte_length b
    rw [List.length_cons] at h
    have htail := @ih (start ++ encodeByte b) (by rw [List.length_append]; omega)
    rw [encodeName_cons, ← List.append_assoc, ← htail, List.foldlM_cons, appendByte, if_neg (by omega)]
    rfl

theorem constructName_of_room {blob : Bytes} {nameLen : Nat} (h : 2 * blob.length < nameLen - 1) :
    constructName blob nameLen = .ok (encodeName blob) := by
  rw [constructName, if_neg (by omega)]
  exact foldlM_appendByte_of_room (by simpa using h)

-- Decimal texts: digits, and a sign in front.
theorem decimal_letters {n : Int} {c : Char} (h : c ∈ decimal n) : c.isDigit ∨ c = '-' := by
  cases n
  case ofNat n => exact .inl (Nat.isDigit_of_mem_toDigits (by decide) (by decide) h)
  case negSucc n =>
    obtain rfl | h := List.mem_cons.mp h
    · exact .inr rfl
    · exact .inl (Nat.isDigit_of_mem_toDigits (by decide) (by decide) h)

theorem slash_notMem_decimal (n : Int) : '/' ∉ decimal n := fun h => by
  simpa using decimal_letters h

theorem decimal_getLast (n : Int) : (decimal n).getLast? ≠ some '.' := fun h => by
  simpa using decimal_letters (List.mem_of_getLast? h)

theorem decimal_ne_nil (n : Int) : decimal n ≠ [] := by
  cases n
  case ofNat n => exact Nat.toDigits_ne_nil
  case negSucc n => exact List.cons_ne_nil _ _

theorem toDigits_injective {n n' : Nat} (h : Nat.toDigits 10 n = Nat.toDigits 10 n') : n = n' := by
  have := congrArg (Nat.ofDigitChars 10 · 0) h
  simpa using this

theorem minus_notMem_toDigits (n : Nat) : '-' ∉ Nat.toDigits 10 n := fun h => by
  simpa using Nat.isDigit_of_mem_toDigits (by decide) (by decide) h

theorem decimal_injective : Function.Injective decimal := by
  intro n n' h
  cases n <;> cases n'
  case ofNat.ofNat => exact congrArg _ (toDigits_injective h)
  case ofNat.negSucc n n' =>
    have h : Nat.toDigits 10 n = '-' :: Nat.toDigits 10 (n' + 1) := h
    exact (minus_notMem_toDigits n (h ▸ List.mem_cons_self)).elim
  case negSucc.ofNat n n' =>
    have h : '-' :: Nat.toDigits 10 (n + 1) = Nat.toDigits 10 n' := h
    exact (minus_notMem_toDigits n' (h ▸ List.mem_cons_self)).elim
  case negSucc.negSucc => exact congrArg _ (Nat.succ.inj (toDigits_injective (List.cons.inj h).2))

end Huks
