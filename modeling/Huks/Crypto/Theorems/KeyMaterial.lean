import Huks.Common.Theorems.Words
import Huks.Crypto.KeyMaterial

namespace Huks

-- The value of a word of the header.
def keyWord (key : Bytes) (i : Nat) : UInt32 := le32 (slice key (4 * i) 4)

namespace KeyFormat

-- The header and all the parts that it declares.
def declaredSize (format : KeyFormat) (key : Bytes) : Nat :=
  format.headerSize + (format.sizeWords.map fun i => (keyWord key i).toNat).sum

-- The key holds its header, and the parts that this declares.
def Fits (format : KeyFormat) (key : Bytes) : Prop :=
  format.headerSize ≤ key.length ∧ format.declaredSize key ≤ key.length

instance (format : KeyFormat) (key : Bytes) : Decidable (format.Fits key) :=
  inferInstanceAs (Decidable (_ ∧ _))

end KeyFormat

section Words

variable {key : Bytes} {i n : Nat}

theorem readWord_ok (h : 4 * i + 4 ≤ key.length) : readWord key i = .ok (keyWord key i) := by
  rw [readWord, readAt, if_pos (.inr h)]
  rfl

theorem mapM_readWord {is : List Nat} (h : ∀ i ∈ is, 4 * i + 4 ≤ key.length) :
    is.mapM (readWord key) = .ok (is.map (keyWord key)) := by
  induction is
  case nil => rfl
  case cons i is ih =>
    rw [List.mapM_cons, readWord_ok (h i List.mem_cons_self), ih fun j hj => h j (List.mem_cons_of_mem _ hj)]
    rfl

theorem toBytes32_keyWord (h : 4 * i + 4 ≤ key.length) : toBytes32 (keyWord key i) = slice key (4 * i) 4 := by
  have hlen := length_slice h
  rw [keyWord, toBytes32_le32_take _ (by omega), List.take_of_length_le (by omega)]

-- The header is made of its words.
theorem take_words (key : Bytes) (n : Nat) (h : 4 * n ≤ key.length) :
    key.take (4 * n) = (List.range n).flatMap fun i => toBytes32 (keyWord key i) := by
  induction n
  case zero => rfl
  case succ n ih =>
    rw [List.range_succ, List.flatMap_append, ← ih (by omega), List.flatMap_singleton,
      toBytes32_keyWord (by omega), Nat.mul_succ, List.take_add, slice]

-- Sizes are added in 32 bits.
theorem toNat_foldl_add_mod (a : UInt32) (ws : List UInt32) :
    (ws.foldl (· + ·) a).toNat = (a.toNat + (ws.map UInt32.toNat).sum) % 2 ^ 32 := by
  induction ws generalizing a
  case nil =>
    rw [List.foldl_nil, List.map_nil, List.sum_nil, Nat.add_zero, Nat.mod_eq_of_lt a.toNat_lt]
  case cons w ws ih =>
    rw [List.foldl_cons, ih, UInt32.toNat_add, Nat.mod_add_mod, List.map_cons, List.sum_cons, Nat.add_assoc]

end Words

end Huks
