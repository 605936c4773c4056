import Mathlib.Data.List.Range

namespace Huks

variable {α : Type} {block : Nat → List α} {size n m k : Nat}

-- The first blocks of a stream that is made block by block
def blocks (block : Nat → List α) (n : Nat) : List α := (List.range n).flatMap block

-- The first elements of the stream. As no block is empty, as many blocks hold them.
def streamTake (block : Nat → List α) (n : Nat) : List α := (blocks block n).take n

theorem blocks_succ (block : Nat → List α) (n : Nat) : blocks block (n + 1) = blocks block n ++ block n := by
  rw [blocks, List.range_succ, List.flatMap_append, List.flatMap_singleton, blocks]

theorem length_blocks (h : ∀ i, (block i).length = size) (n : Nat) : (blocks block n).length = size * n := by
  induction n
  case zero => rfl
  case succ n ih => rw [blocks_succ, List.length_append, ih, h, Nat.mul_succ]

theorem blocks_isPrefix (h : n ≤ m) : blocks block n <+: blocks block m := by
  induction h
  case refl => exact List.prefix_rfl
  case step m _ ih => exact ih.trans (blocks_succ block m ▸ List.prefix_append _ _)

theorem take_of_isPrefix {l l' : List α} (h : l <+: l') (hk : k ≤ l.length) : l'.take k = l.take k := by
  obtain ⟨rest, rfl⟩ := h
  rw [List.take_append_of_le_length hk]

-- It does not matter how many blocks are made, as long as they are enough.
theorem take_blocks (h : ∀ i, (block i).length = size) (hsize : 0 < size) (hn : n ≤ size * m) :
    (blocks block m).take n = streamTake block n := by
  have hself : n ≤ size * n := Nat.le_mul_of_pos_left n hsize
  rw [streamTake]
  obtain hle | hle := Nat.le_total m n
  · exact (take_of_isPrefix (blocks_isPrefix hle) (by rwa [length_blocks h])).symm
  · exact take_of_isPrefix (blocks_isPrefix hle) (by rwa [length_blocks h])

end Huks
