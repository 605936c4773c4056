import Mathlib.Data.List.GetD

namespace Huks

-- What lies at every address.
abbrev ByteMemory := Nat → UInt8

namespace ByteMemory

def read (mem : ByteMemory) : Nat → Nat → List UInt8
  | _, 0     => []
  | a, n + 1 => mem a :: read mem (a + 1) n

def write (mem : ByteMemory) (a : Nat) (bytes : List UInt8) : ByteMemory := fun i =>
  if a ≤ i then bytes.getD (i - a) (mem i) else mem i

-- Copies by way of a copy, so that the two places may overlap.
def move (mem : ByteMemory) (dest src n : Nat) : ByteMemory := mem.write dest (mem.read src n)

variable {mem mem' : ByteMemory} {a b n : Nat} {bytes : List UInt8}

theorem read_zero (mem : ByteMemory) (a : Nat) : mem.read a 0 = [] := rfl

theorem read_succ (mem : ByteMemory) (a n : Nat) : mem.read a (n + 1) = mem a :: mem.read (a + 1) n := rfl

@[simp]
theorem length_read (mem : ByteMemory) (a n : Nat) : (mem.read a n).length = n := by
  induction n generalizing a
  case zero => rfl
  case succ n ih => rw [read_succ, List.length_cons, ih]

theorem read_add (mem : ByteMemory) (a m n : Nat) :
    mem.read a (m + n) = mem.read a m ++ mem.read (a + m) n := by
  induction m generalizing a
  case zero => rw [Nat.zero_add, read_zero, Nat.add_zero, List.nil_append]
  case succ m ih =>
    rw [Nat.succ_add, read_succ, read_succ, List.cons_append, ih, Nat.add_assoc, Nat.add_comm 1 m]

theorem read_congr (h : ∀ i, a ≤ i → i < a + n → mem i = mem' i) : mem.read a n = mem'.read a n := by
  induction n generalizing a
  case zero => rfl
  case succ n ih =>
    have hrest := ih (a := a + 1) fun i hi hlt => h i (by omega) (by omega)
    rw [read_succ, read_succ, h a (Nat.le_refl a) (by omega), hrest]

-- Nothing but the place of the bytes changes.
theorem write_frame {i : Nat} (h : i < a ∨ a + bytes.length ≤ i) : mem.write a bytes i = mem i := by
  unfold write
  split
  case isTrue hle => exact List.getD_eq_default _ _ (by omega)
  case isFalse => rfl

theorem read_write_frame (h : b + n ≤ a ∨ a + bytes.length ≤ b) :
    (mem.write a bytes).read b n = mem.read b n :=
  read_congr fun i hi hlt => write_frame (by omega)

@[simp]
theorem read_write (mem : ByteMemory) (a : Nat) (bytes : List UInt8) :
    (mem.write a bytes).read a bytes.length = bytes := by
  induction bytes generalizing mem a
  case nil => rfl
  case cons b bytes ih =>
    have hhead : mem.write a (b :: bytes) a = b := by
      rw [write, if_pos (Nat.le_refl a), Nat.sub_self, List.getD_cons_zero]
    have htail : (mem.write a (b :: bytes)).read (a + 1) bytes.length =
        (mem.write (a + 1) bytes).read (a + 1) bytes.length := by
      refine read_congr fun i hi _ => ?_
      have hsub : i - a = (i - (a + 1)) + 1 := by omega
      rw [write, write, if_pos (by omega), if_pos hi, hsub, List.getD_cons_succ]
    rw [List.length_cons, read_succ, hhead, htail, ih]

-- The bytes lie at `a`.
def Holds (mem : ByteMemory) (a : Nat) (bytes : List UInt8) : Prop := mem.read a bytes.length = bytes

theorem holds_write (mem : ByteMemory) (a : Nat) (bytes : List UInt8) : (mem.write a bytes).Holds a bytes :=
  read_write mem a bytes

theorem holds_cons {b : UInt8} : mem.Holds a (b :: bytes) ↔ mem a = b ∧ mem.Holds (a + 1) bytes := by
  rw [Holds, List.length_cons, read_succ, List.cons.injEq, Holds]

theorem holds_append {bs cs : List UInt8} :
    mem.Holds a (bs ++ cs) ↔ mem.Holds a bs ∧ mem.Holds (a + bs.length) cs := by
  rw [Holds, List.length_append, read_add,
    List.append_eq_append_iff_of_size_eq_left (length_read mem a bs.length)]
  rfl

-- What lies beside the bytes that are written stays there.
theorem Holds.write {bs : List UInt8} (h : mem.Holds a bs)
    (hd : a + bs.length ≤ b ∨ b + bytes.length ≤ a) : (mem.write b bytes).Holds a bs := by
  rw [Holds, read_write_frame hd, h]

end ByteMemory

end Huks
