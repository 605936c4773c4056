import Mathlib.Algebra.Ring.Nat

namespace Huks.InPlace

-- `size_t`, which has as many bits as the machine
inductive SizeT
  | bits32 | bits64
  deriving DecidableEq, Repr

namespace SizeT

def bits : SizeT → Nat
  | bits32 => 32
  | bits64 => 64

-- `sizeof(struct HksParam)`, in which a blob has a size and a pointer
def sizeOfHksParam : SizeT → UInt32
  | bits32 => 16
  | bits64 => 24

def add (word : SizeT) (a b : Nat) : Nat := (a + b) % 2 ^ word.bits

def sub (word : SizeT) (a b : Nat) : Nat := (a + 2 ^ word.bits - b) % 2 ^ word.bits

end SizeT

end Huks.InPlace
