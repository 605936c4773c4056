import Mathlib.Algebra.Ring.Nat
import Mathlib.Data.List.Basic
import Mathlib.Data.List.TakeDrop

namespace Huks

-- Bytes of a fixed number.
abbrev FixedBytes (n : Nat) := { bytes : List UInt8 // bytes.length = n }

namespace FixedBytes

variable {n : Nat}

def zero (n : Nat) : FixedBytes n := ⟨.replicate n 0, List.length_replicate⟩

-- The first `n` bytes, or zeros behind a shorter list.
def ofBytes (n : Nat) (bytes : List UInt8) : FixedBytes n := ⟨bytes.takeD n 0, List.takeD_length _ _ _⟩

def xor (a b : FixedBytes n) : FixedBytes n :=
  ⟨List.zipWith (· ^^^ ·) a.val b.val, by rw [List.length_zipWith, a.property, b.property, Nat.min_self]⟩

theorem takeD_length_self (l : List UInt8) : l.takeD l.length 0 = l := by
  induction l
  case nil => rfl
  case cons b l ih => simp [List.takeD_succ, ih]

theorem ofBytes_val (a : FixedBytes n) : ofBytes n a.val = a := by
  obtain ⟨l, rfl⟩ := a
  exact Subtype.ext (takeD_length_self l)

theorem ofBytes_append (a : FixedBytes n) (bytes : List UInt8) : ofBytes n (a.val ++ bytes) = a := by
  obtain ⟨l, rfl⟩ := a
  exact Subtype.ext (List.takeD_left' rfl)

theorem xor_xor_cancel (a b : FixedBytes n) : (a.xor b).xor b = a := by
  obtain ⟨a, ha⟩ := a
  obtain ⟨b, hb⟩ := b
  apply Subtype.ext
  show List.zipWith _ (List.zipWith _ a b) b = a
  induction a generalizing b n
  case nil => rfl
  case cons x a ih =>
    cases b
    case nil => simp at ha hb; omega
    case cons y b =>
      simp only [List.zipWith_cons_cons, List.cons.injEq]
      refine ⟨?_, ih (n := a.length) rfl b (by simp at ha hb; omega)⟩
      rw [UInt8.xor_assoc, UInt8.xor_self, UInt8.xor_zero]

end FixedBytes

-- The `k` low bytes of a number, the lowest first.
def toLittleEndian : Nat → Nat → List UInt8
  | 0, _     => []
  | k + 1, n => n.toUInt8 :: toLittleEndian k (n / 256)

def ofLittleEndian (bytes : List UInt8) : Nat := bytes.foldr (fun b n => b.toNat + 256 * n) 0

theorem toLittleEndian_succ (k n : Nat) : toLittleEndian (k + 1) n = n.toUInt8 :: toLittleEndian k (n / 256) := rfl

theorem ofLittleEndian_cons (b : UInt8) (bytes : List UInt8) :
    ofLittleEndian (b :: bytes) = b.toNat + 256 * ofLittleEndian bytes := rfl

theorem length_toLittleEndian (k n : Nat) : (toLittleEndian k n).length = k := by
  induction k generalizing n
  case zero => rfl
  case succ k ih => rw [toLittleEndian_succ, List.length_cons, ih]

theorem ofLittleEndian_toLittleEndian {k n : Nat} (h : n < 256 ^ k) :
    ofLittleEndian (toLittleEndian k n) = n := by
  induction k generalizing n
  case zero =>
    have : n = 0 := by simpa using h
    rw [this]
    rfl
  case succ k ih =>
    have hk : n / 256 < 256 ^ k := by
      rw [Nat.div_lt_iff_lt_mul (by decide)]
      exact h
    rw [toLittleEndian_succ, ofLittleEndian_cons, ih hk, Nat.toUInt8, UInt8.toNat_ofNat']
    omega

theorem ofLittleEndian_lt (bytes : List UInt8) : ofLittleEndian bytes < 256 ^ bytes.length := by
  induction bytes
  case nil => exact Nat.one_pos
  case cons b bytes ih =>
    have hb := b.toNat_lt
    rw [ofLittleEndian_cons, List.length_cons, Nat.pow_succ]
    omega

theorem toLittleEndian_ofLittleEndian (bytes : List UInt8) :
    toLittleEndian bytes.length (ofLittleEndian bytes) = bytes := by
  induction bytes
  case nil => rfl
  case cons b bytes ih =>
    have hb := b.toNat_lt
    have hdiv : ofLittleEndian (b :: bytes) / 256 = ofLittleEndian bytes := by
      rw [ofLittleEndian_cons]
      omega
    have hmod : (ofLittleEndian (b :: bytes)).toUInt8 = b := by
      apply UInt8.toNat.inj
      rw [ofLittleEndian_cons, Nat.toUInt8, UInt8.toNat_ofNat']
      omega
    rw [List.length_cons, toLittleEndian_succ, hdiv, hmod, ih]

-- Every row of `n` bytes is what `f` makes of some value.
def Covers {α : Type} (f : α → List UInt8) (n : Nat) : Prop := ∀ bytes, bytes.length = n → ∃ a, f a = bytes

namespace Covers

variable {α β : Type} {f : α → List UInt8} {g : β → List UInt8} {m n : Nat}

theorem append (hf : Covers f m) (hg : Covers g n) : Covers (fun p : α × β => f p.1 ++ g p.2) (m + n) := by
  intro bytes h
  obtain ⟨a, ha⟩ := hf (bytes.take m) (by rw [List.length_take]; omega)
  obtain ⟨b, hb⟩ := hg (bytes.drop m) (by rw [List.length_drop]; omega)
  exact ⟨(a, b), by simp only [ha, hb, List.take_append_drop]⟩

theorem map {e : α → β} (hf : Covers f n) (h : ∀ a, g (e a) = f a) : Covers g n := by
  intro bytes hlen
  have ⟨a, ha⟩ := hf bytes hlen
  exact ⟨e a, (h a).trans ha⟩

end Covers

-- How a field of a structure lies in memory, and back.
structure FixedCodec (α : Type) where
  size          : Nat
  encode        : α → List UInt8
  decode        : List UInt8 → α
  length_encode : ∀ a, (encode a).length = size
  decode_encode : ∀ a, decode (encode a) = a

namespace FixedCodec

def u8 : FixedCodec UInt8 where
  size            := 1
  encode n        := toLittleEndian 1 n.toNat
  decode bytes    := (ofLittleEndian bytes).toUInt8
  length_encode _ := length_toLittleEndian 1 _
  decode_encode n := by rw [ofLittleEndian_toLittleEndian n.toNat_lt, Nat.toUInt8, UInt8.ofNat_toNat]

def u16 : FixedCodec UInt16 where
  size            := 2
  encode n        := toLittleEndian 2 n.toNat
  decode bytes    := (ofLittleEndian bytes).toUInt16
  length_encode _ := length_toLittleEndian 2 _
  decode_encode n := by
    rw [ofLittleEndian_toLittleEndian n.toNat_lt, Nat.toUInt16, UInt16.ofNat_toNat]

def u32 : FixedCodec UInt32 where
  size            := 4
  encode n        := toLittleEndian 4 n.toNat
  decode bytes    := (ofLittleEndian bytes).toUInt32
  length_encode _ := length_toLittleEndian 4 _
  decode_encode n := by
    rw [ofLittleEndian_toLittleEndian n.toNat_lt, Nat.toUInt32, UInt32.ofNat_toNat]

def bytes (n : Nat) : FixedCodec (FixedBytes n) where
  size            := n
  encode a        := a.val
  decode          := FixedBytes.ofBytes n
  length_encode a := a.property
  decode_encode   := FixedBytes.ofBytes_val

theorem u8_covers : Covers u8.encode 1 := by
  intro bytes h
  refine ⟨u8.decode bytes, ?_⟩
  have hlt := h ▸ ofLittleEndian_lt bytes
  simp only [u8, Nat.toUInt8, UInt8.toNat_ofNat_of_lt' hlt]
  rw [← h, toLittleEndian_ofLittleEndian]

theorem u16_covers : Covers u16.encode 2 := by
  intro bytes h
  refine ⟨u16.decode bytes, ?_⟩
  have hlt := h ▸ ofLittleEndian_lt bytes
  simp only [u16, Nat.toUInt16, UInt16.toNat_ofNat_of_lt' hlt]
  rw [← h, toLittleEndian_ofLittleEndian]

theorem u32_covers : Covers u32.encode 4 := by
  intro bytes h
  refine ⟨u32.decode bytes, ?_⟩
  have hlt := h ▸ ofLittleEndian_lt bytes
  simp only [u32, Nat.toUInt32, UInt32.toNat_ofNat_of_lt' hlt]
  rw [← h, toLittleEndian_ofLittleEndian]

theorem bytes_covers (n : Nat) : Covers (bytes n).encode n := fun bs h => ⟨⟨bs, h⟩, rfl⟩

end FixedCodec

-- A structure lies in memory as its fields one behind the other; these make its codec from theirs.
namespace FixedCodec

variable {α β : Type}

theorem length_encode_pair (a : FixedCodec α) (b : FixedCodec β) (p : α × β) :
    (a.encode p.1 ++ b.encode p.2).length = a.size + b.size := by
  rw [List.length_append, a.length_encode, b.length_encode]

theorem decode_encode_pair (a : FixedCodec α) (b : FixedCodec β) (p : α × β) :
    (a.decode ((a.encode p.1 ++ b.encode p.2).take a.size),
      b.decode ((a.encode p.1 ++ b.encode p.2).drop a.size)) = p := by
  rw [List.take_left' (a.length_encode p.1), List.drop_left' (a.length_encode p.1), a.decode_encode,
    b.decode_encode]

def pair (a : FixedCodec α) (b : FixedCodec β) : FixedCodec (α × β) where
  size          := a.size + b.size
  encode p      := a.encode p.1 ++ b.encode p.2
  decode bytes  := (a.decode (bytes.take a.size), b.decode (bytes.drop a.size))
  length_encode := length_encode_pair a b
  decode_encode := decode_encode_pair a b

theorem decode_encode_iso (c : FixedCodec α) {build : α → β} {fields : β → α} (h : ∀ b, build (fields b) = b) (b : β) :
    build (c.decode (c.encode (fields b))) = b := by
  rw [c.decode_encode, h]

-- The tuple of the fields is the structure.
def iso (c : FixedCodec α) (build : α → β) (fields : β → α) (h : ∀ b, build (fields b) = b) : FixedCodec β where
  size            := c.size
  encode b        := c.encode (fields b)
  decode bytes    := build (c.decode bytes)
  length_encode b := c.length_encode (fields b)
  decode_encode   := decode_encode_iso c h

-- Whatever bytes there are, they are the encoding of what they are read as.
def Exact (c : FixedCodec α) : Prop := ∀ bytes, bytes.length = c.size → c.encode (c.decode bytes) = bytes

theorem Exact.of_covers {c : FixedCodec α} (h : Covers c.encode c.size) : c.Exact := by
  intro bytes hlen
  obtain ⟨a, rfl⟩ := h bytes hlen
  rw [c.decode_encode]

theorem u16_exact : u16.Exact := .of_covers u16_covers

theorem u32_exact : u32.Exact := .of_covers u32_covers

theorem bytes_exact (n : Nat) : (bytes n).Exact := .of_covers (bytes_covers n)

theorem Exact.pair {a : FixedCodec α} {b : FixedCodec β} (ha : a.Exact) (hb : b.Exact) : (a.pair b).Exact := by
  intro bytes hlen
  have hlen : bytes.length = a.size + b.size := hlen
  have hfront : (bytes.take a.size).length = a.size := by
    rw [List.length_take]
    omega
  have hback : (bytes.drop a.size).length = b.size := by
    rw [List.length_drop]
    omega
  calc (a.pair b).encode ((a.pair b).decode bytes)
    _ = a.encode (a.decode (bytes.take a.size)) ++ b.encode (b.decode (bytes.drop a.size)) := rfl
    _ = bytes.take a.size ++ bytes.drop a.size := by rw [ha _ hfront, hb _ hback]
    _ = bytes := List.take_append_drop _ _

theorem Exact.iso {c : FixedCodec α} {build : α → β} {fields : β → α} {h : ∀ b, build (fields b) = b} (hc : c.Exact)
    (hfields : ∀ a, fields (build a) = a) : (c.iso build fields h).Exact := by
  intro bytes hlen
  show c.encode (fields (build (c.decode bytes))) = bytes
  rw [hfields, hc bytes hlen]

end FixedCodec

end Huks
