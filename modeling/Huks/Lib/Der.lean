import Mathlib.Algebra.Order.Ring.Nat
import Mathlib.Data.Nat.Digits.Defs

namespace Huks

-- The highest byte first.
def ofBigEndian : List UInt8 → Nat
  | []      => 0
  | b :: bs => b.toNat * 256 ^ bs.length + ofBigEndian bs

-- The signed number that bytes stand for.
def twosComplement : List UInt8 → Int
  | []      => 0
  | b :: bs => if b < 0x80 then ofBigEndian (b :: bs) else ofBigEndian (b :: bs) - 256 ^ (bs.length + 1)

-- No fewer bytes stand for the number.
def IsShortest (bytes : List UInt8) : Prop :=
  ∀ bytes', bytes' ≠ [] → twosComplement bytes' = twosComplement bytes → bytes.length ≤ bytes'.length

-- The bytes without their leading zeros, the last byte apart.
def stripZeros : List UInt8 → List UInt8
  | 0 :: b :: bs => stripZeros (b :: bs)
  | bytes        => bytes

-- A definite length in as few bytes as it takes.
def derLength (n : Nat) : List UInt8 :=
  if n < 0x80 then
    [n.toUInt8]
  else
    let digits := (Nat.digits 256 n).reverse.map Nat.toUInt8
    (0x80 + digits.length).toUInt8 :: digits

-- A tag of one byte, the length of the content and the content.
def derTlv (tag : UInt8) (content : List UInt8) : List UInt8 :=
  tag :: (derLength content.length ++ content)

section BigEndian

variable {b : UInt8} {bs cs : List UInt8}

theorem ofBigEndian_lt (bs : List UInt8) : ofBigEndian bs < 256 ^ bs.length := by
  induction bs
  case nil => exact Nat.one_pos
  case cons b bs ih =>
    have hb : b.toNat + 1 ≤ 256 := b.toNat_lt
    have := Nat.mul_le_mul_right (256 ^ bs.length) hb
    rw [ofBigEndian, List.length_cons, Nat.pow_succ]
    linarith

theorem ofBigEndian_zeros_append (n : Nat) (bs : List UInt8) :
    ofBigEndian (.replicate n 0 ++ bs) = ofBigEndian bs := by
  induction n
  case zero => rfl
  case succ n ih =>
    rw [List.replicate_succ, List.cons_append, ofBigEndian.eq_2 0, UInt8.toNat_zero, Nat.zero_mul, Nat.zero_add, ih]

-- Zeros are taken away, never all the bytes; one is left in front only if nothing is behind it.
theorem stripZeros_spec (bs : List UInt8) :
    (∃ n, bs = .replicate n 0 ++ stripZeros bs) ∧ (bs ≠ [] → stripZeros bs ≠ []) ∧
      ∀ cs, stripZeros bs = 0 :: cs → cs = [] := by
  induction bs using stripZeros.induct
  case case1 b bs ih =>
    have ⟨⟨n, hn⟩, hne, hhead⟩ := ih
    rw [stripZeros]
    exact ⟨⟨n + 1, by rw [List.replicate_succ, List.cons_append, ← hn]⟩, fun _ => hne (List.cons_ne_nil b bs), hhead⟩
  case case2 bs h =>
    rw [stripZeros.eq_2 bs h]
    refine ⟨⟨0, rfl⟩, id, fun cs hcs => ?_⟩
    cases cs
    case nil => rfl
    case cons c cs => exact absurd hcs (h c cs)

theorem ofBigEndian_stripZeros (bs : List UInt8) : ofBigEndian (stripZeros bs) = ofBigEndian bs := by
  have ⟨n, hn⟩ := (stripZeros_spec bs).1
  rw [← ofBigEndian_zeros_append n, ← hn]

theorem head_stripZeros_eq_zero (h : stripZeros bs = 0 :: cs) : cs = [] := (stripZeros_spec bs).2.2 cs h

theorem stripZeros_ne_nil (h : bs ≠ []) : stripZeros bs ≠ [] := (stripZeros_spec bs).2.1 h

theorem length_stripZeros_le (bs : List UInt8) : (stripZeros bs).length ≤ bs.length := by
  have ⟨n, hn⟩ := (stripZeros_spec bs).1
  have := congrArg List.length hn
  rw [List.length_append] at this
  omega

-- Bytes stay as they are if they do not begin with a zero, or are one byte.
theorem stripZeros_eq_self_iff (bs : List UInt8) :
    stripZeros bs = bs ↔ bs.length ≤ 1 ∨ bs.head? ≠ some 0 := by
  by_cases h : ∃ b cs, bs = 0 :: b :: cs
  case pos =>
    have ⟨b, cs, h⟩ := h
    have hle := length_stripZeros_le (b :: cs)
    have hne : stripZeros (b :: cs) ≠ 0 :: b :: cs := fun h => by
      rw [h, List.length_cons] at hle
      omega
    simp [h, stripZeros, hne]
  case neg =>
    have hne : ∀ b cs, bs = 0 :: b :: cs → False := fun b cs h' => h ⟨b, cs, h'⟩
    simp only [stripZeros.eq_2 bs hne, true_iff]
    match bs, h with
    | [], _           => exact .inl (Nat.zero_le 1)
    | [b], _          => exact .inl (Nat.le_refl 1)
    | b :: c :: bs, h => exact .inr fun h' => h ⟨c, bs, by rw [Option.some.inj h']⟩

end BigEndian

-- A number that is not negative has a zero in front if it would be taken for a negative one.
def padInteger : List UInt8 → List UInt8
  | []      => []
  | b :: bs => if b > 0x7F then 0 :: b :: bs else b :: bs

def derInteger (bs : List UInt8) : List UInt8 := padInteger (stripZeros bs)

section Integer

variable {b : UInt8} {bs cs : List UInt8}

theorem twosComplement_lt (h : bs ≠ []) : twosComplement bs < 128 * 256 ^ (bs.length - 1) := by
  match bs, h with
  | b :: bs, _ =>
    have hlt := ofBigEndian_lt bs
    rw [twosComplement, List.length_cons, Nat.add_sub_cancel]
    split
    case isTrue hb =>
      have hb : b.toNat + 1 ≤ 128 := hb
      have := Nat.mul_le_mul_right (256 ^ bs.length) hb
      rw [ofBigEndian]
      push_cast
      have : (b.toNat + 1 : ℤ) * 256 ^ bs.length ≤ 128 * 256 ^ bs.length := by exact_mod_cast this
      have : (ofBigEndian bs : ℤ) < 256 ^ bs.length := by exact_mod_cast hlt
      linarith
    case isFalse =>
      have hlt : (ofBigEndian (b :: bs) : ℤ) < 256 ^ (bs.length + 1) := by
        exact_mod_cast ofBigEndian_lt (b :: bs)
      have : (0 : ℤ) < 256 ^ bs.length := by positivity
      linarith

-- A number this large does not fit in fewer bytes.
theorem isShortest_of_le {n : Nat} (hv : twosComplement bs = n)
    (h : bs.length ≤ 1 ∨ 128 * 256 ^ (bs.length - 2) ≤ n) : IsShortest bs := by
  intro bs' hne hv'
  have hpos : 0 < bs'.length := List.length_pos_iff.mpr hne
  rcases h with h | h
  case inl => exact h.trans hpos
  case inr =>
    have hlt := twosComplement_lt hne
    rw [hv', hv] at hlt
    have hlt : 128 * 256 ^ (bs.length - 2) < 128 * 256 ^ (bs'.length - 1) :=
      h.trans_lt (by exact_mod_cast hlt)
    have hexp := (Nat.pow_lt_pow_iff_right (by decide)).mp (Nat.lt_of_mul_lt_mul_left hlt)
    omega

theorem twosComplement_derInteger (h : bs ≠ []) : twosComplement (derInteger bs) = ofBigEndian bs := by
  have hne := stripZeros_ne_nil h
  rw [← ofBigEndian_stripZeros, derInteger]
  match hs : stripZeros bs, hne with
  | c :: cs, _ =>
    rw [padInteger]
    by_cases hc : c > 0x7F
    case pos =>
      rw [if_pos hc]
      simp [twosComplement, ofBigEndian]
    case neg =>
      have hlt : c < 0x80 := Nat.lt_succ_of_le (Nat.le_of_not_lt hc)
      rw [if_neg hc, twosComplement, if_pos hlt]

theorem derInteger_isShortest (h : bs ≠ []) : IsShortest (derInteger bs) := by
  refine isShortest_of_le (twosComplement_derInteger h) ?_
  have hne := stripZeros_ne_nil h
  rw [← ofBigEndian_stripZeros, derInteger]
  match hs : stripZeros bs, hne with
  | c :: cs, _ =>
    rw [padInteger]
    by_cases hc : c > 0x7F
    case pos =>
      rw [if_pos hc]
      have hc : 128 ≤ c.toNat := hc
      have := Nat.mul_le_mul_right (256 ^ cs.length) hc
      right
      simp only [List.length_cons, ofBigEndian]
      exact this.trans (Nat.le_add_right _ _)
    case neg =>
      rw [if_neg hc]
      match cs with
      | []      => exact .inl (Nat.le_refl 1)
      | d :: ds =>
        have hc : 0 < c.toNat := by
          refine Nat.pos_of_ne_zero fun hzero => ?_
          have hzero : c = 0 := UInt8.toNat.inj hzero
          exact List.cons_ne_nil d ds (head_stripZeros_eq_zero (hzero ▸ hs))
        have := Nat.mul_le_mul_right (256 ^ (ds.length + 1)) hc
        right
        have hsub : ds.length + 1 + 1 - 2 = ds.length := rfl
        simp only [List.length_cons, ofBigEndian, Nat.pow_succ, hsub] at this ⊢
        omega

end Integer

section Length

theorem derLength_short {n : Nat} (h : n < 0x80) : derLength n = [n.toUInt8] := if_pos h

theorem derLength_one {n : Nat} (h : 0x80 ≤ n) (h' : n < 0x100) : derLength n = [0x81, n.toUInt8] := by
  have hdigits : Nat.digits 256 n = [n] := Nat.digits_of_lt 256 n (by omega) h'
  rw [derLength, if_neg (by omega), hdigits]
  rfl

theorem derLength_two {n : Nat} (h : 0x100 ≤ n) (h' : n < 0x10000) :
    derLength n = [0x82, (n / 0x100).toUInt8, (n % 0x100).toUInt8] := by
  have hdigits : Nat.digits 256 n = [n % 256, n / 256] := by
    rw [Nat.digits_def' (by decide) (by omega), Nat.digits_of_lt 256 (n / 256) (by omega) (by omega)]
  rw [derLength, if_neg (by omega), hdigits]
  rfl

end Length

end Huks
