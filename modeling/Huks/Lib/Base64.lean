import Mathlib.Algebra.Ring.Nat
import Mathlib.Data.List.Nodup

namespace Huks.Base64

-- Base64 with padding and without line breaks. Three bytes are the digits of a number to the base 256,
-- and four symbols those of the same number to the base 64.

def alphabet : List UInt8 :=
  "ABCDEFGHIJKLMNOPQRSTUVWXYZabcdefghijklmnopqrstuvwxyz0123456789+/".toList.map Char.toUInt8

def pad : UInt8 := '='.toUInt8

def symbol (n : Nat) : UInt8 := alphabet.getD (n % 64) 0

def value (c : UInt8) : Option Nat := alphabet.idxOf? c

def number (a b c : UInt8) : Nat := a.toNat * 65536 + b.toNat * 256 + c.toNat

def encode : List UInt8 → List UInt8
  | a :: b :: c :: bytes =>
    symbol (number a b c / 262144) :: symbol (number a b c / 4096) :: symbol (number a b c / 64) ::
      symbol (number a b c) :: encode bytes
  | [a, b] => [symbol (number a b 0 / 262144), symbol (number a b 0 / 4096), symbol (number a b 0 / 64), pad]
  | [a]    => [symbol (number a 0 0 / 262144), symbol (number a 0 0 / 4096), pad, pad]
  | []     => []

def decode : List UInt8 → Option (List UInt8)
  | w :: x :: y :: z :: chars => do
    let w ← value w
    let x ← value x
    if z = pad ∧ chars = [] then
      if y = pad then
        return [((w * 262144 + x * 4096) / 65536).toUInt8]
      else do
        let y ← value y
        return [((w * 262144 + x * 4096 + y * 64) / 65536).toUInt8,
          ((w * 262144 + x * 4096 + y * 64) / 256).toUInt8]
    else do
      let y ← value y
      let z ← value z
      let bytes ← decode chars
      return ((w * 262144 + x * 4096 + y * 64 + z) / 65536).toUInt8 ::
        ((w * 262144 + x * 4096 + y * 64 + z) / 256).toUInt8 :: (w * 262144 + x * 4096 + y * 64 + z).toUInt8 :: bytes
  | [] => some []
  | _  => none

theorem alphabet_eq : alphabet =
    ['A', 'B', 'C', 'D', 'E', 'F', 'G', 'H', 'I', 'J', 'K', 'L', 'M', 'N', 'O', 'P', 'Q', 'R', 'S', 'T', 'U', 'V',
      'W', 'X', 'Y', 'Z', 'a', 'b', 'c', 'd', 'e', 'f', 'g', 'h', 'i', 'j', 'k', 'l', 'm', 'n', 'o', 'p', 'q', 'r',
      's', 't', 'u', 'v', 'w', 'x', 'y', 'z', '0', '1', '2', '3', '4', '5', '6', '7', '8', '9', '+', '/'].map
      Char.toUInt8 :=
  congrArg (List.map Char.toUInt8) String.toList_ofList

theorem length_alphabet : alphabet.length = 64 := by
  rw [alphabet_eq]
  rfl

-- The symbols as numbers, which are compared faster
def codes : List Nat := List.range' 65 26 ++ List.range' 97 26 ++ List.range' 48 10 ++ [43, 47]

theorem map_toNat_alphabet : alphabet.map UInt8.toNat = codes := by
  rw [alphabet_eq]
  rfl

theorem nodup_alphabet : alphabet.Nodup := by
  have hcodes : codes.Nodup := by decide
  rw [← map_toNat_alphabet] at hcodes
  exact hcodes.of_map UInt8.toNat

theorem toNat_mem_codes {c : UInt8} (h : c ∈ alphabet) : c.toNat ∈ codes :=
  map_toNat_alphabet ▸ List.mem_map_of_mem h

theorem symbol_eq (n : Nat) : ∃ h : n % 64 < alphabet.length, symbol n = alphabet[n % 64] := by
  have hlt : n % 64 < alphabet.length := by
    rw [length_alphabet]
    exact Nat.mod_lt n (by decide)
  refine ⟨hlt, ?_⟩
  rw [symbol, List.getD_eq_getElem?_getD, List.getElem?_eq_getElem hlt, Option.getD_some]

@[simp]
theorem value_symbol (n : Nat) : value (symbol n) = some (n % 64) := by
  have ⟨hlt, hsymbol⟩ := symbol_eq n
  rw [value, hsymbol, List.idxOf?_eq_some_iff]
  refine ⟨hlt, rfl, fun j hj heq => ?_⟩
  exact absurd (nodup_alphabet.getElem_inj_iff.mp heq) (Nat.ne_of_lt hj)

theorem symbol_mem (n : Nat) : symbol n ∈ alphabet := by
  have ⟨_, hsymbol⟩ := symbol_eq n
  rw [hsymbol]
  exact List.getElem_mem _

@[simp]
theorem symbol_ne_pad (n : Nat) : symbol n ≠ pad := by
  intro h
  have hcode := toNat_mem_codes (symbol_mem n)
  rw [h] at hcode
  exact absurd hcode (by decide)

@[simp]
theorem symbol_ne_zero (n : Nat) : symbol n ≠ 0 := by
  intro h
  have hcode := toNat_mem_codes (symbol_mem n)
  rw [h] at hcode
  exact absurd hcode (by decide)

theorem zero_ne_pad : 0 ≠ pad := by decide

-- The text has no byte that would end it.
theorem zero_notMem_encode (bytes : List UInt8) : 0 ∉ encode bytes := by
  induction bytes using encode.induct
  case case1 a b c bytes ih => simp [encode, (symbol_ne_zero _).symm, ih]
  case case2 => simp [encode, (symbol_ne_zero _).symm, zero_ne_pad]
  case case3 => simp [encode, (symbol_ne_zero _).symm, zero_ne_pad]
  case case4 => exact List.not_mem_nil

-- The digits of a number give the number back.
theorem digits (a b c : UInt8) : number a b c / 262144 % 64 * 262144 + number a b c / 4096 % 64 * 4096 +
    number a b c / 64 % 64 * 64 + number a b c % 64 = number a b c := by
  have ha : a.toNat < 256 := a.toNat_lt
  have hb : b.toNat < 256 := b.toNat_lt
  have hc : c.toNat < 256 := c.toNat_lt
  rw [number]
  omega

theorem bytes_number (a b c : UInt8) : (number a b c / 65536).toUInt8 = a ∧ (number a b c / 256).toUInt8 = b ∧
    (number a b c).toUInt8 = c := by
  have ha : a.toNat < 256 := a.toNat_lt
  have hb : b.toNat < 256 := b.toNat_lt
  have hc : c.toNat < 256 := c.toNat_lt
  simp only [← UInt8.toNat_inj, Nat.toUInt8, UInt8.toNat_ofNat', number]
  omega

theorem length_encode (bytes : List UInt8) : (encode bytes).length = 4 * ((bytes.length + 2) / 3) := by
  induction bytes using encode.induct
  case case1 a b c bytes ih =>
    simp only [encode, List.length_cons, ih]
    omega
  case case2 => simp [encode]
  case case3 => simp [encode]
  case case4 => simp [encode]

theorem decode_encode (bytes : List UInt8) : decode (encode bytes) = some bytes := by
  induction bytes using encode.induct
  case case1 a b c bytes ih =>
    simp only [encode, decode, value_symbol, Option.bind_eq_bind, Option.bind_some, ih, symbol_ne_pad, false_and,
      if_false, digits, bytes_number]
    rfl
  case case2 a b =>
    have hlast : number a b 0 % 64 = 0 := by
      simp only [number, UInt8.toNat_zero]
      omega
    have hdigits := (Nat.add_eq_left.mpr hlast).symm.trans (digits a b 0)
    simp only [encode, decode, value_symbol, Option.bind_eq_bind, Option.bind_some, and_self, if_true,
      symbol_ne_pad, if_false, hdigits, bytes_number]
    rfl
  case case3 a =>
    have hlast : number a 0 0 / 64 % 64 * 64 = 0 ∧ number a 0 0 % 64 = 0 := by
      simp only [number, UInt8.toNat_zero]
      omega
    have hdigits := (Nat.add_eq_left.mpr hlast.1).symm.trans
      ((Nat.add_eq_left.mpr hlast.2).symm.trans (digits a 0 0))
    simp only [encode, decode, value_symbol, Option.bind_eq_bind, Option.bind_some, and_self, if_true, hdigits,
      bytes_number]
    rfl
  case case4 => rfl

end Huks.Base64
