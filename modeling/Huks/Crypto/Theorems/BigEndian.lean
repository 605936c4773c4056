import Huks.Crypto.OpenSsl
import Huks.Crypto.Theorems.PublicKeyFormat

namespace Huks

theorem foldl_bigEndian (n : Nat) (bytes : Bytes) :
    bytes.foldl (fun n b => 256 * n + b.toNat) n = 256 ^ bytes.length * n + bigEndian bytes := by
  induction bytes generalizing n
  case nil => simp [bigEndian]
  case cons b bytes ih =>
    rw [bigEndian, List.foldl_cons, List.foldl_cons, ih, ih (256 * 0 + b.toNat), List.length_cons, Nat.pow_succ]
    ring

theorem bigEndian_cons (b : UInt8) (bytes : Bytes) :
    bigEndian (b :: bytes) = 256 ^ bytes.length * b.toNat + bigEndian bytes := by
  rw [bigEndian, List.foldl_cons, foldl_bigEndian, Nat.mul_zero, Nat.zero_add]

theorem bigEndianBytes_succ (len value : Nat) :
    bigEndianBytes (len + 1) value = (value / 256 ^ len).toUInt8 :: bigEndianBytes len value := by
  rw [bigEndianBytes, List.range_succ, List.reverse_append, List.reverse_singleton, List.map_append]
  rfl

-- The last bytes of a number stand for its remainder.
theorem bigEndian_bigEndianBytes_mod (len value : Nat) :
    bigEndian (bigEndianBytes len value) = value % 256 ^ len := by
  induction len
  case zero => rw [Nat.pow_zero, Nat.mod_one]; rfl
  case succ len ih =>
    have hbyte : (value / 256 ^ len).toUInt8.toNat = value / 256 ^ len % 256 := UInt8.toNat_ofNat'
    rw [bigEndianBytes_succ, bigEndian_cons, ih, BigNum.length_bigEndianBytes, hbyte, Nat.pow_succ,
      Nat.mod_mul, Nat.add_comm]

theorem bigEndian_bigEndianBytes {len value : Nat} (h : value < 256 ^ len) :
    bigEndian (bigEndianBytes len value) = value := by
  rw [bigEndian_bigEndianBytes_mod, Nat.mod_eq_of_lt h]

end Huks
