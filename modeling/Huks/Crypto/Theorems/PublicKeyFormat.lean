import Huks.Crypto.PublicKeyFormat
import Huks.Crypto.Theorems.KeyMaterial

namespace Huks

open Except (bind_eq_ok)

theorem keyWord_header {header : List UInt32} {parts : Bytes} {i : Nat} (h : i < header.length) :
    keyWord (header.flatMap toBytes32 ++ parts) i = header[i] := by
  induction header generalizing i
  case nil => exact absurd h (Nat.not_lt_zero i)
  case cons w ws ih =>
    rw [List.flatMap_cons, List.append_assoc]
    cases i
    case zero =>
      rw [keyWord, slice, Nat.mul_zero, List.drop_zero, List.take_left' (length_toBytes32 w)]
      have hw := le32_toBytes32_append w []
      rwa [List.append_nil] at hw
    case succ i =>
      have hdrop (l : Bytes) : (toBytes32 w ++ l).drop (4 * (i + 1)) = l.drop (4 * i) := by
        rw [Nat.mul_succ, Nat.add_comm, ← List.drop_drop, List.drop_left' (length_toBytes32 w)]
      rw [List.length_cons, Nat.add_lt_add_iff_right] at h
      rw [keyWord, slice, hdrop, List.getElem_cons_succ, ← ih h]
      rfl

-- A key with a header of five words at least, whose three sizes are those of parts behind it.
def SizesHeld (key : Bytes) : Prop :=
  20 ≤ key.length ∧ 20 + (keyWord key 2).toNat + (keyWord key 3).toNat + (keyWord key 4).toNat ≤ key.length

namespace BigNum

variable (n : BigNum)

theorem length_bigEndianBytes (len value : Nat) : (bigEndianBytes len value).length = len := by
  rw [bigEndianBytes, List.length_map, List.length_reverse, List.length_range]

theorem length_bn2bin : n.bn2bin.length = n.numBytes.toNat := length_bigEndianBytes _ _

theorem numBytes_le : n.numBytes.toNat ≤ 2 ^ 28 := by
  have hsmall := n.small
  have hsize : n.numBytes.toNat = (n.value.size + 7) / 8 := 
    UInt32.toNat_ofNat_of_lt' (by rw [UInt32.size]; omega)
  omega

end BigNum

section Inner

variable {reader : PublicKeyReader} {a b x y z size : UInt32} {parts more key inner : Bytes} {malloc : HksErrorCode}

theorem sizesHeld_header (h : x.toNat + y.toNat + z.toNat ≤ parts.length) :
    SizesHeld ([a, b, x, y, z].flatMap toBytes32 ++ parts) := by
  have hlen : ([a, b, x, y, z].flatMap toBytes32 ++ parts).length = 20 + parts.length := by
    rw [List.length_append]
    rfl
  rw [SizesHeld, hlen, keyWord_header (by simp), keyWord_header (by simp), keyWord_header (by simp)]
  exact ⟨Nat.le_add_right _ _, by simp only [List.getElem_cons_succ, List.getElem_cons_zero]; omega⟩

theorem innerKey_held (hinner : innerKey malloc size [a, b, x, y, z] parts = .ok inner)
    (h : x.toNat + y.toNat + z.toNat ≤ parts.length) : SizesHeld inner := by
  rw [innerKey] at hinner
  split at hinner
  case isTrue => exact Except.ok.inj hinner ▸ sizesHeld_header h
  case isFalse => nomatch hinner

theorem rsa_held {n e : BigNum} (h : x509PublicKeyToRsa size n e = .ok inner) : SizesHeld inner := by
  rw [x509PublicKeyToRsa] at h
  split at h
  case isTrue => nomatch h
  case isFalse =>
    refine innerKey_held h ?_
    rw [List.length_append, BigNum.length_bn2bin, BigNum.length_bn2bin]
    exact Nat.le_refl _

theorem ecc_held {alg keyLen : UInt32} {point : Option (BigNum × BigNum)}
    (h : x509PublicKeyToEcc reader alg keyLen point = .ok inner) : SizesHeld inner := by
  have hpart (n : BigNum) (len : UInt32) : ((n.bn2binpad len).getD (reader.fresh len.toNat)).length = len.toNat := by
    rw [BigNum.bn2binpad]
    split
    case isTrue => exact BigNum.length_bigEndianBytes _ _
    case isFalse => exact reader.fresh_size _
  match point with
  | none        => nomatch h
  | some (x, y) =>
    rw [x509PublicKeyToEcc] at h
    split at h
    case isTrue => nomatch h
    case isFalse =>
      refine innerKey_held h ?_
      rw [List.length_append, hpart, hpart]
      exact Nat.le_refl _

theorem getBnBinpad_size {n : BigNum} {part : Bytes} (h : getBnBinpad n = .ok part) :
    part.size.toNat = part.length := by
  have hnum := n.numBytes_le
  rw [getBnBinpad] at h
  split at h
  case isTrue => nomatch h
  case isFalse =>
    rw [← Except.ok.inj h, Bytes.size, BigNum.length_bn2bin]
    exact UInt32.toNat_ofNat_of_lt' (by rw [UInt32.size]; omega)

theorem sm2_held {alg keyLen : UInt32} {x y : BigNum}
    (h : x509PublicKeyToSm2 alg keyLen x y = .ok inner) : SizesHeld inner := by
  rw [x509PublicKeyToSm2] at h
  split at h
  case isTrue => nomatch h
  case isFalse =>
    split at h
    case isTrue => nomatch h
    case isFalse =>
      obtain ⟨pubX, hx, h⟩ := bind_eq_ok.mp h
      obtain ⟨pubY, hy, h⟩ := bind_eq_ok.mp h
      refine innerKey_held h ?_
      rw [List.length_append, getBnBinpad_size hx, getBnBinpad_size hy]
      exact Nat.le_refl _

-- The two sizes more in the header of a DSA key are as many bytes as parts of a shorter header.
theorem dsa_held {y p q g : Option BigNum} (h : x509PublicKeyToDsa y p q g = .ok inner) : SizesHeld inner := by
  obtain ⟨y, _, h⟩ := bind_eq_ok.mp h
  obtain ⟨p, _, h⟩ := bind_eq_ok.mp h
  obtain ⟨q, _, h⟩ := bind_eq_ok.mp h
  obtain ⟨g, _, h⟩ := bind_eq_ok.mp h
  dsimp only at h
  split at h
  case isTrue => nomatch h
  case isFalse =>
    rw [innerKey] at h
    split at h
    case isFalse => nomatch h
    have hheader (ws : List UInt32) (l : Bytes) : (HksKeyAlg.dsa :: ws).flatMap toBytes32 ++ l =
        (HksKeyAlg.dsa :: ws.take 4).flatMap toBytes32 ++ ((ws.drop 4).flatMap toBytes32 ++ l) := by
      rw [← List.append_assoc, ← List.flatMap_append, List.cons_append, List.take_append_drop]
    rw [← Except.ok.inj h, hheader]
    refine sizesHeld_header ?_
    simp only [List.length_append, BigNum.length_bn2bin]
    change 0 + y.numBytes.toNat + p.numBytes.toNat ≤ _
    omega

theorem dh_held {bits : UInt32} {pubKey : Option BigNum}
    (h : x509PublicKeyToDh bits pubKey = .ok inner) : SizesHeld inner := by
  match pubKey with
  | none        => nomatch h
  | some pubKey =>
    rw [x509PublicKeyToDh] at h
    split at h
    case isTrue => nomatch h
    case isFalse =>
      refine innerKey_held h ?_
      rw [BigNum.length_bn2bin]
      exact Nat.le_refl _

theorem curve25519_held {alg : UInt32} (h : translateToInnerCurve25519Format alg key = .ok inner) :
    SizesHeld inner := by
  rw [translateToInnerCurve25519Format] at h
  split at h
  case isTrue => nomatch h
  case isFalse hlen =>
    refine innerKey_held h ?_
    rw [Bytes.size, not_not.mp hlen]
    decide

theorem innerFormat_held {alg : UInt32} (h : alg = HksKeyAlg.ecdh ∨ alg = HksKeyAlg.x25519 ∨ alg = HksKeyAlg.dh)
    (hinner : getHksPubKeyInnerFormat reader alg key = .ok inner) : SizesHeld inner := by
  have hx509 (hinner : translateFromX509PublicKey reader alg key = .ok inner) : SizesHeld inner := by
    rw [translateFromX509PublicKey] at hinner
    split at hinner
    · nomatch hinner
    · exact rsa_held hinner
    · exact ecc_held hinner
    · exact sm2_held hinner
    · exact dsa_held hinner
    · exact dh_held hinner
    · nomatch hinner
  rw [getHksPubKeyInnerFormat] at hinner
  split at hinner
  case isTrue => nomatch hinner
  case isFalse =>
    obtain rfl | rfl | rfl := h
    · exact hx509 hinner
    · exact curve25519_held hinner
    · exact hx509 hinner

end Inner

-- A reader may leave fresh memory zero.
theorem freshZeros_size (size : Nat) : (List.replicate size (0 : UInt8)).length = size :=
  List.length_replicate

end Huks
