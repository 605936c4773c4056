import Huks.Crypto.Theorems.X509Reading

namespace Huks.InPlace

section Numbers

variable {key front behind : Bytes} {len : UInt32} {n : BigNum}

-- The bytes that a number takes
def byteLength (n : Nat) : Nat := (n.size + 7) / 8

theorem numBytes_toNat : n.numBytes.toNat = byteLength n.value := by
  have hsmall := n.small
  exact UInt32.toNat_ofNat_of_lt' (by rw [UInt32.size]; omega)

theorem lt_of_byteLength (m : Nat) : m < 256 ^ byteLength m := by
  have h256 : 256 ^ byteLength m = 2 ^ (8 * byteLength m) := by rw [Nat.pow_mul]
  rw [h256, ← Nat.size_le, byteLength]
  omega

theorem byteLength_le {m bits : Nat} (h : m < 2 ^ bits) : byteLength m ≤ (bits + 7) / 8 := by
  have hsize := Nat.size_le.mpr h
  rw [byteLength]
  omega

theorem byteLength_eq_zero {m : Nat} : byteLength m = 0 ↔ m = 0 := by
  rw [← Nat.size_eq_zero (n := m), byteLength]
  omega

theorem numBytes_eq_zero : n.numBytes = 0 ↔ n.value = 0 := by
  rw [← UInt32.toNat_inj, numBytes_toNat, UInt32.toNat_zero, byteLength_eq_zero]

theorem bigNum_eq_some {m : Nat} : bigNum m = some n ↔ m = n.value := by
  rw [bigNum]
  split
  case isTrue h => exact ⟨fun heq => Option.some.inj heq ▸ rfl, fun heq => by subst heq; rfl⟩
  case isFalse h => exact ⟨nofun, fun heq => absurd (heq ▸ n.small) h⟩

-- The number in the bytes of a part
def partNumber (key : Bytes) (offset : Nat) (size : UInt32) : Nat := bigEndian (slice key offset size.toNat)

theorem bigPart_eq_some {p : KeyPart} :
    bigPart key p = some n ↔ p.size.toNat < 2 ^ 31 ∧ n.value = partNumber key p.offset.toNat p.size := by
  rw [bigPart, part]
  split
  case isTrue h => exact iff_of_false (fun h => by cases h) fun hlt => absurd h (Nat.not_le.mpr hlt.1)
  case isFalse h => rw [Option.bind_some, bigNum_eq_some, and_iff_right (Nat.not_le.mp h), partNumber, eq_comm]

-- A number that has been written into a key
theorem number_bigEndianBytes {i m : Nat} (hfront : front.length = i) (hlt : m < 256 ^ len.toNat) :
    partNumber (front ++ bigEndianBytes len.toNat m ++ behind) i len = m := by
  have hlen : (bigEndianBytes len.toNat m).length = len.toNat := BigNum.length_bigEndianBytes _ _
  rw [partNumber, slice, List.append_assoc, ← hfront, List.drop_left]
  nth_rewrite 1 [← hlen]
  rw [List.take_left, bigEndian_bigEndianBytes hlt]

end Numbers

section Layout

-- The number fits into so many bytes.
structure FitsIn (size : UInt32) (n : BigNum) : Prop where
  small : size.toNat ≤ 2 ^ 28
  lt    : n.value < 256 ^ size.toNat

theorem holds_numBytes (n : BigNum) : FitsIn n.numBytes n where
  small := n.numBytes_le
  lt    := numBytes_toNat ▸ lt_of_byteLength n.value

-- A key with two numbers, as `TranslateFromX509PublicKey` writes it
def pairKey (alg keySize xSize ySize : UInt32) (x y : BigNum) : Bytes :=
  [alg, keySize, xSize, ySize, 0].flatMap toBytes32 ++
    (bigEndianBytes xSize.toNat x.value ++ bigEndianBytes ySize.toNat y.value)

variable {alg keySize xSize ySize : UInt32} {x y : BigNum}

theorem length_header {header : List UInt32} : (header.flatMap toBytes32).length = 4 * header.length := by
  induction header
  case nil => rfl
  case cons w ws ih =>
    rw [List.flatMap_cons, List.length_append, ih, length_toBytes32, List.length_cons]
    omega

theorem length_pairKey : (pairKey alg keySize xSize ySize x y).length = 20 + xSize.toNat + ySize.toNat := by
  rw [pairKey, List.length_append, length_header, List.length_append, BigNum.length_bigEndianBytes,
    BigNum.length_bigEndianBytes, Nat.add_assoc]
  rfl

theorem keyWord_pairKey : keyWord (pairKey alg keySize xSize ySize x y) 0 = alg ∧
    keyWord (pairKey alg keySize xSize ySize x y) 1 = keySize ∧
    keyWord (pairKey alg keySize xSize ySize x y) 2 = xSize ∧
    keyWord (pairKey alg keySize xSize ySize x y) 3 = ySize :=
  ⟨keyWord_header (by simp), keyWord_header (by simp), keyWord_header (by simp), keyWord_header (by simp)⟩

theorem pairFits_pairKey : PairFits (pairKey alg keySize xSize ySize x y) := by
  have ⟨_, _, hx, hy⟩ := @keyWord_pairKey alg keySize xSize ySize x y
  rw [PairFits, hx, hy, length_pairKey]
  exact ⟨by omega, Nat.le_refl _⟩

theorem small_pairKey (hx : FitsIn xSize x) (hy : FitsIn ySize y) :
    (pairKey alg keySize xSize ySize x y).length < UInt32.size := by
  have hxsmall := hx.small
  have hysmall := hy.small
  rw [length_pairKey, UInt32.size]
  omega

theorem number_first (hx : FitsIn xSize x) : partNumber (pairKey alg keySize xSize ySize x y) 20 xSize = x.value := by
  rw [pairKey, ← List.append_assoc]
  exact number_bigEndianBytes length_header hx.lt

theorem number_second (hy : FitsIn ySize y) :
    partNumber (pairKey alg keySize xSize ySize x y) (20 + xSize.toNat) ySize = y.value := by
  rw [pairKey, ← List.append_assoc, ← List.append_nil (_ ++ bigEndianBytes ySize.toNat y.value)]
  refine number_bigEndianBytes ?_ hy.lt
  rw [List.length_append, length_header, BigNum.length_bigEndianBytes]
  rfl

theorem bigPart_firstPart (hx : FitsIn xSize x) :
    bigPart (pairKey alg keySize xSize ySize x y) (firstPart (pairKey alg keySize xSize ySize x y)) = some x := by
  have ⟨_, _, hsize, _⟩ := @keyWord_pairKey alg keySize xSize ySize x y
  have hxsmall := hx.small
  rw [firstPart, hsize, bigPart_eq_some]
  exact ⟨by dsimp only; omega, (number_first hx).symm⟩

theorem bigPart_secondPart (hx : FitsIn xSize x) (hy : FitsIn ySize y) :
    bigPart (pairKey alg keySize xSize ySize x y) (secondPart (pairKey alg keySize xSize ySize x y)) = some y := by
  have ⟨_, _, hfirst, hsecond⟩ := @keyWord_pairKey alg keySize xSize ySize x y
  have hysmall := hy.small
  rw [bigPart_eq_some, secondPart_offset (small_pairKey hx hy) pairFits_pairKey, secondPart, hfirst, hsecond]
  exact ⟨by dsimp only; omega, (number_second hy).symm⟩

end Layout

section Dsa

variable {key : Bytes} {n y p q g : BigNum}

-- The offsets of 32 bits are exact where the declared parts are in the key.
structure DsaOffsets (key : Bytes) : Prop where
  y   : (dsaY key).offset.toNat = 28 + (keyWord key 2).toNat
  p   : (dsaP key).offset.toNat = 28 + (keyWord key 2).toNat + (keyWord key 3).toNat
  q   : (dsaQ key).offset.toNat = 28 + (keyWord key 2).toNat + (keyWord key 3).toNat + (keyWord key 4).toNat
  g   : (dsaG key).offset.toNat =
    28 + (keyWord key 2).toNat + (keyWord key 3).toNat + (keyWord key 4).toNat + (keyWord key 5).toNat
  end_le : 28 + (keyWord key 2).toNat + (keyWord key 3).toNat + (keyWord key 4).toNat + (keyWord key 5).toNat +
    (keyWord key 6).toNat ≤ key.length

theorem dsaOffsets (hsmall : key.length < UInt32.size) (hfits : KeyFormat.dsa.Fits key) : DsaOffsets key := by
  have ⟨hheader, hsum⟩ := hfits
  simp only [KeyFormat.declaredSize, KeyFormat.headerSize, KeyFormat.sizeWords, List.map_cons, List.map_nil,
    List.sum_cons, List.sum_nil] at hheader hsum
  have hy : (28 + keyWord key 2).toNat = 28 + (keyWord key 2).toNat := toNat_add_of_lt (by
    change 28 + (keyWord key 2).toNat < _
    omega)
  have hp : (28 + keyWord key 2 + keyWord key 3).toNat = (28 + keyWord key 2).toNat + (keyWord key 3).toNat :=
    toNat_add_of_lt (by omega)
  have hq : (28 + keyWord key 2 + keyWord key 3 + keyWord key 4).toNat =
      (28 + keyWord key 2 + keyWord key 3).toNat + (keyWord key 4).toNat := toNat_add_of_lt (by omega)
  have hg : (28 + keyWord key 2 + keyWord key 3 + keyWord key 4 + keyWord key 5).toNat =
      (28 + keyWord key 2 + keyWord key 3 + keyWord key 4).toNat + (keyWord key 5).toNat := toNat_add_of_lt (by omega)
  constructor
  case y => exact hy
  case p => exact hp.trans (by omega)
  case q => exact hq.trans (by omega)
  case g => exact hg.trans (by omega)
  case end_le => omega

theorem dsaChecked_of_fits (hsmall : key.length < UInt32.size) (hfits : KeyFormat.dsa.Fits key) : DsaChecked key := by
  have ⟨_, _, _, hg, hend⟩ := dsaOffsets hsmall hfits
  change (28 + keyWord key 2 + keyWord key 3 + keyWord key 4 + keyWord key 5).toNat = _ at hg
  refine ⟨hfits.1, ?_⟩
  rw [toNat_add_of_lt (by omega)]
  omega

theorem dsaReadable_of_fits (hsmall : key.length < UInt32.size) (hfits : KeyFormat.dsa.Fits key) : DsaReadable key := by
  have ⟨hy, hp, hq, hg, hend⟩ := dsaOffsets hsmall hfits
  intro _ _ part hpart
  refine .inr (.inr ?_)
  simp only [dsaParts, List.mem_cons, List.not_mem_nil, or_false] at hpart
  obtain rfl | rfl | rfl | rfl := hpart
  · change (dsaY key).offset.toNat + (keyWord key 3).toNat ≤ _
    omega
  · change (dsaP key).offset.toNat + (keyWord key 4).toNat ≤ _
    omega
  · change (dsaQ key).offset.toNat + (keyWord key 5).toNat ≤ _
    omega
  · change (dsaG key).offset.toNat + (keyWord key 6).toNat ≤ _
    omega

-- A key for DSA, as `TranslateFromX509PublicKey` writes it
def dsaKeyBytes (keySize : UInt32) (y p q g : BigNum) : Bytes :=
  [HksKeyAlg.dsa, keySize, 0, y.numBytes, p.numBytes, q.numBytes, g.numBytes].flatMap toBytes32 ++
    (y.bn2bin ++ p.bn2bin ++ q.bn2bin ++ g.bn2bin)

variable {keySize : UInt32}

theorem keyWord_dsaKeyBytes : keyWord (dsaKeyBytes keySize y p q g) 0 = HksKeyAlg.dsa ∧
    keyWord (dsaKeyBytes keySize y p q g) 1 = keySize ∧ keyWord (dsaKeyBytes keySize y p q g) 2 = 0 ∧
    keyWord (dsaKeyBytes keySize y p q g) 3 = y.numBytes ∧ keyWord (dsaKeyBytes keySize y p q g) 4 = p.numBytes ∧
    keyWord (dsaKeyBytes keySize y p q g) 5 = q.numBytes ∧ keyWord (dsaKeyBytes keySize y p q g) 6 = g.numBytes :=
  ⟨keyWord_header (by simp), keyWord_header (by simp), keyWord_header (by simp), keyWord_header (by simp),
    keyWord_header (by simp), keyWord_header (by simp), keyWord_header (by simp)⟩

theorem length_dsaKeyBytes : (dsaKeyBytes keySize y p q g).length =
    28 + y.numBytes.toNat + p.numBytes.toNat + q.numBytes.toNat + g.numBytes.toNat := by
  simp only [dsaKeyBytes, List.length_append, length_header, BigNum.length_bn2bin, List.length_cons, List.length_nil]
  omega

theorem small_dsaKeyBytes : (dsaKeyBytes keySize y p q g).length < UInt32.size := by
  have hy := y.numBytes_le
  have hp := p.numBytes_le
  have hq := q.numBytes_le
  have hg := g.numBytes_le
  rw [length_dsaKeyBytes, UInt32.size]
  omega

theorem fits_dsaKeyBytes : KeyFormat.dsa.Fits (dsaKeyBytes keySize y p q g) := by
  have ⟨_, _, hx, hy, hp, hq, hg⟩ := @keyWord_dsaKeyBytes y p q g keySize
  rw [KeyFormat.Fits, length_dsaKeyBytes]
  simp only [KeyFormat.declaredSize, KeyFormat.headerSize, KeyFormat.sizeWords, List.map_cons, List.map_nil,
    List.sum_cons, List.sum_nil, hx, hy, hp, hq, hg]
  change _ ∧ 28 + (0 + _) ≤ _
  omega

-- A number of a key that is rebuilt, behind what is in front of it
theorem number_bn2bin {front behind : Bytes} {i : Nat} (hfront : front.length = i) :
    partNumber (front ++ n.bn2bin ++ behind) i n.numBytes = n.value :=
  number_bigEndianBytes hfront (holds_numBytes n).lt

theorem bigPart_dsaKeyBytes :
    bigPart (dsaKeyBytes keySize y p q g) (dsaY (dsaKeyBytes keySize y p q g)) = some y ∧
    bigPart (dsaKeyBytes keySize y p q g) (dsaP (dsaKeyBytes keySize y p q g)) = some p ∧
    bigPart (dsaKeyBytes keySize y p q g) (dsaQ (dsaKeyBytes keySize y p q g)) = some q ∧
    bigPart (dsaKeyBytes keySize y p q g) (dsaG (dsaKeyBytes keySize y p q g)) = some g := by
  have hoffsets := dsaOffsets (@small_dsaKeyBytes y p q g keySize) fits_dsaKeyBytes
  have ⟨_, _, hx, hy, hp, hq, hg⟩ := @keyWord_dsaKeyBytes y p q g keySize
  have hsize (n : BigNum) : n.numBytes.toNat < 2 ^ 31 := Nat.lt_of_le_of_lt n.numBytes_le (by decide)
  have hzero : (0 : UInt32).toNat = 0 := rfl
  have hheader : ([HksKeyAlg.dsa, keySize, 0, y.numBytes, p.numBytes, q.numBytes, g.numBytes].flatMap
      toBytes32).length = 28 := length_header
  simp only [bigPart_eq_some, hoffsets.y, hoffsets.p, hoffsets.q, hoffsets.g]
  simp only [dsaY, dsaP, dsaQ, dsaG, hx, hy, hp, hq, hg, hsize, true_and, hzero, Nat.add_zero]
  simp only [dsaKeyBytes]
  refine ⟨?_, ?_, ?_, ?_⟩
  case refine_1 =>
    simp only [List.append_assoc]
    rw [← List.append_assoc]
    exact (number_bn2bin (hheader)).symm
  case refine_2 =>
    simp only [List.append_assoc]
    rw [← List.append_assoc, ← List.append_assoc]
    refine (number_bn2bin ?_).symm
    rw [List.length_append, hheader, BigNum.length_bn2bin]
  case refine_3 =>
    simp only [List.append_assoc]
    rw [← List.append_assoc, ← List.append_assoc, ← List.append_assoc]
    refine (number_bn2bin ?_).symm
    rw [List.length_append, List.length_append, hheader, BigNum.length_bn2bin, BigNum.length_bn2bin]
  case refine_4 =>
    rw [← List.append_assoc, ← List.append_nil (_ ++ g.bn2bin)]
    refine (number_bn2bin ?_).symm
    rw [List.length_append, List.length_append, List.length_append, hheader, BigNum.length_bn2bin,
      BigNum.length_bn2bin, BigNum.length_bn2bin]
    omega

end Dsa

end Huks.InPlace
