import Huks.Crypto.Theorems.X509Layout

namespace Huks.InPlace

section RoundTrip

-- The numbers of a key: for DSA the public value and the parameters, for DH the public value, and the
-- two parts otherwise
def components (key : Bytes) : List Nat :=
  if keyWord key 0 = HksKeyAlg.dsa then
    let y := 28 + (keyWord key 2).toNat
    let p := y + (keyWord key 3).toNat
    let q := p + (keyWord key 4).toNat
    let g := q + (keyWord key 5).toNat
    [partNumber key y (keyWord key 3), partNumber key p (keyWord key 4), partNumber key q (keyWord key 5),
      partNumber key g (keyWord key 6)]
  else if keyWord key 0 = HksKeyAlg.dh then
    [partNumber key 20 (keyWord key 2)]
  else
    [partNumber key 20 (keyWord key 2), partNumber key (20 + (keyWord key 2).toNat) (keyWord key 3)]

structure SamePublicKey (key key' : Bytes) : Prop where
  alg        : keyWord key' 0 = keyWord key 0
  keySize    : keyWord key' 1 = keyWord key 1
  components : components key' = components key

-- The encoding is read, and what it is read as is the key, and is encoded as before.
def Returned (lib : X509Library) (key der : Bytes) : Prop :=
  ∃ key', translateFromX509PublicKey lib.toPublicKeyReader (keyWord key 0) der = .ok key' ∧ SamePublicKey key key' ∧
    translateToX509PublicKey lib key' = .ok der

-- What the way back makes of the header and of the numbers is what the key has there.
def Survives (key : Bytes) : Prop :=
  (keyWord key 0 = HksKeyAlg.rsa → 0 ∉ components key ∧
    (keyWord key 1).toNat = 8 * byteLength (partNumber key 20 (keyWord key 2))) ∧
  (keyWord key 0 = HksKeyAlg.sm2 → 0 ∉ components key ∧ keyWord key 1 = 256) ∧
  (keyWord key 0 = HksKeyAlg.dsa → 0 ∉ components key ∧ (keyWord key 1).toNat =
    (byteLength (partNumber key (28 + (keyWord key 2).toNat) (keyWord key 3)) + 7) / 8 * 64)

variable {lib : X509Library} {key der inner : Bytes} {k : EvpPublicKey} {x y n e : BigNum}

theorem evpKeyToX509Format_eq_ok : evpKeyToX509Format lib k = .ok der ↔
    lib.i2dPubkey k = some der ∧ der ≠ [] ∧ der.length ≤ maxX509KeySize := by
  rw [evpKeyToX509Format]
  split
  case h_1 h => simp [h]
  case h_2 d h =>
    rw [h, Option.some_inj]
    split
    case isTrue hbad =>
      refine iff_of_false nofun ?_
      rintro ⟨rfl, hne, hle⟩
      exact hbad.elim hne (Nat.not_lt.mpr hle)
    case isFalse hgood =>
      have ⟨hne, hle⟩ := not_or.mp hgood
      have hm : mallocOk d.length = true := by
        have hpos := List.length_pos_iff.mpr hne
        rw [maxX509KeySize] at hle
        exact decide_eq_true ⟨hpos, by omega⟩
      rw [if_pos hm]
      exact ⟨fun heq => Except.ok.inj heq ▸ ⟨rfl, hne, Nat.not_lt.mp hle⟩, fun ⟨heq, _⟩ => congrArg _ heq⟩

-- There is room for the numbers of an encoding, and for a header.
theorem numbers_le (h : evpKeyToX509Format lib k = .ok der) :
    ((encodedNumbers k).map fun n => n.numBytes.toNat).sum ≤ maxX509KeySize :=
  have ⟨hder, _, hle⟩ := evpKeyToX509Format_eq_ok.mp h
  Nat.le_trans (lib.length_i2d k der hder) hle

theorem translateFrom_eq (h : evpKeyToX509Format lib k = .ok der) (alg : UInt32) :
    translateFromX509PublicKey lib.toPublicKeyReader alg der =
      match k with
      | .rsa size n e    => x509PublicKeyToRsa size n e
      | .ec keyLen point => x509PublicKeyToEcc lib.toPublicKeyReader alg keyLen point
      | .sm2 keyLen x y  => x509PublicKeyToSm2 alg keyLen x y
      | .dsa y p q g     => x509PublicKeyToDsa y p q g
      | .dh bits pubKey  => x509PublicKeyToDh bits pubKey
      | .other           => .error .invalidArgument := by
  rw [translateFromX509PublicKey, lib.d2i_i2d k der (evpKeyToX509Format_eq_ok.mp h).1]
  cases k <;> rfl

theorem innerKey_eq_ok {malloc : HksErrorCode} {size : UInt32} {header : List UInt32} {parts : Bytes} :
    innerKey malloc size header parts = .ok inner ↔
      mallocOk size.toNat ∧ inner = header.flatMap toBytes32 ++ parts := by
  rw [innerKey]
  split
  case isTrue h => simp [h, eq_comm]
  case isFalse h => simp [h]

-- The sum of two sizes and that of the header
theorem mallocOk_pair {a b : UInt32} (h : a.toNat + b.toNat ≤ maxX509KeySize) : mallocOk (a + b + 20).toNat := by
  rw [maxX509KeySize] at h
  have hsum : (a + b + 20).toNat = a.toNat + b.toNat + 20 := by
    rw [UInt32.toNat_add, UInt32.toNat_add]
    change ((a.toNat + b.toNat) % 2 ^ 32 + 20) % 2 ^ 32 = _
    omega
  rw [hsum, mallocOk_iff]
  omega

theorem x509PublicKeyToRsa_eq_ok (h : n.numBytes.toNat + e.numBytes.toNat ≤ maxX509KeySize) :
    x509PublicKeyToRsa n.numBytes n e = .ok inner ↔
      (n.value ≠ 0 ∧ e.value ≠ 0) ∧ inner = pairKey HksKeyAlg.rsa (n.numBytes * 8) n.numBytes e.numBytes n e := by
  rw [x509PublicKeyToRsa]
  simp only [numBytes_eq_zero]
  split
  case isTrue hzero => exact iff_of_false (fun h => by cases h) fun hne => hzero.elim hne.1.1 hne.1.2
  case isFalse hne => rw [innerKey_eq_ok, and_iff_right (mallocOk_pair h), and_iff_right (not_or.mp hne)]; rfl

-- A key with two numbers is known by what `BN_bin2bn` makes of its parts.
theorem components_pair (hsmall : key.length < UInt32.size) (hfits : PairFits key)
    (hdsa : keyWord key 0 ≠ HksKeyAlg.dsa) (hdh : keyWord key 0 ≠ HksKeyAlg.dh)
    (hx : bigPart key (firstPart key) = some x) (hy : bigPart key (secondPart key) = some y) :
    components key = [x.value, y.value] := by
  have ⟨_, hxvalue⟩ := bigPart_eq_some.mp hx
  have ⟨_, hyvalue⟩ := bigPart_eq_some.mp hy
  rw [secondPart_offset hsmall hfits] at hyvalue
  rw [components, if_neg hdsa, if_neg hdh, hxvalue, hyvalue]
  rfl

section PairKey

variable {alg keySize xSize ySize : UInt32}

theorem components_pairKey (hx : FitsIn xSize x) (hy : FitsIn ySize y) (hdsa : alg ≠ HksKeyAlg.dsa)
    (hdh : alg ≠ HksKeyAlg.dh) : components (pairKey alg keySize xSize ySize x y) = [x.value, y.value] := by
  have halg := (@keyWord_pairKey alg keySize xSize ySize x y).1
  exact components_pair (small_pairKey hx hy) pairFits_pairKey (by rwa [halg]) (by rwa [halg]) (bigPart_firstPart hx)
    (bigPart_secondPart hx hy)

-- A rebuilt key is encoded as the key that the library makes of it.
theorem translate_pairKey (hx : FitsIn xSize x) (hy : FitsIn ySize y) (hdsa : alg ≠ HksKeyAlg.dsa)
    (hcurve : alg ≠ HksKeyAlg.x25519 ∧ alg ≠ HksKeyAlg.ed25519)
    (hk : evpKey lib (pairKey alg keySize xSize ySize x y) = some k) (hder : evpKeyToX509Format lib k = .ok der) :
    translateToX509PublicKey lib (pairKey alg keySize xSize ySize x y) = .ok der := by
  have halg := (@keyWord_pairKey alg keySize xSize ySize x y).1
  have hnocurve : ¬isCurve25519 (pairKey alg keySize xSize ySize x y) := by
    rw [isCurve25519, halg]
    exact not_or.mpr hcurve
  have hnodsa : keyWord (pairKey alg keySize xSize ySize x y) 0 ≠ HksKeyAlg.dsa := by rwa [halg]
  exact (translate_eq_ok (small_pairKey hx hy) hnocurve).mpr ⟨fun _ h => absurd h hnodsa,
    ⟨pairFits_pairKey, fun h => absurd h hnodsa⟩, k, hk, hder⟩

end PairKey

theorem rsaKey_eq_some {m p : KeyPart} : rsaKey key m p = some k ↔
    ∃ n e, bigPart key m = some n ∧ bigPart key p = some e ∧ k = .rsa n.numBytes n e := by
  simp only [rsaKey, Option.bind_eq_bind, Option.bind_eq_some_iff, Option.pure_def, Option.some_inj, @eq_comm _ _ k,
    exists_and_left]

theorem returned_rsa (hsmall : key.length < UInt32.size) (halg : keyWord key 0 = HksKeyAlg.rsa)
    (h : translateToX509PublicKey lib key = .ok der) : Returned lib key der ↔
      0 ∉ components key ∧ (keyWord key 1).toNat = 8 * byteLength (partNumber key 20 (keyWord key 2)) := by
  have hcurve : ¬isCurve25519 key := by
    rw [isCurve25519, halg]
    decide
  obtain ⟨_, ⟨hfits, _⟩, k, hk, hder⟩ := (translate_eq_ok hsmall hcurve).mp h
  rw [evpKey, halg, if_pos rfl, rsaKey_eq_some] at hk
  obtain ⟨n, e, hn, he, rfl⟩ := hk
  have hcomponents := components_pair hsmall hfits (halg ▸ by decide) (halg ▸ by decide) hn he
  have hmodulus : n.value = partNumber key 20 (keyWord key 2) := (bigPart_eq_some.mp hn).2
  have hroom : n.numBytes.toNat + e.numBytes.toNat ≤ maxX509KeySize := by simpa [encodedNumbers] using numbers_le hder
  have hsize : (n.numBytes * 8).toNat = 8 * byteLength n.value := by
    have hle := n.numBytes_le
    rw [UInt32.toNat_mul, ← numBytes_toNat]
    change n.numBytes.toNat * 8 % 2 ^ 32 = _
    omega
  have hzero : 0 ∉ components key ↔ n.value ≠ 0 ∧ e.value ≠ 0 := by
    simp [hcomponents, eq_comm]
  obtain ⟨hword0, hword1, _⟩ := @keyWord_pairKey HksKeyAlg.rsa (n.numBytes * 8) n.numBytes e.numBytes n e
  rw [hzero, ← hmodulus, ← hsize]
  constructor
  case mp =>
    rintro ⟨key', hfrom, hsame, _⟩
    rw [translateFrom_eq hder] at hfrom
    obtain ⟨hne, hkey'⟩ := (x509PublicKeyToRsa_eq_ok hroom).mp hfrom
    exact ⟨hne, by rw [← hsame.keySize, hkey', hword1]⟩
  case mpr =>
    rintro ⟨hne, hkeySize⟩
    refine ⟨pairKey HksKeyAlg.rsa (n.numBytes * 8) n.numBytes e.numBytes n e, ?_, ⟨?_, ?_, ?_⟩, ?_⟩
    case refine_1 =>
      rw [translateFrom_eq hder]
      exact (x509PublicKeyToRsa_eq_ok hroom).mpr ⟨hne, rfl⟩
    case refine_2 => rw [hword0, halg]
    case refine_3 => rw [hword1, ← UInt32.toNat_inj, hkeySize]
    case refine_4 =>
      rw [hcomponents]
      exact components_pairKey (holds_numBytes n) (holds_numBytes e) (by decide) (by decide)
    case refine_5 =>
      refine translate_pairKey (holds_numBytes n) (holds_numBytes e) (by decide) (by decide) ?_ hder
      rw [evpKey, hword0, if_pos rfl, rsaKey_eq_some]
      exact ⟨n, e, bigPart_firstPart (holds_numBytes n), bigPart_secondPart (holds_numBytes n) (holds_numBytes e), rfl⟩

section Points

variable {nid : Nid} {alg keySize : UInt32}

theorem toNat_hksKeyBytes (nid : Nid) : (hksKeyBytes nid.bits).toNat = (nid.bits.toNat + 7) / 8 ∧
    nid.bits.toNat ≤ 4096 := by
  cases nid <;> decide

theorem holds_coordinate (h : x.value < 2 ^ nid.bits.toNat) : FitsIn (hksKeyBytes nid.bits) x where
  small := by
    have ⟨hbytes, hbits⟩ := toNat_hksKeyBytes nid
    omega
  lt    := by
    rw [(toNat_hksKeyBytes nid).1, show 256 = 2 ^ 8 from rfl, ← Nat.pow_mul]
    exact Nat.lt_of_lt_of_le h (Nat.pow_le_pow_right (by decide) (by omega))

theorem bn2binpad_of_holds {size : UInt32} (h : FitsIn size x) :
    x.bn2binpad size = some (bigEndianBytes size.toNat x.value) := by
  have hle : byteLength x.value ≤ size.toNat := by
    have hlt := h.lt
    rw [show 256 = 2 ^ 8 from rfl, ← Nat.pow_mul] at hlt
    have hbytes := byteLength_le hlt
    omega
  rw [BigNum.bn2binpad, if_pos (UInt32.le_iff_toNat_le.mpr (numBytes_toNat ▸ hle))]

-- The coordinates of a point fit into the bytes of the key, and none is too long to be written.
theorem x509PublicKeyToEcc_eq {reader : PublicKeyReader} (hbits : nid.bits.toNat ≤ 521)
    (hx : FitsIn (hksKeyBytes nid.bits) x) (hy : FitsIn (hksKeyBytes nid.bits) y) :
    x509PublicKeyToEcc reader alg nid.bits (some (x, y)) =
      .ok (pairKey alg nid.bits (hksKeyBytes nid.bits) (hksKeyBytes nid.bits) x y) := by
  have ⟨hbytes, _⟩ := toNat_hksKeyBytes nid
  have hgood : ¬(nid.bits = 0 ∨ 521 < nid.bits) := by
    rw [UInt32.lt_iff_toNat_lt]
    refine not_or.mpr ⟨by cases nid <;> decide, Nat.not_lt.mpr hbits⟩
  have hroom : mallocOk (hksKeyBytes nid.bits + hksKeyBytes nid.bits + 20).toNat :=
    mallocOk_pair (by rw [maxX509KeySize]; omega)
  simp only [x509PublicKeyToEcc, if_neg hgood, bn2binpad_of_holds hx, bn2binpad_of_holds hy, Option.getD_some, innerKey,
    hroom, if_true, pairKey]

theorem pointKey_eq_some {p q : KeyPart} : pointKey lib nid key p q = some k ↔
    ∃ x y, bigPart key p = some x ∧ bigPart key q = some y ∧ lib.setAffineCoordinates nid x y ∧ k = ecKey nid x y := by
  simp only [pointKey, Option.bind_eq_bind, Option.bind_eq_some_iff, Option.ite_none_right_eq_some, Option.some_inj,
    @eq_comm _ _ k, exists_and_left]

theorem getEccNid_eq_ok (h : getEccNid keySize = .ok nid) :
    nid.bits = keySize ∧ nid ≠ .sm2 ∧ nid.bits.toNat ≤ 521 := by
  rw [getEccNid] at h
  split at h
  case isTrue hsize => exact Except.ok.inj h ▸ ⟨hsize.symm, by decide, by decide⟩
  split at h
  case isTrue hsize => exact Except.ok.inj h ▸ ⟨hsize.symm, by decide, by decide⟩
  split at h
  case isTrue hsize => exact Except.ok.inj h ▸ ⟨hsize.symm, by decide, by decide⟩
  split at h
  case isTrue hsize => exact Except.ok.inj h ▸ ⟨hsize.symm, by decide, by decide⟩
  nomatch h

-- What the library makes of the two coordinates of a rebuilt key
theorem evpKey_pairKey_point (halg : alg = HksKeyAlg.ecc ∨ alg = HksKeyAlg.sm2) (hnid : eccNid alg keySize = some nid)
    {xSize ySize : UInt32} (hx : FitsIn xSize x) (hy : FitsIn ySize y) (hset : lib.setAffineCoordinates nid x y) :
    evpKey lib (pairKey alg keySize xSize ySize x y) = some (ecKey nid x y) := by
  have ⟨hword0, hword1, _⟩ := @keyWord_pairKey alg keySize xSize ySize x y
  have hrsa : alg ≠ HksKeyAlg.rsa := by
    obtain rfl | rfl := halg
    · decide
    · decide
  rw [evpKey, hword0, hword1, if_neg hrsa, if_pos halg, hnid, Option.bind_some, pointKey_eq_some]
  exact ⟨x, y, bigPart_firstPart hx, bigPart_secondPart hx hy, hset, rfl⟩

-- A key on a curve comes back as it was, with its numbers in the bytes that the curve needs.
theorem returned_ecc (hsmall : key.length < UInt32.size) (halg : keyWord key 0 = HksKeyAlg.ecc)
    (h : translateToX509PublicKey lib key = .ok der) : Returned lib key der := by
  have hcurve : ¬isCurve25519 key := by
    rw [isCurve25519, halg]
    decide
  obtain ⟨_, ⟨hfits, _⟩, k, hk, hder⟩ := (translate_eq_ok hsmall hcurve).mp h
  rw [evpKey, halg, if_neg (by decide), if_pos (.inl rfl), Option.bind_eq_some_iff] at hk
  obtain ⟨nid, hnid, hpoint⟩ := hk
  obtain ⟨x, y, hx, hy, hset, hec⟩ := pointKey_eq_some.mp hpoint
  have hnamed : getEccNid (keyWord key 1) = .ok nid := by
    rw [eccNid, if_neg (by decide)] at hnid
    cases hget : getEccNid (keyWord key 1)
    case error => rw [hget] at hnid; cases hnid
    case ok nid' => rw [hget] at hnid; exact congrArg _ (Option.some.inj hnid)
  obtain ⟨hkeySize, hsm2, hbits⟩ := getEccNid_eq_ok hnamed
  obtain ⟨hxlt, hylt⟩ := lib.coordinates_lt nid x y hset
  have hxholds := holds_coordinate hxlt
  have hyholds := holds_coordinate hylt
  obtain ⟨hword0, hword1, _⟩ := @keyWord_pairKey HksKeyAlg.ecc nid.bits (hksKeyBytes nid.bits) (hksKeyBytes nid.bits)
    x y
  have hcomponents := components_pair hsmall hfits (halg ▸ by decide) (halg ▸ by decide) hx hy
  have hkey : ecKey nid x y = .ec nid.bits (some (x, y)) := if_neg hsm2
  rw [hec, hkey] at hder
  refine ⟨pairKey HksKeyAlg.ecc nid.bits (hksKeyBytes nid.bits) (hksKeyBytes nid.bits) x y, ?_, ⟨?_, ?_, ?_⟩, ?_⟩
  case refine_1 =>
    rw [translateFrom_eq hder, halg]
    exact x509PublicKeyToEcc_eq hbits hxholds hyholds
  case refine_2 => rw [hword0, halg]
  case refine_3 => rw [hword1, hkeySize]
  case refine_4 =>
    rw [hcomponents]
    exact components_pairKey hxholds hyholds (by decide) (by decide)
  case refine_5 =>
    refine translate_pairKey hxholds hyholds (by decide) (by decide) ?_ hder
    rw [← hkey]
    exact evpKey_pairKey_point (.inl rfl) (by rw [hkeySize]; exact hnid) hxholds hyholds hset

theorem getBnBinpad_eq_ok (hsmall : byteLength n.value < 1536) {bin : Bytes} :
    getBnBinpad n = .ok bin ↔ n.value ≠ 0 ∧ bin = n.bn2bin := by
  have hmax : ¬1536 ≤ n.numBytes := by
    rw [UInt32.le_iff_toNat_le, numBytes_toNat]
    exact Nat.not_le.mpr hsmall
  rw [getBnBinpad]
  simp only [numBytes_eq_zero, hmax, or_false]
  split
  case isTrue hzero => exact iff_of_false (fun h => by cases h) fun hne => hne.1 hzero
  case isFalse hne => simp [hne, eq_comm]

theorem x509PublicKeyToSm2_eq_ok (hx : byteLength x.value ≤ 32) (hy : byteLength y.value ≤ 32) :
    x509PublicKeyToSm2 alg 256 x y = .ok inner ↔
      (x.value ≠ 0 ∧ y.value ≠ 0) ∧ inner = pairKey alg 256 x.numBytes y.numBytes x y := by
  have hsize (n : BigNum) : n.bn2bin.size = n.numBytes := by
    rw [Bytes.size, BigNum.length_bn2bin]
    exact UInt32.ofNat_toNat
  have hroom : mallocOk (20 + x.numBytes + y.numBytes).toNat := by
    have hpair := @mallocOk_pair x.numBytes y.numBytes (by rw [numBytes_toNat, numBytes_toNat, maxX509KeySize]; omega)
    rwa [UInt32.add_assoc, UInt32.add_comm]
  have hbits : ¬((256 : UInt32) = 0 ∨ 2 ^ 31 ≤ (256 : UInt32)) := by decide
  have hlen : ¬((256 : UInt32) ≠ 256) := by decide
  rw [x509PublicKeyToSm2, if_neg hbits, if_neg hlen]
  simp only [Except.bind_eq_ok, getBnBinpad_eq_ok (show byteLength x.value < 1536 by omega),
    getBnBinpad_eq_ok (show byteLength y.value < 1536 by omega), innerKey_eq_ok]
  constructor
  case mp =>
    rintro ⟨_, ⟨hxne, rfl⟩, _, ⟨hyne, rfl⟩, _, hinner⟩
    rw [hsize, hsize] at hinner
    exact ⟨⟨hxne, hyne⟩, hinner⟩
  case mpr =>
    rintro ⟨⟨hxne, hyne⟩, hinner⟩
    refine ⟨_, ⟨hxne, rfl⟩, _, ⟨hyne, rfl⟩, ?_, ?_⟩
    case refine_1 => rwa [hsize, hsize]
    case refine_2 =>
      rw [hsize, hsize]
      exact hinner

-- A coordinate that is 0 has no bytes, and is refused on the way back.
theorem returned_sm2 (hsmall : key.length < UInt32.size) (halg : keyWord key 0 = HksKeyAlg.sm2)
    (h : translateToX509PublicKey lib key = .ok der) :
    Returned lib key der ↔ 0 ∉ components key ∧ keyWord key 1 = 256 := by
  have hcurve : ¬isCurve25519 key := by
    rw [isCurve25519, halg]
    decide
  obtain ⟨_, ⟨hfits, _⟩, k, hk, hder⟩ := (translate_eq_ok hsmall hcurve).mp h
  rw [evpKey, halg, if_neg (by decide), if_pos (.inr rfl), eccNid, if_pos rfl, Option.bind_some] at hk
  obtain ⟨x, y, hx, hy, hset, hec⟩ := pointKey_eq_some.mp hk
  obtain ⟨hxlt, hylt⟩ := lib.coordinates_lt .sm2 x y hset
  have hcomponents := components_pair hsmall hfits (halg ▸ by decide) (halg ▸ by decide) hx hy
  have hto (inner : Bytes) :=
    @x509PublicKeyToSm2_eq_ok inner x y HksKeyAlg.sm2 (byteLength_le hxlt) (byteLength_le hylt)
  have hzero : 0 ∉ components key ↔ x.value ≠ 0 ∧ y.value ≠ 0 := by
    simp [hcomponents, eq_comm]
  obtain ⟨hword0, hword1, _⟩ := @keyWord_pairKey HksKeyAlg.sm2 256 x.numBytes y.numBytes x y
  have hkey : ecKey .sm2 x y = .sm2 256 x y := if_pos rfl
  rw [hec, hkey] at hder
  rw [hzero]
  constructor
  case mp =>
    rintro ⟨key', hfrom, hsame, _⟩
    rw [translateFrom_eq hder, halg] at hfrom
    obtain ⟨hne, hkey'⟩ := (hto key').mp hfrom
    exact ⟨hne, by rw [← hsame.keySize, hkey', hword1]⟩
  case mpr =>
    rintro ⟨hne, hkeySize⟩
    refine ⟨pairKey HksKeyAlg.sm2 256 x.numBytes y.numBytes x y, ?_, ⟨?_, ?_, ?_⟩, ?_⟩
    case refine_1 =>
      rw [translateFrom_eq hder, halg]
      exact (hto _).mpr ⟨hne, rfl⟩
    case refine_2 => rw [hword0, halg]
    case refine_3 => rw [hword1, hkeySize]
    case refine_4 =>
      rw [hcomponents]
      exact components_pairKey (holds_numBytes x) (holds_numBytes y) (by decide) (by decide)
    case refine_5 =>
      refine translate_pairKey (holds_numBytes x) (holds_numBytes y) (by decide) (by decide) ?_ hder
      rw [← hkey]
      exact evpKey_pairKey_point (.inr rfl) rfl (holds_numBytes x) (holds_numBytes y) hset

end Points

section Dh

variable {nid : Nid} {keySize : UInt32}

theorem dhKeyOf_eq_some {p : KeyPart} : dhKeyOf keySize key p = some k ↔
    ∃ nid n, getDhNid keySize = .ok nid ∧ bigPart key p = some n ∧ k = .dh nid.bits n := by
  rw [dhKeyOf]
  cases getDhNid keySize
  case error => simp [Except.toOption]
  case ok nid => simp [Except.toOption, Option.bind_eq_some_iff, @eq_comm _ _ k]

theorem getDhNid_eq_ok (h : getDhNid keySize = .ok nid) : nid.bits = keySize := by
  rw [getDhNid] at h
  split at h
  case isTrue hsize => exact Except.ok.inj h ▸ hsize.symm
  split at h
  case isTrue hsize => exact Except.ok.inj h ▸ hsize.symm
  split at h
  case isTrue hsize => exact Except.ok.inj h ▸ hsize.symm
  nomatch h

def zeroNumber : BigNum := ⟨0, by rw [Nat.size_zero]; decide⟩

-- The public value takes the place of two numbers.
theorem x509PublicKeyToDh_eq {bits : UInt32} (h : n.numBytes.toNat ≤ maxX509KeySize) :
    x509PublicKeyToDh bits n = .ok (pairKey HksKeyAlg.dh bits n.numBytes 0 n zeroNumber) := by
  have hle := n.numBytes_le
  have hsize : ¬n.numBytes > 0xFFFFFFFF - 20 := by
    rw [gt_iff_lt, UInt32.lt_iff_toNat_lt]
    exact Nat.not_lt.mpr (Nat.le_trans hle (by decide))
  have hroom : mallocOk (20 + n.numBytes).toNat := by
    have hpair := @mallocOk_pair n.numBytes 0 h
    rwa [UInt32.add_zero, UInt32.add_comm] at hpair
  simp only [x509PublicKeyToDh, if_neg hsize, innerKey, hroom, if_true]
  congr 2
  exact (List.append_nil _).symm

theorem returned_dh (hsmall : key.length < UInt32.size) (halg : keyWord key 0 = HksKeyAlg.dh)
    (h : translateToX509PublicKey lib key = .ok der) : Returned lib key der := by
  have hcurve : ¬isCurve25519 key := by
    rw [isCurve25519, halg]
    decide
  obtain ⟨_, ⟨hfits, _⟩, k, hk, hder⟩ := (translate_eq_ok hsmall hcurve).mp h
  rw [evpKey, halg, if_neg (by decide), if_neg (by decide), if_neg (by decide), if_pos rfl] at hk
  obtain ⟨nid, n, hnid, hn, rfl⟩ := dhKeyOf_eq_some.mp hk
  have hbits := getDhNid_eq_ok hnid
  have hholds : FitsIn 0 zeroNumber := ⟨by decide, by decide⟩
  have hnum := holds_numBytes n
  have hroom : n.numBytes.toNat ≤ maxX509KeySize := by simpa [encodedNumbers] using numbers_le hder
  have hvalue : n.value = partNumber key 20 (keyWord key 2) := (bigPart_eq_some.mp hn).2
  obtain ⟨hword0, hword1, hword2, _⟩ := @keyWord_pairKey HksKeyAlg.dh nid.bits n.numBytes 0 n zeroNumber
  refine ⟨pairKey HksKeyAlg.dh nid.bits n.numBytes 0 n zeroNumber, ?_, ⟨?_, ?_, ?_⟩, ?_⟩
  case refine_1 =>
    rw [translateFrom_eq hder]
    exact x509PublicKeyToDh_eq hroom
  case refine_2 => rw [hword0, halg]
  case refine_3 => rw [hword1, hbits]
  case refine_4 =>
    have hdsa : HksKeyAlg.dh ≠ HksKeyAlg.dsa := by decide
    rw [components, components, hword0, hword2, halg, if_neg hdsa, if_neg hdsa, if_pos rfl, if_pos rfl,
      number_first hnum, hvalue]
  case refine_5 =>
    refine translate_pairKey hnum hholds (by decide) (by decide) ?_ hder
    rw [evpKey, hword0, hword1, if_neg (by decide), if_neg (by decide), if_neg (by decide), if_pos rfl, dhKeyOf_eq_some]
    exact ⟨nid, n, by rw [hbits]; exact hnid, bigPart_firstPart hnum, rfl⟩

end Dh

section Dsa

variable {p q g : BigNum}

theorem dsaKey_eq_some {a b c d : KeyPart} : dsaKey key a b c d = some k ↔
    ∃ y p q g, bigPart key a = some y ∧ bigPart key b = some p ∧ bigPart key c = some q ∧ bigPart key d = some g ∧
      k = .dsa y p q g := by
  simp only [dsaKey, Option.bind_eq_bind, Option.bind_eq_some_iff, Option.pure_def, Option.some_inj, @eq_comm _ _ k,
    exists_and_left]

-- A key for DSA is known by what `BN_bin2bn` makes of its parts.
theorem components_dsa (hsmall : key.length < UInt32.size) (hfits : KeyFormat.dsa.Fits key)
    (halg : keyWord key 0 = HksKeyAlg.dsa) (hy : bigPart key (dsaY key) = some y) (hp : bigPart key (dsaP key) = some p)
    (hq : bigPart key (dsaQ key) = some q) (hg : bigPart key (dsaG key) = some g) :
    components key = [y.value, p.value, q.value, g.value] := by
  have hoffsets := dsaOffsets hsmall hfits
  rw [bigPart_eq_some, hoffsets.y] at hy
  rw [bigPart_eq_some, hoffsets.p] at hp
  rw [bigPart_eq_some, hoffsets.q] at hq
  rw [bigPart_eq_some, hoffsets.g] at hg
  rw [components, if_pos halg, hy.2, hp.2, hq.2, hg.2]
  rfl

variable {keySize : UInt32}

theorem getDsaKeyInfo_eq_ok {info : Option BigNum} : getDsaKeyInfo info = .ok n ↔ info = some n ∧ n.value ≠ 0 := by
  match info with
  | none   => exact iff_of_false nofun nofun
  | some m =>
    rw [getDsaKeyInfo]
    simp only [numBytes_eq_zero]
    split
    case isTrue hzero => exact iff_of_false nofun fun ⟨hm, hne⟩ => hne (Option.some.inj hm ▸ hzero)
    case isFalse hne => exact ⟨fun h => Except.ok.inj h ▸ ⟨rfl, hne⟩, fun ⟨hm, _⟩ => congrArg _ (Option.some.inj hm)⟩

-- The key size is made of the bytes of the public value.
def dsaKeySize (y : BigNum) : UInt32 := (y.numBytes + 7) / 8 * 8 * 8

theorem toNat_dsaKeySize : (dsaKeySize y).toNat = (byteLength y.value + 7) / 8 * 64 := by
  have hle := y.numBytes_le
  have hadd : (y.numBytes + 7).toNat = y.numBytes.toNat + 7 := toNat_add_of_lt (by
    change y.numBytes.toNat + 7 < _
    rw [UInt32.size]
    omega)
  rw [dsaKeySize, UInt32.toNat_mul, UInt32.toNat_mul, UInt32.toNat_div, hadd, ← numBytes_toNat]
  change (y.numBytes.toNat + 7) / 8 * 8 % 2 ^ 32 * 8 % 2 ^ 32 = _
  omega

theorem x509PublicKeyToDsa_eq_ok (h : y.numBytes.toNat + p.numBytes.toNat + q.numBytes.toNat + g.numBytes.toNat ≤
    maxX509KeySize) : x509PublicKeyToDsa y p q g = .ok inner ↔
      (y.value ≠ 0 ∧ p.value ≠ 0 ∧ q.value ≠ 0 ∧ g.value ≠ 0) ∧ inner = dsaKeyBytes (dsaKeySize y) y p q g := by
  have hle := y.numBytes_le
  have hadd : (y.numBytes + 7).toNat = y.numBytes.toNat + 7 := toNat_add_of_lt (by
    change y.numBytes.toNat + 7 < _
    rw [UInt32.size]
    omega)
  have hsmall : ¬(y.numBytes > 0xFFFFFFFF - 8 ∨ (y.numBytes + 7) / 8 > 0xFFFFFFFF / 64) := by
    simp only [gt_iff_lt, UInt32.lt_iff_toNat_lt, UInt32.toNat_div, hadd]
    change ¬(4294967287 < y.numBytes.toNat ∨ 67108863 < (y.numBytes.toNat + 7) / 8)
    omega
  have hsum : (28 + y.numBytes + p.numBytes + q.numBytes + g.numBytes).toNat =
      28 + y.numBytes.toNat + p.numBytes.toNat + q.numBytes.toNat + g.numBytes.toNat := by
    rw [maxX509KeySize] at h
    simp only [UInt32.toNat_add]
    change ((((28 + y.numBytes.toNat) % 2 ^ 32 + p.numBytes.toNat) % 2 ^ 32 + q.numBytes.toNat) % 2 ^ 32 +
      g.numBytes.toNat) % 2 ^ 32 = _
    omega
  have hroom : mallocOk (28 + y.numBytes + p.numBytes + q.numBytes + g.numBytes).toNat := by
    rw [maxX509KeySize] at h
    rw [hsum, mallocOk_iff]
    omega
  simp only [x509PublicKeyToDsa, Except.bind_eq_ok, getDsaKeyInfo_eq_ok, Option.some_inj]
  constructor
  case mp =>
    rintro ⟨_, ⟨rfl, hy⟩, _, ⟨rfl, hp⟩, _, ⟨rfl, hq⟩, _, ⟨rfl, hg⟩, hinner⟩
    rw [if_neg hsmall] at hinner
    exact ⟨⟨hy, hp, hq, hg⟩, (innerKey_eq_ok.mp hinner).2⟩
  case mpr =>
    rintro ⟨⟨hy, hp, hq, hg⟩, hinner⟩
    refine ⟨y, ⟨rfl, hy⟩, p, ⟨rfl, hp⟩, q, ⟨rfl, hq⟩, g, ⟨rfl, hg⟩, ?_⟩
    rw [if_neg hsmall]
    exact innerKey_eq_ok.mpr ⟨hroom, hinner⟩

theorem evpKey_dsa (halg : keyWord key 0 = HksKeyAlg.dsa) :
    evpKey lib key = dsaKey key (dsaY key) (dsaP key) (dsaQ key) (dsaG key) := by
  rw [evpKey, halg, if_neg (by decide), if_neg (by decide), if_pos rfl]

theorem translate_dsaKeyBytes (hder : evpKeyToX509Format lib (.dsa y p q g) = .ok der) :
    translateToX509PublicKey lib (dsaKeyBytes keySize y p q g) = .ok der := by
  obtain ⟨halg, _, hx, hysize, _⟩ := @keyWord_dsaKeyBytes y p q g keySize
  have hsmall := @small_dsaKeyBytes y p q g keySize
  have hfits := @fits_dsaKeyBytes y p q g keySize
  have hcurve : ¬isCurve25519 (dsaKeyBytes keySize y p q g) := by
    rw [isCurve25519, halg]
    decide
  have hpair : PairFits (dsaKeyBytes keySize y p q g) := by
    rw [PairFits, hx, hysize, length_dsaKeyBytes]
    change _ ∧ 20 + 0 + _ ≤ _
    omega
  obtain ⟨hy, hp, hq, hg⟩ := @bigPart_dsaKeyBytes y p q g keySize
  refine (translate_eq_ok hsmall hcurve).mpr ⟨dsaReadable_of_fits hsmall hfits,
    ⟨hpair, fun _ => dsaChecked_of_fits hsmall hfits⟩, .dsa y p q g, ?_, hder⟩
  rw [evpKey_dsa halg, dsaKey_eq_some]
  exact ⟨y, p, q, g, hy, hp, hq, hg, rfl⟩

theorem returned_dsa (hsmall : key.length < UInt32.size) (hfits : KeyFormat.dsa.Fits key)
    (halg : keyWord key 0 = HksKeyAlg.dsa) (h : translateToX509PublicKey lib key = .ok der) : Returned lib key der ↔
      0 ∉ components key ∧ (keyWord key 1).toNat =
        (byteLength (partNumber key (28 + (keyWord key 2).toNat) (keyWord key 3)) + 7) / 8 * 64 := by
  have hcurve : ¬isCurve25519 key := by
    rw [isCurve25519, halg]
    decide
  obtain ⟨_, _, k, hk, hder⟩ := (translate_eq_ok hsmall hcurve).mp h
  rw [evpKey_dsa halg] at hk
  obtain ⟨y, p, q, g, hy, hp, hq, hg, rfl⟩ := dsaKey_eq_some.mp hk
  have hcomponents := components_dsa hsmall hfits halg hy hp hq hg
  have hvalue : y.value = partNumber key (28 + (keyWord key 2).toNat) (keyWord key 3) := by
    rw [← (dsaOffsets hsmall hfits).y]
    exact (bigPart_eq_some.mp hy).2
  have hroom : y.numBytes.toNat + p.numBytes.toNat + q.numBytes.toNat + g.numBytes.toNat ≤ maxX509KeySize := by
    simpa [encodedNumbers, Nat.add_assoc] using numbers_le hder
  have hzero : 0 ∉ components key ↔ y.value ≠ 0 ∧ p.value ≠ 0 ∧ q.value ≠ 0 ∧ g.value ≠ 0 := by
    simp [hcomponents, eq_comm]
  obtain ⟨hword0, hword1, _⟩ := @keyWord_dsaKeyBytes y p q g (dsaKeySize y)
  rw [hzero, ← hvalue, ← toNat_dsaKeySize]
  constructor
  case mp =>
    rintro ⟨key', hfrom, hsame, _⟩
    rw [translateFrom_eq hder] at hfrom
    obtain ⟨hne, hkey'⟩ := (x509PublicKeyToDsa_eq_ok hroom).mp hfrom
    exact ⟨hne, by rw [← hsame.keySize, hkey', hword1]⟩
  case mpr =>
    rintro ⟨hne, hkeySize⟩
    refine ⟨dsaKeyBytes (dsaKeySize y) y p q g, ?_, ⟨?_, ?_, ?_⟩, translate_dsaKeyBytes hder⟩
    case refine_1 =>
      rw [translateFrom_eq hder]
      exact (x509PublicKeyToDsa_eq_ok hroom).mpr ⟨hne, rfl⟩
    case refine_2 => rw [hword0, halg]
    case refine_3 => rw [hword1, ← UInt32.toNat_inj, hkeySize]
    case refine_4 =>
      obtain ⟨hy', hp', hq', hg'⟩ := @bigPart_dsaKeyBytes y p q g (dsaKeySize y)
      rw [hcomponents, components_dsa small_dsaKeyBytes fits_dsaKeyBytes hword0 hy' hp' hq' hg']

end Dsa

-- The material of a public key: a DSA key has all the parts that it declares. Of the others this is checked.
structure PublicKeyMaterial extends PublicKeyBlob where
  alg_mem : keyWord bytes 0 ∈ [HksKeyAlg.rsa, HksKeyAlg.ecc, HksKeyAlg.sm2, HksKeyAlg.dsa, HksKeyAlg.dh]
  dsaFits : keyWord bytes 0 = HksKeyAlg.dsa → KeyFormat.dsa.Fits bytes

theorem returned_iff (m : PublicKeyMaterial) (h : translateToX509PublicKey lib m.bytes = .ok der) :
    Returned lib m.bytes der ↔ Survives m.bytes := by
  have halg := m.alg_mem
  simp only [List.mem_cons, List.not_mem_nil, or_false] at halg
  rw [Survives]
  obtain halg | halg | halg | halg | halg := halg
  · rw [returned_rsa m.small halg h]
    simp [halg, HksKeyAlg.rsa, HksKeyAlg.sm2, HksKeyAlg.dsa]
  · refine iff_of_true (returned_ecc m.small halg h) ?_
    simp [halg, HksKeyAlg.rsa, HksKeyAlg.ecc, HksKeyAlg.sm2, HksKeyAlg.dsa]
  · rw [returned_sm2 m.small halg h]
    simp [halg, HksKeyAlg.rsa, HksKeyAlg.sm2, HksKeyAlg.dsa]
  · rw [returned_dsa m.small (m.dsaFits halg) halg h]
    simp [halg, HksKeyAlg.rsa, HksKeyAlg.sm2, HksKeyAlg.dsa]
  · refine iff_of_true (returned_dh m.small halg h) ?_
    simp [halg, HksKeyAlg.rsa, HksKeyAlg.sm2, HksKeyAlg.dsa, HksKeyAlg.dh]

end RoundTrip

-- A key comes back as long as its declared size is the one that is computed on the way back and no number
-- without bytes is written, and it is read inside unless the sums for DSA wrap.
theorem x509PublicKey_iff (lib : X509Library) :
    (∀ m : PublicKeyMaterial, (∀ der, translateToX509PublicKey lib m.bytes = .ok der → Returned lib m.bytes der) ↔
      ((∃ der, translateToX509PublicKey lib m.bytes = .ok der) → Survives m.bytes)) ∧
    ∀ key : PublicKeyBlob, Inside (translateToX509PublicKey lib key.bytes) ↔ DsaReadable key.bytes := by
  refine ⟨fun m => ⟨?_, ?_⟩, fun key => inside_translateToX509PublicKey key.small⟩
  case refine_1 => exact fun h ⟨der, hder⟩ => (returned_iff m hder).mp (h der hder)
  case refine_2 => exact fun h der hder => (returned_iff m hder).mpr (h ⟨der, hder⟩)

section Sample

-- A modulus of 504 bits
def shortModulusValue : Nat :=
  0x81b1f7d181f0e83262b9f16e9b36ebaf87203c5be508259f8de8e33c1af615a1 * 2 ^ 248 +
    0xd923e56ca1d37ee56c872df29d2d86672c2e0d9e2150ef18d7a8c234f66bd1

theorem byteLength_shortModulus : byteLength shortModulusValue = 63 := by decide +kernel

def shortModulus : BigNum where
  value := shortModulusValue
  small := by decide +kernel

def exponent : BigNum where
  value := 65537
  small := by decide

def shortModulusKey : EvpPublicKey := .rsa 63 shortModulus exponent

-- The encoding of the key: a `SubjectPublicKeyInfo` of an `RSAPublicKey`
def shortModulusDer : Bytes :=
  [0x30, 0x5b, 0x30, 0x0d, 0x06, 0x09, 0x2a, 0x86, 0x48, 0x86, 0xf7, 0x0d, 0x01, 0x01, 0x01, 0x05, 0x00, 0x03, 0x4a,
    0x00, 0x30, 0x47, 0x02, 0x40, 0x00] ++ bigEndianBytes 63 shortModulusValue ++ [0x02, 0x03] ++
    bigEndianBytes 3 65537

def i2dShortModulus : EvpPublicKey → Option Bytes
  | .rsa size n e =>
    if size = 63 ∧ n.value = shortModulusValue ∧ e.value = 65537 then some shortModulusDer else none
  | _             => none

theorem i2dShortModulus_eq_some {k : EvpPublicKey} {der : Bytes} :
    i2dShortModulus k = some der ↔ k = shortModulusKey ∧ der = shortModulusDer := by
  constructor
  case mp =>
    intro h
    cases k
    case rsa size n e =>
      obtain ⟨n, hn⟩ := n
      obtain ⟨e, he⟩ := e
      rw [i2dShortModulus] at h
      split at h
      case isTrue hk =>
        obtain ⟨rfl, rfl, rfl⟩ := hk
        exact ⟨rfl, (Option.some.inj h).symm⟩
      case isFalse => cases h
    all_goals cases h
  case mpr =>
    rintro ⟨rfl, rfl⟩
    rw [shortModulusKey, i2dShortModulus, if_pos]
    exact ⟨rfl, rfl, rfl⟩

theorem length_i2dShortModulus {k : EvpPublicKey} {der : Bytes} (h : i2dShortModulus k = some der) :
    ((encodedNumbers k).map fun n => n.numBytes.toNat).sum ≤ der.length := by
  obtain ⟨rfl, rfl⟩ := i2dShortModulus_eq_some.mp h
  have hn := @numBytes_toNat shortModulus
  have he := @numBytes_toNat exponent
  simp only [shortModulusKey, encodedNumbers, List.map_cons, List.map_nil, List.sum_cons, List.sum_nil, hn, he]
  decide +kernel

-- A library that knows this key
def sampleX509 : X509Library where
  d2iPubkey der        := if der = shortModulusDer then some shortModulusKey else none
  fresh size           := .replicate size 0
  fresh_size           := freshZeros_size
  i2dPubkey            := i2dShortModulus
  setAffineCoordinates := fun _ _ _ => false
  d2i_i2d _ _ h        :=
    have hknown := i2dShortModulus_eq_some.mp h
    (if_pos hknown.2).trans (congrArg some hknown.1.symm)
  length_i2d _ _       := length_i2dShortModulus
  coordinates_lt       := fun _ _ _ => Bool.noConfusion

-- The modulus has a zero byte in front, so that it has the 64 bytes of a key of 512 bits.
def shortModulusMaterial : Bytes := pairKey HksKeyAlg.rsa 512 64 3 shortModulus exponent

-- The sizes of the last three parts add up to `2 ^ 32`.
def wrappedMaterial : Bytes :=
  [HksKeyAlg.dsa, 1024, 0, 0, 0x40000000, 0x60000000, 0x60000000].flatMap toBytes32

-- The key comes back with 504 bits, and of the other key a part behind its end is read.
theorem x509PublicKey_shortModulus :
    translateToX509PublicKey sampleX509 shortModulusMaterial = .ok shortModulusDer ∧
    ¬Returned sampleX509 shortModulusMaterial shortModulusDer ∧
    translateToX509PublicKey sampleX509 wrappedMaterial = .error .outside := by
  have hholds : FitsIn 64 shortModulus ∧ FitsIn 3 exponent :=
    ⟨⟨by decide, by decide⟩, ⟨by decide, by decide⟩⟩
  obtain ⟨halg, hkeySize, hmod, _⟩ := @keyWord_pairKey HksKeyAlg.rsa 512 64 3 shortModulus exponent
  have hto : translateToX509PublicKey sampleX509 shortModulusMaterial = .ok shortModulusDer := by
    refine translate_pairKey hholds.1 hholds.2 (by decide) (by decide) (k := shortModulusKey) ?_ ?_
    case refine_1 =>
      rw [evpKey, halg, if_pos rfl, rsaKey_eq_some]
      refine ⟨_, _, bigPart_firstPart hholds.1, bigPart_secondPart hholds.1 hholds.2, ?_⟩
      have hbytes : shortModulus.numBytes = 63 := by
        rw [← UInt32.toNat_inj, numBytes_toNat]
        exact byteLength_shortModulus
      rw [hbytes]
      rfl
    case refine_2 =>
      exact evpKeyToX509Format_eq_ok.mpr ⟨i2dShortModulus_eq_some.mpr ⟨rfl, rfl⟩,
        List.cons_ne_nil _ _, by decide⟩
  refine ⟨hto, fun hreturned => ?_, rfl⟩
  have hsize := ((returned_rsa (small_pairKey hholds.1 hholds.2) halg hto).mp hreturned).2
  rw [hkeySize, hmod, number_first hholds.1] at hsize
  rw [show shortModulus.value = shortModulusValue from rfl, byteLength_shortModulus] at hsize
  exact absurd hsize (by decide)

end Sample

end Huks.InPlace
