import Huks.Crypto.AgreeKey
import Huks.Crypto.Theorems.BigEndian
import Huks.Crypto.Theorems.OpenSsl
import Mathlib.Data.Int.ModEq

namespace Huks.InPlace

-- A public value strictly between `1` and `p - 1`
def IsProperElement (p y : Nat) : Prop := 1 < y ∧ y < p - 1

-- No value that has `0`, `1` or `-1` as its remainder is one.
theorem IsProperElement.not_congruent {p y : Nat} (h : IsProperElement p y) :
    ¬y ≡ 0 [ZMOD p] ∧ ¬y ≡ 1 [ZMOD p] ∧ ¬y ≡ -1 [ZMOD p] := by
  have ⟨habove, hbelow⟩ := h
  have hy : (y : Int) % p = y := Int.emod_eq_of_lt (by omega) (by omega)
  have hone : (1 : Int) % p = 1 := Int.emod_eq_of_lt (by omega) (by omega)
  have hminus : (-1 : Int) % p = p - 1 := by
    rw [← Int.add_emod_right, Int.emod_eq_of_lt (by omega) (by omega)]
    omega
  simp only [Int.ModEq, hy, hone, hminus, Int.zero_emod]
  omega

-- What is refused by name are four values; a proper element is one that is not above `p` besides.
theorem isProperElement_iff {p y : Nat} (hp : 0 < p) :
    IsProperElement p y ↔ ¬(y = 0 ∨ y = 1 ∨ y = p ∨ y = p - 1) ∧ y ≤ p := by
  rw [IsProperElement]
  omega

-- The material of a public key or of a key pair whose declared sizes fit into it
structure DhMaterial where
  bytes : Bytes
  fits  : KeyFormat.dh.Fits bytes
  small : bytes.length < UInt32.size

namespace DhMaterial

variable (m : DhMaterial)

def keySize : UInt32 := keyWord m.bytes 1

def pubKeySize : UInt32 := keyWord m.bytes 2

def publicValue : Nat := bigEndian (slice m.bytes 20 m.pubKeySize.toNat)

-- A `DH` is made of the material: there is a group of this size, the length of the public value is an
-- `int`, and a key pair has nothing behind its parts.
def Built (importKeyType : UInt32) : Prop :=
  dhKeySize m.keySize ∧ m.pubKeySize.toNat < 2 ^ 31 ∧
    (importKeyType = HksImportKeyType.keyPair ∧ DhExact m.bytes ∨ importKeyType = HksImportKeyType.publicKey)

end DhMaterial

variable {m : DhMaterial} {lib : OpenSsl} {importKeyType : UInt32}

-- The `DH` that the routine of the type makes
def dhOfType (importKeyType : UInt32) (key : Bytes) : Option Dh :=
  if importKeyType = HksImportKeyType.keyPair then
    dhKey key
  else if importKeyType = HksImportKeyType.publicKey then
    dhPublicKey key
  else
    none

theorem part_publicValue (hsize : m.pubKeySize.toNat < 2 ^ 31) :
    part m.bytes 20 (keyWord m.bytes 2) = some m.publicValue :=
  if_neg (Nat.not_le.mpr hsize)

theorem built_of_dhSet0Key {pub priv : Option Nat} {dh : Dh} {keySize : UInt32}
    (h : dhSet0Key keySize pub priv = some dh) : dh.keySize = keySize ∧ pub.isSome := by
  cases pub
  case none => nomatch h
  case some => exact ⟨Option.some.inj h ▸ rfl, rfl⟩

theorem pubKeySize_lt (h : (part m.bytes 20 (keyWord m.bytes 2)).isSome) : m.pubKeySize.toNat < 2 ^ 31 := by
  refine Nat.not_le.mp fun hle => ?_
  rw [part, if_pos (show 2 ^ 31 ≤ (keyWord m.bytes 2).toNat from hle)] at h
  cases h

theorem dhOfType_eq_some {dh : Dh} (h : dhOfType importKeyType m.bytes = some dh) :
    m.Built importKeyType ∧ dh.keySize = m.keySize := by
  rw [dhOfType] at h
  split at h
  case isTrue htype =>
    rw [dhKey] at h
    split at h
    case isFalse => cases h
    case isTrue hexact =>
      obtain ⟨hkeySize, hpub⟩ := built_of_dhSet0Key h
      exact ⟨⟨hexact.2, pubKeySize_lt hpub, .inl ⟨htype, hexact.1⟩⟩, hkeySize⟩
  case isFalse =>
    split at h
    case isFalse => cases h
    case isTrue htype =>
      have hsize := dhKeySize_of_public m.bytes h
      rw [dhPublicKey, if_pos hsize] at h
      obtain ⟨hkeySize, hpub⟩ := built_of_dhSet0Key h
      exact ⟨⟨hsize, pubKeySize_lt hpub, .inr htype⟩, hkeySize⟩

theorem dhOfType_isSome (h : m.Built importKeyType) : (dhOfType importKeyType m.bytes).isSome := by
  obtain ⟨hsize, hpub, hkind⟩ := h
  have hpart := part_publicValue hpub
  rw [DhMaterial.keySize] at hsize
  obtain ⟨rfl, hexact⟩ | rfl := hkind
  · rw [dhOfType, if_pos rfl, dhKey, if_pos ⟨hexact, hsize⟩, hpart]
    rfl
  · rw [dhOfType, if_neg (by decide), if_pos rfl, dhPublicKey, if_pos hsize, hpart]
    rfl

theorem confined_dhOfType {Q : Option Dh → Prop} :
    Confined Q (if importKeyType = HksImportKeyType.keyPair then initDhStruct m.bytes
      else if importKeyType = HksImportKeyType.publicKey then initDhPubStruct m.bytes
      else return none) ↔ Q (dhOfType importKeyType m.bytes) := by
  obtain ⟨hheader, hsizes⟩ := m.fits.dh_le
  rw [dhOfType]
  split
  case isTrue => rw [confined_initDhStruct _ m.small, and_iff_right (by omega)]
  case isFalse =>
    split
    case isFalse => rfl
    case isTrue =>
      have hinside : PartInside m.bytes 20 (keyWord m.bytes 2) := .inr (.inr (by omega))
      rw [confined_initDhPubStruct, and_iff_right (by omega),
        and_iff_right fun _ => ⟨by omega, hinside⟩]

-- The check lets a material pass that a `DH` is made of, unless its value is one of the four.
theorem hksOpensslCheckDhKey_accepts :
    hksOpensslCheckDhKey lib m.bytes importKeyType = .ok () ↔
      m.Built importKeyType ∧ ¬(m.publicValue = 0 ∨ m.publicValue = 1 ∨
        m.publicValue = lib.dhPrime m.keySize ∨ m.publicValue = lib.dhPrime m.keySize - 1) := by
  obtain ⟨hheader, hsizes⟩ := m.fits.dh_le
  have hinside : PartInside m.bytes 20 (keyWord m.bytes 2) := .inr (.inr (by omega))
  have hwords : 4 * 2 + 4 ≤ m.bytes.length := by omega
  refine eq_ok_iff fun S => ?_
  rw [hksOpensslCheckDhKey, confined_bind, confined_notNull, confined_dhOfType]
  simp only [hksOpensslDhCheckPubKey, confined_bind, confined_notNull, confined_readWord, confined_bnBin2bn,
    confined_ite, confined_pure, confined_throw, implies_true, true_and, hinside, hwords]
  constructor
  case mp =>
    rintro h ⟨hbuilt, hvalue⟩
    obtain ⟨dh, hdh⟩ := Option.isSome_iff_exists.mp (dhOfType_isSome hbuilt)
    obtain ⟨_, hkeySize⟩ := dhOfType_eq_some hdh
    exact h dh hdh _ (part_publicValue hbuilt.2.1) (hkeySize ▸ hvalue)
  case mpr =>
    intro h dh hdh pub hpub hvalue
    obtain ⟨hbuilt, hkeySize⟩ := dhOfType_eq_some hdh
    rw [part_publicValue hbuilt.2.1] at hpub
    cases hpub
    exact h ⟨hbuilt, hkeySize ▸ hvalue⟩

-- Two keys are agreed only if the check lets the key of the peer pass.
theorem hksOpensslDhAgreeKey_checks {nativeKey pubKey sharedKey : Bytes} {keyLen sharedKeySize : UInt32}
    (h : hksOpensslDhAgreeKey lib nativeKey pubKey keyLen sharedKeySize = .ok sharedKey) :
    hksOpensslCheckDhKey lib pubKey HksImportKeyType.publicKey = .ok () := by
  rw [hksOpensslDhAgreeKey] at h
  split at h
  case isTrue => nomatch h
  case isFalse =>
    obtain ⟨_, _, h⟩ := Except.bind_eq_ok.mp h
    obtain ⟨_, _, h⟩ := Except.bind_eq_ok.mp h
    obtain ⟨⟨⟩, hcheck, _⟩ := Except.bind_eq_ok.mp h
    exact hcheck

-- What an accepted material is to have
def HasProperElement (lib : OpenSsl) (m : DhMaterial) : Prop :=
  IsProperElement (lib.dhPrime m.keySize) m.publicValue ∧
    ¬m.publicValue ≡ 0 [ZMOD lib.dhPrime m.keySize] ∧ ¬m.publicValue ≡ 1 [ZMOD lib.dhPrime m.keySize] ∧
    ¬m.publicValue ≡ -1 [ZMOD lib.dhPrime m.keySize]

theorem hasProperElement_iff (hp : 0 < lib.dhPrime m.keySize) : HasProperElement lib m ↔
    ¬(m.publicValue = 0 ∨ m.publicValue = 1 ∨ m.publicValue = lib.dhPrime m.keySize ∨
      m.publicValue = lib.dhPrime m.keySize - 1) ∧ m.publicValue ≤ lib.dhPrime m.keySize := by
  rw [← isProperElement_iff hp]
  exact ⟨fun h => h.1, fun h => ⟨h, h.not_congruent⟩⟩

-- The enumeration of the values that are refused is complete up to `p`, and no further.
theorem dhPublicValue_proper_iff (lib : OpenSsl) (m : DhMaterial) (hp : 0 < lib.dhPrime m.keySize) :
    (∀ importKeyType,
      (hksOpensslCheckDhKey lib m.bytes importKeyType = .ok () → HasProperElement lib m) ↔
        (m.Built importKeyType → m.publicValue ≤ lib.dhPrime m.keySize)) ∧
    ((m.Built HksImportKeyType.publicKey → m.publicValue ≤ lib.dhPrime m.keySize) →
      ∀ nativeKey keyLen sharedKeySize sharedKey,
        hksOpensslDhAgreeKey lib nativeKey m.bytes keyLen sharedKeySize = .ok sharedKey →
          HasProperElement lib m) := by
  have hcheck (importKeyType : UInt32) :
      (hksOpensslCheckDhKey lib m.bytes importKeyType = .ok () → HasProperElement lib m) ↔
        (m.Built importKeyType → m.publicValue ≤ lib.dhPrime m.keySize) := by
    rw [hksOpensslCheckDhKey_accepts, hasProperElement_iff hp]
    constructor
    case mp =>
      intro h hbuilt
      -- A value above `p` is none of the four.
      refine Nat.not_lt.mp fun hlt => ?_
      exact Nat.not_le.mpr hlt (h ⟨hbuilt, by omega⟩).2
    case mpr => exact fun h haccepted => ⟨haccepted.2, h haccepted.1⟩
  refine ⟨hcheck, fun hle nativeKey keyLen sharedKeySize sharedKey hagreed => ?_⟩
  exact (hcheck _).mpr hle (hksOpensslDhAgreeKey_checks hagreed)

-- The prime of the group of 2048 bits, `NID_ffdhe2048`
def ffdhe2048 : Nat :=
  [0xFFFFFFFFFFFFFFFF, 0xADF85458A2BB4A9A, 0xAFDC5620273D3CF1, 0xD8B9C583CE2D3695, 0xA9E13641146433FB,
    0xCC939DCE249B3EF9, 0x7D2FE363630C75D8, 0xF681B202AEC4617A, 0xD3DF1ED5D5FD6561, 0x2433F51F5F066ED0,
    0x856365553DED1AF3, 0xB557135E7F57C935, 0x984F0C70E0E68B77, 0xE2A689DAF3EFE872, 0x1DF158A136ADE735,
    0x30ACCA4F483A797A, 0xBC0AB182B324FB61, 0xD108A94BB2C8E3FB, 0xB96ADAB760D7F468, 0x1D4F42A3DE394DF4,
    0xAE56EDE76372BB19, 0x0B07A7C8EE0A6D70, 0x9E02FCE1CDF7E2EC, 0xC03404CD28342F61, 0x9172FE9CE98583FF,
    0x8E4F1232EEF28183, 0xC3FE3B1B4C6FAD73, 0x3BB5FCBC2EC22005, 0xC58EF1837D1683B2, 0xC6F34A26C1B2EFFA,
    0x886B423861285C97, 0xFFFFFFFFFFFFFFFF].foldl
    (fun n word => 2 ^ 64 * n + word) 0

def ffdheOpenSsl : OpenSsl := { acceptingOpenSsl with dhPrime _ := ffdhe2048 }

-- The public key of this group with the value, in as many bytes as the prime has
def ffdhePublicKey (value : Nat) : Bytes :=
  [HksKeyAlg.dh, 2048, 256, 0, 0].flatMap toBytes32 ++ bigEndianBytes 256 value

theorem length_ffdhePublicKey (value : Nat) : (ffdhePublicKey value).length = 276 := by
  rw [ffdhePublicKey, List.length_append, BigNum.length_bigEndianBytes]
  rfl

def ffdheMaterial (value : Nat) : DhMaterial where
  bytes := ffdhePublicKey value
  fits  := by
    have hpub : keyWord (ffdhePublicKey value) 2 = 256 := keyWord_header (i := 2) (by decide)
    have hpri : keyWord (ffdhePublicKey value) 3 = 0 := keyWord_header (i := 3) (by decide)
    simp only [KeyFormat.Fits, KeyFormat.declaredSize, KeyFormat.headerSize, KeyFormat.sizeWords, List.map_cons,
      List.map_nil, List.sum_cons, List.sum_nil, hpub, hpri, length_ffdhePublicKey]
    decide
  small := by
    rw [length_ffdhePublicKey]
    decide

theorem ffdheMaterial_built (value : Nat) : (ffdheMaterial value).Built HksImportKeyType.publicKey := by
  have hsize : (ffdheMaterial value).keySize = 2048 := keyWord_header (i := 1) (by decide)
  have hpub : (ffdheMaterial value).pubKeySize = 256 := keyWord_header (i := 2) (by decide)
  rw [DhMaterial.Built, hsize, hpub]
  exact ⟨by decide, by decide, .inr rfl⟩

theorem ffdheMaterial_publicValue {value : Nat} (h : value < 256 ^ 256) :
    (ffdheMaterial value).publicValue = value := by
  have hpub : (ffdheMaterial value).pubKeySize = 256 := keyWord_header (i := 2) (by decide)
  have hslice : slice (ffdheMaterial value).bytes 20 256 = bigEndianBytes 256 value := by
    have hdrop : (ffdhePublicKey value).drop 20 = bigEndianBytes 256 value := List.drop_left' rfl
    rw [slice, ffdheMaterial, hdrop, List.take_of_length_le (Nat.le_of_eq (BigNum.length_bigEndianBytes _ _))]
  rw [DhMaterial.publicValue, hpub]
  exact hslice ▸ bigEndian_bigEndianBytes h

theorem dhPublicValue_proper_two :
    0 < ffdhe2048 ∧ (hksOpensslCheckDhKey ffdheOpenSsl (ffdhePublicKey 2) HksImportKeyType.publicKey = .ok () →
      HasProperElement ffdheOpenSsl (ffdheMaterial 2)) := by
  have hprime : 0 < ffdhe2048 := by decide
  refine ⟨hprime, ((dhPublicValue_proper_iff ffdheOpenSsl (ffdheMaterial 2) hprime).1 _).mpr fun _ => ?_⟩
  rw [ffdheMaterial_publicValue (by decide)]
  exact (by decide : 2 ≤ ffdhe2048)

-- One more than the prime is taken, and is the neutral element of the group.
theorem dhPublicValue_above_prime :
    hksOpensslCheckDhKey ffdheOpenSsl (ffdheMaterial (ffdhe2048 + 1)).bytes HksImportKeyType.publicKey = .ok () ∧
      (ffdheMaterial (ffdhe2048 + 1)).publicValue ≡ 1 [ZMOD ffdhe2048] ∧
      ¬HasProperElement ffdheOpenSsl (ffdheMaterial (ffdhe2048 + 1)) := by
  have hvalue : (ffdheMaterial (ffdhe2048 + 1)).publicValue = ffdhe2048 + 1 :=
    ffdheMaterial_publicValue (by decide)
  have hnamed : ¬(ffdhe2048 + 1 = 0 ∨ ffdhe2048 + 1 = 1 ∨ ffdhe2048 + 1 = ffdhe2048 ∨
      ffdhe2048 + 1 = ffdhe2048 - 1) := by
    have hprime : 0 < ffdhe2048 := by decide
    omega
  have hone : ((ffdheMaterial (ffdhe2048 + 1)).publicValue : Int) ≡ 1 [ZMOD ffdhe2048] := by
    rw [hvalue, Nat.cast_add, Nat.cast_one]
    exact Int.add_modEq_left
  rw [← hvalue] at hnamed
  exact ⟨hksOpensslCheckDhKey_accepts.mpr ⟨ffdheMaterial_built _, hnamed⟩, hone, fun h => h.2.2.1 hone⟩

end Huks.InPlace
