import Huks.Crypto.X509PublicKey
import Huks.Crypto.Theorems.BigEndian
import Huks.Crypto.Theorems.OpenSsl

namespace Huks.InPlace

-- A blob, whose size is a `uint32_t`
structure PublicKeyBlob where
  bytes : Bytes
  small : bytes.length < UInt32.size

section Reading

variable {lib : X509Library} {key : Bytes} {m e x y p q g : KeyPart} {Q : Bytes → Prop}

-- What `BN_bin2bn` reads of the part is in the key.
def PartReadable (key : Bytes) (p : KeyPart) : Prop := PartInside key p.offset.toNat p.size

def bigPart (key : Bytes) (p : KeyPart) : Option BigNum := (part key p.offset.toNat p.size).bind bigNum

theorem confined_bigNumOfPart {R : Option BigNum → Prop} :
    Confined R (bigNumOfPart key p) ↔ PartReadable key p ∧ R (bigPart key p) := by
  rw [bigNumOfPart, confined_bind, confined_bnBin2bn]
  rfl

-- All that the encoding of the key can be satisfies `Q`.
def EncodesTo (lib : X509Library) (pkey : Option EvpPublicKey) (Q : Bytes → Prop) : Prop :=
  ∀ k der, pkey = some k → evpKeyToX509Format lib k = .ok der → Q der

@[simp]
theorem encodesTo_none : EncodesTo lib none Q ↔ True := iff_true_intro nofun

@[simp]
theorem encodesTo_some {k : EvpPublicKey} :
    EncodesTo lib (some k) Q ↔ ∀ der, evpKeyToX509Format lib k = .ok der → Q der :=
  ⟨fun h der => h k der rfl, fun h _ der hk => Option.some.inj hk ▸ h der⟩

def rsaKey (key : Bytes) (m e : KeyPart) : Option EvpPublicKey := do
  let rsaN ← bigPart key m
  let rsaE ← bigPart key e
  return .rsa rsaN.numBytes rsaN rsaE

theorem confined_rsaToX509PublicKey : Confined Q (rsaToX509PublicKey lib key m e) ↔
    PartReadable key m ∧ PartReadable key e ∧ EncodesTo lib (rsaKey key m e) Q := by
  simp only [rsaToX509PublicKey, confined_bind, confined_bigNumOfPart, rsaKey]
  refine and_congr_right fun _ => and_congr_right fun _ => ?_
  cases bigPart key m
  case none => exact encodesTo_none.symm
  case some =>
    cases bigPart key e
    case none => exact encodesTo_none.symm
    case some => exact confined_checked.trans encodesTo_some.symm

-- The point, where the library has it
def pointKey (lib : X509Library) (nid : Nid) (key : Bytes) (x y : KeyPart) : Option EvpPublicKey := do
  let ecX ← bigPart key x
  let ecY ← bigPart key y
  if lib.setAffineCoordinates nid ecX ecY then some (ecKey nid ecX ecY) else none

def eccNid (alg keySize : UInt32) : Option Nid :=
  if alg = HksKeyAlg.sm2 then some .sm2 else (getEccNid keySize).toOption

theorem encodesTo_bind {α : Type} {o : Option α} {f : α → Option EvpPublicKey} :
    EncodesTo lib (o.bind f) Q ↔ ∀ a, o = some a → EncodesTo lib (f a) Q := by
  cases o
  case none => exact iff_of_true nofun nofun
  case some a => exact ⟨fun h b hb => Option.some.inj hb ▸ h, fun h => h a rfl⟩

theorem confined_eccNid {alg keySize : UInt32} {k : Nid → Except (Stop HksErrorCode) Bytes} :
    Confined Q (if alg = HksKeyAlg.sm2 then pure Nid.sm2 >>= k else checked (getEccNid keySize) >>= k) ↔
      ∀ nid, eccNid alg keySize = some nid → Confined Q (k nid) := by
  rw [eccNid]
  split
  case isTrue => exact ⟨fun h nid hnid => Option.some.inj hnid ▸ h, fun h => h .sm2 rfl⟩
  case isFalse =>
    rw [confined_bind, confined_checked]
    cases getEccNid keySize
    case error => exact iff_of_true nofun nofun
    case ok nid => simp [Except.toOption]

theorem confined_eccToX509PublicKey {alg keySize : UInt32} (hx : PartReadable key x) (hy : PartReadable key y) :
    Confined Q (eccToX509PublicKey lib key alg keySize x y) ↔
      EncodesTo lib ((eccNid alg keySize).bind fun nid => pointKey lib nid key x y) Q := by
  rw [eccToX509PublicKey, confined_eccNid, encodesTo_bind]
  refine forall_congr' fun nid => forall_congr' fun _ => ?_
  simp only [confined_bind, confined_bigNumOfPart, and_iff_right hx, and_iff_right hy, pointKey]
  cases bigPart key x
  case none => exact encodesTo_none.symm
  case some ecX =>
    cases bigPart key y
    case none => exact encodesTo_none.symm
    case some ecY =>
      simp only [Option.bind_eq_bind, Option.bind_some]
      split
      case isTrue => exact confined_checked.trans encodesTo_some.symm
      case isFalse => exact encodesTo_none.symm

def dsaKey (key : Bytes) (y p q g : KeyPart) : Option EvpPublicKey := do
  let dsaY ← bigPart key y
  let dsaP ← bigPart key p
  let dsaQ ← bigPart key q
  let dsaG ← bigPart key g
  return .dsa dsaY dsaP dsaQ dsaG

theorem confined_dsaToX509PublicKey : Confined Q (dsaToX509PublicKey lib key y p q g) ↔
    (∀ part ∈ [y, p, q, g], PartReadable key part) ∧ EncodesTo lib (dsaKey key y p q g) Q := by
  simp only [dsaToX509PublicKey, confined_bind, confined_bigNumOfPart, List.forall_mem_cons, List.not_mem_nil,
    false_imp_iff, implies_true, and_true, dsaKey, and_assoc]
  refine and_congr_right fun _ => and_congr_right fun _ => and_congr_right fun _ => and_congr_right fun _ => ?_
  cases bigPart key y
  case none => exact encodesTo_none.symm
  case some =>
    cases bigPart key p
    case none => exact encodesTo_none.symm
    case some =>
      cases bigPart key q
      case none => exact encodesTo_none.symm
      case some =>
        cases bigPart key g
        case none => exact encodesTo_none.symm
        case some => exact confined_checked.trans encodesTo_some.symm

-- Where `GetDsaPubKeyParam` finds the parts: the offsets are sums of 32 bits.
def dsaY (key : Bytes) : KeyPart := ⟨28 + keyWord key 2, keyWord key 3⟩

def dsaP (key : Bytes) : KeyPart := ⟨28 + keyWord key 2 + keyWord key 3, keyWord key 4⟩

def dsaQ (key : Bytes) : KeyPart := ⟨28 + keyWord key 2 + keyWord key 3 + keyWord key 4, keyWord key 5⟩

def dsaG (key : Bytes) : KeyPart :=
  ⟨28 + keyWord key 2 + keyWord key 3 + keyWord key 4 + keyWord key 5, keyWord key 6⟩

def dsaParts (key : Bytes) : List KeyPart := [dsaY key, dsaP key, dsaQ key, dsaG key]

-- The check of `GetDsaPubKeyParam`, with the sum of 32 bits that it compares
def DsaChecked (key : Bytes) : Prop :=
  28 ≤ key.length ∧
    (28 + keyWord key 2 + keyWord key 3 + keyWord key 4 + keyWord key 5 + keyWord key 6).toNat ≤ key.length

theorem confined_getDsaPubKeyParam {R : List KeyPart → Prop} :
    Confined R (getDsaPubKeyParam key) ↔ (DsaChecked key → R (dsaParts key)) := by
  rw [getDsaPubKeyParam, confined_ite, DsaChecked, Nat.not_lt]
  simp only [confined_throw, implies_true, true_and, and_imp]
  refine forall_congr' fun hlen => ?_
  have hwords (i : Nat) (hi : i ∈ [2, 3, 4, 5, 6]) : 4 * i + 4 ≤ key.length := by
    have hle : i ≤ 6 := by
      revert i
      decide
    omega
  rw [sumSize, mapM_readWord hwords]
  simp only [confined_bind, confined_ite, confined_throw, confined_readWord, confined_pure, implies_true, true_and,
    Nat.not_lt]
  simp only [hwords, List.mem_cons, true_or, or_true, List.not_mem_nil, true_and]
  rfl

theorem confined_dsaPublicKeyToX509 : Confined Q (dsaPublicKeyToX509 lib key) ↔
    (DsaChecked key → (∀ part ∈ dsaParts key, PartReadable key part) ∧
      EncodesTo lib (dsaKey key (dsaY key) (dsaP key) (dsaQ key) (dsaG key)) Q) := by
  rw [dsaPublicKeyToX509, confined_bind, confined_getDsaPubKeyParam]
  exact forall_congr' fun _ => confined_dsaToX509PublicKey

def dhKeyOf (keySize : UInt32) (key : Bytes) (pub : KeyPart) : Option EvpPublicKey := do
  let nid ← (getDhNid keySize).toOption
  let n ← bigPart key pub
  return .dh nid.bits n

theorem confined_dhToX509PublicKey {keySize : UInt32} (h : PartReadable key p) :
    Confined Q (dhToX509PublicKey lib key keySize p) ↔ EncodesTo lib (dhKeyOf keySize key p) Q := by
  rw [dhToX509PublicKey, dhKeyOf]
  cases getDhNid keySize
  case error => exact encodesTo_none.symm
  case ok nid =>
    simp only [confined_bind, confined_checked, Except.ok.injEq, forall_eq', confined_bigNumOfPart, and_iff_right h,
      Except.toOption]
    cases bigPart key p
    case none => exact encodesTo_none.symm
    case some => exact confined_checked.trans encodesTo_some.symm

end Reading

section Dispatch

variable {lib : X509Library} {key : Bytes} {Q : Bytes → Prop}

-- The check of the header that all the algorithms share
def PairFits (key : Bytes) : Prop := 20 ≤ key.length ∧ 20 + (keyWord key 2).toNat + (keyWord key 3).toNat ≤ key.length

def firstPart (key : Bytes) : KeyPart := ⟨20, keyWord key 2⟩

def secondPart (key : Bytes) : KeyPart := ⟨20 + keyWord key 2, keyWord key 3⟩

theorem secondPart_offset (hsmall : key.length < UInt32.size) (h : PairFits key) :
    (secondPart key).offset.toNat = 20 + (keyWord key 2).toNat := by
  have hsum := h.2
  exact toNat_add_of_lt (by change 20 + (keyWord key 2).toNat < _; omega)

theorem readable_firstPart (h : PairFits key) : PartReadable key (firstPart key) := by
  have hsum := h.2
  exact .inr (.inr (by change 20 + (keyWord key 2).toNat ≤ _; omega))

theorem readable_secondPart (hsmall : key.length < UInt32.size) (h : PairFits key) :
    PartReadable key (secondPart key) := by
  have hsum := h.2
  refine .inr (.inr ?_)
  rw [secondPart_offset hsmall h]
  exact hsum

theorem confined_translateToX509PublicKey (hsmall : key.length < UInt32.size) :
    Confined Q (translateToX509PublicKey lib key) ↔
      (PairFits key → Confined Q (translateToX509PublicKeySwitchAlg lib key (firstPart key) (secondPart key))) := by
  rw [translateToX509PublicKey, confined_ite]
  by_cases hheader : key.length < 20
  case pos =>
    exact iff_of_true ⟨fun _ => trivial, fun h => absurd hheader h⟩ fun h => absurd h.1 (Nat.not_le.mpr hheader)
  case neg =>
    simp only [hheader, not_false_eq_true, true_imp_iff, true_and, confined_bind, confined_readWord,
      confined_ite, confined_throw, implies_true]
    rw [and_iff_right (by omega), PairFits]
    have hoffset (h : ¬key.length - 20 < (keyWord key 2).toNat) :
        (20 + keyWord key 2).toNat = 20 + (keyWord key 2).toNat :=
      toNat_add_of_lt (by change 20 + (keyWord key 2).toNat < _; omega)
    constructor
    case mp =>
      rintro h ⟨_, hsum⟩
      have hfirst : ¬key.length - 20 < (keyWord key 2).toNat := by omega
      exact (h hfirst).2 (by rw [hoffset hfirst]; omega)
    case mpr =>
      intro h hfirst
      refine ⟨by omega, fun hsecond => h ⟨by omega, ?_⟩⟩
      rw [hoffset hfirst] at hsecond
      omega

-- The key that the library is given
def evpKey (lib : X509Library) (key : Bytes) : Option EvpPublicKey :=
  let keyAlg := keyWord key 0
  if keyAlg = HksKeyAlg.rsa then
    rsaKey key (firstPart key) (secondPart key)
  else if keyAlg = HksKeyAlg.ecc ∨ keyAlg = HksKeyAlg.sm2 then
    (eccNid keyAlg (keyWord key 1)).bind fun nid => pointKey lib nid key (firstPart key) (secondPart key)
  else if keyAlg = HksKeyAlg.dsa then
    dsaKey key (dsaY key) (dsaP key) (dsaQ key) (dsaG key)
  else if keyAlg = HksKeyAlg.dh then
    dhKeyOf (keyWord key 1) key (firstPart key)
  else
    none

-- The sizes of the key are checked as its algorithm does it.
def SizesChecked (key : Bytes) : Prop := PairFits key ∧ (keyWord key 0 = HksKeyAlg.dsa → DsaChecked key)

-- Only of a key for DSA a part can be elsewhere.
def DsaReadable (key : Bytes) : Prop :=
  SizesChecked key → keyWord key 0 = HksKeyAlg.dsa → ∀ part ∈ dsaParts key, PartReadable key part

def isCurve25519 (key : Bytes) : Prop := keyWord key 0 = HksKeyAlg.x25519 ∨ keyWord key 0 = HksKeyAlg.ed25519

theorem confined_switchAlg (hsmall : key.length < UInt32.size) (hfits : PairFits key) (hcurve : ¬isCurve25519 key) :
    Confined Q (translateToX509PublicKeySwitchAlg lib key (firstPart key) (secondPart key)) ↔
      (DsaReadable key ∧ (SizesChecked key → EncodesTo lib (evpKey lib key) Q)) := by
  have hheader := hfits.1
  have hfirst := readable_firstPart hfits
  have hsecond := readable_secondPart hsmall hfits
  have hecc (alg : UInt32) := @confined_eccToX509PublicKey lib key _ _ Q alg (keyWord key 1) hfirst hsecond
  have hdh := @confined_dhToX509PublicKey lib key _ Q (keyWord key 1) hfirst
  have hwords : 4 * 0 + 4 ≤ key.length ∧ 4 * 1 + 4 ≤ key.length := by omega
  rw [isCurve25519] at hcurve
  simp only [DsaReadable, SizesChecked, hfits, true_and, translateToX509PublicKeySwitchAlg, sm2ToX509PublicKey, evpKey,
    confined_bind, confined_readWord, hwords]
  generalize keyWord key 0 = alg at *
  by_cases hrsa : alg = HksKeyAlg.rsa
  case pos =>
    subst hrsa
    simp [HksKeyAlg.rsa, HksKeyAlg.dsa, confined_rsaToX509PublicKey, hfirst, hsecond]
  by_cases hec : alg = HksKeyAlg.ecc ∨ alg = HksKeyAlg.sm2
  case pos =>
    obtain rfl | rfl := hec
    · simp [HksKeyAlg.rsa, HksKeyAlg.ecc, HksKeyAlg.dsa, ← hecc]
    · simp [HksKeyAlg.rsa, HksKeyAlg.ecc, HksKeyAlg.sm2, HksKeyAlg.dsa, ← hecc]
  by_cases hdsa : alg = HksKeyAlg.dsa
  case pos =>
    subst hdsa
    simp [HksKeyAlg.rsa, HksKeyAlg.ecc, HksKeyAlg.sm2, HksKeyAlg.dsa, confined_dsaPublicKeyToX509, forall_and]
  rw [not_or] at hec
  simp only [hrsa, hec, hdsa, hcurve, if_false, or_self, false_imp_iff, true_and, true_imp_iff]
  split
  case isTrue => exact hdh
  case isFalse => simp

theorem confined_translate (hsmall : key.length < UInt32.size) (hcurve : ¬isCurve25519 key) :
    Confined Q (translateToX509PublicKey lib key) ↔
      DsaReadable key ∧ (SizesChecked key → EncodesTo lib (evpKey lib key) Q) := by
  rw [confined_translateToX509PublicKey hsmall]
  by_cases hfits : PairFits key
  case pos =>
    rw [confined_switchAlg hsmall hfits hcurve]
    exact forall_prop_of_true hfits
  case neg => exact iff_of_true (fun h => absurd h hfits) ⟨fun h => absurd h.1 hfits, fun h => absurd h.1 hfits⟩

-- A part outside the key needs sums that wrap in the header of a key for DSA.
theorem inside_translateToX509PublicKey (hsmall : key.length < UInt32.size) :
    Inside (translateToX509PublicKey lib key) ↔ DsaReadable key := by
  rw [inside_iff_confined]
  by_cases hcurve : isCurve25519 key
  case neg =>
    rw [confined_translate hsmall hcurve]
    exact and_iff_left fun _ _ _ _ _ => trivial
  case pos =>
    have hdsa : keyWord key 0 ≠ HksKeyAlg.dsa := by
      obtain h | h := hcurve
      · rw [h]
        decide
      · rw [h]
        decide
    refine iff_of_true ?_ fun _ h => absurd h hdsa
    rw [confined_translateToX509PublicKey hsmall]
    intro hfits
    have hheader := hfits.1
    have hsum := hfits.2
    have hraw : Confined (fun _ => True) (curve25519ToX509PublicKey key (firstPart key)) := by
      simp only [curve25519ToX509PublicKey, confined_ite, confined_throw, confined_readAt, implies_true, true_and,
        and_true]
      exact fun _ _ => .inr (by change 20 + (keyWord key 2).toNat ≤ _; omega)
    have hwords : 4 * 0 + 4 ≤ key.length ∧ 4 * 1 + 4 ≤ key.length := by omega
    simp only [translateToX509PublicKeySwitchAlg, confined_bind, confined_readWord, hwords, true_and]
    rw [isCurve25519] at hcurve
    generalize keyWord key 0 = alg at *
    obtain rfl | rfl := hcurve
    · simpa [HksKeyAlg.rsa, HksKeyAlg.ecc, HksKeyAlg.sm2, HksKeyAlg.dsa, HksKeyAlg.x25519] using hraw
    · simpa [HksKeyAlg.rsa, HksKeyAlg.ecc, HksKeyAlg.sm2, HksKeyAlg.dsa, HksKeyAlg.x25519, HksKeyAlg.ed25519] using hraw

theorem translate_eq_ok {der : Bytes} (hsmall : key.length < UInt32.size) (hcurve : ¬isCurve25519 key) :
    translateToX509PublicKey lib key = .ok der ↔ DsaReadable key ∧
      SizesChecked key ∧ ∃ k, evpKey lib key = some k ∧ evpKeyToX509Format lib k = .ok der := by
  refine eq_ok_iff_of_confined (P := fun der =>
    SizesChecked key ∧ ∃ k, evpKey lib key = some k ∧ evpKeyToX509Format lib k = .ok der) fun Q => ?_
  rw [confined_translate hsmall hcurve]
  refine and_congr_right fun _ => ?_
  constructor
  case mp => exact fun h der' ⟨hsizes, k, hk, hder⟩ => h hsizes k der' hk hder
  case mpr => exact fun h hsizes k der' hk hder => h der' ⟨hsizes, k, hk, hder⟩

end Dispatch

end Huks.InPlace
