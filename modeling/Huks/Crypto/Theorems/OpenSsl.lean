import Huks.Crypto.OpenSsl
import Huks.Crypto.Theorems.KeyMaterial

namespace Huks

variable {key : Bytes} {offset : Nat} {size : UInt32}

theorem confined_readWord {i : Nat} {Q : UInt32 → Prop} :
    Confined Q (readWord key i) ↔ 4 * i + 4 ≤ key.length ∧ Q (keyWord key i) := by
  rw [readWord, confined_bind, confined_readAt]
  exact and_congr_left fun _ => ⟨fun h => h.resolve_left (by decide), .inr⟩

section Numbers

-- The part that `bnBin2bn` reads is there.
def PartInside (key : Bytes) (offset : Nat) (size : UInt32) : Prop :=
  2 ^ 31 ≤ size.toNat ∨ size.toNat = 0 ∨ offset + size.toNat ≤ key.length

-- The number in a part of the key.
def part (key : Bytes) (offset : Nat) (size : UInt32) : Option Nat :=
  if 2 ^ 31 ≤ size.toNat then none else some (bigEndian (slice key offset size.toNat))

theorem confined_bnBin2bn {Q : Option Nat → Prop} :
    Confined Q (bnBin2bn key offset size) ↔ PartInside key offset size ∧ Q (part key offset size) := by
  by_cases h : 2 ^ 31 ≤ size.toNat
  case pos =>
    rw [bnBin2bn, part, if_pos h, if_pos h]
    exact ⟨fun hq => ⟨.inl h, hq⟩, fun hq => hq.2⟩
  case neg =>
    rw [bnBin2bn, part, if_neg h, if_neg h, confined_bind, confined_readAt]
    exact and_congr_left fun _ => ⟨.inr, fun hin => hin.resolve_left h⟩

-- The raw key that the library reads is there.
def RawKeyInside (key : Bytes) (offset : Nat) (size : UInt32) : Prop :=
  size.toNat = curve25519KeyLen → offset + curve25519KeyLen ≤ key.length

def rawKey (key : Bytes) (offset : Nat) (size : UInt32) : Option Bytes :=
  if size.toNat = curve25519KeyLen then some (slice key offset curve25519KeyLen) else none

theorem confined_evpPkeyNewRawKey {Q : Option Bytes → Prop} :
    Confined Q (evpPkeyNewRawKey key offset size) ↔ RawKeyInside key offset size ∧ Q (rawKey key offset size) := by
  by_cases h : size.toNat = curve25519KeyLen
  case pos =>
    rw [evpPkeyNewRawKey, rawKey, if_pos h, if_pos h, confined_bind, confined_readAt]
    exact and_congr_left fun _ => ⟨fun hin _ => hin.resolve_left (by decide), fun hin => .inr (hin h)⟩
  case neg =>
    rw [evpPkeyNewRawKey, rawKey, if_neg h, if_neg h]
    exact ⟨fun hq => ⟨fun hsize => absurd hsize h, hq⟩, fun hq => hq.2⟩

end Numbers

section Ecc

variable (lib : OpenSsl) (key : Bytes)

-- All that is read of a public key on a curve is there.
def EccPublicInside : Prop :=
  20 ≤ key.length ∧ (eccKeySize (keyWord key 1) →
    PartInside key 20 (keyWord key 2) ∧ PartInside key (20 + keyWord key 2).toNat (keyWord key 3))

def eccPublic : Option EcPublicKey :=
  if eccKeySize (keyWord key 1) then
    setPublicKey lib (keyWord key 1) (part key 20 (keyWord key 2))
      (part key (20 + keyWord key 2).toNat (keyWord key 3))
  else
    none

-- A guard in the middle of a routine, behind which all is refused or read.
theorem guarded {α : Type} {c inside : Prop} [Decidable c] {Q : Option α → Prop} {value : Option α} :
    ((c → inside ∧ Q value) ∧ (¬c → Q none)) ↔ (c → inside) ∧ Q (if c then value else none) := by
  by_cases h : c
  case pos => simp [h]
  case neg => simp [h]

theorem confined_eccInitPublic {Q : Option EcPublicKey → Prop} :
    Confined Q (eccInitPublic lib key) ↔ EccPublicInside key ∧ Q (eccPublic lib key) := by
  simp only [eccInitPublic, eccInitPublicKey, confined_bind, confined_readWord, confined_ite, confined_bnBin2bn,
    confined_pure, confined_discard, ← and_assoc, guarded]
  rw [EccPublicInside, eccPublic]
  refine and_congr_left fun _ => and_congr_left fun _ => ?_
  omega

def EccPrivateInside : Prop :=
  20 ≤ key.length ∧ (eccKeySize (keyWord key 1) →
    PartInside key (20 + (keyWord key 2).toNat + (keyWord key 3).toNat) (keyWord key 4))

def eccPrivate : Option EcPrivateKey :=
  if eccKeySize (keyWord key 1) then
    setPrivateKey lib (keyWord key 1)
      (part key (20 + (keyWord key 2).toNat + (keyWord key 3).toNat) (keyWord key 4))
  else
    none

theorem confined_eccInitPrivate {Q : Option EcPrivateKey → Prop} :
    Confined Q (eccInitPrivate lib key) ↔ EccPrivateInside key ∧ Q (eccPrivate lib key) := by
  simp only [eccInitPrivate, confined_bind, confined_readWord, confined_ite, confined_bnBin2bn,
    confined_pure, ← and_assoc, guarded]
  rw [EccPrivateInside, eccPrivate]
  refine and_congr_left fun _ => and_congr_left fun _ => ?_
  omega

end Ecc

section Dh

variable (key : Bytes)

-- The size of the key is the one that its header declares.
def DhExact : Prop := key.length = 20 + (keyWord key 2).toNat + (keyWord key 3).toNat

instance : Decidable (DhExact key) := inferInstanceAs (Decidable (_ = _))

def dhKey : Option Dh :=
  if DhExact key ∧ dhKeySize (keyWord key 1) then
    dhSet0Key (keyWord key 1) (part key 20 (keyWord key 2))
      (part key (20 + keyWord key 2).toNat (keyWord key 3))
  else
    none

def dhPublicKey : Option Dh :=
  if dhKeySize (keyWord key 1) then
    dhSet0Key (keyWord key 1) (part key 20 (keyWord key 2)) none
  else
    none

theorem confined_initDhPubStruct {Q : Option Dh → Prop} :
    Confined Q (initDhPubStruct key) ↔
      8 ≤ key.length ∧ (dhKeySize (keyWord key 1) → 12 ≤ key.length ∧ PartInside key 20 (keyWord key 2)) ∧
        Q (dhPublicKey key) := by
  simp only [initDhPubStruct, confined_bind, confined_readWord, confined_ite, confined_bnBin2bn,
    confined_pure, ← and_assoc, guarded]
  rw [dhPublicKey]

theorem confined_initDhStruct (hkey : key.length < UInt32.size) {Q : Option Dh → Prop} :
    Confined Q (initDhStruct key) ↔ 16 ≤ key.length ∧ Q (dhKey key) := by
  have hparts (hexact : DhExact key) : PartInside key 20 (keyWord key 2) ∧
      PartInside key (20 + keyWord key 2).toNat (keyWord key 3) := by
    rw [DhExact] at hexact
    rw [toNat_add_of_lt (by change 20 + (keyWord key 2).toNat < _; omega)]
    exact ⟨.inr (.inr (by omega)), .inr (.inr (by change 20 + (keyWord key 2).toNat + _ ≤ _; omega))⟩
  simp only [initDhStruct, confined_bind, confined_readWord, confined_ite, confined_bnBin2bn,
    confined_pure, ← and_assoc, guarded]
  by_cases hexact : DhExact key
  case pos =>
    have hvalue : dhKey key = if dhKeySize (keyWord key 1) then dhSet0Key (keyWord key 1)
        (part key 20 (keyWord key 2)) (part key (20 + keyWord key 2).toNat (keyWord key 3)) else none := by
      simp [dhKey, hexact]
    rw [hvalue]
    constructor
    case mp => exact fun h => ⟨h.1.1.2, (h.2 (not_not.mpr hexact)).2⟩
    case mpr =>
      exact fun h => ⟨⟨⟨by omega, h.1⟩, fun hne => absurd hexact hne⟩,
        fun _ => ⟨⟨by omega, fun _ => hparts hexact⟩, h.2⟩⟩
  case neg =>
    have hvalue : dhKey key = none := if_neg fun h => hexact h.1
    rw [hvalue]
    constructor
    case mp => exact fun h => ⟨h.1.1.2, h.1.2 hexact⟩
    case mpr => exact fun h => ⟨⟨⟨by omega, h.1⟩, fun _ => h.2⟩, fun heq => absurd hexact heq⟩

-- The number of the peer passes the checks of `hksOpensslDhCheckPubKey`.
def DhPeerAccepted (lib : OpenSsl) (peer : Bytes) : Prop :=
  ∃ dh pub, dhPublicKey peer = some dh ∧ part peer 20 (keyWord peer 2) = some pub ∧
    ¬(pub = 0 ∨ pub = 1 ∨ pub = lib.dhPrime dh.keySize ∨ pub = lib.dhPrime dh.keySize - 1)

theorem dhKeySize_of_public {dh : Dh} (h : dhPublicKey key = some dh) : dhKeySize (keyWord key 1) := by
  rw [dhPublicKey] at h
  split at h
  case isTrue hsize => exact hsize
  case isFalse => nomatch h

-- What `initDhPubStruct` reads of a public key
def DhPublicRead : Prop :=
  8 ≤ key.length ∧ (dhKeySize (keyWord key 1) → 12 ≤ key.length ∧ PartInside key 20 (keyWord key 2))

theorem confined_checkDhPublicKey {lib : OpenSsl} {S : Prop} :
    Confined (fun _ => S) (hksOpensslCheckDhKey lib key HksImportKeyType.publicKey) ↔
      DhPublicRead key ∧ (DhPeerAccepted lib key → S) := by
  have hcheck : hksOpensslCheckDhKey lib key HksImportKeyType.publicKey =
      notNull .cryptoEngineError (initDhPubStruct key) >>= hksOpensslDhCheckPubKey lib key := rfl
  simp only [hcheck, hksOpensslDhCheckPubKey, confined_bind, confined_notNull, confined_readWord, confined_bnBin2bn,
    confined_initDhPubStruct, confined_ite, confined_pure, confined_throw, implies_true, true_and]
  constructor
  case mp =>
    rintro ⟨hlen, hin, h⟩
    refine ⟨⟨hlen, hin⟩, ?_⟩
    rintro ⟨dh, pub, hdh, hpub, hsecure⟩
    exact (h dh hdh).2.2 pub hpub hsecure
  case mpr =>
    rintro ⟨⟨hlen, hin⟩, h⟩
    refine ⟨hlen, hin, fun dh hdh => ?_⟩
    obtain ⟨hlen, hin⟩ := hin (dhKeySize_of_public key hdh)
    exact ⟨hlen, hin, fun pub hpub hsecure => h ⟨dh, pub, hdh, hpub, hsecure⟩⟩

end Dh

section Inits

-- The routines that rebuild a key from its material
def KeyFormat.inits (format : KeyFormat) (lib : OpenSsl) (key : Bytes) : List (Except (Stop HksErrorCode) Unit) :=
  match format with
  | rsa        => [discard (initRsaStruct key true), discard (initRsaStruct key false)]
  | ecc        => [discard (eccInitPrivate lib key), discard (eccInitPublic lib key), getSm2Modules key]
  | dsa        => [discard (initDsaStruct key true), discard (initDsaStruct key false)]
  | dh         => [discard (initDhStruct key), discard (initDhPubStruct key)]
  | curve25519 => [discard (curve25519PrivateKey key), discard (curve25519PublicKey key)]

variable {lib : OpenSsl} {key : Bytes}

theorem inside_discard {α : Type} {x : Except (Stop HksErrorCode) α} : Inside (discard x) ↔ Inside x := by
  rw [inside_iff_confined, inside_iff_confined, confined_discard]

theorem rsa_init_inside (h : KeyFormat.rsa.Fits key) (hkey : key.length < UInt32.size) (needPrivate : Bool) :
    Inside (initRsaStruct key needPrivate) := by
  have ⟨hheader, hfits⟩ := h
  simp only [KeyFormat.declaredSize, KeyFormat.headerSize, KeyFormat.sizeWords, List.map_cons, List.map_nil,
    List.sum_cons, List.sum_nil] at hheader hfits
  have he : (20 + keyWord key 2).toNat = 20 + (keyWord key 2).toNat := toNat_add_of_lt (by
    change 20 + (keyWord key 2).toNat < _
    omega)
  have hd : (20 + keyWord key 2 + keyWord key 3).toNat = 20 + (keyWord key 2).toNat + (keyWord key 3).toNat := by
    rw [toNat_add_of_lt (by rw [he]; omega), he]
  have hcount : (if needPrivate then (keyWord key 4).toNat else 0) ≤ (keyWord key 4).toNat := by
    split <;> omega
  rw [inside_iff_confined]
  simp only [initRsaStruct, confined_bind, confined_readWord, confined_ite, confined_readAt, confined_pure, he, hd,
    implies_true, and_true, true_and]
  omega

theorem confined_copyPart {room offset size : UInt32} {Q : Nat → Prop}
    (h : size ≤ room → offset.toNat + size.toNat ≤ key.length) :
    Confined Q (copyPart key room offset size) ↔
      (size ≤ room → Q (bigEndian (slice key offset.toNat size.toNat))) := by
  simp only [copyPart, confined_ite, confined_bind, confined_throw, confined_readAt, confined_pure, implies_true,
    true_and, UInt32.not_lt]
  exact forall_congr' fun hsize => ⟨fun hq => hq.2, fun hq => ⟨.inr (h hsize), hq⟩⟩

-- What `initDsaStruct` asks of the sizes of the parts
def DsaAccepted (key : Bytes) (needPrivate : Bool) : Prop :=
  let room := hksKeyBytes (keyWord key 1)
  mallocOk room.toNat ∧ (needPrivate → keyWord key 2 ≠ 0 ∧ keyWord key 2 ≤ room) ∧
    ∀ i ∈ [3, 4, 5, 6], keyWord key i ≤ room

theorem confined_initDsaStruct (h : KeyFormat.dsa.Fits key) (hkey : key.length < UInt32.size) (needPrivate : Bool)
    {S : Prop} : Confined (fun _ => S) (initDsaStruct key needPrivate) ↔ (DsaAccepted key needPrivate → S) := by
  obtain ⟨hheader, hfits⟩ := h
  simp only [KeyFormat.declaredSize, KeyFormat.headerSize, KeyFormat.sizeWords, List.map_cons, List.map_nil,
    List.sum_cons, List.sum_nil] at hheader hfits
  have hy : (28 + keyWord key 2).toNat = 28 + (keyWord key 2).toNat := toNat_add_of_lt (by
    change 28 + (keyWord key 2).toNat < _
    omega)
  have hp : (28 + keyWord key 2 + keyWord key 3).toNat = (28 + keyWord key 2).toNat + (keyWord key 3).toNat :=
    toNat_add_of_lt (by omega)
  have hq : (28 + keyWord key 2 + keyWord key 3 + keyWord key 4).toNat =
      (28 + keyWord key 2 + keyWord key 3).toNat + (keyWord key 4).toNat := toNat_add_of_lt (by omega)
  have hg : (28 + keyWord key 2 + keyWord key 3 + keyWord key 4 + keyWord key 5).toNat =
      (28 + keyWord key 2 + keyWord key 3 + keyWord key 4).toNat + (keyWord key 5).toNat := toNat_add_of_lt (by omega)
  have hx : (28 : UInt32).toNat + (if needPrivate then keyWord key 2 else 0).toNat ≤ key.length := by
    cases needPrivate
    case true => exact (by change 28 + (keyWord key 2).toNat ≤ _; omega)
    case false => exact (by change 28 + 0 ≤ _; omega)
  have hwords : 4 * 6 + 4 ≤ key.length := hheader
  simp only [initDsaStruct, confined_bind, confined_readWord, confined_ite, confined_throw, confined_pure,
    confined_copyPart fun _ => hx,
    @confined_copyPart key _ (28 + keyWord key 2) (keyWord key 3) _ fun _ => by omega,
    @confined_copyPart key _ (28 + keyWord key 2 + keyWord key 3) (keyWord key 4) _ fun _ => by omega,
    @confined_copyPart key _ (28 + keyWord key 2 + keyWord key 3 + keyWord key 4) (keyWord key 5) _
      fun _ => by omega,
    @confined_copyPart key _ (28 + keyWord key 2 + keyWord key 3 + keyWord key 4 + keyWord key 5) (keyWord key 6) _
      fun _ => by omega,
    implies_true, true_and, not_not, DsaAccepted, List.forall_mem_cons]
  have hzero : (0 : UInt32) ≤ hksKeyBytes (keyWord key 1) := UInt32.zero_le
  cases needPrivate
  case true =>
    constructor
    case mp =>
      rintro h ⟨hroom, hx, hy, hp, hq, hg, _⟩
      exact (h.2 hroom).2.2.2.2.2 (fun hzero => (hx rfl).1 hzero.2) (hx rfl).2 hy hp hq hg
    case mpr =>
      refine fun h => ⟨by omega, fun hroom => ⟨by omega, by omega, by omega, by omega, by omega, ?_⟩⟩
      exact fun hne hx hy hp hq hg => h ⟨hroom, fun _ => ⟨fun hzero => hne ⟨rfl, hzero⟩, hx⟩,
        hy, hp, hq, hg, fun _ h => by cases h⟩
  case false =>
    constructor
    case mp =>
      rintro h ⟨hroom, _, hy, hp, hq, hg, _⟩
      exact (h.2 hroom).2.2.2.2.2 (fun hzero => by cases hzero.1) hzero hy hp hq hg
    case mpr =>
      refine fun h => ⟨by omega, fun hroom => ⟨by omega, by omega, by omega, by omega, by omega, ?_⟩⟩
      exact fun _ _ hy hp hq hg => h ⟨hroom, (fun h => by cases h), hy, hp, hq, hg, fun _ h => by cases h⟩

-- An offset that wraps around is smaller than it would be.
theorem toNat_add_le (a b : UInt32) : (a + b).toNat ≤ a.toNat + b.toNat := by
  rw [UInt32.toNat_add]
  exact Nat.mod_le _ _

-- A header of three sizes, and all the bytes that they declare
theorem KeyFormat.Fits.ecc_le (h : KeyFormat.ecc.Fits key) :
    20 ≤ key.length ∧ 20 + (keyWord key 2).toNat + (keyWord key 3).toNat + (keyWord key 4).toNat ≤ key.length := by
  have ⟨hheader, hfits⟩ := h
  simp only [declaredSize, headerSize, sizeWords, List.map_cons, List.map_nil, List.sum_cons,
    List.sum_nil] at hheader hfits
  exact ⟨hheader, by omega⟩

theorem KeyFormat.Fits.eccPublicInside (h : KeyFormat.ecc.Fits key) : EccPublicInside key := by
  have ⟨hlen, hsizes⟩ := h.ecc_le
  have hoffset : (20 + keyWord key 2).toNat ≤ 20 + (keyWord key 2).toNat := toNat_add_le 20 _
  exact ⟨hlen, fun _ => ⟨.inr (.inr (by omega)), .inr (.inr (by omega))⟩⟩

theorem KeyFormat.Fits.eccPrivateInside (h : KeyFormat.ecc.Fits key) : EccPrivateInside key := by
  have ⟨hlen, hsizes⟩ := h.ecc_le
  exact ⟨hlen, fun _ => .inr (.inr hsizes)⟩

theorem KeyFormat.Fits.curve25519_le (h : KeyFormat.curve25519.Fits key) :
    20 ≤ key.length ∧ 20 + (keyWord key 2).toNat + (keyWord key 3).toNat ≤ key.length := by
  have ⟨hheader, hfits⟩ := h
  simp only [declaredSize, headerSize, sizeWords, List.map_cons, List.map_nil, List.sum_cons,
    List.sum_nil] at hheader hfits
  exact ⟨hheader, by omega⟩

theorem KeyFormat.Fits.curve25519Inside (h : KeyFormat.curve25519.Fits key) :
    RawKeyInside key (20 + keyWord key 2).toNat (keyWord key 3) ∧ RawKeyInside key 20 (keyWord key 2) := by
  have ⟨hlen, hsizes⟩ := h.curve25519_le
  have hoffset : (20 + keyWord key 2).toNat ≤ 20 + (keyWord key 2).toNat := toNat_add_le 20 _
  exact ⟨fun hsize => by omega, fun hsize => by omega⟩

theorem KeyFormat.Fits.dh_le (h : KeyFormat.dh.Fits key) :
    20 ≤ key.length ∧ 20 + (keyWord key 2).toNat + (keyWord key 3).toNat ≤ key.length := by
  have ⟨hheader, hfits⟩ := h
  simp only [declaredSize, headerSize, sizeWords, List.map_cons, List.map_nil, List.sum_cons,
    List.sum_nil] at hheader hfits
  exact ⟨hheader, by omega⟩

-- The material of a key that fits into its bytes can be read by all the routines.
theorem KeyFormat.Fits.inits_inside {format : KeyFormat} (h : format.Fits key) (hkey : key.length < UInt32.size) :
    ∀ init ∈ format.inits lib key, Inside init := by
  cases format
  case rsa =>
    simp only [inits, List.forall_mem_cons, inside_discard]
    exact ⟨rsa_init_inside h hkey true, rsa_init_inside h hkey false, nofun⟩
  case ecc =>
    obtain ⟨hlen, _⟩ := h.ecc_le
    simp only [inits, List.forall_mem_cons, inside_iff_confined, confined_discard, confined_eccInitPrivate,
      confined_eccInitPublic, and_true]
    refine ⟨h.eccPrivateInside, h.eccPublicInside, ?_, nofun⟩
    simp only [getSm2Modules, confined_bind, confined_ite, confined_throw, confined_readWord, confined_pure,
      implies_true, and_true, true_and]
    omega
  case dsa =>
    simp only [inits, List.forall_mem_cons, inside_iff_confined, confined_discard,
      confined_initDsaStruct h hkey]
    exact ⟨fun _ => trivial, fun _ => trivial, nofun⟩
  case dh =>
    obtain ⟨hlen, hsizes⟩ := h.dh_le
    simp only [inits, List.forall_mem_cons, inside_iff_confined, confined_discard, confined_initDhPubStruct,
      confined_initDhStruct key hkey, and_true]
    exact ⟨by omega, ⟨by omega, fun _ => ⟨by omega, .inr (.inr (by omega))⟩⟩, nofun⟩
  case curve25519 =>
    obtain ⟨hlen, _⟩ := h.curve25519_le
    simp only [inits, List.forall_mem_cons, inside_iff_confined, confined_discard, curve25519PrivateKey,
      curve25519PublicKey, confined_bind, confined_readWord, confined_evpPkeyNewRawKey, and_true]
    exact ⟨⟨by omega, by omega, h.curve25519Inside.1⟩, ⟨by omega, h.curve25519Inside.2⟩, nofun⟩

end Inits

-- A library that takes every key
def acceptingOpenSsl : OpenSsl where
  ecSetPrivateKey _  := true
  ecSetPublicKey _   := true
  ecDerive _ _       := some []
  x25519Derive _ _ _ := some []
  dhPrime _          := 7
  dhSize _           := 256
  dhComputeKey _ _   := some []

end Huks
