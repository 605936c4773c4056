import Huks.Crypto.AgreeKey
import Huks.Crypto.Theorems.OpenSsl
import Huks.Crypto.Theorems.PublicKey
import Huks.Crypto.Theorems.PublicKeyFormat

namespace Huks

section Routines

variable (lib : OpenSsl) (native peer : Bytes) (keyLen sharedSize : UInt32) {S : Prop}

-- The library agrees on a secret that the buffer of the caller holds.
def EcdhAgrees : Prop :=
  ∃ pKey peerKey sharedKey, eccPrivate lib native = some pKey ∧ eccPublic lib peer = some peerKey ∧
    lib.ecDerive pKey peerKey = some sharedKey ∧ sharedKey.length ≤ sharedSize.toNat

theorem confined_ecdhAgreeKey :
    Confined (fun _ => S) (hksOpensslEcdhAgreeKey lib native peer keyLen sharedSize) ↔
      (eccKeySize keyLen → EccPrivateInside native ∧
        ((eccPrivate lib native).isSome → EccPublicInside peer ∧ (EcdhAgrees lib native peer sharedSize → S))) := by
  simp only [hksOpensslEcdhAgreeKey, agreeKeyEcdh, confined_ite, confined_bind, confined_notNull,
    confined_eccInitPrivate, confined_eccInitPublic, confined_pure, confined_throw, implies_true, and_true,
    true_and, Nat.not_lt]
  constructor
  case mp =>
    intro h hsize
    refine ⟨(h hsize).1, fun hsome => ?_⟩
    obtain ⟨pKey, hkey⟩ := Option.isSome_iff_exists.mp hsome
    refine ⟨((h hsize).2 pKey hkey).1, ?_⟩
    rintro ⟨_, _, _, hkey, hpeer, hderive, hlen⟩
    exact ((h hsize).2 _ hkey).2 _ hpeer _ hderive hlen
  case mpr =>
    intro h hsize
    refine ⟨(h hsize).1, fun pKey hkey => ?_⟩
    obtain ⟨hpeer, hagrees⟩ := (h hsize).2 (hkey ▸ rfl)
    exact ⟨hpeer, fun _ hpeer _ hderive hlen => hagrees ⟨_, _, _, hkey, hpeer, hderive, hlen⟩⟩

def X25519Agrees : Prop :=
  ∃ ours theirs, rawKey native (20 + keyWord native 2).toNat (keyWord native 3) = some ours ∧
    rawKey peer 20 (keyWord peer 2) = some theirs ∧ (lib.x25519Derive ours theirs sharedSize).isSome

-- The raw private key is there, and so are the words of the header that tell where it is.
def X25519PrivateInside : Prop :=
  16 ≤ native.length ∧ RawKeyInside native (20 + keyWord native 2).toNat (keyWord native 3)

def X25519PublicInside : Prop :=
  12 ≤ peer.length ∧ RawKeyInside peer 20 (keyWord peer 2)

theorem rawKey_isSome {key : Bytes} {offset : Nat} {size : UInt32} :
    (rawKey key offset size).isSome ↔ size.toNat = curve25519KeyLen := by
  rw [rawKey]
  split
  case isTrue h => exact iff_of_true rfl h
  case isFalse h => exact iff_of_false (fun h => by cases h) h

theorem confined_x25519AgreeKey :
    Confined (fun _ => S) (hksOpensslX25519AgreeKey lib native peer sharedSize) ↔
      X25519PrivateInside native ∧ ((keyWord native 3).toNat = curve25519KeyLen →
        X25519PublicInside peer ∧ (X25519Agrees lib native peer sharedSize → S)) := by
  simp only [hksOpensslX25519AgreeKey, importX25519EvpKey, curve25519PrivateKey, curve25519PublicKey,
    confined_bind, confined_notNull, confined_readWord, confined_evpPkeyNewRawKey, confined_pure]
  rw [← @rawKey_isSome native (20 + keyWord native 2).toNat]
  constructor
  case mp =>
    rintro ⟨_, hlen, hin, h⟩
    refine ⟨⟨hlen, hin⟩, fun hsome => ?_⟩
    obtain ⟨ours, hours⟩ := Option.isSome_iff_exists.mp hsome
    obtain ⟨hpeer, hpeerIn, _⟩ := h ours hours
    refine ⟨⟨hpeer, hpeerIn⟩, ?_⟩
    rintro ⟨_, _, hours, htheirs, hderive⟩
    obtain ⟨_, hderive⟩ := Option.isSome_iff_exists.mp hderive
    exact (h _ hours).2.2 _ htheirs _ hderive
  case mpr =>
    rintro ⟨⟨hlen, hin⟩, h⟩
    refine ⟨by omega, hlen, hin, fun ours hours => ?_⟩
    obtain ⟨⟨hpeer, hpeerIn⟩, hagrees⟩ := h (hours ▸ rfl)
    exact ⟨hpeer, hpeerIn, fun _ htheirs _ hderive => hagrees ⟨_, _, hours, htheirs, hderive ▸ rfl⟩⟩

def DhPublicInside : Prop := 12 ≤ peer.length ∧ PartInside peer 20 (keyWord peer 2)

def DhAgrees : Prop :=
  ∃ dh pub, dhKey native = some dh ∧ part peer 20 (keyWord peer 2) = some pub ∧
    (lib.dhComputeKey dh pub).isSome ∧ hksKeyBytes keyLen ≤ lib.dhSize dh.keySize ∧
    ¬(sharedSize = 0 ∨ OutBuffer.secureMemMaxLen < sharedSize.toNat)

theorem confined_dhAgreeKey (hnative : native.length < UInt32.size) :
    Confined (fun _ => S) (hksOpensslDhAgreeKey lib native peer keyLen sharedSize) ↔
      (hksKeyBytes keyLen ≤ sharedSize → DhPublicInside peer ∧ (DhPeerAccepted lib peer →
        16 ≤ native.length ∧ (dhKey native).isSome ∧ (DhAgrees lib native peer keyLen sharedSize → S))) := by
  have hsize (Q : UInt32 → Prop) (dh : Option Dh) :
      Confined Q (dhSize lib dh) ↔ ∃ d, dh = some d ∧ Q (lib.dhSize d.keySize) := by
    cases dh
    case none => exact iff_of_false id nofun
    case some d => exact ⟨fun h => ⟨d, rfl, h⟩, by rintro ⟨_, hd, h⟩; exact Option.some.inj hd ▸ h⟩
  simp only [hksOpensslDhAgreeKey, confined_bind, confined_notNull, confined_readWord, confined_bnBin2bn,
    confined_checkDhPublicKey, confined_ite, confined_pure, confined_throw, confined_initDhStruct native hnative,
    hsize, implies_true, true_and, UInt32.not_lt]
  constructor
  case mp =>
    intro h hfit
    obtain ⟨hlen, hin, h⟩ := h hfit
    refine ⟨⟨hlen, hin⟩, fun haccepted => ?_⟩
    obtain ⟨_, pub, _, hpub, _⟩ := id haccepted
    obtain ⟨hnative, dh, hkey, h⟩ := (h pub hpub).2 haccepted
    refine ⟨hnative, hkey ▸ rfl, ?_⟩
    rintro ⟨_, _, hkey', hpub', hcompute, hbytes, hroom⟩
    obtain ⟨computed, hcomputed⟩ := Option.isSome_iff_exists.mp hcompute
    rw [hkey] at hkey' h
    rw [hpub] at hpub'
    rw [← Option.some.inj hkey', ← Option.some.inj hpub'] at hcomputed
    rw [← Option.some.inj hkey'] at hbytes
    exact h computed hcomputed hbytes hroom
  case mpr =>
    intro h hfit
    obtain ⟨⟨hlen, hin⟩, h⟩ := h hfit
    refine ⟨hlen, hin, fun pub hpub => ⟨⟨by omega, fun _ => ⟨hlen, hin⟩⟩, fun haccepted => ?_⟩⟩
    obtain ⟨hnative, hsome, hagrees⟩ := h haccepted
    obtain ⟨dh, hkey⟩ := Option.isSome_iff_exists.mp hsome
    refine ⟨hnative, dh, hkey, fun _ hcompute hbytes hroom => hagrees ⟨dh, pub, hkey, hpub, ?_, hbytes, hroom⟩⟩
    rw [hkey] at hcompute
    exact Option.isSome_iff_exists.mpr ⟨_, hcompute⟩

end Routines

section Peer

variable {peer : Bytes}

theorem SizesHeld.fits (h : SizesHeld peer) (alg : AgreeAlg) : alg.format.Fits peer := by
  have ⟨hlen, hsizes⟩ := h
  cases alg <;>
    simp only [AgreeAlg.format, KeyFormat.Fits, KeyFormat.declaredSize, KeyFormat.headerSize, KeyFormat.sizeWords,
      List.map_cons, List.map_nil, List.sum_cons, List.sum_nil] <;>
    omega

theorem SizesHeld.x25519PublicInside (h : SizesHeld peer) : X25519PublicInside peer :=
  ⟨by have := h.1; omega, (h.fits .x25519).curve25519Inside.2⟩

theorem SizesHeld.dhPublicInside (h : SizesHeld peer) : DhPublicInside peer :=
  ⟨by have := h.1; omega, .inr (.inr (by have := h.2; omega))⟩

end Peer

namespace AgreeAlg

variable (lib : OpenSsl) (native : Bytes) (keyLen : UInt32) (peer : Bytes)

-- What the routine reads of both keys is there, as far as it gets, and a peer key whose parts are
-- not all there is refused by the library.
def Safe (sharedSize : UInt32) : AgreeAlg → Prop
  | ecdh   => eccKeySize keyLen → EccPrivateInside native ∧ ((eccPrivate lib native).isSome →
    EccPublicInside peer ∧ (EcdhAgrees lib native peer sharedSize → KeyFormat.ecc.Fits peer))
  | x25519 => X25519PrivateInside native ∧ ((keyWord native 3).toNat = curve25519KeyLen →
    X25519PublicInside peer ∧ (X25519Agrees lib native peer sharedSize → KeyFormat.curve25519.Fits peer))
  | dh     => hksKeyBytes keyLen ≤ sharedSize → DhPublicInside peer ∧ (DhPeerAccepted lib peer →
    (dhKey native).isSome ∧ (DhAgrees lib native peer keyLen sharedSize → KeyFormat.dh.Fits peer))

-- The same of the private key alone
def PrivateSafe : AgreeAlg → Prop
  | ecdh   => eccKeySize keyLen → EccPrivateInside native
  | x25519 => X25519PrivateInside native
  | dh     => hksKeyBytes keyLen ≤ maxKeySize → DhPeerAccepted lib peer → (dhKey native).isSome

variable {lib native keyLen peer}

theorem safe_iff_private (alg : AgreeAlg) (h : SizesHeld peer) :
    alg.Safe lib native keyLen peer maxKeySize ↔ alg.PrivateSafe lib native keyLen peer := by
  have hfits := h.fits alg
  cases alg
  case ecdh =>
    exact forall_congr' fun _ => ⟨fun h => h.1, fun hp => ⟨hp, fun _ => ⟨hfits.eccPublicInside, fun _ => hfits⟩⟩⟩
  case x25519 => exact ⟨fun h => h.1, fun hp => ⟨hp, fun _ => ⟨h.x25519PublicInside, fun _ => hfits⟩⟩⟩
  case dh =>
    refine forall_congr' fun _ => ⟨fun h hpeer => (h.2 hpeer).1, fun hp => ⟨h.dhPublicInside, fun hpeer => ?_⟩⟩
    exact ⟨hp hpeer, fun _ => hfits⟩

end AgreeAlg

theorem StoredKey.header_le (key : StoredKey) : 20 ≤ key.bytes.length := by
  have hfits := key.fits.1
  have hheader : 20 ≤ key.format.headerSize := by cases key.format <;> decide
  omega

theorem confined_agreeKey (lib : OpenSsl) (native : StoredKey) (keyLen : UInt32) (peer : Bytes) (alg : AgreeAlg)
    (sharedSize : UInt32) :
    Confined (fun _ => alg.format.Fits peer)
        (hksCryptoHalAgreeKey lib native.bytes peer keyLen alg sharedSize) ↔
      (peer ≠ [] → alg.Safe lib native.bytes keyLen peer sharedSize) := by
  have hlen := native.header_le
  have hsmall := native.small
  rw [OutBuffer.secureMemMaxLen] at hsmall
  have hne : native.bytes ≠ [] := List.ne_nil_of_length_pos (by omega)
  rw [hksCryptoHalAgreeKey.eq_def]
  by_cases hpeer : peer = []
  case pos =>
    rw [if_pos (.inr hpeer)]
    exact iff_of_true trivial fun h => absurd hpeer h
  case neg =>
    rw [if_neg (not_or.mpr ⟨hne, hpeer⟩), forall_prop_of_true hpeer]
    cases alg
    case ecdh => exact confined_ecdhAgreeKey lib native.bytes peer keyLen sharedSize
    case x25519 => exact confined_x25519AgreeKey lib native.bytes peer sharedSize
    case dh =>
      refine (confined_dhAgreeKey lib native.bytes peer keyLen sharedSize (by rw [UInt32.size]; omega)).trans ?_
      refine forall_congr' fun _ => and_congr_right fun _ => forall_congr' fun _ => ?_
      exact ⟨fun h => h.2, fun h => ⟨by omega, h⟩⟩

-- What a client asks of `HksCoreAgreeKey`; the routine is the one that is registered for the
-- algorithm of the key spec.
structure AgreeRequest (alg : AgreeAlg) where
  paramSet      : HksParamSet
  privateKey    : Bytes
  peerPublicKey : Bytes
  agreedKeySize : UInt32
  algType_eq    : (hksFillKeySpec paramSet).algType = alg.keyAlg

-- The two ways to agree on a key: at once, where the key of the peer comes from the client as it is,
-- and by an update, where it comes as an X.509 key and is put into the format of the engine first.
inductive AgreeRoute (alg : AgreeAlg)
  | oneStage (request : AgreeRequest alg)
  | threeStage (keyLen : UInt32) (agreed : Bool) (srcData : Bytes)

namespace AgreeRoute

variable {alg : AgreeAlg} (lib : OpenSsl) (env : OneStageEnv) (reader : PublicKeyReader) (native : StoredKey)

def run : AgreeRoute alg → Except (Stop HksErrorCode) Bytes
  | oneStage r =>
    coreAgreeKey lib env (.ok native.bytes) alg r.paramSet r.privateKey r.peerPublicKey r.agreedKeySize
  | threeStage keyLen agreed srcData =>
    coreAgreeThreeStageUpdate lib keyLen reader (.ok native.bytes) alg agreed srcData

-- The peer key that the routine of the algorithm gets
def peerKey : AgreeRoute alg → Except HksErrorCode Bytes
  | oneStage r             => .ok r.peerPublicKey
  | threeStage _ _ srcData => getHksPubKeyInnerFormat reader alg.keyAlg srcData

-- Nothing is read outside of the two keys, and there is an error where the peer key lacks a part.
def Ends (route : AgreeRoute alg) : Prop :=
  Confined (fun _ => ∀ peer, route.peerKey reader = .ok peer → alg.format.Fits peer)
    (route.run lib env reader native)

def Safe : AgreeRoute alg → Prop
  | oneStage r =>
    hksCoreCheckAgreeKeyParams env r.paramSet r.privateKey r.agreedKeySize = .ok () → r.peerPublicKey ≠ [] →
      alg.Safe lib native.bytes (hksFillKeySpec r.paramSet).keyLen r.peerPublicKey r.agreedKeySize
  | threeStage keyLen agreed srcData =>
    ¬agreed → ∀ peer, getHksPubKeyInnerFormat reader alg.keyAlg srcData = .ok peer →
      alg.PrivateSafe lib native.bytes keyLen peer

end AgreeRoute

-- A stored key on the curve of 256 bits with one byte in each of its parts
def tinyEccKey : StoredKey where
  bytes  := ([HksKeyAlg.ecc, 256, 1, 1, 1].flatMap toBytes32) ++ [7, 3, 5]
  format := .ecc
  alg_eq := by decide
  fits   := by decide
  small  := by decide

def emptyReader : PublicKeyReader where
  d2iPubkey _     := none
  fresh size      := .replicate size 0
  fresh_size      := freshZeros_size

-- A build with all algorithms, and a key file that says that its key is on that curve
def eccFileEnv : OneStageEnv where
  supportAlg _                       := true
  hksCheckFixedParams _ _            := .error .failure
  checkCipherPadding _ _             := .error .failure
  hksCheckCipherMaterialParams _ _ _ := .error .failure
  hksCheckCipherData _ _ _ _ _       := .error .failure
  hksGetKeySize alg _                := hksGetKeySize ⟨32, [.ofUInt32 HksTag.keySize 256], []⟩ alg
  hksCryptoHalHash _ _ _             := .error .failure
  hksCryptoHalHmac _ _ _ _           := .error .failure
  hksCryptoHalGetPubKey _ _          := .error .failure

-- A peer key of one byte, and room for the whole secret
def bytePeerRequest : AgreeRequest .ecdh where
  paramSet      := ⟨56, [.ofUInt32 HksTag.algorithm HksKeyAlg.ecdh, .ofUInt32 HksTag.keySize 256], []⟩
  privateKey    := [1]
  peerPublicKey := [0]
  agreedKeySize := 32
  algType_eq    := by decide

end Huks
