import Huks.Crypto.FormatKey
import Huks.Crypto.OpenSsl
import Huks.Crypto.PublicKeyFormat

namespace Huks.InPlace

-- The curves and the groups that have a name
inductive Nid
  | secp224r1 | prime256v1 | secp384r1 | secp521r1 | sm2 | ffdhe2048 | ffdhe3072 | ffdhe4096
  deriving DecidableEq, Repr

-- The bits of the order of a curve, which are those of its field, and of the prime of a group
def Nid.bits : Nid → UInt32
  | secp224r1 => 224
  | prime256v1 => 256
  | secp384r1 => 384
  | secp521r1 => 521
  | sm2       => 256
  | ffdhe2048 => 2048
  | ffdhe3072 => 3072
  | ffdhe4096 => 4096

-- The numbers of a key whose encoding is the numbers one by one. The one of a point is not.
def encodedNumbers : EvpPublicKey → List BigNum
  | .rsa _ n e                       => [n, e]
  | .dsa y p q g                     => [y, p, q, g].filterMap id
  | .dh _ pubKey                     => [pubKey].filterMap id
  | .ec _ _ | .sm2 _ _ _ | .other    => []

-- The library: it checks that a point is on the curve, and its encoding can be read.
structure X509Library extends PublicKeyReader where
  i2dPubkey            : EvpPublicKey → Option Bytes
  setAffineCoordinates : Nid → BigNum → BigNum → Bool
  d2i_i2d              : ∀ key der, i2dPubkey key = some der → d2iPubkey der = some key
  length_i2d           : ∀ key der, i2dPubkey key = some der →
    ((encodedNumbers key).map fun n => n.numBytes.toNat).sum ≤ der.length
  coordinates_lt       : ∀ nid x y, setAffineCoordinates nid x y →
    x.value < 2 ^ nid.bits.toNat ∧ y.value < 2 ^ nid.bits.toNat

-- A number has less than `2 ^ 31` bits.
def bigNum (n : Nat) : Option BigNum := if h : n.size < 2 ^ 31 then some ⟨n, h⟩ else none

-- `MAX_OUT_BLOB_SIZE`
def maxX509KeySize : Nat := 5 * 1024 * 1024

-- `BN_bin2bn` of a part of the key
def bigNumOfPart (key : Bytes) (p : KeyPart) : Except (Stop HksErrorCode) (Option BigNum) := do
  return (← bnBin2bn key p.offset.toNat p.size).bind bigNum

section ToX509

variable (lib : X509Library) (key : Bytes)

def evpKeyToX509Format (pkey : EvpPublicKey) : Except HksErrorCode Bytes :=
  match lib.i2dPubkey pkey with
  | none     => .error .cryptoEngineError
  | some der =>
    if der = [] ∨ maxX509KeySize < der.length then
      .error .cryptoEngineError
    else if mallocOk der.length then
      .ok der
    else
      .error .mallocFail

-- `RSA_size` is the number of bytes of the modulus.
def rsaToX509PublicKey (mod e : KeyPart) : Except (Stop HksErrorCode) Bytes := do
  match ← bigNumOfPart key mod, ← bigNumOfPart key e with
  | some rsaN, some rsaE => checked (evpKeyToX509Format lib (.rsa rsaN.numBytes rsaN rsaE))
  | _, _                 => throw (.error .cryptoEngineError)

def getEccNid (keySize : UInt32) : Except HksErrorCode Nid :=
  if keySize = 224 then .ok .secp224r1
  else if keySize = 256 then .ok .prime256v1
  else if keySize = 384 then .ok .secp384r1
  else if keySize = 521 then .ok .secp521r1
  else .error .invalidArgument

-- What a key on the curve is for the library
def ecKey (nid : Nid) (x y : BigNum) : EvpPublicKey :=
  if nid = .sm2 then .sm2 nid.bits x y else .ec nid.bits (some (x, y))

def eccToX509PublicKey (alg keySize : UInt32) (x y : KeyPart) : Except (Stop HksErrorCode) Bytes := do
  let nid ← if alg = HksKeyAlg.sm2 then pure Nid.sm2 else checked (getEccNid keySize)
  match ← bigNumOfPart key x, ← bigNumOfPart key y with
  | some ecX, some ecY =>
    if lib.setAffineCoordinates nid ecX ecY then
      checked (evpKeyToX509Format lib (ecKey nid ecX ecY))
    else
      throw (.error .cryptoEngineError)
  | _, _               => throw (.error .cryptoEngineError)

def sm2ToX509PublicKey (alg keySize : UInt32) (x y : KeyPart) : Except (Stop HksErrorCode) Bytes :=
  eccToX509PublicKey lib key alg keySize x y

def dsaToX509PublicKey (y p q g : KeyPart) : Except (Stop HksErrorCode) Bytes := do
  match ← bigNumOfPart key y, ← bigNumOfPart key p, ← bigNumOfPart key q, ← bigNumOfPart key g with
  | some dsaY, some dsaP, some dsaQ, some dsaG => checked (evpKeyToX509Format lib (.dsa dsaY dsaP dsaQ dsaG))
  | _, _, _, _                                 => throw (.error .cryptoEngineError)

def dsaPublicKeyToX509 : Except (Stop HksErrorCode) Bytes := do
  match ← getDsaPubKeyParam key with
  | [y, p, q, g] => dsaToX509PublicKey lib key y p q g
  | _            => throw (.error .invalidArgument)

def getDhNid (keySize : UInt32) : Except HksErrorCode Nid :=
  if keySize = 2048 then .ok .ffdhe2048
  else if keySize = 3072 then .ok .ffdhe3072
  else if keySize = 4096 then .ok .ffdhe4096
  else .error .invalidArgument

def dhToX509PublicKey (keySize : UInt32) (pubKey : KeyPart) : Except (Stop HksErrorCode) Bytes := do
  let nid ← checked (getDhNid keySize)
  match ← bigNumOfPart key pubKey with
  | some pub => checked (evpKeyToX509Format lib (.dh nid.bits pub))
  | none     => throw (.error .cryptoEngineError)

def curve25519ToX509PublicKey (publicKey : KeyPart) : Except (Stop HksErrorCode) Bytes :=
  if publicKey.size ≠ hksKeyBytes 256 then
    throw (.error .invalidArgument)
  else if mallocOk publicKey.size.toNat then
    readAt key publicKey.offset.toNat publicKey.size.toNat
  else
    throw (.error .mallocFail)

def translateToX509PublicKeySwitchAlg (material1 material2 : KeyPart) : Except (Stop HksErrorCode) Bytes := do
  let keyAlg ← readWord key 0
  let keySize ← readWord key 1
  if keyAlg = HksKeyAlg.rsa then
    rsaToX509PublicKey lib key material1 material2
  else if keyAlg = HksKeyAlg.ecc then
    eccToX509PublicKey lib key keyAlg keySize material1 material2
  else if keyAlg = HksKeyAlg.sm2 then
    sm2ToX509PublicKey lib key keyAlg keySize material1 material2
  else if keyAlg = HksKeyAlg.dsa then
    dsaPublicKeyToX509 lib key
  else if keyAlg = HksKeyAlg.x25519 ∨ keyAlg = HksKeyAlg.ed25519 then
    curve25519ToX509PublicKey key material1
  else if keyAlg = HksKeyAlg.dh then
    dhToX509PublicKey lib key keySize material1
  else
    throw (.error .invalidArgument)

def translateToX509PublicKey : Except (Stop HksErrorCode) Bytes := do
  if key.length < 20 then
    throw (.error .invalidArgument)
  else
    let nOrXSize ← readWord key 2
    if key.length - 20 < nOrXSize.toNat then
      throw (.error .invalidArgument)
    else
      let offset := 20 + nOrXSize
      let eOrYSize ← readWord key 3
      if key.length - offset.toNat < eOrYSize.toNat then
        throw (.error .invalidArgument)
      else
        translateToX509PublicKeySwitchAlg lib key ⟨20, nOrXSize⟩ ⟨offset, eOrYSize⟩

end ToX509

end Huks.InPlace
