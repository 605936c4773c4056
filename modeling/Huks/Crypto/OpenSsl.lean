import Huks.Crypto.KeyMaterial
import Mathlib.Algebra.Ring.Nat

namespace Huks

-- A number in big-endian bytes
def bigEndian (bytes : Bytes) : Nat := bytes.foldl (fun n b => 256 * n + b.toNat) 0

def curve25519KeyLen : Nat := 32

namespace HksImportKeyType
def publicKey  : UInt32 := 0
def privateKey : UInt32 := 1
def keyPair    : UInt32 := 2
end HksImportKeyType

-- A private and a public key on the curve of `keySize` bits
structure EcPrivateKey where
  keySize : UInt32
  pri     : Nat
  deriving DecidableEq, Repr

structure EcPublicKey where
  keySize : UInt32
  pubX    : Nat
  pubY    : Nat
  deriving DecidableEq, Repr

-- `DH`, of the group of `keySize` bits
structure Dh where
  keySize : UInt32
  pubKey  : Nat
  privKey : Option Nat
  deriving DecidableEq, Repr

-- What the crypto library makes of numbers and of raw keys, after it has read them.
structure OpenSsl where
  ecSetPrivateKey : EcPrivateKey → Bool
  ecSetPublicKey  : EcPublicKey → Bool
  ecDerive        : EcPrivateKey → EcPublicKey → Option Bytes
  x25519Derive    : Bytes → Bytes → UInt32 → Option Bytes
  dhPrime         : UInt32 → Nat
  dhSize          : UInt32 → UInt32
  dhComputeKey    : Dh → Nat → Option Bytes

section

variable (key : Bytes) (offset : Nat) (size : UInt32)

-- `BN_bin2bn`. The length is an `int`: it refuses a negative one.
def bnBin2bn : Except (Stop HksErrorCode) (Option Nat) :=
  if 2 ^ 31 ≤ size.toNat then
    return none
  else do
    return some (bigEndian (← readAt key offset size.toNat))

-- `EVP_PKEY_new_raw_private_key` and `EVP_PKEY_new_raw_public_key` on a curve whose keys are 32
-- bytes. They refuse any other length.
def evpPkeyNewRawKey : Except (Stop HksErrorCode) (Option Bytes) :=
  if size.toNat = curve25519KeyLen then do
    return some (← readAt key offset curve25519KeyLen)
  else
    return none

end

section Ecc

variable (lib : OpenSsl) (key : Bytes)

-- `HksOpensslGetCurveId` has a curve for this size.
def eccKeySize (keySize : UInt32) : Bool := [224, 256, 384, 521].contains keySize

def setPublicKey (keySize : UInt32) (pubX pubY : Option Nat) : Option EcPublicKey :=
  match pubX, pubY with
  | some pubX, some pubY =>
    let pub := { keySize, pubX, pubY }
    if lib.ecSetPublicKey pub then some pub else none
  | _, _ => none

def setPrivateKey (keySize : UInt32) (pri : Option Nat) : Option EcPrivateKey :=
  match pri with
  | some pri =>
    let priv := { keySize, pri }
    if lib.ecSetPrivateKey priv then some priv else none
  | none     => none

def eccInitPublicKey (keySize xSize ySize : UInt32) : Except (Stop HksErrorCode) (Option EcPublicKey) := do
  let pubX ← bnBin2bn key 20 xSize
  -- The offset is an `uint32_t`.
  let pubY ← bnBin2bn key (20 + xSize).toNat ySize
  return setPublicKey lib keySize pubX pubY

-- `EccInitKey` of a public key, and of a private key
def eccInitPublic : Except (Stop HksErrorCode) (Option EcPublicKey) := do
  let keySize ← readWord key 1
  let publicXSize ← readWord key 2
  let publicYSize ← readWord key 3
  discard <| readWord key 4
  if eccKeySize keySize then
    eccInitPublicKey lib key keySize publicXSize publicYSize
  else
    return none

def eccInitPrivate : Except (Stop HksErrorCode) (Option EcPrivateKey) := do
  let keySize ← readWord key 1
  let publicXSize ← readWord key 2
  let publicYSize ← readWord key 3
  let privateSize ← readWord key 4
  if eccKeySize keySize then
    let pri ← bnBin2bn key (20 + publicXSize.toNat + publicYSize.toNat) privateSize
    return setPrivateKey lib keySize pri
  else
    return none

end Ecc

section Dh

variable (lib : OpenSsl) (key : Bytes)

-- `HksOpensslGetNid` has a group for this size.
def dhKeySize (keySize : UInt32) : Bool := [2048, 3072, 4096].contains keySize

-- `DH_set0_key` needs the public key.
def dhSet0Key (keySize : UInt32) (pubKey privKey : Option Nat) : Option Dh :=
  pubKey.map fun pubKey => { keySize, pubKey, privKey }

def initDhStruct : Except (Stop HksErrorCode) (Option Dh) := do
  let pubKeySize ← readWord key 2
  let priKeySize ← readWord key 3
  if key.length ≠ 20 + pubKeySize.toNat + priKeySize.toNat then
    return none
  else
    let keySize ← readWord key 1
    if dhKeySize keySize then
      let pubKey ← bnBin2bn key 20 pubKeySize
      let privKey ← bnBin2bn key (20 + pubKeySize).toNat priKeySize
      return dhSet0Key keySize pubKey privKey
    else
      return none

def initDhPubStruct : Except (Stop HksErrorCode) (Option Dh) := do
  let keySize ← readWord key 1
  if dhKeySize keySize then
    let pubKeySize ← readWord key 2
    let pubKey ← bnBin2bn key 20 pubKeySize
    return dhSet0Key keySize pubKey none
  else
    return none

def hksOpensslDhCheckPubKey (dh : Dh) : Except (Stop HksErrorCode) Unit := do
  let pubKeySize ← readWord key 2
  let pub ← notNull .invalidKeyInfo (bnBin2bn key 20 pubKeySize)
  let p := lib.dhPrime dh.keySize
  if pub = 0 ∨ pub = 1 ∨ pub = p ∨ pub = p - 1 then throw (.error .invalidKeyInfo)

def hksOpensslCheckDhKey (importKeyType : UInt32) : Except (Stop HksErrorCode) Unit := do
  let dh ← notNull .cryptoEngineError <|
    if importKeyType = HksImportKeyType.keyPair then
      initDhStruct key
    else if importKeyType = HksImportKeyType.publicKey then
      initDhPubStruct key
    else
      return none
  hksOpensslDhCheckPubKey lib key dh

end Dh

section Rsa

variable (key : Bytes)

structure Rsa where
  n : Nat
  e : Nat
  d : Option Nat
  deriving DecidableEq, Repr

def rsaCheckKeyMaterial : Except (Stop HksErrorCode) Unit := do
  let keyAlg ← readWord key 0
  if keyAlg ≠ HksKeyAlg.rsa then throw (.error .invalidKeyInfo)
  let nSize ← readWord key 2
  let eSize ← readWord key 3
  let dSize ← readWord key 4
  if key.length ≠ 20 + nSize.toNat + eSize.toNat + dSize.toNat then throw (.error .invalidKeyInfo)

-- The parts are copied into a buffer of the size of the largest one, and made numbers there.
def initRsaStruct (needPrivateExponent : Bool) : Except (Stop HksErrorCode) (Option Rsa) := do
  let nSize ← readWord key 2
  let eSize ← readWord key 3
  let dSize ← readWord key 4
  if ¬mallocOk (max (max nSize eSize) dSize).toNat then
    return none
  else
    let n ← readAt key 20 nSize.toNat
    let e ← readAt key (20 + nSize).toNat eSize.toNat
    let d ← readAt key (20 + nSize + eSize).toNat (if needPrivateExponent then dSize.toNat else 0)
    return some ⟨bigEndian n, bigEndian e, if needPrivateExponent then some (bigEndian d) else none⟩

-- An exponent below 65537 is not secure.
def hksOpensslCheckRsaKey : Except (Stop HksErrorCode) Unit := do
  let nSize ← readWord key 2
  let eSize ← readWord key 3
  let e ← notNull .cryptoEngineError (bnBin2bn key (20 + nSize.toNat) eSize)
  if e < 65537 then throw (.error .invalidKeyInfo)

end Rsa

section Dsa

variable (key : Bytes)

structure Dsa where
  x : Option Nat
  y : Nat
  p : Nat
  q : Nat
  g : Nat
  deriving DecidableEq, Repr

-- `memcpy_s` of a part into a buffer of `room` bytes, and the number in it
def copyPart (room offset size : UInt32) : Except (Stop HksErrorCode) Nat := do
  if room < size then throw (.error .insufficientMemory)
  return bigEndian (← readAt key offset.toNat size.toNat)

def initDsaStruct (needPrivateExponent : Bool) : Except (Stop HksErrorCode) Dsa := do
  let keySize ← readWord key 1
  let room := hksKeyBytes keySize
  if ¬mallocOk room.toNat then throw (.error .mallocFail)
  let xSize ← readWord key 2
  let ySize ← readWord key 3
  let pSize ← readWord key 4
  let qSize ← readWord key 5
  let gSize ← readWord key 6
  if needPrivateExponent ∧ xSize = 0 then throw (.error .invalidArgument)
  let x ← copyPart key room 28 (if needPrivateExponent then xSize else 0)
  let offset := 28 + xSize
  let y ← copyPart key room offset ySize
  let p ← copyPart key room (offset + ySize) pSize
  let q ← copyPart key room (offset + ySize + pSize) qSize
  let g ← copyPart key room (offset + ySize + pSize + qSize) gSize
  return ⟨if needPrivateExponent then some x else none, y, p, q, g⟩

end Dsa

section Curve25519

variable (key : Bytes)

-- The offset of the private key is an `uint32_t`.
def curve25519PrivateKey : Except (Stop HksErrorCode) (Option Bytes) := do
  let pubKeySize ← readWord key 2
  let priKeySize ← readWord key 3
  evpPkeyNewRawKey key (20 + pubKeySize).toNat priKeySize

def curve25519PublicKey : Except (Stop HksErrorCode) (Option Bytes) := do
  let pubKeySize ← readWord key 2
  evpPkeyNewRawKey key 20 pubKeySize

end Curve25519

-- `GetSm2Modules`, which checks all before anything is read behind the header.
def getSm2Modules (key : Bytes) : Except (Stop HksErrorCode) Unit := do
  if key = [] ∨ key.length < 20 then throw (.error .invalidArgument)
  let keySize ← readWord key 1
  let xSize ← readWord key 2
  let ySize ← readWord key 3
  let zSize ← readWord key 4
  let bytes := hksKeyBytes keySize
  if keySize ≠ 256 ∨ bytes < xSize ∨ bytes < ySize ∨ bytes < zSize ∨
      key.length ≠ 20 + xSize.toNat + ySize.toNat + zSize.toNat then
    throw (.error .invalidArgument)

end Huks
