import Huks.Engine.CryptoAdapter
import Huks.Crypto.KeyMaterial
import Mathlib.Data.Nat.Size
import Mathlib.Algebra.Ring.Nat
import Mathlib.Data.UInt

namespace Huks

-- `BIGNUM`: the number of its bits is an `int`.
structure BigNum where
  value : Nat
  small : value.size < 2 ^ 31

-- The last `len` bytes of a number, in big-endian order.
def bigEndianBytes (len value : Nat) : Bytes :=
  (List.range len).reverse.map fun i => (value / 256 ^ i).toUInt8

namespace BigNum

def numBytes (n : BigNum) : UInt32 := ((n.value.size + 7) / 8).toUInt32

def bn2bin (n : BigNum) : Bytes := bigEndianBytes n.numBytes.toNat n.value

def bn2binpad (n : BigNum) (len : UInt32) : Option Bytes :=
  if n.numBytes ≤ len then some (bigEndianBytes len.toNat n.value) else none

end BigNum

-- A public key as the crypto library has it. Where it may lack a part this is an option.
inductive EvpPublicKey
  | rsa (size : UInt32) (n e : BigNum)
  | ec (orderBits : UInt32) (point : Option (BigNum × BigNum))
  | sm2 (bits : UInt32) (x y : BigNum)
  | dsa (y p q g : Option BigNum)
  | dh (bits : UInt32) (pubKey : Option BigNum)
  | other

-- `d2i_PUBKEY`, and what is in a buffer that has just been allocated.
structure PublicKeyReader where
  d2iPubkey  : Bytes → Option EvpPublicKey
  fresh      : Nat → Bytes
  fresh_size : ∀ size, (fresh size).length = size

section Inner

variable (reader : PublicKeyReader)

-- A buffer of the size, with the header and the parts behind it
def innerKey (malloc : HksErrorCode) (size : UInt32) (header : List UInt32) (parts : Bytes) :
    Except HksErrorCode Bytes :=
  if mallocOk size.toNat then .ok (header.flatMap toBytes32 ++ parts) else .error malloc

def copyToInnerKey (key : Bytes) : Except HksErrorCode Bytes :=
  if key = [] ∨ key.length > 2048 then .error .invalidArgument else .ok key

def translateToInnerCurve25519Format (alg : UInt32) (key : Bytes) : Except HksErrorCode Bytes :=
  if key.length ≠ 32 then
    .error .invalidKeyInfo
  else
    innerKey .mallocFail (20 + key.size) [alg, 256, key.size, 0, 0] key

def x509PublicKeyToRsa (size : UInt32) (n e : BigNum) : Except HksErrorCode Bytes :=
  let nSize := n.numBytes
  let eSize := e.numBytes
  if nSize = 0 ∨ eSize = 0 then
    .error .internalError
  else
    innerKey .mallocFail (nSize + eSize + 20) [HksKeyAlg.rsa, size * 8, nSize, eSize, 0]
      (n.bn2bin ++ e.bn2bin)

-- `EcKeyToPublicKey`. A coordinate that is too long leaves its part as it was.
def x509PublicKeyToEcc (alg keyLen : UInt32) (point : Option (BigNum × BigNum)) : Except HksErrorCode Bytes :=
  match point with
  | none        => .error .cryptoEngineError
  | some (x, y) =>
    let xSize := hksKeyBytes keyLen
    let ySize := hksKeyBytes keyLen
    let part (n : BigNum) (size : UInt32) := (n.bn2binpad size).getD (reader.fresh size.toNat)
    if keyLen = 0 ∨ 521 < keyLen then
      .error .cryptoEngineError
    else
      innerKey .cryptoEngineError (xSize + ySize + 20) [alg, keyLen, xSize, ySize, 0]
        (part x xSize ++ part y ySize)

-- `GetBnBinpadFromPkey`
def getBnBinpad (n : BigNum) : Except HksErrorCode Bytes :=
  if n.numBytes = 0 ∨ 1536 ≤ n.numBytes then .error .cryptoEngineError else .ok n.bn2bin

def x509PublicKeyToSm2 (alg keyLen : UInt32) (x y : BigNum) : Except HksErrorCode Bytes := do
  if keyLen = 0 ∨ 2 ^ 31 ≤ keyLen then throw .cryptoEngineError
  if keyLen ≠ 256 then throw .notSupported
  let pubX ← getBnBinpad x
  let pubY ← getBnBinpad y
  innerKey .insufficientMemory (20 + pubX.size + pubY.size) [alg, keyLen, pubX.size, pubY.size, 0]
    (pubX ++ pubY)

def getDsaKeyInfo (info : Option BigNum) : Except HksErrorCode BigNum :=
  match info with
  | none   => .error .invalidArgument
  | some n => if n.numBytes = 0 then .error .invalidArgument else .ok n

def x509PublicKeyToDsa (y p q g : Option BigNum) : Except HksErrorCode Bytes := do
  let y ← getDsaKeyInfo y
  let p ← getDsaKeyInfo p
  let q ← getDsaKeyInfo q
  let g ← getDsaKeyInfo g
  let ySize := y.numBytes
  if ySize > 0xFFFFFFFF - 8 ∨ (ySize + 7) / 8 > 0xFFFFFFFF / 64 then throw .badState
  innerKey .mallocFail (28 + ySize + p.numBytes + q.numBytes + g.numBytes)
    [HksKeyAlg.dsa, (ySize + 7) / 8 * 8 * 8, 0, ySize, p.numBytes, q.numBytes, g.numBytes]
    (y.bn2bin ++ p.bn2bin ++ q.bn2bin ++ g.bn2bin)

def x509PublicKeyToDh (bits : UInt32) (pubKey : Option BigNum) : Except HksErrorCode Bytes :=
  match pubKey with
  | none        => .error .nullPointer
  | some pubKey =>
    let pubKeySize := pubKey.numBytes
    if pubKeySize > 0xFFFFFFFF - 20 then
      .error .badState
    else
      innerKey .mallocFail (20 + pubKeySize) [HksKeyAlg.dh, bits, pubKeySize, 0, 0] pubKey.bn2bin

def translateFromX509PublicKey (alg : UInt32) (x509Key : Bytes) : Except HksErrorCode Bytes :=
  match reader.d2iPubkey x509Key with
  | none                      => .error .invalidArgument
  | some (.rsa size n e)      => x509PublicKeyToRsa size n e
  | some (.ec keyLen point)   => x509PublicKeyToEcc reader alg keyLen point
  | some (.sm2 keyLen x y)    => x509PublicKeyToSm2 alg keyLen x y
  | some (.dsa y p q g)       => x509PublicKeyToDsa y p q g
  | some (.dh bits pubKey)    => x509PublicKeyToDh bits pubKey
  | some .other               => .error .invalidArgument

def getHksPubKeyInnerFormat (alg : UInt32) (key : Bytes) : Except HksErrorCode Bytes :=
  if key = [] then
    .error .invalidArgument
  else if alg = HksKeyAlg.aes then
    if key.length ≠ 16 ∧ key.length ≠ 24 ∧ key.length ≠ 32 then .error .invalidKeyInfo else copyToInnerKey key
  else if alg = HksKeyAlg.hmac ∨ alg = HksKeyAlg.sm3 ∨ alg = HksKeyAlg.sm4 then
    copyToInnerKey key
  else if alg = HksKeyAlg.ed25519 ∨ alg = HksKeyAlg.x25519 then
    translateToInnerCurve25519Format alg key
  else if alg = HksKeyAlg.rsa ∨ alg = HksKeyAlg.ecc ∨ alg = HksKeyAlg.ecdh ∨ alg = HksKeyAlg.dsa ∨
      alg = HksKeyAlg.dh ∨ alg = HksKeyAlg.sm2 then
    translateFromX509PublicKey reader alg key
  else
    .error .invalidAlgorithm

end Inner

end Huks
