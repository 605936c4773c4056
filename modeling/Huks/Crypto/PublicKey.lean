import Huks.Crypto.KeyMaterial
import Huks.Lib.OutBuffer
import Mathlib.Algebra.Ring.Nat

namespace Huks

open OutBuffer

def writeWord (i : Nat) (w : UInt32) : OutM HksErrorCode PUnit := writeAt (4 * i) (toBytes32 w)

def writeWords : Nat → List UInt32 → OutM HksErrorCode PUnit
  | _, []      => return ⟨⟩
  | i, w :: ws => do
    writeWord i w
    writeWords (i + 1) ws

-- The difference of two sizes of type `size_t`
def sizeSub (a b : Nat) : Nat := (a + 2 ^ 64 - b) % 2 ^ 64

section

variable (input : Bytes)

-- The size, the header, and behind it the parts of the key from `src` on.
def savePublicParts (headerSize : Nat) (size : UInt32) (words : List UInt32) (src : Nat)
    (count : UInt32) : OutM HksErrorCode Bool := do
  setSize size
  writeWords 0 words
  let parts ← reading (readAt input src count.toNat)
  memcpyInto headerSize (sizeSub size.toNat headerSize) parts

def hksOpensslGetRsaPubKey : OutM HksErrorCode PUnit := do
  let nSize ← reading (readWord input 2)
  let eSize ← reading (readWord input 3)
  let keyAlg ← reading (readWord input 0)
  let keySize ← reading (readWord input 1)
  discard <| savePublicParts input 20 (20 + nSize + eSize) [keyAlg, keySize, nSize, eSize, 0]
    20 (nSize + eSize)

def hksOpensslGetEccPubKey : OutM HksErrorCode PUnit := do
  let xSize ← reading (readWord input 2)
  let ySize ← reading (readWord input 3)
  if xSize = 0 ∨ ySize = 0 then
    refuse .notSupported
  else
    let keyAlg ← reading (readWord input 0)
    let keySize ← reading (readWord input 1)
    discard <| savePublicParts input 20 (20 + xSize + ySize) [keyAlg, keySize, xSize, ySize, 0]
      20 (xSize + ySize)

def hksOpensslGetDsaPubKey : OutM HksErrorCode PUnit := do
  let xSize ← reading (readWord input 2)
  let ySize ← reading (readWord input 3)
  let pSize ← reading (readWord input 4)
  let qSize ← reading (readWord input 5)
  let gSize ← reading (readWord input 6)
  let keyAlg ← reading (readWord input 0)
  let keySize ← reading (readWord input 1)
  let saved ← savePublicParts input 28 (28 + ySize + pSize + qSize + gSize)
    [keyAlg, keySize, 0, ySize, pSize, qSize, gSize] (28 + xSize.toNat) (ySize + pSize + qSize + gSize)
  if ¬saved then
    refuse .insufficientMemory

def hksOpensslGetDhPubKey : OutM HksErrorCode PUnit := do
  let pubKeySize ← reading (readWord input 2)
  let outLen := 20 + pubKeySize.toNat
  if input.length < outLen then
    refuse .invalidArgument
  else
    let out ← get
    if out.size.toNat < outLen then
      refuse .invalidArgument
    else
      let parts ← reading (readAt input 0 outLen)
      discard <| memcpyInto 0 out.size.toNat parts
      writeWord 3 0
      writeWord 4 0
      setSize outLen.toUInt32

def hksOpensslGetEd25519PubKey : OutM HksErrorCode PUnit := do
  let pubKeySize ← reading (readWord input 2)
  let outLen := 20 + pubKeySize
  let parts ← reading (readAt input 0 outLen.toNat)
  let out ← get
  if ← memcpyInto 0 out.size.toNat parts then
    writeWord 3 0
    setSize outLen
  else
    refuse .insufficientMemory

-- The routine that is registered for the algorithm
def getPubKey (keyAlg : UInt32) : OutM HksErrorCode PUnit :=
  if keyAlg = HksKeyAlg.rsa then
    hksOpensslGetRsaPubKey input
  else if keyAlg = HksKeyAlg.ecc ∨ keyAlg = HksKeyAlg.sm2 then
    hksOpensslGetEccPubKey input
  else if keyAlg = HksKeyAlg.dsa then
    hksOpensslGetDsaPubKey input
  else if keyAlg = HksKeyAlg.dh then
    hksOpensslGetDhPubKey input
  else if keyAlg = HksKeyAlg.ed25519 ∨ keyAlg = HksKeyAlg.x25519 then
    hksOpensslGetEd25519PubKey input
  else
    refuse .invalidArgument

def hksCryptoHalGetPubKey : OutM HksErrorCode PUnit := do
  let out ← get
  if input = [] ∨ out.size = 0 then
    refuse .invalidArgument
  else if input.length < 20 then
    refuse .invalidKeySize
  else
    let keyAlg ← reading (readWord input 0)
    getPubKey input keyAlg

end

-- `HksCoreExportPublicKey`; `rawKey` is what comes of the key node, the identity check and
-- `HksGetRawKey`.
def coreExportPublicKey (rawKey : Except HksErrorCode Bytes) : OutM HksErrorCode PUnit := do
  let out ← get
  if out.size = 0 then
    refuse .invalidArgument
  else
    let rawKey ← reading (checked rawKey)
    hksCryptoHalGetPubKey rawKey

end Huks
