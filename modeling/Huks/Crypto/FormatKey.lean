import Huks.Common.Param
import Huks.Common.SizeT
import Huks.Crypto.PublicKey
import Huks.Engine.CryptoAdapter

namespace Huks.InPlace

open OutBuffer

-- A size that is the sum of others, in 32 bits
def sumSize (keyIn : Bytes) (headerSize : UInt32) (words : List Nat) : Except (Stop HksErrorCode) UInt32 := do
  let sizes ← words.mapM (readWord keyIn)
  return sizes.foldl (· + ·) headerSize

-- `outSize` is the size of the set of the caller, which is laid out as with 64 bits.
def buildParamSetOut (params : List HksParam) (outSize : UInt32) : Except (Stop HksErrorCode) HksParamSet := do
  let tmp ← checked (Huks.hksAddParams hksInitParamSet params)
  let tmp ← checked (Huks.hksBuildParamSet tmp)
  if outSize = 0 ∨ outSize.toNat > secureMemMaxLen ∨ tmp.paramSetSize > outSize then
    throw (.error .insufficientMemory)
  else
    checked (Huks.hksFreshParamSet tmp false)

def formatKeyInner (publicKey keyIn : Bytes) (outSize : UInt32) : Except (Stop HksErrorCode) HksParamSet :=
  buildParamSetOut [.ofBytes HksTag.asymmetricPublicKeyData publicKey,
    .ofBytes HksTag.asymmetricPrivateKeyData keyIn] outSize

-- The public key that the helpers for RSA, ECC and DH copy: the sizes in `words` are added, and the one
-- in `cleared` becomes 0.
def copyPublicKey (words : List Nat) (cleared : Nat) (keyIn : Bytes) : Except (Stop HksErrorCode) Bytes := do
  if keyIn.length < 20 then
    throw (.error .invalidArgument)
  else do
    let publicKeySize ← sumSize keyIn 20 words
    if keyIn.length < publicKeySize.toNat then
      throw (.error .invalidKeyInfo)
    else if ¬mallocOk publicKeySize.toNat then
      throw (.error .mallocFail)
    else
      inBlock (.replicate publicKeySize.toNat 0) do
        discard <| memcpyFrom 0 publicKeySize.toNat keyIn 0 publicKeySize.toNat
        writeWord cleared 0

def formatRsaKey (keyIn : Bytes) (outSize : UInt32) : Except (Stop HksErrorCode) HksParamSet := do
  formatKeyInner (← copyPublicKey [2, 3] 4 keyIn) keyIn outSize

def formatEccKey (keyIn : Bytes) (outSize : UInt32) : Except (Stop HksErrorCode) HksParamSet := do
  formatKeyInner (← copyPublicKey [2, 3] 4 keyIn) keyIn outSize

def formatDhKey (keyIn : Bytes) (outSize : UInt32) : Except (Stop HksErrorCode) HksParamSet := do
  formatKeyInner (← copyPublicKey [2] 3 keyIn) keyIn outSize

-- The private part lies in front of the others and is left out.
def copyDsaPublicKey (keyIn : Bytes) : Except (Stop HksErrorCode) Bytes := do
  if keyIn.length < 28 then
    throw (.error .invalidArgument)
  else do
    let publicKeySize ← sumSize keyIn 28 [3, 4, 5, 6]
    if keyIn.length < publicKeySize.toNat then
      throw (.error .invalidKeyInfo)
    else if ¬mallocOk publicKeySize.toNat then
      throw (.error .mallocFail)
    else do
      let xSize ← readWord keyIn 2
      inBlock (.replicate publicKeySize.toNat 0) do
        discard <| memcpyFrom 0 publicKeySize.toNat keyIn 0 28
        let outOffset := 28 + xSize
        discard <| memcpyFrom 28 (publicKeySize - 28).toNat keyIn outOffset.toNat (publicKeySize - 28).toNat
        writeWord 2 0

def formatDsaKey (keyIn : Bytes) (outSize : UInt32) : Except (Stop HksErrorCode) HksParamSet := do
  formatKeyInner (← copyDsaPublicKey keyIn) keyIn outSize

section Curve25519

variable (word : SizeT)

def hksCurve25519KeySize256 : UInt32 := 256

def setCurve25519KeyMaterial (isPubKey : Bool) (keyIn : Bytes) : Except (Stop HksErrorCode) Bytes := do
  let pubKeySize := if isPubKey then keyIn.size else 0
  let priKeySize := if isPubKey then 0 else keyIn.size
  let size := 20 + pubKeySize + priKeySize
  if ¬mallocOk size.toNat then
    throw (.error .mallocFail)
  else
    inBlock (.replicate size.toNat 0) do
      discard <| memcpyInto 0 size.toNat
        ([HksKeyAlg.ed25519, hksCurve25519KeySize256, pubKeySize, priKeySize, 0].flatMap toBytes32)
      discard <| memcpyInto 20 (size - 20).toNat keyIn

-- The sum has the type of `sizeof`.
def checkCurve25519KeySize (keyIn : Bytes) : Except (Stop HksErrorCode) Unit := do
  if keyIn.length < 20 then
    throw (.error .invalidArgument)
  else do
    let pubKeySize ← readWord keyIn 2
    let priKeySize ← readWord keyIn 3
    if keyIn.length < word.add (word.add 20 pubKeySize.toNat) priKeySize.toNat then
      throw (.error .invalidArgument)

def curve25519MaxKeySize : UInt32 := 2048

def checkFormatCurve25519Key (keyIn : Bytes) (outSize : UInt32) : Except (Stop HksErrorCode) Unit := do
  checkCurve25519KeySize word keyIn
  let pubKeySize ← readWord keyIn 2
  let priKeySize ← readWord keyIn 3
  let offset : UInt32 := 8 + 2 * word.sizeOfHksParam
  if pubKeySize > curve25519MaxKeySize ∨ priKeySize > curve25519MaxKeySize then
    throw (.error .invalidArgument)
  else if outSize < offset + pubKeySize + priKeySize then
    throw (.error .bufferTooSmall)

def formatCurve25519Key (keyIn : Bytes) (outSize : UInt32) : Except (Stop HksErrorCode) HksParamSet := do
  checkFormatCurve25519Key word keyIn outSize
  let pubKeySize ← readWord keyIn 2
  let priKeySize ← readWord keyIn 3
  let publicKey ← readAt keyIn 20 pubKeySize.toNat
  let privateKey ← readAt keyIn (20 + pubKeySize.toNat) priKeySize.toNat
  buildParamSetOut [.ofBytes HksTag.asymmetricPublicKeyData publicKey,
    .ofBytes HksTag.asymmetricPrivateKeyData privateKey] outSize

def getCurve25519FromKeyMaterial (isPubKey : Bool) (keyMaterial : Bytes) : Except (Stop HksErrorCode) Bytes := do
  checkCurve25519KeySize word keyMaterial
  let pubKeySize ← readWord keyMaterial 2
  let priKeySize ← readWord keyMaterial 3
  let size := if isPubKey then pubKeySize else priKeySize
  if size = 0 then
    throw (.error .invalidKeyInfo)
  else if ¬mallocOk size.toNat then
    throw (.error .mallocFail)
  else do
    let place := if isPubKey then 20 else 20 + pubKeySize.toNat
    inBlock (.replicate size.toNat 0) (discard <| memcpyFrom 0 size.toNat keyMaterial place size.toNat)

end Curve25519

-- A blob inside the key: where it begins and how long it is
structure KeyPart where
  offset : UInt32
  size   : UInt32
  deriving DecidableEq, Repr

-- `y`, `p`, `q` and `g`
def getDsaPubKeyParam (publicKey : Bytes) : Except (Stop HksErrorCode) (List KeyPart) := do
  if publicKey.length < 28 then
    throw (.error .invalidArgument)
  else do
    let keyMaterialSize ← sumSize publicKey 28 [2, 3, 4, 5, 6]
    if publicKey.length < keyMaterialSize.toNat then
      throw (.error .invalidArgument)
    else do
      let offset := 28 + (← readWord publicKey 2)
      let y : KeyPart := ⟨offset, ← readWord publicKey 3⟩
      let p : KeyPart := ⟨y.offset + y.size, ← readWord publicKey 4⟩
      let q : KeyPart := ⟨p.offset + p.size, ← readWord publicKey 5⟩
      let g : KeyPart := ⟨q.offset + q.size, ← readWord publicKey 6⟩
      return [y, p, q, g]

end Huks.InPlace
