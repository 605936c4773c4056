import Huks.Common.Types
import Huks.Lib.OutBuffer
import Mathlib.Data.UInt

namespace Huks.InPlace

open OutBuffer

def base64Table : Bytes :=
  "ABCDEFGHIJKLMNOPQRSTUVWXYZabcdefghijklmnopqrstuvwxyz0123456789+/".toList.map Char.toUInt8

def base64Symbol (n : UInt32) : Except (Stop HksErrorCode) UInt8 := elemAt base64Table (n &&& 0b00111111).toNat

def base64Input (srcData : Bytes) (srcDataSize i : UInt32) : Except (Stop HksErrorCode) UInt32 := do
  if i < srcDataSize then
    return (← elemAt srcData i.toNat).toUInt32
  else
    return 0

-- The loop of `Base64Encode`, for so many groups at most. `outData` is a place in the block.
def base64Groups (srcData : Bytes) (srcDataSize : UInt32) (outData : Nat) :
    Nat → UInt32 → UInt32 → OutM HksErrorCode PUnit
  | 0, _, _     => return
  | n + 1, i, j => do
    if i < srcDataSize then do
      let a ← reading (base64Input srcData srcDataSize i)
      let b ← reading (base64Input srcData srcDataSize (i + 1))
      let c ← reading (base64Input srcData srcDataSize (i + 2))
      let byte := (a <<< 16) + (b <<< 8) + c
      writeAt (outData + j.toNat) [← reading (base64Symbol (byte >>> 18))]
      writeAt (outData + (j + 1).toNat) [← reading (base64Symbol (byte >>> 12))]
      writeAt (outData + (j + 2).toNat) [← reading (base64Symbol (byte >>> 6))]
      writeAt (outData + (j + 3).toNat) [← reading (base64Symbol byte)]
      base64Groups srcData srcDataSize outData n (i + 3) (j + 4)
    else
      return

def base64Encode (srcData : Bytes) (srcDataSize : UInt32) (outData : Nat) (outDataSize : UInt32) :
    OutM HksErrorCode PUnit := do
  base64Groups srcData srcDataSize outData srcDataSize.toNat 0 0
  let padding := srcDataSize % 3
  if padding = 0 then
    return
  else do
    writeAt (outData + (outDataSize - 1).toNat) ['='.toUInt8]
    if padding = 1 then
      writeAt (outData + (outDataSize - 2).toNat) ['='.toUInt8]

def checkAndCalculateSize (inSize extraSize : UInt32) : Except HksErrorCode UInt32 :=
  if inSize > 0xffffffff - 2 then
    .error .invalidArgument
  else if (inSize + 2) / 3 > 0xffffffff / 4 then
    .error .invalidArgument
  else if (inSize + 2) / 3 * 4 > 0xffffffff - extraSize then
    .error .invalidArgument
  else
    .ok ((inSize + 2) / 3 * 4 + extraSize)

def certBegin : Bytes := "-----BEGIN CERTIFICATE-----\n".toList.map Char.toUInt8

def certEnd : Bytes := "\n-----END CERTIFICATE-----".toList.map Char.toUInt8

def beginLen : UInt32 := certBegin.length.toUInt32

def endLen : UInt32 := certEnd.length.toUInt32

-- What `EncodeCertChain` writes to its block of `tmpSize` bytes.
def encodeCert (inData : Bytes) (inSize tmpSize : UInt32) : OutM HksErrorCode PUnit := do
  if ¬(← memcpyInto 0 tmpSize.toNat certBegin) then
    refuse .bufferTooSmall
  else if ¬(← memcpyInto (tmpSize - endLen).toNat endLen.toNat certEnd) then
    refuse .bufferTooSmall
  else
    base64Encode inData inSize beginLen.toNat (tmpSize - beginLen - endLen)

-- The certificate is in a buffer of its own, or at the front of the output buffer.
def encodeCertChain (inData : Option Bytes) (inSize : UInt32) : OutM HksErrorCode PUnit := do
  let tmpSize ← reading (checked (checkAndCalculateSize inSize (beginLen + endLen)))
  if ¬mallocOk tmpSize.toNat then
    refuse .mallocFail
  else do
    let inData := inData.getD (← get).room
    let (_, tmpBlob) ← onBlock (.replicate tmpSize.toNat 0) (encodeCert inData inSize tmpSize)
    if ¬(← memcpyInto 0 (← get).size.toNat tmpBlob) then
      refuse .bufferTooSmall
    else
      setSize tmpSize

end Huks.InPlace
