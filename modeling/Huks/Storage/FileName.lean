import Huks.Lib.OutBuffer
import Huks.Storage.StorageUtils

namespace Huks.InPlace

open OutBuffer

-- `ConstructName` and `ConstructBlob` in the buffers of their callers, with `HKS_SUPPORT_POSIX`.

def constructInvalidCharacter (input : UInt8) : UInt8 :=
  (Huks.constructInvalidCharacter (Char.ofUInt8 input)).toUInt8

def resumeInvalidCharacter (input : UInt8) : UInt8 :=
  (Huks.resumeInvalidCharacter (Char.ofUInt8 input)).toUInt8

-- One round of the loop: what it writes of a byte, and where the next one goes.
def constructNextCharacter (b : UInt8) (count : UInt32) : OutM HksErrorCode UInt32 := do
  let count : UInt32 ←
    if b < '0'.toUInt8 ∨ b > '~'.toUInt8 then do
      writeAt count.toNat ['+'.toUInt8 + (b >>> hksEncodeOffsetLen)]
      writeAt (count + 1).toNat ['0'.toUInt8 + (b &&& hksEncodeKeySaltValue)]
      pure (count + 2)
    else do
      writeAt count.toNat [b]
      pure (count + 1)
  let last ← reading (elemAt (← get).room (count - 1).toNat)
  writeAt (count - 1).toNat [constructInvalidCharacter last]
  return count

def constructCharacters (nameLen : UInt32) : Bytes → UInt32 → OutM HksErrorCode PUnit
  | [], _            => return
  | b :: blob, count => do
    if count ≥ nameLen - 1 then
      refuse .insufficientData
    else do
      let count ← constructNextCharacter b count
      constructCharacters nameLen blob count

def constructName (blob : Bytes) (nameLen : UInt32) : OutM HksErrorCode PUnit := do
  if nameLen ≤ 1 then
    refuse .invalidArgument
  else
    constructCharacters nameLen blob 0

-- The loop of `ConstructBlob`, with so many characters of `src` left.
def resumeCharacters (src : Bytes) : Nat → UInt32 → OutM HksErrorCode UInt32
  | 0, count     => return count
  | n + 1, count => do
    let c ← reading (elemAt src (src.length - (n + 1)))
    if '+'.toUInt8 ≤ c ∧ c ≤ '.'.toUInt8 then
      match n with
      | 0     => refuse .invalidKeyFile
      | n + 1 => do
        let d ← reading (elemAt src (src.length - (n + 1)))
        let high := (c - '+'.toUInt8) <<< hksEncodeOffsetLen
        writeAt count.toNat [high + (resumeInvalidCharacter d - '0'.toUInt8)]
        resumeCharacters src n (count + 1)
    else do
      writeAt count.toNat [resumeInvalidCharacter c]
      resumeCharacters src n (count + 1)

-- `src` is the string in front of its terminator.
def constructBlob (src : Bytes) : OutM HksErrorCode PUnit := do
  if ¬mallocOk src.length then
    refuse .mallocFail
  else do
    let (count, outputBlob) ← onBlock (.replicate src.length 0) (resumeCharacters src src.length 0)
    if (← get).size < count then
      refuse .bufferTooSmall
    else do
      let bytes ← reading (readAt outputBlob 0 count.toNat)
      discard <| memcpyInto 0 (← get).size.toNat bytes
      setSize count

end Huks.InPlace
