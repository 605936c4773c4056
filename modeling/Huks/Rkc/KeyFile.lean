import Huks.Common.Types
import Huks.Lib.FixedCodec
import Huks.Lib.StateError

namespace Huks

-- `struct HksTime`
structure HksTime where
  hksYear : UInt16 := 0
  hksMon  : UInt8 := 0
  hksDay  : UInt8 := 0
  hksHour : UInt8 := 0
  hksMin  : UInt8 := 0
  hksSec  : UInt8 := 0
  deriving DecidableEq, Repr

def hksRkcKsfFlagLen    : Nat := 8
def hksRkcMaterialLen   : Nat := 32
def hksRkcSaltLen       : Nat := 32
def hksRkcKsfDataRsvLen : Nat := 8
def hksRkcMkIvLen       : Nat := 16
def hksRkcMkCipherTextLen : Nat := 48
def hksRkcMkLen         : Nat := 32
def hksRkcHashLen       : Nat := 32
def hksKsfBufLen        : Nat := 258

-- The fields of the root key component.
structure HksKsfDataRkc where
  rkCreatedTime : HksTime := {}
  rkExpiredTime : HksTime := {}
  rkMaterial1   : FixedBytes hksRkcMaterialLen := .zero _
  rkMaterial2   : FixedBytes hksRkcMaterialLen := .zero _
  rmkIter       : UInt32 := 0
  rmkSalt       : FixedBytes hksRkcSaltLen := .zero _
  rmkHashAlg    : UInt32 := 0
  rkRsv         : FixedBytes hksRkcKsfDataRsvLen := .zero _
  deriving DecidableEq

-- The fields of the main key.
structure HksKsfDataMk where
  mkCreatedTime : HksTime := {}
  mkExpiredTime : HksTime := {}
  mkEncryptAlg  : UInt32 := 0
  mkIv          : FixedBytes hksRkcMkIvLen := .zero _
  mkCiphertext  : FixedBytes hksRkcMkCipherTextLen := .zero _
  mkRsv         : FixedBytes hksRkcKsfDataRsvLen := .zero _
  deriving DecidableEq

structure HksKsfDataRkcWithVer where
  rkVersion  : UInt16 := 0
  ksfDataRkc : HksKsfDataRkc := {}
  deriving DecidableEq

structure HksKsfDataMkWithVer where
  mkVersion : UInt16 := 0
  ksfDataMk : HksKsfDataMk := {}
  deriving DecidableEq

-- A keystore file of version 1 holds the root key and the main key.
structure HksRkcKsfDataV1 where
  version    : UInt16 := 0
  ksfDataRkc : HksKsfDataRkc := {}
  ksfDataMk  : HksKsfDataMk := {}
  deriving DecidableEq

def hksRkcKsfFlag : Bytes := [0x5F, 0x64, 0x97, 0x8D, 0x19, 0x4F, 0x89, 0xCF]

-- The buffer for a keystore file; behind the bytes filled so far it is zero.
structure KsfBuf where
  size   : Nat
  filled : Bytes

-- A keystore file that was read, and how far it was taken apart.
structure KsfSource where
  bytes  : Bytes
  offset : Nat

abbrev FillM := EStateM HksErrorCode KsfBuf
abbrev ExtractM := EStateM HksErrorCode KsfSource

def fillFieldToBuffer (src : Bytes) : FillM Unit := do
  let ⟨size, filled⟩ ← get
  if src = [] ∨ size = 0 then
    throw .invalidArgument
  else if size < filled.length then
    throw .bufferTooSmall
  else if size - filled.length < src.length then
    throw .bufferTooSmall
  else
    set (KsfBuf.mk size (filled ++ src))

def extractFieldFromBuffer (destSize : Nat) : ExtractM Bytes := do
  let ⟨bytes, offset⟩ ← get
  if bytes = [] ∨ destSize = 0 then
    throw .invalidArgument
  else if bytes.length < offset then
    throw .bufferTooSmall
  else if bytes.length - offset < destSize then
    throw .bufferTooSmall
  else
    set (KsfSource.mk bytes (offset + destSize))
    return (bytes.drop offset).take destSize

section Fields

variable {α : Type}

def fillField (codec : FixedCodec α) (a : α) : FillM Unit := fillFieldToBuffer (codec.encode a)

def extractField (codec : FixedCodec α) : ExtractM α := do
  return codec.decode (← extractFieldFromBuffer codec.size)

end Fields

open FixedCodec

def rkcFillKsfTime (time : HksTime) : FillM Unit := do
  fillField u16 time.hksYear
  fillField u8 time.hksMon
  fillField u8 time.hksDay
  fillField u8 time.hksHour
  fillField u8 time.hksMin
  fillField u8 time.hksSec

def rkcExtractTime : ExtractM HksTime := do
  let hksYear ← extractField u16
  let hksMon ← extractField u8
  let hksDay ← extractField u8
  let hksHour ← extractField u8
  let hksMin ← extractField u8
  let hksSec ← extractField u8
  return ⟨hksYear, hksMon, hksDay, hksHour, hksMin, hksSec⟩

def fillKsfDataRkc (data : HksKsfDataRkc) : FillM Unit := do
  rkcFillKsfTime data.rkCreatedTime
  rkcFillKsfTime data.rkExpiredTime
  fillField (bytes _) data.rkMaterial1
  fillField (bytes _) data.rkMaterial2
  fillField u32 data.rmkIter
  fillField (bytes _) data.rmkSalt
  fillField u32 data.rmkHashAlg
  fillField (bytes _) data.rkRsv

def extractKsfDataRkc : ExtractM HksKsfDataRkc := do
  let rkCreatedTime ← rkcExtractTime
  let rkExpiredTime ← rkcExtractTime
  let rkMaterial1 ← extractField (bytes _)
  let rkMaterial2 ← extractField (bytes _)
  let rmkIter ← extractField u32
  let rmkSalt ← extractField (bytes _)
  let rmkHashAlg ← extractField u32
  let rkRsv ← extractField (bytes _)
  return ⟨rkCreatedTime, rkExpiredTime, rkMaterial1, rkMaterial2, rmkIter, rmkSalt, rmkHashAlg, rkRsv⟩

def fillKsfDataMk (data : HksKsfDataMk) : FillM Unit := do
  rkcFillKsfTime data.mkCreatedTime
  rkcFillKsfTime data.mkExpiredTime
  fillField u32 data.mkEncryptAlg
  fillField (bytes _) data.mkIv
  fillField (bytes _) data.mkCiphertext
  fillField (bytes _) data.mkRsv

def extractKsfDataMk : ExtractM HksKsfDataMk := do
  let mkCreatedTime ← rkcExtractTime
  let mkExpiredTime ← rkcExtractTime
  let mkEncryptAlg ← extractField u32
  let mkIv ← extractField (bytes _)
  let mkCiphertext ← extractField (bytes _)
  let mkRsv ← extractField (bytes _)
  return ⟨mkCreatedTime, mkExpiredTime, mkEncryptAlg, mkIv, mkCiphertext, mkRsv⟩

def fillKsfVerRkc (data : HksKsfDataRkcWithVer) : FillM Unit := do
  fillField u16 data.rkVersion
  fillKsfDataRkc data.ksfDataRkc

def fillKsfVerMk (data : HksKsfDataMkWithVer) : FillM Unit := do
  fillField u16 data.mkVersion
  fillKsfDataMk data.ksfDataMk

def rkcExtractKsfFileFlag : ExtractM Unit := do
  let fileFlag ← extractFieldFromBuffer hksRkcKsfFlagLen
  if fileFlag ≠ hksRkcKsfFlag then throw .readFileFail

section Hash

variable (sha256 : Bytes → FixedBytes hksRkcHashLen)

-- The hash covers everything behind the flag.
def rkcFillKsfHash : FillM Unit := do
  let ⟨size, filled⟩ ← get
  if size < hksRkcKsfFlagLen ∨ filled.length < hksRkcKsfFlagLen ∨
      size - hksRkcKsfFlagLen < filled.length - hksRkcKsfFlagLen then
    throw .invalidKeyFile
  else
    fillFieldToBuffer (sha256 (filled.drop hksRkcKsfFlagLen)).val

def rkcExtractKsfHash : ExtractM Unit := do
  let ⟨bytes, offset⟩ ← get
  if offset < hksRkcKsfFlagLen ∨ bytes.length < hksRkcKsfFlagLen ∨
      bytes.length - hksRkcKsfFlagLen < offset - hksRkcKsfFlagLen then
    throw .invalidKeyFile
  else
    let hashResult := sha256 ((bytes.drop hksRkcKsfFlagLen).take (offset - hksRkcKsfFlagLen))
    let ksfHash ← extractFieldFromBuffer hksRkcHashLen
    if hashResult.val ≠ ksfHash then throw .invalidKeyFile

-- What is in the buffer when `x` has filled it.
def fillKsfBuf (x : FillM Unit) : Except HksErrorCode Bytes :=
  match x.run ⟨hksKsfBufLen, []⟩ with
  | .ok _ ⟨size, filled⟩ => .ok (filled ++ .replicate (size - filled.length) 0)
  | .error e _           => .error e

def extractKsfBuf {α : Type} (x : ExtractM α) (ksfFromFile : Bytes) : Except HksErrorCode α :=
  (x.run ⟨ksfFromFile, 0⟩).toExcept

def fillKsfBufRkc (data : HksKsfDataRkcWithVer) : Except HksErrorCode Bytes := fillKsfBuf do
  fillFieldToBuffer hksRkcKsfFlag
  fillKsfVerRkc data
  rkcFillKsfHash sha256

def fillKsfBufMk (data : HksKsfDataMkWithVer) : Except HksErrorCode Bytes := fillKsfBuf do
  fillFieldToBuffer hksRkcKsfFlag
  fillKsfVerMk data
  rkcFillKsfHash sha256

def extractKsfBufRkc : Bytes → Except HksErrorCode HksKsfDataRkcWithVer := extractKsfBuf do
  rkcExtractKsfFileFlag
  let rkVersion ← extractField u16
  let ksfDataRkc ← extractKsfDataRkc
  rkcExtractKsfHash sha256
  return ⟨rkVersion, ksfDataRkc⟩

def extractKsfBufMk : Bytes → Except HksErrorCode HksKsfDataMkWithVer := extractKsfBuf do
  rkcExtractKsfFileFlag
  let mkVersion ← extractField u16
  let ksfDataMk ← extractKsfDataMk
  rkcExtractKsfHash sha256
  return ⟨mkVersion, ksfDataMk⟩

def rkcExtractKsfBufV1 : Bytes → Except HksErrorCode HksRkcKsfDataV1 := extractKsfBuf do
  rkcExtractKsfFileFlag
  let version ← extractField u16
  let ksfDataRkc ← extractKsfDataRkc
  let ksfDataMk ← extractKsfDataMk
  rkcExtractKsfHash sha256
  return ⟨version, ksfDataRkc, ksfDataMk⟩

end Hash

end Huks
