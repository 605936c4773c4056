import Huks.Lib.Access
import Huks.Lib.StateError
import Huks.Lib.FixedCodec
import Huks.Storage.StorageUtils

-- The key store of the build with `_STORAGE_LITE_`: all keys lie in one image, which is a file and
-- a buffer.
namespace Huks.StorageLite

open FixedCodec

def hksDeriveDefaultSaltLen  : Nat := 16
def hksHmacDigestSha512Len   : Nat := 64
def hksDefaultRandomLen      : Nat := 16
def hksMaxKeyAuthIdLen       : Nat := 64
def hksAeTagLen              : Nat := 16
def hksMaxKeyLen             : Nat := 512 * 3
def hksMaxKeyMaterialLen     : Nat := 20 + hksMaxKeyLen + hksAeTagLen
def maxStorageSize           : UInt32 := 5120
def maxBufSize               : Nat := 65536
def bufSizeAddendPerTime     : UInt32 := 1024
def hksStorageVersion        : UInt16 := 1
def hksStorageReservedSealingAlg : UInt32 := 0xFEDCBA98

structure HksStoreHeaderInfo where
  version    : UInt16
  keyCount   : UInt16
  totalLen   : UInt32
  sealingAlg : UInt32
  salt       : FixedBytes hksDeriveDefaultSaltLen
  hmac       : FixedBytes hksHmacDigestSha512Len
  deriving DecidableEq

structure HksStoreKeyInfo where
  keyInfoLen : UInt16
  keySize    : UInt16
  random     : FixedBytes hksDefaultRandomLen
  flag       : UInt8
  keyAlg     : UInt8
  keyMode    : UInt8
  digest     : UInt8
  padding    : UInt8
  rsv        : UInt8
  keyLen     : UInt16
  purpose    : UInt32
  role       : UInt32
  domain     : UInt16
  aliasSize  : UInt8
  authIdSize : UInt8
  deriving DecidableEq

-- Both structures have no padding.
def HksStoreHeaderInfo.codec : FixedCodec HksStoreHeaderInfo :=
  (u16.pair <| u16.pair <| u32.pair <| u32.pair <| (bytes _).pair (bytes _)).iso
    (fun (version, keyCount, totalLen, sealingAlg, salt, hmac) =>
      ⟨version, keyCount, totalLen, sealingAlg, salt, hmac⟩)
    (fun head => (head.version, head.keyCount, head.totalLen, head.sealingAlg, head.salt, head.hmac))
    fun _ => rfl

def HksStoreKeyInfo.codec : FixedCodec HksStoreKeyInfo :=
  (u16.pair <| u16.pair <| (bytes _).pair <| u8.pair <| u8.pair <| u8.pair <| u8.pair <| u8.pair <|
    u8.pair <| u16.pair <| u32.pair <| u32.pair <| u16.pair <| u8.pair u8).iso
    (fun (keyInfoLen, keySize, random, flag, keyAlg, keyMode, digest, padding, rsv, keyLen, purpose,
        role, domain, aliasSize, authIdSize) =>
      ⟨keyInfoLen, keySize, random, flag, keyAlg, keyMode, digest, padding, rsv, keyLen, purpose,
        role, domain, aliasSize, authIdSize⟩)
    (fun info => (info.keyInfoLen, info.keySize, info.random, info.flag, info.keyAlg, info.keyMode,
      info.digest, info.padding, info.rsv, info.keyLen, info.purpose, info.role, info.domain,
      info.aliasSize, info.authIdSize))
    fun _ => rfl

-- `sizeof(struct HksStoreHeaderInfo)` and `sizeof(struct HksStoreKeyInfo)`
def headerSize : Nat := 92
def keyInfoSize : Nat := 40

-- The part of the header that its HMAC is for.
def macSize : Nat := headerSize - hksHmacDigestSha512Len

def hksIsKeyInfoLenInvalid (keyInfo : HksStoreKeyInfo) : Bool :=
  keyInfo.aliasSize.toNat > hksMaxKeyAliasLen ∨ keyInfo.aliasSize = 0 ∨
    keyInfo.keySize.toNat > hksMaxKeyMaterialLen ∨ keyInfo.keySize = 0 ∨
    keyInfo.authIdSize.toNat > hksMaxKeyAuthIdLen ∨
    keyInfo.keyInfoLen.toNat ≠
      keyInfoSize + keyInfo.aliasSize.toNat + keyInfo.authIdSize.toNat + keyInfo.keySize.toNat

-- `UtilsFileRead` and `UtilsFileWrite` may do less than they are asked for and report no failure.
inductive ReadOutcome
  | done
  | short (read : Nat)
  | fail
  deriving DecidableEq

inductive WriteOutcome
  | done
  | short (left : Nat)
  | fail (left : Nat)
  deriving DecidableEq

-- What the system and the engine answer to the call of a number.
structure LiteEnv where
  malloc         : Nat → Bool
  stat           : Nat → Bool
  openFile       : Nat → Bool
  read           : Nat → ReadOutcome
  write          : Nat → WriteOutcome
  generateRandom : Nat → Except HksErrorCode (FixedBytes hksDeriveDefaultSaltLen)
  calcHeaderMac  : Nat → Option HksErrorCode
  -- The HMAC under the key that is derived from the main key and the salt.
  mac            : FixedBytes hksDeriveDefaultSaltLen → Bytes → FixedBytes hksHmacDigestSha512Len

-- `g_storageImageBuffer` and the file `hks_keystore`.
structure LiteStore where
  image : Option Bytes := none
  file  : Option Bytes := none
  tick  : Nat := 0
  deriving DecidableEq

-- `Stop.outside` is an access outside of the image.
abbrev LiteM := EStateM (Stop HksErrorCode) LiteStore

def refuse {α : Type} (e : HksErrorCode) : LiteM α := throw (.error e)

def nextCall : LiteM Nat := modifyGet fun s => (s.tick, { s with tick := s.tick + 1 })

-- What a function returns, for a caller that cleans up before it passes a failure on.
def returned {α : Type} (x : LiteM α) : LiteM (Except HksErrorCode α) := fun s =>
  match x.run s with
  | .ok a t             => .ok (.ok a) t
  | .error .outside t   => .error .outside t
  | .error (.error e) t => .ok (.error e) t

section Image

def hksGetImageBuffer : LiteM Bytes := do return (← get).image.getD []

def setImage (image : Option Bytes) : LiteM Unit := modify fun s => { s with image }

def readImage (i n : Nat) : LiteM Bytes := do MonadExcept.ofExcept (readAt (← hksGetImageBuffer) i n)

def writeImage (i : Nat) (bytes : Bytes) : LiteM Unit := do
  let image ← hksGetImageBuffer
  if bytes = [] ∨ i + bytes.length ≤ image.length then
    setImage (some (splice image i bytes))
  else
    throw .outside

-- The image as a `struct HksStoreHeaderInfo`.
def getHeader : LiteM HksStoreHeaderInfo := do
  return HksStoreHeaderInfo.codec.decode (← readImage 0 headerSize)

def setHeader (head : HksStoreHeaderInfo) : LiteM Unit := writeImage 0 (HksStoreHeaderInfo.codec.encode head)

def keyInfoAt (offset : UInt32) : LiteM HksStoreKeyInfo := do
  return HksStoreKeyInfo.codec.decode (← readImage offset.toNat keyInfoSize)

def cleanImageBuffer : LiteM Unit :=
  modify fun s => { s with image := s.image.map fun image => .replicate image.length 0 }

def freeImageBuffer : LiteM Unit := setImage none

-- `memcpy_s` and `memmove_s` accept these sizes.
def copyOk (destMax count : UInt32) : Bool := destMax ≠ 0 ∧ destMax ≤ 0x7fffffff ∧ count ≤ destMax

end Image

variable (env : LiteEnv)

section Calls

def hksMalloc (size : Nat) : LiteM Bool := do
  let tick ← nextCall
  return mallocOk size && env.malloc tick

-- Where `GetFullFileName` has its result; the path and the name are constants that fit.
def getFullFileName : LiteM Unit := do
  if ¬(← hksMalloc env hksMaxFileNameLen) then refuse .mallocFail

-- The blob is filled up to where the file is read; `HksMalloc` and `CleanImageBuffer` left zeros.
def hksFileRead (size : Nat) : LiteM Bytes := do
  if size = 0 then refuse .invalidArgument
  getFullFileName env
  let tick ← nextCall
  match (← get).file with
  | none      => refuse .invalidArgument
  | some file =>
    if ¬env.stat tick then refuse .invalidArgument
    if size > file.length then refuse .invalidArgument
    if ¬env.openFile (← nextCall) then refuse .openFileFail
    match env.read (← nextCall) with
    | .done       => return file.take size
    | .short read => return ((file.take size).take read).takeD size 0
    | .fail       => refuse .readFileFail

-- `O_TRUNC_FS`: a file that was opened has lost what it held.
def hksFileWrite (buf : Bytes) : LiteM Unit := do
  if buf = [] then refuse .invalidArgument
  getFullFileName env
  if ¬env.openFile (← nextCall) then refuse .openFileFail
  match env.write (← nextCall) with
  | .done       => modify fun s => { s with file := some buf }
  | .short left => modify fun s => { s with file := some (buf.take left) }
  | .fail left  => do
    modify fun s => { s with file := some (buf.take left) }
    refuse .writeFileFail

-- A size of zero stands for a failure.
def hksFileSize : LiteM Nat := do
  match ← returned (getFullFileName env) with
  | .error _ => return 0
  | .ok _    =>
    let tick ← nextCall
    match (← get).file with
    | none      => return 0
    | some file => return if env.stat tick then file.length else 0

-- The copy of the data, the set with the digest and the call of the engine.
def calcHeaderMac (salt : FixedBytes hksDeriveDefaultSaltLen) (buf : Bytes) :
    LiteM (FixedBytes hksHmacDigestSha512Len) := do
  if buf = [] then refuse .invalidArgument
  if ¬(← hksMalloc env buf.length) then refuse .mallocFail
  match env.calcHeaderMac (← nextCall) with
  | some e => refuse e
  | none   => return env.mac salt buf

end Calls

section Load

def initImageBuffer : LiteM Unit := do
  let head ← getHeader
  setHeader { head with
    version    := hksStorageVersion
    keyCount   := 0
    totalLen   := headerSize.toUInt32
    sealingAlg := hksStorageReservedSealingAlg }
  match env.generateRandom (← nextCall) with
  | .error e => refuse e
  | .ok salt =>
    let head ← getHeader
    setHeader { head with salt }
    let mac ← calcHeaderMac env salt (← readImage 0 macSize)
    let head ← getHeader
    setHeader { head with hmac := mac }

def applyImageBuffer (size : Nat) : LiteM Unit := do
  if (← get).image.isNone then
    if size = 0 ∨ size > maxBufSize then refuse .invalidArgument
    if ¬(← hksMalloc env size) then refuse .mallocFail
    setImage (some (.replicate size 0))

def freshImageBuffer : LiteM Unit := do
  let totalLen := (← getHeader).totalLen
  if totalLen.toNat < headerSize ∨ totalLen > maxStorageSize then refuse .invalidKeyFile
  if totalLen.toNat ≠ headerSize then
    let fileLen ← hksFileSize env
    if fileLen < totalLen.toNat then refuse .invalidKeyFile
    if ¬(← hksMalloc env totalLen.toNat) then refuse .mallocFail
    match ← returned (hksFileRead env totalLen.toNat) with
    | .error _ => refuse .readFileFail
    | .ok buf  => setImage (some buf)

def checkKeyInfoHeaderValid : LiteM Unit := do
  let head ← getHeader
  let mac ← calcHeaderMac env head.salt (← readImage 0 macSize)
  if mac ≠ head.hmac then refuse .invalidKeyFile

def refreshKeyInfoHeaderHmac (head : HksStoreHeaderInfo) : LiteM HksStoreHeaderInfo := do
  if ¬(← hksMalloc env headerSize) then refuse .mallocFail
  let mac ← calcHeaderMac env head.salt ((HksStoreHeaderInfo.codec.encode head).take macSize)
  return { head with hmac := mac }

-- A file that cannot be read counts as one that is not there.
def loadFileToBuffer : LiteM Unit := do
  match ← returned (hksFileRead env (← hksGetImageBuffer).length) with
  | .error _ =>
    match ← returned (initImageBuffer env) with
    | .ok _    => return ⟨⟩
    | .error e =>
      freeImageBuffer
      refuse e
  | .ok bytes =>
    setImage (some bytes)
    let check := do
      checkKeyInfoHeaderValid env
      freshImageBuffer env
    match ← returned check with
    | .ok _    => return ⟨⟩
    | .error e =>
      freeImageBuffer
      refuse e

def hksLoadFileToBuffer : LiteM Unit := do
  if (← get).image.isNone then
    applyImageBuffer env headerSize
    cleanImageBuffer
    loadFileToBuffer env

def cleanStorageKeyInfo : LiteM Unit := do
  match ← returned (initImageBuffer env) with
  | .error e =>
    freeImageBuffer
    refuse e
  | .ok _    =>
    match ← returned (do hksFileWrite env (← readImage 0 headerSize)) with
    | .error e =>
      freeImageBuffer
      refuse e
    | .ok _    => return ⟨⟩

def hksFileBufferRefresh : LiteM Unit := do
  applyImageBuffer env headerSize
  cleanImageBuffer
  cleanStorageKeyInfo env

end Load

section Search

-- `HksMemCmp` is called only for an alias of the same size.
def isKeyAliasAt (offset : UInt32) (keyInfo : HksStoreKeyInfo) (keyAlias : Bytes) : LiteM Bool :=
  if keyInfo.aliasSize.toNat = keyAlias.length then do
    let bytes ← readImage (offset.toNat + keyInfoSize) keyAlias.length
    return bytes = keyAlias
  else
    return false

-- The loop of `GetKeyOffsetByKeyAlias`, with the number of entries left and where the next one is.
def findKeyAlias (keyAlias : Bytes) (totalLen : UInt32) : Nat → UInt32 → LiteM UInt32
  | 0, _          => refuse .notExist
  | i + 1, offset => do
    if totalLen < offset ∨ (totalLen - offset).toNat < keyInfoSize then refuse .invalidKeyFile
    let keyInfo ← keyInfoAt offset
    if hksIsKeyInfoLenInvalid keyInfo ∨ keyInfo.keyInfoLen.toUInt32 > totalLen - offset then
      refuse .invalidKeyFile
    if ← isKeyAliasAt offset keyInfo keyAlias then
      return offset
    else
      findKeyAlias keyAlias totalLen i (offset + keyInfo.keyInfoLen.toUInt32)

def getKeyOffsetByKeyAlias (keyAlias : Bytes) : LiteM UInt32 := do
  let storageBuf ← hksGetImageBuffer
  if storageBuf.length < headerSize then refuse .invalidKeyFile
  let head ← getHeader
  if head.keyCount = 0 then refuse .notExist
  if head.totalLen.toNat > storageBuf.length then refuse .invalidKeyFile
  findKeyAlias keyAlias head.totalLen head.keyCount.toNat headerSize.toUInt32

def hksStoreIsKeyBlobExist (keyAlias : Bytes) : LiteM Unit := discard <| getKeyOffsetByKeyAlias keyAlias

def hksStoreGetKeyBlob (keyAlias : Bytes) : LiteM Bytes := do
  let offset ← getKeyOffsetByKeyAlias keyAlias
  let keyInfoLen := (← keyInfoAt offset).keyInfoLen.toNat
  if ¬(← hksMalloc env keyInfoLen) then refuse .mallocFail
  readImage offset.toNat keyInfoLen

def hksStoreGetKeyBlobSize (keyAlias : Bytes) : LiteM UInt32 := do
  let offset ← getKeyOffsetByKeyAlias keyAlias
  return (← keyInfoAt offset).keyInfoLen.toUInt32

def hksGetKeyCountByProcessName : LiteM UInt32 := do
  if (← hksGetImageBuffer).length < headerSize then refuse .invalidKeyFile
  return (← getHeader).keyCount.toUInt32

def hksStoreGetToatalSize : LiteM UInt32 := do
  if (← hksGetImageBuffer).length < headerSize then refuse .invalidKeyFile
  return (← getHeader).totalLen

end Search

section Store

def adjustImageBuffer (totalLenAdded : UInt32) (keyBlob : Bytes) : LiteM Unit := do
  let image ← hksGetImageBuffer
  let head ← getHeader
  let size := keyBlob.length.toUInt32
  let newBufLen := image.length.toUInt32 + (if size > bufSizeAddendPerTime then size else bufSizeAddendPerTime)
  if ¬(← hksMalloc env newBufLen.toNat) then refuse .mallocFail
  if ¬copyOk newBufLen head.totalLen then refuse .insufficientMemory
  let old ← readImage 0 head.totalLen.toNat
  if ¬copyOk (newBufLen - head.totalLen) size then refuse .insufficientMemory
  let buf := splice (splice (.replicate newBufLen.toNat 0) 0 old) head.totalLen.toNat keyBlob
  setImage (some buf)
  let newHead ← getHeader
  setHeader { newHead with totalLen := totalLenAdded, keyCount := newHead.keyCount + 1 }

-- `IsAdditionOverflow`, and what is too much for the file.
def getLenAfterAddKey (keyBlob : Bytes) (totalLen : UInt32) : Except HksErrorCode UInt32 :=
  if isAdditionOverflow totalLen keyBlob.length.toUInt32 then
    .error .insufficientMemory
  else if totalLen + keyBlob.length.toUInt32 > maxStorageSize then
    .error .storageFailure
  else
    .ok (totalLen + keyBlob.length.toUInt32)

def appendNewKey (keyBlob : Bytes) : LiteM Unit := do
  let storageBuf ← hksGetImageBuffer
  if storageBuf.length < headerSize then refuse .invalidKeyFile
  let head ← getHeader
  let totalLenAdded ← MonadExcept.ofExcept (checked (getLenAfterAddKey keyBlob head.totalLen))
  if storageBuf.length.toUInt32 ≥ totalLenAdded then
    if ¬copyOk (storageBuf.length.toUInt32 - head.totalLen) keyBlob.length.toUInt32 then
      refuse .insufficientMemory
    writeImage head.totalLen.toNat keyBlob
    let head ← getHeader
    setHeader { head with totalLen := totalLenAdded, keyCount := head.keyCount + 1 }
  else
    adjustImageBuffer env totalLenAdded keyBlob

def deleteKey (keyOffset : UInt32) : LiteM Unit := do
  let head ← getHeader
  let keyInfoLen := (← keyInfoAt keyOffset).keyInfoLen.toUInt32
  let nextKeyOffset := keyOffset + keyInfoLen
  if nextKeyOffset > head.totalLen then refuse .invalidKeyFile
  writeImage keyOffset.toNat (.replicate keyInfoLen.toNat 0)
  if nextKeyOffset < head.totalLen then
    if ¬copyOk (head.totalLen - keyOffset) (head.totalLen - nextKeyOffset) then refuse .insufficientMemory
    writeImage keyOffset.toNat (← readImage nextKeyOffset.toNat (head.totalLen - nextKeyOffset).toNat)
    writeImage (head.totalLen - keyInfoLen).toNat (.replicate keyInfoLen.toNat 0)
  let head ← getHeader
  setHeader { head with keyCount := head.keyCount - 1, totalLen := head.totalLen - keyInfoLen }

-- What is left of the image when the key at `offset` is replaced.
def getLenBeforeAddKey (needDeleteKey : Bool) (offset : UInt32) (head : HksStoreHeaderInfo) : LiteM UInt32 :=
  if needDeleteKey then do
    return head.totalLen - (← keyInfoAt offset).keyInfoLen.toUInt32
  else
    return head.totalLen

def storeKeyBlob (needDeleteKey : Bool) (offset : UInt32) (keyBlob : Bytes) : LiteM Unit := do
  let head ← getHeader
  let totalLen ← getLenBeforeAddKey needDeleteKey offset head
  let totalLen ← MonadExcept.ofExcept (checked (getLenAfterAddKey keyBlob totalLen))
  let keyCount := if needDeleteKey then head.keyCount else head.keyCount + 1
  let newHead ← refreshKeyInfoHeaderHmac env { head with keyCount, totalLen }
  if needDeleteKey then deleteKey offset
  appendNewKey env keyBlob
  setHeader newHead

def hksStoreKeyBlob (keyAlias keyBlob : Bytes) : LiteM Unit := do
  match ← returned (getKeyOffsetByKeyAlias keyAlias) with
  | .ok offset       => storeKeyBlob env true offset keyBlob
  | .error .notExist => storeKeyBlob env false 0 keyBlob
  | .error e         => refuse e
  let totalLen ← hksStoreGetToatalSize
  hksFileWrite env (← readImage 0 totalLen.toNat)

def hksStoreDeleteKeyBlob (keyAlias : Bytes) : LiteM Unit := do
  let offset ← getKeyOffsetByKeyAlias keyAlias
  let head ← getHeader
  let keyInfoLen := (← keyInfoAt offset).keyInfoLen.toUInt32
  let newHead ← refreshKeyInfoHeaderHmac env
    { head with totalLen := head.totalLen - keyInfoLen, keyCount := head.keyCount - 1 }
  deleteKey offset
  setHeader newHead
  hksFileWrite env (← readImage 0 newHead.totalLen.toNat)

end Store

end Huks.StorageLite
