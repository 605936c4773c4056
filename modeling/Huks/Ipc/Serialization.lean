import Huks.Common.ParamBlock
import Huks.Lib.Splice
import Huks.Lib.StateError
import Huks.Storage.AliasList

namespace Huks

def hksAttestCertCount  : UInt32 := 4
def hksAttestCertSize   : Nat := 3072
def defaultAlignMaskSize : UInt32 := 3

-- `ALIGN_SIZE`
def alignSize (size : UInt32) : UInt32 := (size + 3) >>> 2 <<< 2

-- The bytes of a `struct HksBlob`.
abbrev Blob := { bytes : Bytes // bytes.length < 2 ^ 32 }

def Blob.size (blob : Blob) : UInt32 := blob.val.length.toUInt32

-- `struct HksKeyInfo`
structure HksKeyInfo where
  alias'   : Blob
  paramSet : HksParamSet

-- A buffer and how far it is filled.
structure PackBuffer where
  data   : Bytes
  offset : UInt32
  deriving DecidableEq

namespace PackBuffer

def size (b : PackBuffer) : UInt32 := b.data.length.toUInt32

-- `memcpy_s` to the offset; the rest of the buffer is what there is room for.
def memcpyS (b : PackBuffer) (src : Bytes) : Option PackBuffer :=
  (Huks.memcpyS b.data b.offset.toNat (b.size - b.offset) src).map fun data => { b with data }

def advance (b : PackBuffer) (n : UInt32) : PackBuffer := { b with offset := b.offset + n }

-- The size and the bytes behind it. Nothing is copied where `memcpy_s` refuses, and the offset moves
-- all the same.
def putBlob (b : PackBuffer) (blob : Blob) : PackBuffer :=
  let b := ((b.memcpyS (toBytes32 blob.size)).getD b).advance 4
  ((b.memcpyS blob.val).getD b).advance (alignSize blob.size)

end PackBuffer

-- The replies of the service.
section Service

def copyUint32ToBuffer (value : UInt32) (dest : PackBuffer) : Except HksErrorCode PackBuffer :=
  if dest.offset > dest.size then
    .error .bufferTooSmall
  else
    match dest.memcpyS (toBytes32 value) with
    | none      => .error .insufficientMemory
    | some dest => .ok (dest.advance 4)

def copyBlobToBuffer (blob : Blob) (dest : PackBuffer) : Except HksErrorCode PackBuffer :=
  if blob.val = [] then
    .error .invalidArgument
  else if dest.offset > dest.size ∨
      (dest.size - dest.offset).toNat < 4 + (alignSize blob.size).toNat then
    .error .bufferTooSmall
  else
    .ok (dest.putBlob blob)

variable (addressOf : BlobData → UInt64) (padding : Nat → UInt32)

def copyParamSetToBuffer (paramSet : HksParamSet) (dest : PackBuffer) :
    Except HksErrorCode PackBuffer :=
  if dest.offset > dest.size ∨ dest.size - dest.offset < alignSize paramSet.paramSetSize then
    .error .bufferTooSmall
  else
    match dest.memcpyS (paramSet.image addressOf padding) with
    | none      => .error .insufficientMemory
    | some dest => .ok (dest.advance (alignSize paramSet.paramSetSize))

def hksGetKeyInfoListPackFromService (destData : Bytes) (keyInfoList : List HksKeyInfo) :
    Except HksErrorCode PackBuffer := do
  let dest ← copyUint32ToBuffer keyInfoList.length.toUInt32 ⟨destData, 0⟩
  keyInfoList.foldlM (fun dest keyInfo => do
    let dest ← copyBlobToBuffer keyInfo.alias' dest
    copyParamSetToBuffer addressOf padding keyInfo.paramSet dest) dest

-- What `HksIpcServiceGetKeyInfoList` sends.
def keyInfoListReply (keyInfoList : List HksKeyInfo) : Except HksErrorCode Bytes := do
  let size := keyInfoList.foldl (fun size keyInfo =>
    size + (4 + alignSize keyInfo.alias'.size + alignSize keyInfo.paramSet.paramSetSize)) 4
  if ¬mallocOk size.toNat then
    .error .mallocFail
  else
    let dest ← hksGetKeyInfoListPackFromService addressOf padding (.replicate size.toNat 0) keyInfoList
    return dest.data

def hksCopyBlobsAndCntToBlob (srcBlob : List Blob) (destBlob : Bytes) :
    Except HksErrorCode PackBuffer := do
  let dest ← copyUint32ToBuffer srcBlob.length.toUInt32 ⟨destBlob, 0⟩
  srcBlob.foldlM (fun dest blob => copyBlobToBuffer blob dest) dest

-- An empty set has an empty reply.
def hksListAliasesPackFromService (aliasSet : List Blob) : Except HksErrorCode Bytes :=
  if aliasSet = [] then
    .ok []
  else
    let size := aliasSet.foldl (fun size blob => size + (4 + alignSize blob.size)) 4
    if ¬mallocOk size.toNat then
      .error .mallocFail
    else do
      let dest ← hksCopyBlobsAndCntToBlob aliasSet (.replicate size.toNat 0)
      return dest.data

end Service

-- The certificates of an attestation, as the engine packs them.
section Attest

def copyCertToBuffer (blob : Blob) (buf : PackBuffer) : Except HksErrorCode PackBuffer :=
  if (buf.size - buf.offset).toNat < 4 + (alignSize blob.size).toNat then
    .error .bufferTooSmall
  else
    .ok (buf.putBlob blob)

-- `cert` is what `GetCertOrKey` gives.
def formatCertToBuf (cert : Except HksErrorCode Blob) (buf : PackBuffer) :
    Except HksErrorCode PackBuffer :=
  match cert with
  | .error _ => .error .badState
  | .ok cert => copyCertToBuffer cert buf

def formatAttestChain (attestCert devCert : Blob) (caCert rootCert : Except HksErrorCode Blob)
    (certChain : Bytes) : Except HksErrorCode Bytes := do
  let tmp : PackBuffer := ⟨splice certChain 0 (toBytes32 hksAttestCertCount), 4⟩
  let tmp ← copyCertToBuffer attestCert tmp
  let tmp ← copyCertToBuffer devCert tmp
  let tmp ← (formatCertToBuf caCert tmp).orError .badState
  let tmp ← (formatCertToBuf rootCert tmp).orError .badState
  return tmp.data.take tmp.offset.toNat

end Attest

-- The client's reading of a reply. There is no outcome when it reads outside the reply.
abbrev ReplyM := ExceptT HksErrorCode Option

-- A blob that lies in the reply.
structure ReplyBlob where
  offset : UInt32
  size   : UInt32
  deriving DecidableEq

-- An element of the client's list: the room for the alias and the block for the params.
structure KeyInfoSlot where
  aliasSize : UInt32
  paramSet  : ParamBlock

-- `memcpy_s` to the block of a client.
def ParamBlock.memcpyS (block : ParamBlock) (src : Bytes) : Option ParamBlock :=
  if h : src.length ≤ block.size.toNat ∧ block.size ≠ 0 then
    some {
      bytes     := splice block.bytes 0 src
      size      := block.size
      length_eq := by rw [length_splice (by rw [block.length_eq]; omega), block.length_eq] }
  else
    none

section Client

variable (reply : Bytes)

def readReply (offset size : Nat) : ReplyM Bytes :=
  if offset + size ≤ reply.length then return slice reply offset size else (none : Option _)

def getUint32FromBuffer (offset : UInt32) : ReplyM (UInt32 × UInt32) := do
  if offset > reply.length.toUInt32 ∨ reply.length.toUInt32 - offset < 4 then
    throw .bufferTooSmall
  else
    let value ← readReply reply offset.toNat 4
    return (le32 value, offset + 4)

def getBlobFromBuffer (offset : UInt32) : ReplyM (ReplyBlob × UInt32) := do
  if offset > reply.length.toUInt32 ∨ reply.length.toUInt32 - offset < 4 then
    throw .bufferTooSmall
  else
    let size := le32 (← readReply reply offset.toNat 4)
    if isAdditionOverflow size defaultAlignMaskSize then
      throw .invalidArgument
    else if alignSize size > reply.length.toUInt32 - offset - 4 then
      throw .bufferTooSmall
    else
      return (⟨offset + 4, size⟩, offset + 4 + alignSize size)

def getParamSetFromBuffer (offset : UInt32) : ReplyM (ReplyBlob × UInt32) := do
  if offset > reply.length.toUInt32 ∨ (reply.length.toUInt32 - offset).toNat < HksParamSet.headerSize then
    throw .bufferTooSmall
  else
    let paramSetSize := le32 (← readReply reply offset.toNat 4)
    if isAdditionOverflow paramSetSize defaultAlignMaskSize then
      throw .invalidArgument
    else if alignSize paramSetSize > reply.length.toUInt32 - offset then
      throw .bufferTooSmall
    else
      return (⟨offset, paramSetSize⟩, offset + alignSize paramSetSize)

-- `memcpy_s` of a blob in the reply to `destMax` bytes: what was copied, if anything was.
def copyFromReply (destMax : UInt32) (blob : ReplyBlob) : ReplyM (Option Bytes) :=
  if destMax = 0 ∨ destMax < blob.size then
    return none
  else
    return some (← readReply reply blob.offset.toNat blob.size.toNat)

variable (memory : UInt64 → BlobData)

-- The elements that were copied. A failing `memcpy_s` ends the loop with `HKS_SUCCESS`.
def unpackKeyInfoList (slots : List KeyInfoSlot) (count : Nat) (offset : UInt32) :
    ReplyM (List (Bytes × HksParamSet)) :=
  match count, slots with
  | 0, _                      => return []
  | _, []                     => return []
  | count + 1, slot :: slots  => do
    let (blob, offset) ← getBlobFromBuffer reply offset
    match ← copyFromReply reply slot.aliasSize blob with
    | none        => return []
    | some alias' =>
      let (paramSet, offset) ← getParamSetFromBuffer reply offset
      match (← copyFromReply reply slot.paramSet.size paramSet) >>= slot.paramSet.memcpyS with
      | none       => return []
      | some block =>
        match hksFreshParamSet (block.paramSet memory) false with
        | .error e     => throw e
        | .ok paramSet =>
          let keyInfoList ← unpackKeyInfoList slots count offset
          return (alias', paramSet) :: keyInfoList

def hksGetKeyInfoListUnpackFromService (slots : List KeyInfoSlot) :
    ReplyM (UInt32 × List (Bytes × HksParamSet)) := do
  let (countFromBuffer, offset) ← getUint32FromBuffer reply 0
  if countFromBuffer > slots.length.toUInt32 then
    throw .invalidArgument
  else
    let keyInfoList ← unpackKeyInfoList reply memory slots countFromBuffer.toNat offset
    return (countFromBuffer, keyInfoList)

def unpackAliases (count : Nat) (offset : UInt32) : ReplyM (List Bytes) :=
  match count with
  | 0         => return []
  | count + 1 => do
    let (blob, offset) ← getBlobFromBuffer reply offset
    if ¬mallocOk blob.size.toNat then
      throw .mallocFail
    else
      match ← copyFromReply reply blob.size blob with
      | none        => throw .bufferTooSmall
      | some alias' =>
        let aliases ← unpackAliases count offset
        return alias' :: aliases

-- The alias set of the client, if it was set. A `struct HksBlob` has 16 bytes.
def hksListAliasesUnpackFromService : ReplyM (Option (List Bytes)) := do
  if reply.length.toUInt32 = 0 then
    return none
  else
    let (cntFromBuffer, offset) ← getUint32FromBuffer reply 0
    if cntFromBuffer.toNat > hksMaxKeyAliasCount then
      throw .bufferTooSmall
    else if ¬mallocOk (cntFromBuffer.toNat * 16) then
      throw .mallocFail
    else
      return some (← unpackAliases reply cntFromBuffer.toNat offset)

-- `certs` is the room for each certificate.
def unpackCerts (certs : List UInt32) (count : Nat) (offset : UInt32) : ReplyM (List Bytes) :=
  match count, certs with
  | 0, _                      => return []
  | _, []                     => return []
  | count + 1, destMax :: certs => do
    let (blob, offset) ← (getBlobFromBuffer reply offset).adapt fun _ => .ipcMsgFail
    match ← copyFromReply reply destMax blob with
    | none      => throw .insufficientData
    | some cert =>
      let chain ← unpackCerts certs count offset
      return cert :: chain

def hksCertificateChainUnpackFromService (certs : List UInt32) : ReplyM (List Bytes) := do
  if reply.length.toUInt32 < 4 then
    throw .bufferTooSmall
  else
    let certsCount := le32 (← readReply reply 0 4)
    if certsCount > certs.length.toUInt32 then
      throw .insufficientData
    else
      unpackCerts reply certs certsCount.toNat 4

-- The room that `ListAliasesInitBlob` makes for a reply.
def listAliasesOutSize : Nat := 4 + hksMaxKeyAliasCount * hksMaxKeyAliasLen

end Client

end Huks
