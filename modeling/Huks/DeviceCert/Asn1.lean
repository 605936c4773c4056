import Huks.Common.Types
import Huks.Lib.ByteMemory
import Huks.Lib.StateError

namespace Huks

namespace Asn1Tag
def int    : UInt32 := 0x02
def bitStr : UInt32 := 0x03
def octStr : UInt32 := 0x04
def raw    : UInt32 := 0xff000001
end Asn1Tag

def asn1MaxValNoExtraLenByte : UInt8 := 0x7F
def asn1MinVal1ExtraLenByte  : UInt32 := 0x80
def asn1MinVal2ExtraLenByte  : UInt32 := 0x100
def asn1TagType1ByteLen      : UInt8 := 0x81
def asn1TagType2ByteLen      : UInt8 := 0x82
def asn1MaxHeaderLen         : UInt32 := 0x5
def asn1MinHeaderLen         : UInt32 := 0x3
def asn1MaxSize              : UInt32 := 0x10000 - 0x100

-- `struct HksBlob`: how many bytes there are, and where. No byte is at 0, which is `NULL`.
structure HksBlob where
  size : UInt32
  data : Nat
  deriving DecidableEq, Repr

structure HksAsn1Blob where
  type : UInt32
  size : UInt32
  data : Nat
  deriving DecidableEq, Repr

structure HksAsn1Obj where
  header : HksAsn1Blob
  value  : HksAsn1Blob
  deriving DecidableEq, Repr

def HksBlob.check (blob : HksBlob) : Bool := blob.data ≠ 0 ∧ blob.size ≠ 0

def HksAsn1Blob.check (blob : HksAsn1Blob) : Bool := blob.data ≠ 0 ∧ blob.size ≠ 0

abbrev AsnM := EStateM HksErrorCode ByteMemory

-- Bytes that do not fit in the destination or overlap it are not copied; the destination is cleared.
def ByteMemory.memcpyS (dest : Nat) (destMax : UInt32) (src : Nat) (count : UInt32) : AsnM Unit := do
  let overlap := dest ≠ src ∧ dest < src + count.toNat ∧ src < dest + count.toNat
  if destMax < count ∨ overlap then
    modify (·.write dest (.replicate destMax.toNat 0))
    throw .bufferTooSmall
  else
    modify (·.move dest src count.toNat)

def ByteMemory.memmoveS (dest : Nat) (destMax : UInt32) (src : Nat) (count : UInt32) : AsnM Unit := do
  if destMax < count then
    modify (·.write dest (.replicate destMax.toNat 0))
    throw .bufferTooSmall
  else
    modify (·.move dest src count.toNat)

-- The header is built in a buffer of its own.
def buildTlvHeader (mem : ByteMemory) (tlv : HksAsn1Blob) : Bytes :=
  let padded := tlv.type = Asn1Tag.bitStr ∨
    (tlv.type = Asn1Tag.int ∧ mem tlv.data > asn1MaxValNoExtraLenByte)
  let pad : Bytes := if padded then [0] else []
  let len := if padded then tlv.size + 1 else tlv.size
  if len < asn1MinVal1ExtraLenByte then
    tlv.type.toUInt8 :: len.toUInt8 :: pad
  else if len < asn1MinVal2ExtraLenByte then
    tlv.type.toUInt8 :: asn1TagType1ByteLen :: len.toUInt8 :: pad
  else
    tlv.type.toUInt8 :: asn1TagType2ByteLen :: (len >>> 8).toUInt8 :: len.toUInt8 :: pad

-- The loop of `Asn1InsertValue` that passes over leading zeros.
def asn1SkipZeros (mem : ByteMemory) (value : HksAsn1Blob) : HksAsn1Blob :=
  go value.size.toNat value
where
  go : Nat → HksAsn1Blob → HksAsn1Blob
  | 0, value     => value
  | n + 1, value =>
    if value.size > 1 ∧ mem value.data = 0 then
      go n { value with data := value.data + 1, size := value.size - 1 }
    else
      value

-- What `Asn1InsertValue` copies of a value.
def asn1Stripped (mem : ByteMemory) (tlv : HksAsn1Blob) : HksAsn1Blob :=
  if tlv.type ≠ Asn1Tag.octStr ∧ tlv.type ≠ Asn1Tag.bitStr then asn1SkipZeros mem tlv else tlv

-- Returns the buffer behind the bytes written, and what goes into `obj` unless that is `NULL`.
def asn1InsertValue (buf : HksBlob) (obj : Bool) (tlv : HksAsn1Blob) :
    AsnM (HksBlob × Option HksAsn1Obj) := do
  let mem ← get
  let value := asn1Stripped mem tlv
  let header := buildTlvHeader mem value
  let headerSize := header.length.toUInt32
  let outSize := headerSize + value.size
  if buf.size < outSize then throw .bufferTooSmall
  ByteMemory.memmoveS (buf.data + headerSize.toNat) (buf.size - headerSize) value.data value.size
  modify (·.write buf.data header)
  let buf := HksBlob.mk (buf.size - outSize) (buf.data + outSize.toNat)
  let written : HksAsn1Obj := {
    header := ⟨tlv.type, headerSize, buf.data⟩
    value  := ⟨tlv.type, value.size, buf.data + headerSize.toNat⟩
  }
  return (buf, if obj then some written else none)

def dcmAsn1InsertValue (buf : HksBlob) (obj : Bool) (tlv : HksAsn1Blob) :
    AsnM (HksBlob × Option HksAsn1Obj) := do
  if ¬buf.check ∨ ¬tlv.check ∨ tlv.size > asn1MaxSize then
    throw .invalidArgument
  else if tlv.type = Asn1Tag.raw then
    ByteMemory.memcpyS buf.data buf.size tlv.data tlv.size
    return (⟨buf.size - tlv.size, buf.data + tlv.size.toNat⟩, none)
  else
    asn1InsertValue buf obj tlv

-- Leaves `final` with the size of what was written.
def dcmAsn1WriteFinal (final : HksBlob) (tlv : HksAsn1Blob) : AsnM HksBlob := do
  if ¬final.check then throw .invalidArgument
  let (tmp, _) ← dcmAsn1InsertValue final false tlv
  return { final with size := final.size - tmp.size }

-- The length that a header holds, and the size of the header.
def asn1DecodeLength (mem : ByteMemory) (data : HksBlob) : Except HksErrorCode (UInt32 × UInt32) :=
  let buf := data.data + 1
  if (mem buf).toUInt32 < asn1MinVal1ExtraLenByte then
    .ok ((mem buf).toUInt32, 2)
  else if mem buf = asn1TagType1ByteLen then
    .ok ((mem (buf + 1)).toUInt32, 3)
  else if mem buf = asn1TagType2ByteLen then
    if data.size < asn1MinHeaderLen + 1 then
      .error .insufficientData
    else
      .ok ((mem (buf + 1)).toUInt32 <<< 8 ||| (mem (buf + 2)).toUInt32, 4)
  else
    .error .invalidArgument

-- Returns what is behind the object, and the object.
def asn1GetObj (mem : ByteMemory) (data : HksBlob) : Except HksErrorCode (HksBlob × HksAsn1Obj) := do
  if data.data = 0 then throw .invalidArgument
  let type := (mem data.data).toUInt32
  let (length, headerSize) ← asn1DecodeLength mem data
  if length > data.size - headerSize then throw .insufficientData
  let obj : HksAsn1Obj := {
    header := ⟨type, headerSize, data.data⟩
    value  := ⟨type, length, data.data + headerSize.toNat⟩
  }
  return (⟨data.size - headerSize - length, data.data + headerSize.toNat + length.toNat⟩, obj)

def dcmAsn1ExtractTag (mem : ByteMemory) (data : HksBlob) (expectedTag : UInt32) :
    Except HksErrorCode (HksBlob × HksAsn1Obj) := do
  if data.size < asn1MinHeaderLen then throw .invalidArgument
  let (next, obj) ← asn1GetObj mem data
  if obj.header.type ≠ expectedTag then throw .invalidArgument
  return (next, obj)

end Huks
