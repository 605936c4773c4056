import Huks.Common.Param

namespace Huks

open HksParamSet

-- `size` bytes from a client or a file.
structure ParamBlock where
  bytes     : Bytes
  size      : UInt32
  length_eq : bytes.length = size.toNat

-- An entry of the array; `mem` is what an address leads to.
def readParam (mem : UInt64 → BlobData) (bytes : Bytes) : HksParam where
  tag  := le32 bytes
  word := le64 ((bytes.drop 8).take 8)
  data := mem (le64 ((bytes.drop 16).take 8))

-- The 24 bytes of an entry; four of them are the padding in front of the union.
def HksParam.image (addressOf : BlobData → UInt64) (padding : UInt32) (p : HksParam) : Bytes :=
  toBytes32 p.tag ++ toBytes32 padding ++ toBytes64 p.word ++ toBytes64 (addressOf p.data)

-- The header and the array, pointers included.
def HksParamSet.headImage (addressOf : BlobData → UInt64) (padding : Nat → UInt32)
    (s : HksParamSet) : Bytes :=
  toBytes32 s.paramSetSize ++ (toBytes32 s.params.length.toUInt32 ++
    (s.params.mapIdx fun i p => p.image addressOf (padding i)).flatten)

-- The `paramSetSize` bytes of the block, as `memcpy` takes them.
def HksParamSet.image (addressOf : BlobData → UInt64) (padding : Nat → UInt32) (s : HksParamSet) :
    Bytes :=
  s.headImage addressOf padding ++ s.area.take (s.paramSetSize.toNat - s.base)

namespace ParamBlock

def paramsCnt (block : ParamBlock) : UInt32 := le32 (block.bytes.drop 4)

-- The block as a `struct HksParamSet`.
def paramSet (mem : UInt64 → BlobData) (block : ParamBlock) : HksParamSet where
  paramSetSize := le32 block.bytes
  params       := (List.range block.paramsCnt.toNat).map fun i =>
    readParam mem (block.bytes.drop (headerSize + paramSize * i))
  area         := block.bytes.drop (headerSize + paramSize * block.paramsCnt.toNat)

end ParamBlock

end Huks
