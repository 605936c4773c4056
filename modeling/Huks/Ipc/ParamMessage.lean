import Huks.Common.ParamBlock
import Mathlib.Data.List.TakeDrop

namespace Huks

-- The params of a message that is a param set itself; the tags of the `NULL` buffers follow those of
-- the buffers at a distance.
namespace HksTag

def param0Buffer : UInt32 := 0x50007531
def param1Buffer : UInt32 := 0x50007532
def param2Buffer : UInt32 := 0x50007533
def param1UInt32 : UInt32 := 0x20007537
def param0Null   : UInt32 := 0x50007540

end HksTag

def hksParamBufferNullInterval : UInt32 := HksTag.param0Null - HksTag.param0Buffer

-- A buffer without bytes goes as the one byte `tmpData`, under the tag of a `NULL` buffer.
def HksParam.markNull (p : HksParam) : HksParam :=
  if p.isBytes ∧ (p.blobSize = 0 ∨ p.data = .null) then
    .ofBytes (p.tag + hksParamBufferNullInterval) [0]
  else
    p

def hksParamsToParamSet (params : List HksParam) : Except HksErrorCode HksParamSet := do
  let newParamSet ← hksAddParams hksInitParamSet (params.map HksParam.markNull)
  hksBuildParamSet newParamSet

-- What an element of `outParams` was set to
inductive HksParamOut
  | int32Param (value : Int32)
  | uint32Param (value : UInt32)
  | uint64Param (value : UInt64)
  | boolParam (value : Bool)
  | blob (bytes : Bytes)
  deriving DecidableEq

section Receive

variable (paramSet : HksParamSet)

def getNullBlobParam (tag : UInt32) : Except HksErrorCode HksParamOut := do
  if getTagType tag ≠ .bytes then
    throw .paramNotExist
  else
    let _ ← hksGetParam paramSet (tag + hksParamBufferNullInterval)
    return .blob []

def getNormalParam (param : HksParam) (tag : UInt32) : Except HksErrorCode HksParamOut :=
  match getTagType tag with
  | .int     => .ok (.int32Param param.int32Param)
  | .uint    => .ok (.uint32Param param.uint32Param)
  | .ulong   => .ok (.uint64Param param.uint64Param)
  | .bool    => .ok (.boolParam param.boolParam)
  | .bytes   => .ok (.blob (paramSet.blob param))
  | .invalid => .error .invalidArgument

-- A round of the loop of `HksParamSetToParams`
def paramSetToParam (tag : UInt32) : Except HksErrorCode HksParamOut :=
  match hksGetParam paramSet tag with
  | .ok param => getNormalParam paramSet param tag
  | .error _  => getNullBlobParam paramSet tag

def hksParamSetToParams (outTags : List UInt32) : Except HksErrorCode (List HksParamOut) :=
  outTags.mapM (paramSetToParam paramSet)

end Receive

-- The bytes of a buffer as a block
def ParamBlock.ofBuffer (bytes : Bytes) : ParamBlock where
  bytes     := bytes.takeD bytes.length.toUInt32.toNat 0
  size      := bytes.length.toUInt32
  length_eq := List.takeD_length ..

-- `HksGetParamSet` of a buffer, which is `NULL` where there are no bytes
def getParamSetOf (memory : UInt64 → BlobData) (bytes : Bytes) : Except HksErrorCode HksParamSet :=
  if bytes = [] then
    .error .nullPointer
  else
    hksGetParamSet ((ParamBlock.ofBuffer bytes).paramSet memory) (ParamBlock.ofBuffer bytes).size

end Huks
