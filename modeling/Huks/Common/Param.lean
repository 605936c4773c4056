import Huks.Common.Tag

namespace Huks

-- What `blob.data` points at: nothing, memory outside the set, or the set's own block.
inductive BlobData
  | null
  | ext (bytes : Bytes)
  | inSet (offset : UInt32)
  deriving DecidableEq, Repr

-- The 16-byte union is kept as its first eight bytes, where every scalar member and `blob.size`
-- overlay, and the pointer `blob.data` behind them.
structure HksParam where
  tag  : UInt32
  word : UInt64
  data : BlobData := .null
  deriving DecidableEq, Repr

-- The `paramSetSize` of the header, the array `params` (its length is `paramsCnt`) and the
-- bytes of the block behind the array.
structure HksParamSet where
  paramSetSize : UInt32
  params       : List HksParam
  area         : Bytes
  deriving DecidableEq, Repr

namespace HksParam

def uint32Param (p : HksParam) : UInt32 := p.word.toUInt32

def int32Param (p : HksParam) : Int32 := p.word.toUInt32.toInt32

def uint64Param (p : HksParam) : UInt64 := p.word

def boolParam (p : HksParam) : Bool := p.word.toUInt8 != 0

def blobSize (p : HksParam) : UInt32 := p.word.toUInt32

def isBytes (p : HksParam) : Bool := getTagType p.tag = .bytes

def setData (p : HksParam) (data : BlobData) : HksParam := { p with data }

-- `CheckBlob(&param->blob) == HKS_SUCCESS`
def checkBlob (p : HksParam) : Bool := p.data ≠ .null ∧ p.blobSize ≠ 0

-- The `blob.size` bytes behind `blob.data`, for a set whose array ends at `base`.
def read (base : Nat) (area : Bytes) (p : HksParam) : Option Bytes :=
  match p.data with
  | .null         => none
  | .ext bytes    => bytes.takeD p.blobSize.toNat 0
  | .inSet offset => (area.drop (offset.toNat - base)).takeD p.blobSize.toNat 0

-- The bytes of a blob that lies outside the set.
def bytes (p : HksParam) : Bytes := (p.read 0 []).getD []

-- Assignments to members of the union: the bytes beside the member stay.
def setUint32 (p : HksParam) (value : UInt32) : HksParam :=
  { p with word := p.word &&& 0xffffffff00000000 ||| value.toUInt64 }

def setBool (p : HksParam) (value : Bool) : HksParam :=
  { p with word := p.word &&& 0xffffffffffffff00 ||| value.toUInt64 }

def ofUInt32 (tag value : UInt32) : HksParam := ⟨tag, value.toUInt64, .null⟩

def ofBool (tag : UInt32) (value : Bool) : HksParam := ⟨tag, value.toUInt64, .null⟩

def ofBytes (tag : UInt32) (bytes : Bytes) : HksParam := ⟨tag, bytes.length.toUInt64, .ext bytes⟩

end HksParam

namespace HksParamSet

def headerSize : Nat := 8
def paramSize  : Nat := 24
def maxSize    : Nat := 4 * 1024 * 1024
def defaultSize     : Nat := 1024
def defaultParamCnt : Nat := 42

-- Where the param array ends.
def base (s : HksParamSet) : Nat := headerSize + paramSize * s.params.length

def blob (s : HksParamSet) (p : HksParam) : Bytes := (p.read s.base s.area).getD []

-- The entries as another set takes them over: their blobs lie outside it.
def entries (s : HksParamSet) : List HksParam :=
  s.params.map fun p => if p.isBytes ∧ p.data ≠ .null then p.setData (.ext (s.blob p)) else p

-- An assignment through the pointer that `HksGetParam` gives for `tag`.
def update (s : HksParamSet) (tag : UInt32) (f : HksParam → HksParam) : HksParamSet :=
  { s with params := go s.params }
where
  go : List HksParam → List HksParam
  | []      => []
  | p :: ps => if p.tag = tag then f p :: ps else p :: go ps

-- `memcpy` to the blob of the entry that `HksGetParam` gives for `tag`.
def writeBlob (s : HksParamSet) (tag : UInt32) (bytes : Bytes) : HksParamSet :=
  match s.params.find? (·.tag = tag) with
  | some ⟨_, _, .inSet offset⟩ =>
    let pos := offset.toNat - s.base
    { s with area := s.area.take pos ++ bytes ++ s.area.drop (pos + bytes.length) }
  | _ => s.update tag fun p => p.setData (.ext bytes)

end HksParamSet

open HksParamSet

def isAdditionOverflow (a b : UInt32) : Bool := 0xffffffff - a < b

-- `memcpy_s` to position `pos` of `area`: it refuses a zero `destMax` and a source that is
-- larger than `destMax`.
def memcpyS (area : Bytes) (pos : Nat) (destMax : UInt32) (src : Bytes) : Option Bytes :=
  if destMax = 0 ∨ src.length > destMax.toNat then
    none
  else
    area.take pos ++ src ++ area.drop (pos + src.length)

def hksCheckParamSetTag (s : HksParamSet) : Except HksErrorCode Unit :=
  go s.params
where
  go : List HksParam → Except HksErrorCode Unit
  | []      => .ok ()
  | p :: ps =>
    if ¬isValidTag p.tag then
      .error .invalidArgument
    else if ps.any (·.tag = p.tag) then
      .error .invalidArgument
    else
      go ps

def checkBeforeAddParams (s : HksParamSet) (params : List HksParam) : Except HksErrorCode Unit :=
  if s.paramSetSize.toNat > maxSize ∨ params.length > defaultParamCnt ∨
      s.params.length > defaultParamCnt - params.length then
    .error .invalidArgument
  else if params.any fun p => p.isBytes ∧ p.data = .null then
    .error .invalidArgument
  else
    .ok ()

def hksCheckParamSet (s : HksParamSet) (size : UInt32) : Except HksErrorCode Unit :=
  if size.toNat < headerSize ∨ size.toNat > maxSize ∨ s.paramSetSize ≠ size ∨
      s.params.length > (size.toNat - headerSize) / paramSize then
    .error .invalidArgument
  else
    .ok ()

def hksInitParamSet : HksParamSet where
  paramSetSize := headerSize.toUInt32
  params := []
  area := .replicate (defaultSize - headerSize) 0

-- One round of the loop of `HksAddParams`: the entry takes the place of 24 bytes of the block.
def addParam (s : HksParamSet) (p : HksParam) : Except HksErrorCode HksParamSet :=
  let size := s.paramSetSize + paramSize.toUInt32
  if p.isBytes then
    if isAdditionOverflow size p.blobSize then
      .error .invalidArgument
    else
      .ok ⟨size + p.blobSize, s.params ++ [p], s.area.drop paramSize⟩
  else
    .ok ⟨size, s.params ++ [p], s.area.drop paramSize⟩

def hksAddParams (s : HksParamSet) (params : List HksParam) : Except HksErrorCode HksParamSet := do
  checkBeforeAddParams s params
  params.foldlM addParam s

-- The loop of `FreshParamSet`: the entries left, the running offset and the bytes behind the
-- array; the result holds the relocated entries.
def freshParams (base : Nat) (size : UInt32) (isCopy : Bool) :
    List HksParam → UInt32 → Bytes → Except HksErrorCode (List HksParam × UInt32 × Bytes)
  | [], offset, area => .ok ([], offset, area)
  | p :: ps, offset, area =>
    if offset > size then
      .error .invalidArgument
    else if p.isBytes then
      if isAdditionOverflow offset p.blobSize then
        .error .invalidArgument
      else do
        let area ← copy p offset area
        let (ps, offset', area) ← freshParams base size isCopy ps (offset + p.blobSize) area
        return (p.setData (.inSet offset) :: ps, offset', area)
    else do
      let (ps, offset', area) ← freshParams base size isCopy ps offset area
      return (p :: ps, offset', area)
where
  copy (p : HksParam) (offset : UInt32) (area : Bytes) : Except HksErrorCode Bytes :=
    if isCopy then
      match p.read base area >>= memcpyS area (offset.toNat - base) (size - offset) with
      | none      => .error .insufficientMemory
      | some area => .ok area
    else
      .ok area

def freshParamSet (s : HksParamSet) (isCopy : Bool) : Except HksErrorCode HksParamSet := do
  let (params, offset, area) ←
    freshParams s.base s.paramSetSize isCopy s.params s.base.toUInt32 s.area
  if s.paramSetSize ≠ offset then
    .error .invalidArgument
  else
    .ok ⟨s.paramSetSize, params, area⟩

def hksFreshParamSet (s : HksParamSet) (isCopy : Bool) : Except HksErrorCode HksParamSet := do
  hksCheckParamSet s s.paramSetSize
  freshParamSet s isCopy

-- A set that outgrew the default block moves, its array first, to a new zeroed block.
def buildParamSet (s : HksParamSet) : Except HksErrorCode HksParamSet :=
  let size := s.paramSetSize.toNat
  if size > defaultSize then
    if s.base > size then
      .error .insufficientMemory
    else
      hksFreshParamSet { s with area := .replicate (size - s.base) 0 } true
  else
    hksFreshParamSet s true

def hksBuildParamSet (s : HksParamSet) : Except HksErrorCode HksParamSet := do
  hksCheckParamSet s s.paramSetSize
  buildParamSet s

def hksGetParam (s : HksParamSet) (tag : UInt32) : Except HksErrorCode HksParam :=
  match hksCheckParamSet s s.paramSetSize with
  | .error _ => .error .invalidArgument
  | .ok _    =>
    match s.params.find? (·.tag = tag) with
    | none   => .error .paramNotExist
    | some p => if getTagType tag = .bytes ∧ ¬p.checkBlob then .error .invalidArgument else .ok p

def getUInt32 (s : HksParamSet) (tag : UInt32) : Except HksErrorCode UInt32 :=
  (hksGetParam s tag).map HksParam.uint32Param

def getBlob (s : HksParamSet) (tag : UInt32) : Except HksErrorCode Bytes :=
  (hksGetParam s tag).map s.blob

-- The same through a pointer that may be `NULL`.
def getParamOf (s : Option HksParamSet) (tag : UInt32) : Except HksErrorCode HksParam :=
  s.elim (.error .invalidArgument) (hksGetParam · tag)

def getUInt32Of (s : Option HksParamSet) (tag : UInt32) : Except HksErrorCode UInt32 :=
  s.elim (.error .invalidArgument) (getUInt32 · tag)

def getBlobOf (s : Option HksParamSet) (tag : UInt32) : Except HksErrorCode Bytes :=
  s.elim (.error .invalidArgument) (getBlob · tag)

def hksCheckParamMatch (baseSet : HksParamSet) (baseParam : HksParam) (set : HksParamSet)
    (param : HksParam) : Except HksErrorCode Unit :=
  if baseParam.tag ≠ param.tag then
    .error .invalidArgument
  else if isMatch then
    .ok ()
  else
    .error .invalidArgument
where
  isMatch : Bool :=
    match getTagType baseParam.tag with
    | .int   => baseParam.int32Param = param.int32Param
    | .uint  => baseParam.uint32Param = param.uint32Param
    | .ulong => baseParam.uint64Param = param.uint64Param
    | .bool  => baseParam.boolParam = param.boolParam
    | .bytes =>
      baseParam.blobSize = param.blobSize ∧ baseParam.data ≠ .null ∧ param.data ≠ .null ∧
        baseSet.blob baseParam = set.blob param
    | _ => false

def hksCheckIsTagAlreadyExist (tags : List UInt32) (targetParamSet : HksParamSet) :
    Except HksErrorCode Unit := do
  hksCheckParamSet targetParamSet targetParamSet.paramSetSize
  if targetParamSet.params.any (·.tag ∈ tags) then
    .error .invalidArgument
  else
    .ok ()

def hksGetParamSet (s : HksParamSet) (size : UInt32) : Except HksErrorCode HksParamSet := do
  hksCheckParamSet s size
  -- The block is copied up to its size, so the bytes behind it stay behind.
  freshParamSet { s with area := s.area.take (s.paramSetSize.toNat - s.base) } false

end Huks
