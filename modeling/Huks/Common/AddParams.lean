import Huks.Common.Param
import Huks.Lib.StateError

namespace Huks.InPlace

open HksParamSet

-- `HksAddParams` on the set of its caller, who keeps the set when the call fails.
def addParam (p : HksParam) : EStateM HksErrorCode HksParamSet Unit := do
  modify fun s => { s with paramSetSize := s.paramSetSize + paramSize.toUInt32 }
  if p.isBytes then
    if isAdditionOverflow (← get).paramSetSize p.blobSize then
      modify fun s => { s with paramSetSize := s.paramSetSize - paramSize.toUInt32 }
      throw .invalidArgument
    modify fun s => { s with paramSetSize := s.paramSetSize + p.blobSize }
  modify fun s => { s with params := s.params ++ [p], area := s.area.drop paramSize }

def hksAddParams (params : List HksParam) : EStateM HksErrorCode HksParamSet Unit := do
  MonadExcept.ofExcept (checkBeforeAddParams (← get) params)
  params.forM addParam

-- One call after the other on a set. Who ignores the error of a call goes on with the set that it left.
def construct (s : HksParamSet) (calls : List (List HksParam)) : HksParamSet :=
  calls.foldl (fun s params => ((hksAddParams params).run s).final) s

-- The calls that return success
def successful (s : HksParamSet) : List (List HksParam) → List (List HksParam)
  | []              => []
  | params :: calls =>
    match (hksAddParams params).run s with
    | .ok _ t    => params :: successful t calls
    | .error _ t => successful t calls

end Huks.InPlace
