import Huks.Common.AddParams

namespace Huks.InPlace

open HksParamSet

-- One round of the loop of `FreshParamSet` that does not copy, at the entry `i` of the set of the caller.
def freshParam (size offset : UInt32) (i : Nat) : EStateM HksErrorCode HksParamSet UInt32 := do
  if offset > size then
    throw .invalidArgument
  else
    match (← get).params[i]? with
    | none   => return offset
    | some p =>
      if ¬p.isBytes then
        return offset
      else if isAdditionOverflow offset p.blobSize then
        throw .invalidArgument
      else
        modify fun s => { s with params := s.params.set i (p.setData (.inSet offset)) }
        return offset + p.blobSize

-- `HksFreshParamSet(set, false)`. Where it fails the set keeps the pointers that it has so far.
def hksFreshParamSet : EStateM HksErrorCode HksParamSet PUnit := do
  let s ← get
  MonadExcept.ofExcept (hksCheckParamSet s s.paramSetSize)
  let offset ← (List.range' 0 s.params.length).foldlM (freshParam s.paramSetSize) s.base.toUInt32
  if s.paramSetSize ≠ offset then
    throw .invalidArgument

-- The set of the caller, and where the new set goes
structure TagDeletion where
  paramSet    : HksParamSet
  outParamSet : Option HksParamSet
  deriving DecidableEq, Repr

def TagDeletion.paramSetLens : EStateM.Lens TagDeletion HksParamSet where
  get := paramSet
  set paramSet t := { t with paramSet }

-- One round of the loop of `HksDeleteTagsFromParamSet`
def addUnlessDeleted (tag : List UInt32) (newParamSet : HksParamSet) (p : HksParam) :
    Except HksErrorCode HksParamSet :=
  if tag.contains p.tag then .ok newParamSet else Huks.hksAddParams newParamSet [p]

def hksDeleteTagsFromParamSet (tag : List UInt32) : EStateM HksErrorCode TagDeletion PUnit := do
  EStateM.zoom TagDeletion.paramSetLens hksFreshParamSet
  let newParamSet ← MonadExcept.ofExcept <|
    (← get).paramSet.entries.foldlM (addUnlessDeleted tag) hksInitParamSet
  let newParamSet ← MonadExcept.ofExcept (hksBuildParamSet newParamSet)
  modify fun t => { t with outParamSet := some newParamSet }

end Huks.InPlace
