import Huks.Engine.SecureAccess
import Huks.Lib.OutBuffer

namespace Huks

structure EnrolledInfoWrap where
  authType   : UInt32
  enrolledId : UInt64
  deriving DecidableEq, Repr

-- `enrolledInfo` points at so many of them as `enrolledInfoLen` says.
structure SecInfoWrap where
  enrolledInfoLen : UInt32
  enrolledInfo    : List EnrolledInfoWrap
  length_eq       : enrolledInfo.length = enrolledInfoLen.toNat

namespace InPlace

open OutBuffer

def computeEnrolledInfoLen (enrolledInfoLen : UInt32) : UInt32 := 4 + (4 + 8) * enrolledInfoLen

-- A copy behind `index` of what is left of the blob.
def copyEnrolled (index : UInt32) (bytes : Bytes) : OutM HksErrorCode PUnit := do
  if ← memcpyInto index.toNat ((← get).size - index).toNat bytes then
    return
  else
    refuse .insufficientMemory

-- The loop of `ConstructEnrolledInfoBlob`
def constructEntries : List EnrolledInfoWrap → UInt32 → OutM HksErrorCode PUnit
  | [], _                => return
  | info :: infos, index => do
    copyEnrolled index (toBytes32 info.authType)
    copyEnrolled (index + 4) (toBytes64 info.enrolledId)
    constructEntries infos (index + 4 + 8)

def constructEnrolledInfoBlob (secInfo : SecInfoWrap) : OutM HksErrorCode PUnit := do
  discard <| memsetZero (← get).size.toNat
  copyEnrolled 0 (toBytes32 secInfo.enrolledInfoLen)
  constructEntries secInfo.enrolledInfo 4

def addEnrolledInfoInParamSet (secInfo : SecInfoWrap) (paramSet : HksParamSet) :
    Except (Stop HksErrorCode) HksParamSet := do
  let size := computeEnrolledInfoLen secInfo.enrolledInfoLen
  if ¬mallocOk size.toNat then
    throw (.error .mallocFail)
  else do
    let enrolledInfo ← inBlock (.replicate size.toNat 0) (constructEnrolledInfoBlob secInfo)
    let paramSet ← checked (Huks.hksAddParams paramSet [.ofBytes HksTag.userAuthEnrollIdInfo enrolledInfo])
    checked (hksBuildParamSet paramSet)

-- The loop of `VerifyEnrolledIdInfoIfNeed`, with so many rounds left.
def matchEnrolledId (info : Bytes) (authType : UInt32) (enrolledId : UInt64) :
    Nat → UInt32 → Except (Stop HksErrorCode) Unit
  | 0, _         => throw (.error .keyAuthPermanentlyInvalidated)
  | n + 1, index => do
    if index < info.length.toUInt32 then do
      let infoType ← readAt info index.toNat 4
      let infoId ← readAt info (index + 4).toNat 8
      if le32 infoType = authType ∧ le64 infoId = enrolledId then
        return
      else
        matchEnrolledId info authType enrolledId n (index + 4 + 8)
    else
      throw (.error .keyAuthPermanentlyInvalidated)

def verifyEnrolledIdInfoIfNeed (keyBlobParamSet : Option HksParamSet) (authToken : HksUserAuthToken)
    (blobAuthType authAccessType authTokenAuthType : UInt32) : Except (Stop HksErrorCode) Unit := do
  if blobAuthType &&& (HksUserAuthType.face ||| HksUserAuthType.fingerprint) = 0 ∨
      authAccessType &&& HksAuthAccessType.invalidNewBioEnroll = 0 then
    return
  else do
    let info ← checked ((getBlobOf keyBlobParamSet HksTag.userAuthEnrollIdInfo).orError .badState)
    if info.length < enrolledIdInfoMinLen then
      throw (.error .badState)
    else do
      let enrolledIdNum ← readAt info 0 4
      matchEnrolledId info authTokenAuthType (le64 authToken.enrolledId) (le32 enrolledIdNum).toNat 4

end InPlace

end Huks
