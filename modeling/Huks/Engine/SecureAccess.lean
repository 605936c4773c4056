import Huks.Engine.CryptoAdapter
import Huks.Engine.KeyNode

namespace Huks

-- A node while a call works on it.
structure NodeState where
  node    : HuksKeyNode
  world   : World
  history : History

abbrev NodeM := EStateM HksErrorCode NodeState

def NodeState.worldLens : EStateM.Lens NodeState World where
  get s   := s.world
  set w s := { s with world := w }

instance : MonadLift WorldM NodeM := ⟨EStateM.zoom NodeState.worldLens⟩

def modifyAuth (f : HksParamSet → HksParamSet) : NodeM Unit :=
  modify fun s => { s with
    node := { s.node with authRuntimeParamSet := s.node.authRuntimeParamSet.map f } }

def tokenSize            : Nat := 32
def bytesPerPos          : UInt32 := 8
def authSToMs            : UInt64 := 1000
def defaultTimeOut       : UInt32 := 3
def enrolledIdInfoMinLen : Nat := 16
def secureSignVersion    : UInt32 := 0x01000001
def hksChallengePos3     : UInt32 := 3

-- The packed `struct HksUserAuthToken` and its members.
abbrev HksUserAuthToken := Bytes

namespace HksUserAuthToken

variable (token : HksUserAuthToken)

def sizeOf : Nat := 280

def challenge    : Bytes := (token.drop 4).take 32
def time         : UInt64 := le64 ((token.drop 36).take 8)
def authType     : UInt32 := le32 (token.drop 48)
def tokenType    : UInt32 := le32 (token.drop 60)
def ciphertext   : Bytes := (token.drop 64).take 156
def userId       : Int32 := (le32 (token.drop 64)).toInt32
def secureUid    : Bytes := (token.drop 68).take 8
def enrolledId   : Bytes := (token.drop 76).take 8
def credentialId : Bytes := (token.drop 84).take 8
def tag          : Bytes := (token.drop 220).take 16
def iv           : Bytes := (token.drop 236).take 12
def authTokenData : Bytes := token.take 248
def sign         : Bytes := (token.drop 248).take 32

def setCiphertext (plaintext : Bytes) : HksUserAuthToken :=
  token.take 64 ++ plaintext.takeD 156 0 ++ token.drop 220

end HksUserAuthToken

-- `struct HksSecureSignAuthInfo`
def hksSecureSignAuthInfoSize : Nat := 20

structure HksSecureAccessInnerParams where
  challengePos     : UInt32 := 0
  isUserAuthAccess : Bool := false
  isSecureSign     : Bool := false
  outTokenSize     : Nat
  deriving DecidableEq, Repr

section Init

variable (env : EngineEnv)

def checkChallengeTypeValidity (blobChallengeType : UInt32) (initParamSet : HksParamSet)
    (innerParams : HksSecureAccessInnerParams) :
    Except HksErrorCode HksSecureAccessInnerParams := do
  let pos ←
    if blobChallengeType = HksChallengeType.custom then
      let pos ← getUInt32 initParamSet HksTag.challengePos
      if pos > hksChallengePos3 then throw .invalidArgument
      pure pos
    else
      pure 0
  if blobChallengeType = HksChallengeType.none then
    return { innerParams with challengePos := pos, outTokenSize := 0 }
  else if innerParams.outTokenSize < tokenSize then
    throw .invalidArgument
  else
    return { innerParams with challengePos := pos }

def isNeedSkipUserAuthAccessControl (keyBlobParamSet : Option HksParamSet)
    (initParamSet : HksParamSet) : Except HksErrorCode Unit := do
  match getUInt32Of keyBlobParamSet HksTag.keyAuthPurpose with
  | .error _               => return
  | .ok userAuthKeyPurpose =>
    env.hksCheckUserAuthKeyInfoValidity initParamSet
    let keyPurpose ← getUInt32 initParamSet HksTag.purpose
    if keyPurpose ||| userAuthKeyPurpose ≠ userAuthKeyPurpose then
      throw .needSkipAccessControl

def checkInitParamSetValidityAndGet (keyBlobParamSet : Option HksParamSet)
    (initParamSet : HksParamSet) (outTokenSize : Nat) :
    Except HksErrorCode HksSecureAccessInnerParams := do
  match getParamOf keyBlobParamSet HksTag.userAuthType with
  | .error .paramNotExist => return { outTokenSize := 0 }
  | .error e              => throw e
  | .ok _                 =>
    match isNeedSkipUserAuthAccessControl env keyBlobParamSet initParamSet with
    | .error .needSkipAccessControl => return { outTokenSize := 0 }
    | .error e                      => throw e
    | .ok _                         =>
      let blobChallengeType ← getUInt32Of keyBlobParamSet HksTag.challengeType
      let innerParams ← checkChallengeTypeValidity blobChallengeType initParamSet
        { outTokenSize := outTokenSize }
      match getUInt32Of keyBlobParamSet HksTag.keySecureSignType with
      | .error _ => return { innerParams with isUserAuthAccess := true }
      | .ok secureSignType =>
        (env.hksCheckSecureSignParams secureSignType).orError .badState
        return { innerParams with isUserAuthAccess := true, isSecureSign := true }

def assignToken (outTokenSize : Nat) (challenge : Bytes) : Except HksErrorCode Bytes :=
  if outTokenSize ≥ tokenSize then
    .ok challenge
  else if outTokenSize = 0 then
    .ok []
  else
    .error .invalidArgument

def defaultAuthRuntimeParams (innerParams : HksSecureAccessInnerParams)
    (isNeedAppendAuthInfo : Bool) : List HksParam :=
  [.ofBool HksTag.isUserAuthAccess innerParams.isUserAuthAccess,
    .ofBool HksTag.ifNeedAppendAuthInfo isNeedAppendAuthInfo,
    .ofBool HksTag.isAppendUpdateData false,
    .ofUInt32 HksTag.keyAuthResult HksAuthResult.init,
    .ofUInt32 HksTag.challengePos innerParams.challengePos]

def authRuntimeParamSet (innerParams : HksSecureAccessInnerParams) (isNeedAppendAuthInfo : Bool)
    (curTime : UInt64) (challenge : Bytes) : Except HksErrorCode HksParamSet := do
  let paramSet ← hksAddParams hksInitParamSet
    (defaultAuthRuntimeParams innerParams isNeedAppendAuthInfo)
  let paramSet ← hksAddParams paramSet [⟨HksTag.keyAccessTime, curTime / authSToMs, .null⟩]
  let paramSet ← hksAddParams paramSet [.ofBytes HksTag.keyInitChallenge challenge]
  let paramSet ←
    if isNeedAppendAuthInfo then
      hksAddParams paramSet
        [.ofBytes HksTag.appendedDataPrefix (.replicate hksSecureSignAuthInfoSize 0)]
    else
      pure paramSet
  hksBuildParamSet paramSet

-- The new param set and the token for the caller.
def buildAuthRuntimeParamSet (innerParams : HksSecureAccessInnerParams)
    (isNeedAppendAuthInfo : Bool) : WorldM (HksParamSet × Bytes) := do
  let curTime ← World.hksElapsedRealTime env
  let challenge ← MonadExcept.ofExcept
    ((← EStateM.attempt (World.fillRandom env tokenSize)).orError .badState)
  let paramSet ← MonadExcept.ofExcept
    (authRuntimeParamSet innerParams isNeedAppendAuthInfo curTime challenge)
  let token ← MonadExcept.ofExcept (assignToken innerParams.outTokenSize challenge)
  return (paramSet, token)

def hksCoreSecureAccessInitParams (initParamSet : HksParamSet) (outTokenSize : Nat) :
    NodeM Bytes := do
  let keyNode := (← get).node
  let innerParams ← MonadExcept.ofExcept
    (checkInitParamSetValidityAndGet env keyNode.keyBlobParamSet initParamSet outTokenSize)
  let (paramSet, token) ← buildAuthRuntimeParamSet env innerParams innerParams.isSecureSign
  modify fun s => { s with node := { s.node with authRuntimeParamSet := paramSet } }
  return token

end Init

section Token

variable (env : EngineEnv) (keyBlobParamSet authRuntimeParamSet : Option HksParamSet)

def getAuthToken (paramSet : HksParamSet) : Except HksErrorCode HksUserAuthToken := do
  let authTokenParam ←
    (hksGetParam paramSet HksTag.authToken).orError .checkGetAuthTokenFailed
  if authTokenParam.blobSize.toNat ≠ HksUserAuthToken.sizeOf then
    throw .invalidAuthToken
  return paramSet.blob authTokenParam

def hksVerifyAuthTokenSign (authToken : HksUserAuthToken) : WorldM Unit := do
  let (macKey, _) ← MonadExcept.ofExcept (env.hksGetAuthTokenKey (← World.next))
  let computedMac ← World.hal env (.hmac macKey authToken.authTokenData)
  if computedMac.takeD 32 0 ≠ authToken.sign then
    throw .keyAuthVerifyFailed

def hksDecryptAuthToken (authToken : HksUserAuthToken) : WorldM HksUserAuthToken := do
  let (_, cipherKey) ← MonadExcept.ofExcept (env.hksGetAuthTokenKey (← World.next))
  let plaintext ← World.hal env
    (.decryptAead cipherKey authToken.iv authToken.ciphertext authToken.tag)
  return authToken.setCiphertext plaintext

def hksCheckAuthType (authToken : HksUserAuthToken) : Except HksErrorCode Unit :=
  let isCoauth : Bool := match getUInt32Of keyBlobParamSet HksTag.userAuthMode with
    | .error _      => false
    | .ok authMode => authMode = HksUserAuthMode.coauth
  if authToken.tokenType = 0 ∨ authToken.tokenType = 1 then
    .ok ()
  else if authToken.tokenType = 2 ∧ isCoauth then
    .ok ()
  else
    .error .notSupported

def hksVerifyKeyChallenge (authToken : HksUserAuthToken) (challengePos checkLen : UInt32) :
    Except HksErrorCode Unit := do
  let challenge ← (getBlobOf authRuntimeParamSet HksTag.keyInitChallenge).orError .badState
  let pos := challengePos * bytesPerPos
  if checkLen + pos > challenge.size then
    throw .invalidArgument
  else if (challenge.drop pos.toNat).take checkLen.toNat ≠
      (authToken.challenge.drop pos.toNat).take checkLen.toNat then
    throw .keyAuthFailed

def hksVerifyKeyTimestamp (authToken : HksUserAuthToken) : Except HksErrorCode Unit := do
  let timeOut := match getUInt32Of keyBlobParamSet HksTag.authTimeout with
    | .error _     => defaultTimeOut
    | .ok timeOut => timeOut
  let accessTime ← (getParamOf authRuntimeParamSet HksTag.keyAccessTime).orError .badState
  let accessTime := accessTime.uint64Param
  let authTokenTime := authToken.time / authSToMs
  if (accessTime > authTokenTime ∧ accessTime - authTokenTime > timeOut.toUInt64) ∨
      (authTokenTime > accessTime ∧ authTokenTime - accessTime > timeOut.toUInt64) then
    throw .keyAuthTimeOut

def verifyChallengeOrTimeStamp (authToken : HksUserAuthToken) : Except HksErrorCode Unit := do
  let blobChallengeType ← (getUInt32Of keyBlobParamSet HksTag.challengeType).orError .badState
  if blobChallengeType = HksChallengeType.normal then
    hksVerifyKeyChallenge authRuntimeParamSet authToken 0 32
  else if blobChallengeType = HksChallengeType.custom then
    let pos ← (getUInt32Of authRuntimeParamSet HksTag.challengePos).orError .invalidArgument
    hksVerifyKeyChallenge authRuntimeParamSet authToken pos bytesPerPos
  else if blobChallengeType = HksChallengeType.none then
    hksVerifyKeyTimestamp keyBlobParamSet authRuntimeParamSet authToken
  else
    throw .badState

def verifyFrontUserIdIfNeed (authToken : HksUserAuthToken) : Except HksErrorCode Unit := do
  let frontUserId ← (getParamOf keyBlobParamSet HksTag.frontUserId).orError .badState
  if frontUserId.int32Param ≠ authToken.userId then
    throw .keyAuthPermanentlyInvalidated

def verifySecureUidIfNeed (authToken : HksUserAuthToken) (authAccessType : UInt32) :
    Except HksErrorCode Unit := do
  if authAccessType &&& HksAuthAccessType.invalidClearPassword = 0 then
    return
  else
    let secUid ← (getBlobOf keyBlobParamSet HksTag.userAuthSecureUid).orError .badState
    if secUid.length ≠ 8 then
      throw .badState
    else if secUid ≠ authToken.secureUid then
      throw .keyAuthPermanentlyInvalidated

-- The loop of `VerifyEnrolledIdInfoIfNeed` over the bytes from `index` on; a round takes twelve.
def matchEnrolledId (authType : UInt32) (enrolledId : Bytes) : Nat → UInt32 → Bytes → Bool
  | 0, _, _ => false
  | fuel + 1, enrolledIdNum, info =>
    if enrolledIdNum = 0 ∨ info = [] then
      false
    else if le32 info = authType ∧ (info.drop 4).take 8 = enrolledId then
      true
    else
      matchEnrolledId authType enrolledId fuel (enrolledIdNum - 1) (info.drop 12)

def verifyEnrolledIdInfoIfNeed (authToken : HksUserAuthToken)
    (blobAuthType authAccessType authTokenAuthType : UInt32) : Except HksErrorCode Unit := do
  if blobAuthType &&& (HksUserAuthType.face ||| HksUserAuthType.fingerprint) = 0 ∨
      authAccessType &&& HksAuthAccessType.invalidNewBioEnroll = 0 then
    return
  else
    let info ← (getBlobOf keyBlobParamSet HksTag.userAuthEnrollIdInfo).orError .badState
    if info.length < enrolledIdInfoMinLen then
      throw .badState
    else if ¬matchEnrolledId authTokenAuthType authToken.enrolledId info.length (le32 info)
        (info.drop 4) then
      throw .keyAuthPermanentlyInvalidated

def verifyAuthTokenInfo (authToken : HksUserAuthToken) : Except HksErrorCode Unit := do
  let userAuthType ← (getUInt32Of keyBlobParamSet HksTag.userAuthType).orError .badState
  let authAccessType ← (getUInt32Of keyBlobParamSet HksTag.keyAuthAccessType).orError .badState
  let authTokenAuthType ←
    (env.hksCoreConvertUserIamTypeToHksType authToken.authType).orError .notSupported
  if authTokenAuthType &&& userAuthType = 0 then
    throw .keyAuthVerifyFailed
  else if authAccessType = HksAuthAccessType.alwaysValid then
    verifyFrontUserIdIfNeed keyBlobParamSet authToken
  else
    verifySecureUidIfNeed keyBlobParamSet authToken authAccessType
    verifyEnrolledIdInfoIfNeed keyBlobParamSet authToken userAuthType authAccessType
      authTokenAuthType

-- The checks that an auth token has to pass; the result is the decrypted token.
def verifyAuthToken (paramSet : HksParamSet) : WorldM HksUserAuthToken := do
  let authToken ← MonadExcept.ofExcept (getAuthToken paramSet)
  hksVerifyAuthTokenSign env authToken
  MonadExcept.ofExcept (hksCheckAuthType keyBlobParamSet authToken)
  let authToken ← hksDecryptAuthToken env authToken
  MonadExcept.ofExcept (verifyChallengeOrTimeStamp keyBlobParamSet authRuntimeParamSet authToken)
  MonadExcept.ofExcept (verifyAuthTokenInfo env keyBlobParamSet authToken)
  return authToken

end Token

section Verify

variable (env : EngineEnv)

def addVerifiedAuthToken (authRuntimeParamSet : HksParamSet) (authToken : HksUserAuthToken) :
    Except HksErrorCode HksParamSet := do
  let paramSet ← hksAddParams hksInitParamSet authRuntimeParamSet.entries
  hksBuildParamSet (← hksAddParams paramSet [.ofBytes HksTag.verifiedAuthToken authToken])

def hksAddVerifiedAuthTokenIfNeed (authToken : HksUserAuthToken) : NodeM Unit := do
  match (← get).node.authRuntimeParamSet with
  | none => throw .badState
  | some authRuntimeParamSet =>
    let isNeedSecureSignInfo ← MonadExcept.ofExcept
      ((hksGetParam authRuntimeParamSet HksTag.ifNeedAppendAuthInfo).orError .badState)
    if isNeedSecureSignInfo.boolParam then
      let paramSet ← MonadExcept.ofExcept (addVerifiedAuthToken authRuntimeParamSet authToken)
      modifyAuth fun _ => paramSet

-- `none` if nothing is to be verified, and the result of the last verification otherwise.
def checkIfNeedVerifyParams (authRuntimeParamSet : Option HksParamSet) :
    Except HksErrorCode (Option UInt32) := do
  let isNeedSecureAccess ← getParamOf authRuntimeParamSet HksTag.isUserAuthAccess
  let authResult ← getUInt32Of authRuntimeParamSet HksTag.keyAuthResult
  if ¬isNeedSecureAccess.boolParam then
    return none
  else if authResult = HksAuthResult.success then
    return none
  else
    return some authResult

def setAuthResult (authResult : UInt32) : NodeM Unit :=
  modifyAuth (·.update HksTag.keyAuthResult (·.setUint32 authResult))

def recordNode (event : History → HuksKeyNode → NodeEvent) : NodeM Unit :=
  modify fun s => { s with
    history := { s.history with events := s.history.events ++ [event s.history s.node] } }

def assignVerifyResult (authToken : Except HksErrorCode HksUserAuthToken) : NodeM Unit := do
  match authToken with
  | .ok authToken =>
    setAuthResult HksAuthResult.success
    recordNode fun history node => .accepted history.call node.id
    MonadExcept.ofExcept
      ((← EStateM.attempt (hksAddVerifiedAuthTokenIfNeed authToken)).orError .badState)
  | .error e =>
    setAuthResult HksAuthResult.failed
    throw e

def hksCoreSecureAccessVerifyParams (paramSet : HksParamSet) : NodeM Unit := do
  let keyNode := (← get).node
  match ← MonadExcept.ofExcept
      ((checkIfNeedVerifyParams keyNode.authRuntimeParamSet).orError .badState) with
  | none            => return
  | some authResult =>
    if authResult = HksAuthResult.failed then
      throw .keyAuthFailed
    else
      let authToken ← EStateM.attempt
        (verifyAuthToken env keyNode.keyBlobParamSet keyNode.authRuntimeParamSet paramSet)
      assignVerifyResult authToken

end Verify

section Append

variable (env : EngineEnv)

def getUserAuthResult (authRuntimeParamSet : Option HksParamSet) : Except HksErrorCode UInt32 := do
  let isSecureAccess ← (getParamOf authRuntimeParamSet HksTag.isUserAuthAccess).orError .badState
  if ¬isSecureAccess.boolParam then
    return HksAuthResult.none
  (getUInt32Of authRuntimeParamSet HksTag.keyAuthResult).orError .badState

-- `(*isNeedAppendAuthInfo, *authResultOut)`
def getSupportAppendAuthInfoParams (authRuntimeParamSet : Option HksParamSet) :
    Except HksErrorCode (Bool × UInt32) := do
  let isNeedAppend ← (getParamOf authRuntimeParamSet HksTag.ifNeedAppendAuthInfo).orError .badState
  let authResult ← (getUserAuthResult authRuntimeParamSet).orError .badState
  return (isNeedAppend.boolParam, authResult)

def checkParamsAndGetAppendState (authRuntimeParamSet : Option HksParamSet) :
    Except HksErrorCode Bool := do
  let isAppendData ← (getParamOf authRuntimeParamSet HksTag.isAppendUpdateData).orError .badState
  return isAppendData.boolParam

-- The result of the authentication if the prefix is to be put in front of the data.
def checkIfNeedAppendUpdateData (authRuntimeParamSet : Option HksParamSet) (inData : Bytes) :
    Except HksErrorCode (Option UInt32) := do
  let (isNeedAppend, authResult) ← getSupportAppendAuthInfoParams authRuntimeParamSet
  if ¬isNeedAppend then
    return none
  if ← checkParamsAndGetAppendState authRuntimeParamSet then
    return none
  if inData = [] then throw .invalidArgument
  if 0xffffffff - inData.size < hksSecureSignAuthInfoSize.toUInt32 then throw .invalidArgument
  return some authResult

def getSecureSignAuthInfo (authRuntimeParamSet : Option HksParamSet) :
    Except HksErrorCode Bytes := do
  let authToken : HksUserAuthToken ←
    (getBlobOf authRuntimeParamSet HksTag.verifiedAuthToken).orError .badState
  if authToken.length ≠ HksUserAuthToken.sizeOf then throw .badState
  let hksAuthType ← (env.hksCoreConvertUserIamTypeToHksType authToken.authType).orError .badState
  return toBytes32 hksAuthType ++ authToken.enrolledId ++ authToken.credentialId

def doAppendPrefixAuthInfoToUpdateInData (secureSignInfo inData : Bytes) : NodeM Bytes := do
  let outData := toBytes32 secureSignVersion ++ secureSignInfo ++ inData
  if ¬mallocOk outData.length then throw .mallocFail
  let appendDataPrefix ← MonadExcept.ofExcept
    ((getParamOf (← get).node.authRuntimeParamSet HksTag.appendedDataPrefix).orError .badState)
  if appendDataPrefix.blobSize.toNat < secureSignInfo.length then throw .insufficientMemory
  modifyAuth (·.writeBlob HksTag.appendedDataPrefix secureSignInfo)
  return outData

-- The input of the handler: only a secure sign key gets its prefix in front of it.
def hksCoreAppendAuthInfoBeforeUpdate (pur : UInt32) (inData : Bytes) : NodeM Bytes := do
  if pur ≠ HksKeyPurpose.sign then
    return inData
  else
    let authRuntimeParamSet := (← get).node.authRuntimeParamSet
    match ← MonadExcept.ofExcept (checkIfNeedAppendUpdateData authRuntimeParamSet inData) with
    | none            => return inData
    | some authResult =>
      if authResult ≠ HksAuthResult.success then throw .keyAuthFailed
      let secureSignInfo ← MonadExcept.ofExcept (getSecureSignAuthInfo env authRuntimeParamSet)
      let outData ← doAppendPrefixAuthInfoToUpdateInData secureSignInfo inData
      modifyAuth (·.update HksTag.isAppendUpdateData (·.setBool true))
      return outData

def hksCoreAppendAuthInfoBeforeFinish (pur : UInt32) (inData : Bytes) : NodeM Bytes :=
  hksCoreAppendAuthInfoBeforeUpdate env pur inData

def checkIfNeedAppendFinishData (authRuntimeParamSet : Option HksParamSet) (outData : Bytes)
    (inOutDataOriginSize : UInt32) : Except HksErrorCode Bool := do
  let (isNeedAppend, authResult) ← getSupportAppendAuthInfoParams authRuntimeParamSet
  if ¬isNeedAppend then
    return false
  if authResult ≠ HksAuthResult.success then throw .keyAuthFailed
  if ¬(← checkParamsAndGetAppendState authRuntimeParamSet) then throw .badState
  if outData = [] then throw .invalidArgument
  if inOutDataOriginSize < outData.size ∨
      inOutDataOriginSize - outData.size < hksSecureSignAuthInfoSize.toUInt32 then
    throw .bufferTooSmall
  return true

def doAppendPrefixDataToFinishData (authRuntimeParamSet : Option HksParamSet) (outData : Bytes)
    (inOutDataOriginSize : UInt32) : Except HksErrorCode Bytes := do
  let appendDataPrefix ←
    (getBlobOf authRuntimeParamSet HksTag.appendedDataPrefix).orError .badState
  let cacheOutData := toBytes32 secureSignVersion ++ appendDataPrefix ++ outData
  if ¬mallocOk cacheOutData.length then throw .mallocFail
  if inOutDataOriginSize < cacheOutData.size then throw .insufficientMemory
  return cacheOutData

def hksCoreAppendAuthInfoAfterFinish (pur inOutDataOriginSize : UInt32) (outData : Bytes) :
    NodeM Bytes := do
  if pur ≠ HksKeyPurpose.sign then
    return outData
  else
    let authRuntimeParamSet := (← get).node.authRuntimeParamSet
    if ← MonadExcept.ofExcept
        (checkIfNeedAppendFinishData authRuntimeParamSet outData inOutDataOriginSize) then
      MonadExcept.ofExcept
        (doAppendPrefixDataToFinishData authRuntimeParamSet outData inOutDataOriginSize)
    else
      return outData

end Append

section Identity

variable (env : EngineEnv) (blobParamSet : Option HksParamSet)

def hksCheckCompareAccessTokenId (runtimeParamSet : HksParamSet) : Except HksErrorCode Unit := do
  match getParamOf blobParamSet HksTag.accessTokenId with
  | .error _ => return
  | .ok blobAccessTokenId =>
    let accessTokenId ← (hksGetParam runtimeParamSet HksTag.accessTokenId).orError .badState
    if blobAccessTokenId.uint64Param ≠ accessTokenId.uint64Param then throw .badState

def hksCheckCompareUserId (runtimeParamSet : HksParamSet) : Except HksErrorCode Unit := do
  match getUInt32Of blobParamSet HksTag.userId with
  | .error _       => return
  | .ok blobUserId =>
    let userId ← (getUInt32 runtimeParamSet HksTag.userId).orError .badState
    if blobUserId ≠ userId then throw .badState

def hksCheckCompareProcessName (runtimeParamSet : HksParamSet) : Except HksErrorCode Unit := do
  let blobProcessName ← (getBlobOf blobParamSet HksTag.processName).orError .badState
  let processName ← (getBlob runtimeParamSet HksTag.processName).orError .badState
  if blobProcessName ≠ processName then throw .badState

def isPasswordSetNeeded : Bool :=
  match getParamOf blobParamSet HksTag.isDevicePasswordSet with
  | .error _          => false
  | .ok isSetPassword => env.enableIsPasswordSet && isSetPassword.boolParam

def passwordUserId : Except HksErrorCode HksParam :=
  match getParamOf blobParamSet HksTag.specificUserId with
  | .error .paramNotExist => (getParamOf blobParamSet HksTag.userId).orError .invalidArgument
  | .error _              => .error .invalidArgument
  | .ok userId            => .ok userId

def checkIfNeedIsDevicePasswordSet : WorldM Unit := do
  if isPasswordSetNeeded env blobParamSet then
    let userId ← MonadExcept.ofExcept (passwordUserId blobParamSet)
    let (ret, numOfAuthInfo) := env.hksUserIdmGetAuthInfoNum (← World.next) userId.int32Param
    if ret matches .error .credentialNotExist ∨ numOfAuthInfo = 0 then
      throw .devicePasswordUnset

def hksProcessIdentityVerify (runtimeParamSet : HksParamSet) : WorldM Unit := do
  MonadExcept.ofExcept (hksCheckCompareAccessTokenId blobParamSet runtimeParamSet)
  MonadExcept.ofExcept (hksCheckCompareUserId blobParamSet runtimeParamSet)
  MonadExcept.ofExcept (hksCheckCompareProcessName blobParamSet runtimeParamSet)
  checkIfNeedIsDevicePasswordSet env blobParamSet

end Identity

end Huks
