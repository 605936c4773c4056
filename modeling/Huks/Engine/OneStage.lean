import Huks.Engine.CheckParamSet
import Huks.Engine.SecureAccess
import Huks.Engine.ThreeStage

namespace Huks

def hksCheckKeybBlobIsSupportUserAuth (blobParamSet : HksParamSet) : Except HksErrorCode Bool :=
  match hksGetParam blobParamSet HksTag.userAuthType with
  | .error .paramNotExist => .ok false
  | .error e              => .error e
  | .ok _                 => .ok true

-- One stage calls cannot authenticate the user, so they refuse the keys that ask for it.
def refuseUserAuth (keyBlobParamSet : HksParamSet) : Except HksErrorCode Unit := do
  if ← hksCheckKeybBlobIsSupportUserAuth keyBlobParamSet then throw .notSupported

def hksAuth (engine : EngineEnv) (authId : HksAuthId) (keyBlobParamSet paramSet : HksParamSet) :
    Except HksErrorCode Unit := do
  refuseUserAuth keyBlobParamSet
  authPolicy engine authId.policyTag keyBlobParamSet paramSet

namespace OneStage

variable (engine : EngineEnv) (env : OneStageEnv)

def cipherAuth (keyBlobParamSet paramSet : HksParamSet) : Except HksErrorCode Unit := do
  let alg ← getUInt32 paramSet HksTag.algorithm
  if alg = HksKeyAlg.aes ∨ alg = HksKeyAlg.sm4 then
    hksAuth engine .symCipher keyBlobParamSet paramSet
  else if alg = HksKeyAlg.rsa ∨ alg = HksKeyAlg.sm2 then
    hksAuth engine .asymCipher keyBlobParamSet paramSet
  else
    .error .invalidAlgorithm

def signVerifyAuth (keyBlobParamSet paramSet : HksParamSet) : Except HksErrorCode Unit := do
  let alg ← getUInt32 paramSet HksTag.algorithm
  if alg = HksKeyAlg.rsa then
    let padding ← getUInt32 paramSet HksTag.padding
    if padding = HksKeyPadding.pss then
      hksCheckKeyBlobParamSetEqualRuntimeParamSet keyBlobParamSet paramSet HksTag.rsaPssSaltLenType
    hksAuth engine .signVerifyRsa keyBlobParamSet paramSet
  else if alg = HksKeyAlg.ecc then
    hksAuth engine .signVerifyEcc keyBlobParamSet paramSet
  else if alg = HksKeyAlg.dsa then
    .ok ()
  else if alg = HksKeyAlg.ed25519 then
    hksAuth engine .signVerifyEd25519 keyBlobParamSet paramSet
  else
    .error .invalidAlgorithm

-- `HksGenerateKeyNode`, of whose node only the param set is used.
def generateKeyNode (key : Bytes) : WorldM HksParamSet := do
  if key.size > maxKeySize then
    throw .corruptFile
  else
    MonadExcept.ofExcept ((engine.getKeyBlobParamSet (← World.next) key).orError .corruptFile)

def signVerifyDigest (nodeParamSet paramSet : HksParamSet) : Except HksErrorCode UInt32 :=
  match getUInt32 nodeParamSet HksTag.digest with
  | .error .paramNotExist => (getUInt32 paramSet HksTag.digest).orError .checkGetDigestFail
  | digest                => digest.orError .checkGetDigestFail

def getSignVerifyMessage (nodeParamSet : HksParamSet) (srcData : Bytes) (paramSet : HksParamSet) :
    WorldM Bytes := do
  let alg ← MonadExcept.ofExcept ((getUInt32 nodeParamSet HksTag.algorithm).orError .checkGetAlgFail)
  let digest ← MonadExcept.ofExcept (signVerifyDigest nodeParamSet paramSet)
  if hksCheckNeedCache alg digest then
    return srcData
  else
    MonadExcept.ofExcept (env.hksCryptoHalHash (← World.next) digest srcData)

def signVerifyPreCheck (keyBlobParamSet paramSet : HksParamSet) : WorldM Unit := do
  hksProcessIdentityVerify engine keyBlobParamSet paramSet
  MonadExcept.ofExcept (signVerifyAuth engine keyBlobParamSet paramSet)

-- `signature` is what the buffer of size `signatureSize` holds, which only `verify` reads.
def signVerify (cmdId : HksCmdId) (key : Bytes) (paramSet : HksParamSet) (srcData signature : Bytes)
    (signatureSize : UInt32) : WorldM Bytes := do
  MonadExcept.ofExcept (hksCoreCheckSignVerifyParams engine env cmdId key paramSet signatureSize)
  let keyBlobParamSet ← generateKeyNode engine key
  signVerifyPreCheck engine keyBlobParamSet paramSet
  let message ← getSignVerifyMessage env keyBlobParamSet srcData paramSet
  let rawKey ← MonadExcept.ofExcept (hksGetRawKey keyBlobParamSet)
  let usageSpec := setRsaPssSaltLenType paramSet (hksFillUsageSpec paramSet)
  if cmdId = .sign then
    World.hal engine (.sign rawKey usageSpec message)
  else
    World.hal engine (.verify rawKey usageSpec message signature)

def cipherPreCheck (keyBlobParamSet paramSet : HksParamSet) : WorldM Unit := do
  hksProcessIdentityVerify engine keyBlobParamSet paramSet
  MonadExcept.ofExcept (cipherAuth engine keyBlobParamSet paramSet)

-- The input and the tag that `HksFillAeadParam` splits off its end.
def splitAeTag (paramSet : HksParamSet) (isEncrypt : Bool) (inData : Bytes) :
    Except HksErrorCode (Bytes × Bytes) := do
  let (isAes, isAeMode) ← hksCheckAesAeMode paramSet
  if isEncrypt ∨ ¬isAes ∨ ¬isAeMode then
    return (inData, [])
  else if inData.length ≤ hksAeTagLen.toNat then
    throw .invalidArgument
  else
    let size := inData.length - hksAeTagLen.toNat
    return (inData.take size, inData.drop size)

def cipherEncrypt (rawKey : Bytes) (paramSet : HksParamSet) (usageSpec : HksUsageSpec)
    (inData : Bytes) (outSize : UInt32) : WorldM Bytes := do
  discard <| MonadExcept.ofExcept (hksGetEncryptAeTag paramSet inData.size outSize)
  World.hal engine (.encrypt rawKey usageSpec inData)

def cipher (cmdId : HksCmdId) (key : Bytes) (paramSet : HksParamSet) (inData : Bytes)
    (outSize : UInt32) : WorldM Bytes := do
  MonadExcept.ofExcept (hksCoreCheckCipherParams env cmdId key paramSet inData.size outSize)
  let keyBlobParamSet ← generateKeyNode engine key
  cipherPreCheck engine keyBlobParamSet paramSet
  let rawKey ← MonadExcept.ofExcept (hksGetRawKey keyBlobParamSet)
  let usageSpec ← MonadExcept.ofExcept (hksBuildCipherUsageSpec paramSet)
  let (inData, tag) ← MonadExcept.ofExcept (splitAeTag paramSet (cmdId = .encrypt) inData)
  if cmdId = .encrypt then
    cipherEncrypt engine rawKey paramSet usageSpec inData outSize
  else
    World.hal engine (.decrypt rawKey usageSpec inData tag)

end OneStage

section Core

variable (engine : EngineEnv) (env : OneStageEnv)

open OneStage

def hksCoreSign (key : Bytes) (paramSet : HksParamSet) (srcData : Bytes) (signatureSize : UInt32) :
    WorldM Bytes :=
  signVerify engine env .sign key paramSet srcData [] signatureSize

def hksCoreVerify (key : Bytes) (paramSet : HksParamSet) (srcData signature : Bytes) :
    WorldM Bytes :=
  signVerify engine env .verify key paramSet srcData signature signature.size

def hksCoreEncrypt (key : Bytes) (paramSet : HksParamSet) (plainText : Bytes)
    (cipherTextSize : UInt32) : WorldM Bytes :=
  cipher engine env .encrypt key paramSet plainText cipherTextSize

def hksCoreDecrypt (key : Bytes) (paramSet : HksParamSet) (cipherText : Bytes)
    (plainTextSize : UInt32) : WorldM Bytes :=
  cipher engine env .decrypt key paramSet cipherText plainTextSize

def hksCheckKeyValidity (paramSet : HksParamSet) (key : Bytes) : WorldM Unit := do
  let keyBlobParamSet ← generateKeyNode engine key
  hksProcessIdentityVerify engine keyBlobParamSet paramSet

def hksCoreGetKeyProperties (paramSet : HksParamSet) (key : Bytes) : WorldM Unit :=
  hksCheckKeyValidity engine paramSet key

def hksCoreExportPublicKey (key : Bytes) (paramSet : HksParamSet) (keyOutSize : UInt32) :
    WorldM Bytes := do
  if key = [] ∨ keyOutSize = 0 then
    throw .invalidArgument
  else
    let keyBlobParamSet ← generateKeyNode engine key
    hksProcessIdentityVerify engine keyBlobParamSet paramSet
    let rawKey ← MonadExcept.ofExcept (hksGetRawKey keyBlobParamSet)
    MonadExcept.ofExcept (env.hksCryptoHalGetPubKey (← World.next) rawKey)

def hksCoreAgreeKey (paramSet : HksParamSet) (privateKey peerPublicKey : Bytes)
    (agreedKeySize : UInt32) : WorldM Bytes := do
  MonadExcept.ofExcept (hksCoreCheckAgreeKeyParams env paramSet privateKey agreedKeySize)
  let keyBlobParamSet ← generateKeyNode engine privateKey
  hksProcessIdentityVerify engine keyBlobParamSet paramSet
  MonadExcept.ofExcept (refuseUserAuth keyBlobParamSet)
  let key ← MonadExcept.ofExcept (hksGetRawKey keyBlobParamSet)
  let agreeSpec := hksFillKeySpec paramSet
  World.hal engine (.agreeKey key peerPublicKey agreeSpec.algType agreeSpec.keyLen)

def hksCoreDeriveKey (paramSet : HksParamSet) (mainKey : Bytes) (derivedKeySize : UInt32) :
    WorldM Bytes := do
  MonadExcept.ofExcept (hksCoreCheckDeriveKeyParams env paramSet)
  let keyBlobParamSet ← generateKeyNode engine mainKey
  hksProcessIdentityVerify engine keyBlobParamSet paramSet
  MonadExcept.ofExcept (hksAuth engine .derive keyBlobParamSet paramSet)
  let key ← MonadExcept.ofExcept (hksGetRawKey keyBlobParamSet)
  let derivationSpec := hksFillKeySpec paramSet
  World.hal engine (.deriveKey key derivationSpec.algType derivationSpec.keyLen
    (hksFillKeyDerivationParam paramSet) derivedKeySize)

def hksCoreMac (key : Bytes) (paramSet : HksParamSet) (srcData : Bytes) (macSize : UInt32) :
    WorldM Bytes := do
  MonadExcept.ofExcept (hksCoreCheckMacParams paramSet macSize)
  let keyBlobParamSet ← generateKeyNode engine key
  hksProcessIdentityVerify engine keyBlobParamSet paramSet
  MonadExcept.ofExcept (hksAuth engine .macHmac keyBlobParamSet paramSet)
  let digest ← MonadExcept.ofExcept (getUInt32 paramSet HksTag.digest)
  let rawKey ← MonadExcept.ofExcept (hksGetRawKey keyBlobParamSet)
  MonadExcept.ofExcept (env.hksCryptoHalHmac (← World.next) rawKey digest srcData)

end Core

-- A call that uses a key in one stage, without the key and the param set.
inductive OneStageCall
  | sign (srcData : Bytes) (signatureSize : UInt32)
  | verify (srcData signature : Bytes)
  | encrypt (plainText : Bytes) (cipherTextSize : UInt32)
  | decrypt (cipherText : Bytes) (plainTextSize : UInt32)
  | agreeKey (peerPublicKey : Bytes) (agreedKeySize : UInt32)
  | deriveKey (derivedKeySize : UInt32)
  | mac (srcData : Bytes) (macSize : UInt32)
  | exportPublicKey (keyOutSize : UInt32)
  | getKeyProperties
  deriving DecidableEq, Repr

namespace OneStageCall

def exec (engine : EngineEnv) (env : OneStageEnv) (key : Bytes) (paramSet : HksParamSet) :
    OneStageCall → WorldM Bytes
  | sign srcData signatureSize => hksCoreSign engine env key paramSet srcData signatureSize
  | verify srcData signature => hksCoreVerify engine env key paramSet srcData signature
  | encrypt plainText cipherTextSize =>
    hksCoreEncrypt engine env key paramSet plainText cipherTextSize
  | decrypt cipherText plainTextSize =>
    hksCoreDecrypt engine env key paramSet cipherText plainTextSize
  | agreeKey peerPublicKey agreedKeySize =>
    hksCoreAgreeKey engine env paramSet key peerPublicKey agreedKeySize
  | deriveKey derivedKeySize => hksCoreDeriveKey engine env paramSet key derivedKeySize
  | mac srcData macSize => hksCoreMac engine env key paramSet srcData macSize
  | exportPublicKey keyOutSize => hksCoreExportPublicKey engine env key paramSet keyOutSize
  | getKeyProperties => do
    hksCoreGetKeyProperties engine paramSet key
    return []

-- The purpose that the name of the call stands for.
def purpose : OneStageCall → Option UInt32
  | sign _ _     => HksKeyPurpose.sign
  | verify _ _   => HksKeyPurpose.verify
  | encrypt _ _  => HksKeyPurpose.encrypt
  | decrypt _ _  => HksKeyPurpose.decrypt
  | agreeKey _ _ => HksKeyPurpose.agree
  | deriveKey _  => HksKeyPurpose.derive
  | mac _ _      => HksKeyPurpose.mac
  | exportPublicKey _ | getKeyProperties => none

end OneStageCall

end Huks
