import Huks.Common.ParamBlock
import Huks.Engine.CryptoAdapter
import Huks.Lib.FixedCodec

namespace Huks

open HksParamSet

def hksKeyBlobDeriveSaltSize : Nat := 16
def hksKeyBlobDeriveCnt      : UInt32 := 1000
def hksKeyBlobTagSize        : Nat := 16
def hksKeyBlobNonceSize      : Nat := 12
def hksKeyBlobMainKeySize    : Nat := 32
def hksKeyBlobDummyOsVersion    : UInt32 := 1
def hksKeyBlobDummyOsPatchlevel : UInt32 := 1

-- `struct HksKeyBlobInfo`
structure HksKeyBlobInfo where
  salt    : FixedBytes hksKeyBlobDeriveSaltSize
  nonce   : FixedBytes hksKeyBlobNonceSize
  tag     : FixedBytes hksKeyBlobTagSize
  keySize : UInt32
  deriving DecidableEq

namespace HksKeyBlobInfo

def encode (info : HksKeyBlobInfo) : Bytes :=
  info.salt.val ++ (info.nonce.val ++ (info.tag.val ++ toBytes32 info.keySize))

-- The fields at the head of `bytes`.
def decode (bytes : Bytes) : HksKeyBlobInfo where
  salt    := .ofBytes _ bytes
  nonce   := .ofBytes _ (bytes.drop 16)
  tag     := .ofBytes _ (bytes.drop 28)
  keySize := le32 (bytes.drop 44)

end HksKeyBlobInfo

-- `struct HksKeyNode`
structure HksKeyNode where
  paramSet : HksParamSet
  refCnt   : UInt32 := 1
  status   : UInt32 := 0
  handle   : UInt64 := 0
  deriving DecidableEq

-- The surroundings of the key blob code: the build options, the main key, the random bytes and
-- the crypto library it calls, and what the memory of the process looks like.
structure KeyBlobEnv where
  hksChangeDeriveKeyAlgToHkdf : Bool
  hksKeyVersion : UInt32
  getMainKey    : Except HksErrorCode (FixedBytes hksKeyBlobMainKeySize)
  fillSalt      : Except HksErrorCode (FixedBytes hksKeyBlobDeriveSaltSize)
  fillNonce     : Except HksErrorCode (FixedBytes hksKeyBlobNonceSize)
  deriveKey     : FixedBytes hksKeyBlobMainKeySize → UInt32 → HksKeyDerivationParam →
    Except HksErrorCode (FixedBytes 32)
  encrypt       : FixedBytes 32 → HksUsageSpec → (message : Bytes) →
    Except HksErrorCode (FixedBytes message.length × FixedBytes hksKeyBlobTagSize)
  decrypt       : FixedBytes 32 → HksUsageSpec → FixedBytes hksKeyBlobTagSize → (message : Bytes) →
    Except HksErrorCode (FixedBytes message.length)
  uninitialized : FixedBytes hksKeyBlobTagSize
  addressOf     : BlobData → UInt64
  memory        : UInt64 → BlobData
  padding       : Nat → UInt32

variable (env : KeyBlobEnv)

def getSalt (paramSet : HksParamSet) (keyBlobInfo : HksKeyBlobInfo) : Except HksErrorCode Bytes := do
  let appIdParam ← hksGetParam paramSet HksTag.processName
  if appIdParam.blobSize.toNat > hksMaxProcessNameLen then
    .error .invalidArgument
  else
    return paramSet.blob appIdParam ++ keyBlobInfo.salt.val

def getDeriveKeyAlg (paramSet : HksParamSet) : UInt32 :=
  if env.hksChangeDeriveKeyAlgToHkdf then
    match getUInt32 paramSet HksTag.keyVersion with
    | .error _       => HksKeyAlg.hkdf
    | .ok keyVersion => if keyVersion < 3 then HksKeyAlg.pbkdf2 else HksKeyAlg.hkdf
  else
    HksKeyAlg.hkdf

def getDeriveKey (paramSet : HksParamSet) (keyBlobInfo : HksKeyBlobInfo) :
    Except HksErrorCode (FixedBytes 32) := do
  let salt ← getSalt paramSet keyBlobInfo
  let derParam := { salt, iterations := hksKeyBlobDeriveCnt, digestAlg := HksKeyDigest.sha256 }
  let encryptKey ← env.getMainKey
  env.deriveKey encryptKey (getDeriveKeyAlg env paramSet) derParam

-- The payload of a key blob is as long as the key, and its tag goes to `encrypt` and `decrypt`.
def buildKeyBlobUsageSpec (aad : Bytes) (keyBlobInfo : HksKeyBlobInfo) : HksUsageSpec where
  mode    := HksCipherMode.gcm
  padding := HksKeyPadding.none
  digest  := HksKeyDigest.none
  algType := HksKeyAlg.aes
  aad     := aad
  iv      := keyBlobInfo.nonce.val

def encryptAndDecryptKeyBlob (aad : Bytes) (paramSet : HksParamSet) (isEncrypt : Bool) :
    Except HksErrorCode HksParamSet := do
  let keyParam ← hksGetParam paramSet HksTag.key
  if keyParam.blobSize.toNat ≤ hksKeyBlobInfoSize then
    .error .invalidKeyInfo
  else
    let blob := paramSet.blob keyParam
    let keyBlobInfo := HksKeyBlobInfo.decode blob
    let usageSpec := buildKeyBlobUsageSpec aad keyBlobInfo
    if keyParam.blobSize.toNat - hksKeyBlobInfoSize ≠ keyBlobInfo.keySize.toNat then
      .error .invalidKeyInfo
    else
      -- The result takes the place of the source.
      let srcKey := blob.drop hksKeyBlobInfoSize
      let derivedKey ← getDeriveKey env paramSet keyBlobInfo
      if isEncrypt then
        let (encKey, tag) ← env.encrypt derivedKey usageSpec srcKey
        return paramSet.writeBlob HksTag.key ({ keyBlobInfo with tag }.encode ++ encKey.val)
      else
        let srcKey ← env.decrypt derivedKey usageSpec keyBlobInfo.tag srcKey
        return paramSet.writeBlob HksTag.key (keyBlobInfo.encode ++ srcKey.val)

def encryptKeyBlob (aad : Bytes) (paramSet : HksParamSet) : Except HksErrorCode HksParamSet :=
  encryptAndDecryptKeyBlob env aad paramSet true

def decryptKeyBlob (aad : Bytes) (paramSet : HksParamSet) : Except HksErrorCode HksParamSet :=
  encryptAndDecryptKeyBlob env aad paramSet false

-- A key so long that the sum wraps around does not fit into memory next to its copy.
def initKeyBlobInfo (key : Bytes) : Except HksErrorCode Bytes := do
  if ¬mallocOk (key.length + hksKeyBlobInfoSize) then
    .error .mallocFail
  else
    let salt ← env.fillSalt
    let nonce ← env.fillNonce
    return HksKeyBlobInfo.encode ⟨salt, nonce, env.uninitialized, key.length.toUInt32⟩ ++ key

-- The params that follow those of the caller.
def coreServiceParams (keyInfo : Bytes) (keyFlag : UInt8) : List HksParam := [
  .ofUInt32 HksTag.keyVersion env.hksKeyVersion,
  .ofUInt32 HksTag.osVersion hksKeyBlobDummyOsVersion,
  .ofUInt32 HksTag.osPatchlevel hksKeyBlobDummyOsPatchlevel,
  .ofUInt32 HksTag.keyFlag keyFlag.toUInt32,
  .ofBytes HksTag.key keyInfo
]

def addCoreServiceParams (keyInfo : Bytes) (keyFlag : UInt8) (paramSet : HksParamSet) :
    Except HksErrorCode HksParamSet := do
  let tmpParam := coreServiceParams env keyInfo keyFlag
  hksCheckIsTagAlreadyExist (tmpParam.map HksParam.tag) paramSet
  hksAddParams paramSet tmpParam

def buildKeyBlobWithKeyParam (key : Bytes) (keyFlag : UInt8) (inParamSet : HksParamSet) :
    Except HksErrorCode HksParamSet := do
  let newParamSet ← hksAddParams hksInitParamSet inParamSet.entries
  let tmpKey ← initKeyBlobInfo env key
  let newParamSet ← addCoreServiceParams env tmpKey keyFlag newParamSet
  hksBuildParamSet newParamSet

-- Whether the blob of a param ends where the set ends.
def isLastBlob (paramSet : HksParamSet) (param : HksParam) : Bool :=
  match param.data with
  | .inSet offset => offset.toNat + param.blobSize.toNat = paramSet.paramSetSize.toNat
  | _             => false

def getAadAndParamSet (inData : ParamBlock) : Except HksErrorCode (Bytes × HksParamSet) := do
  if ¬mallocOk inData.size.toNat then
    .error .mallocFail
  else
    let keyBlobParamSet ← hksGetParamSet (inData.paramSet env.memory) inData.size
    let keyParam ← hksGetParam keyBlobParamSet HksTag.key
    if ¬isLastBlob keyBlobParamSet keyParam then
      .error .invalidArgument
    else
      let aadSize := keyBlobParamSet.paramSetSize - keyParam.blobSize
      return (inData.bytes.take aadSize.toNat, keyBlobParamSet)

def hksGenerateKeyNode (key : ParamBlock) : Option HksKeyNode :=
  if key.size > maxKeySize then
    none
  else
    let keyBlobParamSet := do
      let (aad, keyBlobParamSet) ← getAadAndParamSet env key
      decryptKeyBlob env aad keyBlobParamSet
    match keyBlobParamSet with
    | .error _     => none
    | .ok paramSet => some { paramSet }

-- The aad is the whole block without the blob of the key param.
def keyBlobAad (keyBlobParamSet : HksParamSet) (keyParam : HksParam) : Bytes :=
  (keyBlobParamSet.image env.addressOf env.padding).take
    (keyBlobParamSet.paramSetSize - keyParam.blobSize).toNat

-- `keyOutSize` is the size of the buffer for the key blob.
def hksBuildKeyBlob2 (keyBlobParamSet : HksParamSet) (keyOutSize : UInt32) :
    Except HksErrorCode Bytes := do
  let keyParam ← hksGetParam keyBlobParamSet HksTag.key
  let aad := keyBlobAad env keyBlobParamSet keyParam
  let keyBlobParamSet ← encryptKeyBlob env aad keyBlobParamSet
  if keyOutSize = 0 ∨ keyBlobParamSet.paramSetSize > keyOutSize then
    .error .bufferTooSmall
  else
    return keyBlobParamSet.image env.addressOf env.padding

def hksBuildKeyBlob (keyFlag : UInt8) (key : Bytes) (paramSet : HksParamSet) (keyOutSize : UInt32) :
    Except HksErrorCode Bytes := do
  let keyBlobParamSet ← buildKeyBlobWithKeyParam env key keyFlag paramSet
  hksBuildKeyBlob2 env keyBlobParamSet keyOutSize

end Huks
