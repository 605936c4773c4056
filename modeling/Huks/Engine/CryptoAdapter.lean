import Huks.Engine.CryptoHal

namespace Huks

def hksKeyBlobInfoSize : Nat := 48
def hksAeTagLen        : UInt32 := 16
def maxKeySize         : UInt32 := 2048
def hksMaxProcessNameLen  : Nat := 50

def Bytes.size (bytes : Bytes) : UInt32 := bytes.length.toUInt32

structure HksKeySpec where
  algType : UInt32 := 0
  keyLen  : UInt32 := 0

-- A later entry overwrites what an earlier one with the same tag wrote.
def hksFillKeySpec (paramSet : HksParamSet) : HksKeySpec :=
  paramSet.params.foldl fill {}
where
  fill (spec : HksKeySpec) (p : HksParam) : HksKeySpec :=
    if p.tag = HksTag.algorithm then
      { spec with algType := p.uint32Param }
    else if p.tag = HksTag.keySize then
      { spec with keyLen := p.uint32Param }
    else
      spec

def hksFillUsageSpec (paramSet : HksParamSet) : HksUsageSpec :=
  paramSet.params.foldl fill {}
where
  fill (usageSpec : HksUsageSpec) (p : HksParam) : HksUsageSpec :=
    if p.tag = HksTag.algorithm then
      { usageSpec with algType := p.uint32Param }
    else if p.tag = HksTag.padding then
      { usageSpec with padding := p.uint32Param }
    else if p.tag = HksTag.digest then
      { usageSpec with digest := p.uint32Param }
    else if p.tag = HksTag.blockMode then
      { usageSpec with mode := p.uint32Param }
    else if p.tag = HksTag.purpose then
      { usageSpec with purpose := p.uint32Param }
    else if p.tag = HksTag.mgfDigest then
      { usageSpec with mgfDigest := p.uint32Param }
    else
      usageSpec

def hksFillKeyDerivationParam (paramSet : HksParamSet) : HksKeyDerivationParam :=
  paramSet.params.foldl fill {}
where
  fill (param : HksKeyDerivationParam) (p : HksParam) : HksKeyDerivationParam :=
    if p.tag = HksTag.digest then
      { param with digestAlg := p.uint32Param }
    else if p.tag = HksTag.salt then
      { param with salt := paramSet.blob p }
    else if p.tag = HksTag.info then
      { param with info := paramSet.blob p }
    else if p.tag = HksTag.iteration then
      { param with iterations := p.uint32Param }
    else
      param

def hksGetDigestLen (digest : UInt32) : Except HksErrorCode UInt32 :=
  if digest = HksKeyDigest.md5 then
    .ok 16
  else if digest = HksKeyDigest.sha1 then
    .ok 20
  else if digest = HksKeyDigest.sha224 then
    .ok 28
  else if digest = HksKeyDigest.sha256 then
    .ok 32
  else if digest = HksKeyDigest.sha384 then
    .ok 48
  else if digest = HksKeyDigest.sha512 then
    .ok 64
  else if digest = HksKeyDigest.sm3 then
    .ok 32
  else
    .error .invalidDigest

-- `(*isAes, *isAeMode)`
def hksCheckAesAeMode (paramSet : HksParamSet) : Except HksErrorCode (Bool × Bool) := do
  let alg ← (getUInt32 paramSet HksTag.algorithm).orError .checkGetAlgFail
  if alg ≠ HksKeyAlg.aes then
    return (false, false)
  let mode ← (getUInt32 paramSet HksTag.blockMode).orError .checkGetModeFail
  return (true, mode = HksCipherMode.ccm ∨ mode = HksCipherMode.gcm)

def hksFillAeadParam (paramSet : HksParamSet) (usageSpec : HksUsageSpec) :
    Except HksErrorCode HksUsageSpec := do
  let nonceParam ← hksGetParam paramSet HksTag.nonce
  let aad ← match hksGetParam paramSet HksTag.associatedData with
    | .error .paramNotExist => pure []
    | .error e              => .error e
    | .ok aadParam          => pure (paramSet.blob aadParam)
  return { usageSpec with iv := paramSet.blob nonceParam, aad := aad }

def hksFillIvParam (paramSet : HksParamSet) (usageSpec : HksUsageSpec) :
    Except HksErrorCode HksUsageSpec := do
  let ivParam ← hksGetParam paramSet HksTag.iv
  return { usageSpec with iv := paramSet.blob ivParam }

-- The input text that the callers pass has 32 bytes, enough for the tag of a decryption.
def hksBuildCipherUsageSpec (paramSet : HksParamSet) : Except HksErrorCode HksUsageSpec := do
  let (isAes, isAeMode) ← hksCheckAesAeMode paramSet
  let usageSpec := hksFillUsageSpec paramSet
  let usageSpec :=
    if usageSpec.algType = HksKeyAlg.rsa ∧ usageSpec.digest = HksKeyDigest.none then
      { usageSpec with digest := HksKeyDigest.sha1 }
    else
      usageSpec
  let alg ← getUInt32 paramSet HksTag.algorithm
  if alg = HksKeyAlg.sm4 ∨ alg = HksKeyAlg.tripleDes ∨ alg = HksKeyAlg.des then
    hksFillIvParam paramSet usageSpec
  else if ¬isAes then
    return usageSpec
  else if isAeMode then
    hksFillAeadParam paramSet usageSpec
  else
    hksFillIvParam paramSet usageSpec

-- The size of the tag that the encryption is to write behind the cipher text.
def hksGetEncryptAeTag (paramSet : HksParamSet) (inSize outSize : UInt32) :
    Except HksErrorCode UInt32 := do
  let (isAes, isAeMode) ← hksCheckAesAeMode paramSet
  if ¬isAes ∨ ¬isAeMode then
    return 0
  else if outSize < inSize + hksAeTagLen then
    .error .invalidArgument
  else
    return hksAeTagLen

def hksGetDecryptAeTag (runtimeParamSet : HksParamSet) : Except HksErrorCode Bytes := do
  match hksCheckAesAeMode runtimeParamSet with
  | .ok (true, true) =>
    let tagParam ← hksGetParam runtimeParamSet HksTag.aeTag
    return runtimeParamSet.blob tagParam
  | _ => .error .invalidArgument

def hksCheckKeyNeedStored (paramSet : HksParamSet) : Bool :=
  hasFlag HksTag.keyStorageFlag HksKeyStorageType.persistent ||
    hasFlag HksTag.deriveAgreeKeyStorageFlag HksKeyStorageType.onlyUsedInHuks
where
  hasFlag (tag flag : UInt32) : Bool :=
    match getUInt32 paramSet tag with
    | .ok storageFlag => storageFlag = flag
    | .error _        => false

def hksCheckKeyBlobParamSetEqualRuntimeParamSet (keyBlobParamSet runtimeParamSet : HksParamSet)
    (tag : UInt32) : Except HksErrorCode Unit :=
  match getUInt32 keyBlobParamSet tag, getUInt32 runtimeParamSet tag with
  | .error _, _   => .ok ()
  | .ok _, .error _ => .error .badState
  | .ok v, .ok w => if v ≠ w then .error .badState else .ok ()

def setRsaPssSaltLenType (paramSet : HksParamSet) (usageSpec : HksUsageSpec) : HksUsageSpec :=
  match getUInt32 paramSet HksTag.rsaPssSaltLenType with
  | .ok saltLenType => { usageSpec with pssSaltLenType := saltLenType }
  | .error _        => { usageSpec with pssSaltLenType := HksRsaPssSaltLenType.max }

def hksCheckNeedCache (alg digest : UInt32) : Bool :=
  alg = HksKeyAlg.ed25519 ∨ digest = HksKeyDigest.none

-- The raw key lies behind the header of the key param.
def hksGetRawKey (paramSet : HksParamSet) : Except HksErrorCode Bytes := do
  let keyParam ← hksGetParam paramSet HksTag.key
  let key := paramSet.blob keyParam
  if key.length ≤ hksKeyBlobInfoSize then
    .error .invalidKeyInfo
  else if key.length - hksKeyBlobInfoSize ≠ (le32 (key.drop 44)).toNat then
    .error .invalidKeyInfo
  else if mallocOk (key.length - hksKeyBlobInfoSize) then
    .ok (key.drop hksKeyBlobInfoSize)
  else
    .error .mallocFail

end Huks
