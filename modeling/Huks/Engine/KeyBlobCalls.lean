import Huks.Engine.UpgradeKey
import Huks.Lib.StateError

namespace Huks

open EStateM

-- What `HksCryptoHalEncrypt` is called with for a key blob.
structure KeyBlobRequest where
  key       : FixedBytes 32
  usageSpec : HksUsageSpec
  message   : Bytes
  deriving DecidableEq

section Request

variable (env : KeyBlobEnv)

-- `EncryptKeyBlob` up to the call of `HksCryptoHalEncrypt`.
def encryptRequest (aad : Bytes) (paramSet : HksParamSet) : Except HksErrorCode KeyBlobRequest := do
  let keyParam ← hksGetParam paramSet HksTag.key
  if keyParam.blobSize.toNat ≤ hksKeyBlobInfoSize then
    .error .invalidKeyInfo
  else
    let blob := paramSet.blob keyParam
    let keyBlobInfo := HksKeyBlobInfo.decode blob
    if keyParam.blobSize.toNat - hksKeyBlobInfoSize ≠ keyBlobInfo.keySize.toNat then
      .error .invalidKeyInfo
    else
      let derivedKey ← getDeriveKey env paramSet keyBlobInfo
      return ⟨derivedKey, buildKeyBlobUsageSpec aad keyBlobInfo, blob.drop hksKeyBlobInfoSize⟩

-- `EncryptKeyBlob` from there on.
def encryptedParamSet (paramSet : HksParamSet) (request : KeyBlobRequest) :
    Except HksErrorCode HksParamSet := do
  let keyParam ← hksGetParam paramSet HksTag.key
  let (encKey, tag) ← env.encrypt request.key request.usageSpec request.message
  let keyBlobInfo := HksKeyBlobInfo.decode (paramSet.blob keyParam)
  return paramSet.writeBlob HksTag.key ({ keyBlobInfo with tag }.encode ++ encKey.val)

-- `HksBuildKeyBlob2` up to the call, and from there on.
def sealRequest (paramSet : HksParamSet) : Except HksErrorCode KeyBlobRequest := do
  let keyParam ← hksGetParam paramSet HksTag.key
  encryptRequest env (keyBlobAad env paramSet keyParam) paramSet

def sealedKeyBlob (paramSet : HksParamSet) (keyOutSize : UInt32) (request : KeyBlobRequest) :
    Except HksErrorCode Bytes := do
  let keyBlobParamSet ← encryptedParamSet env paramSet request
  if keyOutSize = 0 ∨ keyBlobParamSet.paramSetSize > keyOutSize then
    .error .bufferTooSmall
  else
    return keyBlobParamSet.image env.addressOf env.padding

-- What `HksUpgradeKey` gives to `HksBuildKeyBlob2`.
def upgradedParamSet (engine : EngineEnv) (oldKey : ParamBlock) (paramSet : HksParamSet) :
    WorldM HksParamSet := do
  match hksGenerateKeyNode env oldKey with
  | none         => throw .badState
  | some keyNode =>
    let oldKeyBlobParamSet ← MonadExcept.ofExcept
      (hksGetParamSet keyNode.paramSet keyNode.paramSet.paramSetSize)
    checkIsNeedToUpgradeKey env engine oldKeyBlobParamSet paramSet
    MonadExcept.ofExcept do
      let newKeyBlobParamSet ← constructNewKeyParamSet env oldKeyBlobParamSet paramSet
      hksGetParamSet newKeyBlobParamSet newKeyBlobParamSet.paramSetSize

end Request

inductive KeyBlobCall
  | build   (keyFlag : UInt8) (key : Bytes) (paramSet : HksParamSet) (keyOutSize : UInt32)
  | upgrade (engine : EngineEnv) (oldKey : ParamBlock) (paramSet : HksParamSet) (newKeySize : UInt32)

-- A call and its surroundings.
structure KeyBlobStep where
  env  : KeyBlobEnv
  call : KeyBlobCall

structure KeyBlobState where
  world : World
  seals : List KeyBlobRequest

namespace KeyBlobStep

variable (step : KeyBlobStep)

def exec : WorldM Bytes :=
  match step.call with
  | .build keyFlag key paramSet keyOutSize =>
    MonadExcept.ofExcept (hksBuildKeyBlob step.env keyFlag key paramSet keyOutSize)
  | .upgrade engine oldKey paramSet newKeySize =>
    hksUpgradeKey step.env engine oldKey paramSet newKeySize

-- The set with the key in the clear.
def paramSet : WorldM HksParamSet :=
  match step.call with
  | .build keyFlag key paramSet _        =>
    MonadExcept.ofExcept (buildKeyBlobWithKeyParam step.env key keyFlag paramSet)
  | .upgrade engine oldKey paramSet _    => upgradedParamSet step.env engine oldKey paramSet

def outSize : UInt32 :=
  match step.call with
  | .build _ _ _ keyOutSize   => keyOutSize
  | .upgrade _ _ _ newKeySize => newKeySize

-- What the call encrypts, if it gets that far, and how it leaves the world.
def next (s : KeyBlobState) : KeyBlobState where
  world := (step.exec.run s.world).final
  seals := s.seals ++
    match step.paramSet.run s.world with
    | .ok paramSet _ => (sealRequest step.env paramSet).toOption.toList
    | .error _ _     => []

end KeyBlobStep

def KeyBlobState.after (s : KeyBlobState) (steps : List KeyBlobStep) : KeyBlobState :=
  steps.foldl (fun s step => step.next s) s

end Huks
