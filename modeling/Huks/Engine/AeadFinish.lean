import Huks.Crypto.AesAead

namespace Huks

open OutBuffer

-- The finish of an encryption, with the writes to the buffer of the caller.
namespace InPlace

section Finish

variable (keyBlobParamSet runtimeParamSet : HksParamSet)

-- `tagSize` bytes of the tag are in front of the nonce.
def appendNonceWhenNeeded (nonceLen : UInt32) (inData : Bytes) (tagSize : UInt32) : OutM HksErrorCode PUnit :=
  match hksGetParam runtimeParamSet HksTag.aesGcmNeedRegenerateNonce with
  | .error _            => return
  | .ok needAppendNonce =>
    if ¬needAppendNonce.boolParam then
      refuse .invalidArgument
    else do
      let nonceParam ← reading (checked ((hksGetParam runtimeParamSet HksTag.nonce).orError .checkGetNonceFail))
      if nonceParam.blobSize ≠ nonceLen then
        refuse .invalidArgument
      else if ← memcpyInto (inData.size.toNat + tagSize.toNat) nonceLen.toNat (runtimeParamSet.blob nonceParam) then
        let out ← get
        setSize (out.size + nonceParam.blobSize)
      else
        refuse .insufficientMemory

-- `encryptFinal` is what `HksCryptoHalEncryptFinal` does for the mode of the context.
def coreAesEncryptFinish {γ : Type} (encryptFinal : γ → Bytes → Nat → OutM HksErrorCode PUnit) (ctx : Option γ)
    (inData : Bytes) : OutM HksErrorCode PUnit := do
  let out ← get
  let tagSize ← reading (checked (hksGetEncryptAeTag runtimeParamSet inData.size out.size))
  reading (checked (hksCheckFinishOutSize true runtimeParamSet inData.size out.size))
  discard <| reading (checked (hksGetParam runtimeParamSet HksTag.cryptoCtx))
  match ctx with
  | none     => refuse .nullPointer
  | some ctx =>
    if needAppendNonce runtimeParamSet ∧ out.size < inData.size + hksAeTagLen + hksAesGcmNonceLen then
      refuse .invalidArgument
    else
      encryptFinal ctx inData inData.size.toNat
      appendNonceWhenNeeded runtimeParamSet hksAesGcmNonceLen inData tagSize
      let out ← get
      setSize (out.size + tagSize)

-- With too small a buffer for the nonce the loop is left while `ret` is still `HKS_SUCCESS`.
def coreAesCcmCipherFinish (ccm : CcmCipher) (inData : Bytes) : OutM HksErrorCode PUnit := do
  let out ← get
  reading (checked (hksCheckFinishOutSize true runtimeParamSet inData.size out.size))
  let usageSpec ← reading (checked (hksBuildCipherUsageSpec runtimeParamSet))
  let rawKey ← reading (checked (hksGetRawKey keyBlobParamSet))
  if needAppendNonce runtimeParamSet ∧ out.size < inData.size + hksAeTagLen + hksAesCcmNonceLen then
    return
  else if usageSpec.purpose = HksKeyPurpose.encrypt then
    let tagSize ← reading (checked (hksGetEncryptAeTag runtimeParamSet inData.size out.size))
    hksCryptoHalEncryptCcm ccm rawKey usageSpec inData inData.size.toNat
    appendNonceWhenNeeded runtimeParamSet hksAesCcmNonceLen inData tagSize
    let out ← get
    setSize (out.size + tagSize)
  else
    let tag ← reading (checked (hksGetDecryptAeTag runtimeParamSet))
    ccm.decrypt rawKey usageSpec inData tag

end Finish

-- The check of `CheckCachedDataMaxSize`
def checkCachedSize (cachedData inData : Bytes) (maxDataLen : UInt32) : Except HksErrorCode Unit :=
  if maxDataLen < cachedData.size then
    .error .invalidArgument
  else if inData.size > maxDataLen - cachedData.size then
    .error .exceedLimit
  else
    .ok ()

-- The context of an AEAD session: one of OpenSSL for GCM, all of the message so far for CCM
inductive AeadCtx
  | gcm (evp : Option EvpAead)
  | ccm (cachedData : Option Bytes)

def AeadCtx.mode : AeadCtx → UInt32
  | .gcm _ => HksCipherMode.gcm
  | .ccm _ => HksCipherMode.ccm

-- `CoreAesCipherFinish` of an encryption
def coreAesCipherFinish (keyBlobParamSet runtimeParamSet : HksParamSet) (ccm : CcmCipher) (ctx : AeadCtx)
    (inData : Bytes) : OutM HksErrorCode PUnit :=
  match ctx with
  | .gcm evp               => coreAesEncryptFinish runtimeParamSet opensslAesAeadEncryptFinalGCM evp inData
  | .ccm none              => refuse .badState
  | .ccm (some cachedData) => do
    reading (checked (checkCachedSize cachedData inData hksCipherCcmModeMaxDataLen))
    let tempInData ← reading (checked (getNewCachedData cachedData inData))
    coreAesCcmCipherFinish keyBlobParamSet runtimeParamSet ccm tempInData

end InPlace

end Huks
