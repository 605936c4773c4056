import Huks.Crypto.BlockCipher
import Huks.Engine.AeadFinish

namespace Huks

open OutBuffer

namespace InPlace

section BlockCipher

variable (runtimeParamSet : HksParamSet) (cipher : EvpCipher)

-- The context is the input that the cipher has been fed. `HksCryptoHalEncryptUpdate` and
-- `HksCryptoHalDecryptUpdate` refuse an empty message.
def coreCipherUpdate (ctx : Option Bytes) (inData : Bytes) : OutM HksErrorCode (Option Bytes) := do
  let out ← get
  if out.size = 0 then
    refuse .invalidArgument
  else if out.size < inData.size then
    refuse .bufferTooSmall
  else
    match ctx with
    | none     => refuse .nullPointer
    | some fed => do
      discard <| reading (checked (getUInt32 runtimeParamSet HksTag.purpose))
      if inData = [] then
        refuse .invalidArgument
      else
        let fed ← cipher.opensslBlockCipherUpdate fed inData
        return some fed

-- `CoreDesEncryptFinish`, `Core3DesEncryptFinish`, `CoreSm4EncryptFinish` and their counterparts
-- for decryption
def coreBlockCipherFinish (ctx : Option Bytes) (inData : Bytes) : OutM HksErrorCode PUnit := do
  let out ← get
  reading (checked (hksCheckFinishOutSize cipher.isEncrypt runtimeParamSet inData.size out.size))
  discard <| reading (checked (hksGetParam runtimeParamSet HksTag.cryptoCtx))
  match ctx with
  | none     => refuse .nullPointer
  | some fed => cipher.opensslBlockCipherHandleFinalThree fed inData

-- The tag of an AEAD mode is looked for first.
def coreAesDecryptFinish (ctx : Option Bytes) (inData : Bytes) : OutM HksErrorCode PUnit := do
  let (isAes, isAeMode) ← reading (checked (hksCheckAesAeMode runtimeParamSet))
  if isAes ∧ isAeMode then
    discard <| reading (checked (hksGetParam runtimeParamSet HksTag.aeTag))
    coreBlockCipherFinish runtimeParamSet cipher ctx inData
  else
    coreBlockCipherFinish runtimeParamSet cipher ctx inData

-- The finish of a block cipher that is not in an AEAD mode
def finishBlockCipher (alg : UInt32) (ctx : Option Bytes) (inData : Bytes) : OutM HksErrorCode PUnit :=
  if alg ≠ HksKeyAlg.aes then
    coreBlockCipherFinish runtimeParamSet cipher ctx inData
  else if cipher.isEncrypt then
    coreAesEncryptFinish runtimeParamSet (fun fed message _ => cipher.opensslBlockCipherHandleFinalThree fed message)
      ctx inData
  else
    coreAesDecryptFinish runtimeParamSet cipher ctx inData

end BlockCipher

end InPlace

end Huks
