import Huks.Engine.OneStage
import Huks.Service.ClientService

namespace Huks

def hksCheckParamSetValidity (paramSet : Option HksParamSet) : Except HksErrorCode Unit := do
  let paramSet ← paramSet.elim (.error .nullPointer) .ok
  (hksCheckParamSet paramSet paramSet.paramSetSize).orError .invalidArgument
  hksCheckParamSetTag paramSet

def checkProcessNameAndKeyAliasSize (processName keyAlias : Bytes) : Except HksErrorCode Unit := do
  if processName.length > hksMaxProcessNameLen then throw .invalidArgument
  if keyAlias.length > hksMaxKeyAliasLen then throw .invalidArgument

section Checks

variable (processName keyAlias : Bytes)

-- Of the data only the sizes count.
def hksCheckAllParams (paramSet : Option HksParamSet) (dataSize₁ dataSize₂ : UInt32) :
    Except HksErrorCode Unit := do
  if processName = [] ∨ keyAlias = [] ∨ dataSize₁ = 0 ∨ dataSize₂ = 0 then throw .invalidArgument
  hksCheckParamSetValidity paramSet
  checkProcessNameAndKeyAliasSize processName keyAlias

def hksCheckGenAndImportKeyParams (paramSetIn : Option HksParamSet) (keySize : UInt32) :
    Except HksErrorCode Unit := do
  if processName = [] ∨ keyAlias = [] ∨ keySize = 0 then throw .invalidArgument
  hksCheckParamSetValidity paramSetIn
  checkProcessNameAndKeyAliasSize processName keyAlias

def hksCheckDeriveKeyParams (paramSet : Option HksParamSet) (derivedKeySize : UInt32) :
    Except HksErrorCode Unit :=
  hksCheckGenAndImportKeyParams processName keyAlias paramSet derivedKeySize

-- Nobody looks at the param set of the caller.
def hksCheckExportPublicKeyParams (keySize : UInt32) : Except HksErrorCode Unit := do
  if processName = [] ∨ keyAlias = [] ∨ keySize = 0 then throw .invalidArgument
  checkProcessNameAndKeyAliasSize processName keyAlias

def hksCheckProcessNameAndKeyAlias : Except HksErrorCode Unit := do
  if processName = [] ∨ keyAlias = [] then throw .invalidArgument
  checkProcessNameAndKeyAliasSize processName keyAlias

def hksCheckGetKeyParamSetParams (paramSetOutSize : UInt32) : Except HksErrorCode Unit := do
  (hksCheckProcessNameAndKeyAlias processName keyAlias).orError .invalidArgument
  if paramSetOutSize = 0 then throw .invalidArgument

end Checks

-- The calls of the engine when the param set is `NULL`.
def OneStageCall.execWithoutParamSet (engine : EngineEnv) (key : Bytes) :
    OneStageCall → WorldM Bytes
  | exportPublicKey keyOutSize =>
    if key = [] ∨ keyOutSize = 0 then
      throw .invalidArgument
    else do
      discard <| OneStage.generateKeyNode engine key
      throw .badState
  | getKeyProperties => do
    discard <| OneStage.generateKeyNode engine key
    throw .badState
  | mac _ _ => throw .checkGetPurposeFail
  | _       => throw .checkGetAlgFail

section OneStage

variable (env : ServiceEnv) (ops : OneStageEnv)

def huksAccessOneStage (key : Bytes) (paramSet : Option HksParamSet) (call : OneStageCall) :
    ServiceM Bytes :=
  huksAccess <| liftM (n := EngineM) <|
    match paramSet with
    | none          => call.execWithoutParamSet env.engine key
    | some paramSet => call.exec env.engine ops key paramSet

def huksAccessOneStageBackup (processInfo : HksProcessInfo) (keyAlias : Bytes)
    (paramSet : Option HksParamSet) (call : OneStageCall) (e : HksErrorCode) : ServiceM Bytes := do
  if env.supportStorageBackup ∧ needsBackup e then
    let keyFromFile ← getKeyData env processInfo keyAlias paramSet .bakKey
    huksAccessOneStage env ops keyFromFile paramSet call
  else
    throw e

variable (processInfo : HksProcessInfo) (keyAlias : Bytes) (paramSet : Option HksParamSet)

-- What `HksServiceSign` and the others do behind their check.
def useKeyInService (check : Except HksErrorCode Unit) (call : OneStageCall) : ServiceM Bytes := do
  MonadExcept.ofExcept check
  let (keyFromFile, newParamSet) ← getKeyAndNewParamSet env processInfo keyAlias paramSet
  let ret ← EStateM.attempt do
    huksAccessOneStage env ops (← MonadExcept.ofExcept keyFromFile) newParamSet call
  match ret with
  | .ok out  => return out
  | .error e => huksAccessOneStageBackup env ops processInfo keyAlias newParamSet call e

def hksServiceSign (srcData : Bytes) (signatureSize : UInt32) : ServiceM Bytes :=
  useKeyInService env ops processInfo keyAlias paramSet
    (hksCheckAllParams processInfo.processName keyAlias paramSet srcData.size signatureSize)
    (.sign srcData signatureSize)

def hksServiceVerify (srcData signature : Bytes) : ServiceM Bytes :=
  useKeyInService env ops processInfo keyAlias paramSet
    (hksCheckAllParams processInfo.processName keyAlias paramSet srcData.size signature.size)
    (.verify srcData signature)

def hksServiceEncrypt (plainText : Bytes) (cipherTextSize : UInt32) : ServiceM Bytes :=
  useKeyInService env ops processInfo keyAlias paramSet
    (hksCheckAllParams processInfo.processName keyAlias paramSet plainText.size cipherTextSize)
    (.encrypt plainText cipherTextSize)

def hksServiceDecrypt (cipherText : Bytes) (plainTextSize : UInt32) : ServiceM Bytes :=
  useKeyInService env ops processInfo keyAlias paramSet
    (hksCheckAllParams processInfo.processName keyAlias paramSet cipherText.size plainTextSize)
    (.decrypt cipherText plainTextSize)

def hksServiceAgreeKey (peerPublicKey : Bytes) (agreedKeySize : UInt32) : ServiceM Bytes :=
  useKeyInService env ops processInfo keyAlias paramSet
    (hksCheckAllParams processInfo.processName keyAlias paramSet peerPublicKey.size agreedKeySize)
    (.agreeKey peerPublicKey agreedKeySize)

def hksServiceDeriveKey (derivedKeySize : UInt32) : ServiceM Bytes :=
  useKeyInService env ops processInfo keyAlias paramSet
    (hksCheckDeriveKeyParams processInfo.processName keyAlias paramSet derivedKeySize)
    (.deriveKey derivedKeySize)

def hksServiceMac (srcData : Bytes) (macSize : UInt32) : ServiceM Bytes :=
  useKeyInService env ops processInfo keyAlias paramSet
    (hksCheckAllParams processInfo.processName keyAlias paramSet srcData.size macSize)
    (.mac srcData macSize)

def hksServiceExportPublicKey (keySize : UInt32) : ServiceM Bytes :=
  useKeyInService env ops processInfo keyAlias paramSet
    (hksCheckExportPublicKeyParams processInfo.processName keyAlias keySize)
    (.exportPublicKey keySize)

-- Up to the engine's check of the key, behind which the service copies the param set out of it.
def hksServiceGetKeyParamSet (paramSetOutSize : UInt32) : ServiceM Unit :=
  discard <| useKeyInService env ops processInfo keyAlias paramSet
    (hksCheckGetKeyParamSetParams processInfo.processName keyAlias paramSetOutSize)
    .getKeyProperties

end OneStage

-- A call of a client that uses a key, without the key and the param set.
inductive KeyUse
  | sign (srcData : Bytes) (signatureSize : UInt32)
  | verify (srcData signature : Bytes)
  | encrypt (plainText : Bytes) (cipherTextSize : UInt32)
  | decrypt (cipherText : Bytes) (plainTextSize : UInt32)
  | agreeKey (peerPublicKey : Bytes) (agreedKeySize : UInt32)
  | deriveKey (derivedKeySize : UInt32)
  | mac (srcData : Bytes) (macSize : UInt32)
  | exportPublicKey (keySize : UInt32)
  | getKeyParamSet (paramSetOutSize : UInt32)
  | init (handleSize tokenSize : Nat)
  deriving DecidableEq, Repr

def KeyUse.exec (env : ServiceEnv) (ops : OneStageEnv) (processInfo : HksProcessInfo)
    (keyAlias : Bytes) (paramSet : Option HksParamSet) : KeyUse → ServiceM Unit
  | sign srcData signatureSize =>
    discard <| hksServiceSign env ops processInfo keyAlias paramSet srcData signatureSize
  | verify srcData signature =>
    discard <| hksServiceVerify env ops processInfo keyAlias paramSet srcData signature
  | encrypt plainText cipherTextSize =>
    discard <| hksServiceEncrypt env ops processInfo keyAlias paramSet plainText cipherTextSize
  | decrypt cipherText plainTextSize =>
    discard <| hksServiceDecrypt env ops processInfo keyAlias paramSet cipherText plainTextSize
  | agreeKey peerPublicKey agreedKeySize =>
    discard <| hksServiceAgreeKey env ops processInfo keyAlias paramSet peerPublicKey agreedKeySize
  | deriveKey derivedKeySize =>
    discard <| hksServiceDeriveKey env ops processInfo keyAlias paramSet derivedKeySize
  | mac srcData macSize =>
    discard <| hksServiceMac env ops processInfo keyAlias paramSet srcData macSize
  | exportPublicKey keySize =>
    discard <| hksServiceExportPublicKey env ops processInfo keyAlias paramSet keySize
  | getKeyParamSet paramSetOutSize =>
    hksServiceGetKeyParamSet env ops processInfo keyAlias paramSet paramSetOutSize
  | init handleSize tokenSize =>
    discard <| hksServiceInit env processInfo keyAlias paramSet handleSize tokenSize

end Huks
