import Huks.Ipc.ClientRequest

namespace Huks

def maxMallocLen : Nat := 1024 * 1024

def isInvalidLength (length : UInt32) : Bool := length = 0 ∨ length > maxOutBlobSize

-- A message as its handler unpacks it. Of the room for what is sent back there is the size, where
-- there is any.
inductive ServiceRequest
  | generateKey (keyAlias : Bytes) (paramSetIn : HksParamSet) (keyOutSize : UInt32)
  | importKey (keyAlias : Bytes) (paramSet : HksParamSet) (key : Bytes)
  | exportPublicKey (keyAlias : Bytes) (paramSet : Option HksParamSet) (keySize : Option UInt32)
  | importWrappedKey (keyAlias wrappingKeyAlias : Bytes) (paramSet : HksParamSet) (wrappedKeyData : Bytes)
  | deleteKey (keyAlias : Bytes) (paramSet : Option HksParamSet)
  | getKeyParamSet (keyAlias : Bytes) (paramSetIn : Option HksParamSet) (paramSetOutSize : Option UInt32)
  | keyExist (keyAlias : Bytes) (paramSet : Option HksParamSet)
  | generateRandom (randomSize : UInt32)
  | sign (keyAlias : Bytes) (paramSet : HksParamSet) (unsignedData : Bytes) (signatureSize : UInt32)
  | verify (keyAlias : Bytes) (paramSet : HksParamSet) (unsignedData signature : Bytes)
  | encrypt (keyAlias : Bytes) (paramSet : HksParamSet) (plainText : Bytes) (cipherTextSize : UInt32)
  | decrypt (keyAlias : Bytes) (paramSet : HksParamSet) (cipherText : Bytes) (plainTextSize : UInt32)
  | agreeKey (paramSet : HksParamSet) (privateKey peerPublicKey : Bytes) (agreedKeySize : UInt32)
  | deriveKey (paramSet : HksParamSet) (masterKey : Bytes) (derivedKeySize : UInt32)
  | mac (key : Bytes) (paramSet : HksParamSet) (inputData : Bytes) (macSize : UInt32)
  | getKeyInfoList (paramSet : Option HksParamSet) (inputCount : UInt32) (keyInfoList : Option (List KeyInfoRoom))
  | attestKey (keyAlias : Bytes) (paramSet : HksParamSet) (certChainSize : UInt32)
  | listAliases (paramSet : HksParamSet)
  | init (keyAlias : Bytes) (paramSet : HksParamSet) (outSize : UInt32)
  | update (handle : Bytes) (paramSet : HksParamSet) (inData : Bytes) (outSize : UInt32)
  | finish (handle : Bytes) (paramSet : HksParamSet) (inData : Bytes) (outSize : UInt32)
  | abort (handle : Bytes) (paramSet : HksParamSet)
  | exportChipsetPlatformPublicKey (salt : Bytes) (scene publicKeySize : UInt32)
  deriving DecidableEq

-- What a function returns, for a caller that does not pass a failure on.
def ReplyM.returned {α : Type} (x : ReplyM α) : ReplyM (Except HksErrorCode α) := ExceptT.lift x.run

-- The reading of a message. There is no outcome when a read is outside of it.
namespace ServiceIpc

variable (memory : UInt64 → BlobData) (srcData : Bytes)

-- The blob is a part of the message.
def getBlobFromBuffer (offset : UInt32) : ReplyM (Bytes × UInt32) := do
  let (blob, offset) ← Huks.getBlobFromBuffer srcData offset
  let bytes ← readReply srcData blob.offset.toNat blob.size.toNat
  return (bytes, offset)

-- The pointers of the param set are set in the message itself.
def getParamSetFromBuffer (offset : UInt32) : ReplyM (HksParamSet × UInt32) := do
  if offset > srcData.length.toUInt32 ∨ (srcData.length.toUInt32 - offset).toNat < HksParamSet.headerSize then
    throw .invalidArgument
  else
    let paramSetSize := le32 (← readReply srcData offset.toNat 4)
    if isAdditionOverflow paramSetSize defaultAlignMaskSize then
      throw .invalidArgument
    else if alignSize paramSetSize > srcData.length.toUInt32 - offset then
      throw .bufferTooSmall
    else
      let block ← readReply srcData offset.toNat paramSetSize.toNat
      match hksFreshParamSet ((ParamBlock.ofBuffer block).paramSet memory) false with
      | .error _     => throw .bufferTooSmall
      | .ok paramSet => return (paramSet, offset + alignSize paramSetSize)

def getKeyAndParamSetFromBuffer (offset : UInt32) : ReplyM (Bytes × HksParamSet × UInt32) := do
  let (keyAlias, offset) ← getBlobFromBuffer srcData offset
  let (paramSet, offset) ← getParamSetFromBuffer memory srcData offset
  return (keyAlias, paramSet, offset)

-- Memory of the size that is read, and where the reading goes on; it goes on after a failure as well.
def mallocFromBuffer (invalid : UInt32 → Bool) (offset : UInt32) :
    ReplyM (Except HksErrorCode UInt32 × UInt32) := do
  match ← (getUint32FromBuffer srcData offset).returned with
  | .error e            => return (.error e, offset)
  | .ok (size, offset') =>
    if invalid size then
      return (.error .invalidArgument, offset')
    else if ¬mallocOk size.toNat then
      return (.error .mallocFail, offset')
    else
      return (.ok size, offset')

def mallocBlobFromBuffer (offset : UInt32) : ReplyM (Except HksErrorCode UInt32 × UInt32) :=
  mallocFromBuffer srcData isInvalidLength offset

def mallocParamSetFromBuffer (offset : UInt32) : ReplyM (Except HksErrorCode UInt32 × UInt32) :=
  mallocFromBuffer srcData (fun size => isInvalidLength size ∨ size.toNat < HksParamSet.headerSize) offset

-- `MallocBlobFromBuffer` as the last step
def mallocLastBlob (offset : UInt32) : ReplyM UInt32 := do
  let (size, _) ← mallocBlobFromBuffer srcData offset
  MonadExcept.ofExcept size

-- A client may leave out the param set at the end.
def getLastParamSet (offset : UInt32) : ReplyM (Option HksParamSet) := do
  if offset = srcData.length.toUInt32 then
    return none
  else
    let (paramSet, _) ← getParamSetFromBuffer memory srcData offset
    return some paramSet

end ServiceIpc

open ServiceIpc

section Unpack

variable (memory : UInt64 → BlobData) (srcData : Bytes)

def hksGenerateKeyUnpack : ReplyM (Bytes × HksParamSet × UInt32) := do
  let (keyAlias, paramSetIn, offset) ← getKeyAndParamSetFromBuffer memory srcData 0
  let (keyOutSize, _) ← getUint32FromBuffer srcData offset
  if keyOutSize > maxOutBlobSize then
    throw .invalidArgument
  else if keyOutSize ≠ 0 ∧ ¬mallocOk keyOutSize.toNat then
    throw .mallocFail
  else
    return (keyAlias, paramSetIn, keyOutSize)

def hksImportKeyUnpack : ReplyM (Bytes × HksParamSet × Bytes) := do
  let (keyAlias, paramSet, offset) ← getKeyAndParamSetFromBuffer memory srcData 0
  let (key, _) ← ServiceIpc.getBlobFromBuffer srcData offset
  return (keyAlias, paramSet, key)

def hksImportWrappedKeyUnpack : ReplyM (Bytes × Bytes × HksParamSet × Bytes) := do
  let (keyAlias, offset) ← ServiceIpc.getBlobFromBuffer srcData 0
  let (wrappingKeyAlias, offset) ← ServiceIpc.getBlobFromBuffer srcData offset
  let (paramSet, offset) ← ServiceIpc.getParamSetFromBuffer memory srcData offset
  let (wrappedKeyData, _) ← ServiceIpc.getBlobFromBuffer srcData offset
  return (keyAlias, wrappingKeyAlias, paramSet, wrappedKeyData)

def hksDeleteKeyUnpack : ReplyM (Bytes × Option HksParamSet) := do
  let (keyAlias, offset) ← ServiceIpc.getBlobFromBuffer srcData 0
  let paramSet ← getLastParamSet memory srcData offset
  return (keyAlias, paramSet)

-- No memory for the key is no failure here.
def hksExportPublicKeyUnpack : ReplyM (Bytes × Option HksParamSet × Option UInt32) := do
  let (keyAlias, offset) ← ServiceIpc.getBlobFromBuffer srcData 0
  let (key, offset) ← mallocBlobFromBuffer srcData offset
  let paramSet ← getLastParamSet memory srcData offset
  return (keyAlias, paramSet, key.toOption)

-- Nor for the param set here
def hksGetKeyParamSetUnpack : ReplyM (Bytes × Option HksParamSet × Option UInt32) := do
  let (keyAlias, offset) ← ServiceIpc.getBlobFromBuffer srcData 0
  let (paramSetOut, offset) ← mallocParamSetFromBuffer srcData offset
  let paramSetIn ← getLastParamSet memory srcData offset
  return (keyAlias, paramSetIn, paramSetOut.toOption)

def hksKeyExistUnpack : ReplyM (Bytes × Option HksParamSet) := do
  let (keyAlias, offset) ← ServiceIpc.getBlobFromBuffer srcData 0
  let paramSet ← getLastParamSet memory srcData offset
  return (keyAlias, paramSet)

def signVerifyMacUnpack : ReplyM (Bytes × HksParamSet × Bytes × UInt32) := do
  let (key, paramSet, offset) ← getKeyAndParamSetFromBuffer memory srcData 0
  let (inputData, offset) ← ServiceIpc.getBlobFromBuffer srcData offset
  return (key, paramSet, inputData, offset)

def hksSignUnpack : ReplyM (Bytes × HksParamSet × Bytes × UInt32) := do
  let (key, paramSet, unsignedData, offset) ← signVerifyMacUnpack memory srcData
  let signatureSize ← mallocLastBlob srcData offset
  return (key, paramSet, unsignedData, signatureSize)

def hksVerifyUnpack : ReplyM (Bytes × HksParamSet × Bytes × Bytes) := do
  let (key, paramSet, unsignedData, offset) ← signVerifyMacUnpack memory srcData
  let (signature, _) ← ServiceIpc.getBlobFromBuffer srcData offset
  return (key, paramSet, unsignedData, signature)

def hksEncryptDecryptUnpack : ReplyM (Bytes × HksParamSet × Bytes × UInt32) := do
  let (key, paramSet, offset) ← getKeyAndParamSetFromBuffer memory srcData 0
  let (inputText, offset) ← ServiceIpc.getBlobFromBuffer srcData offset
  let outputTextSize ← mallocLastBlob srcData offset
  return (key, paramSet, inputText, outputTextSize)

def hksAgreeKeyUnpack : ReplyM (HksParamSet × Bytes × Bytes × UInt32) := do
  let (paramSet, offset) ← ServiceIpc.getParamSetFromBuffer memory srcData 0
  let (privateKey, offset) ← ServiceIpc.getBlobFromBuffer srcData offset
  let (peerPublicKey, offset) ← ServiceIpc.getBlobFromBuffer srcData offset
  let agreedKeySize ← mallocLastBlob srcData offset
  return (paramSet, privateKey, peerPublicKey, agreedKeySize)

def hksDeriveKeyUnpack : ReplyM (HksParamSet × Bytes × UInt32) := do
  let (paramSet, offset) ← ServiceIpc.getParamSetFromBuffer memory srcData 0
  let (kdfKey, offset) ← ServiceIpc.getBlobFromBuffer srcData offset
  let derivedKeySize ← mallocLastBlob srcData offset
  return (paramSet, kdfKey, derivedKeySize)

def hksHmacUnpack : ReplyM (Bytes × HksParamSet × Bytes × UInt32) := do
  let (key, paramSet, inputData, offset) ← signVerifyMacUnpack memory srcData
  let macSize ← mallocLastBlob srcData offset
  return (key, paramSet, inputData, macSize)

def keyInfoListInit (listCount : Nat) (offset : UInt32) :
    ReplyM (Except HksErrorCode (List KeyInfoRoom) × UInt32) :=
  match listCount with
  | 0             => return (.ok [], offset)
  | listCount + 1 => do
    let (aliasSize, offset) ← mallocBlobFromBuffer srcData offset
    match aliasSize with
    | .error e      => return (.error e, offset)
    | .ok aliasSize =>
      let (paramSetSize, offset) ← mallocParamSetFromBuffer srcData offset
      match paramSetSize with
      | .error e         => return (.error e, offset)
      | .ok paramSetSize =>
        let (keyInfoList, offset) ← keyInfoListInit listCount offset
        return (keyInfoList.map (⟨aliasSize, paramSetSize⟩ :: ·), offset)

-- `sizeof(struct HksKeyInfo)` is 24. A list that could not be made is `NULL`, and the reading goes on.
def hksGetKeyInfoListUnpack : ReplyM (Option HksParamSet × UInt32 × Option (List KeyInfoRoom)) := do
  let (listCount, offset) ← getUint32FromBuffer srcData 0
  if listCount = 0 ∨ listCount.toNat > hksGetKeyListMaxCount then
    throw .insufficientMemory
  else if isInvalidLength (listCount * 24) then
    throw .insufficientMemory
  else if ¬mallocOk (listCount * 24).toNat then
    throw .mallocFail
  else
    let (keyInfoList, offset) ← keyInfoListInit srcData listCount.toNat offset
    let paramSet ← getLastParamSet memory srcData offset
    return (paramSet, listCount, keyInfoList.toOption)

def hksCertificateChainUnpack : ReplyM (Bytes × HksParamSet × UInt32) := do
  let (keyAlias, paramSet, offset) ← getKeyAndParamSetFromBuffer memory srcData 0
  let certChainSize ← mallocLastBlob srcData offset
  return (keyAlias, paramSet, certChainSize)

def hksListAliasesUnpack : ReplyM HksParamSet := do
  let (paramSet, _) ← ServiceIpc.getParamSetFromBuffer memory srcData 0
  return paramSet

-- The message of `HksIpcServiceGenerateRandom` is the size.
def generateRandomSize : ReplyM UInt32 := do
  if srcData.length.toUInt32 < 4 then
    throw .invalidArgument
  else
    let size := le32 (← readReply srcData 0 4)
    if isInvalidLength size then
      throw .invalidArgument
    else if ¬mallocOk size.toNat then
      throw .mallocFail
    else
      return size

end Unpack

-- The handlers of a session. The tags are those of blobs, but for the scene.
section ThreeStage

variable (memory : UInt64 → BlobData) (paramSetBlob : Bytes) (outSize : UInt32)

def hksIpcServiceInit : Except HksErrorCode ServiceRequest := do
  let paramSet ← getParamSetOf memory paramSetBlob
  match ← hksParamSetToParams paramSet [HksTag.param0Buffer, HksTag.param1Buffer] with
  | [.blob keyAlias, .blob paramsBlob] =>
    let inParamSet ← getParamSetOf memory paramsBlob
    return .init keyAlias inParamSet outSize
  | _ => throw .badState

def hksIpcServiceUpdOrFin (isUpdate : Bool) : Except HksErrorCode ServiceRequest := do
  let paramSet ← getParamSetOf memory paramSetBlob
  match ← hksParamSetToParams paramSet [HksTag.param0Buffer, HksTag.param1Buffer, HksTag.param2Buffer] with
  | [.blob paramsBlob, .blob handle, .blob inData] =>
    let inParamSet ← getParamSetOf memory paramsBlob
    if isUpdate then
      return .update handle inParamSet inData outSize
    else
      return .finish handle inParamSet inData outSize
  | _ => throw .badState

def hksIpcServiceAbort : Except HksErrorCode ServiceRequest := do
  let paramSet ← getParamSetOf memory paramSetBlob
  match ← hksParamSetToParams paramSet [HksTag.param0Buffer, HksTag.param1Buffer] with
  | [.blob paramsBlob, .blob handle] =>
    let inParamSet ← getParamSetOf memory paramsBlob
    return .abort handle inParamSet
  | _ => throw .badState

def hksIpcServiceExportChipsetPlatformPublicKey : Except HksErrorCode ServiceRequest := do
  let paramSet ← getParamSetOf memory paramSetBlob
  match ← hksParamSetToParams paramSet [HksTag.param0Buffer, HksTag.param1UInt32] with
  | [.blob salt, .uint32Param scene] => return .exportChipsetPlatformPublicKey salt scene outSize
  | _                                => throw .badState

end ThreeStage

section Dispatch

variable (memory : UInt64 → BlobData)

-- The two tables of handlers. A code without a handler is not answered.
def processMessage (code : HksIpcInterfaceCode) (outSize : UInt32) (srcData : Bytes) :
    ReplyM (Option ServiceRequest) := do
  match code with
  | .genKey =>
    let (keyAlias, paramSetIn, keyOutSize) ← hksGenerateKeyUnpack memory srcData
    return some (.generateKey keyAlias paramSetIn keyOutSize)
  | .importKey =>
    let (keyAlias, paramSet, key) ← hksImportKeyUnpack memory srcData
    return some (.importKey keyAlias paramSet key)
  | .exportPublicKey =>
    let (keyAlias, paramSet, keySize) ← hksExportPublicKeyUnpack memory srcData
    return some (.exportPublicKey keyAlias paramSet keySize)
  | .importWrappedKey =>
    let (keyAlias, wrappingKeyAlias, paramSet, wrappedKeyData) ← hksImportWrappedKeyUnpack memory srcData
    return some (.importWrappedKey keyAlias wrappingKeyAlias paramSet wrappedKeyData)
  | .deleteKey =>
    let (keyAlias, paramSet) ← hksDeleteKeyUnpack memory srcData
    return some (.deleteKey keyAlias paramSet)
  | .getKeyParamSet =>
    let (keyAlias, paramSetIn, paramSetOutSize) ← hksGetKeyParamSetUnpack memory srcData
    return some (.getKeyParamSet keyAlias paramSetIn paramSetOutSize)
  | .keyExist =>
    let (keyAlias, paramSet) ← hksKeyExistUnpack memory srcData
    return some (.keyExist keyAlias paramSet)
  | .generateRandom =>
    let randomSize ← generateRandomSize srcData
    return some (.generateRandom randomSize)
  | .sign =>
    let (keyAlias, paramSet, unsignedData, signatureSize) ← hksSignUnpack memory srcData
    return some (.sign keyAlias paramSet unsignedData signatureSize)
  | .verify =>
    let (keyAlias, paramSet, unsignedData, signature) ← hksVerifyUnpack memory srcData
    return some (.verify keyAlias paramSet unsignedData signature)
  | .encrypt =>
    let (keyAlias, paramSet, plainText, cipherTextSize) ← hksEncryptDecryptUnpack memory srcData
    return some (.encrypt keyAlias paramSet plainText cipherTextSize)
  | .decrypt =>
    let (keyAlias, paramSet, cipherText, plainTextSize) ← hksEncryptDecryptUnpack memory srcData
    return some (.decrypt keyAlias paramSet cipherText plainTextSize)
  | .agreeKey =>
    let (paramSet, privateKey, peerPublicKey, agreedKeySize) ← hksAgreeKeyUnpack memory srcData
    return some (.agreeKey paramSet privateKey peerPublicKey agreedKeySize)
  | .deriveKey =>
    let (paramSet, masterKey, derivedKeySize) ← hksDeriveKeyUnpack memory srcData
    return some (.deriveKey paramSet masterKey derivedKeySize)
  | .mac =>
    let (key, paramSet, inputData, macSize) ← hksHmacUnpack memory srcData
    return some (.mac key paramSet inputData macSize)
  | .getKeyInfoList =>
    let (paramSet, inputCount, keyInfoList) ← hksGetKeyInfoListUnpack memory srcData
    return some (.getKeyInfoList paramSet inputCount keyInfoList)
  | .listAliases =>
    let paramSet ← hksListAliasesUnpack memory srcData
    return some (.listAliases paramSet)
  | _ =>
    if outSize.toNat > maxMallocLen then
      throw .invalidArgument
    else
      match code with
      | .init   => MonadExcept.ofExcept (some <$> hksIpcServiceInit memory srcData outSize)
      | .update => MonadExcept.ofExcept (some <$> hksIpcServiceUpdOrFin memory srcData outSize true)
      | .finish => MonadExcept.ofExcept (some <$> hksIpcServiceUpdOrFin memory srcData outSize false)
      | .abort  => MonadExcept.ofExcept (some <$> hksIpcServiceAbort memory srcData)
      | .chipsetPlatformDecrypt =>
        MonadExcept.ofExcept (some <$> hksIpcServiceExportChipsetPlatformPublicKey memory srcData outSize)
      | _ => return none

def processAttestOrNormalMessage (code : HksIpcInterfaceCode) (outSize : UInt32) (srcData : Bytes) :
    ReplyM (Option ServiceRequest) := do
  if code = .attestKey ∨ code = .attestKeyAsyncReply then
    let (keyAlias, paramSet, certChainSize) ← hksCertificateChainUnpack memory srcData
    return some (.attestKey keyAlias paramSet certChainSize)
  else
    processMessage memory code outSize srcData

def processRemoteRequest (parcel : HksParcel) : ReplyM (Option ServiceRequest) :=
  let size := parcel.data.length.toUInt32
  if size = 0 ∨ size.toNat > maxMallocLen then
    throw .invalidArgument
  else
    processAttestOrNormalMessage memory parcel.code parcel.outSize parcel.data

end Dispatch

end Huks
