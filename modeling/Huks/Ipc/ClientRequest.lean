import Huks.Ipc.ParamMessage
import Huks.Ipc.Serialization
import Huks.Service.OneStage

namespace Huks

def maxIpcBufSize  : Nat := 0x10000
def maxIpcRsvSize  : Nat := 0x400
def maxProcessSize : Nat := maxIpcBufSize - maxIpcRsvSize

def hksGetKeyListMaxCount : Nat := 2048
def minCertCount          : Nat := 3
def maxCertCount          : Nat := 4
def handleSize            : UInt32 := 8

inductive HksIpcInterfaceCode
  | genKey | importKey | exportPublicKey | importWrappedKey | deleteKey | getKeyParamSet | keyExist
  | generateRandom | sign | verify | encrypt | decrypt | agreeKey | deriveKey | mac | getKeyInfoList
  | attestKey | getCertificateChain | init | update | finish | abort | chipsetPlatformDecrypt
  | attestKeyAsyncReply | listAliases
  deriving DecidableEq, Repr

-- What `HksSendRequest` writes to the parcel: how much room there is for the reply, and `inBlob`.
structure HksParcel where
  code    : HksIpcInterfaceCode
  outSize : UInt32
  data    : Bytes
  deriving DecidableEq

-- The room for an element of a list of key infos
structure KeyInfoRoom where
  aliasSize    : UInt32
  paramSetSize : UInt32
  deriving DecidableEq

namespace ClientIpc

def copyUint32ToBuffer (value : UInt32) (dest : PackBuffer) : Except HksErrorCode PackBuffer :=
  if dest.offset > dest.size ∨ dest.size - dest.offset < 4 then
    .error .bufferTooSmall
  else
    .ok (((dest.memcpyS (toBytes32 value)).getD dest).advance 4)

def copyBlobToBuffer (blob : Blob) (dest : PackBuffer) : Except HksErrorCode PackBuffer :=
  if dest.offset > dest.size ∨ (dest.size - dest.offset).toNat < 4 + (alignSize blob.size).toNat then
    .error .bufferTooSmall
  else
    .ok (dest.putBlob blob)

end ClientIpc

-- The checks of the client. The sizes are added as `size_t`.
section Check

-- `CheckBlob` of each; a blob that is not `NULL` counts by its size.
def checkBlobs (sizes : List UInt32) : Except HksErrorCode Unit :=
  if sizes.any (· = 0) then .error .invalidArgument else .ok ()

def hksCheckBlobAndParamSet (data : UInt32) (paramSet : HksParamSet) : Except HksErrorCode Unit := do
  checkBlobs [data]
  hksCheckParamSetValidity paramSet

def hksCheckBlob2AndParamSet (data1 data2 : UInt32) (paramSet : HksParamSet) : Except HksErrorCode Unit := do
  checkBlobs [data1, data2]
  hksCheckParamSetValidity paramSet

def hksCheckBlob3AndParamSet (data1 data2 data3 : UInt32) (paramSet : HksParamSet) :
    Except HksErrorCode Unit := do
  checkBlobs [data1, data2, data3]
  hksCheckParamSetValidity paramSet

-- No blob and not the message is larger than `MAX_PROCESS_SIZE`.
def checkProcessSize (blobs : List Blob) (size : Nat) : Except HksErrorCode Unit :=
  if blobs.any (maxProcessSize < ·.size.toNat) ∨ maxProcessSize < size then
    .error .invalidArgument
  else
    .ok ()

-- `sizeof(blob->size) + ALIGN_SIZE(blob->size)`
def Blob.room (blob : Blob) : Nat := 4 + (alignSize blob.size).toNat

-- `ALIGN_SIZE(paramSet->paramSetSize)`
def HksParamSet.room (paramSet : HksParamSet) : Nat := (alignSize paramSet.paramSetSize).toNat

def hksCheckIpcGenerateKey (keyAlias : Blob) (paramSetIn : HksParamSet) : Except HksErrorCode Unit := do
  hksCheckBlobAndParamSet keyAlias.size paramSetIn
  checkProcessSize [keyAlias] (keyAlias.room + paramSetIn.room + 4)

def hksCheckIpcImportKey (keyAlias : Blob) (paramSet : HksParamSet) (key : Blob) :
    Except HksErrorCode Unit := do
  hksCheckBlob2AndParamSet keyAlias.size key.size paramSet
  checkProcessSize [keyAlias, key] (keyAlias.room + paramSet.room + key.room)

def hksCheckIpcImportWrappedKey (keyAlias wrappingKeyAlias : Blob) (paramSet : HksParamSet)
    (wrappedKeyData : Blob) : Except HksErrorCode Unit := do
  hksCheckBlob3AndParamSet keyAlias.size wrappingKeyAlias.size wrappedKeyData.size paramSet
  checkProcessSize [keyAlias, wrappingKeyAlias, wrappedKeyData]
    (keyAlias.room + wrappingKeyAlias.room + paramSet.room + wrappedKeyData.room)

def hksCheckIpcDeleteKey (keyAlias : Blob) (paramSet : HksParamSet) : Except HksErrorCode Unit := do
  hksCheckBlobAndParamSet keyAlias.size paramSet
  checkProcessSize [keyAlias] (keyAlias.room + paramSet.room)

def hksCheckIpcExportPublicKey (keyAlias : Blob) (paramSet : HksParamSet) (keySize : UInt32) :
    Except HksErrorCode Unit := do
  hksCheckBlob2AndParamSet keyAlias.size keySize paramSet
  checkProcessSize [keyAlias] (keyAlias.room + 4 + paramSet.room)

def hksCheckIpcGetKeyParamSet (keyAlias : Blob) (paramSetIn : HksParamSet) (paramSetOutSize : UInt32) :
    Except HksErrorCode Unit := do
  hksCheckBlobAndParamSet keyAlias.size paramSetIn
  checkBlobs [paramSetOutSize]
  checkProcessSize [keyAlias] (keyAlias.room + 4 + paramSetIn.room)

def hksCheckIpcKeyExist (keyAlias : Blob) (paramSet : HksParamSet) : Except HksErrorCode Unit :=
  hksCheckIpcDeleteKey keyAlias paramSet

def hksCheckIpcAgreeKey (paramSet : HksParamSet) (privateKey peerPublicKey : Blob) (agreedKeySize : UInt32) :
    Except HksErrorCode Unit := do
  hksCheckBlob3AndParamSet privateKey.size peerPublicKey.size agreedKeySize paramSet
  checkProcessSize [privateKey, peerPublicKey] (paramSet.room + privateKey.room + peerPublicKey.room + 4)

def hksCheckIpcDeriveKey (paramSet : HksParamSet) (mainKey : Blob) (derivedKeySize : UInt32) :
    Except HksErrorCode Unit := do
  hksCheckBlob2AndParamSet mainKey.size derivedKeySize paramSet
  checkProcessSize [mainKey] (paramSet.room + mainKey.room + 4)

-- The sum of the sizes of a reply, if it does not wrap around.
def addOutSize (size n : UInt32) : Except HksErrorCode UInt32 :=
  if isAdditionOverflow size n then .error .invalidArgument else .ok (size + n)

def addAlignedOutSize (size n : UInt32) : Except HksErrorCode UInt32 :=
  if isAdditionOverflow n defaultAlignMaskSize then .error .invalidArgument else addOutSize size (alignSize n)

-- `MAX_PROCESS_SIZE - ALIGN_SIZE(..)` is a `uint32_t`, and what is taken off it then a `size_t`.
def hksCheckIpcGetKeyInfoList (keyInfoList : List KeyInfoRoom) (paramSet : HksParamSet)
    (listCount : UInt32) : Except HksErrorCode Unit := do
  (hksCheckParamSet paramSet paramSet.paramSetSize).orError .invalidArgument
  if listCount = 0 ∨ listCount.toNat > hksGetKeyListMaxCount then throw .invalidArgument
  if listCount.toUInt64 > ((maxProcessSize.toUInt32 - alignSize paramSet.paramSetSize).toUInt64 - 4) / 8 then
    throw .invalidArgument
  if keyInfoList.any fun keyInfo => keyInfo.aliasSize = 0 ∨ keyInfo.paramSetSize = 0 then
    throw .invalidArgument
  discard <| keyInfoList.foldlM (fun size keyInfo => do
    let size ← addOutSize size 4
    let size ← addAlignedOutSize size keyInfo.aliasSize
    addAlignedOutSize size keyInfo.paramSetSize) 4

def hksCheckIpcCertificateChain (keyAlias : Blob) (paramSet : HksParamSet) (certs : List UInt32) :
    Except HksErrorCode Unit := do
  if certs.length < minCertCount ∨ certs.length > maxCertCount then throw .invalidArgument
  (hksCheckParamSet paramSet paramSet.paramSetSize).orError .invalidArgument
  checkProcessSize [keyAlias] (keyAlias.room + paramSet.room)
  discard <| certs.foldlM (fun size cert => do
    let size ← addOutSize size 4
    addAlignedOutSize size cert) 4

def hksCheckIpcListAliases (paramSet : HksParamSet) : Except HksErrorCode Unit := do
  (hksCheckParamSet paramSet paramSet.paramSetSize).orError .invalidArgument
  checkProcessSize [] paramSet.room

end Check

-- A param set as the client sends it, built anew or from nothing.
def buildParamSetNotNull (paramSetIn : Option HksParamSet) : Except HksErrorCode HksParamSet :=
  match paramSetIn with
  | none            => hksBuildParamSet hksInitParamSet
  | some paramSetIn => do
    hksCheckParamSet paramSetIn paramSetIn.paramSetSize
    let tmpParamSet ← hksAddParams hksInitParamSet paramSetIn.entries
    hksBuildParamSet tmpParamSet

def addAeTag (paramSet : HksParamSet) (inText : Blob) (isEncrypt : Bool) : Except HksErrorCode HksParamSet := do
  let paramSet ← if isEncrypt then
      pure paramSet
    else if inText.size ≤ hksAeTagLen then
      throw .invalidArgument
    else
      hksAddParams paramSet
        [.ofBytes HksTag.aeTag (slice inText.val (inText.size - hksAeTagLen).toNat hksAeTagLen.toNat)]
  hksAddParams paramSet [.ofUInt32 HksTag.payloadLen inText.size]

def addAesTag (paramSet newParamSet : HksParamSet) (inText : Blob) (isEncrypt : Bool) :
    Except HksErrorCode HksParamSet := do
  let (isAes, isAeMode) ← hksCheckAesAeMode paramSet
  if ¬isAes ∨ ¬isAeMode then
    return newParamSet
  else
    addAeTag newParamSet inText isEncrypt

def appendCipherTag (paramSet : HksParamSet) (inText : Blob) (isEncrypt : Bool) :
    Except HksErrorCode HksParamSet := do
  let newParamSet ← hksAddParams hksInitParamSet paramSet.entries
  let newParamSet ← addAesTag paramSet newParamSet inText isEncrypt
  hksBuildParamSet newParamSet

-- The messages of the client. `addressOf` and `padding` are what stands in the pointers and between
-- the members of the param set that is copied.
section Pack

variable (addressOf : BlobData → UInt64) (padding : Nat → UInt32)

def hksGenerateKeyPack (destData : Bytes) (keyAlias : Blob) (paramSetIn : HksParamSet) (keyOutSize : UInt32) :
    Except HksErrorCode PackBuffer := do
  let dest ← ClientIpc.copyBlobToBuffer keyAlias ⟨destData, 0⟩
  let dest ← copyParamSetToBuffer addressOf padding paramSetIn dest
  ClientIpc.copyUint32ToBuffer keyOutSize dest

def hksImportKeyPack (destData : Bytes) (keyAlias : Blob) (paramSet : HksParamSet) (key : Blob) :
    Except HksErrorCode PackBuffer := do
  let dest ← ClientIpc.copyBlobToBuffer keyAlias ⟨destData, 0⟩
  let dest ← copyParamSetToBuffer addressOf padding paramSet dest
  ClientIpc.copyBlobToBuffer key dest

def hksImportWrappedKeyPack (destData : Bytes) (keyAlias wrappingKeyAlias : Blob) (paramSet : HksParamSet)
    (wrappedKeyData : Blob) : Except HksErrorCode PackBuffer := do
  let dest ← ClientIpc.copyBlobToBuffer keyAlias ⟨destData, 0⟩
  let dest ← ClientIpc.copyBlobToBuffer wrappingKeyAlias dest
  let dest ← copyParamSetToBuffer addressOf padding paramSet dest
  ClientIpc.copyBlobToBuffer wrappedKeyData dest

def hksDeleteKeyPack (keyAlias : Blob) (paramSet : HksParamSet) (destData : Bytes) :
    Except HksErrorCode PackBuffer := do
  let dest ← ClientIpc.copyBlobToBuffer keyAlias ⟨destData, 0⟩
  copyParamSetToBuffer addressOf padding paramSet dest

def hksExportPublicKeyPack (keyAlias : Blob) (paramSet : HksParamSet) (keySize : UInt32) (destData : Bytes) :
    Except HksErrorCode PackBuffer := do
  let dest ← ClientIpc.copyBlobToBuffer keyAlias ⟨destData, 0⟩
  let dest ← ClientIpc.copyUint32ToBuffer keySize dest
  copyParamSetToBuffer addressOf padding paramSet dest

def hksGetKeyParamSetPack (keyAlias : Blob) (paramSet : HksParamSet) (keyOutSize : UInt32) (destData : Bytes) :
    Except HksErrorCode PackBuffer := do
  let dest ← ClientIpc.copyBlobToBuffer keyAlias ⟨destData, 0⟩
  let dest ← ClientIpc.copyUint32ToBuffer keyOutSize dest
  copyParamSetToBuffer addressOf padding paramSet dest

def hksKeyExistPack (keyAlias : Blob) (paramSet : HksParamSet) (destData : Bytes) :
    Except HksErrorCode PackBuffer := do
  let dest ← ClientIpc.copyBlobToBuffer keyAlias ⟨destData, 0⟩
  copyParamSetToBuffer addressOf padding paramSet dest

def hksOnceParamPack (key : Blob) (paramSet : HksParamSet) (dest : PackBuffer) :
    Except HksErrorCode PackBuffer := do
  let dest ← ClientIpc.copyBlobToBuffer key dest
  copyParamSetToBuffer addressOf padding paramSet dest

def hksOnceDataPack (inputData : Blob) (rsvData : Option Blob) (outputDataSize : Option UInt32)
    (dest : PackBuffer) : Except HksErrorCode PackBuffer := do
  let dest ← ClientIpc.copyBlobToBuffer inputData dest
  let dest ← match rsvData with
    | some rsvData => ClientIpc.copyBlobToBuffer rsvData dest
    | none         => pure dest
  match outputDataSize with
  | some outputDataSize => ClientIpc.copyUint32ToBuffer outputDataSize dest
  | none                => return dest

def hksAgreeKeyPack (destData : Bytes) (paramSet : HksParamSet) (privateKey peerPublicKey : Blob)
    (agreedKeySize : UInt32) : Except HksErrorCode PackBuffer := do
  let dest ← copyParamSetToBuffer addressOf padding paramSet ⟨destData, 0⟩
  let dest ← ClientIpc.copyBlobToBuffer privateKey dest
  let dest ← ClientIpc.copyBlobToBuffer peerPublicKey dest
  ClientIpc.copyUint32ToBuffer agreedKeySize dest

def hksDeriveKeyPack (destData : Bytes) (paramSet : HksParamSet) (kdfKey : Blob) (derivedKeySize : UInt32) :
    Except HksErrorCode PackBuffer := do
  let dest ← copyParamSetToBuffer addressOf padding paramSet ⟨destData, 0⟩
  let dest ← ClientIpc.copyBlobToBuffer kdfKey dest
  ClientIpc.copyUint32ToBuffer derivedKeySize dest

def hksGetKeyInfoListPack (paramSet : HksParamSet) (keyInfoList : List KeyInfoRoom) (destData : Bytes)
    (listCount : UInt32) : Except HksErrorCode PackBuffer := do
  let dest ← ClientIpc.copyUint32ToBuffer listCount ⟨destData, 0⟩
  let dest ← keyInfoList.foldlM (fun dest keyInfo => do
    let dest ← ClientIpc.copyUint32ToBuffer keyInfo.aliasSize dest
    ClientIpc.copyUint32ToBuffer keyInfo.paramSetSize dest) dest
  copyParamSetToBuffer addressOf padding paramSet dest

def hksCertificateChainPack (destData : Bytes) (keyAlias : Blob) (paramSet : HksParamSet)
    (certChainSize : UInt32) : Except HksErrorCode PackBuffer := do
  let dest ← ClientIpc.copyBlobToBuffer keyAlias ⟨destData, 0⟩
  let dest ← copyParamSetToBuffer addressOf padding paramSet dest
  ClientIpc.copyUint32ToBuffer certChainSize dest

def hksListAliasesPack (srcParamSet : HksParamSet) (destData : Bytes) : Except HksErrorCode PackBuffer :=
  copyParamSetToBuffer addressOf padding srcParamSet ⟨destData, 0⟩

-- `inBlob` is made and packed, and goes with the request.
def sendPacked (code : HksIpcInterfaceCode) (size outSize : UInt32)
    (pack : Bytes → Except HksErrorCode PackBuffer) : Except HksErrorCode HksParcel :=
  if ¬mallocOk size.toNat then
    .error .mallocFail
  else do
    let inBlob ← pack (.replicate size.toNat 0)
    return ⟨code, outSize, inBlob.data⟩

def hksClientGenerateKey (keyAlias : Blob) (paramSetIn : HksParamSet) (paramSetOutSize : UInt32) :
    Except HksErrorCode HksParcel := do
  hksCheckIpcGenerateKey keyAlias paramSetIn
  let size := 4 + alignSize keyAlias.size + alignSize paramSetIn.paramSetSize + 4
  sendPacked .genKey size paramSetOutSize fun inBlob =>
    hksGenerateKeyPack addressOf padding inBlob keyAlias paramSetIn paramSetOutSize

def hksClientImportKey (keyAlias : Blob) (paramSet : HksParamSet) (key : Blob) :
    Except HksErrorCode HksParcel := do
  hksCheckIpcImportKey keyAlias paramSet key
  let size := 4 + alignSize keyAlias.size + alignSize paramSet.paramSetSize + 4 + alignSize key.size
  sendPacked .importKey size 0 fun inBlob => hksImportKeyPack addressOf padding inBlob keyAlias paramSet key

def hksClientExportPublicKey (keyAlias : Blob) (paramSet : Option HksParamSet) (keySize : UInt32) :
    Except HksErrorCode HksParcel := do
  let newParamSet ← buildParamSetNotNull paramSet
  hksCheckIpcExportPublicKey keyAlias newParamSet keySize
  let size := 4 + alignSize keyAlias.size + 4 + alignSize newParamSet.paramSetSize
  sendPacked .exportPublicKey size keySize fun inBlob =>
    hksExportPublicKeyPack addressOf padding keyAlias newParamSet keySize inBlob

def hksClientImportWrappedKey (keyAlias wrappingKeyAlias : Blob) (paramSet : HksParamSet)
    (wrappedKeyData : Blob) : Except HksErrorCode HksParcel := do
  hksCheckIpcImportWrappedKey keyAlias wrappingKeyAlias paramSet wrappedKeyData
  let size := 4 + alignSize keyAlias.size + 4 + alignSize wrappingKeyAlias.size +
    alignSize paramSet.paramSetSize + 4 + alignSize wrappedKeyData.size
  sendPacked .importWrappedKey size 0 fun inBlob =>
    hksImportWrappedKeyPack addressOf padding inBlob keyAlias wrappingKeyAlias paramSet wrappedKeyData

def hksClientDeleteKey (keyAlias : Blob) (paramSet : Option HksParamSet) : Except HksErrorCode HksParcel := do
  let newParamSet ← buildParamSetNotNull paramSet
  hksCheckIpcDeleteKey keyAlias newParamSet
  let size := 4 + alignSize keyAlias.size + alignSize newParamSet.paramSetSize
  sendPacked .deleteKey size 0 fun inBlob => hksDeleteKeyPack addressOf padding keyAlias newParamSet inBlob

def hksClientGetKeyParamSet (keyAlias : Blob) (paramSetIn : Option HksParamSet) (paramSetOutSize : UInt32) :
    Except HksErrorCode HksParcel := do
  let newParamSet ← buildParamSetNotNull paramSetIn
  hksCheckIpcGetKeyParamSet keyAlias newParamSet paramSetOutSize
  let size := 4 + alignSize keyAlias.size + 4 + alignSize newParamSet.paramSetSize
  sendPacked .getKeyParamSet size paramSetOutSize fun inBlob =>
    hksGetKeyParamSetPack addressOf padding keyAlias newParamSet paramSetOutSize inBlob

def hksClientKeyExist (keyAlias : Blob) (paramSet : Option HksParamSet) : Except HksErrorCode HksParcel := do
  let newParamSet ← buildParamSetNotNull paramSet
  hksCheckIpcKeyExist keyAlias newParamSet
  let size := 4 + alignSize keyAlias.size + alignSize newParamSet.paramSetSize
  sendPacked .keyExist size 0 fun inBlob => hksKeyExistPack addressOf padding keyAlias newParamSet inBlob

def hksClientGenerateRandom (randomSize : UInt32) : Except HksErrorCode HksParcel := do
  checkBlobs [randomSize]
  return ⟨.generateRandom, randomSize, toBytes32 randomSize⟩

def hksClientAgreeKey (paramSet : HksParamSet) (privateKey peerPublicKey : Blob) (agreedKeySize : UInt32) :
    Except HksErrorCode HksParcel := do
  hksCheckIpcAgreeKey paramSet privateKey peerPublicKey agreedKeySize
  let size := alignSize paramSet.paramSetSize + 4 + alignSize privateKey.size + 4 +
    alignSize peerPublicKey.size + 4
  sendPacked .agreeKey size agreedKeySize fun inBlob =>
    hksAgreeKeyPack addressOf padding inBlob paramSet privateKey peerPublicKey agreedKeySize

def hksClientDeriveKey (paramSet : HksParamSet) (mainKey : Blob) (derivedKeySize : UInt32) :
    Except HksErrorCode HksParcel := do
  hksCheckIpcDeriveKey paramSet mainKey derivedKeySize
  let size := alignSize paramSet.paramSetSize + 4 + alignSize mainKey.size + 4
  sendPacked .deriveKey size derivedKeySize fun inBlob =>
    hksDeriveKeyPack addressOf padding inBlob paramSet mainKey derivedKeySize

def hksClientGetKeyInfoList (paramSet : Option HksParamSet) (keyInfoList : List KeyInfoRoom) :
    Except HksErrorCode HksParcel := do
  let newParamSet ← buildParamSetNotNull paramSet
  let listCount := keyInfoList.length.toUInt32
  hksCheckIpcGetKeyInfoList keyInfoList newParamSet listCount
  let size := 4 + 8 * listCount + alignSize newParamSet.paramSetSize
  let outSize := keyInfoList.foldl (fun size keyInfo =>
    size + (4 + alignSize keyInfo.aliasSize + alignSize keyInfo.paramSetSize)) 4
  if ¬mallocOk outSize.toNat then
    throw .mallocFail
  else
    sendPacked .getKeyInfoList size outSize fun inBlob =>
      hksGetKeyInfoListPack addressOf padding newParamSet keyInfoList inBlob listCount

-- `needAnonCertChain` is only a matter of the code.
def hksClientAttestKey (keyAlias : Blob) (paramSet : HksParamSet) (certs : List UInt32)
    (needAnonCertChain : Bool) : Except HksErrorCode HksParcel := do
  hksCheckIpcCertificateChain keyAlias paramSet certs
  let certBufSize := certs.foldl (fun size cert => size + (4 + alignSize cert)) 4
  let size := 4 + alignSize keyAlias.size + alignSize paramSet.paramSetSize + 4
  if ¬mallocOk certBufSize.toNat then
    throw .mallocFail
  else
    let code := if needAnonCertChain then .attestKeyAsyncReply else .attestKey
    sendPacked code size certBufSize fun inBlob =>
      hksCertificateChainPack addressOf padding inBlob keyAlias paramSet certBufSize

def hksClientListAliases (paramSet : HksParamSet) : Except HksErrorCode HksParcel := do
  hksCheckIpcListAliases paramSet
  sendPacked .listAliases (alignSize paramSet.paramSetSize) listAliasesOutSize.toUInt32 fun inBlob =>
    hksListAliasesPack addressOf padding paramSet inBlob

end Pack

-- The requests with a piece of data, which go in one message.
section Slice

variable (addressOf : BlobData → UInt64) (padding : Nat → UInt32)

def isSliceCmd (cmdId : HksIpcInterfaceCode) : Bool :=
  cmdId = .sign ∨ cmdId = .verify ∨ cmdId = .encrypt ∨ cmdId = .decrypt ∨ cmdId = .mac

def getBlobBufSize (size : UInt32) : Except HksErrorCode UInt32 :=
  if isAdditionOverflow size defaultAlignMaskSize then
    .error .invalidArgument
  else if isAdditionOverflow (alignSize size) 4 then
    .error .invalidArgument
  else
    .ok (alignSize size + 4)

def getParamSize (key : Blob) (paramSet : HksParamSet) : Except HksErrorCode UInt32 :=
  if key.size.toNat > maxProcessSize ∨ paramSet.paramSetSize.toNat > maxProcessSize then
    .error .invalidArgument
  else
    .ok (alignSize key.size + 4 + alignSize paramSet.paramSetSize)

def getDataSize (cmdId : HksIpcInterfaceCode) (inData outData : Blob) : Except HksErrorCode UInt32 := do
  let inBuffData ← getBlobBufSize inData.size
  let bufOutDataSize ← if cmdId = .verify then getBlobBufSize outData.size else pure 4
  addOutSize inBuffData bufOutDataSize

-- Of `outData` only a signature to verify is sent.
def processDataOnce (cmdId : HksIpcInterfaceCode) (key : Blob) (paramSet : HksParamSet)
    (inData outData : Blob) : Except HksErrorCode HksParcel := do
  let paramBufSize ← getParamSize key paramSet
  let dataBufSize ← getDataSize cmdId inData outData
  let outSize := if cmdId = .verify then 0 else outData.size
  sendPacked cmdId (paramBufSize + dataBufSize) outSize fun buffer => do
    let ipcBlob ← hksOnceParamPack addressOf padding key paramSet ⟨buffer, 0⟩
    if cmdId = .verify then
      hksOnceDataPack inData outData none ipcBlob
    else
      hksOnceDataPack inData none outData.size ipcBlob

def hksSliceDataEntry (cmdId : HksIpcInterfaceCode) (key : Blob) (paramSet : HksParamSet)
    (inData outData : Blob) : Except HksErrorCode HksParcel := do
  if ¬isSliceCmd cmdId then
    throw .invalidArgument
  else
    let paramBufSize ← getParamSize key paramSet
    let dataBufSize ← getDataSize cmdId inData outData
    let totalBufSize ← addOutSize paramBufSize dataBufSize
    if totalBufSize.toNat ≤ maxProcessSize then
      processDataOnce addressOf padding cmdId key paramSet inData outData
    else
      throw .invalidArgument

def hksClientSign (key : Blob) (paramSet : HksParamSet) (srcData signature : Blob) :
    Except HksErrorCode HksParcel := do
  hksCheckBlob3AndParamSet key.size srcData.size signature.size paramSet
  hksSliceDataEntry addressOf padding .sign key paramSet srcData signature

def hksClientVerify (key : Blob) (paramSet : HksParamSet) (srcData signature : Blob) :
    Except HksErrorCode HksParcel := do
  hksCheckBlob3AndParamSet key.size srcData.size signature.size paramSet
  hksSliceDataEntry addressOf padding .verify key paramSet srcData signature

def hksClientEncrypt (key : Blob) (paramSet : HksParamSet) (plainText cipherText : Blob) :
    Except HksErrorCode HksParcel := do
  hksCheckBlob3AndParamSet key.size plainText.size cipherText.size paramSet
  let newParamSet ← appendCipherTag paramSet plainText true
  hksSliceDataEntry addressOf padding .encrypt key newParamSet plainText cipherText

def hksClientDecrypt (key : Blob) (paramSet : HksParamSet) (cipherText plainText : Blob) :
    Except HksErrorCode HksParcel := do
  hksCheckBlob3AndParamSet key.size plainText.size cipherText.size paramSet
  let newParamSet ← appendCipherTag paramSet cipherText false
  hksSliceDataEntry addressOf padding .decrypt key newParamSet cipherText plainText

def hksClientMac (key : Blob) (paramSet : HksParamSet) (srcData mac : Blob) : Except HksErrorCode HksParcel := do
  hksCheckBlob3AndParamSet key.size srcData.size mac.size paramSet
  hksSliceDataEntry addressOf padding .mac key paramSet srcData mac

end Slice

-- The requests of a session, each a param set with the param set of the caller as one of its blobs
section ThreeStage

variable (addressOf : BlobData → UInt64) (padding paramsPadding : Nat → UInt32)

-- The param set of the caller as a blob
def paramsBlob (tag : UInt32) (paramSet : HksParamSet) : HksParam :=
  .ofBytes tag (paramSet.image addressOf paramsPadding)

def sendParams (code : HksIpcInterfaceCode) (outSize : UInt32) (params : List HksParam) :
    Except HksErrorCode HksParcel := do
  let sendParamSet ← hksParamsToParamSet params
  return ⟨code, outSize, sendParamSet.image addressOf padding⟩

def hksClientInit (keyAlias : Blob) (paramSet : HksParamSet) : Except HksErrorCode HksParcel :=
  sendParams addressOf padding .init (handleSize + tokenSize.toUInt32) [
    .ofBytes HksTag.param0Buffer keyAlias.val,
    paramsBlob addressOf paramsPadding HksTag.param1Buffer paramSet
  ]

def hksClientUpdate (handle : Blob) (paramSet : HksParamSet) (inData : Blob) (outDataSize : UInt32) :
    Except HksErrorCode HksParcel :=
  sendParams addressOf padding .update outDataSize [
    paramsBlob addressOf paramsPadding HksTag.param0Buffer paramSet,
    .ofBytes HksTag.param1Buffer handle.val,
    .ofBytes HksTag.param2Buffer inData.val
  ]

def hksClientFinish (handle : Blob) (paramSet : HksParamSet) (inData : Blob) (outDataSize : UInt32) :
    Except HksErrorCode HksParcel :=
  sendParams addressOf padding .finish outDataSize [
    paramsBlob addressOf paramsPadding HksTag.param0Buffer paramSet,
    .ofBytes HksTag.param1Buffer handle.val,
    .ofBytes HksTag.param2Buffer inData.val
  ]

def hksClientAbort (handle : Blob) (paramSet : HksParamSet) : Except HksErrorCode HksParcel :=
  sendParams addressOf padding .abort 0 [
    paramsBlob addressOf paramsPadding HksTag.param0Buffer paramSet,
    .ofBytes HksTag.param1Buffer handle.val
  ]

def hksClientExportChipsetPlatformPublicKey (salt : Blob) (scene publicKeySize : UInt32) :
    Except HksErrorCode HksParcel :=
  sendParams addressOf padding .chipsetPlatformDecrypt publicKeySize [
    .ofBytes HksTag.param0Buffer salt.val,
    .ofUInt32 HksTag.param1UInt32 scene
  ]

end ThreeStage

end Huks
