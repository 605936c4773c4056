import Huks.Crypto.PublicKeyFormat
import Huks.Lib.OutBuffer
import Huks.Storage.StorageUtils

namespace Huks.InPlace

open OutBuffer

-- A blob whose bytes come from `HksMalloc`
structure AllocatedBlob where
  bytes     : Bytes
  allocated : mallocOk bytes.length

-- `ConbineIntoKeyPair`, with a `struct Hks25519KeyPair` in front
def conbineIntoKeyPair (privateKey publicKey : AllocatedBlob) : Except (Stop HksErrorCode) Bytes := do
  let size := 8 + privateKey.bytes.size + publicKey.bytes.size
  if ¬mallocOk size.toNat then
    throw (.error .mallocFail)
  else
    inBlock (.replicate size.toNat 0) do
      discard <| memcpyInto 0 size.toNat (toBytes32 publicKey.bytes.size ++ toBytes32 privateKey.bytes.size)
      let offset : UInt32 := 8
      discard <| memcpyInto offset.toNat (size - offset).toNat publicKey.bytes
      let offset := offset + publicKey.bytes.size
      discard <| memcpyInto offset.toNat (size - offset).toNat privateKey.bytes

section

-- `GetKeyData` of an alias: a key blob of the caller
variable (keyData : Bytes → Except HksErrorCode AllocatedBlob)

def getAgreeStoreKey (keyAliasTag : UInt32) (paramSet : HksParamSet) : Except HksErrorCode AllocatedBlob := do
  let keyAliasParam ← hksGetParam paramSet keyAliasTag
  if keyAliasParam.blobSize.toNat > hksMaxKeyAliasLen then
    throw .invalidArgument
  else
    keyData (paramSet.blob keyAliasParam)

-- What `TranslateToInnerCurve25519Format` returns has been allocated.
def innerCurve25519Key (alg : UInt32) (key : Bytes) : Except HksErrorCode AllocatedBlob :=
  match translateToInnerCurve25519Format alg key with
  | .error e   => throw e
  | .ok inner  => if allocated : mallocOk inner.length then return ⟨inner, allocated⟩ else throw .mallocFail

def getAgreePublicKey (alg : UInt32) (paramSet : HksParamSet) : Except HksErrorCode AllocatedBlob :=
  match hksGetParam paramSet HksTag.agreePublicKeyIsKeyAlias with
  | .ok isKeyAliasParam =>
    if isKeyAliasParam.boolParam then
      getAgreeStoreKey keyData HksTag.agreePublicKey paramSet
    else do
      let keyParam ← hksGetParam paramSet HksTag.agreePublicKey
      innerCurve25519Key alg (paramSet.blob keyParam)
  | .error _            => getAgreeStoreKey keyData HksTag.agreePublicKey paramSet

def getAgreePrivateKey (paramSet : HksParamSet) : Except HksErrorCode AllocatedBlob :=
  getAgreeStoreKey keyData HksTag.agreePrivateKeyAlias paramSet

def getAgreeKeyPair (alg : UInt32) (paramSet : HksParamSet) : Except (Stop HksErrorCode) Bytes := do
  let publicKey ← checked (getAgreePublicKey keyData alg paramSet)
  let privateKey ← checked (getAgreePrivateKey keyData paramSet)
  conbineIntoKeyPair privateKey publicKey

end

end Huks.InPlace
