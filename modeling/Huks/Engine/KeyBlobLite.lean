import Huks.Engine.KeyBlob
import Huks.Storage.StorageLite

-- The key blob of the build with `_STORAGE_LITE_`: a `struct HksStoreKeyInfo`, the alias, the auth
-- id and the encrypted key, as they lie in the key store.
namespace Huks.KeyBlobLite

open StorageLite FixedCodec

def hksKeyFlagGenerateKey : UInt8 := 2
def hksCurve25519KeySize256 : UInt32 := 256
def hksCurve25519KeyBytes   : Nat := 32

-- `struct KeyMaterial25519`
structure KeyMaterial25519 where
  keyAlg     : UInt32
  keySize    : UInt32
  pubKeySize : UInt32
  priKeySize : UInt32
  reserved   : UInt32
  deriving DecidableEq

def KeyMaterial25519.codec : FixedCodec KeyMaterial25519 :=
  (u32.pair <| u32.pair <| u32.pair <| u32.pair u32).iso
    (fun (keyAlg, keySize, pubKeySize, priKeySize, reserved) => ⟨keyAlg, keySize, pubKeySize, priKeySize, reserved⟩)
    (fun key => (key.keyAlg, key.keySize, key.pubKeySize, key.priKeySize, key.reserved))
    fun _ => rfl

def keyMaterial25519Size : Nat := 20

-- The random bytes, the main key and the crypto library
structure LiteKeyEnv where
  getMainKey : Except HksErrorCode (FixedBytes hksKeyBlobMainKeySize)
  fillRandom : Except HksErrorCode (FixedBytes hksDefaultRandomLen)
  deriveKey  : FixedBytes hksKeyBlobMainKeySize → UInt32 → HksKeyDerivationParam → (size : Nat) →
    Except HksErrorCode (FixedBytes size)
  encrypt    : FixedBytes 32 → HksUsageSpec → (message : Bytes) →
    Except HksErrorCode (FixedBytes message.length × FixedBytes hksKeyBlobTagSize)
  decrypt    : FixedBytes 32 → HksUsageSpec → FixedBytes hksKeyBlobTagSize → (message : Bytes) →
    Except HksErrorCode (FixedBytes message.length)

inductive DeriveType
  | kek
  | nonce
  deriving DecidableEq

def deriveTag : DeriveType → Bytes
  | .kek   => "derive_key".toList.map Char.toUInt8
  | .nonce => "derive_nonce".toList.map Char.toUInt8

-- The buffer of a key blob in the making: the structure at its head, and the bytes behind it
structure KeyOut where
  keyInfo : HksStoreKeyInfo
  rest    : Bytes

def KeyOut.bytes (out : KeyOut) : Bytes := HksStoreKeyInfo.codec.encode out.keyInfo ++ out.rest

-- The head of `key` as a `struct HksStoreKeyInfo`
def storeKeyInfo (key : Bytes) : HksStoreKeyInfo := HksStoreKeyInfo.codec.decode (key.take keyInfoSize)

variable (env : LiteKeyEnv)

section Cipher

def getSalt (type : DeriveType) (random : Bytes) : Bytes := random ++ deriveTag type

def getDeriveMaterial (type : DeriveType) (random : Bytes) (size : Nat) : Except HksErrorCode (FixedBytes size) := do
  let mk ← env.getMainKey
  let derParam := {
    salt       := getSalt type random
    iterations := hksKeyBlobDeriveCnt
    digestAlg  := HksKeyDigest.sha256
  }
  env.deriveKey mk HksKeyAlg.pbkdf2 derParam size

-- The aad is the key blob from its `keySize` to the auth id.
def buildKeyBlobUsageSpec (cipherKey random : Bytes) : Except (Stop HksErrorCode) HksUsageSpec := do
  let keyInfo := storeKeyInfo cipherKey
  let nonce ← checked (getDeriveMaterial env .nonce random hksKeyBlobNonceSize)
  let aad ← readAt cipherKey 2 (keyInfoSize - 2 + keyInfo.aliasSize.toNat + keyInfo.authIdSize.toNat)
  return {
    mode    := HksCipherMode.gcm
    padding := HksKeyPadding.none
    digest  := HksKeyDigest.none
    algType := HksKeyAlg.aes
    iv      := nonce.val
    aad
  }

def encryptKeyBlob (rawKey : Bytes) (cipherKey : KeyOut) : Except (Stop HksErrorCode) Bytes := do
  let random ← checked env.fillRandom
  let cipherKey := { cipherKey with keyInfo.random := random }
  let keyInfo := cipherKey.keyInfo
  let kek ← checked (getDeriveMaterial env .kek random.val 32)
  let usageSpec ← buildKeyBlobUsageSpec env cipherKey.bytes random.val
  let (encKey, tag) ← checked (env.encrypt kek usageSpec rawKey)
  let end' := keyInfo.keyInfoLen.toNat
  return splice (splice cipherKey.bytes (end' - keyInfo.keySize.toNat) encKey.val) (end' - hksKeyBlobTagSize) tag.val

-- The sizes are of 32 bits: a key that is shorter than its tag is a very long one.
def decryptKeyBlob (cipherKey : Bytes) : Except (Stop HksErrorCode) Bytes := do
  let keyInfo := storeKeyInfo cipherKey
  let random := keyInfo.random.val
  let kek ← checked (getDeriveMaterial env .kek random 32)
  let usageSpec ← buildKeyBlobUsageSpec env cipherKey random
  let end' := keyInfo.keyInfoLen.toNat
  let encKey ← readAt cipherKey (end' - keyInfo.keySize.toNat)
    (keyInfo.keySize.toUInt32 - hksKeyBlobTagSize.toUInt32).toNat
  let tag ← readAt cipherKey (end' - hksKeyBlobTagSize) hksKeyBlobTagSize
  let rawKey ← checked (env.decrypt kek usageSpec (.ofBytes _ tag) encKey)
  return rawKey.val

end Cipher

section Adjust

def copyKey (key : Bytes) : Except HksErrorCode Bytes :=
  if mallocOk key.length then .ok key else .error .mallocFail

def ed25519BlobToKeyMaterial (key : Bytes) : Except HksErrorCode Bytes :=
  if key.length ≠ hksCurve25519KeyBytes * 2 then
    .error .invalidKeyFile
  else
    let size := hksCurve25519KeyBytes.toUInt32
    .ok (KeyMaterial25519.codec.encode ⟨HksKeyAlg.ed25519, hksCurve25519KeySize256, size, size, 0⟩ ++ key)

def ed25519KeyMaterialToBlob (key : Bytes) : Except HksErrorCode Bytes :=
  if key.length < keyMaterial25519Size then
    .error .invalidKeyInfo
  else
    let keyMaterial := KeyMaterial25519.codec.decode (key.take keyMaterial25519Size)
    let size := hksCurve25519KeyBytes.toUInt32
    if keyMaterial.pubKeySize ≠ size ∨ keyMaterial.priKeySize ≠ size ∨
        key.length < keyMaterial25519Size + hksCurve25519KeyBytes * 2 then
      .error .invalidKeyInfo
    else
      .ok (slice key keyMaterial25519Size (hksCurve25519KeyBytes * 2))

-- Of a generated Ed25519 key only the two values are kept.
def adjustKey (keyFlag : UInt8) (paramSet : HksParamSet) (key : Bytes) : Except HksErrorCode Bytes := do
  let alg ← getUInt32 paramSet HksTag.algorithm
  if alg = HksKeyAlg.ed25519 ∧ keyFlag = hksKeyFlagGenerateKey then
    ed25519KeyMaterialToBlob key
  else
    copyKey key

-- The blob that a function fills, or leaves empty where it fails
def filledBlob : Except HksErrorCode Bytes → BlobData
  | .ok bytes => .ext bytes
  | .error _  => .null

-- Where the key cannot be adjusted, the code goes on with the empty blob.
def getRawKeyMaterial (key : Bytes) : Except (Stop HksErrorCode) BlobData := do
  if key.length < keyInfoSize then throw (.error .invalidKeyInfo)
  let keyInfo := storeKeyInfo key
  if hksIsKeyInfoLenInvalid keyInfo then throw (.error .invalidKeyInfo)
  let tmpKey ← decryptKeyBlob env key
  if keyInfo.keyAlg.toUInt32 = HksKeyAlg.ed25519 ∧ keyInfo.flag = hksKeyFlagGenerateKey then
    return filledBlob (ed25519BlobToKeyMaterial tmpKey)
  else
    return filledBlob (copyKey tmpKey)

end Adjust

section ParamSet

def storageFixedParams (keyInfo : HksStoreKeyInfo) : List HksParam := [
  .ofUInt32 HksTag.keyFlag keyInfo.flag.toUInt32,
  .ofUInt32 HksTag.algorithm keyInfo.keyAlg.toUInt32,
  .ofUInt32 HksTag.purpose keyInfo.purpose,
  .ofUInt32 HksTag.keySize keyInfo.keyLen.toUInt32,
  .ofUInt32 HksTag.digest keyInfo.digest.toUInt32,
  .ofUInt32 HksTag.padding keyInfo.padding.toUInt32,
  .ofUInt32 HksTag.blockMode keyInfo.keyMode.toUInt32,
  .ofUInt32 HksTag.keyRole keyInfo.role,
  .ofUInt32 HksTag.keyDomain keyInfo.domain.toUInt32
]

-- The param with a blob that may be empty
def keyParam : BlobData → HksParam
  | .ext key => .ofBytes HksTag.key key
  | data     => ⟨HksTag.key, 0, data⟩

def addKeyAuthId (keyInfo : HksStoreKeyInfo) (keyInfoBlob : Bytes) (paramSet : HksParamSet) :
    Except (Stop HksErrorCode) HksParamSet := do
  if keyInfo.authIdSize = 0 then return paramSet
  let keyAuthId ← readAt keyInfoBlob (keyInfoSize + keyInfo.aliasSize.toNat) keyInfo.authIdSize.toNat
  checked (hksAddParams paramSet [.ofBytes HksTag.keyAuthId keyAuthId])

def addKey (key : Option BlobData) (paramSet : HksParamSet) : Except HksErrorCode HksParamSet :=
  match key with
  | none     => .ok paramSet
  | some key => hksAddParams paramSet [keyParam key]

def addStorageParams (key : Option BlobData) (keyInfoBlob : Bytes) (paramSet : HksParamSet) :
    Except (Stop HksErrorCode) HksParamSet := do
  if keyInfoBlob.length < keyInfoSize then throw (.error .invalidKeyInfo)
  let keyInfo := storeKeyInfo keyInfoBlob
  if hksIsKeyInfoLenInvalid keyInfo then throw (.error .invalidKeyInfo)
  let paramSet ← checked (hksAddParams paramSet (storageFixedParams keyInfo))
  let paramSet ← addKeyAuthId keyInfo keyInfoBlob paramSet
  checked (addKey key paramSet)

def translateKeyInfoBlobToParamSet (key : Option BlobData) (keyInfoBlob : Bytes) :
    Except (Stop HksErrorCode) HksParamSet := do
  let outputParamSet ← addStorageParams key keyInfoBlob hksInitParamSet
  checked (hksBuildParamSet outputParamSet)

-- A function that returns `NULL` for every failure
def orNull {α : Type} : Except (Stop HksErrorCode) α → Except (Stop HksErrorCode) (Option α)
  | .ok a             => .ok (some a)
  | .error .outside   => .error .outside
  | .error (.error _) => .ok none

def hksGenerateKeyNode (key : Bytes) : Except (Stop HksErrorCode) (Option HksKeyNode) :=
  if key.length > maxKeySize.toNat then
    return none
  else
    orNull do
      let rawKey ← getRawKeyMaterial env key
      let paramSet ← translateKeyInfoBlobToParamSet (some rawKey) key
      return { paramSet }

def hksGetRawKey (paramSet : HksParamSet) : Except HksErrorCode Bytes := do
  let key ← getBlob paramSet HksTag.key
  if ¬mallocOk key.length then .error .mallocFail else return key

end ParamSet

section Build

-- One round of the loop; where a tag stands twice, the last value stays.
def fillParam (paramSet : HksParamSet) (out : KeyOut) (param : HksParam) : Except HksErrorCode KeyOut :=
  let value := param.uint32Param
  if param.tag = HksTag.algorithm then
    .ok { out with keyInfo.keyAlg := value.toUInt8 }
  else if param.tag = HksTag.padding then
    .ok { out with keyInfo.padding := value.toUInt8 }
  else if param.tag = HksTag.digest then
    .ok { out with keyInfo.digest := value.toUInt8 }
  else if param.tag = HksTag.blockMode then
    .ok { out with keyInfo.keyMode := value.toUInt8 }
  else if param.tag = HksTag.purpose then
    .ok { out with keyInfo.purpose := value }
  else if param.tag = HksTag.keySize then
    .ok { out with keyInfo.keyLen := value.toUInt16 }
  else if param.tag = HksTag.keyRole then
    .ok { out with keyInfo.role := value }
  else if param.tag = HksTag.keyDomain then
    .ok { out with keyInfo.domain := value.toUInt16 }
  else if param.tag = HksTag.keyAuthId then
    if param.blobSize.toNat > hksMaxKeyAuthIdLen then
      .error .invalidArgument
    else
      match param.read paramSet.base paramSet.area with
      | none        => .error .insufficientMemory
      | some authId =>
        .ok {
          keyInfo := { out.keyInfo with authIdSize := param.blobSize.toUInt8 }
          rest    := splice out.rest out.keyInfo.aliasSize.toNat authId
        }
  else
    .ok out

def fillBaseInfo (paramSet : HksParamSet) (keyOut : KeyOut) : Except HksErrorCode KeyOut :=
  paramSet.params.foldlM (fillParam paramSet) keyOut

-- The buffer has room for the longest alias, auth id and key.
def fillStoreKeyInfo (keyAlias : Bytes) (keyFlag : UInt8) (key : Bytes) (paramSet : HksParamSet) (keyOut : KeyOut) :
    Except (Stop HksErrorCode) Bytes := do
  if keyAlias.length > hksMaxKeyAliasLen ∨ key.length > hksMaxKeyLen then throw (.error .invalidArgument)
  let keySize := (key.length + hksKeyBlobTagSize).toUInt16
  let keyOut : KeyOut := {
    keyInfo := { keyOut.keyInfo with flag := keyFlag, keySize, aliasSize := keyAlias.length.toUInt8 }
    rest    := splice keyOut.rest 0 keyAlias
  }
  let keyOut ← checked (fillBaseInfo paramSet keyOut)
  let keyInfo := keyOut.keyInfo
  let keyInfoLen :=
    (keyInfoSize + keyInfo.aliasSize.toNat + keyInfo.authIdSize.toNat + keyInfo.keySize.toNat).toUInt16
  let keyOut ← encryptKeyBlob env key { keyOut with keyInfo.keyInfoLen := keyInfoLen }
  return keyOut.take keyInfoLen.toNat

def keyOutRoom : Nat := hksMaxKeyAliasLen + hksMaxKeyAuthIdLen + hksMaxKeyMaterialLen

-- `keyOutSize` is the size of the buffer for the key blob.
def hksBuildKeyBlob (keyAlias : Bytes) (keyFlag : UInt8) (key : Bytes) (paramSet : HksParamSet) (keyOutSize : UInt32) :
    Except (Stop HksErrorCode) Bytes := do
  let adjustedKey ← checked (adjustKey keyFlag paramSet key)
  let tmpOut : KeyOut := ⟨storeKeyInfo (.replicate keyInfoSize 0), .replicate keyOutRoom 0⟩
  let tmpOut ← fillStoreKeyInfo env keyAlias keyFlag adjustedKey paramSet tmpOut
  if ¬copyOk keyOutSize tmpOut.length.toUInt32 then throw (.error .insufficientMemory)
  return tmpOut

end Build

end Huks.KeyBlobLite
