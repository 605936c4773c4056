import Huks.Crypto.OpenSsl
import Huks.Crypto.PublicKeyFormat
import Huks.Engine.CheckParamSet

namespace Huks

-- The key sizes that `HksCheckFixedParams` expects. For DSA it expects none in particular.
def expectKeyLen (alg : UInt32) : Option (List UInt32) :=
  if alg = HksKeyAlg.rsa then some [512, 768, 1024, 2048, 3072, 4096]
  else if alg = HksKeyAlg.ecc then some [224, 256, 384, 521]
  else if alg = HksKeyAlg.sm2 ∨ alg = HksKeyAlg.ed25519 ∨ alg = HksKeyAlg.x25519 then some [256]
  else if alg = HksKeyAlg.dh then some [2048, 3072, 4096]
  else none

-- The checks of the param set, none of which looks at the key, and the building of the key blob.
structure ImportEnv where
  supportAlg               : UInt32 → Bool
  coreCheckGenKeyParams    : HksParamSet → Except HksErrorCode ParamsValues
  checkImportMutableParams : UInt32 → ParamsValues → Except HksErrorCode Unit
  buildKeyBlob             : Bytes → Except HksErrorCode Unit
  keyLen_expected          : ∀ {paramSet params alg sizes}, coreCheckGenKeyParams paramSet = .ok params →
    getUInt32 paramSet HksTag.algorithm = .ok alg → expectKeyLen alg = some sizes → params.keyLen.value ∈ sizes

section CheckKeyLen

variable (alg keyType : UInt32) (params : ParamsValues) (key : Bytes)

-- The parts in the words `required` must not be empty, and in a key pair neither those in the
-- words `ofPair`. The sum of the sizes is an `uint32_t`.
def checkKeyLenBy (format : KeyFormat) (maxSize : UInt32) (required ofPair : List Nat) :
    Except (Stop HksErrorCode) Unit := do
  if key.length < format.headerSize then throw (.error .invalidKeyInfo)
  let keyAlg ← readWord key 0
  let keySize ← readWord key 1
  if keyAlg ≠ alg ∨ keySize ≠ params.keyLen.value then throw (.error .invalidKeyInfo)
  let sizes ← format.sizeWords.mapM (readWord key)
  if ∃ size ∈ sizes, maxSize < size then throw (.error .invalidKeyInfo)
  let sizesRequired ← required.mapM (readWord key)
  if 0 ∈ sizesRequired then throw (.error .invalidKeyInfo)
  let sizesOfPair ← ofPair.mapM (readWord key)
  if keyType = HksImportKeyType.keyPair ∧ 0 ∈ sizesOfPair then throw (.error .invalidKeyInfo)
  if key.length < (sizes.foldl (· + ·) format.headerSize.toUInt32).toNat then throw (.error .invalidKeyInfo)

def checkRsaKeyLen : Except (Stop HksErrorCode) Unit :=
  checkKeyLenBy alg keyType params key .rsa 4096 [2, 3, 4] []

def checkEccKeyLen : Except (Stop HksErrorCode) Unit :=
  checkKeyLenBy alg keyType params key .ecc 521 [4] [2, 3]

def checkDsaKeyLen : Except (Stop HksErrorCode) Unit :=
  checkKeyLenBy alg keyType params key .dsa maxKeySize [2, 4, 5, 6] [3]

def checkCurve25519KeyLen : Except (Stop HksErrorCode) Unit :=
  checkKeyLenBy alg keyType params key .curve25519 256 [3] [2]

def checkDHKeyLen : Except (Stop HksErrorCode) Unit :=
  checkKeyLenBy alg keyType params key .dh 4096 [3] [2]

def checkKeyLen : Except (Stop HksErrorCode) Unit :=
  match KeyFormat.ofAlg alg with
  | some .rsa        => checkRsaKeyLen alg keyType params key
  | some .ecc        => checkEccKeyLen alg keyType params key
  | some .dsa        => checkDsaKeyLen alg keyType params key
  | some .curve25519 => checkCurve25519KeyLen alg keyType params key
  | some .dh         => checkDHKeyLen alg keyType params key
  | none             => throw (.error .invalidAlgorithm)

def checkMutableParams : Except HksErrorCode Unit :=
  let purpose := params.purpose.value
  let allowed (purposes : List UInt32) : Except HksErrorCode Unit :=
    if purpose ∈ purposes then .ok () else .error .invalidPurpose
  if keyType = HksImportKeyType.keyPair then
    .ok ()
  else if alg = HksKeyAlg.rsa then
    allowed [HksKeyPurpose.sign, HksKeyPurpose.decrypt]
  else if alg = HksKeyAlg.ecc then
    allowed [HksKeyPurpose.sign, HksKeyPurpose.agree, HksKeyPurpose.unwrap]
  else if alg = HksKeyAlg.sm2 ∨ alg = HksKeyAlg.dsa ∨ alg = HksKeyAlg.ed25519 then
    allowed [HksKeyPurpose.sign]
  else if alg = HksKeyAlg.x25519 ∨ alg = HksKeyAlg.dh then
    .ok ()
  else
    .error .invalidAlgorithm

def checkImportKey : Except (Stop HksErrorCode) Unit := do
  checkKeyLen alg keyType params key
  checked (checkMutableParams alg keyType params)

-- The check of a public key, which does nothing for DSA
def checkImportKeySize : Except (Stop HksErrorCode) Unit :=
  match KeyFormat.ofAlg alg with
  | some .dsa => return
  | none      => throw (.error .invalidAlgorithm)
  | _         => do
    if key.length < 20 then throw (.error .invalidKeyInfo)
    let keyAlg ← readWord key 0
    let keySize ← readWord key 1
    if keyAlg ≠ alg ∨ keySize ≠ params.keyLen.value then throw (.error .invalidKeyInfo)

def checkImportSymmetricKeySize : Except HksErrorCode Unit :=
  if key.size ≠ hksKeyBytes params.keyLen.value then .error .invalidKeyInfo else .ok ()

end CheckKeyLen

section InnerFormat

variable (keyType : UInt32) (key : Bytes)

def checkRsaKeyMaterialLen : Except (Stop HksErrorCode) Unit := do
  if key.length < 20 then throw (.error .invalidKeyInfo)
  let nSize ← readWord key 2
  let eSize ← readWord key 3
  let dSize ← readWord key 4
  if 4096 < nSize ∨ nSize = 0 ∨ 4096 < dSize ∨ dSize = 0 ∨ 4096 < eSize then throw (.error .invalidKeyInfo)
  if keyType = HksImportKeyType.keyPair ∧ eSize = 0 then throw (.error .invalidKeyInfo)
  if key.length < (20 + nSize + dSize + eSize).toNat then throw (.error .invalidKeyInfo)

-- The header with the size of the exponent, and the default exponent between `n` and `d`
def appendRsaPublicExponent : Except (Stop HksErrorCode) Bytes := do
  let nSize ← readWord key 2
  let dSize ← readWord key 4
  if ¬mallocOk (20 + nSize + dSize + 3).toNat then throw (.error .mallocFail)
  let header ← readAt key 0 12
  let reserved ← readAt key 16 4
  let n ← readAt key 20 nSize.toNat
  let d ← readAt key (20 + nSize).toNat dSize.toNat
  return header ++ toBytes32 3 ++ reserved ++ n ++ [1, 0, 1] ++ d

def getRsaPrivateOrPairInnerFormat : Except (Stop HksErrorCode) Bytes := do
  checkRsaKeyMaterialLen keyType key
  let eSize ← readWord key 3
  if keyType = HksImportKeyType.privateKey ∧ eSize = 0 then
    appendRsaPublicExponent key
  else
    checked (copyToInnerKey key)

def getCurve25519PrivateOrPairInnerFormat (alg : UInt32) : Except (Stop HksErrorCode) Bytes :=
  if keyType = HksImportKeyType.keyPair then
    checked (copyToInnerKey key)
  else if key.length ≠ 32 then
    throw (.error .invalidKeyInfo)
  else
    checked (innerKey .mallocFail (20 + key.size) [alg, 256, 0, key.size, 0] key)

def getPrivateOrPairInnerFormat (paramSet : HksParamSet) : Except (Stop HksErrorCode) Bytes := do
  if key = [] then throw (.error .invalidArgument)
  let alg ← checked ((getUInt32 paramSet HksTag.algorithm).orError .checkGetAlgFail)
  if alg = HksKeyAlg.rsa then
    getRsaPrivateOrPairInnerFormat keyType key
  else if alg ∈ [HksKeyAlg.ecc, HksKeyAlg.dsa, HksKeyAlg.dh, HksKeyAlg.sm2, HksKeyAlg.hmac, HksKeyAlg.sm3,
      HksKeyAlg.sm4, HksKeyAlg.aes] then
    checked (copyToInnerKey key)
  else if alg = HksKeyAlg.ed25519 ∨ alg = HksKeyAlg.x25519 then
    -- The algorithm is handed on as an `uint8_t`.
    getCurve25519PrivateOrPairInnerFormat keyType key alg.toUInt8.toUInt32
  else
    throw (.error .invalidAlgorithm)

end InnerFormat

section Import

variable (lib : OpenSsl) (env : ImportEnv) (paramSet : HksParamSet)

def importKeyAlg : List UInt32 :=
  [HksKeyAlg.rsa, HksKeyAlg.aes, HksKeyAlg.des, HksKeyAlg.tripleDes, HksKeyAlg.ecc, HksKeyAlg.x25519,
    HksKeyAlg.ed25519, HksKeyAlg.dsa, HksKeyAlg.dh, HksKeyAlg.hmac, HksKeyAlg.cmac, HksKeyAlg.sm2,
    HksKeyAlg.sm3, HksKeyAlg.sm4]

def symmetricImportAlg : List UInt32 :=
  [HksKeyAlg.aes, HksKeyAlg.des, HksKeyAlg.tripleDes, HksKeyAlg.sm3, HksKeyAlg.sm4, HksKeyAlg.hmac,
    HksKeyAlg.cmac]

-- `CheckAndGetAlgorithm` with `g_importKeyAlg`
def checkAndGetImportAlg : Except HksErrorCode UInt32 := do
  let alg ← (getUInt32 paramSet HksTag.algorithm).orError .checkGetAlgFail
  if alg ∈ importKeyAlg ∧ env.supportAlg alg then return alg else throw .invalidAlgorithm

-- What the crypto library checks of a key that has a public part
def opensslCheckImportKey (alg keyType : UInt32) (key : Bytes) : Except (Stop HksErrorCode) Unit :=
  if keyType = HksImportKeyType.privateKey then
    return
  else if alg = HksKeyAlg.dh then
    hksOpensslCheckDhKey lib key keyType
  else if alg = HksKeyAlg.rsa then
    hksOpensslCheckRsaKey key
  else
    return

def checkImportPublicKey (alg : UInt32) (params : ParamsValues) (key : Bytes) :
    Except (Stop HksErrorCode) Unit := do
  checkImportKeySize alg params key
  checked (env.checkImportMutableParams alg params)

-- A private key or a key pair is checked first, a public key when the library has seen it.
def checkImportAsymmetricKey (alg : UInt32) (params : ParamsValues) (key : Bytes) :
    Except (Stop HksErrorCode) Unit :=
  match getUInt32 paramSet HksTag.importKeyType with
  | .ok keyType =>
    if keyType = HksImportKeyType.publicKey then do
      opensslCheckImportKey lib alg keyType key
      checkImportPublicKey env alg params key
    else do
      checkImportKey alg keyType params key
      opensslCheckImportKey lib alg keyType key
  | .error _    => checkImportPublicKey env alg params key

def hksCoreCheckImportKeyParams (key : Bytes) : Except (Stop HksErrorCode) Unit := do
  let params ← checked (env.coreCheckGenKeyParams paramSet)
  let alg ← checked (checkAndGetImportAlg env paramSet)
  if alg ∈ symmetricImportAlg then
    checked (checkImportSymmetricKeySize params key)
  else
    checkImportAsymmetricKey lib env paramSet alg params key

def importInnerKey (key : Bytes) : Except (Stop HksErrorCode) Bytes :=
  match getUInt32 paramSet HksTag.importKeyType with
  | .ok keyType =>
    if keyType = HksImportKeyType.privateKey ∨ keyType = HksImportKeyType.keyPair then
      getPrivateOrPairInnerFormat keyType key paramSet
    else
      checked (copyToInnerKey key)
  | .error _    => checked (copyToInnerKey key)

-- `HksCoreImportKey`, with the key material that comes into the key blob
def coreImportKey (key : Bytes) : Except (Stop HksErrorCode) Bytes := do
  let innerKey ← importInnerKey paramSet key
  hksCoreCheckImportKeyParams lib env paramSet innerKey
  checked (env.buildKeyBlob innerKey)
  return innerKey

end Import

end Huks
