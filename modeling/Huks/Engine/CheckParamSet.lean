import Huks.Engine.CryptoAdapter

namespace Huks

def hksDefaultPbkdf2Iteration : UInt32 := 1000
def hksMaxPbkdf2Iteration     : UInt32 := 0x80000
def hksDefaultPbkdf2SaltSize  : UInt32 := 16

inductive HksCmdId
  | sign | verify | encrypt | decrypt
  deriving DecidableEq, Repr

-- `struct Params`
structure Params where
  needCheck : Bool
  value     : UInt32 := 0
  isAbsent  : Bool := false
  deriving DecidableEq, Repr

structure ParamsValues where
  keyLen  : Params
  padding : Params
  purpose : Params
  digest  : Params
  mode    : Params
  deriving DecidableEq, Repr

-- What the one stage code asks beyond the three stage code: the algorithms that the build has,
-- the tables of expected values, and some routines of the crypto library.
structure OneStageEnv where
  supportAlg                   : UInt32 → Bool
  hksCheckFixedParams          : UInt32 → ParamsValues → Except HksErrorCode Unit
  checkCipherPadding           : UInt32 → ParamsValues → Except HksErrorCode Unit
  hksCheckCipherMaterialParams : UInt32 → ParamsValues → HksParamSet → Except HksErrorCode Unit
  hksCheckCipherData           : HksCmdId → UInt32 → ParamsValues → UInt32 → UInt32 →
    Except HksErrorCode Unit
  hksGetKeySize                : UInt32 → Bytes → Except HksErrorCode UInt32
  hksCryptoHalHash             : Nat → UInt32 → Bytes → Except HksErrorCode Bytes
  hksCryptoHalHmac             : Nat → Bytes → UInt32 → Bytes → Except HksErrorCode Bytes
  hksCryptoHalGetPubKey        : Nat → Bytes → Except HksErrorCode Bytes

section InputParams

def needs (keyLen padding purpose digest mode : Bool) : ParamsValues :=
  ⟨{ needCheck := keyLen }, { needCheck := padding }, { needCheck := purpose },
    { needCheck := digest }, { needCheck := mode }⟩

-- The entries for `HKS_CHECK_TYPE_USE_KEY` of `g_rsaParamSet` and the other tables.
def useKeyParams (alg : UInt32) : Except HksErrorCode ParamsValues :=
  if alg = HksKeyAlg.rsa then
    .ok (needs true true true true false)
  else if alg = HksKeyAlg.aes ∨ alg = HksKeyAlg.des ∨ alg = HksKeyAlg.tripleDes then
    .ok (needs false true true false true)
  else if alg = HksKeyAlg.ecc ∨ alg = HksKeyAlg.hmac ∨ alg = HksKeyAlg.cmac ∨
      alg = HksKeyAlg.dsa then
    .ok (needs false false true true false)
  else if alg = HksKeyAlg.sm2 then
    .ok (needs true false true true false)
  else if alg = HksKeyAlg.sm3 then
    .error .notSupported
  else if alg = HksKeyAlg.sm4 then
    .ok (needs true true true false true)
  else if alg = HksKeyAlg.x25519 ∨ alg = HksKeyAlg.ed25519 then
    .ok (needs false false true false false)
  else if alg = HksKeyAlg.dh ∨ alg = HksKeyAlg.ecdh then
    .ok (needs true false true false false)
  else
    .error .invalidAlgorithm

variable (env : OneStageEnv)

def initInputParamsByAlg (alg : UInt32) : Except HksErrorCode ParamsValues :=
  if alg = HksKeyAlg.x25519 ∨ alg = HksKeyAlg.ed25519 then
    if env.supportAlg HksKeyAlg.x25519 ∨ env.supportAlg HksKeyAlg.ed25519 then
      useKeyParams alg
    else
      .error .invalidAlgorithm
  else if env.supportAlg alg then
    useKeyParams alg
  else
    .error .invalidAlgorithm

def getOptionalParams (paramSet : HksParamSet) (tag : UInt32) (params : Params) :
    Except HksErrorCode Params :=
  if ¬params.needCheck then
    .ok params
  else
    match getUInt32 paramSet tag with
    | .ok value             => .ok { params with value := value }
    | .error .paramNotExist => .ok { params with isAbsent := true }
    | .error _              => .error .invalidArgument

def getRequiredParams (paramSet : HksParamSet) (tag : UInt32) (params : Params) :
    Except HksErrorCode Params :=
  if ¬params.needCheck then
    .ok params
  else do
    return { params with value := ← getUInt32 paramSet tag }

def getInputParams (paramSet : HksParamSet) (inputParams : ParamsValues) :
    Except HksErrorCode ParamsValues := do
  let keyLen ← (getRequiredParams paramSet HksTag.keySize inputParams.keyLen).orError
    .checkGetKeySizeFail
  let purpose ← (getRequiredParams paramSet HksTag.purpose inputParams.purpose).orError
    .checkGetPurposeFail
  let padding ← (getOptionalParams paramSet HksTag.padding inputParams.padding).orError
    .checkGetPaddingFail
  let digest ← (getOptionalParams paramSet HksTag.digest inputParams.digest).orError
    .checkGetDigestFail
  let mode ← (getOptionalParams paramSet HksTag.blockMode inputParams.mode).orError
    .checkGetModeFail
  return { keyLen, padding, purpose, digest, mode }

-- `HksGetInputParmasByAlg` for `HKS_CHECK_TYPE_USE_KEY`
def hksGetInputParmasByAlg (alg : UInt32) (paramSet : HksParamSet) :
    Except HksErrorCode ParamsValues := do
  getInputParams paramSet (← initInputParamsByAlg env alg)

def hksCheckValue (value : UInt32) (expectValues : List UInt32) : Except HksErrorCode Unit :=
  if value ∈ expectValues then .ok () else .error .invalidArgument

def checkAndGetAlgorithm (paramSet : HksParamSet) (expectAlg : List UInt32) :
    Except HksErrorCode UInt32 := do
  let alg ← (getUInt32 paramSet HksTag.algorithm).orError .checkGetAlgFail
  (hksCheckValue alg (expectAlg.filter env.supportAlg)).orError .invalidAlgorithm
  return alg

def checkAndGetDigest (paramSet : HksParamSet) (expectDigest : List UInt32) :
    Except HksErrorCode UInt32 := do
  let digest ← (getUInt32 paramSet HksTag.digest).orError .checkGetDigestFail
  (hksCheckValue digest expectDigest).orError .invalidDigest
  return digest

end InputParams

-- `g_rsaKeySize` and the other tables of the key sizes that an algorithm has
namespace KeySizes
def rsa        : List UInt32 := [512, 768, 1024, 2048, 3072, 4096]
def ecc        : List UInt32 := [224, 256, 384, 521]
def curve25519 : List UInt32 := [256]
def dh         : List UInt32 := [2048, 3072, 4096]
def sm2        : List UInt32 := [256]
def sm4        : List UInt32 := [128]
end KeySizes

section KeySize

variable (keyParamSet : HksParamSet)

-- DSA has no table of sizes; the functions for the other algorithms start like this one.
def hksGetDsaKeySize : Except HksErrorCode UInt32 := do
  (hksCheckParamSet keyParamSet keyParamSet.paramSetSize).orError .invalidKeyFile
  (hksCheckParamSetTag keyParamSet).orError .invalidKeyFile
  (getUInt32 keyParamSet HksTag.keySize).orError .invalidKeyFile

def checkAndGetKeySize (expectKeySize : List UInt32) : Except HksErrorCode UInt32 := do
  let keySize ← hksGetDsaKeySize keyParamSet
  (hksCheckValue keySize expectKeySize).orError .invalidKeyFile
  return keySize

-- `HksGetKeySize` of a key whose file holds `keyParamSet`, in a build with all algorithms
def hksGetKeySize (alg : UInt32) : Except HksErrorCode UInt32 :=
  if alg = HksKeyAlg.rsa then
    checkAndGetKeySize keyParamSet KeySizes.rsa
  else if alg = HksKeyAlg.dsa then
    hksGetDsaKeySize keyParamSet
  else if alg = HksKeyAlg.ecc ∨ alg = HksKeyAlg.ecdh then
    checkAndGetKeySize keyParamSet KeySizes.ecc
  else if alg = HksKeyAlg.x25519 ∨ alg = HksKeyAlg.ed25519 then
    checkAndGetKeySize keyParamSet KeySizes.curve25519
  else if alg = HksKeyAlg.dh then
    checkAndGetKeySize keyParamSet KeySizes.dh
  else if alg = HksKeyAlg.sm4 then
    checkAndGetKeySize keyParamSet KeySizes.sm4
  else if alg = HksKeyAlg.sm2 then
    checkAndGetKeySize keyParamSet KeySizes.sm2
  else
    .error .invalidAlgorithm

end KeySize

section Signature

variable (isSign : Bool) (keySize : UInt32) (signatureSize : Nat)

-- A buffer has room for `size` bytes, and a signature to verify has no more than these.
def checkSignatureSize (size : Nat) : Except HksErrorCode Unit :=
  if isSign ∧ signatureSize < size then
    .error .bufferTooSmall
  else if ¬isSign ∧ size < signatureSize then
    .error .invalidSignatureSize
  else
    .ok ()

def checkRsaSignature : Except HksErrorCode Unit :=
  checkSignatureSize isSign signatureSize (keySize / 8).toNat

-- The last summand is `HKS_ECC_SIGN_MAX_TL_SIZE`.
def checkEccSignature : Except HksErrorCode Unit :=
  let eccSignRSize := keySize / 8 + keySize % 8
  checkSignatureSize isSign signatureSize (eccSignRSize + eccSignRSize + 8).toNat

-- Unlike the others, this one asks for `HKS_SIGNATURE_MIN_SIZE` also of a signature to verify.
def checkEd25519Signature : Except HksErrorCode Unit :=
  if 64 ≤ signatureSize then .ok () else .error (if isSign then .bufferTooSmall else .invalidSignatureSize)

end Signature

-- `HksCheckSignature` in a build with all algorithms
def hksCheckSignature (isSign : Bool) (alg keySize : UInt32) (signatureSize : Nat) :
    Except HksErrorCode Unit := do
  if alg = HksKeyAlg.rsa then
    (hksCheckValue keySize KeySizes.rsa).orError .invalidArgument
    checkRsaSignature isSign keySize signatureSize
  else if alg = HksKeyAlg.dsa then
    return
  else if alg = HksKeyAlg.ecc then
    (hksCheckValue keySize KeySizes.ecc).orError .invalidArgument
    checkEccSignature isSign keySize signatureSize
  else if alg = HksKeyAlg.ed25519 then
    checkEd25519Signature isSign signatureSize
  else if alg = HksKeyAlg.sm2 then
    (hksCheckValue keySize KeySizes.sm2).orError .invalidArgument
    checkEccSignature isSign keySize signatureSize
  else
    throw .invalidAlgorithm

-- `g_cipherAlg` and the other lists of `hks_check_paramset.c`
def cipherAlg : List UInt32 :=
  [HksKeyAlg.rsa, HksKeyAlg.aes, HksKeyAlg.des, HksKeyAlg.tripleDes, HksKeyAlg.sm2, HksKeyAlg.sm4]

def signAlg : List UInt32 :=
  [HksKeyAlg.rsa, HksKeyAlg.dsa, HksKeyAlg.ecc, HksKeyAlg.ed25519, HksKeyAlg.sm2]

def agreeAlg : List UInt32 := [HksKeyAlg.x25519, HksKeyAlg.ecdh, HksKeyAlg.dh]

def deriveAlg : List UInt32 := [HksKeyAlg.hkdf, HksKeyAlg.pbkdf2, HksKeyAlg.gmkdf]

-- `g_digest` and `g_macDigest`
def checkedDigest : List UInt32 :=
  [HksKeyDigest.sha1, HksKeyDigest.sha224, HksKeyDigest.sha256, HksKeyDigest.sha384,
    HksKeyDigest.sha512, HksKeyDigest.sm3]

def rsaSignPadding : List UInt32 :=
  [HksKeyPadding.pss, HksKeyPadding.pkcs1, HksKeyPadding.iso97962]

section Check

variable (engine : EngineEnv) (env : OneStageEnv)

-- The purpose that a command needs.
def HksCmdId.purpose : HksCmdId → UInt32
  | sign    => HksKeyPurpose.sign
  | verify  => HksKeyPurpose.verify
  | encrypt => HksKeyPurpose.encrypt
  | decrypt => HksKeyPurpose.decrypt

def hksCheckSignVerifyMutableParams (cmdId : HksCmdId) (alg : UInt32) (inputParams : ParamsValues) :
    Except HksErrorCode Unit :=
  if cmdId ≠ .sign ∧ cmdId ≠ .verify then
    .error .invalidArgument
  else if inputParams.purpose.value &&& cmdId.purpose = 0 then
    .error .invalidPurpose
  else if alg = HksKeyAlg.rsa ∧ env.supportAlg HksKeyAlg.rsa then
    (hksCheckValue inputParams.padding.value rsaSignPadding).orError .invalidPadding
  else
    .ok ()

def hksCheckCipherMutableParams (cmdId : HksCmdId) (alg : UInt32) (inputParams : ParamsValues) :
    Except HksErrorCode Unit :=
  if cmdId ≠ .encrypt ∧ cmdId ≠ .decrypt then
    .error .invalidArgument
  else if inputParams.purpose.value &&& cmdId.purpose = 0 then
    .error .invalidPurpose
  else
    env.checkCipherPadding alg inputParams

def checkSignVerifyParamsByAlg (cmdId : HksCmdId) (alg : UInt32) (inputParams : ParamsValues) :
    Except HksErrorCode Unit := do
  env.hksCheckFixedParams alg inputParams
  hksCheckSignVerifyMutableParams env cmdId alg inputParams

def checkCipherParamsByAlg (cmdId : HksCmdId) (alg : UInt32) (paramSet : HksParamSet)
    (inputParams : ParamsValues) : Except HksErrorCode Unit := do
  env.hksCheckFixedParams alg inputParams
  hksCheckCipherMutableParams env cmdId alg inputParams
  env.hksCheckCipherMaterialParams alg inputParams paramSet

def hksCoreCheckSignVerifyParams (cmdId : HksCmdId) (key : Bytes) (paramSet : HksParamSet)
    (signatureSize : UInt32) : Except HksErrorCode Unit := do
  let alg ← checkAndGetAlgorithm env paramSet signAlg
  let params ← hksGetInputParmasByAlg env alg paramSet
  checkSignVerifyParamsByAlg env cmdId alg params
  let keySize ← env.hksGetKeySize alg key
  engine.hksCheckSignature (cmdId = .sign) alg keySize signatureSize.toNat

-- For some algorithms the size of the key takes the place of the one that the caller names.
def fillKeyLen (alg : UInt32) (key : Bytes) (params : ParamsValues) :
    Except HksErrorCode ParamsValues :=
  if alg = HksKeyAlg.rsa ∨ alg = HksKeyAlg.sm4 ∨ alg = HksKeyAlg.sm2 then do
    let keySize ← env.hksGetKeySize alg key
    return { params with keyLen := { params.keyLen with value := keySize } }
  else
    .ok params

def hksCoreCheckCipherParams (cmdId : HksCmdId) (key : Bytes) (paramSet : HksParamSet)
    (inSize outSize : UInt32) : Except HksErrorCode Unit := do
  let alg ← checkAndGetAlgorithm env paramSet cipherAlg
  let params ← hksGetInputParmasByAlg env alg paramSet
  let params ← fillKeyLen env alg key params
  checkCipherParamsByAlg env cmdId alg paramSet params
  env.hksCheckCipherData cmdId alg params inSize outSize

def hksCoreCheckAgreeKeyParams (paramSet : HksParamSet) (privateKey : Bytes)
    (agreedKeySize : UInt32) : Except HksErrorCode Unit := do
  let alg ← checkAndGetAlgorithm env paramSet agreeAlg
  let keySize ← env.hksGetKeySize alg privateKey
  if agreedKeySize < keySize / 8 + keySize % 8 then throw .bufferTooSmall

def checkPbkdf2DeriveKeyParams (paramSet : HksParamSet) : Except HksErrorCode Unit := do
  let iteration ← (getUInt32 paramSet HksTag.iteration).orError .checkGetIterationFail
  if iteration < hksDefaultPbkdf2Iteration ∨ iteration > hksMaxPbkdf2Iteration then
    throw .invalidIteration
  let saltParam ← (hksGetParam paramSet HksTag.salt).orError .checkGetSaltFail
  if ¬saltParam.checkBlob ∨ saltParam.blobSize < hksDefaultPbkdf2SaltSize then throw .invalidSalt

-- The check of the purpose that derive and MAC make; both ask for exactly one purpose.
def checkExactPurpose (paramSet : HksParamSet) (purpose : UInt32) : Except HksErrorCode Unit := do
  let purposeParam ← (getUInt32 paramSet HksTag.purpose).orError .checkGetPurposeFail
  if purposeParam ≠ purpose then throw .invalidPurpose

def hksCoreCheckDeriveKeyParams (paramSet : HksParamSet) : Except HksErrorCode Unit := do
  let alg ← checkAndGetAlgorithm env paramSet deriveAlg
  checkExactPurpose paramSet HksKeyPurpose.derive
  discard <| checkAndGetDigest paramSet checkedDigest
  if alg = HksKeyAlg.pbkdf2 then
    checkPbkdf2DeriveKeyParams paramSet

def checkMacPurpose (paramSet : HksParamSet) : Except HksErrorCode Unit :=
  checkExactPurpose paramSet HksKeyPurpose.mac

def checkMacOutput (paramSet : HksParamSet) (macSize : UInt32) : Except HksErrorCode Unit := do
  let digest ← checkAndGetDigest paramSet checkedDigest
  let digestLen ← hksGetDigestLen digest
  if macSize < digestLen then throw .bufferTooSmall

def hksCoreCheckMacParams (paramSet : HksParamSet) (macSize : UInt32) :
    Except HksErrorCode Unit := do
  checkMacPurpose paramSet
  checkMacOutput paramSet macSize

end Check

end Huks
