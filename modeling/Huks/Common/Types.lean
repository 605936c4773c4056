import Mathlib.Data.List.Basic

namespace Huks

abbrev Bytes := List UInt8

-- `HksMalloc` refuses an empty request and one of more than 8 MB.
def mallocOk (size : Nat) : Bool := 0 < size ∧ size ≤ 0x800000

theorem mallocOk_iff {size : Nat} : mallocOk size ↔ 0 < size ∧ size ≤ 0x800000 := decide_eq_true_iff

-- The little-endian value of at most eight bytes.
def le64 (bytes : Bytes) : UInt64 := bytes.foldr (fun b n => n <<< 8 ||| b.toUInt64) 0

def le32 (bytes : Bytes) : UInt32 := (le64 (bytes.take 4)).toUInt32

def toBytes32 (n : UInt32) : Bytes :=
  [n.toUInt8, (n >>> 8).toUInt8, (n >>> 16).toUInt8, (n >>> 24).toUInt8]

def toBytes64 (n : UInt64) : Bytes :=
  go 8 n
where
  go : Nat → UInt64 → Bytes
  | 0, _     => []
  | k + 1, n => n.toUInt8 :: go k (n >>> 8)

-- `enum HksErrorCode` without `HKS_SUCCESS`: a call that returns a code other than success is
-- an `Except.error`.
inductive HksErrorCode
  | failure | badState | invalidArgument | notSupported | noPermission | insufficientData
  | bufferTooSmall | insufficientMemory | communicationFailure | storageFailure | hardwareFailure
  | alreadyExists | notExist | nullPointer | fileSizeFail | readFileFail | invalidPublicKey
  | invalidPrivateKey | invalidKeyInfo | hashNotEqual | mallocFail | writeFileFail
  | removeFileFail | openFileFail | closeFileFail | makeDirFail | invalidKeyFile | ipcMsgFail
  | requestOverflows | paramNotExist | cryptoEngineError | communicationTimeout | ipcInitFail
  | ipcDlopenFail | efuseReadFail | newRootKeyMaterialExist | updateRootKeyMaterialFail
  | verificationFailed | sessionReachedLimit | getUseriamSecinfoFailed | getUseriamAuthinfoFailed
  | userAuthTypeNotSupport | keyAuthFailed | deviceNoCredential | apiNotSupported
  | keyAuthPermanentlyInvalidated | keyAuthVerifyFailed | keyAuthTimeOut | credentialNotExist
  | checkGetAlgFail | checkGetKeySizeFail | checkGetPaddingFail | checkGetPurposeFail
  | checkGetDigestFail | checkGetModeFail | checkGetNonceFail | checkGetAadFail | checkGetIvFail
  | checkGetAeTagFail | checkGetSaltFail | checkGetIterationFail | invalidAlgorithm
  | invalidKeySize | invalidPadding | invalidPurpose | invalidMode | invalidDigest
  | invalidSignatureSize | invalidIv | invalidAad | invalidNonce | invalidAeTag | invalidSalt
  | invalidIteration | invalidOperation | invalidWrappedFormat | invalidUsageOfKey
  | checkGetAuthTypFailed | checkGetChallengeTypeFailed | checkGetAccessTypeFailed
  | checkGetAuthTokenFailed | invalidTimeOut | invalidAuthType | invalidChallengeType
  | invalidAccessType | invalidAuthToken | invalidSecureSignType | needSkipAccessControl
  | devicePasswordUnset | notSystemApp | exceedLimit | upgradeFail | invalidAccountInfo
  | corruptFile | keyNodeNotFound | keyNodeInUse | retryableError | loadPluginFail
  | internalError | unknownError
  deriving DecidableEq, Repr

namespace HksKeyPurpose
def encrypt : UInt32 := 1
def decrypt : UInt32 := 2
def sign    : UInt32 := 4
def verify  : UInt32 := 8
def derive  : UInt32 := 16
def wrap    : UInt32 := 32
def unwrap  : UInt32 := 64
def mac     : UInt32 := 128
def agree   : UInt32 := 256
end HksKeyPurpose

namespace HksKeyAlg
def rsa     : UInt32 := 1
def ecc     : UInt32 := 2
def dsa     : UInt32 := 3
def aes     : UInt32 := 20
def hmac    : UInt32 := 50
def hkdf    : UInt32 := 51
def pbkdf2  : UInt32 := 52
def gmkdf   : UInt32 := 53
def ecdh    : UInt32 := 100
def x25519  : UInt32 := 101
def ed25519 : UInt32 := 102
def dh      : UInt32 := 103
def sm2     : UInt32 := 150
def sm3     : UInt32 := 151
def sm4     : UInt32 := 152
def des     : UInt32 := 160
def tripleDes : UInt32 := 161
def cmac    : UInt32 := 162
end HksKeyAlg

namespace HksCipherMode
def ecb : UInt32 := 1
def cbc : UInt32 := 2
def ctr : UInt32 := 3
def ofb : UInt32 := 4
def cfb : UInt32 := 5
def ccm : UInt32 := 31
def gcm : UInt32 := 32
end HksCipherMode

namespace HksKeyPadding
def none     : UInt32 := 0
def oaep     : UInt32 := 1
def pss      : UInt32 := 2
def pkcs1    : UInt32 := 3
def pkcs5    : UInt32 := 4
def pkcs7    : UInt32 := 5
def iso97962 : UInt32 := 6
end HksKeyPadding

namespace HksKeyDigest
def none   : UInt32 := 0
def md5    : UInt32 := 1
def sm3    : UInt32 := 2
def sha1   : UInt32 := 10
def sha224 : UInt32 := 11
def sha256 : UInt32 := 12
def sha384 : UInt32 := 13
def sha512 : UInt32 := 14
end HksKeyDigest

namespace HksKeyStorageType
def temp             : UInt32 := 0
def persistent       : UInt32 := 1
def onlyUsedInHuks   : UInt32 := 2
def allowKeyExported : UInt32 := 3
end HksKeyStorageType

namespace HksRsaPssSaltLenType
def digest : UInt32 := 0
def max    : UInt32 := 1
end HksRsaPssSaltLenType

namespace HksUserAuthType
def fingerprint : UInt32 := 1
def face        : UInt32 := 2
def pin         : UInt32 := 4
end HksUserAuthType

namespace HksAuthAccessType
def invalidClearPassword : UInt32 := 1
def invalidNewBioEnroll  : UInt32 := 2
def alwaysValid          : UInt32 := 4
end HksAuthAccessType

namespace HksChallengeType
def normal : UInt32 := 0
def custom : UInt32 := 1
def none   : UInt32 := 2
end HksChallengeType

namespace HksUserAuthMode
def localAuth : UInt32 := 0
def coauth    : UInt32 := 1
end HksUserAuthMode

-- `enum HksAuthResult`, as stored in a `uint32_t`.
namespace HksAuthResult
def none    : UInt32 := 0xfffffffe
def init    : UInt32 := 0xffffffff
def success : UInt32 := 0
def failed  : UInt32 := 1
end HksAuthResult

end Huks
