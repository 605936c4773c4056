import Huks.Common.Types

namespace Huks

inductive HksTagType
  | invalid | int | uint | ulong | bool | bytes
  deriving DecidableEq, Repr

-- Tags arrive as raw words in a param set, so a tag is a `UInt32` and not an enumeration; the
-- top four bits are its type.
namespace HksTag

def algorithm : UInt32 := 0x20000001
def purpose : UInt32 := 0x20000002
def keySize : UInt32 := 0x20000003
def digest : UInt32 := 0x20000004
def padding : UInt32 := 0x20000005
def blockMode : UInt32 := 0x20000006
def keyType : UInt32 := 0x20000007
def associatedData : UInt32 := 0x50000008
def nonce : UInt32 := 0x50000009
def iv : UInt32 := 0x5000000a
def salt : UInt32 := 0x5000000c
def pwd : UInt32 := 0x5000000d
def info : UInt32 := 0x5000000b
def iteration : UInt32 := 0x2000000e
def keyGenerateType : UInt32 := 0x2000000f
def deriveMainKey : UInt32 := 0x50000010
def deriveFactor : UInt32 := 0x50000011
def deriveAlg : UInt32 := 0x20000012
def agreeAlg : UInt32 := 0x20000013
def agreePublicKeyIsKeyAlias : UInt32 := 0x40000014
def agreePrivateKeyAlias : UInt32 := 0x50000015
def agreePublicKey : UInt32 := 0x50000016
def keyAlias : UInt32 := 0x50000017
def deriveKeySize : UInt32 := 0x20000018
def importKeyType : UInt32 := 0x20000019
def unwrapAlgorithmSuite : UInt32 := 0x2000001a
def deriveAgreeKeyStorageFlag : UInt32 := 0x2000001d
def rsaPssSaltLenType : UInt32 := 0x2000001e
def mgfDigest : UInt32 := 0x2000001f
def activeDatetime : UInt32 := 0x300000c9
def originationExpireDatetime : UInt32 := 0x300000ca
def usageExpireDatetime : UInt32 := 0x300000cb
def creationDatetime : UInt32 := 0x300000cc
def allUsers : UInt32 := 0x4000012d
def userId : UInt32 := 0x2000012e
def frontUserId : UInt32 := 0x10000138
def noAuthRequired : UInt32 := 0x4000012f
def userAuthType : UInt32 := 0x20000130
def authTimeout : UInt32 := 0x20000131
def authToken : UInt32 := 0x50000132
def authStorageLevel : UInt32 := 0x2000013c
def specificUserId : UInt32 := 0x1000013d
def osVersion : UInt32 := 0x20002775
def osPatchlevel : UInt32 := 0x20002776
def attestationChallenge : UInt32 := 0x500001f5
def attestationApplicationId : UInt32 := 0x500001f6
def attestationApplicationIdType : UInt32 := 0x20000206
def attestationIdBrand : UInt32 := 0x500001f7
def attestationIdDevice : UInt32 := 0x500001f8
def attestationIdProduct : UInt32 := 0x500001f9
def attestationIdSerial : UInt32 := 0x500001fa
def attestationIdImei : UInt32 := 0x500001fb
def attestationIdMeid : UInt32 := 0x500001fc
def attestationIdManufacturer : UInt32 := 0x500001fd
def attestationIdModel : UInt32 := 0x500001fe
def attestationIdAlias : UInt32 := 0x500001ff
def attestationIdSocid : UInt32 := 0x50000200
def attestationIdUdid : UInt32 := 0x50000201
def attestationIdSecLevelInfo : UInt32 := 0x50000202
def attestationIdVersionInfo : UInt32 := 0x50000203
def attestationBase64 : UInt32 := 0x40000204
def attestationMode : UInt32 := 0x20000205
def attestationCertType : UInt32 := 0x200186a1
def isKeyAlias : UInt32 := 0x400003e9
def keyStorageFlag : UInt32 := 0x200003ea
def isAllowedWrap : UInt32 := 0x400003eb
def keyWrapType : UInt32 := 0x200003ec
def wrapKeyVersion : UInt32 := 0x200003f8
def isAllowedDataWrap : UInt32 := 0x400003f7
def dataWrapType : UInt32 := 0x200003f6
def keyAuthId : UInt32 := 0x500003ed
def keyRole : UInt32 := 0x200003ee
def keyFlag : UInt32 := 0x200003ef
def keyDomain : UInt32 := 0x200003f3
def keyAuthAccessType : UInt32 := 0x20000133
def keySecureSignType : UInt32 := 0x20000134
def challengeType : UInt32 := 0x20000135
def challengePos : UInt32 := 0x20000136
def keyAuthPurpose : UInt32 := 0x20000137
def batchPurpose : UInt32 := 0x20000139
def isBatchOperation : UInt32 := 0x4000013a
def batchOperationTimeout : UInt32 := 0x2000013b
def userAuthMode : UInt32 := 0x2000013f
def keyInitChallenge : UInt32 := 0x5000271b
def isUserAuthAccess : UInt32 := 0x4000271c
def userAuthChallenge : UInt32 := 0x5000271d
def userAuthEnrollIdInfo : UInt32 := 0x5000271e
def userAuthSecureUid : UInt32 := 0x5000271f
def keyAuthResult : UInt32 := 0x10002720
def ifNeedAppendAuthInfo : UInt32 := 0x40002721
def verifiedAuthToken : UInt32 := 0x50002722
def isAppendUpdateData : UInt32 := 0x40002723
def processName : UInt32 := 0x50002711
def packageName : UInt32 := 0x50002712
def payloadLen : UInt32 := 0x20002718
def aeTag : UInt32 := 0x50002719
def cryptoCtx : UInt32 := 0x30002715
def key : UInt32 := 0x50002716
def keyVersion : UInt32 := 0x20002717
def isKeyHandle : UInt32 := 0x3000271a
def symmetricKeyData : UInt32 := 0x50004e21
def asymmetricPublicKeyData : UInt32 := 0x50004e22
def asymmetricPrivateKeyData : UInt32 := 0x50004e23
def keyAccessTime : UInt32 := 0x30002724
def accessTokenId : UInt32 := 0x20007545
def bundleName : UInt32 := 0x50007546
def isDevicePasswordSet : UInt32 := 0x400003f4
def accountId : UInt32 := 0x50002727
def ownerId : UInt32 := 0x50002725
def ownerType : UInt32 := 0x20002726
def agreePubkeyType : UInt32 := 0x200003f9

-- Tags of the engine's own, which no caller may pass.
def appendedDataPrefix : UInt32 := 0x50002724
def aesGcmNeedRegenerateNonce : UInt32 := 0x40007547

-- Tags that are no valid ones and only stand in the list of the algorithm tags.
def invalid : UInt32 := 0
def cipherText : UInt32 := 0x5000001b
def peerPublicKey : UInt32 := 0x5000001c
def isAsynchronized : UInt32 := 0x200003f0
def secureKeyAlias : UInt32 := 0x400003f1
def secureKeyUuid : UInt32 := 0x500003f2
def extInfo : UInt32 := 0x500003f5
def accessTime : UInt32 := 0x20002713
def usesTime : UInt32 := 0x20002714

-- `g_validTags`
def validTags : List UInt32 := [
  algorithm, purpose, keySize, digest, padding, blockMode, keyType, associatedData, nonce, iv,
  salt, pwd, info, iteration, keyGenerateType, deriveMainKey, deriveFactor, deriveAlg, agreeAlg,
  agreePublicKeyIsKeyAlias, agreePrivateKeyAlias, agreePublicKey, keyAlias, deriveKeySize,
  importKeyType, unwrapAlgorithmSuite, deriveAgreeKeyStorageFlag, rsaPssSaltLenType, mgfDigest,
  activeDatetime, originationExpireDatetime, usageExpireDatetime, creationDatetime, allUsers,
  userId, frontUserId, noAuthRequired, userAuthType, authTimeout, authToken, authStorageLevel,
  specificUserId, osVersion, osPatchlevel, attestationChallenge, attestationApplicationId,
  attestationApplicationIdType, attestationIdBrand, attestationIdDevice, attestationIdProduct,
  attestationIdSerial, attestationIdImei, attestationIdMeid, attestationIdManufacturer,
  attestationIdModel, attestationIdAlias, attestationIdSocid, attestationIdUdid,
  attestationIdSecLevelInfo, attestationIdVersionInfo, attestationBase64, attestationMode,
  attestationCertType, isKeyAlias, keyStorageFlag, isAllowedWrap, keyWrapType, wrapKeyVersion,
  isAllowedDataWrap, dataWrapType, keyAuthId, keyRole, keyFlag, keyDomain, keyAuthAccessType,
  keySecureSignType, challengeType, challengePos, keyAuthPurpose, batchPurpose, isBatchOperation,
  batchOperationTimeout, userAuthMode, keyInitChallenge, isUserAuthAccess, userAuthChallenge,
  userAuthEnrollIdInfo, userAuthSecureUid, keyAuthResult, ifNeedAppendAuthInfo,
  verifiedAuthToken, isAppendUpdateData, processName, packageName, payloadLen, aeTag, cryptoCtx,
  key, keyVersion, isKeyHandle, symmetricKeyData, asymmetricPublicKeyData,
  asymmetricPrivateKeyData, keyAccessTime, accessTokenId, bundleName, isDevicePasswordSet,
  accountId, ownerId, ownerType, agreePubkeyType
]

end HksTag

def getTagType (tag : UInt32) : HksTagType :=
  match tag >>> 28 with
  | 1 => .int
  | 2 => .uint
  | 3 => .ulong
  | 4 => .bool
  | 5 => .bytes
  | _ => .invalid

def isValidTag (tag : UInt32) : Bool :=
  HksTag.validTags.contains tag

end Huks
