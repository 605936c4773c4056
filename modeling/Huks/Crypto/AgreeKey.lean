import Huks.Crypto.OpenSsl
import Huks.Crypto.PublicKeyFormat
import Huks.Engine.CheckParamSet
import Huks.Lib.OutBuffer

namespace Huks

variable (lib : OpenSsl) (nativeKey pubKey : Bytes) (keyLen : UInt32)

-- `AgreeKeyEcdh`, which answers each failure with the same error.
def agreeKeyEcdh (sharedKeySize : UInt32) : Except (Stop HksErrorCode) Bytes := do
  let pKey ← notNull .cryptoEngineError (eccInitPrivate lib nativeKey)
  let peerKey ← notNull .cryptoEngineError (eccInitPublic lib pubKey)
  let sharedKey ← notNull .cryptoEngineError (return lib.ecDerive pKey peerKey)
  if sharedKeySize.toNat < sharedKey.length then
    throw (.error .cryptoEngineError)
  else
    return sharedKey

def hksOpensslEcdhAgreeKey (sharedKeySize : UInt32) : Except (Stop HksErrorCode) Bytes :=
  if eccKeySize keyLen then
    agreeKeyEcdh lib nativeKey pubKey sharedKeySize
  else
    throw (.error .invalidArgument)

def importX25519EvpKey : Except (Stop HksErrorCode) (Bytes × Bytes) := do
  let ours ← notNull .cryptoEngineError (curve25519PrivateKey nativeKey)
  let theirs ← notNull .cryptoEngineError (curve25519PublicKey pubKey)
  return (ours, theirs)

def hksOpensslX25519AgreeKey (sharedKeySize : UInt32) : Except (Stop HksErrorCode) Bytes := do
  let (ours, theirs) ← importX25519EvpKey nativeKey pubKey
  notNull .cryptoEngineError (return lib.x25519Derive ours theirs sharedKeySize)

-- `DH_size`, which reads through its argument.
def dhSize (dh : Option Dh) : Except (Stop HksErrorCode) UInt32 :=
  match dh with
  | some dh => return lib.dhSize dh.keySize
  | none    => throw .outside

def hksOpensslDhAgreeKey (sharedKeySize : UInt32) : Except (Stop HksErrorCode) Bytes := do
  if sharedKeySize < hksKeyBytes keyLen then throw (.error .invalidKeySize)
  let pubKeySize ← readWord pubKey 2
  let pub ← notNull .cryptoEngineError (bnBin2bn pubKey 20 pubKeySize)
  hksOpensslCheckDhKey lib pubKey HksImportKeyType.publicKey
  let dh ← initDhStruct nativeKey
  let size ← dhSize lib dh
  let computeKey ← notNull .cryptoEngineError (return dh.bind fun dh => lib.dhComputeKey dh pub)
  if size < hksKeyBytes keyLen then
    throw (.error .invalidKeySize)
  else if sharedKeySize = 0 ∨ OutBuffer.secureMemMaxLen < sharedKeySize.toNat then
    throw (.error .insufficientMemory)
  else
    return computeKey.take (hksKeyBytes keyLen).toNat

-- The algorithms that two keys are agreed by
inductive AgreeAlg
  | ecdh | x25519 | dh
  deriving DecidableEq, Repr

namespace AgreeAlg

def keyAlg : AgreeAlg → UInt32
  | ecdh   => HksKeyAlg.ecdh
  | x25519 => HksKeyAlg.x25519
  | dh     => HksKeyAlg.dh

-- How the routine of the algorithm reads its two keys
def format : AgreeAlg → KeyFormat
  | ecdh   => .ecc
  | x25519 => .curve25519
  | dh     => .dh

end AgreeAlg

-- The routine that is registered for the algorithm, and the check before it
def hksCryptoHalAgreeKey (alg : AgreeAlg) (sharedKeySize : UInt32) : Except (Stop HksErrorCode) Bytes :=
  if nativeKey = [] ∨ pubKey = [] then
    throw (.error .invalidArgument)
  else
    match alg with
    | .ecdh   => hksOpensslEcdhAgreeKey lib nativeKey pubKey keyLen sharedKeySize
    | .x25519 => hksOpensslX25519AgreeKey lib nativeKey pubKey sharedKeySize
    | .dh     => hksOpensslDhAgreeKey lib nativeKey pubKey keyLen sharedKeySize

section Core

variable (env : OneStageEnv) (reader : PublicKeyReader) (rawKey : Except HksErrorCode Bytes) (alg : AgreeAlg)

-- `HksCoreAgreeKey`; `rawKey` is what comes of the key node, the identity check, the question for a
-- user authentication and `HksGetRawKey`, none of which looks at the key of the peer.
def coreAgreeKey (paramSet : HksParamSet) (privateKey peerPublicKey : Bytes) (agreedKeySize : UInt32) :
    Except (Stop HksErrorCode) Bytes := do
  checked (hksCoreCheckAgreeKeyParams env paramSet privateKey agreedKeySize)
  let key ← checked rawKey
  hksCryptoHalAgreeKey lib key peerPublicKey (hksFillKeySpec paramSet).keyLen alg agreedKeySize

-- `agreed`: an earlier update has already left a key in the context.
def coreAgreeThreeStageUpdate (agreed : Bool) (srcData : Bytes) : Except (Stop HksErrorCode) Bytes := do
  if agreed then throw (.error .failure)
  let publicKey ← checked (getHksPubKeyInnerFormat reader alg.keyAlg srcData)
  let rawKey ← checked rawKey
  hksCryptoHalAgreeKey lib rawKey publicKey keyLen alg maxKeySize

end Core

end Huks
