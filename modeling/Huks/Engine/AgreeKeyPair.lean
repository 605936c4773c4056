import Huks.Common.SizeT
import Huks.Crypto.KeyMaterial
import Huks.Engine.OneStage

namespace Huks.InPlace

-- `sizeof(struct Hks25519KeyPair)`: the size of the public part and the one of the private part
def keyPairSize : Nat := 8

def checkAgreeKeyIn (word : SizeT) (key : Bytes) : Except (Stop HksErrorCode) Unit := do
  if key = [] ∨ key.length < keyPairSize then
    throw (.error .invalidArgument)
  else
    let publicBufferSize ← readWord key 0
    let privateBufferSize ← readWord key 1
    if privateBufferSize.toNat > word.sub key.length keyPairSize ∨
        publicBufferSize.toNat > word.sub (word.sub key.length keyPairSize) privateBufferSize.toNat then
      throw (.error .invalidArgument)

section

-- What `HksGenerateKeyNode` makes of a key blob
variable (keyNode : Bytes → Option HksParamSet)

def getAgreeBaseKey (isPubKey isPlainPubKey : Bool) (keyIn : Bytes) : Except (Stop HksErrorCode) Bytes := do
  let publicBufferSize ← readWord keyIn 0
  let privateBufferSize ← readWord keyIn 1
  let size := if isPubKey then publicBufferSize else privateBufferSize
  if ¬mallocOk size.toNat then
    throw (.error .mallocFail)
  else
    let tmp := if isPubKey then keyPairSize else keyPairSize + publicBufferSize.toNat
    let buffer ← readAt keyIn tmp size.toNat
    if isPlainPubKey then
      return buffer
    else
      match keyNode buffer with
      | none          => throw (.error .corruptFile)
      | some paramSet => checked do
        refuseUserAuth paramSet
        hksGetRawKey paramSet

def getAgreePriKey (keyIn : Bytes) : Except (Stop HksErrorCode) Bytes := getAgreeBaseKey keyNode false false keyIn

-- The caller gives a public key itself, and no alias of one.
def isPlainPublicKey (paramSet : HksParamSet) : Bool :=
  match hksGetParam paramSet HksTag.agreePublicKeyIsKeyAlias with
  | .ok isKeyAliasParam => ¬isKeyAliasParam.boolParam
  | .error _            => false

def getAgreePubKey (paramSet : HksParamSet) (keyIn : Bytes) : Except (Stop HksErrorCode) Bytes :=
  getAgreeBaseKey keyNode true (isPlainPublicKey paramSet) keyIn

-- `HksCryptoHalAgreeKey` of an algorithm, a private and a public key
variable (agreeKey : UInt32 → Bytes → Bytes → Except HksErrorCode Bytes)

def genAgreeKey (paramSet : HksParamSet) (privateKey peerPublicKey : Bytes) : Except HksErrorCode Bytes := do
  let agreeAlg ← getUInt32 paramSet HksTag.agreeAlg
  if agreeAlg = HksKeyAlg.x25519 ∨ agreeAlg = HksKeyAlg.ed25519 then
    agreeKey agreeAlg privateKey peerPublicKey
  else
    throw .invalidArgument

def genKeyByAgree (word : SizeT) (paramSet : HksParamSet) (keyIn : Bytes) : Except (Stop HksErrorCode) Bytes := do
  checkAgreeKeyIn word keyIn
  let priKey ← getAgreePriKey keyNode keyIn
  let pubKey ← getAgreePubKey keyNode paramSet keyIn
  checked (genAgreeKey agreeKey paramSet priKey pubKey)

end

end Huks.InPlace
