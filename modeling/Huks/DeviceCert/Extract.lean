import Huks.DeviceCert.Asn1
import Huks.Lib.Access
import Mathlib.Data.UInt

namespace Huks

namespace Asn1Tag
def seq      : UInt32 := 0x30
def ctxSpec0 : UInt32 := 0xA0
def ctxSpec3 : UInt32 := 0xA3
end Asn1Tag

namespace InPlace

-- The bytes that are decoded, and where they lie.
structure Input where
  base    : Nat
  bytes   : Bytes
  base_ne : base ≠ 0
  size_lt : bytes.length < UInt32.size

namespace Input

def load (input : Input) (a : Nat) : Except (Stop HksErrorCode) UInt8 :=
  if input.base ≤ a then elemAt input.bytes (a - input.base) else .error .outside

def loadRange (input : Input) (a n : Nat) : Except (Stop HksErrorCode) Bytes :=
  if n = 0 ∨ input.base ≤ a then readAt input.bytes (a - input.base) n else .error .outside

end Input

-- The calls of `DcmAsn1ExtractTag`, each with the range that it gets.
abbrev ParseM := EStateM (Stop HksErrorCode) (List HksBlob)

def loading {α : Type} (x : Except (Stop HksErrorCode) α) : ParseM α := MonadExcept.ofExcept x

-- What a call returns, and what it leaves in `next` and `obj`: both may have changed when it failed.
structure Extracted where
  ret  : Except HksErrorCode Unit
  next : HksBlob
  obj  : HksAsn1Obj

def zeroObj : HksAsn1Obj := ⟨⟨0, 0, 0⟩, ⟨0, 0, 0⟩⟩

section Decoder

variable (input : Input)

-- The length that a header holds, and the size of the header.
def asn1DecodeLength (data : HksBlob) :
    Except (Stop HksErrorCode) (Except HksErrorCode (UInt32 × UInt32)) := do
  let first ← input.load (data.data + 1)
  if first.toUInt32 < asn1MinVal1ExtraLenByte then
    return .ok (first.toUInt32, 2)
  else if first = asn1TagType1ByteLen then
    return .ok ((← input.load (data.data + 2)).toUInt32, 3)
  else if first = asn1TagType2ByteLen then
    if data.size < asn1MinHeaderLen + 1 then
      return .error .insufficientData
    else do
      let high ← input.load (data.data + 2)
      let low ← input.load (data.data + 3)
      return .ok (high.toUInt32 <<< 8 ||| low.toUInt32, 4)
  else
    return .error .invalidArgument

def asn1GetObj (next : HksBlob) (obj : HksAsn1Obj) (data : HksBlob) :
    Except (Stop HksErrorCode) Extracted := do
  let obj := { obj with header := { obj.header with data := data.data } }
  if data.data = 0 then
    return ⟨.error .invalidArgument, next, obj⟩
  else do
    let type := (← input.load data.data).toUInt32
    let obj := { obj with header := { obj.header with type := type } }
    match ← asn1DecodeLength input data with
    | .error e              => return ⟨.error e, next, obj⟩
    | .ok (length, headerSize) =>
      let obj := { obj with header := { obj.header with size := headerSize } }
      if length > data.size - headerSize then
        return ⟨.error .insufficientData, next, obj⟩
      else
        return {
          ret  := .ok ()
          next := ⟨data.size - headerSize - length, data.data + headerSize.toNat + length.toNat⟩
          obj  := { obj with value := ⟨type, length, data.data + headerSize.toNat⟩ }
        }

def dcmAsn1ExtractTag (next : HksBlob) (obj : HksAsn1Obj) (data : HksBlob) (expectedTag : UInt32) :
    ParseM Extracted := do
  modify fun calls => calls ++ [data]
  if data.size < asn1MinHeaderLen then
    return ⟨.error .invalidArgument, next, obj⟩
  else do
    let extracted ← loading (asn1GetObj input next obj data)
    match extracted.ret with
    | .error _ => return extracted
    | .ok _    =>
      if extracted.obj.header.type ≠ expectedTag then
        return { extracted with ret := .error .invalidArgument }
      else
        return extracted

-- A call with `val` as what is decoded and as what is left
def extractNext (obj : HksAsn1Obj) (val : HksBlob) (expectedTag : UInt32) : ParseM Extracted :=
  dcmAsn1ExtractTag input val obj val expectedTag

def contentOf (obj : HksAsn1Obj) : HksBlob := ⟨obj.value.size, obj.value.data⟩

end Decoder

structure HksAttestTbsSpec where
  version    : HksAsn1Obj := zeroObj
  serial     : HksAsn1Obj := zeroObj
  signature  : HksAsn1Obj := zeroObj
  issuer     : HksAsn1Obj := zeroObj
  validity   : HksAsn1Obj := zeroObj
  subject    : HksAsn1Obj := zeroObj
  spki       : HksAsn1Obj := zeroObj
  extensions : HksAsn1Obj := zeroObj

structure HksAttestCert where
  tbs       : HksAttestTbsSpec := {}
  signAlg   : HksAsn1Obj := zeroObj
  signature : HksAsn1Obj := zeroObj

structure HksAttestExt where
  seq      : HksAsn1Obj := zeroObj
  keyUsage : HksAsn1Obj := zeroObj
  crl      : HksAsn1Obj := zeroObj
  claims   : HksAsn1Obj := zeroObj

def isValidTlv (obj : HksAsn1Obj) : Bool :=
  obj.value.data ≠ 0 ∧ obj.header.data ≠ 0 ∧ obj.value.size + obj.header.size ≥ asn1MinHeaderLen

def isValidAttestTbs (tbsSpec : HksAttestTbsSpec) : Bool :=
  isValidTlv tbsSpec.version ∧ isValidTlv tbsSpec.serial ∧ isValidTlv tbsSpec.signature ∧
    isValidTlv tbsSpec.issuer ∧ isValidTlv tbsSpec.validity ∧ isValidTlv tbsSpec.subject ∧
    isValidTlv tbsSpec.spki ∧ isValidTlv tbsSpec.extensions

section Parsers

variable (input : Input)

def isValidAttestCert (cert : HksAttestCert) : Except (Stop HksErrorCode) Bool := do
  if ¬isValidAttestTbs cert.tbs ∨ ¬isValidTlv cert.signAlg ∨ ¬isValidTlv cert.signature then
    return false
  else if cert.signAlg.value.size ≠ cert.tbs.signature.value.size then
    return false
  else do
    let signAlg ← input.loadRange cert.signAlg.value.data cert.signAlg.value.size.toNat
    let signature ← input.loadRange cert.tbs.signature.value.data cert.signAlg.value.size.toNat
    return signAlg = signature

-- The codes of the calls are only added up for the log.
def parseAttestTbs (template : HksBlob) (tbsSpec : HksAttestTbsSpec) : ParseM HksAttestTbsSpec := do
  let outer ← dcmAsn1ExtractTag input ⟨0, 0⟩ zeroObj template Asn1Tag.seq
  let version ← extractNext input tbsSpec.version (contentOf outer.obj) Asn1Tag.ctxSpec0
  let serial ← extractNext input tbsSpec.serial version.next Asn1Tag.int
  let signature ← extractNext input tbsSpec.signature serial.next Asn1Tag.seq
  let issuer ← extractNext input tbsSpec.issuer signature.next Asn1Tag.seq
  let validity ← extractNext input tbsSpec.validity issuer.next Asn1Tag.seq
  let subject ← extractNext input tbsSpec.subject validity.next Asn1Tag.seq
  let spki ← extractNext input tbsSpec.spki subject.next Asn1Tag.seq
  let extensions ← extractNext input tbsSpec.extensions spki.next Asn1Tag.ctxSpec3
  return ⟨version.obj, serial.obj, signature.obj, issuer.obj, validity.obj, subject.obj, spki.obj, extensions.obj⟩

def parseAttestCert (devCert : HksBlob) (cert : HksAttestCert) : ParseM HksAttestCert := do
  let outer ← dcmAsn1ExtractTag input ⟨0, 0⟩ zeroObj devCert Asn1Tag.seq
  let val := contentOf outer.obj
  let tbs ← parseAttestTbs input val cert.tbs
  let skip ← extractNext input zeroObj val Asn1Tag.seq
  let signAlg ← extractNext input cert.signAlg skip.next Asn1Tag.seq
  let signature ← extractNext input cert.signature signAlg.next Asn1Tag.bitStr
  let cert : HksAttestCert := ⟨tbs, signAlg.obj, signature.obj⟩
  discard <| loading (isValidAttestCert input cert)
  return cert

def parseAttestExtension (data : HksBlob) (ext : HksAttestExt) : ParseM HksAttestExt := do
  let seq ← extractNext input ext.seq data Asn1Tag.seq
  let keyUsage ← extractNext input ext.keyUsage (contentOf seq.obj) Asn1Tag.seq
  let crl ← extractNext input ext.crl keyUsage.next Asn1Tag.seq
  let claims ← extractNext input ext.claims crl.next Asn1Tag.seq
  return ⟨seq.obj, keyUsage.obj, crl.obj, claims.obj⟩

-- Who returns with the code of a call goes on only after a success.
def succeeded (extracted : Extracted) : ParseM Extracted :=
  match extracted.ret with
  | .ok _    => return extracted
  | .error e => throw (.error e)

def stepIntoPrivateKey (key : HksBlob) : ParseM HksBlob := do
  let outer ← succeeded (← dcmAsn1ExtractTag input ⟨0, 0⟩ zeroObj key Asn1Tag.seq)
  let version ← succeeded (← extractNext input outer.obj (contentOf outer.obj) Asn1Tag.int)
  return version.next

def sizeOfKeyMaterialRsa : UInt32 := 20

-- One component of the key, and where the next one goes in the material
def getPrivateKeyComponent (obj : HksAsn1Obj) (val : HksBlob) (materialSize offset : UInt32) :
    ParseM (Extracted × Bytes) := do
  let extracted ← succeeded (← extractNext input obj val Asn1Tag.int)
  let value := extracted.obj.value
  if materialSize - offset = 0 ∨ value.size > materialSize - offset then
    throw (.error .insufficientMemory)
  else do
    return (extracted, ← loading (input.loadRange value.data value.size.toNat))

-- What is in the material when all three components are there.
def getPrivateKeyMaterial (val : HksBlob) (materialSize : UInt32) : ParseM Bytes := do
  let offset := sizeOfKeyMaterialRsa
  let (first, n) ← getPrivateKeyComponent input zeroObj val materialSize offset
  let offset := offset + first.obj.value.size
  let (second, e) ← getPrivateKeyComponent input first.obj first.next materialSize offset
  let offset := offset + second.obj.value.size
  let (third, d) ← getPrivateKeyComponent input second.obj second.next materialSize offset
  return toBytes32 HksKeyAlg.rsa ++ toBytes32 2048 ++ toBytes32 first.obj.value.size ++
    toBytes32 second.obj.value.size ++ toBytes32 third.obj.value.size ++ n ++ e ++ d

def hksGetDevicePrivateKey (key : HksBlob) : ParseM Bytes := do
  let val ← stepIntoPrivateKey input key
  getPrivateKeyMaterial input val (sizeOfKeyMaterialRsa + 2048 / 8 * 3)

end Parsers

end InPlace

end Huks
