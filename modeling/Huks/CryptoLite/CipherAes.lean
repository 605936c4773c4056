import Huks.Common.Types
import Huks.Lib.Access
import Mathlib.Data.List.TakeWhile
import Mathlib.Algebra.Ring.Int.Defs
import Mathlib.Algebra.Ring.Nat

namespace Huks.CryptoLite

def keyLen       : Nat := 32
def aesBlockSize : Nat := 16

-- `ERROR_CODE_GENERAL`, the only error
inductive CipherError
  | general
  deriving DecidableEq, Repr

abbrev CipherM := Except (Stop CipherError)

-- A string of a caller, without the byte that ends it
structure CString where
  bytes   : Bytes
  nulFree : 0 ∉ bytes
  deriving DecidableEq

-- What a buffer is as a string
def CString.ofBuffer (data : Bytes) : CString where
  bytes   := data.takeWhile (· ≠ 0)
  nulFree := fun h => by simpa using List.mem_takeWhile_imp h

-- `strlen` of a buffer, which has to hold the end of the string
def strlen (data : Bytes) : CipherM Nat :=
  if 0 ∈ data then return (CString.ofBuffer data).bytes.length else throw .outside

-- The library: Base64, and AES in CBC mode with a key of 256 bits
structure Mbedtls where
  base64Encode      : Bytes → Bytes
  base64Decode      : Bytes → Option Bytes
  cbcEncrypt        : Bytes → Bytes → Bytes → Bytes
  cbcDecrypt        : Bytes → Bytes → Bytes → Bytes
  encode_nulFree    : ∀ data, 0 ∉ base64Encode data
  decode_encode     : ∀ data, base64Decode (base64Encode data) = some data
  length_cbcEncrypt : ∀ key iv data, (cbcEncrypt key iv data).length = data.length
  length_cbcDecrypt : ∀ key iv data, (cbcDecrypt key iv data).length = data.length
  decrypt_encrypt   : ∀ key iv data, data.length % aesBlockSize = 0 →
    cbcDecrypt key iv (cbcEncrypt key iv data) = data

-- A number as an `int32_t`
def toInt32 (n : Int) : Int := if n % 2 ^ 32 < 2 ^ 31 then n % 2 ^ 32 else n % 2 ^ 32 - 2 ^ 32

-- `data[i]`, where the index is an `int32_t`
def charAt (data : Bytes) (i : Int) : CipherM UInt8 :=
  if 0 ≤ i then elemAt data i.toNat else throw .outside

def setChar (data : Bytes) (i : Int) (c : UInt8) : CipherM Bytes :=
  if 0 ≤ i ∧ i.toNat < data.length then return data.set i.toNat c else throw .outside

-- One round of the loop of `PaddingPkcs5`
def padChar (inSize : Nat) (paddingLen : UInt8) (data : Bytes) (i : Nat) : CipherM Bytes :=
  setChar data (inSize + i : Nat) paddingLen

-- The buffer and the length of the text with its padding
def paddingPkcs5 (data : Bytes) (inSize : Nat) : CipherM (Bytes × Int) := do
  if inSize % aesBlockSize = 0 then
    return (data, toInt32 (← strlen data))
  else
    let paddingLen := aesBlockSize - inSize % aesBlockSize
    let needLen := paddingLen + inSize
    let data ← (List.range paddingLen).foldlM (padChar inSize paddingLen.toUInt8) data
    return (data, toInt32 needLen)

-- One round of the loop of `UnpaddingPkcs5`
def unpadChar (dataLen : Int) (padLen : UInt8) (data : Bytes) (i : Nat) : CipherM Bytes := do
  if (← charAt data (dataLen - 1 - i)) ≠ padLen then
    throw (.error .general)
  else
    setChar data (dataLen - 1 - i) 0

def unpaddingPkcs5 (data : Bytes) (dataLen : Int) : CipherM (Bytes × Int) := do
  let padLen ← charAt data (dataLen - 1)
  -- A `char` from 128 on is negative or too large.
  if padLen = 0 ∨ aesBlockSize ≤ padLen.toNat then
    throw (.error .general)
  else
    let data ← (List.range padLen.toNat).foldlM (unpadChar dataLen padLen) data
    return (data, dataLen - padLen.toNat)

section

variable (lib : Mbedtls)

-- The decoded bytes; the buffer has a zero more.
def mallocDecodeData (text : Bytes) : CipherM Bytes :=
  match lib.base64Decode text with
  | some data => if data = [] then throw (.error .general) else return data
  | none      => throw (.error .general)

-- The buffer with the encoded text, with two zeros behind it, and the length of the text
def mallocEncodeData (text : Bytes) : CipherM (Bytes × Nat) :=
  if text = [] then
    throw (.error .general)
  else
    return (lib.base64Encode text ++ [0, 0], (lib.base64Encode text).length)

inductive Action
  | encrypt | decrypt | other
  deriving DecidableEq, Repr

structure AesIvMode where
  transformation : Option CString
  ivBuf          : Option CString
  ivOffset       : Int
  ivLen          : Int

structure AesCryptContext where
  action  : Action
  text    : Bytes
  textLen : Int
  key     : Bytes
  ivBuf   : Bytes
  deriving DecidableEq

def setIv (ivBuf : Bytes) (ivBufLen ivOffset ivLen : Int) : CipherM Bytes :=
  if ivBufLen < toInt32 (ivOffset + ivLen) ∨ ivOffset < 0 ∨ ivLen ≤ 0 then
    throw (.error .general)
  else
    readAt ivBuf ivOffset.toNat ivLen.toNat

-- `"AES/CBC/PKCS5Padding"`
def cbcPkcs5Padding : Bytes := "AES/CBC/PKCS5Padding".toList.map fun c => c.toNat.toUInt8

-- The initialisation vector of `InitAesCryptContext`; the key is in its buffer already.
def initAesCryptContext (key : Bytes) (iv : AesIvMode) : CipherM Bytes := do
  if iv.transformation.any (·.bytes ≠ cbcPkcs5Padding) then throw (.error .general)
  if iv.ivLen < 0 ∨ iv.ivLen ≠ aesBlockSize then throw (.error .general)
  match iv.ivBuf with
  | some encoded => do
    let ivBuf ← mallocDecodeData lib encoded.bytes
    setIv (ivBuf ++ [0]) (toInt32 (← strlen (ivBuf ++ [0]))) iv.ivOffset aesBlockSize
  | none         => setIv (key ++ [0]) (toInt32 (← strlen (key ++ [0]))) iv.ivOffset aesBlockSize

def initAesCryptDataText (action : Action) (text : CString) : CipherM (Bytes × Int) :=
  match action with
  | .encrypt => do
    let len := text.bytes.length
    let textLen := toInt32 <|
      if len % aesBlockSize ≠ 0 then len / aesBlockSize * aesBlockSize + aesBlockSize else len
    if textLen + 1 ≤ 0 then
      throw (.error .general)
    else
      let size := (textLen + 1).toNat
      -- `memcpy_s` into a buffer of zeros
      if size < len then
        throw (.error .general)
      else
        paddingPkcs5 (splice (.replicate size 0) 0 text.bytes) len
  | .decrypt => do
    let data ← mallocDecodeData lib text.bytes
    let textLen := toInt32 data.length
    return (data ++ [0], textLen - textLen.tmod aesBlockSize)
  | .other   => throw (.error .general)

def initAesData (action : Action) (key text : CString) : CipherM (Bytes × Int × Bytes) := do
  let (text, textLen) ← initAesCryptDataText lib action text
  let key ← mallocDecodeData lib key.bytes
  if key.length ≠ keyLen then
    throw (.error .general)
  else
    return (text, textLen, key)

def initAesCryptData (action : Action) (text key : CString) (iv : AesIvMode) : CipherM AesCryptContext := do
  let (text, textLen, key) ← initAesData lib action key text
  let ivBuf ← initAesCryptContext lib key iv
  return { action, text, textLen, key, ivBuf }

-- `mbedtls_aes_crypt_cbc` in place. Its length is a `size_t`.
def aesCryptCbc (ctx : AesCryptContext) : CipherM Bytes := do
  let length := if ctx.textLen < 0 then (ctx.textLen + 2 ^ 64).toNat else ctx.textLen.toNat
  if length % aesBlockSize ≠ 0 then
    throw (.error .general)
  else
    let input ← readAt ctx.text 0 length
    let output :=
      if ctx.action = .encrypt then lib.cbcEncrypt ctx.key ctx.ivBuf input
      else lib.cbcDecrypt ctx.key ctx.ivBuf input
    return splice ctx.text 0 output

def doAesCbcEncrypt (ctx : AesCryptContext) : CipherM AesCryptContext := do
  let text ← aesCryptCbc lib ctx
  if ctx.action = .encrypt then
    let (text, textLen) ← mallocEncodeData lib (← readAt text 0 ctx.textLen.toNat)
    return { ctx with text, textLen := toInt32 textLen }
  else
    let (text, textLen) ← unpaddingPkcs5 text ctx.textLen
    if textLen < 0 then
      throw (.error .general)
    else
      return { ctx with text, textLen }

-- `InitAesCryptData` and `AesCrypt`, and the text that the caller finds
def crypt (action : Action) (text key : CString) (iv : AesIvMode) : CipherM CString := do
  let ctx ← initAesCryptData lib action text key iv
  return CString.ofBuffer (← doAesCbcEncrypt lib ctx).text

end

end Huks.CryptoLite
