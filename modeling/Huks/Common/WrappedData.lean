import Huks.Common.Types
import Huks.Lib.Access

namespace Huks

def hksWrappedFormatMaxSize       : Nat := 1024 * 1024
def hksImportWrappedKeyTotalBlobs : Nat := 10

-- The loop of `HksCheckWrappedDataFormatValidity` from the part `blobIndex` on: `count` more parts
-- are allowed, and the data of the parts seen so far is gone.
def checkParts (validBlobLengths : Option (Nat → UInt32)) :
    (blobIndex count : Nat) → Bytes → Except HksErrorCode Unit
  | _, _, []                 => .ok ()
  | _, 0, _ :: _             => .error .invalidWrappedFormat
  | blobIndex, count + 1, data =>
    let partDataLength := le32 data
    if data.length < 4 then
      .error .invalidWrappedFormat
    else if partDataLength = 0 ∨ partDataLength.toNat > data.length - 4 then
      .error .invalidWrappedFormat
    else if validBlobLengths.any (· blobIndex ≠ partDataLength) then
      .error .invalidWrappedFormat
    else
      checkParts validBlobLengths (blobIndex + 1) count (data.drop (4 + partDataLength.toNat))

def hksCheckWrappedDataFormatValidity (wrappedData : Bytes) (validTotalBlobs : Nat)
    (validBlobLengths : Option (Nat → UInt32)) : Except HksErrorCode Unit :=
  if wrappedData = [] ∨ wrappedData.length > hksWrappedFormatMaxSize ∨ validTotalBlobs = 0 then
    .error .invalidArgument
  else
    checkParts validBlobLengths 0 validTotalBlobs wrappedData

-- The loop of `HksGetBlobFromWrappedData`: `blobIndex` counts from the part in front of `data`.
-- Behind less than four bytes the source reads past the data; the model refuses it.
def getPart : (blobIndex count : Nat) → Bytes → Except HksErrorCode Bytes
  | _, _, [] | _, 0, _ => .error .invalidWrappedFormat
  | blobIndex, count + 1, data =>
    let partDataLength := (le32 data).toNat
    if data.length < 4 then
      .error .invalidWrappedFormat
    else if partDataLength = 0 ∨ partDataLength > hksWrappedFormatMaxSize ∨
        partDataLength > data.length - 4 then
      .error .invalidWrappedFormat
    else
      match blobIndex with
      | 0             => .ok ((data.drop 4).take partDataLength)
      | blobIndex + 1 => getPart blobIndex count (data.drop (4 + partDataLength))

-- The same loop with its reads: a length of which a byte is missing is read past the data.
def accessPart : (blobIndex count : Nat) → Bytes → Except (Stop HksErrorCode) Bytes
  | _, _, [] | _, 0, _ => throw (.error .invalidWrappedFormat)
  | blobIndex, count + 1, data => do
    let partDataLength := (le32 (← readAt data 0 4)).toNat
    if partDataLength = 0 ∨ partDataLength > hksWrappedFormatMaxSize ∨
        partDataLength > data.length - 4 then
      throw (.error .invalidWrappedFormat)
    else
      match blobIndex with
      | 0             => return slice data 4 partDataLength
      | blobIndex + 1 => accessPart blobIndex count (data.drop (4 + partDataLength))

def hksGetBlobFromWrappedDataAccess (wrappedData : Bytes) (blobIndex totalBlobs : Nat) :
    Except (Stop HksErrorCode) Bytes :=
  if wrappedData = [] ∨ blobIndex ≥ totalBlobs then
    throw (.error .invalidArgument)
  else
    accessPart blobIndex totalBlobs wrappedData

def hksGetBlobFromWrappedData (wrappedData : Bytes) (blobIndex totalBlobs : Nat) :
    Except HksErrorCode Bytes :=
  if wrappedData = [] ∨ blobIndex ≥ totalBlobs then
    .error .invalidArgument
  else
    getPart blobIndex totalBlobs wrappedData

end Huks
