import Huks.Ipc.Serialization
import Huks.Lib.OutBuffer

namespace Huks.InPlace

open OutBuffer

-- `tmp` of `FormatAttestChain`: what is left of the chain, and where it begins
structure ChainRest where
  size : UInt32
  data : Nat
  deriving DecidableEq, Repr

def copyBlobToBuffer (blob : Blob) (buf : ChainRest) : OutM HksErrorCode ChainRest := do
  if buf.size.toNat < 4 + (alignSize blob.size).toNat then
    refuse .bufferTooSmall
  else do
    discard <| memcpyInto buf.data buf.size.toNat (toBytes32 blob.size)
    let buf : ChainRest := ⟨buf.size - 4, buf.data + 4⟩
    discard <| memcpyInto buf.data buf.size.toNat blob.val
    return ⟨buf.size - alignSize blob.size, buf.data + (alignSize blob.size).toNat⟩

-- `cert` is what `GetCertOrKey` gives.
def formatCertToBuf (cert : Except HksErrorCode Blob) (buf : ChainRest) : OutM HksErrorCode ChainRest :=
  match cert with
  | .error _ => refuse .badState
  | .ok cert => copyBlobToBuffer cert buf

-- A certificate of the engine: any error becomes this one.
def orBadState {α : Type} (x : OutM HksErrorCode α) : OutM HksErrorCode α :=
  x.adaptExcept fun
    | .outside => .outside
    | .error _ => .error .badState

def formatAttestChain (attestCert devCert : Blob) (caCert rootCert : Except HksErrorCode Blob) :
    OutM HksErrorCode PUnit := do
  writeAt 0 (toBytes32 hksAttestCertCount)
  let tmp : ChainRest := ⟨(← get).size - 4, 4⟩
  let tmp ← copyBlobToBuffer attestCert tmp
  let tmp ← copyBlobToBuffer devCert tmp
  let tmp ← orBadState (formatCertToBuf caCert tmp)
  let tmp ← orBadState (formatCertToBuf rootCert tmp)
  setSize tmp.data.toUInt32

end Huks.InPlace
