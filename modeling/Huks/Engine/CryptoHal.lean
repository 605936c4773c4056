import Huks.Common.Param
import Huks.Lib.StateError

namespace Huks

-- The objects that the entry `HKS_TAG_CRYPTO_CTX` of a runtime param set may point at.
inductive CtxKind
  | cachedData | hash | cipher | hmac | cmac
  deriving DecidableEq, Repr

-- The contents of a context of the crypto library are the library's own.
inductive CryptoCtx
  | cachedData (data : Bytes)
  | hash
  | cipher
  | hmac
  | cmac
  deriving DecidableEq, Repr

def CryptoCtx.kind : CryptoCtx → CtxKind
  | cachedData _ => .cachedData
  | hash         => .hash
  | cipher       => .cipher
  | hmac         => .hmac
  | cmac         => .cmac

-- `iv` and `aad` are what `algParam` points at; `iv` is the nonce of an AEAD mode.
structure HksUsageSpec where
  algType        : UInt32 := 0
  mode           : UInt32 := 0
  padding        : UInt32 := 0
  digest         : UInt32 := 0
  mgfDigest      : UInt32 := 0
  purpose        : UInt32 := 0
  pssSaltLenType : UInt32 := 0
  iv             : Bytes := []
  aad            : Bytes := []
  deriving DecidableEq, Repr

structure HksKeyDerivationParam where
  salt       : Bytes := []
  info       : Bytes := []
  iterations : UInt32 := 0
  digestAlg  : UInt32 := 0
  deriving DecidableEq, Repr

-- What the three stage code asks of the crypto library and of the key blob code.
inductive HalCall
  | hashInit (alg : UInt32)
  | hashUpdate (msg : Bytes)
  | hashFinal (msg : Bytes)
  | encryptInit (rawKey : Bytes) (usageSpec : HksUsageSpec)
  | decryptInit (rawKey : Bytes) (usageSpec : HksUsageSpec)
  | encryptUpdate (message : Bytes) (alg : UInt32)
  | decryptUpdate (message : Bytes) (alg : UInt32)
  | encryptFinal (message : Bytes) (alg : UInt32)
  | decryptFinal (message tag : Bytes) (alg : UInt32)
  | hmacInit (rawKey : Bytes) (alg : UInt32)
  | hmacUpdate (chunk : Bytes)
  | hmacFinal (msg : Bytes)
  | cmacInit (rawKey : Bytes) (alg : UInt32)
  | cmacUpdate (chunk : Bytes)
  | cmacFinal (msg : Bytes)
  | sign (rawKey : Bytes) (usageSpec : HksUsageSpec) (message : Bytes)
  | verify (rawKey : Bytes) (usageSpec : HksUsageSpec) (message signature : Bytes)
  | signIsoIec97962 (rawKey : Bytes) (usageSpec : HksUsageSpec) (message : Bytes)
  | verifyIsoIec97962 (rawKey : Bytes) (usageSpec : HksUsageSpec) (message signature : Bytes)
  | encrypt (rawKey : Bytes) (usageSpec : HksUsageSpec) (message : Bytes)
  | decrypt (rawKey : Bytes) (usageSpec : HksUsageSpec) (message tag : Bytes)
  | deriveKey (rawKey : Bytes) (alg keyLen : UInt32) (derParam : HksKeyDerivationParam)
    (deriveSize : UInt32)
  | agreeKey (rawKey publicKey : Bytes) (alg keyLen : UInt32)
  | fillRandom (size : Nat)
  | buildKeyBlob (keyFlag : UInt8) (key : Bytes) (paramSet : HksParamSet)
  | getHksPubKeyInnerFormat (key : Bytes) (paramSet : HksParamSet)
  | hmac (macKey srcData : Bytes)
  | decryptAead (cipherKey nonce cipherText tag : Bytes)
  | reinterpret (stored : CtxKind)
  deriving DecidableEq, Repr

-- The surroundings of the engine: its build options, the clock, the crypto library and the other
-- services, whose n-th answers may be anything, and the checks by the tables of other files.
structure EngineEnv where
  supportCmac              : Bool
  supportRsaIso97962       : Bool
  enableIsPasswordSet      : Bool
  elapsedRealTime          : Nat → Except HksErrorCode UInt64
  hal                      : Nat → HalCall → Except HksErrorCode Bytes
  getKeyBlobParamSet       : Nat → Bytes → Except HksErrorCode HksParamSet
  hksGetAuthTokenKey       : Nat → Except HksErrorCode (Bytes × Bytes)
  hksUserIdmGetAuthInfoNum : Nat → Int32 → Except HksErrorCode Unit × UInt32
  uninitialized            : Nat → Bytes
  getInputParams              : HksParamSet → Except HksErrorCode Unit
  hksCheckOptionalParam       : UInt32 → UInt32 → UInt32 → Option HksParam → Except HksErrorCode Unit
  hksCheckGenKeyMutableParams : UInt32 → HksParamSet → Except HksErrorCode Unit
  hksCheckSignature           : Bool → UInt32 → UInt32 → Nat → Except HksErrorCode Unit
  hksCheckUserAuthKeyInfoValidity     : HksParamSet → Except HksErrorCode Unit
  hksCheckSecureSignParams            : UInt32 → Except HksErrorCode Unit
  hksCoreCheckAgreeDeriveFinishParams : Bytes → HksParamSet → Except HksErrorCode Unit
  hksCoreConvertUserIamTypeToHksType  : UInt32 → Except HksErrorCode UInt32

-- What happens to the object of an entry `HKS_TAG_CRYPTO_CTX`: a routine for contexts of one kind
-- gets it, its runtime param set is destroyed, or a MAC handler is called with the param set of
-- the current call.
inductive CtxEvent
  | use (routine stored : CtxKind)
  | destroy (runtimeParamSet : HksParamSet) (stored : CtxKind)
  | mac (runtimeParamSet paramSet : HksParamSet) (stored : CtxKind)
  deriving DecidableEq, Repr

-- The number of questions to the surroundings so far, and the history of the contexts.
structure World where
  tick      : Nat := 0
  ctxEvents : List CtxEvent := []

abbrev WorldM := EStateM HksErrorCode World

namespace World

def next : WorldM Nat :=
  modifyGet fun w => (w.tick, { w with tick := w.tick + 1 })

def hksElapsedRealTime (env : EngineEnv) : WorldM UInt64 := do
  MonadExcept.ofExcept (env.elapsedRealTime (← next))

def hal (env : EngineEnv) (call : HalCall) : WorldM Bytes := do
  MonadExcept.ofExcept (env.hal (← next) call)

def fillRandom (env : EngineEnv) (size : Nat) : WorldM Bytes := do
  return (← hal env (.fillRandom size)).takeD size 0

def record (event : CtxEvent) : WorldM Unit :=
  modify fun w => { w with ctxEvents := w.ctxEvents ++ [event] }

end World

-- The state of a handler: the object behind `HKS_TAG_CRYPTO_CTX`, `none` for the value 0.
structure CtxState where
  ctx   : Option CryptoCtx := none
  world : World := {}

abbrev CtxM := EStateM HksErrorCode CtxState

def CtxState.worldLens : EStateM.Lens CtxState World where
  get s   := s.world
  set w s := { s with world := w }

instance : MonadLift WorldM CtxM := ⟨EStateM.zoom CtxState.worldLens⟩

def setCtx (ctx : Option CryptoCtx) : CtxM Unit :=
  modify fun s => { s with ctx := ctx }

-- The object is handed to a routine for contexts of kind `routine`.
def useCtx (routine : CtxKind) : CtxM Unit := do
  match (← get).ctx with
  | none     => return
  | some ctx => World.record (.use routine ctx.kind)

-- A routine for cached data takes whatever it is given for a blob.
def readCachedData (env : EngineEnv) (ctx : CryptoCtx) : CtxM Bytes := do
  useCtx .cachedData
  match ctx with
  | .cachedData data => return data
  | ctx              => World.hal env (.reinterpret ctx.kind)

end Huks
