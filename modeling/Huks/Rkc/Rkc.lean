import Huks.Rkc.KeyFile
import Huks.Common.Tag

namespace Huks

def hksRkcRmkLen       : Nat := 64
def hksRkcRmkEkLen     : Nat := 32
def hksRkcRawKeyLen    : Nat := 64
def hksHardwareUdidLen : Nat := 32

-- "HKSRKCMK"
def hksRkcMkAddData : Bytes := [0x48, 0x4B, 0x53, 0x52, 0x4B, 0x43, 0x4D, 0x4B]

def hksRkcVer                 : UInt16 := 2
def hksMkVer                  : UInt16 := 2
def hksRkcRmkIter             : UInt32 := 1
def hksRkcRmkHmacSha256       : UInt32 := 1
def hksRkcMkCryptAlgAes256Gcm : UInt32 := 1
def hksDigestSha256           : UInt32 := 12

-- The keystore files of version 1 (info1.data, info2.data) and of version 2.
inductive KsfName
  | info1 | info2 | rinfo1V2 | rinfo2V2 | minfo1V2 | minfo2V2
  deriving DecidableEq, Repr

inductive HksKsfType
  | rkc | mk

-- The names in `struct HksKsfAttr`, `NULL` until they are initialized.
abbrev HksKsfAttr := List (Option KsfName)

-- `struct HksRkcCfg`; the default values are what `HksCfgClearMem` leaves.
structure HksRkcCfg where
  state         : Bool := false
  rkVersion     : UInt16 := 0
  mkVersion     : UInt16 := 0
  rkCreatedTime : HksTime := {}
  rkExpiredTime : HksTime := {}
  ksfAttrRkc    : HksKsfAttr := [none, none]
  ksfAttrMk     : HksKsfAttr := [none, none]
  rmkIter       : UInt32 := 0
  rmkHashAlg    : UInt32 := 0
  mkMask        : FixedBytes hksRkcMkLen := .zero _
  mkEncryptAlg  : UInt32 := 0
  deriving DecidableEq

-- The initializer of `g_hksRkcCfg`.
def HksRkcCfg.initial : HksRkcCfg where
  rkVersion    := hksRkcVer
  mkVersion    := hksMkVer
  rmkIter      := hksRkcRmkIter
  rmkHashAlg   := hksRkcRmkHmacSha256
  mkEncryptAlg := hksRkcMkCryptAlgAes256Gcm

-- `struct HksRkcMk`; the default values are the initializer and what `HksMkClearMem` leaves.
structure HksRkcMk where
  valid         : Bool := false
  mkCreatedTime : HksTime := {}
  mkExpiredTime : HksTime := {}
  mkWithMask    : FixedBytes hksRkcMkLen := .zero _
  deriving DecidableEq

abbrev RkcDisk := KsfName → Option Bytes

def RkcDisk.set (disk : RkcDisk) (name : KsfName) (content : Option Bytes) : RkcDisk :=
  fun n => if n = name then content else disk n

-- The globals of the process, the keystore files, and how many external calls were made.
structure RkcSystem where
  cfg   : HksRkcCfg := .initial
  rkcMk : HksRkcMk := {}
  disk  : RkcDisk
  tick  : Nat := 0

-- `GetGlobalKsfAttrRkc` and `GetGlobalKsfAttrMk`
def RkcSystem.ksfAttr (s : RkcSystem) : HksKsfType → HksKsfAttr
  | .rkc => s.cfg.ksfAttrRkc
  | .mk  => s.cfg.ksfAttrMk

def RkcSystem.setKsfAttr (s : RkcSystem) (names : HksKsfAttr) : HksKsfType → RkcSystem
  | .rkc => { s with cfg := { s.cfg with ksfAttrRkc := names } }
  | .mk  => { s with cfg := { s.cfg with ksfAttrMk := names } }

-- A function ends early with an error code, or the process ends.
inductive RkcStop
  | ret (e : HksErrorCode)
  | crash

-- A write that does not complete leaves the old file, or so many bytes of the new one.
inductive WriteOutcome
  | done
  | cut (left : Option Nat) (stop : RkcStop)

inductive RemoveOutcome
  | done
  | cut (removed : Bool) (stop : RkcStop)

-- The code outside: pure cryptography, and what the external call of a number does.
structure RkcEnv where
  sha256        : Bytes → FixedBytes hksRkcHashLen
  deriveKey     : (alg : UInt32) → (key salt : Bytes) → (iterations digestAlg : UInt32) →
                  FixedBytes hksRkcRmkLen
  aesGcmEncrypt : (key nonce aad : Bytes) → FixedBytes hksRkcMkLen → FixedBytes hksRkcMkCipherTextLen
  aesGcmDecrypt : (key nonce aad : Bytes) → FixedBytes hksRkcMkCipherTextLen →
                  Except HksErrorCode (FixedBytes hksRkcMkLen)
  udid          : FixedBytes hksHardwareUdidLen
  random        : Nat → (size : Nat) → FixedBytes size
  fault         : Nat → Option RkcStop
  write         : Nat → WriteOutcome
  remove        : Nat → RemoveOutcome

abbrev RkcM := EStateM RkcStop RkcSystem

section Calls

variable {α : Type}

-- The caller looks at the code that `x` returned.
def attemptRet (x : RkcM α) : RkcM (Except HksErrorCode α) := fun s =>
  match x.run s with
  | .ok a t           => .ok (.ok a) t
  | .error (.ret e) t => .ok (.error e) t
  | .error .crash t   => .error .crash t

-- The caller returns a code of its own.
def orRet (x : RkcM α) (e : HksErrorCode) : RkcM α := do
  match ← attemptRet x with
  | .ok a    => return a
  | .error _ => throw (.ret e)

def ofResult (x : Except HksErrorCode α) : RkcM α := MonadExcept.ofExcept (x.mapError .ret)

end Calls

variable (env : RkcEnv)

-- Every external call can fail, and the process can end in it.
def external : RkcM Nat := do
  let n ← modifyGet fun s => (s.tick, { s with tick := s.tick + 1 })
  match env.fault n with
  | some stop => throw stop
  | none      => return n

def hksMalloc (e : HksErrorCode) : RkcM Unit := discard (orRet (external env) e)

def getProcessInfo : RkcM Unit := discard (external env)

def hksRkcBuildParamSet : RkcM Unit := discard (external env)

def hksCryptoHalHash : RkcM Unit := discard (external env)

def hksCryptoHalFillPrivRandom (size : Nat) : RkcM (FixedBytes size) :=
  return env.random (← external env) size

section Files

def Rkc.hksManageStoreGetKeyBlob (name : KsfName) : RkcM Bytes := do
  let _ ← external env
  match (← get).disk name with
  | none => throw (.ret .notExist)
  | some bytes =>
    if bytes.length = 0 then
      throw (.ret .fileSizeFail)
    else if hksKsfBufLen < bytes.length then
      throw (.ret .insufficientData)
    else
      return bytes

def RkcSystem.store (s : RkcSystem) (name : KsfName) (content : Option Bytes) : RkcSystem :=
  { s with disk := s.disk.set name content }

-- `FileWrite` truncates the file before it writes.
def Rkc.hksManageStoreKeyBlob (name : KsfName) (keyBlob : Bytes) : RkcM Unit := do
  let n ← external env
  match env.write n with
  | .done             => modify (·.store name keyBlob)
  | .cut none stop    => throw stop
  | .cut (some k) stop => do
    modify (·.store name (keyBlob.take k))
    throw stop

def Rkc.hksManageStoreDeleteKeyBlob (name : KsfName) : RkcM Unit := do
  let n ← external env
  match env.remove n with
  | .done           => modify (·.store name none)
  | .cut false stop => throw stop
  | .cut true stop  => do
    modify (·.store name none)
    throw stop

def getKeyBlobKsf : Option KsfName → RkcM Bytes
  | none         => throw (.ret .nullPointer)
  | some ksfName => do
    hksMalloc env .mallocFail
    getProcessInfo env
    hksRkcBuildParamSet env
    Rkc.hksManageStoreGetKeyBlob env ksfName

section Generic

variable {α : Type} (extract : Bytes → Except HksErrorCode α) (fill : α → Except HksErrorCode Bytes)

def hksReadKsf (ksfName : Option KsfName) : RkcM α := do
  let tmpKsf ← getKeyBlobKsf env ksfName
  hksCryptoHalHash env
  ofResult (extract tmpKsf)

def hksWriteKsf (ksfName : Option KsfName) (ksfData : α) : RkcM Unit := do
  hksMalloc env .mallocFail
  hksCryptoHalHash env
  let ksfBuf ← ofResult (fill ksfData)
  getProcessInfo env
  match ksfName with
  | none         => throw .crash -- `strlen(NULL)`
  | some ksfName => do
    hksRkcBuildParamSet env
    Rkc.hksManageStoreKeyBlob env ksfName ksfBuf

-- What each file gave, and the data of the first valid one.
def readValidKsf (names : HksKsfAttr) : RkcM (List (Except HksErrorCode α) × α) := do
  let readRet ← names.mapM fun name => attemptRet (hksReadKsf env extract name)
  match readRet.findSome? Except.toOption with
  | none              => throw (.ret .invalidKeyFile)
  | some validKsfData => return (readRet, validKsfData)

-- The files that are not valid are written again with the data of the first valid one.
def readAllKsf (names : HksKsfAttr) : RkcM α := do
  let (readRet, validKsfData) ← readValidKsf env extract names
  (names.zip readRet).forM fun (name, ret) => do
    if ret.toOption.isNone then
      discard (attemptRet (hksWriteKsf env fill name validKsfData))
  return validKsfData

end Generic

def hksReadKsfRkc : Option KsfName → RkcM HksKsfDataRkcWithVer :=
  hksReadKsf env (extractKsfBufRkc env.sha256)

def hksReadKsfMk : Option KsfName → RkcM HksKsfDataMkWithVer :=
  hksReadKsf env (extractKsfBufMk env.sha256)

def hksRkcReadKsfV1 : Option KsfName → RkcM HksRkcKsfDataV1 :=
  hksReadKsf env (rkcExtractKsfBufV1 env.sha256)

def hksWriteKsfRkc : Option KsfName → HksKsfDataRkcWithVer → RkcM Unit :=
  hksWriteKsf env (fillKsfBufRkc env.sha256)

def hksWriteKsfMk : Option KsfName → HksKsfDataMkWithVer → RkcM Unit :=
  hksWriteKsf env (fillKsfBufMk env.sha256)

def readAllKsfRkc : RkcM HksKsfDataRkcWithVer := do
  readAllKsf env (extractKsfBufRkc env.sha256) (fillKsfBufRkc env.sha256) ((← get).ksfAttr .rkc)

def readAllKsfMk : RkcM HksKsfDataMkWithVer := do
  readAllKsf env (extractKsfBufMk env.sha256) (fillKsfBufMk env.sha256) ((← get).ksfAttr .mk)

-- Version 1: no need to rewrite for recovery.
def rkcReadAllKsfV1 : RkcM HksRkcKsfDataV1 := do
  return (← readValidKsf env (rkcExtractKsfBufV1 env.sha256) ((← get).ksfAttr .rkc)).2

-- An error code in front of the checks is returned as an answer that is not `false`.
def ksfExist (ksfType : HksKsfType) : RkcM Bool := do
  match ← attemptRet (do getProcessInfo env; hksRkcBuildParamSet env) with
  | .error _ => return true
  | .ok _    => do
    let s ← get
    return (s.ksfAttr ksfType).any fun name => (name.bind s.disk).isSome

end Files

section Keys

-- Every other digest is also SHA256.
def rkcDigestToHks (_rkcDigest : UInt32) : UInt32 := hksDigestSha256

def rkcGetRmkRawKey (ksfDataRkc : HksKsfDataRkc) : RkcM Bytes := do
  let _ ← external env
  let materials := (ksfDataRkc.rkMaterial1.xor ksfDataRkc.rkMaterial2).xor env.udid
  return materials.val ++ .replicate (hksRkcRawKeyLen - hksRkcMaterialLen) 0

def rkcFixedMaterialV1 : FixedBytes hksRkcMaterialLen := ⟨[
  0xB2, 0xA1, 0x0C, 0x73, 0x52, 0x73, 0x76, 0xA1, 0x60, 0x62, 0x2E, 0x08, 0x52, 0x08, 0x2E, 0xA9,
  0x60, 0xBC, 0x2E, 0x73, 0x52, 0x0B, 0x0C, 0xBC, 0xEE, 0x0A, 0x2E, 0x08, 0x52, 0x9C, 0x76, 0xA9],
  rfl⟩

def rkcGetRmkRawKeyV1 (ksfDataRkc : HksKsfDataRkc) : RkcM Bytes := do
  let _ ← external env
  let materials := (ksfDataRkc.rkMaterial1.xor ksfDataRkc.rkMaterial2).xor rkcFixedMaterialV1
  return materials.val ++ env.udid.val

-- The root main key: one derivation for each version of the keystore files.
def rkcDerive (alg : UInt32) (getRmkRawKey : HksKsfDataRkc → RkcM Bytes) (ksfDataRkc : HksKsfDataRkc) :
    RkcM (FixedBytes hksRkcRmkLen) := do
  hksMalloc env .mallocFail
  let rawKey ← getRmkRawKey ksfDataRkc
  let _ ← external env
  return env.deriveKey alg rawKey ksfDataRkc.rmkSalt.val ksfDataRkc.rmkIter
    (rkcDigestToHks ksfDataRkc.rmkHashAlg)

def rkcDeriveRmk : HksKsfDataRkc → RkcM (FixedBytes hksRkcRmkLen) :=
  rkcDerive env HksKeyAlg.hkdf (rkcGetRmkRawKey env)

def rkcDeriveRmkV1 : HksKsfDataRkc → RkcM (FixedBytes hksRkcRmkLen) :=
  rkcDerive env HksKeyAlg.pbkdf2 (rkcGetRmkRawKeyV1 env)

-- `ExecuteMkCrypt` encrypts and decrypts.
def executeMkEncrypt (ksfDataMk : HksKsfDataMk) (rmk : FixedBytes hksRkcRmkLen)
    (plainText : FixedBytes hksRkcMkLen) : RkcM (FixedBytes hksRkcMkCipherTextLen) := do
  let _ ← orRet (external env) .cryptoEngineError
  return env.aesGcmEncrypt (rmk.val.take hksRkcRmkEkLen) ksfDataMk.mkIv.val hksRkcMkAddData plainText

def executeMkDecrypt (ksfDataMk : HksKsfDataMk) (rmk : FixedBytes hksRkcRmkLen) :
    RkcM (FixedBytes hksRkcMkLen) := do
  let _ ← orRet (external env) .cryptoEngineError
  orRet (ofResult (env.aesGcmDecrypt (rmk.val.take hksRkcRmkEkLen) ksfDataMk.mkIv.val hksRkcMkAddData
    ksfDataMk.mkCiphertext)) .cryptoEngineError

def rkcMkEncrypt (ksfDataRkc : HksKsfDataRkc) (ksfDataMk : HksKsfDataMk)
    (plainText : FixedBytes hksRkcMkLen) : RkcM (FixedBytes hksRkcMkCipherTextLen) := do
  hksMalloc env .mallocFail
  executeMkEncrypt env ksfDataMk (← rkcDeriveRmk env ksfDataRkc) plainText

def rkcMkDecrypt (ksfDataRkc : HksKsfDataRkc) (ksfDataMk : HksKsfDataMk) :
    RkcM (FixedBytes hksRkcMkLen) := do
  hksMalloc env .mallocFail
  executeMkDecrypt env ksfDataMk (← rkcDeriveRmk env ksfDataRkc)

def rkcMkDecryptV1 (ksfData : HksRkcKsfDataV1) : RkcM (FixedBytes hksRkcMkLen) := do
  hksMalloc env .mallocFail
  executeMkDecrypt env ksfData.ksfDataMk (← rkcDeriveRmkV1 env ksfData.ksfDataRkc)

def rkcMaskMk (mk : FixedBytes hksRkcMkLen) : RkcM Unit := do
  let mkMask ← hksCryptoHalFillPrivRandom env hksRkcMkLen
  modify fun s => { s with
    cfg   := { s.cfg with mkMask }
    rkcMk := { s.rkcMk with mkWithMask := mk.xor mkMask, valid := true } }

def rkcRecoverRkTime (rkCreatedTime rkExpiredTime : HksTime) : RkcM Unit :=
  modify fun s => { s with cfg := { s.cfg with rkCreatedTime, rkExpiredTime } }

def rkcRecoverMkTime (mkCreatedTime mkExpiredTime : HksTime) : RkcM Unit :=
  modify fun s => { s with rkcMk := { s.rkcMk with mkCreatedTime, mkExpiredTime } }

-- Makes a main key and returns its data encrypted under the root key.
def rkcMakeMk (ksfDataRkc : HksKsfDataRkc) (ksfDataMk : HksKsfDataMk) : RkcM HksKsfDataMk := do
  hksMalloc env .mallocFail
  let mk ← hksCryptoHalFillPrivRandom env hksRkcMkLen
  let mkIv ← hksCryptoHalFillPrivRandom env hksRkcMkIvLen
  let mkCiphertext ← rkcMkEncrypt env ksfDataRkc { ksfDataMk with mkIv } mk
  rkcMaskMk env mk
  return { ksfDataMk with mkIv, mkCiphertext }

end Keys

def hksCfgClearMem : RkcM Unit := modify fun s => { s with cfg := {} }

def hksCfgDestroy : RkcM Unit := do
  modify fun s => { s with cfg := { s.cfg with state := false } }
  hksCfgClearMem

def hksMkClearMem : RkcM Unit := modify fun s => { s with rkcMk := {} }

def hksMkDestroy : RkcM Unit := hksMkClearMem

-- The names are cloned; when there is no memory for one, the configuration is cleared.
def initKsfAttr (names : List KsfName) (ksfType : HksKsfType) : RkcM Unit := do
  match ← attemptRet (names.forM fun _ => hksMalloc env .mallocFail) with
  | .error _ => do
    hksCfgClearMem
    throw (.ret .mallocFail)
  | .ok _ => modify fun s => s.setKsfAttr (names.map some) ksfType

def ksfNamesV1  : List KsfName := [.info1, .info2]
def ksfNamesRkc : List KsfName := [.rinfo1V2, .rinfo2V2]
def ksfNamesMk  : List KsfName := [.minfo1V2, .minfo2V2]

def rkcLoadKsf : RkcM Unit := do
  hksMalloc env .mallocFail
  let ⟨_, ksfDataMk⟩ ← readAllKsfMk env
  rkcRecoverMkTime ksfDataMk.mkCreatedTime ksfDataMk.mkExpiredTime
  initKsfAttr env ksfNamesRkc .rkc
  let ⟨_, ksfDataRkc⟩ ← readAllKsfRkc env
  rkcRecoverRkTime ksfDataRkc.rkCreatedTime ksfDataRkc.rkExpiredTime
  let mk ← rkcMkDecrypt env ksfDataRkc ksfDataMk
  rkcMaskMk env mk

def fillKsfDataRkcWithVer : RkcM HksKsfDataRkcWithVer := do
  let cfg := (← get).cfg
  let rkMaterial1 ← hksCryptoHalFillPrivRandom env hksRkcMaterialLen
  let rkMaterial2 ← hksCryptoHalFillPrivRandom env hksRkcMaterialLen
  let rmkSalt ← hksCryptoHalFillPrivRandom env hksRkcSaltLen
  return {
    rkVersion  := cfg.rkVersion
    ksfDataRkc := { rkMaterial1, rkMaterial2, rmkSalt, rmkIter := cfg.rmkIter, rmkHashAlg := cfg.rmkHashAlg } }

def fillKsfDataMkWithVer : RkcM HksKsfDataMkWithVer := do
  let cfg := (← get).cfg
  return { mkVersion := cfg.mkVersion, ksfDataMk := { mkEncryptAlg := cfg.mkEncryptAlg } }

-- Both files of the root key have to be written, and one of the main key.
def rkcWriteAllKsf (ksfDataRkc : HksKsfDataRkcWithVer) (ksfDataMk : HksKsfDataMkWithVer) : RkcM Unit := do
  ((← get).ksfAttr .rkc).forM fun name => orRet (hksWriteKsfRkc env name ksfDataRkc) .writeFileFail
  let writeRet ← ((← get).ksfAttr .mk).mapM fun name => attemptRet (hksWriteKsfMk env name ksfDataMk)
  if writeRet.all (·.toOption.isNone) then
    throw (.ret .writeFileFail)

def rkcCreateKsf : RkcM Unit := do
  hksMalloc env .insufficientMemory
  let newKsfDataMk ← fillKsfDataMkWithVer
  let newKsfDataRkc ← fillKsfDataRkcWithVer env
  let ksfDataMk ← rkcMakeMk env newKsfDataRkc.ksfDataRkc newKsfDataMk.ksfDataMk
  initKsfAttr env ksfNamesRkc .rkc
  rkcWriteAllKsf env newKsfDataRkc { newKsfDataMk with ksfDataMk }

def rkcLoadKsfV1 : RkcM (FixedBytes hksRkcMkLen) := do
  hksMalloc env .mallocFail
  let ksfData ← rkcReadAllKsfV1 env
  rkcRecoverRkTime ksfData.ksfDataRkc.rkCreatedTime ksfData.ksfDataRkc.rkExpiredTime
  rkcRecoverMkTime ksfData.ksfDataMk.mkCreatedTime ksfData.ksfDataMk.mkExpiredTime
  rkcMkDecryptV1 env ksfData

def rkcDeleteAllKsfV1 : RkcM Unit := do
  orRet (getProcessInfo env) .internalError
  hksRkcBuildParamSet env
  ksfNamesV1.forM fun name => discard (attemptRet (Rkc.hksManageStoreDeleteKeyBlob env name))

def upgradeV1ToV2 : RkcM Unit := do
  let mk ← rkcLoadKsfV1 env
  hksMalloc env .insufficientMemory
  let newKsfDataMk ← fillKsfDataMkWithVer
  let newKsfDataRkc ← fillKsfDataRkcWithVer env
  let mkCiphertext ← rkcMkEncrypt env newKsfDataRkc.ksfDataRkc newKsfDataMk.ksfDataMk mk
  initKsfAttr env ksfNamesRkc .rkc
  rkcWriteAllKsf env newKsfDataRkc
    { newKsfDataMk with ksfDataMk := { newKsfDataMk.ksfDataMk with mkCiphertext } }
  discard (attemptRet (rkcDeleteAllKsfV1 env))
  rkcMaskMk env mk

-- A main key file selects loading; without one, a root key file is of version 1.
def hksRkcSetUp : RkcM Unit := do
  initKsfAttr env ksfNamesMk .mk
  if ← ksfExist env .mk then
    rkcLoadKsf env
  else
    initKsfAttr env ksfNamesV1 .rkc
    if ← ksfExist env .rkc then
      upgradeV1ToV2 env
    else
      rkcCreateKsf env

def hksRkcInit : RkcM Unit := do
  if (← get).cfg.state then
    return
  else
    match ← attemptRet (hksRkcSetUp env) with
    | .error e => do
      hksCfgDestroy
      hksMkDestroy
      throw (.ret e)
    | .ok _ => modify fun s => { s with cfg := { s.cfg with state := true } }

def hksRkcGetMainKey (s : RkcSystem) (size : Nat) : Except HksErrorCode (FixedBytes hksRkcMkLen) :=
  if !s.rkcMk.valid then
    throw .failure
  else if size ≠ hksRkcMkLen then
    throw .invalidArgument
  else
    return s.rkcMk.mkWithMask.xor s.cfg.mkMask

def hksCoreModuleDestroy : RkcM Unit := do
  hksCfgDestroy
  hksMkDestroy

def hksCoreRefreshKeyInfo : RkcM Unit := do
  hksCfgDestroy
  hksMkDestroy
  hksRkcInit env

section Runs

-- A fresh process on the files that are there.
def RkcSystem.restart (s : RkcSystem) : RkcSystem := { disk := s.disk, tick := s.tick }

inductive RkcCall
  | hksRkcInit | hksCoreModuleDestroy | hksCoreRefreshKeyInfo
  deriving DecidableEq

def RkcCall.run : RkcCall → RkcM Unit
  | hksRkcInit            => Huks.hksRkcInit env
  | hksCoreModuleDestroy  => Huks.hksCoreModuleDestroy
  | hksCoreRefreshKeyInfo => Huks.hksCoreRefreshKeyInfo env

-- The process is called, or it is started again.
inductive RkcEvent
  | call (c : RkcCall)
  | restart
  deriving DecidableEq

-- After a crash there is a fresh process.
def RkcEvent.step (s : RkcSystem) : RkcEvent → RkcSystem
  | restart => s.restart
  | call c  => match (c.run env).run s with
    | .ok _ t           => t
    | .error (.ret _) t => t
    | .error .crash t   => t.restart

def rkcRun (s : RkcSystem) (events : List RkcEvent) : RkcSystem := events.foldl (RkcEvent.step env) s

-- The main key that a call installs when it is one to install it and succeeds.
def RkcEvent.installs (s : RkcSystem) : RkcEvent → Option (FixedBytes hksRkcMkLen)
  | restart | call .hksCoreModuleDestroy => none
  | call c => match (c.run env).run s with
    | .ok _ t    => (hksRkcGetMainKey t hksRkcMkLen).toOption
    | .error _ _ => none

-- The main keys that a run installs, in order.
def rkcInstalled (s : RkcSystem) : List RkcEvent → List (FixedBytes hksRkcMkLen)
  | []          => []
  | e :: events => (e.installs env s).toList ++ rkcInstalled (e.step env s) events

end Runs

end Huks
