import Huks.Common.ParamBlock
import Huks.Storage.FileOperator

namespace Huks

-- `struct HksFileTransferSystemAbilityConfig`
structure HksFileTransferSystemAbilityConfig where
  uid           : UInt32
  needDe        : Bool
  needFrontUser : Bool

-- `struct HksFileTransferHapConfig`
structure HksFileTransferHapConfig where
  hapName       : Path
  needDe        : Bool
  needFrontUser : Bool

-- `struct HksUpgradeFileTransferInfo`
structure HksUpgradeFileTransferInfo where
  skipTransfer  : Bool   := false
  needDe        : Bool   := false
  needFrontUser : Bool   := false
  uid           : UInt32 := 0
  userId        : UInt32 := 0
  deriving DecidableEq

inductive HksAtType
  | hap | native | shell
  deriving DecidableEq

-- The lists of the build, and what the service of the access tokens says.
structure TransferConfig where
  saUpgradeCfgList      : List HksFileTransferSystemAbilityConfig
  hapUpgradeCfgList     : List HksFileTransferHapConfig
  saSkipUpgradeCfgList  : List UInt32
  hapSkipUpgradeCfgList : List Path
  hksGetAtType                 : UInt64 → Except HksErrorCode HksAtType
  hksGetHapNameFromAccessToken : UInt64 → Except HksErrorCode Path

def rdbDePrefix : Path := "DistributedDataRdb".toList
def rdbRootDe   : Path := "distributeddb_client_root_key".toList

def hksIsRdbDeKey (alias' : Path) : Bool := rdbDePrefix <+: alias' ∨ alias' = rdbRootDe

-- What the loop over the params has found of the owner.
structure ParsedOwner where
  uid           : Option UInt32 := none
  accessTokenId : Option UInt64 := none
  userId        : Option UInt32 := none
  deriving DecidableEq

def ParsedOwner.complete (o : ParsedOwner) : Bool :=
  o.uid.isSome ∧ o.accessTokenId.isSome ∧ o.userId.isSome

-- The loop ends at a param of no interest once the owner is complete.
def parseOwnerLoop (paramSet : HksParamSet) : List HksParam → ParsedOwner → ParsedOwner
  | [], o      => o
  | p :: ps, o =>
    if p.tag = HksTag.processName then
      if p.blobSize ≠ 4 then
        o
      else
        parseOwnerLoop paramSet ps { o with uid := le32 (paramSet.blob p) }
    else if p.tag = HksTag.accessTokenId then
      parseOwnerLoop paramSet ps { o with accessTokenId := p.word }
    else if p.tag = HksTag.specificUserId then
      parseOwnerLoop paramSet ps { o with userId := p.uint32Param }
    else if p.tag = HksTag.userId ∧ o.userId.isNone then
      parseOwnerLoop paramSet ps { o with userId := p.uint32Param }
    else if o.complete then
      o
    else
      parseOwnerLoop paramSet ps o

-- The uid, the access token and the user.
def parseOwnerIdFromParamSet (paramSet : HksParamSet) : Except HksErrorCode (UInt32 × UInt64 × UInt32) :=
  match parseOwnerLoop paramSet paramSet.params {} with
  | ⟨some uid, some accessTokenId, some userId⟩ => .ok (uid, accessTokenId, userId)
  | _                                           => .error .invalidKeyFile

def parseOwnerIdFromFileContent (memory : UInt64 → BlobData) (fileContent : ParamBlock) :
    Except HksErrorCode (UInt32 × UInt64 × UInt32) := do
  let tmpParamSet ← hksGetParamSet (fileContent.paramSet memory) fileContent.size
  parseOwnerIdFromParamSet tmpParamSet

def initDefaultStrategy (alias' : Path) : HksUpgradeFileTransferInfo :=
  { needDe := hksIsRdbDeKey alias' }

section

variable (config : TransferConfig) (alias' : Path) (uid userId : UInt32)

def matchSaConfig : HksUpgradeFileTransferInfo :=
  let info := initDefaultStrategy alias'
  if uid ∈ config.saSkipUpgradeCfgList then
    { info with skipTransfer := true }
  else
    let info := match config.saUpgradeCfgList.find? (·.uid = uid) with
      | some cfg => { info with needDe := cfg.needDe, needFrontUser := cfg.needFrontUser }
      | none     => info
    { info with uid, userId }

def matchHapConfig (accessTokenId : UInt64) : Except HksErrorCode HksUpgradeFileTransferInfo := do
  let hapName ← config.hksGetHapNameFromAccessToken accessTokenId
  let info := initDefaultStrategy alias'
  if hapName ∈ config.hapSkipUpgradeCfgList then
    return { info with skipTransfer := true }
  else
    let info := match config.hapUpgradeCfgList.find? (·.hapName = hapName) with
      | some cfg => { info with needDe := cfg.needDe, needFrontUser := cfg.needFrontUser }
      | none     => info
    return { info with uid, userId }

def hksMatchConfig (accessTokenId : UInt64) : Except HksErrorCode HksUpgradeFileTransferInfo := do
  match ← config.hksGetAtType accessTokenId with
  | .hap => matchHapConfig config alias' uid userId accessTokenId
  | _    => return matchSaConfig config alias' uid userId

end

def hksParseConfig (config : TransferConfig) (memory : UInt64 → BlobData) (alias' : Path)
    (fileContent : ParamBlock) : Except HksErrorCode HksUpgradeFileTransferInfo := do
  let (uid, accessTokenId, userId) ← parseOwnerIdFromFileContent memory fileContent
  hksMatchConfig config alias' uid userId accessTokenId

end Huks
