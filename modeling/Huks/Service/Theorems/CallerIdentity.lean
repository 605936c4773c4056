import Huks.Engine.Theorems.Identity
import Huks.Service.OneStage
import Huks.Service.Theorems.ServiceFrame

namespace Huks

open EStateM HksParamSet

-- What the service adds behind the params of the caller.
def HksProcessInfo.identityParams (processInfo : HksProcessInfo) : List HksParam := [
  .ofBytes HksTag.processName processInfo.processName,
  .ofUInt32 HksTag.userId processInfo.userIdInt.toUInt32,
  ⟨HksTag.accessTokenId, processInfo.accessTokenId, .null⟩]

theorem HksProcessInfo.identityParams_external (processInfo : HksProcessInfo) :
    ∀ p ∈ processInfo.identityParams, p.External := by
  intro p hp
  simp only [identityParams, List.mem_cons, List.not_mem_nil, or_false] at hp
  rcases hp with rfl | rfl | rfl
  · exact .ofBytes _ _
  · exact .scalar (show getTagType HksTag.userId ≠ _ by decide)
  · exact .scalar (show getTagType HksTag.accessTokenId ≠ _ by decide)

-- A set under construction that holds `ps` and nothing in front of it.
def Extends (ps : List HksParam) (s : HksParamSet) : Prop :=
  ∃ rest, Accumulated (ps ++ rest) s ∧ ∀ p ∈ ps ++ rest, p.External

namespace Extends

variable {ps qs : List HksParam} {s t : HksParamSet}

theorem of_accumulated (a : Accumulated ps s) (h : ∀ p ∈ ps, p.External) : Extends ps s :=
  ⟨[], by simpa using a, by simpa using h⟩

theorem add (h : Extends ps s) (hq : ∀ p ∈ qs, p.External) (ht : hksAddParams s qs = .ok t) :
    Extends ps t := by
  have ⟨rest, a, hext⟩ := h
  refine ⟨rest ++ qs, List.append_assoc .. ▸ a.add ht, fun p hp => ?_⟩
  rw [← List.append_assoc] at hp
  cases List.mem_append.mp hp
  case inl hp => exact hext p hp
  case inr hp => exact hq p hp

theorem add_scalar (h : Extends ps s) {p : HksParam} (hp : getTagType p.tag ≠ .bytes)
    (ht : hksAddParams s [p] = .ok t) : Extends ps t :=
  h.add (fun _ hq => List.mem_singleton.mp hq ▸ .scalar hp) ht

theorem build (h : Extends ps s) (ht : hksBuildParamSet s = .ok t) :
    ∃ rest, Carries (ps ++ rest) t :=
  have ⟨rest, a, hext⟩ := h
  ⟨rest, a.carries hext ht⟩

end Extends

section Append

variable {env : ServiceEnv} {n : Nat} {processInfo : HksProcessInfo} {ps : List HksParam}
  {s t : HksParamSet}

theorem appendOwnerInfo_extends (h : Extends ps s)
    (ht : appendOwnerInfoForAcrossDevicesIfNeed env n processInfo s = .ok t) : Extends ps t := by
  unfold appendOwnerInfoForAcrossDevicesIfNeed at ht
  split at ht
  case isTrue =>
    cases ht
    exact h
  case isFalse =>
    have ⟨appInfo, _, ht⟩ := Except.bind_eq_ok.mp ht
    refine h.add (fun p hp => ?_) ht
    simp only [List.mem_cons, List.not_mem_nil, or_false] at hp
    rcases hp with rfl | rfl
    · exact .ofBytes _ _
    · exact .scalar (show getTagType HksTag.ownerType ≠ _ by decide)

theorem addStorageLevel_extends (h : Extends ps s)
    (ht : addStorageLevelToParamSet env n processInfo s = .ok t) : Extends ps t := by
  unfold addStorageLevelToParamSet at ht
  split at ht
  case h_1 =>
    cases ht
    exact h
  case h_2 =>
    dsimp only at ht
    split at ht
    case isTrue =>
      have ⟨skipTransfer, _, ht⟩ := Except.bind_eq_ok.mp ht
      exact h.add_scalar (show getTagType HksTag.authStorageLevel ≠ _ by decide) ht
    case isFalse => exact h.add_scalar (by decide) ht
  case h_3 => cases ht

theorem appendToNewParamSet_ok {paramSet : HksParamSet} (h : appendToNewParamSet paramSet = .ok t) :
    ∃ ps, paramWords ps = paramSet.words ∧ Accumulated ps t ∧ ∀ p ∈ ps, p.External := by
  have ⟨_, _, h⟩ := Except.bind_eq_ok.mp h
  have ⟨fresh, hfresh, h⟩ := Except.bind_eq_ok.mp h
  have hwords := words_entries fresh
  rw [(hksFreshParamSet_words hfresh).1] at hwords
  exact ⟨fresh.entries, hwords, Accumulated.init.add h, entries_external h⟩

-- What is added behind the identity.
theorem appendDefaults_extends
    (h : Extends ps s)
    (ht : (do
      let newParamSet ←
        if env.supportGetBundleInfo then
          appendOwnerInfoForAcrossDevicesIfNeed env n processInfo s
        else
          .ok s
      let newParamSet ←
        if env.l2Standard then
          appendStorageLevelAndSpecificUserIdToParamSet env n processInfo none newParamSet
        else
          .ok newParamSet
      hksBuildParamSet newParamSet) = .ok t) :
    ∃ rest, Carries (ps ++ rest) t := by
  have build {u : HksParamSet} (hu : Extends ps u)
      (ht : (do
        let newParamSet ←
          if env.l2Standard then
            appendStorageLevelAndSpecificUserIdToParamSet env n processInfo none u
          else
            .ok u
        hksBuildParamSet newParamSet) = .ok t) : ∃ rest, Carries (ps ++ rest) t := by
    dsimp only at ht
    split at ht
    case isTrue =>
      have ⟨v, hv, ht⟩ := Except.bind_eq_ok.mp ht
      exact (addStorageLevel_extends hu hv).build ht
    case isFalse => exact hu.build ht
  dsimp only at ht
  split at ht
  case isTrue =>
    have ⟨u, hu, ht⟩ := Except.bind_eq_ok.mp ht
    exact build (appendOwnerInfo_extends h hu) ht
  case isFalse => exact build h ht

end Append

-- The params of the caller, of which there may be none.
def callerParams (paramSet : Option HksParamSet) : List HksParam :=
  paramSet.elim [] HksParamSet.params

-- The new param set has the caller's params, which name no process, and behind them the caller's
-- identity.
theorem append_carries {env : ServiceEnv} {paramSet : Option HksParamSet}
    {processInfo : HksProcessInfo} {new : HksParamSet} {s t : Sessions Engine}
    (h : (appendProcessInfoAndDefaultStrategy env paramSet processInfo none).run s = .ok new t) :
    ∃ ps rest, paramWords ps = paramWords (callerParams paramSet) ∧
      (∀ p ∈ ps, p.tag ≠ HksTag.processName) ∧
      Carries (ps ++ processInfo.identityParams ++ rest) new := by
  have ⟨n, _, _, h⟩ := run_bind_eq_ok.mp h
  have ⟨h, _⟩ := run_ofExcept_eq_ok.mp h
  have ⟨own, hown, h⟩ := Except.bind_eq_ok.mp h
  have ⟨ps, hwords, a, hext⟩ : ∃ ps, paramWords ps = paramWords (callerParams paramSet) ∧
      Accumulated ps own ∧ ∀ p ∈ ps, p.External := by
    cases paramSet
    case some => exact appendToNewParamSet_ok hown
    case none =>
      cases hown
      exact ⟨[], rfl, .init, by simp⟩
  split at h
  case isTrue => cases h
  case isFalse hname =>
    have ⟨named, hnamed, h⟩ := Except.bind_eq_ok.mp h
    have hext' : ∀ p ∈ ps ++ processInfo.identityParams, p.External := by
      intro p hp
      cases List.mem_append.mp hp
      case inl hp => exact hext p hp
      case inr hp => exact processInfo.identityParams_external p hp
    have ⟨rest, c⟩ := appendDefaults_extends (.of_accumulated (a.add hnamed) hext') h
    refine ⟨ps, rest, hwords, ?_, c⟩
    simpa [checkProcessNameTagExist, a.params] using hname

-- What the caller's own params say first about its account and its token, if they do, is true.
structure Truthful (processInfo : HksProcessInfo) (paramSet : Option HksParamSet) : Prop where
  userId        : ∀ p ∈ (callerParams paramSet).find? (·.tag = HksTag.userId),
    p.uint32Param = processInfo.userIdInt.toUInt32
  accessTokenId : ∀ p ∈ (callerParams paramSet).find? (·.tag = HksTag.accessTokenId),
    p.uint64Param = processInfo.accessTokenId

abbrev HksProcessInfo.Identified (processInfo : HksProcessInfo) (s : HksParamSet) : Prop :=
  Identifies processInfo.processName processInfo.userIdInt.toUInt32 processInfo.accessTokenId s

abbrev HksProcessInfo.Owns (processInfo : HksProcessInfo) (keyBlobParamSet : HksParamSet) : Prop :=
  OwnedBy processInfo.processName processInfo.userIdInt.toUInt32 processInfo.accessTokenId
    keyBlobParamSet

section Identity

variable {env : ServiceEnv} {paramSet : Option HksParamSet} {processInfo : HksProcessInfo}
  {new : HksParamSet} {s t : Sessions Engine}

-- The caller's own param is found before the one that the service added.
theorem append_word
    (h : (appendProcessInfoAndDefaultStrategy env paramSet processInfo none).run s = .ok new t)
    {tag : UInt32} (ht : getTagType tag ≠ .bytes) {added : HksParam}
    (hadded : processInfo.identityParams.find? (·.tag = tag) = some added) :
    (hksGetParam new tag).map HksParam.word =
      .ok (((callerParams paramSet).find? (·.tag = tag)).elim added.word HksParam.word) := by
  have ⟨ps, rest, hwords, _, c⟩ := append_carries h
  rw [hksGetParam_word c.check ht, c.words, paramWords_append, paramWords_append, hwords,
    List.find?_append, List.find?_append, find?_paramWords, find?_paramWords, hadded]
  cases (callerParams paramSet).find? (·.tag = tag) <;> rfl

theorem append_processName
    (h : (appendProcessInfoAndDefaultStrategy env paramSet processInfo none).run s = .ok new t)
    (hne : processInfo.processName ≠ [])
    (hlen : processInfo.processName.length ≤ hksMaxProcessNameLen) :
    getBlob new HksTag.processName = .ok processInfo.processName := by
  have ⟨ps, rest, _, hname, c⟩ := append_carries h
  refine c.blob (by decide) (Nat.lt_of_le_of_lt hlen (by decide)) hne ?_
  have hnone : ps.find? (·.tag = HksTag.processName) = none := by simpa using hname
  rw [List.find?_append, List.find?_append, hnone]
  rfl

theorem identified_iff
    (h : (appendProcessInfoAndDefaultStrategy env paramSet processInfo none).run s = .ok new t)
    (hne : processInfo.processName ≠ [])
    (hlen : processInfo.processName.length ≤ hksMaxProcessNameLen) :
    processInfo.Identified new ↔ Truthful processInfo paramSet := by
  have huser : getUInt32 new HksTag.userId =
      .ok (((callerParams paramSet).find? (·.tag = HksTag.userId)).elim
        processInfo.userIdInt.toUInt32 HksParam.uint32Param) := by
    rw [getUInt32_word, append_word h (by decide) rfl]
    cases (callerParams paramSet).find? (·.tag = HksTag.userId)
    case some => rfl
    case none => simp [HksParam.ofUInt32, Except.map]
  have htoken := append_word h (by decide : getTagType HksTag.accessTokenId ≠ .bytes) rfl
  constructor
  case mp =>
    rintro ⟨_, hu, ht⟩
    constructor
    case userId =>
      intro p hp
      rw [hu, Option.mem_def.mp hp] at huser
      exact (Except.ok.inj huser).symm
    case accessTokenId =>
      intro p hp
      rw [Option.mem_def.mp hp] at htoken
      exact (Except.ok.inj (ht.symm.trans htoken)).symm
  case mpr =>
    intro truthful
    refine ⟨append_processName h hne hlen, ?_, ?_⟩
    · rw [huser]
      cases hp : (callerParams paramSet).find? (·.tag = HksTag.userId)
      case none => rfl
      case some p => rw [Option.elim_some, truthful.userId p hp]
    · refine htoken.trans ?_
      cases hp : (callerParams paramSet).find? (·.tag = HksTag.accessTokenId)
      case none => rfl
      case some p => exact congrArg Except.ok (truthful.accessTokenId p hp)

end Identity

-- The storage gave `key` for the alias.
def Fetched (env : ServiceEnv) (processInfo : HksProcessInfo) (keyAlias : Bytes)
    (new : HksParamSet) (key : Bytes) : Prop :=
  ∃ n mode, env.getKeyData n processInfo keyAlias new mode = .ok key

section Served

variable {env : ServiceEnv} {ops : OneStageEnv} {processInfo : HksProcessInfo} {keyAlias : Bytes}
  {paramSet : Option HksParamSet} {s t : Sessions Engine}

theorem getKeyData_ok {new : HksParamSet} {mode : HksStorageType} {key : Bytes}
    (h : (getKeyData env processInfo keyAlias new mode).run s = .ok key t) :
    Fetched env processInfo keyAlias new key := by
  have ⟨n, _, _, h⟩ := run_bind_eq_ok.mp h
  exact ⟨n, mode, (run_ofExcept_eq_ok.mp h).1⟩

theorem getKeyAndNewParamSet_some {keyFromFile : Except HksErrorCode Bytes} {new : HksParamSet}
    (h : (getKeyAndNewParamSet env processInfo keyAlias paramSet).run s =
      .ok (keyFromFile, some new) t) :
    ∃ u, (appendProcessInfoAndDefaultStrategy env paramSet processInfo none).run s = .ok new u ∧
      ∀ key, keyFromFile = .ok key → Fetched env processInfo keyAlias new key := by
  have ⟨appended, u, happend, h⟩ := run_bind_eq_ok.mp h
  split at h
  case h_1 => cases h
  case h_2 new' =>
    have ⟨ret, _, hkey, h⟩ := run_bind_eq_ok.mp h
    cases h
    refine ⟨u, run_attempt_ok.mp happend, ?_⟩
    rintro key rfl
    exact getKeyData_ok (run_attempt_ok.mp hkey)

theorem execWithoutParamSet_throws {engine : EngineEnv} {key out : Bytes} {w w' : World}
    (call : OneStageCall) : (call.execWithoutParamSet engine key).run w ≠ .ok out w' := by
  intro h
  cases call
  case exportPublicKey =>
    unfold OneStageCall.execWithoutParamSet at h
    dsimp only at h
    split at h
    case isTrue => cases h
    case isFalse =>
      have ⟨_, _, _, h⟩ := run_bind_eq_ok.mp h
      cases h
  case getKeyProperties =>
    have ⟨_, _, _, h⟩ := run_bind_eq_ok.mp h
    cases h
  all_goals cases h

theorem huksAccess_ok {α : Type} {x : EngineM α} {a : α} (h : (huksAccess x).run s = .ok a t) :
    ∃ e, x.run s.engine = .ok a e := by
  have ⟨e, h, _⟩ := run_zoom_eq_ok.mp h
  exact ⟨e, h⟩

theorem huksAccessOneStage_ok {key out : Bytes} {new : Option HksParamSet} {call : OneStageCall}
    (h : (huksAccessOneStage env ops key new call).run s = .ok out t) :
    ∃ paramSet w, new = some paramSet ∧
      (call.exec env.engine ops key paramSet).run s.engine.world = .ok out w := by
  have ⟨_, h⟩ := huksAccess_ok h
  have ⟨w, h, _⟩ := run_zoom_eq_ok.mp h
  rcases new with _ | paramSet
  case none => exact absurd h (execWithoutParamSet_throws call)
  case some => exact ⟨paramSet, w, rfl, h⟩

theorem useKeyInService_ok {check : Except HksErrorCode Unit} {call : OneStageCall} {out : Bytes}
    (h : (useKeyInService env ops processInfo keyAlias paramSet check call).run s = .ok out t) :
    ∃ new u key, (appendProcessInfoAndDefaultStrategy env paramSet processInfo none).run s =
        .ok new u ∧ Fetched env processInfo keyAlias new key ∧
      ∃ w w', (call.exec env.engine ops key new).run w = .ok out w' := by
  have ⟨_, _, hcheck, h⟩ := run_bind_eq_ok.mp h
  have ⟨_, hs⟩ := run_ofExcept_eq_ok.mp hcheck
  subst hs
  have ⟨⟨keyFromFile, new⟩, _, hget, h⟩ := run_bind_eq_ok.mp h
  have ⟨_, _, htry, h⟩ := run_bind_eq_ok.mp h
  split at h
  case h_1 =>
    cases h
    have ⟨key, _, hkey, haccess⟩ := run_bind_eq_ok.mp (run_attempt_ok.mp htry)
    have ⟨paramSet, w, heq, hrun⟩ := huksAccessOneStage_ok haccess
    subst heq
    have ⟨u, happend, hfetched⟩ := getKeyAndNewParamSet_some hget
    exact ⟨paramSet, u, key, happend, hfetched key (run_ofExcept_eq_ok.mp hkey).1, _, w, hrun⟩
  case h_2 =>
    unfold huksAccessOneStageBackup at h
    split at h
    case isFalse => cases h
    case isTrue =>
      have ⟨key, _, hkey, haccess⟩ := run_bind_eq_ok.mp h
      have ⟨paramSet, w, heq, hrun⟩ := huksAccessOneStage_ok haccess
      subst heq
      have ⟨u, happend, _⟩ := getKeyAndNewParamSet_some hget
      exact ⟨paramSet, u, key, happend, getKeyData_ok hkey, _, w, hrun⟩

theorem huksAccessInit_ok {key : Bytes} {new : Option HksParamSet} {handleSize tokenSize : Nat}
    {r : UInt64 × Bytes} (h : (huksAccessInit env key new handleSize tokenSize).run s = .ok r t) :
    ∃ paramSet e, new = some paramSet ∧
      (hksCoreInit env.engine key paramSet handleSize tokenSize).run s.engine = .ok r e := by
  rcases new with _ | paramSet
  case none => cases h
  case some =>
    have ⟨e, h⟩ := huksAccess_ok h
    exact ⟨paramSet, e, rfl, h⟩

theorem hksServiceInit_ok {handleSize tokenSize : Nat} {r : UInt64 × Bytes}
    (h : (hksServiceInit env processInfo keyAlias paramSet handleSize tokenSize).run s = .ok r t) :
    ∃ new u key, (appendProcessInfoAndDefaultStrategy env paramSet processInfo none).run s =
        .ok new u ∧ Fetched env processInfo keyAlias new key ∧
      ∃ r e e', (hksCoreInit env.engine key new handleSize tokenSize).run e = .ok r e' := by
  have ⟨created, _, h, _⟩ := run_bind_eq_ok.mp h
  have ⟨_, _, hcheck, h⟩ := run_bind_eq_ok.mp h
  have ⟨_, hs⟩ := run_ofExcept_eq_ok.mp hcheck
  subst hs
  have ⟨⟨keyFromFile, new⟩, _, hget, h⟩ := run_bind_eq_ok.mp h
  have ⟨_, _, htry, h⟩ := run_bind_eq_ok.mp h
  split at h
  case h_1 =>
    cases h
    have ⟨key, _, hkey, haccess⟩ := run_bind_eq_ok.mp (run_attempt_ok.mp htry)
    have ⟨paramSet, e, heq, hrun⟩ := huksAccessInit_ok haccess
    subst heq
    have ⟨u, happend, hfetched⟩ := getKeyAndNewParamSet_some hget
    exact ⟨paramSet, u, key, happend, hfetched key (run_ofExcept_eq_ok.mp hkey).1, _, _, e, hrun⟩
  case h_2 =>
    unfold huksAccessInitBackup at h
    split at h
    case isFalse => cases h
    case isTrue =>
      have ⟨key, _, hkey, haccess⟩ := run_bind_eq_ok.mp h
      have ⟨paramSet, e, heq, hrun⟩ := huksAccessInit_ok haccess
      subst heq
      have ⟨u, happend, _⟩ := getKeyAndNewParamSet_some hget
      exact ⟨paramSet, u, key, happend, getKeyData_ok hkey, _, _, e, hrun⟩

end Served

namespace KeyUse

def isInit : KeyUse → Bool
  | init _ _ => true
  | _        => false

-- The engine call of every use but Init.
def call : KeyUse → Option OneStageCall
  | sign srcData signatureSize         => some (.sign srcData signatureSize)
  | verify srcData signature           => some (.verify srcData signature)
  | encrypt plainText cipherTextSize   => some (.encrypt plainText cipherTextSize)
  | decrypt cipherText plainTextSize   => some (.decrypt cipherText plainTextSize)
  | agreeKey peerPublicKey keySize     => some (.agreeKey peerPublicKey keySize)
  | deriveKey derivedKeySize           => some (.deriveKey derivedKeySize)
  | mac srcData macSize                => some (.mac srcData macSize)
  | exportPublicKey keySize            => some (.exportPublicKey keySize)
  | getKeyParamSet _                   => some .getKeyProperties
  | init _ _                           => none

-- The check that the service starts with.
def check (processName keyAlias : Bytes) (paramSet : Option HksParamSet) :
    KeyUse → Except HksErrorCode Unit
  | sign data size | encrypt data size | decrypt data size | agreeKey data size | mac data size =>
    hksCheckAllParams processName keyAlias paramSet data.size size
  | verify data signature => hksCheckAllParams processName keyAlias paramSet data.size signature.size
  | deriveKey size        => hksCheckDeriveKeyParams processName keyAlias paramSet size
  | exportPublicKey size  => hksCheckExportPublicKeyParams processName keyAlias size
  | getKeyParamSet size   => hksCheckGetKeyParamSetParams processName keyAlias size
  | init _ _              => hksCheckServiceInitParams processName keyAlias paramSet

theorem exec_call {env : ServiceEnv} {ops : OneStageEnv} {processInfo : HksProcessInfo}
    {keyAlias : Bytes} {paramSet : Option HksParamSet} {use : KeyUse} {call : OneStageCall}
    (h : use.call = some call) :
    use.exec env ops processInfo keyAlias paramSet =
      discard (useKeyInService env ops processInfo keyAlias paramSet
        (use.check processInfo.processName keyAlias paramSet) call) := by
  cases use <;> cases h <;> rfl

end KeyUse

section Check

variable {processName keyAlias : Bytes}

theorem checkProcessNameAndKeyAliasSize_ok
    (h : checkProcessNameAndKeyAliasSize processName keyAlias = .ok ()) :
    processName.length ≤ hksMaxProcessNameLen := by
  dsimp only [checkProcessNameAndKeyAliasSize] at h
  split at h
  case isTrue => cases h
  case isFalse hlen => exact Nat.le_of_not_lt hlen

theorem hksCheckAllParams_ok {paramSet : Option HksParamSet} {size₁ size₂ : UInt32}
    (h : hksCheckAllParams processName keyAlias paramSet size₁ size₂ = .ok ()) :
    processName ≠ [] ∧ processName.length ≤ hksMaxProcessNameLen := by
  dsimp only [hksCheckAllParams] at h
  split at h
  case isTrue => cases h
  case isFalse hn =>
    have ⟨_, _, h⟩ := Except.bind_eq_ok.mp h
    exact ⟨fun he => hn (.inl he), checkProcessNameAndKeyAliasSize_ok h⟩

theorem hksCheckDeriveKeyParams_ok {paramSet : Option HksParamSet} {size : UInt32}
    (h : hksCheckDeriveKeyParams processName keyAlias paramSet size = .ok ()) :
    processName ≠ [] ∧ processName.length ≤ hksMaxProcessNameLen := by
  dsimp only [hksCheckDeriveKeyParams, hksCheckGenAndImportKeyParams] at h
  split at h
  case isTrue => cases h
  case isFalse hn =>
    have ⟨_, _, h⟩ := Except.bind_eq_ok.mp h
    exact ⟨fun he => hn (.inl he), checkProcessNameAndKeyAliasSize_ok h⟩

theorem hksCheckExportPublicKeyParams_ok {size : UInt32}
    (h : hksCheckExportPublicKeyParams processName keyAlias size = .ok ()) :
    processName ≠ [] ∧ processName.length ≤ hksMaxProcessNameLen := by
  dsimp only [hksCheckExportPublicKeyParams] at h
  split at h
  case isTrue => cases h
  case isFalse hn => exact ⟨fun he => hn (.inl he), checkProcessNameAndKeyAliasSize_ok h⟩

theorem hksCheckGetKeyParamSetParams_ok {size : UInt32}
    (h : hksCheckGetKeyParamSetParams processName keyAlias size = .ok ()) :
    processName ≠ [] ∧ processName.length ≤ hksMaxProcessNameLen := by
  have ⟨_, h, _⟩ := Except.bind_eq_ok.mp h
  have h := Except.orError_eq_ok.mp h
  dsimp only [hksCheckProcessNameAndKeyAlias] at h
  split at h
  case isTrue => cases h
  case isFalse hn => exact ⟨fun he => hn (.inl he), checkProcessNameAndKeyAliasSize_ok h⟩

theorem hksCheckServiceInitParams_ok {paramSet : Option HksParamSet}
    (h : hksCheckServiceInitParams processName keyAlias paramSet = .ok ()) :
    processName ≠ [] ∧ processName.length ≤ hksMaxProcessNameLen := by
  dsimp only [hksCheckServiceInitParams] at h
  split at h
  case isTrue => cases h
  case isFalse hn =>
    have ⟨_, _, h⟩ := Except.bind_eq_ok.mp h
    have ⟨_, _, h⟩ := Except.bind_eq_ok.mp h
    have ⟨_, _, h⟩ := Except.bind_eq_ok.mp h
    split at h
    case isTrue => cases h
    case isFalse hlen => exact ⟨fun he => hn (.inl he), Nat.le_of_not_lt hlen⟩

theorem KeyUse.check_processName {paramSet : Option HksParamSet} {use : KeyUse}
    (h : use.check processName keyAlias paramSet = .ok ()) :
    processName ≠ [] ∧ processName.length ≤ hksMaxProcessNameLen := by
  cases use
  case sign | verify | encrypt | decrypt | agreeKey | mac => exact hksCheckAllParams_ok h
  case deriveKey => exact hksCheckDeriveKeyParams_ok h
  case exportPublicKey => exact hksCheckExportPublicKeyParams_ok h
  case getKeyParamSet => exact hksCheckGetKeyParamSetParams_ok h
  case init => exact hksCheckServiceInitParams_ok h

end Check

-- What an engine call asks of the tags of its param set before it compares the identities: only
-- Init looks at them.
def KeyUse.Admits (new : HksParamSet) : KeyUse → Prop
  | init handleSize _ => coreInitPreCheck new handleSize = .ok ()
  | _                 => True

-- The engine reads the real caller from `new`, and a call that returns has used a key of the real
-- caller.
structure KeyUse.Faithful (env : ServiceEnv) (ops : OneStageEnv) (processInfo : HksProcessInfo)
    (keyAlias : Bytes) (paramSet : Option HksParamSet) (use : KeyUse) (new : HksParamSet)
    (s : Sessions Engine) : Prop where
  read     : use.Admits new → processInfo.Identified new
  succeeds : ∀ t, (use.exec env ops processInfo keyAlias paramSet).run s = .ok ⟨⟩ t →
    ∃ key n keyBlobParamSet, Fetched env processInfo keyAlias new key ∧
      env.engine.getKeyBlobParamSet n key = .ok keyBlobParamSet ∧ processInfo.Owns keyBlobParamSet

section Faithful

variable {env : ServiceEnv} {ops : OneStageEnv} {processInfo : HksProcessInfo} {keyAlias : Bytes}
  {paramSet : Option HksParamSet} {new : HksParamSet} {s t : Sessions Engine}

theorem discard_ok {α : Type} {x : ServiceM α} (h : (discard x).run s = .ok ⟨⟩ t) :
    ∃ a, x.run s = .ok a t := by
  rw [run_discard] at h
  cases hx : x.run s <;> rw [hx] at h <;> cases h
  exact ⟨_, rfl⟩

-- With no tag twice the caller's own params say nothing about its account and its token.
theorem truthful_of_nodup
    (h : (appendProcessInfoAndDefaultStrategy env paramSet processInfo none).run s = .ok new t)
    (htags : hksCheckParamSetTag new = .ok ()) : Truthful processInfo paramSet := by
  have ⟨ps, rest, hwords, _, c⟩ := append_carries h
  have ⟨_, hnodup⟩ := hksCheckParamSetTag_eq_ok.mp htags
  have htags : new.params.map HksParam.tag = ((callerParams paramSet).map HksParam.tag ++
      processInfo.identityParams.map HksParam.tag) ++ rest.map HksParam.tag := by
    rw [tags_words c.words, List.map_append, List.map_append, tags_words hwords]
  rw [htags] at hnodup
  have hdisjoint := (List.nodup_append.mp (List.nodup_append.mp hnodup).1).2.2
  have absent {tag : UInt32} (htag : tag ∈ processInfo.identityParams.map HksParam.tag) :
      (callerParams paramSet).find? (·.tag = tag) = none := by
    rw [List.find?_eq_none]
    intro p hp heq
    exact hdisjoint p.tag (List.mem_map_of_mem hp) tag htag (by simpa using heq)
  constructor
  case userId =>
    rw [absent (by simp [HksProcessInfo.identityParams, HksParam.ofUInt32])]
    simp
  case accessTokenId =>
    rw [absent (by simp [HksProcessInfo.identityParams])]
    simp

theorem KeyUse.identified_of_admits {use : KeyUse}
    (h : (appendProcessInfoAndDefaultStrategy env paramSet processInfo none).run s = .ok new t)
    (hne : processInfo.processName ≠ [])
    (hlen : processInfo.processName.length ≤ hksMaxProcessNameLen)
    (huse : use.isInit ∨ Truthful processInfo paramSet) (hadmits : use.Admits new) :
    processInfo.Identified new := by
  apply (identified_iff h hne hlen).mpr
  cases huse
  case inr truthful => exact truthful
  case inl hinit =>
    cases use <;> cases hinit
    have ⟨_, htags⟩ := coreInitPreCheck_ok hadmits
    exact truthful_of_nodup h htags

end Faithful

-- A key of the process `[1]` in the account 101 with the token 8, a caller of that process name in
-- the account 100 with the token 7, and a param set in which it claims the former.
def strangersKey : HksParamSet := openedKeyOf eccMaterial [.ofUInt32 HksTag.algorithm HksKeyAlg.ecc,
  .ofUInt32 HksTag.keySize 256, .ofUInt32 HksTag.purpose HksKeyPurpose.sign,
  .ofUInt32 HksTag.digest HksKeyDigest.sha256, .ofUInt32 HksTag.userId 101,
  ⟨HksTag.accessTokenId, 8, .null⟩]

def impostor : HksProcessInfo where
  userId        := [1]
  processName   := [1]
  userIdInt     := 100
  accessTokenId := 7

def impostorParamSet : HksParamSet := builtParamSet [.ofUInt32 HksTag.algorithm HksKeyAlg.ecc,
  .ofUInt32 HksTag.purpose HksKeyPurpose.sign, .ofUInt32 HksTag.digest HksKeyDigest.sha256,
  .ofUInt32 HksTag.userId 101, ⟨HksTag.accessTokenId, 8, .null⟩]

def plainParamSet : HksParamSet := builtParamSet [.ofUInt32 HksTag.algorithm HksKeyAlg.ecc,
  .ofUInt32 HksTag.purpose HksKeyPurpose.sign, .ofUInt32 HksTag.digest HksKeyDigest.sha256]

-- The storage has that key only.
def strangersService : ServiceEnv := { steadyService with engine := steadyEnv strangersKey }

theorem run_of_toBool {α : Type} {x : ServiceM α} {s : Sessions Engine}
    (h : (x.run s).toExcept.toBool) : ∃ a t, x.run s = .ok a t := by
  cases hx : x.run s
  case ok a t => exact ⟨a, t, rfl⟩
  case error => simp [hx, Result.toExcept, Except.toBool] at h

-- A use of a key is bound to the real caller just when the engine refuses tags that come twice or
-- the caller's own params do not contradict the service.
theorem keyUse_faithful_iff {env : ServiceEnv} {ops : OneStageEnv} {processInfo : HksProcessInfo}
    {keyAlias : Bytes} {paramSet : Option HksParamSet} {use : KeyUse} {new : HksParamSet}
    {s t : Sessions Engine}
    (hcheck : use.check processInfo.processName keyAlias paramSet = .ok ())
    (happend : (appendProcessInfoAndDefaultStrategy env paramSet processInfo none).run s =
      .ok new t) :
    use.Faithful env ops processInfo keyAlias paramSet new s ↔
      use.isInit ∨ Truthful processInfo paramSet := by
  have ⟨hne, hlen⟩ := KeyUse.check_processName hcheck
  constructor
  case mp =>
    intro faithful
    by_cases hinit : use.isInit
    case pos => exact .inl hinit
    case neg =>
      have hadmits : use.Admits new := by
        cases use
        case init => exact absurd rfl hinit
        all_goals trivial
      exact .inr <| (identified_iff happend hne hlen).mp (faithful.read hadmits)
  case mpr =>
    intro huse
    have identified := KeyUse.identified_of_admits happend hne hlen huse
    refine ⟨identified, fun u hrun => ?_⟩
    cases hcall : use.call
    case some call =>
      rw [KeyUse.exec_call hcall] at hrun
      have ⟨_, hrun⟩ := discard_ok hrun
      have ⟨new', _, key, happend', fetched, w, _, hexec⟩ := useKeyInService_ok hrun
      cases happend.symm.trans happend'
      have ⟨keyBlobParamSet, passed⟩ := OneStageCall.passed hexec
      have ⟨_, _, hverify⟩ := passed.identity
      have hadmits : use.Admits new := by cases use <;> cases hcall <;> trivial
      exact ⟨key, w.tick, keyBlobParamSet, fetched, passed.opened,
        hksProcessIdentityVerify_ok hverify (identified hadmits)⟩
    case none =>
      cases use <;> cases hcall
      case init =>
        have ⟨_, hrun⟩ := discard_ok hrun
        have ⟨new', _, key, happend', fetched, _, _, _, hexec⟩ := hksServiceInit_ok hrun
        cases happend.symm.trans happend'
        have ⟨hpre, n, keyBlobParamSet, hopen, _, _, hverify⟩ := hksCoreInit_ok hexec
        exact ⟨key, n, keyBlobParamSet, fetched, hopen,
          hksProcessIdentityVerify_ok hverify (identified hpre)⟩

theorem keyUse_faithful_plain :
    ∃ new t, (appendProcessInfoAndDefaultStrategy strangersService (some plainParamSet) impostor
        none).run { engine := {} } = .ok new t ∧
      (KeyUse.sign [1] 72).Faithful strangersService (steadyOneStage strangersKey) impostor [9]
        (some plainParamSet) new { engine := {} } := by
  have ⟨new, t, happend⟩ := run_of_toBool
    (x := appendProcessInfoAndDefaultStrategy strangersService (some plainParamSet) impostor none)
    (s := { engine := {} }) (by decide)
  exact ⟨new, t, happend, (keyUse_faithful_iff (by decide) happend).mpr
    (.inr ⟨by decide, by decide⟩)⟩

-- The impostor signs with the stranger's key.
theorem keyUse_not_faithful :
    ∃ new t, (KeyUse.sign [1] 72).check impostor.processName [9] (some impostorParamSet) = .ok () ∧
      (appendProcessInfoAndDefaultStrategy strangersService (some impostorParamSet) impostor
        none).run { engine := {} } = .ok new t ∧
      ¬(KeyUse.sign [1] 72).Faithful strangersService (steadyOneStage strangersKey) impostor [9]
        (some impostorParamSet) new { engine := {} } := by
  have ⟨new, t, happend⟩ := run_of_toBool
    (x := appendProcessInfoAndDefaultStrategy strangersService (some impostorParamSet) impostor none)
    (s := { engine := {} }) (by decide)
  have ⟨_, u, hsign⟩ := run_of_toBool
    (x := (KeyUse.sign [1] 72).exec strangersService (steadyOneStage strangersKey) impostor [9]
      (some impostorParamSet)) (s := { engine := {} }) (by decide +kernel)
  refine ⟨new, t, by decide, happend, fun faithful => ?_⟩
  have ⟨_, _, keyBlobParamSet, _, hopen, owns⟩ := faithful.succeeds u hsign
  have hkey : strangersKey = keyBlobParamSet := Except.ok.inj hopen
  subst hkey
  exact absurd (owns.userId 101 (by decide +kernel)) (by decide)

end Huks
