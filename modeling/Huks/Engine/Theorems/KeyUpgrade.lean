import Huks.Engine.Theorems.EngineRuns
import Huks.Engine.Theorems.UpgradeKey

namespace Huks

open HksParamSet EStateM

theorem value_key {s : HksParamSet} {p : HksParam} (h : hksGetParam s HksTag.key = .ok p) :
    s.value p = .blob (s.blob p) := by
  have ⟨htag, _⟩ := getParam_value h
  have hb : p.isBytes := by
    rw [HksParam.isBytes, htag]
    rfl
  rw [HksParamSet.value, HksParam.value, if_pos hb]
  rfl

namespace NewKeyParamSet

variable {env : KeyBlobEnv} {old paramSet t : HksParamSet} (n : NewKeyParamSet env old paramSet t)

theorem upgradeParams_tags : (upgradeParams env old n.oldKey).map HksParam.tag =
    [HksTag.keyVersion, HksTag.osVersion, HksTag.osPatchlevel, HksTag.key] := by
  have ⟨htag, _⟩ := getParam_value n.hasKey
  simp [upgradeParams, HksParam.ofUInt32, htag]

-- What the mandatory params hold is what the caller sent, and otherwise what the upgrade adds.
theorem winner (hcheck : hksCheckParamSet paramSet paramSet.paramSetSize = .ok ()) {tag : UInt32}
    {p : HksParam} (h : hksGetParam n.mandatory tag = .ok p) :
    (∃ q, hksGetParam paramSet tag = .ok q ∧ n.mandatory.value p = paramSet.value q) ∨
      (∀ q, hksGetParam paramSet tag ≠ .ok q) ∧
        (upgradeParams env old n.oldKey).find? (·.tag = tag) = some p := by
  cases hksGetParam_mandatory n.gathered hcheck h
  case inl hp =>
    have ⟨q, hq, hpq⟩ := hp
    refine .inl ⟨q, hq, ?_⟩
    rw [hpq]
    exact paramSet.value_entry q _ _
  case inr hp => exact .inr hp

theorem processName_of (hcheck : hksCheckParamSet paramSet paramSet.paramSetSize = .ok ()) :
    (hksGetParam paramSet HksTag.processName).map paramSet.value =
      .ok (n.mandatory.value n.processName) := by
  cases n.winner hcheck n.getName
  case inl hp =>
    have ⟨q, hq, hvalue⟩ := hp
    rw [hq, hvalue]
    rfl
  case inr hp =>
    have ⟨_, hfind⟩ := hp
    have hnone : (upgradeParams env old n.oldKey).find? (·.tag = HksTag.processName) = none := by
      apply find?_tag_none
      rw [n.upgradeParams_tags]
      decide
    cases hnone.symm.trans hfind

theorem keyVersion_of (hcheck : hksCheckParamSet paramSet paramSet.paramSetSize = .ok ()) :
    (n.mandatory.value n.keyVersion).uint32 =
      (getUInt32 paramSet HksTag.keyVersion).toOption.getD env.hksKeyVersion := by
  rw [getUInt32_value paramSet (by decide)]
  cases n.winner hcheck n.getVersion
  case inl hp =>
    have ⟨q, hq, hvalue⟩ := hp
    rw [hq, hvalue]
    rfl
  case inr hp =>
    have ⟨hnone, hfind⟩ := hp
    have hp : HksParam.ofUInt32 HksTag.keyVersion env.hksKeyVersion = n.keyVersion :=
      Option.some.inj hfind
    have ht : getTagType HksTag.keyVersion ≠ .bytes := by decide
    have hvalue : (n.mandatory.value n.keyVersion).uint32 = env.hksKeyVersion := by
      rw [← hp]
      simp [HksParamSet.value, HksParam.value, HksParam.isBytes, HksParam.ofUInt32, ht,
        ParamValue.uint32]
    rw [hvalue]
    cases hget : hksGetParam paramSet HksTag.keyVersion
    case error => rfl
    case ok q => exact absurd hget (hnone q)

theorem key_of (hcheck : hksCheckParamSet paramSet paramSet.paramSetSize = .ok ()) :
    (∃ q, hksGetParam paramSet HksTag.key = .ok q ∧
        n.mandatory.blob n.key = paramSet.blob q) ∨
      (∀ q, hksGetParam paramSet HksTag.key ≠ .ok q) ∧
        n.mandatory.blob n.key = old.blob n.oldKey := by
  have hvalue := value_key n.getKey
  cases n.winner hcheck n.getKey
  case inl hp =>
    have ⟨q, hq, hsame⟩ := hp
    rw [hvalue, value_key hq] at hsame
    exact .inl ⟨q, hq, ParamValue.blob.inj hsame⟩
  case inr hp =>
    have ⟨hnone, hfind⟩ := hp
    refine .inr ⟨hnone, ?_⟩
    have hentry : old.entry n.oldKey = n.key := by
      have ⟨htag, _⟩ := getParam_value n.hasKey
      have hversions : ([.ofUInt32 HksTag.keyVersion env.hksKeyVersion,
          .ofUInt32 HksTag.osVersion hksKeyBlobDummyOsVersion,
          .ofUInt32 HksTag.osPatchlevel hksKeyBlobDummyOsPatchlevel] : List HksParam).find?
            (·.tag = HksTag.key) = none := by
        apply find?_tag_none
        simp only [List.map_cons, List.map_nil, HksParam.ofUInt32]
        decide
      have hsplit : upgradeParams env old n.oldKey = [.ofUInt32 HksTag.keyVersion env.hksKeyVersion,
          .ofUInt32 HksTag.osVersion hksKeyBlobDummyOsVersion,
          .ofUInt32 HksTag.osPatchlevel hksKeyBlobDummyOsPatchlevel] ++ [old.entry n.oldKey] := rfl
      rw [hsplit, List.find?_append, hversions] at hfind
      simpa [htag] using hfind
    have hsame : old.value n.oldKey = n.mandatory.value n.key := by
      rw [← hentry]
      exact (old.value_entry _ _ _).symm
    rw [hvalue, value_key n.hasKey] at hsame
    exact (ParamValue.blob.inj hsame).symm

theorem rawKey_of (hcheck : hksCheckParamSet paramSet paramSet.paramSetSize = .ok ())
    {info : HksKeyBlobInfo} {text : Bytes} (hblob : n.mandatory.blob n.key = info.encode ++ text)
    (nonempty : text ≠ []) (keySize : info.keySize = text.length.toUInt32)
    (fits : mallocOk (text.length + hksKeyBlobInfoSize)) :
    hksGetRawKey old = .ok text ↔
      ∀ q, hksGetParam paramSet HksTag.key = .ok q → hksGetRawKey paramSet = hksGetRawKey old := by
  cases n.key_of hcheck
  case inl hp =>
    have ⟨q, hq, hsame⟩ := hp
    have hraw := hksGetRawKey_blob hq (hsame.symm.trans hblob) nonempty keySize fits
    refine ⟨fun h q _ => hraw.trans h.symm, fun h => ?_⟩
    rw [← h q hq, hraw]
  case inr hp =>
    have ⟨hnone, hsame⟩ := hp
    have hraw := hksGetRawKey_blob n.hasKey (hsame.symm.trans hblob) nonempty keySize fits
    exact ⟨fun _ q hq => absurd hq (hnone q), fun _ => hraw⟩

end NewKeyParamSet

-- An upgraded key is the old one under the present version, with the restrictions of the old one and
-- no others, and it is the process's whose identity was verified.
structure KeyUpgraded (env : KeyBlobEnv) (old paramSet new : HksParamSet) : Prop where
  key         : hksGetRawKey new = hksGetRawKey old
  keyVersion  : getUInt32 new HksTag.keyVersion = .ok env.hksKeyVersion
  policy      : new.contents.filter (isTagInAlgTagsList ·.1) =
    old.contents.filter (isTagInAlgTagsList ·.1)
  processName : ∃ name, getBlob old HksTag.processName = .ok name ∧
    getBlob paramSet HksTag.processName = .ok name ∧ getBlob new HksTag.processName = .ok name

-- The caller sends neither another key nor another version along.
structure SparesKey (env : KeyBlobEnv) (old paramSet : HksParamSet) : Prop where
  key        : ∀ p, hksGetParam paramSet HksTag.key = .ok p →
    hksGetRawKey paramSet = hksGetRawKey old
  keyVersion : ∀ version, getUInt32 paramSet HksTag.keyVersion = .ok version →
    version = env.hksKeyVersion

section Upgrade

variable {env : KeyBlobEnv}

theorem hksGenerateKeyNode_inOrder {block : ParamBlock} {node : HksKeyNode}
    (h : hksGenerateKeyNode env block = some node) : node.paramSet.InOrder := by
  unfold hksGenerateKeyNode at h
  split at h
  case isTrue => cases h
  case isFalse =>
    simp only at h
    split at h
    case h_1 => cases h
    case h_2 v hv =>
      cases h
      have ⟨⟨aad, u⟩, hopen, hv⟩ := Except.bind_eq_ok.mp hv
      unfold getAadAndParamSet at hopen
      split at hopen
      case isTrue => cases hopen
      case isFalse =>
        have ⟨u', hset, hopen⟩ := Except.bind_eq_ok.mp hopen
        have ⟨p, _, hopen⟩ := Except.bind_eq_ok.mp hopen
        split at hopen
        case isTrue => cases hopen
        case isFalse =>
          cases hopen
          have ⟨_, hfresh⟩ := (block.hksGetParamSet_iff env.memory).mp hset
          have ⟨_, _, hu⟩ := hksFreshParamSet_iff.mp hfresh
          have hu : u.InOrder := hu ▸ .relocated _
          have ⟨bytes, hwrite⟩ := decryptKeyBlob_writes hv
          rw [hwrite]
          exact hu.writeBlob (by decide) bytes

theorem authUpgradeKey_ok {engine : EngineEnv} {old paramSet : HksParamSet} {w w' : World}
    (h : (authUpgradeKey engine old paramSet).run w = .ok ⟨⟩ w') :
    ∃ name, getBlob old HksTag.processName = .ok name ∧
      getBlob paramSet HksTag.processName = .ok name := by
  have ⟨_, _, hverify, _⟩ := run_bind_eq_ok.mp h
  have ⟨_, _, _, hverify⟩ := run_bind_eq_ok.mp hverify
  have ⟨_, _, _, hverify⟩ := run_bind_eq_ok.mp hverify
  have ⟨_, _, hname, _⟩ := run_bind_eq_ok.mp hverify
  exact hksCheckCompareProcessName_names (run_ofExcept_eq_ok.mp hname).1

-- What an upgrade that returns has done.
theorem hksUpgradeKey_ok {engine : EngineEnv} {oldKey : ParamBlock} {paramSet : HksParamSet}
    {newKeySize : UInt32} {newKey : Bytes} {w w' : World}
    (h : (hksUpgradeKey env engine oldKey paramSet newKeySize).run w = .ok newKey w') :
    ∃ oldNode old name t, hksGenerateKeyNode env oldKey = some oldNode ∧
      hksGetParamSet oldNode.paramSet oldNode.paramSet.paramSetSize = .ok old ∧
      getBlob old HksTag.processName = .ok name ∧ getBlob paramSet HksTag.processName = .ok name ∧
      Nonempty (NewKeyParamSet env old paramSet t) ∧
      hksBuildKeyBlobWithOutAddKeyParam env t newKeySize = .ok newKey := by
  unfold hksUpgradeKey at h
  split at h
  case h_1 => cases h
  case h_2 oldNode hopen =>
    have ⟨old, _, hcopy, h⟩ := run_bind_eq_ok.mp h
    have ⟨_, _, hneed, h⟩ := run_bind_eq_ok.mp h
    have ⟨_, _, hauth, _⟩ := run_bind_eq_ok.mp hneed
    have ⟨name, hold, hnew⟩ := authUpgradeKey_ok hauth
    have ⟨h, _⟩ := run_ofExcept_eq_ok.mp h
    have ⟨t, hconstruct, hbuild⟩ := Except.bind_eq_ok.mp h
    exact ⟨oldNode, old, name, t, hopen, (run_ofExcept_eq_ok.mp hcopy).1, hold, hnew,
      constructNewKeyParamSet_ok hconstruct, hbuild⟩

end Upgrade

-- Every upgrade gives a blob that opens, and that keeps the key and its policy exactly if the caller
-- sends neither another key nor another version along: what the caller sends comes first.
theorem hksUpgradeKey_exact (env : KeyBlobEnv) (inverts : env.Inverts) (engine : EngineEnv)
    {oldKey : ParamBlock} {oldNode : HksKeyNode} {paramSet : HksParamSet} {newKeySize : UInt32}
    {newKey : Bytes} {w w' : World} (hsize : newKeySize ≤ maxKeySize)
    (hopen : hksGenerateKeyNode env oldKey = some oldNode)
    (h : (hksUpgradeKey env engine oldKey paramSet newKeySize).run w = .ok newKey w') :
    ∃ block newNode, block.bytes = newKey ∧ hksGenerateKeyNode env block = some newNode ∧
      (KeyUpgraded env oldNode.paramSet paramSet newNode.paramSet ↔
        SparesKey env oldNode.paramSet paramSet) := by
  have ⟨_, old, name, t, hopen', hcopy, holdName, hname, ⟨n⟩, hbuild⟩ := hksUpgradeKey_ok h
  cases hopen.symm.trans hopen'
  have ⟨info, text, hblob, keySize, fits, b, hnewKey, hle⟩ := n.sealed hbuild
  subst hnewKey
  let block : ParamBlock := {
    bytes     := b.set.image env.addressOf env.padding
    size      := b.set.paramSetSize
    length_eq := b.carries.length_image env.addressOf env.padding }
  have ⟨newNode, hnode, c⟩ :=
    b.hksGenerateKeyNode inverts (show block.bytes = _ from rfl) (UInt32.le_trans hle hsize)
  refine ⟨block, newNode, rfl, hnode, ?_⟩
  have horder := hksGenerateKeyNode_inOrder hopen
  have hold : hksGetRawKey old = hksGetRawKey oldNode.paramSet := by
    have ht : getTagType HksTag.key = .bytes := by decide
    exact hksGetRawKey_congr (getBlob_copy horder hcopy ht)
  have hraw : hksGetRawKey newNode.paramSet = .ok text :=
    hksGetRawKey_eq c b.word_eq b.scalars b.unique b.fits b.nonempty b.keySize
  have hcheck : hksCheckParamSet paramSet paramSet.paramSetSize = .ok () := by
    cases hget : hksGetParam paramSet HksTag.processName
    case error => simp [getBlob, hget, Except.map] at hname
    case ok p => exact hksGetParam_check hget
  have hversion : getUInt32 newNode.paramSet HksTag.keyVersion =
      .ok (n.mandatory.value n.keyVersion).uint32 := by
    rw [getUInt32_value _ (by decide), n.value_keyVersion c rfl]
    rfl
  have hkeyIff := n.rawKey_of hcheck hblob b.nonempty keySize fits
  have hversionOf := n.keyVersion_of hcheck
  rw [hold] at hkeyIff
  constructor
  · intro kept
    refine ⟨hkeyIff.mp (kept.key.symm.trans hraw), fun version h => ?_⟩
    rw [h] at hversionOf
    exact hversionOf.symm.trans (Except.ok.inj (hversion.symm.trans kept.keyVersion))
  · intro spares
    refine ⟨hraw.trans (hkeyIff.mpr spares.key).symm, ?_, ?_, name, ?_, hname, ?_⟩
    · rw [hversion, hversionOf]
      cases h : getUInt32 paramSet HksTag.keyVersion
      case error => rfl
      case ok version => exact congrArg _ (spares.keyVersion version h)
    · rw [n.contents_policy c rfl, contents_copy horder hcopy]
    · rw [← getBlob_copy horder hcopy (by decide)]
      exact holdName
    · rw [getBlob_value _ (by decide), n.value_processName c rfl, ← n.processName_of hcheck,
        ← getBlob_value _ (by decide)]
      exact hname

-- Surroundings with a cipher that adds the first byte of the key, and a blob of version 2.
section Steady

open HksKeyPurpose

def xorKeyBlobEnv (hksKeyVersion : UInt32) : KeyBlobEnv := { bareKeyBlobEnv with
  hksKeyVersion
  deriveKey := fun _ alg derParam => .ok (.ofBytes _ (alg.toUInt8 :: derParam.salt))
  encrypt   := fun key usageSpec message =>
    .ok (⟨message.map (· ^^^ key.val.headD 0), List.length_map _⟩, .ofBytes _ usageSpec.iv)
  decrypt   := fun key usageSpec tag message =>
    if tag = .ofBytes _ usageSpec.iv then
      .ok ⟨message.map (· ^^^ key.val.headD 0), List.length_map _⟩
    else
      .error .cryptoEngineError }

theorem xorKeyBlobEnv_inverts (hksKeyVersion : UInt32) : (xorKeyBlobEnv hksKeyVersion).Inverts := by
  intro key usageSpec message cipher tag h
  cases h
  refine ⟨_, if_pos rfl, ?_⟩
  have hxor (pad : UInt8) : (fun byte => byte ^^^ pad) ∘ (fun byte => byte ^^^ pad) = id := by
    funext byte
    rw [Function.comp_apply, UInt8.xor_assoc, UInt8.xor_self, UInt8.xor_zero, id]
  change (message.map _).map _ = message
  rw [List.map_map, hxor, List.map_id]

def oldParamSet : HksParamSet :=
  ⟨0, [.ofUInt32 HksTag.algorithm HksKeyAlg.aes, .ofUInt32 HksTag.purpose sign,
    .ofBytes HksTag.processName [97]], []⟩

def blockOf (bytes : Bytes) (h : bytes.length < 2 ^ 32) : ParamBlock :=
  ⟨bytes, bytes.length.toUInt32, by
    rw [Nat.toUInt32, UInt32.toNat_ofNat', Nat.mod_eq_of_lt h]⟩

theorem bytes_blockOf (bytes : Bytes) (h : bytes.length < 2 ^ 32) : (blockOf bytes h).bytes = bytes :=
  rfl

def oldKeyBlob : Bytes :=
  (hksBuildKeyBlob (xorKeyBlobEnv 2) 2 [7] oldParamSet 2048).toOption.getD []

def oldKeyBlock : ParamBlock := blockOf oldKeyBlob (by decide +kernel)

-- The params of the service behind those of its caller.
def servicedParamSet (params : List HksParam) : HksParamSet :=
  builtParamSet (params ++ [.ofBytes HksTag.processName [97], .ofUInt32 HksTag.userId 100])

def upgradeRun (params : List HksParam) : WorldM Bytes :=
  hksUpgradeKey (xorKeyBlobEnv 3) (steadyEnv oldParamSet) oldKeyBlock (servicedParamSet params)
    maxKeySize

def upgradedBlob (params : List HksParam) : Bytes :=
  ((upgradeRun params).run {}).toExcept.toOption.getD []

theorem upgradeRun_ok (params : List HksParam) (h : ((upgradeRun params).run {}).toExcept.toBool) :
    ∃ w, (upgradeRun params).run {} = .ok (upgradedBlob params) w := by
  unfold upgradedBlob
  cases hr : (upgradeRun params).run {}
  case ok newKey w => exact ⟨w, rfl⟩
  case error => simp [hr, Result.toExcept, Except.toBool] at h

theorem hksUpgradeKey_exact_xor : ∃ oldNode block newNode,
    hksGenerateKeyNode (xorKeyBlobEnv 3) oldKeyBlock = some oldNode ∧
    block.bytes = upgradedBlob [] ∧ hksGenerateKeyNode (xorKeyBlobEnv 3) block = some newNode ∧
    KeyUpgraded (xorKeyBlobEnv 3) oldNode.paramSet (servicedParamSet []) newNode.paramSet := by
  have ⟨w, h⟩ := upgradeRun_ok [] (by decide +kernel)
  have hopened : (hksGenerateKeyNode (xorKeyBlobEnv 3) oldKeyBlock).isSome := by decide +kernel
  have ⟨oldNode, hopen⟩ := Option.isSome_iff_exists.mp hopened
  have ⟨block, newNode, hblock, hnode, hiff⟩ := hksUpgradeKey_exact (xorKeyBlobEnv 3)
    (xorKeyBlobEnv_inverts 3) (steadyEnv oldParamSet) (by decide) hopen h
  refine ⟨oldNode, block, newNode, hopen, hblock, hnode, hiff.mpr ⟨fun p hp => ?_, fun v hv => ?_⟩⟩
  · have hnone : (hksGetParam (servicedParamSet []) HksTag.key).toBool = false := by decide
    simp [hp, Except.toBool] at hnone
  · have hnone : (getUInt32 (servicedParamSet []) HksTag.keyVersion).toBool = false := by
      decide
    simp [hv, Except.toBool] at hnone

-- A key that the caller sends behind a header of its own.
def sentKey : List HksParam := [.ofBytes HksTag.key (.replicate 44 0 ++ toBytes32 1 ++ [9])]

-- The key of the caller takes the place of the old one.
theorem upgradeKey_takesSentKey : ∃ w oldNode block newNode,
    (upgradeRun sentKey).run {} = .ok (upgradedBlob sentKey) w ∧
    hksGenerateKeyNode (xorKeyBlobEnv 3) oldKeyBlock = some oldNode ∧
    hksGetRawKey oldNode.paramSet = .ok [7] ∧ block.bytes = upgradedBlob sentKey ∧
    hksGenerateKeyNode (xorKeyBlobEnv 3) block = some newNode ∧
    hksGetRawKey newNode.paramSet = .ok [9] ∧
    ¬KeyUpgraded (xorKeyBlobEnv 3) oldNode.paramSet (servicedParamSet sentKey) newNode.paramSet := by
  have ⟨w, h⟩ := upgradeRun_ok sentKey (by decide +kernel)
  let block := blockOf (upgradedBlob sentKey) (by decide +kernel)
  have hold : (hksGenerateKeyNode (xorKeyBlobEnv 3) oldKeyBlock).map (hksGetRawKey ·.paramSet) =
      some (.ok [7]) := by decide +kernel
  have hnew : (hksGenerateKeyNode (xorKeyBlobEnv 3) block).map (hksGetRawKey ·.paramSet) =
      some (.ok [9]) := by decide +kernel
  have ⟨oldNode, hopen, holdKey⟩ := Option.map_eq_some_iff.mp hold
  have ⟨newNode, hnode, hnewKey⟩ := Option.map_eq_some_iff.mp hnew
  refine ⟨w, oldNode, block, newNode, h, hopen, holdKey, bytes_blockOf _ _, hnode, hnewKey,
    fun kept => ?_⟩
  have hsame := kept.key
  rw [hnewKey, holdKey] at hsame
  cases hsame

end Steady

end Huks
