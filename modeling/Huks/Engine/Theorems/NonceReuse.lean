import Huks.Engine.KeyBlobCalls
import Huks.Engine.Theorems.KeyUpgrade
import Mathlib.Data.List.Pairwise

namespace Huks

open EStateM HksParamSet

section Request

variable (env : KeyBlobEnv) (paramSet : HksParamSet)

theorem encryptKeyBlob_eq (aad : Bytes) :
    encryptKeyBlob env aad paramSet =
      encryptRequest env aad paramSet >>= encryptedParamSet env paramSet := by
  simp only [encryptKeyBlob, encryptAndDecryptKeyBlob, encryptRequest]
  cases hget : hksGetParam paramSet HksTag.key
  case error => rfl
  case ok p =>
    simp only [bind, Except.bind]
    split
    case isTrue => rfl
    case isFalse =>
      split
      case isTrue => rfl
      case isFalse =>
        cases getDeriveKey env paramSet (HksKeyBlobInfo.decode (paramSet.blob p))
        case error => rfl
        case ok => simp only [if_true, encryptedParamSet, hget, bind, Except.bind, pure, Except.pure]

theorem hksBuildKeyBlob2_eq (keyOutSize : UInt32) :
    hksBuildKeyBlob2 env paramSet keyOutSize =
      sealRequest env paramSet >>= sealedKeyBlob env paramSet keyOutSize := by
  simp only [hksBuildKeyBlob2, sealRequest, encryptKeyBlob_eq, bind_assoc]
  rfl

end Request

-- What the derived key and the nonce of a seal come from.
structure SealSlot where
  alg         : UInt32
  processName : Bytes
  salt        : FixedBytes hksKeyBlobDeriveSaltSize
  nonce       : FixedBytes hksKeyBlobNonceSize
  deriving DecidableEq

def SealSlot.kdfInput (slot : SealSlot) : UInt32 × Bytes :=
  (slot.alg, slot.processName ++ slot.salt.val)

-- The algorithm of a key version.
def KeyBlobEnv.keyBlobAlg (env : KeyBlobEnv) (keyVersion : UInt32) : UInt32 :=
  if env.hksChangeDeriveKeyAlgToHkdf then
    if keyVersion < 3 then HksKeyAlg.pbkdf2 else HksKeyAlg.hkdf
  else
    HksKeyAlg.hkdf

-- A new key draws its salt and nonce; an upgraded one has those of its header, and the header and
-- the version are those that the caller sends, if it sends any.
def KeyBlobStep.slot (step : KeyBlobStep) : Except HksErrorCode SealSlot :=
  match step.call with
  | .build _ _ paramSet _ => do
    let processName ← paramSet.contents.get HksTag.processName
    return {
      alg         := step.env.keyBlobAlg step.env.hksKeyVersion
      processName := processName.bytes
      salt        := ← step.env.fillSalt
      nonce       := ← step.env.fillNonce }
  | .upgrade _ oldKey paramSet _ =>
    match hksGenerateKeyNode step.env oldKey with
    | none         => .error .badState
    | some keyNode => do
      let processName ← getBlob paramSet HksTag.processName
      let header ← (getBlob paramSet HksTag.key).orElseLazy fun _ =>
        getBlob keyNode.paramSet HksTag.key
      let keyVersion := (getUInt32 paramSet HksTag.keyVersion).toOption.getD step.env.hksKeyVersion
      return {
        alg         := step.env.keyBlobAlg keyVersion
        processName
        salt        := (HksKeyBlobInfo.decode header).salt
        nonce       := (HksKeyBlobInfo.decode header).nonce }

section Derivation

variable {env : KeyBlobEnv} {s : HksParamSet}

theorem sealRequest_ok {r : KeyBlobRequest} (h : sealRequest env s = .ok r) :
    ∃ p salt, hksGetParam s HksTag.key = .ok p ∧
      getSalt s (HksKeyBlobInfo.decode (s.blob p)) = .ok salt ∧
      env.keyBlobKey (getDeriveKeyAlg env s) salt = .ok r.key ∧
      r.usageSpec.iv = (HksKeyBlobInfo.decode (s.blob p)).nonce.val := by
  have ⟨p, hget, h⟩ := Except.bind_eq_ok.mp h
  rw [encryptRequest, hget] at h
  simp only [bind, Except.bind] at h
  split at h
  case isTrue => cases h
  case isFalse =>
    split at h
    case isTrue => cases h
    case isFalse =>
      have ⟨derivedKey, hderive, h⟩ := Except.bind_eq_ok.mp h
      cases h
      have ⟨salt, hsalt, hkey⟩ := (getDeriveKey_ok env).mp hderive
      exact ⟨p, salt, hget, hsalt, hkey, rfl⟩

theorem getSalt_name {info : HksKeyBlobInfo} {salt : Bytes} {value : ParamValue}
    (hvalue : (hksGetParam s HksTag.processName).map s.value = .ok value)
    (h : getSalt s info = .ok salt) : salt = value.bytes ++ info.salt.val := by
  rw [getSalt_value, hvalue] at h
  cases value
  case scalar => cases h
  case blob name =>
    simp only [bind, Except.bind, ParamValue.salt] at h
    split at h <;> cases h
    rfl

theorem getDeriveKeyAlg_version {keyVersion : UInt32}
    (h : getUInt32 s HksTag.keyVersion = .ok keyVersion) :
    getDeriveKeyAlg env s = env.keyBlobAlg keyVersion := by
  rw [getDeriveKeyAlg, h]
  rfl

end Derivation

namespace KeyBlobStep

-- A call encrypts once, and its request says what.
theorem exec_eq (step : KeyBlobStep) : step.exec = (do
    let paramSet ← step.paramSet
    let request ← MonadExcept.ofExcept (sealRequest step.env paramSet)
    MonadExcept.ofExcept (sealedKeyBlob step.env paramSet step.outSize request)) := by
  have hbind {α β : Type} (x : Except HksErrorCode α) (f : α → Except HksErrorCode β) :
      (MonadExcept.ofExcept (x >>= f) : WorldM β) =
        MonadExcept.ofExcept x >>= fun a => MonadExcept.ofExcept (f a) := by
    cases x <;> rfl
  obtain ⟨env, _ | _⟩ := step
  case build keyFlag key paramSet keyOutSize =>
    simp only [exec, KeyBlobStep.paramSet, outSize, hksBuildKeyBlob, hksBuildKeyBlob2_eq, hbind]
  case upgrade engine oldKey paramSet newKeySize =>
    simp only [exec, KeyBlobStep.paramSet, outSize, hksUpgradeKey, upgradedParamSet]
    cases hksGenerateKeyNode env oldKey
    case none => rfl
    case some keyNode =>
      simp only [hksBuildKeyBlobWithOutAddKeyParam, hksBuildKeyBlob2_eq, hbind, bind_assoc]

end KeyBlobStep

-- The derived key and the nonce of a request come from a slot.
structure SealSlot.Gives (env : KeyBlobEnv) (slot : SealSlot) (r : KeyBlobRequest) : Prop where
  key : env.keyBlobKey slot.alg (slot.processName ++ slot.salt.val) = .ok r.key
  iv  : r.usageSpec.iv = slot.nonce.val

theorem Contents.get_append {c d : Contents} {tag : UInt32} (h : ∀ x ∈ d, x.1 ≠ tag) :
    Contents.get (c ++ d) tag = Contents.get c tag := by
  have hnone : d.find? (·.1 = tag) = none := by
    rw [List.find?_eq_none]
    intro x hx
    simpa using h x hx
  rw [Contents.get, Contents.get, List.find?_append, hnone, Option.or_none]

section Build

variable {env : KeyBlobEnv} {keyFlag : UInt8} {key : Bytes} {paramSet s : HksParamSet}
  {keyOutSize : UInt32} {r : KeyBlobRequest}

theorem slot_build (h : buildKeyBlobWithKeyParam env key keyFlag paramSet = .ok s)
    (hr : sealRequest env s = .ok r) : ∃ slot,
      KeyBlobStep.slot ⟨env, .build keyFlag key paramSet keyOutSize⟩ = .ok slot ∧ slot.Gives env r := by
  obtain ⟨fits, unique, info, drawn, keySize, c⟩ := buildKeyBlobWithKeyParam_ok env h
  obtain ⟨p, salt, hget, hsalt, hkey, hiv⟩ := sealRequest_ok hr
  have hlt := length_lt_of_mallocOk fits
  have hlen := length_keyInfo info key
  have hword : (HksParam.ofBytes HksTag.key (info.encode ++ key)).blobSize.toNat =
      hksKeyBlobInfoSize + key.length := by
    rw [HksParam.blobSize_ofBytes (by omega), hlen]
  obtain ⟨q, _, hq, _, _, _, hblob⟩ := getParam_key c hword (fun _ h => nomatch h) unique
  cases hget.symm.trans hq
  rw [hblob, HksKeyBlobInfo.decode_encode_append] at hsalt hiv
  have hversion : getUInt32 s HksTag.keyVersion = .ok env.hksKeyVersion := by
    have hfresh := buildKeyBlobWithKeyParam_fresh env h (List.mem_cons_self ..)
    have ht : getTagType HksTag.keyVersion ≠ .bytes := by decide
    have hfind : (paramSet.entries ++ versionParams env keyFlag ++
        [HksParam.ofBytes HksTag.key (info.encode ++ key)]).find? (·.tag = HksTag.keyVersion) =
          some (.ofUInt32 HksTag.keyVersion env.hksKeyVersion) := by
      rw [List.append_assoc, List.find?_append, find?_tag_none hfresh]
      rfl
    rw [c.uint32 ht hfind]
    simp [HksParam.uint32Param, HksParam.ofUInt32]
  have hname : (hksGetParam s HksTag.processName).map s.value =
      paramSet.contents.get HksTag.processName := by
    have hne : HksTag.key ≠ HksTag.processName := by decide
    have hversions : ∀ x ∈ contentsOf (versionParams env keyFlag), x.1 ≠ HksTag.processName := by
      intro x hx htag
      obtain ⟨q, hq, hqx⟩ := List.mem_map.mp hx
      have hmem := List.mem_map_of_mem hq (f := HksParam.tag)
      rw [versionParams_tags] at hmem
      subst hqx
      rw [show q.tag = HksTag.processName from htag] at hmem
      revert hmem
      decide
    rw [c.getParam_other hne, List.append_nil, contentsOf_append, Contents.get_append hversions,
      contentsOf_entries]
  cases hvalue : paramSet.contents.get HksTag.processName
  case error =>
    rw [hvalue] at hname
    rw [getSalt_value, hname] at hsalt
    cases hsalt
  case ok value =>
    refine ⟨⟨env.keyBlobAlg env.hksKeyVersion, value.bytes, info.salt, info.nonce⟩, ?_, ?_, hiv⟩
    · simp [KeyBlobStep.slot, hvalue, drawn.salt, drawn.nonce, bind, Except.bind, pure, Except.pure]
    · rw [getSalt_name (hname.trans hvalue) hsalt, getDeriveKeyAlg_version hversion] at hkey
      exact hkey

end Build

section Upgrade

variable {env : KeyBlobEnv} {engine : EngineEnv} {oldKey : ParamBlock} {paramSet s : HksParamSet}
  {newKeySize : UInt32} {r : KeyBlobRequest}

-- The sets that an upgrade goes through; none of them depends on the world.
structure UpgradePath (env : KeyBlobEnv) (oldKey : ParamBlock) (paramSet s : HksParamSet)
    (oldNode : HksKeyNode) (old t : HksParamSet) : Prop where
  opened      : hksGenerateKeyNode env oldKey = some oldNode
  copied      : hksGetParamSet oldNode.paramSet oldNode.paramSet.paramSetSize = .ok old
  constructed : constructNewKeyParamSet env old paramSet = .ok t
  copiedNew   : hksGetParamSet t t.paramSetSize = .ok s

theorem upgradedParamSet_ok {w w' : World}
    (h : (upgradedParamSet env engine oldKey paramSet).run w = .ok s w') :
    ∃ oldNode old t, UpgradePath env oldKey paramSet s oldNode old t ∧
      ∃ name, getBlob paramSet HksTag.processName = .ok name := by
  unfold upgradedParamSet at h
  split at h
  case h_1 => cases h
  case h_2 oldNode hopen =>
    have ⟨old, _, hcopy, h⟩ := run_bind_eq_ok.mp h
    have ⟨_, _, hneed, h⟩ := run_bind_eq_ok.mp h
    have ⟨_, _, hauth, _⟩ := run_bind_eq_ok.mp hneed
    have ⟨name, _, hname⟩ := authUpgradeKey_ok hauth
    have ⟨h, _⟩ := run_ofExcept_eq_ok.mp h
    have ⟨t, hconstruct, hcopyNew⟩ := Except.bind_eq_ok.mp h
    exact ⟨oldNode, old, t, ⟨hopen, (run_ofExcept_eq_ok.mp hcopy).1, hconstruct, hcopyNew⟩, name, hname⟩

theorem UpgradePath.unique {s' : HksParamSet} {oldNode oldNode' : HksKeyNode}
    {old old' t t' : HksParamSet} (h : UpgradePath env oldKey paramSet s oldNode old t)
    (h' : UpgradePath env oldKey paramSet s' oldNode' old' t') : s = s' := by
  cases h.opened.symm.trans h'.opened
  cases h.copied.symm.trans h'.copied
  cases h.constructed.symm.trans h'.constructed
  exact Except.ok.inj (h.copiedNew.symm.trans h'.copiedNew)

theorem NewKeyParamSet.value_keyParam {old t : HksParamSet} (n : NewKeyParamSet env old paramSet t)
    (c : Carries (n.front ++ n.mandatory.entry n.key :: n.versions) s) :
    (hksGetParam s HksTag.key).map s.value = .ok (n.mandatory.value n.key) := by
  have ⟨htag, _⟩ := getParam_value n.getKey
  rw [c.getParam]
  refine Contents.get_of_find ?_ (hksGetParam_nonempty n.getKey)
  rw [find?_contentsOf, List.find?_append, find?_tag_none n.key_notMem]
  simp [htag, content_entry]

theorem slot_upgrade {w w' : World} (h : (upgradedParamSet env engine oldKey paramSet).run w = .ok s w')
    (hr : sealRequest env s = .ok r) : ∃ slot,
      KeyBlobStep.slot ⟨env, .upgrade engine oldKey paramSet newKeySize⟩ = .ok slot ∧
        slot.Gives env r := by
  obtain ⟨oldNode, old, t, path, name, hname⟩ := upgradedParamSet_ok h
  obtain ⟨n⟩ := constructNewKeyParamSet_ok path.constructed
  have c : Carries (n.front ++ n.mandatory.entry n.key :: n.versions) s :=
    n.carries.hksGetParamSet path.copiedNew
  obtain ⟨hkeyTag, _⟩ := getParam_value n.getKey
  have hk : (n.mandatory.entry n.key).tag = HksTag.key := by rw [tag_entry, hkeyTag]
  have hcheck : hksCheckParamSet paramSet paramSet.paramSetSize = .ok () := by
    cases hget : hksGetParam paramSet HksTag.processName
    case error => simp [getBlob, hget, Except.map] at hname
    case ok p => exact hksGetParam_check hget
  obtain ⟨p, salt, hget, hsalt, hkey, hiv⟩ := sealRequest_ok hr
  have hblob : s.blob p = n.mandatory.blob n.key := by
    have hvalue := n.value_keyParam c
    rw [hget, Except.map, value_key hget, value_key n.getKey] at hvalue
    exact ParamValue.blob.inj (Except.ok.inj hvalue)
  have hprocess : (n.mandatory.value n.processName).bytes = name := by
    rw [getBlob_value _ (by decide), n.processName_of hcheck] at hname
    exact Except.ok.inj hname
  have hversion : getUInt32 s HksTag.keyVersion =
      .ok ((getUInt32 paramSet HksTag.keyVersion).toOption.getD env.hksKeyVersion) := by
    rw [getUInt32_value _ (by decide), n.value_keyVersion c hk, ← n.keyVersion_of hcheck]
    rfl
  have hheader : ((getBlob paramSet HksTag.key).orElseLazy fun _ =>
      getBlob oldNode.paramSet HksTag.key) = .ok (s.blob p) := by
    rw [hblob]
    cases n.key_of hcheck
    case inl hq =>
      obtain ⟨q, hq, hsame⟩ := hq
      rw [hsame, getBlob, hq]
      rfl
    case inr hq =>
      obtain ⟨hnone, hsame⟩ := hq
      have ht : getTagType HksTag.key = .bytes := by decide
      have hold : getBlob oldNode.paramSet HksTag.key = .ok (old.blob n.oldKey) := by
        rw [← getBlob_copy (hksGenerateKeyNode_inOrder path.opened) path.copied ht, getBlob, n.hasKey]
        rfl
      rw [hsame, hold]
      cases hq : hksGetParam paramSet HksTag.key
      case error => simp [getBlob, hq, Except.map, Except.orElseLazy]
      case ok q => exact absurd hq (hnone q)
  let version := (getUInt32 paramSet HksTag.keyVersion).toOption.getD env.hksKeyVersion
  let header := HksKeyBlobInfo.decode (s.blob p)
  refine ⟨⟨env.keyBlobAlg version, name, header.salt, header.nonce⟩, ?_, ?_, hiv⟩
  · simp only [KeyBlobStep.slot, path.opened, hname, hheader, bind, Except.bind]
    rfl
  · rw [getSalt_name (n.value_processName c hk) hsalt, hprocess, getDeriveKeyAlg_version hversion] at hkey
    exact hkey

end Upgrade

-- One main key and one KDF for all calls.
structure Kdf where
  mainKey   : FixedBytes hksKeyBlobMainKeySize
  deriveKey : FixedBytes hksKeyBlobMainKeySize → UInt32 → HksKeyDerivationParam →
    Except HksErrorCode (FixedBytes 32)

def Kdf.apply (kdf : Kdf) (input : UInt32 × Bytes) : Except HksErrorCode (FixedBytes 32) :=
  kdf.deriveKey kdf.mainKey input.1
    { salt := input.2, iterations := hksKeyBlobDeriveCnt, digestAlg := HksKeyDigest.sha256 }

def Kdf.InjectiveOn (kdf : Kdf) (inputs : Set (UInt32 × Bytes)) : Prop :=
  ∀ x ∈ inputs, ∀ y ∈ inputs, ∀ key, kdf.apply x = .ok key → kdf.apply y = .ok key → x = y

structure KeyBlobEnv.Uses (env : KeyBlobEnv) (kdf : Kdf) : Prop where
  mainKey   : ∀ key, env.getMainKey = .ok key → key = kdf.mainKey
  deriveKey : env.deriveKey = kdf.deriveKey

theorem KeyBlobEnv.Uses.apply {env : KeyBlobEnv} {kdf : Kdf} (uses : env.Uses kdf) {alg : UInt32}
    {salt : Bytes} {key : FixedBytes 32} (h : env.keyBlobKey alg salt = .ok key) :
    kdf.apply (alg, salt) = .ok key := by
  have ⟨mainKey, hmain, h⟩ := Except.bind_eq_ok.mp h
  rw [uses.mainKey mainKey hmain, uses.deriveKey] at h
  exact h

namespace KeyBlobStep

-- What the calls derive keys from.
def derivations (steps : List KeyBlobStep) : Set (UInt32 × Bytes) :=
  {input | ∃ step ∈ steps, ∃ slot, step.slot = .ok slot ∧ slot.kdfInput = input}

-- Two new keys draw different salts and nonces.
def DrawsApart (a b : KeyBlobStep) : Prop :=
  match a.call, b.call with
  | .build .., .build .. =>
    (∀ salt, a.env.fillSalt = .ok salt → b.env.fillSalt ≠ .ok salt) ∧
      ∀ nonce, a.env.fillNonce = .ok nonce → b.env.fillNonce ≠ .ok nonce
  | _, _ => True

-- An upgrade does not take the slot of another call, unless it is that same upgrade once more.
def SlotsApart (a b : KeyBlobStep) : Prop :=
  match a.call, b.call with
  | .build .., .build .. => True
  | _, _                 => ∀ slot, a.slot = .ok slot → b.slot = .ok slot → a = b

-- The call encrypts that, in some world.
def Requests (step : KeyBlobStep) (r : KeyBlobRequest) : Prop :=
  ∃ w paramSet w', step.paramSet.run w = .ok paramSet w' ∧ sealRequest step.env paramSet = .ok r

variable {step : KeyBlobStep} {r r' : KeyBlobRequest}

theorem Requests.slot (h : step.Requests r) : ∃ slot, step.slot = .ok slot ∧ slot.Gives step.env r := by
  have ⟨w, paramSet, w', hset, hr⟩ := h
  obtain ⟨env, _ | _⟩ := step
  case build => exact slot_build (run_ofExcept_eq_ok.mp hset).1 hr
  case upgrade => exact slot_upgrade hset hr

theorem Requests.unique (h : step.Requests r) (h' : step.Requests r') : r = r' := by
  have ⟨_, paramSet, _, hset, hr⟩ := h
  have ⟨_, paramSet', _, hset', hr'⟩ := h'
  suffices heq : paramSet = paramSet' by
    subst heq
    exact Except.ok.inj (hr.symm.trans hr')
  obtain ⟨env, _ | _⟩ := step
  case build =>
    exact Except.ok.inj ((run_ofExcept_eq_ok.mp hset).1.symm.trans (run_ofExcept_eq_ok.mp hset').1)
  case upgrade =>
    have ⟨_, _, _, path, _⟩ := upgradedParamSet_ok hset
    have ⟨_, _, _, path', _⟩ := upgradedParamSet_ok hset'
    exact path.unique path'

end KeyBlobStep

theorem salt_of_slot {env : KeyBlobEnv} {keyFlag : UInt8} {key : Bytes} {paramSet : HksParamSet}
    {keyOutSize : UInt32} {slot : SealSlot}
    (h : KeyBlobStep.slot ⟨env, .build keyFlag key paramSet keyOutSize⟩ = .ok slot) :
    env.fillSalt = .ok slot.salt := by
  have ⟨_, _, h⟩ := Except.bind_eq_ok.mp h
  have ⟨salt, hsalt, h⟩ := Except.bind_eq_ok.mp h
  have ⟨nonce, _, h⟩ := Except.bind_eq_ok.mp h
  cases h
  exact hsalt

-- A derived key and a nonce are used again for the same input only.
def NoNonceReuse (seals : List KeyBlobRequest) : Prop :=
  ∀ r ∈ seals, ∀ r' ∈ seals, r.key = r'.key → r.usageSpec.iv = r'.usageSpec.iv →
    r.message = r'.message ∧ r.usageSpec.aad = r'.usageSpec.aad

-- Every seal of a run was requested by one of its calls.
theorem mem_after {steps : List KeyBlobStep} {s : KeyBlobState} {r : KeyBlobRequest}
    (h : r ∈ (s.after steps).seals) : r ∈ s.seals ∨ ∃ step ∈ steps, step.Requests r := by
  induction steps generalizing s
  case nil => exact .inl h
  case cons step steps ih =>
    cases ih h
    case inr hstep =>
      have ⟨step', hmem, hr⟩ := hstep
      exact .inr ⟨step', List.mem_cons_of_mem _ hmem, hr⟩
    case inl hnext =>
      cases List.mem_append.mp hnext
      case inl hs => exact .inl hs
      case inr hr =>
        refine .inr ⟨step, List.mem_cons_self .., ?_⟩
        split at hr
        case h_2 => cases hr
        case h_1 paramSet w hset =>
          cases hseal : sealRequest step.env paramSet
          case error => simp [hseal, Except.toOption] at hr
          case ok r' =>
            obtain rfl : r = r' := by simpa [hseal, Except.toOption] using hr
            exact ⟨_, paramSet, w, hset, hseal⟩

-- Two calls with one derived key and nonce have one slot.
theorem slot_eq_of_reuse {kdf : Kdf} {steps : List KeyBlobStep} {a b : KeyBlobStep} (ha : a ∈ steps)
    (hb : b ∈ steps) (usesA : a.env.Uses kdf) (usesB : b.env.Uses kdf)
    (injective : kdf.InjectiveOn (KeyBlobStep.derivations steps)) {r r' : KeyBlobRequest}
    (hr : a.Requests r) (hr' : b.Requests r') (hkey : r.key = r'.key)
    (hiv : r.usageSpec.iv = r'.usageSpec.iv) : ∃ slot, a.slot = .ok slot ∧ b.slot = .ok slot := by
  have ⟨slot, hslot, gives⟩ := hr.slot
  have ⟨slot', hslot', gives'⟩ := hr'.slot
  have hderived := usesA.apply gives.key
  have hderived' := usesB.apply gives'.key
  rw [← hkey] at hderived'
  have hinput := injective _ ⟨a, ha, slot, hslot, rfl⟩ _ ⟨b, hb, slot', hslot', rfl⟩ _ hderived hderived'
  have ⟨halg, hsalts⟩ := Prod.mk.inj hinput
  have ⟨hname, hsalt⟩ := List.append_inj' hsalts (by rw [slot.salt.property, slot'.salt.property])
  have hnonce : slot.nonce = slot'.nonce := Subtype.ext (gives.iv.symm.trans (hiv.trans gives'.iv))
  refine ⟨slot, hslot, ?_⟩
  obtain ⟨_, _, _, _⟩ := slot
  obtain ⟨_, _, _, _⟩ := slot'
  cases halg
  cases hname
  cases Subtype.ext hsalt
  cases hnonce
  exact hslot'

-- What two calls seal with one derived key and nonce is the same.
def KeyBlobStep.SharesInput (a b : KeyBlobStep) : Prop :=
  ∀ r r', a.Requests r → b.Requests r' → r.key = r'.key → r.usageSpec.iv = r'.usageSpec.iv →
    r.message = r'.message ∧ r.usageSpec.aad = r'.usageSpec.aad

instance : Std.Symm KeyBlobStep.SharesInput where
  symm a b h r r' hr hr' hkey hiv := by
    have ⟨hmessage, haad⟩ := h r' r hr' hr hkey.symm hiv.symm
    exact ⟨hmessage.symm, haad.symm⟩

theorem reuse_same {a b : KeyBlobStep} (draws : a.DrawsApart b) (apart : a.SlotsApart b)
    {r r' : KeyBlobRequest} (hr : a.Requests r) (hr' : b.Requests r')
    (hslots : ∃ slot, a.slot = .ok slot ∧ b.slot = .ok slot) :
    r.message = r'.message ∧ r.usageSpec.aad = r'.usageSpec.aad := by
  have ⟨slot, hslot, hslot'⟩ := hslots
  have of_eq (h : a = b) : r.message = r'.message ∧ r.usageSpec.aad = r'.usageSpec.aad := by
    subst h
    cases hr.unique hr'
    exact ⟨rfl, rfl⟩
  obtain ⟨env, _ | _⟩ := a
  case upgrade => exact of_eq (apart slot hslot hslot')
  case build =>
    obtain ⟨env', _ | _⟩ := b
    case upgrade => exact of_eq (apart slot hslot hslot')
    case build => exact absurd (salt_of_slot hslot') (draws.1 _ (salt_of_slot hslot))

-- No nonce is used twice under one derived key for different inputs, in any run in which no upgrade
-- takes the slot of another call. An upgrade draws no salt and no nonce of its own.
theorem keyBlob_noNonceReuse {kdf : Kdf} {steps : List KeyBlobStep} (w : World)
    (uses : ∀ step ∈ steps, step.env.Uses kdf)
    (injective : kdf.InjectiveOn (KeyBlobStep.derivations steps))
    (draws : steps.Pairwise KeyBlobStep.DrawsApart) (apart : steps.Pairwise KeyBlobStep.SlotsApart) :
    NoNonceReuse ((KeyBlobState.mk w []).after steps).seals := by
  have pairs : steps.Pairwise KeyBlobStep.SharesInput := by
    refine (draws.and apart).imp_of_mem fun ha hb h r r' hr hr' hkey hiv => ?_
    exact reuse_same h.1 h.2 hr hr'
      (slot_eq_of_reuse ha hb (uses _ ha) (uses _ hb) injective hr hr' hkey hiv)
  have self : ∀ step ∈ steps, step.SharesInput step := by
    intro step _ r r' hr hr' _ _
    cases hr.unique hr'
    exact ⟨rfl, rfl⟩
  have all := pairs.forall_of_forall self
  intro r hr r' hr'
  cases mem_after hr
  case inl h => cases h
  case inr h =>
    cases mem_after hr'
    case inl h => cases h
    case inr h' =>
      have ⟨a, ha, hr⟩ := h
      have ⟨b, hb, hr'⟩ := h'
      exact all ha hb r r' hr hr'

section Steady

def xorKdf : Kdf := ⟨.zero _, (xorKeyBlobEnv 3).deriveKey⟩

theorem xorKeyBlobEnv_uses (hksKeyVersion : UInt32) : (xorKeyBlobEnv hksKeyVersion).Uses xorKdf where
  mainKey key h := by
    cases h
    rfl
  deriveKey := rfl

def xorSlot (alg : UInt32) : SealSlot := ⟨alg, [97], fixedInfo.salt, fixedInfo.nonce⟩

-- The derived keys of the two algorithms are different.
theorem xorKdf_injectiveOn {steps : List KeyBlobStep}
    (h : ∀ step ∈ steps, ∀ slot, step.slot = .ok slot →
      slot = xorSlot HksKeyAlg.pbkdf2 ∨ slot = xorSlot HksKeyAlg.hkdf) :
    xorKdf.InjectiveOn (KeyBlobStep.derivations steps) := by
  have hne : xorKdf.apply (xorSlot HksKeyAlg.pbkdf2).kdfInput ≠
      xorKdf.apply (xorSlot HksKeyAlg.hkdf).kdfInput := by decide
  rintro _ ⟨a, ha, slot, hslot, rfl⟩ _ ⟨b, hb, slot', hslot', rfl⟩ key hkey hkey'
  rcases h a ha slot hslot with rfl | rfl <;> rcases h b hb slot' hslot' with rfl | rfl
  · rfl
  · exact absurd (hkey.trans hkey'.symm) hne
  · exact absurd (hkey'.trans hkey.symm) hne
  · rfl

def xorBuild : KeyBlobStep := ⟨xorKeyBlobEnv 2, .build 2 [7] oldParamSet 2048⟩

def xorUpgrade (params : List HksParam) : KeyBlobStep :=
  ⟨xorKeyBlobEnv 3, .upgrade (steadyEnv oldParamSet) oldKeyBlock (servicedParamSet params) maxKeySize⟩

theorem slot_xorBuild : xorBuild.slot = .ok (xorSlot HksKeyAlg.pbkdf2) := by decide

theorem slot_xorUpgrade : ∀ params ∈ [[], [.ofUInt32 HksTag.osVersion 7]],
    (xorUpgrade params).slot = .ok (xorSlot HksKeyAlg.hkdf) := by
  decide +kernel

-- A key of version 2 is made and upgraded.
theorem keyBlob_noNonceReuse_xor :
    ((KeyBlobState.mk {} []).after [xorBuild, xorUpgrade []]).seals.length = 2 ∧
    NoNonceReuse ((KeyBlobState.mk {} []).after [xorBuild, xorUpgrade []]).seals := by
  refine ⟨by decide +kernel, keyBlob_noNonceReuse {} ?_ (xorKdf_injectiveOn ?_) ?_ ?_⟩
  · simp only [List.mem_cons, List.not_mem_nil, or_false, forall_eq_or_imp, forall_eq]
    exact ⟨xorKeyBlobEnv_uses 2, xorKeyBlobEnv_uses 3⟩
  · simp only [List.mem_cons, List.not_mem_nil, or_false, forall_eq_or_imp, forall_eq, slot_xorBuild,
      slot_xorUpgrade [] (.head _)]
    exact ⟨fun _ h => .inl (Except.ok.inj h).symm, fun _ h => .inr (Except.ok.inj h).symm⟩
  · refine .cons (fun b hb => ?_) (.cons (fun _ h => nomatch h) .nil)
    cases List.mem_singleton.mp hb
    trivial
  · refine .cons (fun b hb => ?_) (.cons (fun _ h => nomatch h) .nil)
    cases List.mem_singleton.mp hb
    intro slot hslot hslot'
    rw [slot_xorBuild] at hslot
    rw [slot_xorUpgrade [] (.head _), ← hslot] at hslot'
    cases hslot'

-- The same blob is upgraded twice; the second time the caller sends another OS version along.
def repeatedUpgrade : List KeyBlobStep :=
  [xorUpgrade [], xorUpgrade [.ofUInt32 HksTag.osVersion 7]]

theorem repeatedUpgrade_reusesNonce : (∀ step ∈ repeatedUpgrade, step.env.Uses xorKdf) ∧
    xorKdf.InjectiveOn (KeyBlobStep.derivations repeatedUpgrade) ∧
    repeatedUpgrade.Pairwise KeyBlobStep.DrawsApart ∧
    ¬NoNonceReuse ((KeyBlobState.mk {} []).after repeatedUpgrade).seals := by
  refine ⟨?_, xorKdf_injectiveOn ?_, ?_, ?_⟩
  · simp only [repeatedUpgrade, List.mem_cons, List.not_mem_nil, or_false, forall_eq_or_imp, forall_eq]
    exact ⟨xorKeyBlobEnv_uses 3, xorKeyBlobEnv_uses 3⟩
  · simp only [repeatedUpgrade, List.mem_cons, List.not_mem_nil, or_false, forall_eq_or_imp, forall_eq,
      slot_xorUpgrade [] (.head _), slot_xorUpgrade _ (.tail _ (.head _))]
    exact ⟨fun _ h => .inr (Except.ok.inj h).symm, fun _ h => .inr (Except.ok.inj h).symm⟩
  · refine .cons (fun b hb => ?_) (.cons (fun _ h => nomatch h) .nil)
    cases List.mem_singleton.mp hb
    trivial
  · unfold NoNonceReuse
    decide +kernel

end Steady

end Huks
