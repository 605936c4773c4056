import Huks.Common.Theorems.ParamCopy
import Huks.Engine.Theorems.Identity
import Huks.Engine.Theorems.KeyBlobRoundTrip
import Huks.Engine.UpgradeKey

namespace Huks

open HksParamSet

namespace HksParamSet

variable (s : HksParamSet) (p : HksParam)

@[simp]
theorem tag_entry : (s.entry p).tag = p.tag := by
  unfold entry
  split <;> rfl

@[simp]
theorem word_entry : (s.entry p).word = p.word := by
  unfold entry
  split <;> rfl

@[simp]
theorem isBytes_entry : (s.entry p).isBytes = p.isBytes := by
  rw [HksParam.isBytes, tag_entry, HksParam.isBytes]

-- An entry reads the same everywhere.
theorem value_entry (base : Nat) (area : Bytes) : (s.entry p).value base area = s.value p := by
  unfold entry
  split
  case isTrue h => exact HksParam.value_setData s.base s.area h.1 h.2 base area
  case isFalse h => exact HksParam.value_outside h s.base s.area base area

theorem content_entry : (s.entry p).content 0 [] = (p.tag, s.value p) := by
  rw [HksParam.content, tag_entry, value_entry]

variable {s p}

theorem entry_external (h : (s.entry p).isBytes → (s.entry p).data ≠ .null) :
    (s.entry p).External := by
  intro hb
  have hnull := h hb
  unfold entry at hnull ⊢
  split at hnull
  case isTrue hp =>
    rw [if_pos hp]
    exact ⟨_, rfl⟩
  case isFalse hp =>
    rw [isBytes_entry] at hb
    exact absurd ⟨hb, hnull⟩ hp

theorem checkBlob_entry (h : (s.entry p).checkBlob) : p.checkBlob := by
  have ⟨hdata, hsize⟩ : (s.entry p).data ≠ .null ∧ (s.entry p).blobSize ≠ 0 := by
    simpa [HksParam.checkBlob] using h
  have hnull : p.data ≠ .null := by
    intro hnull
    rw [entry, if_neg (by simp [hnull])] at hdata
    exact hdata hnull
  rw [HksParam.blobSize, word_entry] at hsize
  simpa [HksParam.checkBlob] using ⟨hnull, hsize⟩

end HksParamSet

-- A set in the making whose blobs all lie outside it.
structure Gathered (ps : List HksParam) (s : HksParamSet) : Prop where
  accumulated : Accumulated ps s
  external    : ∀ p ∈ ps, p.External

namespace Gathered

variable {ps : List HksParam} {s t : HksParamSet}

theorem init : Gathered [] hksInitParamSet := ⟨.init, fun _ h => nomatch h⟩

theorem add (g : Gathered ps s) {qs : List HksParam}
    (hqs : ∀ q ∈ qs, (q.isBytes → q.data ≠ .null) → q.External) (h : hksAddParams s qs = .ok t) :
    Gathered (ps ++ qs) t where
  accumulated := g.accumulated.add h
  external p hp := by
    cases List.mem_append.mp hp
    case inl hp => exact g.external p hp
    case inr hp => exact hqs p hp (hksAddParams_data h p hp)

theorem add_entry (g : Gathered ps s) {src : HksParamSet} {p : HksParam}
    (h : hksAddParams s [src.entry p] = .ok t) : Gathered (ps ++ [src.entry p]) t := by
  refine g.add (fun q hq hdata => ?_) h
  rw [List.mem_singleton.mp hq] at hdata ⊢
  exact entry_external hdata

theorem add_scalar (g : Gathered ps s) {p : HksParam} (hp : p.isBytes = false)
    (h : hksAddParams s [p] = .ok t) : Gathered (ps ++ [p]) t := by
  refine g.add (fun q hq _ hb => ?_) h
  rw [List.mem_singleton.mp hq, hp] at hb
  cases hb

theorem carries (g : Gathered ps s) (h : hksBuildParamSet s = .ok t) : Carries ps t :=
  g.accumulated.carries g.external h

end Gathered

-- The params of a set that keep their place in an upgraded one.
def HksParamSet.algParams (s : HksParamSet) : List HksParam :=
  (s.params.filter (isTagInAlgTagsList ·.tag)).map s.entry

theorem addAlgParamsTags_ok {ps : List HksParam} {s t src : HksParamSet} (g : Gathered ps s)
    (h : addAlgParamsTags src s = .ok t) : Gathered (ps ++ src.algParams) t := by
  unfold addAlgParamsTags at h
  unfold HksParamSet.algParams
  generalize src.params = params at h ⊢
  induction params generalizing ps s
  case nil =>
    cases h
    simpa using g
  case cons p params ih =>
    have ⟨u, hp, h⟩ := Except.foldlM_cons_eq_ok.mp h
    split at hp
    case isTrue htag =>
      have gu := ih (g.add_entry hp) h
      simpa [htag] using gu
    case isFalse htag =>
      cases hp
      simpa [htag] using ih g h

theorem addMandatoryParams_ok {ps : List HksParam} {s t src : HksParamSet} (g : Gathered ps s)
    (h : addMandatoryParams src s = .ok t) :
    ∃ found, List.Forall₂ (fun tag p => hksGetParam src tag = .ok p) hksKeyFileTags found ∧
      Gathered (ps ++ found.map src.entry) t := by
  unfold addMandatoryParams at h
  generalize hksKeyFileTags = tags at h ⊢
  induction tags generalizing ps s
  case nil =>
    cases h
    exact ⟨[], .nil, by simpa using g⟩
  case cons tag tags ih =>
    have ⟨u, hp, h⟩ := Except.foldlM_cons_eq_ok.mp h
    have ⟨p, hget, hadd⟩ := Except.bind_eq_ok.mp hp
    have ⟨found, hfound, gu⟩ := ih (g.add_entry hadd) h
    exact ⟨p :: found, .cons hget hfound, by simpa using gu⟩

section Mandatory

variable {env : KeyBlobEnv} {old paramSet mandatory t : HksParamSet}

-- The params that follow those of the caller.
def upgradeParams (env : KeyBlobEnv) (old : HksParamSet) (keyParam : HksParam) : List HksParam := [
  .ofUInt32 HksTag.keyVersion env.hksKeyVersion,
  .ofUInt32 HksTag.osVersion hksKeyBlobDummyOsVersion,
  .ofUInt32 HksTag.osPatchlevel hksKeyBlobDummyOsPatchlevel,
  old.entry keyParam
]

theorem addMandatoryParamsInCore_ok (h : addMandatoryParamsInCore env old paramSet = .ok mandatory) :
    ∃ keyParam, hksGetParam old HksTag.key = .ok keyParam ∧
      Gathered (paramSet.entries ++ upgradeParams env old keyParam) mandatory := by
  have ⟨s, hentries, h⟩ := Except.bind_eq_ok.mp h
  have ⟨s₁, hversion, h⟩ := Except.foldlM_cons_eq_ok.mp h
  have ⟨s₂, hos, h⟩ := Except.foldlM_cons_eq_ok.mp h
  have ⟨s₃, hpatch, h⟩ := Except.foldlM_cons_eq_ok.mp h
  have ⟨s₄, hkey, h⟩ := Except.foldlM_cons_eq_ok.mp h
  have ⟨keyParam, hget, hkey⟩ := Except.bind_eq_ok.mp hkey
  cases h
  have hnot {tag : UInt32} (ht : getTagType tag ≠ .bytes) (value : UInt32) :
      (HksParam.ofUInt32 tag value).isBytes = false := by
    simp [HksParam.isBytes, HksParam.ofUInt32, ht]
  have g := Gathered.init.add (fun q hq _ => entries_external hentries q hq) hentries
  have g := g.add_scalar (hnot (by decide) _) hversion
  have g := g.add_scalar (hnot (by decide) _) hos
  have g := g.add_scalar (hnot (by decide) _) hpatch
  exact ⟨keyParam, hget, by simpa [upgradeParams] using g.add_entry hkey⟩

-- The first param with a tag wins, and the params of the caller come first.
theorem hksGetParam_mandatory {qs : List HksParam} (g : Gathered (paramSet.entries ++ qs) mandatory)
    (hcheck : hksCheckParamSet paramSet paramSet.paramSetSize = .ok ()) {tag : UInt32} {p : HksParam}
    (h : hksGetParam mandatory tag = .ok p) :
    (∃ q, hksGetParam paramSet tag = .ok q ∧ p = paramSet.entry q) ∨
      (∀ q, hksGetParam paramSet tag ≠ .ok q) ∧ qs.find? (·.tag = tag) = some p := by
  have hfind := hksGetParam_find h
  have hentries : paramSet.entries.find? (·.tag = tag) =
      (paramSet.params.find? (·.tag = tag)).map paramSet.entry := by
    change (paramSet.params.map paramSet.entry).find? _ = _
    rw [List.find?_map]
    congr 2
    funext q
    simp
  rw [g.accumulated.params, List.find?_append, hentries] at hfind
  cases hq : paramSet.params.find? (·.tag = tag)
  case none =>
    rw [hq] at hfind
    refine .inr ⟨fun q hget => ?_, hfind⟩
    cases hq.symm.trans (hksGetParam_find hget)
  case some q =>
    rw [hq] at hfind
    cases hfind
    refine .inl ⟨q, ?_, rfl⟩
    unfold hksGetParam
    rw [hcheck, hq]
    by_cases ht : getTagType tag = .bytes
    case neg => simp [ht]
    case pos => simp [ht, checkBlob_entry (hksGetParam_checkBlob ht h)]

-- How the param set of the new key blob comes about.
structure NewKeyParamSet (env : KeyBlobEnv) (old paramSet t : HksParamSet) where
  mandatory    : HksParamSet
  oldKey       : HksParam
  processName  : HksParam
  key          : HksParam
  keyVersion   : HksParam
  osVersion    : HksParam
  osPatchlevel : HksParam
  hasKey       : hksGetParam old HksTag.key = .ok oldKey
  gathered     : Gathered (paramSet.entries ++ upgradeParams env old oldKey) mandatory
  getName      : hksGetParam mandatory HksTag.processName = .ok processName
  getKey       : hksGetParam mandatory HksTag.key = .ok key
  getVersion   : hksGetParam mandatory HksTag.keyVersion = .ok keyVersion
  getOs        : hksGetParam mandatory HksTag.osVersion = .ok osVersion
  getPatch     : hksGetParam mandatory HksTag.osPatchlevel = .ok osPatchlevel
  carries      : Carries (old.algParams ++ [mandatory.entry processName] ++ mandatory.entry key ::
    [mandatory.entry keyVersion, mandatory.entry osVersion, mandatory.entry osPatchlevel]) t

theorem constructNewKeyParamSet_ok (h : constructNewKeyParamSet env old paramSet = .ok t) :
    Nonempty (NewKeyParamSet env old paramSet t) := by
  have ⟨mandatory, hmandatory, h⟩ := Except.bind_eq_ok.mp h
  have ⟨s, halg, h⟩ := Except.bind_eq_ok.mp h
  have ⟨s', hfile, h⟩ := Except.bind_eq_ok.mp h
  have ⟨t', hbuild, h⟩ := Except.bind_eq_ok.mp h
  have ⟨_, _, h⟩ := Except.bind_eq_ok.mp h
  cases h
  have ⟨oldKey, hasKey, gathered⟩ := addMandatoryParamsInCore_ok hmandatory
  have galg := addAlgParamsTags_ok .init halg
  have ⟨found, hfound, g⟩ := addMandatoryParams_ok galg hfile
  obtain _ | ⟨getName, _ | ⟨getKey, _ | ⟨getVersion, _ | ⟨getOs, _ | ⟨getPatch, _ | _⟩⟩⟩⟩⟩ := hfound
  exact ⟨⟨mandatory, oldKey, _, _, _, _, _, hasKey, gathered, getName, getKey, getVersion, getOs,
    getPatch, by simpa using g.carries hbuild⟩⟩

end Mandatory

-- A key param that can be sealed has the size that its header says.
theorem Carries.keyBlobParam {env : KeyBlobEnv} {ps qs : List HksParam} {word : UInt64}
    {bytes keyOut : Bytes} {s : HksParamSet} {keyOutSize : UInt32}
    (c : Carries (ps ++ ⟨HksTag.key, word, .ext bytes⟩ :: qs) s)
    (hlen : bytes.length = word.toUInt32.toNat) (hz : word.toUInt32 ≠ 0) (scalars : Scalars qs)
    (unique : HksTag.key ∉ ps.map HksParam.tag)
    (h : hksBuildKeyBlob2 env s keyOutSize = .ok keyOut) :
    ∃ (info : HksKeyBlobInfo) (text : Bytes), bytes = info.encode ++ text ∧ KeyBlobWord word text ∧
      info.keySize = text.length.toUInt32 ∧ mallocOk (text.length + hksKeyBlobInfoSize) := by
  have hb : (⟨HksTag.key, word, .ext bytes⟩ : HksParam).isBytes := by
    have ht : getTagType HksTag.key = .bytes := by decide
    simp [HksParam.isBytes, ht]
  have hbytes : (⟨HksTag.key, word, .ext bytes⟩ : HksParam).bytes = bytes := by
    simp only [HksParam.bytes, HksParam.read, HksParam.blobSize, ← hlen, Option.getD_some]
    exact FixedBytes.takeD_length_self bytes
  obtain ⟨offset, hget, _, hblob⟩ := c.getParam_last hb scalars hz unique
  obtain ⟨p, hp, h⟩ := Except.bind_eq_ok.mp h
  obtain ⟨_, hencrypt, _⟩ := Except.bind_eq_ok.mp h
  rw [encryptKeyBlob, encryptAndDecryptKeyBlob, hget] at hencrypt
  simp only [bind, Except.bind, hblob, hbytes, HksParam.blobSize] at hencrypt
  split at hencrypt
  case isTrue => cases hencrypt
  case isFalse hmin =>
    split at hencrypt
    case isTrue => cases hencrypt
    case isFalse hsize =>
      have hsize := not_not.mp hsize
      have hmin := Nat.not_le.mp hmin
      have hdrop : (bytes.drop hksKeyBlobInfoSize).length = bytes.length - hksKeyBlobInfoSize :=
        List.length_drop
      have hmax := c.max
      have htotal := c.blobTotal_last hb scalars
      simp only [HksParam.blobSize] at htotal
      refine ⟨HksKeyBlobInfo.decode bytes, bytes.drop hksKeyBlobInfoSize, ?_, ?_, ?_, ?_⟩
      · rw [HksKeyBlobInfo.encode_decode (by omega), List.take_append_drop]
      · rw [KeyBlobWord]
        omega
      · have hlt := word.toUInt32.toNat_lt
        rw [← UInt32.toNat_inj, ← hsize, hdrop, hlen, Nat.toUInt32, UInt32.toNat_ofNat']
        omega
      · rw [mallocOk_iff]
        simp only [buildSize, maxSize] at hmax
        omega

namespace NewKeyParamSet

variable {env : KeyBlobEnv} {old paramSet t : HksParamSet} (n : NewKeyParamSet env old paramSet t)

-- The params in front of the key, and those behind it.
def front : List HksParam := old.algParams ++ [n.mandatory.entry n.processName]

def versions : List HksParam :=
  [n.mandatory.entry n.keyVersion, n.mandatory.entry n.osVersion, n.mandatory.entry n.osPatchlevel]

theorem versions_tags : n.versions.map HksParam.tag =
    [HksTag.keyVersion, HksTag.osVersion, HksTag.osPatchlevel] := by
  have ⟨hversion, _⟩ := getParam_value n.getVersion
  have ⟨hos, _⟩ := getParam_value n.getOs
  have ⟨hpatch, _⟩ := getParam_value n.getPatch
  simp [versions, hversion, hos, hpatch]

theorem scalars : Scalars n.versions := by
  intro p hp
  have htypes : [HksTag.keyVersion, HksTag.osVersion, HksTag.osPatchlevel].all
      (getTagType · ≠ .bytes) := by decide
  have htag := of_decide_eq_true (List.all_eq_true.mp htypes p.tag
    (n.versions_tags ▸ List.mem_map_of_mem hp))
  simp [HksParam.isBytes, htag]

theorem front_tags {p : HksParam} (hp : p ∈ n.front) :
    isTagInAlgTagsList p.tag ∨ p.tag = HksTag.processName := by
  cases List.mem_append.mp hp
  case inl hp =>
    have ⟨q, hq, hpq⟩ := List.mem_map.mp hp
    have ⟨_, htag⟩ := List.mem_filter.mp hq
    rw [← hpq, tag_entry]
    exact .inl htag
  case inr hp =>
    have ⟨htag, _⟩ := getParam_value n.getName
    rw [List.mem_singleton.mp hp, tag_entry]
    exact .inr htag

theorem not_mem_front {tag : UInt32} (halg : isTagInAlgTagsList tag = false)
    (hname : tag ≠ HksTag.processName) : tag ∉ n.front.map HksParam.tag := by
  intro h
  have ⟨p, hp, htag⟩ := List.mem_map.mp h
  subst htag
  cases n.front_tags hp
  case inl h => simp [halg] at h
  case inr h => exact hname h

theorem key_notMem : HksTag.key ∉ n.front.map HksParam.tag :=
  n.not_mem_front (by decide) (by decide)

-- The key of the new blob, in the clear, and the new blob.
theorem sealed {keyOut : Bytes} {keyOutSize : UInt32}
    (h : hksBuildKeyBlobWithOutAddKeyParam env t keyOutSize = .ok keyOut) :
    ∃ (info : HksKeyBlobInfo) (text : Bytes), n.mandatory.blob n.key = info.encode ++ text ∧
      info.keySize = text.length.toUInt32 ∧ mallocOk (text.length + hksKeyBlobInfoSize) ∧
      ∃ b : SealedKeyBlob env n.front n.versions text,
        keyOut = b.set.image env.addressOf env.padding ∧ b.set.paramSetSize ≤ keyOutSize := by
  obtain ⟨s, hcopy, h⟩ := Except.bind_eq_ok.mp h
  obtain ⟨htag, hdata⟩ := getParam_value n.getKey
  have hb : n.key.isBytes := by
    rw [HksParam.isBytes, htag]
    rfl
  have hcheck := hksGetParam_checkBlob (by decide) n.getKey
  obtain ⟨_, hz⟩ : n.key.data ≠ .null ∧ n.key.blobSize ≠ 0 := by
    simpa [HksParam.checkBlob] using hcheck
  obtain ⟨bytes, hread⟩ := HksParam.read_isSome n.mandatory.base n.mandatory.area (hdata hb)
  have hblob : n.mandatory.blob n.key = bytes := by simp [blob, hread]
  have hlen : bytes.length = n.key.word.toUInt32.toNat := HksParam.length_read hread
  have hentry : n.mandatory.entry n.key = ⟨HksTag.key, n.key.word, .ext bytes⟩ := by
    rw [entry, if_pos ⟨hb, hdata hb⟩, hblob, HksParam.setData, htag]
  have c := n.carries.hksGetParamSet hcopy
  rw [hentry] at c
  obtain ⟨info, text, hbytes, hword, keySize, fits⟩ :=
    Carries.keyBlobParam c hlen hz n.scalars n.key_notMem h
  subst hbytes
  obtain ⟨b, hkeyOut, hsize, _⟩ :=
    hksBuildKeyBlob2_sealed env c hword n.scalars n.key_notMem fits keySize h
  exact ⟨info, text, hblob, keySize, fits, b, hkeyOut, hsize⟩

end NewKeyParamSet

theorem find?_contentsOf (ps : List HksParam) (tag : UInt32) :
    (contentsOf ps).find? (·.1 = tag) = (ps.find? (·.tag = tag)).map (·.content 0 []) := by
  rw [contentsOf, List.find?_map]
  rfl

theorem find?_tag_none {ps : List HksParam} {tag : UInt32} (h : tag ∉ ps.map HksParam.tag) :
    ps.find? (·.tag = tag) = none := by
  rw [List.find?_eq_none]
  intro p hp htag
  exact h (List.mem_map.mpr ⟨p, hp, by simpa using htag⟩)

theorem contentsOf_algParams (s : HksParamSet) :
    contentsOf s.algParams = s.contents.filter (isTagInAlgTagsList ·.1) := by
  rw [contentsOf, algParams, contents, List.map_map, List.filter_map]
  apply List.map_congr_left
  intro p _
  exact s.content_entry p

-- No key-file tag is among those that the old blob hands down.
theorem filter_keyFileTags {ps : List HksParam} (h : ∀ p ∈ ps, p.tag ∈ hksKeyFileTags) :
    (contentsOf ps).filter (isTagInAlgTagsList ·.1) = [] := by
  have hdisjoint : hksKeyFileTags.all (!isTagInAlgTagsList ·) := by decide
  rw [List.filter_eq_nil_iff]
  intro c hc
  have ⟨p, hp, hpc⟩ := List.mem_map.mp hc
  have htag := List.all_eq_true.mp hdisjoint p.tag (h p hp)
  subst hpc
  simpa [HksParam.content] using htag

namespace NewKeyParamSet

section Opened

variable {env : KeyBlobEnv} {old paramSet t : HksParamSet} (n : NewKeyParamSet env old paramSet t)
  {k : HksParam} {s : HksParamSet} (c : Carries (n.front ++ k :: n.versions) s)
  (hk : k.tag = HksTag.key)

include c hk

theorem value_processName :
    (hksGetParam s HksTag.processName).map s.value = .ok (n.mandatory.value n.processName) := by
  have ⟨htag, _⟩ := getParam_value n.getName
  rw [c.getParam_other (by rw [hk]; decide)]
  refine Contents.get_of_find ?_ (hksGetParam_nonempty n.getName)
  have hnone : old.algParams.find? (·.tag = HksTag.processName) = none := by
    apply find?_tag_none
    intro h
    have ⟨p, hp, hptag⟩ := List.mem_map.mp h
    have ⟨q, hq, hpq⟩ := List.mem_map.mp hp
    have ⟨_, halg⟩ := List.mem_filter.mp hq
    have hqtag : q.tag = HksTag.processName := by rw [← hptag, ← hpq, tag_entry]
    rw [hqtag] at halg
    cases halg
  rw [find?_contentsOf, front, List.append_assoc, List.find?_append, hnone]
  simp [htag, content_entry]

theorem value_keyVersion :
    (hksGetParam s HksTag.keyVersion).map s.value = .ok (n.mandatory.value n.keyVersion) := by
  have ⟨htag, _⟩ := getParam_value n.getVersion
  rw [c.getParam_other (by rw [hk]; decide)]
  refine Contents.get_of_find ?_ (hksGetParam_nonempty n.getVersion)
  rw [find?_contentsOf, List.find?_append,
    find?_tag_none (n.not_mem_front (by decide) (by decide))]
  simp [versions, htag, content_entry]

theorem contents_policy : s.contents.filter (isTagInAlgTagsList ·.1) =
    old.contents.filter (isTagInAlgTagsList ·.1) := by
  have ⟨hname, _⟩ := getParam_value n.getName
  rw [c.contents, contentsOf_append, front, contentsOf_append, contentsOf_algParams,
    List.filter_append, List.filter_append, List.filter_filter]
  simp only [Bool.and_self]
  rw [filter_keyFileTags, filter_keyFileTags, List.append_nil, List.append_nil]
  · intro p hp
    cases List.mem_cons.mp hp
    case inl hp =>
      rw [hp, hk]
      decide
    case inr hp =>
      have hmem := n.versions_tags ▸ List.mem_map_of_mem hp
      simp only [List.mem_cons, List.not_mem_nil, or_false] at hmem
      rcases hmem with h | h | h <;> rw [h] <;> decide
  · intro p hp
    rw [List.mem_singleton.mp hp, tag_entry, hname]
    decide

end Opened

end NewKeyParamSet

end Huks
