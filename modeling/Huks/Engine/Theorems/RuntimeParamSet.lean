import Huks.Common.Theorems.Words
import Huks.Engine.ThreeStageCipher

namespace Huks

open HksParamSet

-- A runtime param set has the entries of the caller's set and a last one for the context.
theorem buildRuntimeParamSet_words {inParamSet t : HksParamSet}
    (h : buildRuntimeParamSet (some inParamSet) = .ok t) :
    t.words = inParamSet.words ++ [(HksTag.cryptoCtx, 0)] ∧
      hksCheckParamSet t t.paramSetSize = .ok () := by
  have ⟨_, _, h⟩ := Except.bind_eq_ok.mp h
  have ⟨u, hu, h⟩ := Except.bind_eq_ok.mp h
  have ⟨v, hv, h⟩ := Except.bind_eq_ok.mp h
  have ⟨hwords, hcheck⟩ := hksBuildParamSet_words h
  refine ⟨?_, hcheck⟩
  rw [hwords, hksAddParams_words hv, hksAddParams_words hu, words_entries]
  rfl

-- A tag that is neither a blob nor one of `nonceParams` keeps its value.
theorem addNonceToParamSet_word {s t : HksParamSet} {nonceParams : List HksParam} {tag : UInt32}
    (h : addNonceToParamSet s nonceParams = .ok t) (hs : hksCheckParamSet s s.paramSetSize = .ok ())
    (ht : getTagType tag ≠ .bytes) (hn : ∀ p ∈ nonceParams, p.tag ≠ tag) :
    (hksGetParam t tag).map HksParam.word = (hksGetParam s tag).map HksParam.word := by
  have ⟨u, hu, h⟩ := Except.bind_eq_ok.mp h
  have ⟨v, hv, h⟩ := Except.bind_eq_ok.mp h
  have ⟨hwords, hcheck⟩ := hksBuildParamSet_words h
  rw [hksGetParam_word hcheck ht, hksGetParam_word hs ht]
  congr 1
  have hnonce : tag ≠ HksTag.nonce := fun he => ht (he ▸ by decide)
  have hkept : (s.entries.filter (·.tag ≠ HksTag.nonce)).find? (·.tag = tag) =
      s.entries.find? (·.tag = tag) := by
    rw [List.find?_filter]
    congr 1
    funext p
    by_cases hp : p.tag = tag <;> simp [hp, hnonce]
  have hnew : nonceParams.find? (·.tag = tag) = none := by
    simpa [List.find?_eq_none] using hn
  rw [hwords, hksAddParams_words hv, foldlM_hksAddParams_words hu, words_hksInitParamSet,
    List.nil_append, ← paramWords_append, find?_paramWords, List.find?_append, hkept, hnew,
    Option.or_none, ← find?_paramWords, words_entries]

theorem getTokenIdFromParamSet_congr {s t : HksParamSet}
    (h : (hksGetParam t HksTag.accessTokenId).map HksParam.word =
      (hksGetParam s HksTag.accessTokenId).map HksParam.word) :
    getTokenIdFromParamSet t = getTokenIdFromParamSet s := by
  simp only [getTokenIdFromParamSet, getParamOf, Option.elim_some]
  cases hs : hksGetParam s HksTag.accessTokenId <;> cases ht : hksGetParam t HksTag.accessTokenId <;>
    simp_all [Except.map, HksParam.uint32Param]

-- The value of every tag that the nonce of an AEAD mode does not touch.
def SameScalars (s t : HksParamSet) : Prop :=
  ∀ tag, getTagType tag ≠ .bytes → tag ≠ HksTag.aesGcmNeedRegenerateNonce →
    (hksGetParam t tag).map HksParam.word = (hksGetParam s tag).map HksParam.word

theorem SameScalars.refl (s : HksParamSet) : SameScalars s s := fun _ _ _ => rfl

theorem SameScalars.getUInt32 {s t : HksParamSet} (h : SameScalars s t) {tag : UInt32}
    (ht : getTagType tag ≠ .bytes) (hn : tag ≠ HksTag.aesGcmNeedRegenerateNonce) :
    getUInt32 t tag = getUInt32 s tag := by
  rw [getUInt32_word, getUInt32_word, h tag ht hn]

theorem SameScalars.tokenId {s t : HksParamSet} (h : SameScalars s t) :
    getTokenIdFromParamSet t = getTokenIdFromParamSet s :=
  getTokenIdFromParamSet_congr <| h HksTag.accessTokenId (by decide) (by decide)

theorem checkWhetherUpdateAesNonce_check {keyBlobParamSet runtimeParamSet : HksParamSet} {b : Bool}
    (h : checkWhetherUpdateAesNonce keyBlobParamSet runtimeParamSet = .ok b) :
    hksCheckParamSet runtimeParamSet runtimeParamSet.paramSetSize = .ok () := by
  have ⟨_, halg, _⟩ := Except.bind_eq_ok.mp h
  have ⟨_, hp, _⟩ := getUInt32_eq_ok.mp halg
  exact hksGetParam_check hp

-- An init handler changes the runtime param set by a nonce at most.
def NonceClosed (P : HksParamSet → Prop) : Prop := ∀ s t nonce, P s →
  hksCheckParamSet s s.paramSetSize = .ok () →
  addNonceToParamSet s
    [.ofBytes HksTag.nonce nonce, .ofBool HksTag.aesGcmNeedRegenerateNonce true] = .ok t → P t

theorem sameScalars_nonceClosed (s₀ : HksParamSet) : NonceClosed (SameScalars s₀) := by
  intro s t nonce h hcheck ht tag htag hn
  rw [addNonceToParamSet_word ht hcheck htag, h tag htag hn]
  intro p hp
  simp only [List.mem_cons, List.not_mem_nil, or_false] at hp
  rcases hp with rfl | rfl
  · exact fun he => htag (he ▸ (by decide : getTagType HksTag.nonce = .bytes))
  · exact fun he => hn he.symm

section Init

variable {P : HksParamSet → Prop} (hP : NonceClosed P) (env : EngineEnv)
  (keyBlobParamSet : HksParamSet)

abbrev RuntimeState.Has (P : HksParamSet → Prop) (s : RuntimeState) : Prop := P s.runtimeParamSet

theorem liftCtx_runtime {α : Type} (x : CtxM α) :
    EStateM.Preserves (RuntimeState.Has P) (liftM x : InitM α) :=
  .zoom (Q := fun _ => True) (fun _ _ => trivial) (fun _ _ => trivial) fun _ _ h _ => h

include hP

theorem updateNonceForAesAeMode_runtime (isCcm : Bool) :
    EStateM.Preserves (RuntimeState.Has P) (updateNonceForAesAeMode env keyBlobParamSet isCcm) := by
  apply EStateM.Preserves.get_bind
  intro s h
  suffices EStateM.Preserves (RuntimeState.Has P) _ from this s h
  apply EStateM.Preserves.ofExcept_bind
  intro b hb
  split
  case isFalse => exact .pure _
  case isTrue =>
    apply EStateM.Preserves.bind (liftCtx_runtime _)
    intro nonce
    apply EStateM.Preserves.ofExcept_bind
    intro paramSet hp
    apply EStateM.Preserves.modify
    intro _ _
    exact hP _ _ nonce h (checkWhetherUpdateAesNonce_check hb) hp

theorem coreCipherInit_runtime :
    EStateM.Preserves (RuntimeState.Has P) (coreCipherInit env keyBlobParamSet) := by
  refine .bind (updateNonceForAesAeMode_runtime hP env keyBlobParamSet false) fun _ => ?_
  refine .bind .get fun _ => ?_
  exact liftCtx_runtime _

theorem coreAesCipherInit_runtime :
    EStateM.Preserves (RuntimeState.Has P) (coreAesCipherInit env keyBlobParamSet) := by
  refine .bind .get fun _ => ?_
  refine .bind (.ofExcept _) fun mode => ?_
  split
  case isFalse => exact coreCipherInit_runtime hP env keyBlobParamSet
  case isTrue =>
    refine .bind (updateNonceForAesAeMode_runtime hP env keyBlobParamSet true) fun _ => ?_
    refine .bind .get fun _ => ?_
    exact liftCtx_runtime _

theorem coreDesCipherInit_runtime :
    EStateM.Preserves (RuntimeState.Has P) (coreDesCipherInit env keyBlobParamSet) := by
  refine .bind .get fun _ => ?_
  refine .bind (.bind (.ofExcept _) fun _ => .pure _) fun _ => ?_
  exact coreCipherInit_runtime hP env keyBlobParamSet

theorem hksCoreCryptoThreeStageInit_runtime (paramSet : HksParamSet) :
    EStateM.Preserves (RuntimeState.Has P)
      (hksCoreCryptoThreeStageInit env keyBlobParamSet paramSet) := by
  refine .bind .get fun _ => ?_
  refine .bind (.ofExcept _) fun _ => ?_
  refine .bind (.ofExcept _) fun alg => ?_
  split_ifs
  · exact liftCtx_runtime _
  · exact coreAesCipherInit_runtime hP env keyBlobParamSet
  · exact coreDesCipherInit_runtime hP env keyBlobParamSet
  · exact coreDesCipherInit_runtime hP env keyBlobParamSet
  · exact coreCipherInit_runtime hP env keyBlobParamSet
  · exact .throw _

end Init

end Huks
