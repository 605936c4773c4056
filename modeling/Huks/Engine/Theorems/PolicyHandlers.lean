import Huks.Engine.Theorems.CryptoLibrary

namespace Huks

open EStateM HksKeyPurpose

-- A library that answers what the key permits as the one of `env` does makes no difference to the
-- handlers.
section Handlers

variable {env : EngineEnv} {hal' : Nat → HalCall → Except HksErrorCode Bytes}
  {keyBlobParamSet requested s : HksParamSet} {pur algParam alg : UInt32} {authId : HksAuthId}

theorem EngineEnv.AgreesOn.keyFree
    (h : env.AgreesOn hal' (HalCall.Permitted keyBlobParamSet requested)) :
    env.AgreesOn hal' (·.usesKey = false) :=
  fun n call hc => h n call (HalCall.permitted_of_not_usesKey hc)

variable (h : env.AgreesOn hal' (HalCall.Permitted keyBlobParamSet requested))
include h

section SignVerify

theorem coreHashInit_withHal (d : Dispatched s pur algParam alg) (m : Met authId keyBlobParamSet s)
    (hid : authIdOf pur algParam = some authId) (hpur : pur = sign ∨ pur = verify)
    (hne : algParam ≠ HksKeyAlg.ed25519) :
    coreHashInit (env.withHal hal') s alg = coreHashInit env s alg := by
  simp only [coreHashInit, h.hal _ (permits_hashInit d m hid hpur hne)]

theorem hksCoreSignVerifyThreeStageInit_withHal (d : Dispatched s pur algParam alg)
    (hpur : pur = sign ∨ pur = verify) :
    hksCoreSignVerifyThreeStageInit (env.withHal hal') keyBlobParamSet s alg =
      hksCoreSignVerifyThreeStageInit env keyBlobParamSet s alg := by
  refine ofExcept_bind_congr fun _ hauth => ?_
  have ⟨authId, hid, m⟩ := signVerifyAuth_met hpur hauth d.algorithm
  refine ofExcept_bind_congr fun algParam' halg => ?_
  cases d.algorithm.symm.trans (Except.orError_eq_ok.mp halg)
  by_cases hcache : signVerifyNeedsCache env s algParam alg
  case pos => exact (if_pos hcache).trans (if_pos hcache).symm
  case neg =>
    have hne : algParam ≠ HksKeyAlg.ed25519 := by
      rintro rfl
      simp [signVerifyNeedsCache, hksCheckNeedCache] at hcache
    refine (if_neg hcache).trans (Eq.trans ?_ (if_neg hcache).symm)
    exact coreHashInit_withHal h d m hid hpur hne

omit h in
theorem hksCoreSignVerifyThreeStageUpdate_withHal (h : env.AgreesOn hal' (·.usesKey = false))
    (srcData : Bytes) :
    hksCoreSignVerifyThreeStageUpdate (env.withHal hal') s srcData alg =
      hksCoreSignVerifyThreeStageUpdate env s srcData alg := by
  simp only [hksCoreSignVerifyThreeStageUpdate, updateCachedData_withHal h, coreHashUpdate_withHal h]
  rfl

theorem coreSignVerify_withHal (r : Readable s) (d : Dispatched s pur algParam alg)
    (m : Met authId keyBlobParamSet s) (hid : authIdOf pur algParam = some authId)
    (hpur : pur = sign ∨ pur = verify)
    (hnamed : getUInt32 requested HksTag.algorithm = .ok algParam)
    (inData signature : Bytes) (outSize : UInt32) :
    coreSignVerify (env.withHal hal') keyBlobParamSet s inData signature outSize =
      coreSignVerify env keyBlobParamSet s inData signature outSize := by
  refine ofExcept_bind_congr fun _ _ => ofExcept_bind_congr fun rawKey hkey => ?_
  have p := permitsSign r d m hid hpur hkey hnamed
  have hpurpose : (setRsaPssSaltLenType s (hksFillUsageSpec s)).purpose = pur := by
    rw [setRsaPssSaltLenType_purpose]
    exact usageSpec_purpose (r.single _ (by decide)) d.purpose
  dsimp only
  rw [hpurpose]
  rcases hpur with rfl | rfl
  · rw [if_pos rfl, if_pos rfl, if_pos rfl, if_pos rfl, h.hal (.sign _ _ _) p,
      h.hal (.signIsoIec97962 _ _ _) p]
    rfl
  · have hne : ¬verify = sign := by decide
    rw [if_neg hne, if_neg hne, if_neg hne, if_neg hne, h.hal (.verify _ _ _ _) p,
      h.hal (.verifyIsoIec97962 _ _ _ _) p]
    rfl

theorem hksCoreSignVerifyThreeStageFinish_withHal (r : Readable s)
    (d : Dispatched s pur algParam alg) (m : Met authId keyBlobParamSet s)
    (hid : authIdOf pur algParam = some authId) (hpur : pur = sign ∨ pur = verify)
    (hnamed : getUInt32 requested HksTag.algorithm = .ok algParam) (inData : Bytes)
    (outSize : UInt32) :
    hksCoreSignVerifyThreeStageFinish (env.withHal hal') keyBlobParamSet s inData outSize alg =
      hksCoreSignVerifyThreeStageFinish env keyBlobParamSet s inData outSize alg := by
  simp only [hksCoreSignVerifyThreeStageFinish, finishCachedData_withHal h.keyFree,
    coreHashFinish_withHal h.keyFree, coreSignVerify_withHal h r d m hid hpur hnamed]
  rfl

end SignVerify

section Derive

omit h in
theorem getRawkey_ok {st st' : CtxState} {rawKey : Bytes}
    (h : (getRawkey env keyBlobParamSet s).run st = .ok rawKey st') :
    hksThreeStageAuth env .derive keyBlobParamSet s = .ok () ∧
      hksGetRawKey keyBlobParamSet = .ok rawKey := by
  have ⟨ctx, st₁, _, h⟩ := run_bind_eq_ok.mp h
  cases ctx
  case some => cases h
  case none =>
    have ⟨_, _, hauth, h⟩ := run_bind_eq_ok.mp h
    exact ⟨(run_ofExcept_eq_ok.mp hauth).1, (run_ofExcept_eq_ok.mp h).1⟩

theorem hksCoreDeriveThreeStageUpdate_withHal (r : Readable s)
    (d : Dispatched s derive algParam alg) :
    hksCoreDeriveThreeStageUpdate (env.withHal hal') keyBlobParamSet s =
      hksCoreDeriveThreeStageUpdate env keyBlobParamSet s := by
  refine bind_congr fun _ => SameRuns.eq <| .bind_ok (.refl _) fun st rawKey st' _ hr => ?_
  have ⟨hauth, hkey⟩ := getRawkey_ok hr
  have m := met_of_auth hauth
  have permitted (deriveSize : UInt32) : HalCall.Permitted keyBlobParamSet requested
      (.deriveKey rawKey (hksFillKeySpec s).algType (hksFillKeySpec s).keyLen
        (hksFillKeyDerivationParam s) deriveSize) := by
    refine ⟨⟨hkey, m.allows d.purpose⟩, m.fixes (by decide) (by decide) fun fixed hfixed => ?_⟩
    exact derivationParam_digestAlg (r.single _ (by decide)) hfixed
  simp only [h.hal _ (permitted _)]

theorem hksCoreAgreeThreeStageUpdate_withHal (hallows : Allows keyBlobParamSet agree)
    (srcData : Bytes) :
    hksCoreAgreeThreeStageUpdate (env.withHal hal') keyBlobParamSet s srcData =
      hksCoreAgreeThreeStageUpdate env keyBlobParamSet s srcData := by
  refine bind_congr fun ctx => ?_
  cases ctx
  case some => rfl
  case none =>
    dsimp only
    rw [h.keyFree.hal (.getHksPubKeyInnerFormat _ _) rfl]
    refine bind_congr fun publicKey => ofExcept_bind_congr fun rawKey hkey => ?_
    have permitted : HalCall.Permitted keyBlobParamSet requested
        (.agreeKey rawKey publicKey (hksFillKeySpec s).algType (hksFillKeySpec s).keyLen) :=
      ⟨hkey, hallows⟩
    rw [h.hal _ permitted]

end Derive

section Mac

variable {paramSet : HksParamSet}

theorem hksCoreMacThreeStageInit_withHal (d : Dispatched s mac algParam alg)
    (hnamed : getUInt32 requested HksTag.algorithm = .ok algParam)
    (hparam : getUInt32 paramSet HksTag.algorithm = .ok algParam) :
    hksCoreMacThreeStageInit (env.withHal hal') keyBlobParamSet s paramSet alg =
      hksCoreMacThreeStageInit env keyBlobParamSet s paramSet alg := by
  refine ofExcept_bind_congr fun _ hauth => bind_congr fun _ => ?_
  have ⟨authId, hid, m⟩ := hmacAuth_met hauth d.algorithm
  refine ofExcept_bind_congr fun rawKey hkey => ofExcept_bind_congr fun algParam' halg => ?_
  cases hparam.symm.trans halg
  by_cases hdes : algParam = HksKeyAlg.tripleDes
  case pos =>
    subst hdes
    rw [if_pos rfl, if_pos rfl, h.hal _ (permits_cmacInit d m hid hkey)]
    rfl
  case neg =>
    rw [if_neg hdes, if_neg hdes, h.hal _ (permits_hmacInit d m hid hkey hdes hnamed)]

theorem macHal_withHal (hallows : Allows keyBlobParamSet mac) (data : Bytes) :
    macHal (env.withHal hal') alg (.cmacUpdate data) (.hmacUpdate data) =
        macHal env alg (.cmacUpdate data) (.hmacUpdate data) ∧
      macHal (env.withHal hal') alg (.cmacFinal data) (.hmacFinal data) =
        macHal env alg (.cmacFinal data) (.hmacFinal data) := by
  constructor
  · simp only [macHal, h.hal (.cmacUpdate data) hallows,
      h.hal (.hmacUpdate data) hallows]
    rfl
  · simp only [macHal, h.hal (.cmacFinal data) hallows,
      h.hal (.hmacFinal data) hallows]
    rfl

theorem hksCoreMacThreeStageUpdate_withHal (hallows : Allows keyBlobParamSet mac)
    (srcData : Bytes) :
    hksCoreMacThreeStageUpdate (env.withHal hal') s paramSet srcData =
      hksCoreMacThreeStageUpdate env s paramSet srcData := by
  simp only [hksCoreMacThreeStageUpdate, (macHal_withHal h hallows srcData).1]
  rfl

theorem hksCoreMacThreeStageFinish_withHal (hallows : Allows keyBlobParamSet mac) (inData : Bytes)
    (outSize : UInt32) :
    hksCoreMacThreeStageFinish (env.withHal hal') s paramSet inData outSize =
      hksCoreMacThreeStageFinish env s paramSet inData outSize := by
  simp only [hksCoreMacThreeStageFinish, (macHal_withHal h hallows inData).2]
  rfl

end Mac

section Cipher

theorem openCipher_withHal (r : Readable s) (d : Dispatched s pur algParam alg)
    (m : Met authId keyBlobParamSet s) (hid : authIdOf pur algParam = some authId)
    (hpur : pur = encrypt ∨ pur = decrypt)
    (hne : algParam ≠ HksKeyAlg.rsa ∧ algParam ≠ HksKeyAlg.sm2) :
    openCipher (env.withHal hal') keyBlobParamSet s = openCipher env keyBlobParamSet s := by
  refine bind_congr fun _ => ofExcept_bind_congr fun purpose hpurpose => ?_
  cases d.purpose.symm.trans (Except.orError_eq_ok.mp hpurpose)
  refine ofExcept_bind_congr fun spec hspec => ofExcept_bind_congr fun rawKey hkey => ?_
  have p := permitsBlockCipher r d m hid hpur hkey hne hspec
  rcases hpur with rfl | rfl
  · rw [if_pos rfl, h.hal (.encryptInit _ _) p]
  · rw [if_neg (by decide), h.hal (.decryptInit _ _) p]

theorem coreCipherUpdate_withHal (d : Dispatched s pur algParam alg)
    (m : Met authId keyBlobParamSet s) (hid : authIdOf pur algParam = some authId)
    (hpur : pur = encrypt ∨ pur = decrypt) (inData : Bytes) (outSize : UInt32) :
    coreCipherUpdate (env.withHal hal') s inData outSize alg =
      coreCipherUpdate env s inData outSize alg := by
  have p := permitsContext d m hid hpur
  refine ite_congr rfl (fun _ => rfl) fun _ => ite_congr rfl (fun _ => rfl) fun _ => ?_
  refine bind_congr fun ctx => ?_
  cases ctx
  case none => rfl
  case some =>
    refine ofExcept_bind_congr fun purpose hpurpose => bind_congr fun _ => ?_
    cases d.purpose.symm.trans hpurpose
    rcases hpur with rfl | rfl
    · rw [if_pos rfl, h.hal (.encryptUpdate _ _) p]
    · rw [if_neg (by decide), h.hal (.decryptUpdate _ _) p]

theorem hksCoreCryptoThreeStageUpdate_withHal (d : Dispatched s pur algParam alg)
    (m : Met authId keyBlobParamSet s) (hid : authIdOf pur algParam = some authId)
    (hpur : pur = encrypt ∨ pur = decrypt) (inData : Bytes) (outSize : UInt32) :
    hksCoreCryptoThreeStageUpdate (env.withHal hal') s inData outSize alg =
      hksCoreCryptoThreeStageUpdate env s inData outSize alg := by
  simp only [hksCoreCryptoThreeStageUpdate, coreAesCipherUpdate, core3DesCipherUpdate,
    coreDesCipherUpdate, updateCachedData_withHal h.keyFree, checkCachedDataMaxSize_withHal h.keyFree,
    coreCipherUpdate_withHal h d m hid hpur]

theorem finishCipher_withHal (e : HksErrorCode → HksErrorCode) (call : HalCall)
    (hc : call.Permitted keyBlobParamSet requested) :
    finishCipher (env.withHal hal') s e call = finishCipher env s e call := by
  simp only [finishCipher, h.hal call hc]

theorem coreBlockCipherFinish_withHal (isEncrypt : Bool) (inData : Bytes) (outSize : UInt32)
    (p : PermitsContext keyBlobParamSet (if isEncrypt then encrypt else decrypt) alg) :
    coreBlockCipherFinish (env.withHal hal') s isEncrypt inData outSize alg =
      coreBlockCipherFinish env s isEncrypt inData outSize alg := by
  refine ofExcept_bind_congr fun _ _ => finishCipher_withHal h _ _ ?_
  cases isEncrypt
  case true => exact p
  case false => exact p

theorem coreAesCcmCipherFinish_withHal (r : Readable s) (d : Dispatched s pur algParam alg)
    (m : Met authId keyBlobParamSet s) (hid : authIdOf pur algParam = some authId)
    (hpur : pur = encrypt ∨ pur = decrypt)
    (hne : algParam ≠ HksKeyAlg.rsa ∧ algParam ≠ HksKeyAlg.sm2) (isEncrypt : Bool) (inData : Bytes)
    (outSize : UInt32) :
    coreAesCcmCipherFinish (env.withHal hal') keyBlobParamSet s isEncrypt inData outSize =
      coreAesCcmCipherFinish env keyBlobParamSet s isEncrypt inData outSize := by
  refine ofExcept_bind_congr fun _ _ => ofExcept_bind_congr fun spec hspec => ?_
  refine ofExcept_bind_congr fun rawKey hkey => ite_congr rfl (fun _ => rfl) fun _ => ?_
  have p := permitsBlockCipher r d m hid hpur hkey hne hspec
  have hpurpose : spec.purpose = pur := by
    rw [(hksBuildCipherUsageSpec_ok hspec).2.2.2]
    exact usageSpec_purpose (r.single _ (by decide)) d.purpose
  rw [hpurpose]
  rcases hpur with rfl | rfl
  · rw [if_pos rfl, if_pos rfl, h.hal (.encrypt _ _ _) p]
  · rw [if_neg (by decide), if_neg (by decide)]
    refine ofExcept_bind_congr fun tag _ => ?_
    rw [h.hal (.decrypt _ _ _ _) p]

theorem rsaCipherFinish_withHal (r : Readable s) (d : Dispatched s pur algParam alg)
    (m : Met authId keyBlobParamSet s) (hid : authIdOf pur algParam = some authId)
    (hpur : pur = encrypt ∨ pur = decrypt) (inData : Bytes) (outSize : UInt32) :
    rsaCipherFinish (env.withHal hal') keyBlobParamSet s inData outSize =
      rsaCipherFinish env keyBlobParamSet s inData outSize := by
  refine ofExcept_bind_congr fun rawKey hkey => ofExcept_bind_congr fun _ _ => ?_
  have p := permitsCipher r d m hid hpur hkey
  have hpurpose : (hksFillUsageSpec s).purpose = pur :=
    usageSpec_purpose (r.single _ (by decide)) d.purpose
  rw [hpurpose]
  rcases hpur with rfl | rfl
  · rw [if_pos (by decide), h.hal (.encrypt _ _ _) p]
  · rw [if_neg (by decide), h.hal (.decrypt _ _ _ _) p]

theorem coreAesCipherFinish_withHal (r : Readable s) (d : Dispatched s pur HksKeyAlg.aes alg)
    (m : Met authId keyBlobParamSet s) (hid : authIdOf pur HksKeyAlg.aes = some authId)
    (isEncrypt : Bool) (hpur : pur = if isEncrypt then encrypt else decrypt) (inData : Bytes)
    (outSize : UInt32) :
    coreAesCipherFinish (env.withHal hal') keyBlobParamSet s isEncrypt inData outSize alg =
      coreAesCipherFinish env keyBlobParamSet s isEncrypt inData outSize alg := by
  have hcipher : pur = encrypt ∨ pur = decrypt := by
    cases isEncrypt
    case true => exact .inl hpur
    case false => exact .inr hpur
  have p := permitsContext d m hid hcipher
  rw [hpur] at p
  refine ofExcept_bind_congr fun mode _ => ite_congr rfl (fun _ => ?_) fun _ => ?_
  · rw [checkCachedDataMaxSize_withHal h.keyFree, finishCachedData_withHal h.keyFree]
    simp only [coreAesCcmCipherFinish_withHal h r d m hid hcipher (by decide)]
  · cases isEncrypt
    case true =>
      rw [if_pos rfl, if_pos rfl]
      simp only [coreAesEncryptFinish, finishCipher_withHal h _ (.encryptFinal _ _) p]
    case false =>
      rw [if_neg Bool.false_ne_true, if_neg Bool.false_ne_true]
      simp only [coreAesDecryptFinish, finishCipher_withHal h _ (.decryptFinal _ _ _) p]

theorem finishCrypto_withHal (r : Readable s) (d : Dispatched s pur algParam alg)
    (m : Met authId keyBlobParamSet s) (hid : authIdOf pur algParam = some authId)
    (isEncrypt : Bool) (hpur : pur = if isEncrypt then encrypt else decrypt) (inData : Bytes)
    (outSize : UInt32) :
    finishCrypto (env.withHal hal') keyBlobParamSet s isEncrypt inData outSize alg =
      finishCrypto env keyBlobParamSet s isEncrypt inData outSize alg := by
  have hcipher : pur = encrypt ∨ pur = decrypt := by
    cases isEncrypt
    case true => exact .inl hpur
    case false => exact .inr hpur
  have p := permitsContext d m hid hcipher
  rw [hpur] at p
  have hrsa : coreRsaCipherFinish (env.withHal hal') keyBlobParamSet s inData outSize =
      coreRsaCipherFinish env keyBlobParamSet s inData outSize := by
    simp only [coreRsaCipherFinish, finishCachedData_withHal h.keyFree,
      rsaCipherFinish_withHal h r d m hid hcipher]
  have hblock := coreBlockCipherFinish_withHal h (s := s) isEncrypt inData outSize p
  refine ite_congr rfl (fun _ => rfl) fun _ => ofExcept_bind_congr fun algParam' halg => ?_
  cases d.algorithm.symm.trans (Except.orError_eq_ok.mp halg)
  refine ite_congr rfl (fun _ => hrsa) fun _ => ite_congr rfl (fun _ => hrsa) fun _ => ?_
  refine ite_congr rfl (fun haes => ?_) fun _ => ?_
  · subst haes
    exact coreAesCipherFinish_withHal h r d m hid isEncrypt hpur inData outSize
  · simp only [core3DesCipherFinish, coreDesCipherFinish, hblock]

end Cipher

section Init

-- A runtime param set that is the requested one up to a nonce.
structure Serves (requested s : HksParamSet) : Prop where
  readable : Readable s
  same     : SameScalars requested s

omit h in
theorem serves_nonceClosed (requested) : NonceClosed (Serves requested) := fun s t nonce hs hcheck ht =>
  ⟨readable_nonceClosed s t nonce hs.readable hcheck ht,
    sameScalars_nonceClosed requested s t nonce hs.same hcheck ht⟩

variable (d : Dispatched requested pur algParam alg) (m : Met authId keyBlobParamSet requested)
  (hid : authIdOf pur algParam = some authId) (hpur : pur = encrypt ∨ pur = decrypt)
  (hne : algParam ≠ HksKeyAlg.rsa ∧ algParam ≠ HksKeyAlg.sm2)
include d m hid hpur hne

theorem coreCipherInit_withHal :
    SameRuns (RuntimeState.Has (Serves requested))
      (coreCipherInit (env.withHal hal') keyBlobParamSet) (coreCipherInit env keyBlobParamSet) := by
  refine .bind (.of_eq (updateNonceForAesAeMode_withHal h.keyFree _ _))
    (updateNonceForAesAeMode_runtime (serves_nonceClosed _) _ _ _) fun _ => .get_bind fun st hst => ?_
  have hsame := hst.same.routineTags
  dsimp only
  rw [openCipher_withHal h hst.readable (d.congr hsame) (m.congr hsame) hid hpur hne]

theorem coreAesCipherInit_withHal :
    SameRuns (RuntimeState.Has (Serves requested))
      (coreAesCipherInit (env.withHal hal') keyBlobParamSet)
      (coreAesCipherInit env keyBlobParamSet) := by
  refine .bind (.refl _) .get fun _ => .ofExcept_bind fun mode _ => .ite (fun _ => ?_) fun _ => ?_
  · rw [updateNonceForAesAeMode_withHal h.keyFree]
    exact .refl _
  · exact coreCipherInit_withHal h d m hid hpur hne

theorem coreDesCipherInit_withHal :
    SameRuns (RuntimeState.Has (Serves requested))
      (coreDesCipherInit (env.withHal hal') keyBlobParamSet)
      (coreDesCipherInit env keyBlobParamSet) := by
  refine .bind (.refl _) .get fun _ => .bind (.refl _) (.bind (.ofExcept _) fun _ => .pure _) ?_
  exact fun _ => coreCipherInit_withHal h d m hid hpur hne

end Init

theorem hksCoreCryptoThreeStageInit_withHal {paramSet : HksParamSet} (r : Readable requested)
    (d : Dispatched requested pur algParam alg) (hpur : pur = encrypt ∨ pur = decrypt)
    (hparam : getUInt32 paramSet HksTag.algorithm = .ok algParam) :
    SameRuns (·.runtimeParamSet = requested)
      (hksCoreCryptoThreeStageInit (env.withHal hal') keyBlobParamSet paramSet)
      (hksCoreCryptoThreeStageInit env keyBlobParamSet paramSet) := by
  refine .get_bind ?_
  rintro st rfl
  have serves : RuntimeState.Has (Serves st.runtimeParamSet) st := ⟨r, .refl _⟩
  suffices SameRuns (RuntimeState.Has (Serves st.runtimeParamSet)) _ _ from this st serves
  refine .ofExcept_bind fun _ hauth => .ofExcept_bind fun algParam' halg => ?_
  have ⟨authId, hid, m⟩ := cipherAuth_met hpur hauth hparam
  cases d.algorithm.symm.trans (Except.orError_eq_ok.mp halg)
  refine .ite (fun _ => .refl _) fun hne => ?_
  rw [not_or] at hne
  refine .ite (fun _ => coreAesCipherInit_withHal h d m hid hpur hne) fun _ => ?_
  refine .ite (fun _ => coreDesCipherInit_withHal h d m hid hpur hne) fun _ => ?_
  refine .ite (fun _ => coreDesCipherInit_withHal h d m hid hpur hne) fun _ => ?_
  exact .ite (fun _ => coreCipherInit_withHal h d m hid hpur hne) fun _ => .refl _

theorem hksCoreInitHandler_withHal {paramSet : HksParamSet} (r : Readable requested)
    (d : Dispatched requested pur algParam alg)
    (hparam : getUInt32 paramSet HksTag.algorithm = .ok algParam) :
    SameRuns (·.runtimeParamSet = requested)
      (hksCoreInitHandler (env.withHal hal') paramSet pur alg keyBlobParamSet requested)
      (hksCoreInitHandler env paramSet pur alg keyBlobParamSet requested) := by
  refine .ite (fun hpur => ?_) fun _ => .ite (fun hpur => ?_) fun _ => ?_
  · rw [hksCoreSignVerifyThreeStageInit_withHal h d hpur]
    exact .refl _
  · exact hksCoreCryptoThreeStageInit_withHal h r d hpur hparam
  · refine .ite (fun _ => .refl _) fun _ => .ite (fun _ => .refl _) fun _ => ?_
    refine .ite (fun hmac => ?_) fun _ => .refl _
    subst hmac
    rw [hksCoreMacThreeStageInit_withHal h d d.algorithm hparam]
    exact .refl _

-- What was checked of the key before the later stages.
def Authorised (keyBlobParamSet s : HksParamSet) : Prop :=
  ∃ pur algParam, getUInt32 s HksTag.purpose = .ok pur ∧
    getUInt32 s HksTag.algorithm = .ok algParam ∧
    (pur = derive ∨ ∃ authId, authIdOf pur algParam = some authId ∧ Met authId keyBlobParamSet s)

omit h in
theorem Authorised.met (a : Authorised keyBlobParamSet s) (d : Dispatched s pur algParam alg)
    (hne : pur ≠ derive) :
    ∃ authId, authIdOf pur algParam = some authId ∧ Met authId keyBlobParamSet s := by
  have ⟨pur', algParam', hpur, halg, hmet⟩ := a
  cases d.purpose.symm.trans hpur
  cases d.algorithm.symm.trans halg
  exact hmet.resolve_left hne

omit h in
theorem Authorised.congr (a : Authorised keyBlobParamSet requested)
    (hsame : ∀ tag ∈ routineTags, getUInt32 s tag = getUInt32 requested tag) :
    Authorised keyBlobParamSet s := by
  have ⟨pur, algParam, hpur, halg, hmet⟩ := a
  refine ⟨pur, algParam, (hsame _ (by decide)).trans hpur, (hsame _ (by decide)).trans halg, ?_⟩
  rcases hmet with hderive | ⟨authId, hid, m⟩
  · exact .inl hderive
  · exact .inr ⟨authId, hid, m.congr hsame⟩

omit h in
theorem hksCoreUpdateHandler_withHal
    (h : env.AgreesOn hal' (HalCall.Permitted keyBlobParamSet s)) (r : Readable s)
    (d : Dispatched s pur algParam alg) (a : Authorised keyBlobParamSet s) (paramSet : HksParamSet)
    (inData : Bytes) (outSize : UInt32) :
    hksCoreUpdateHandler (env.withHal hal') paramSet pur alg inData outSize keyBlobParamSet s =
      hksCoreUpdateHandler env paramSet pur alg inData outSize keyBlobParamSet s := by
  refine ite_congr rfl (fun _ => ?_) fun _ => ite_congr rfl (fun hpur => ?_) fun _ => ?_
  · exact hksCoreSignVerifyThreeStageUpdate_withHal h.keyFree _
  · have hne : pur ≠ derive := by
      rcases hpur with rfl | rfl <;> decide
    have ⟨authId, hid, m⟩ := a.met d hne
    exact hksCoreCryptoThreeStageUpdate_withHal h d m hid hpur inData outSize
  · refine ite_congr rfl (fun hpur => ?_) fun _ => ite_congr rfl (fun hpur => ?_) fun _ => ?_
    · subst hpur
      exact hksCoreDeriveThreeStageUpdate_withHal h r d
    · subst hpur
      have ⟨_, _, m⟩ := a.met d (by decide)
      exact hksCoreAgreeThreeStageUpdate_withHal h (m.allows d.purpose) inData
    · refine ite_congr rfl (fun hpur => ?_) fun _ => rfl
      subst hpur
      have ⟨_, _, m⟩ := a.met d (by decide)
      exact hksCoreMacThreeStageUpdate_withHal h (m.allows d.purpose) inData

theorem hksCoreFinishHandler_withHal (r : Readable s) (d : Dispatched s pur algParam alg)
    (a : Authorised keyBlobParamSet s)
    (hnamed : getUInt32 requested HksTag.algorithm = .ok algParam) (paramSet : HksParamSet)
    (inData : Bytes) (outSize : UInt32) :
    hksCoreFinishHandler (env.withHal hal') paramSet pur alg inData outSize keyBlobParamSet s =
      hksCoreFinishHandler env paramSet pur alg inData outSize keyBlobParamSet s := by
  refine ite_congr rfl (fun hpur => ?_) fun _ => ite_congr rfl (fun hpur => ?_) fun _ => ?_
  · have hne : pur ≠ derive := by
      rcases hpur with rfl | rfl <;> decide
    have ⟨authId, hid, m⟩ := a.met d hne
    exact hksCoreSignVerifyThreeStageFinish_withHal h r d m hid hpur hnamed inData outSize
  · subst hpur
    have ⟨authId, hid, m⟩ := a.met d (by decide)
    exact finishCrypto_withHal h r d m hid true rfl inData outSize
  · refine ite_congr rfl (fun hpur => ?_) fun _ => ite_congr rfl (fun hpur => ?_) fun _ => ?_
    · subst hpur
      have ⟨authId, hid, m⟩ := a.met d (by decide)
      exact finishCrypto_withHal h r d m hid false rfl inData outSize
    · exact finishAgreeDerive_withHal h.keyFree _ _ _ _ _
    · refine ite_congr rfl (fun _ => ?_) fun _ => ite_congr rfl (fun hpur => ?_) fun _ => rfl
      · exact finishAgreeDerive_withHal h.keyFree _ _ _ _ _
      · subst hpur
        have ⟨_, _, m⟩ := a.met d (by decide)
        exact hksCoreMacThreeStageFinish_withHal h (m.allows d.purpose) inData outSize

end Handlers

end Huks
