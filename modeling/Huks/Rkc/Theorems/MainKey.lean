import Huks.Rkc.Theorems.Storage

namespace Huks

open EStateM

namespace RkcEnv

variable (env : RkcEnv)

-- The root main key that the root key data of a version stands for.
def rmk (r : HksKsfDataRkc) : FixedBytes hksRkcRmkLen :=
  env.deriveKey HksKeyAlg.hkdf
    (((r.rkMaterial1.xor r.rkMaterial2).xor env.udid).val ++
      .replicate (hksRkcRawKeyLen - hksRkcMaterialLen) 0)
    r.rmkSalt.val r.rmkIter (rkcDigestToHks r.rmkHashAlg)

def rmkV1 (r : HksKsfDataRkc) : FixedBytes hksRkcRmkLen :=
  env.deriveKey HksKeyAlg.pbkdf2
    (((r.rkMaterial1.xor r.rkMaterial2).xor rkcFixedMaterialV1).val ++ env.udid.val)
    r.rmkSalt.val r.rmkIter (rkcDigestToHks r.rmkHashAlg)

def sealMk (rmk : FixedBytes hksRkcRmkLen) (iv : FixedBytes hksRkcMkIvLen) (key : FixedBytes hksRkcMkLen) :
    FixedBytes hksRkcMkCipherTextLen :=
  env.aesGcmEncrypt (rmk.val.take hksRkcRmkEkLen) iv.val hksRkcMkAddData key

def openMk (rmk : FixedBytes hksRkcRmkLen) (m : HksKsfDataMk) : Except HksErrorCode (FixedBytes hksRkcMkLen) :=
  env.aesGcmDecrypt (rmk.val.take hksRkcRmkEkLen) m.mkIv.val hksRkcMkAddData m.mkCiphertext

-- The main key data `m` is `key` encrypted under the root key data `r`.
def Seals (r : HksKsfDataRkc) (m : HksKsfDataMk) (key : FixedBytes hksRkcMkLen) : Prop :=
  m.mkCiphertext = env.sealMk (env.rmk r) m.mkIv key

-- Decryption inverts encryption.
def Lawful : Prop :=
  ∀ key nonce aad text, env.aesGcmDecrypt key nonce aad (env.aesGcmEncrypt key nonce aad text) = .ok text

variable {env}

theorem Lawful.openMk (h : env.Lawful) {r : HksKsfDataRkc} {m : HksKsfDataMk}
    {key : FixedBytes hksRkcMkLen} (hseals : env.Seals r m key) :
    env.openMk (env.rmk r) m = .ok key := by
  rw [RkcEnv.openMk, hseals]
  exact h ..

end RkcEnv

section Keys

variable {env : RkcEnv} {P Q : RkcSystem → Prop}

theorem rkcDerive_triple (hP : TickFree P) (alg : UInt32) {get : HksKsfDataRkc → RkcM Bytes}
    {r : HksKsfDataRkc} {rawKey : Bytes}
    (hget : Triple P (get r) (fun b s => b = rawKey ∧ P s) (Fails env P)) :
    Triple P (rkcDerive env alg get r)
      (fun k s => k = env.deriveKey alg rawKey r.rmkSalt.val r.rmkIter (rkcDigestToHks r.rmkHashAlg) ∧ P s)
      (Fails env P) := by
  refine Triple.bind (hksMalloc_triple hP _) fun _ => ?_
  refine Triple.bind hget fun b => .of_pure fun hb => ?_
  rw [hb]
  exact (external_triple hP).bind fun _ => Triple.pure fun s hs => ⟨rfl, hs⟩

theorem rkcDeriveRmk_triple (hP : TickFree P) (r : HksKsfDataRkc) :
    Triple P (rkcDeriveRmk env r) (fun k s => k = env.rmk r ∧ P s) (Fails env P) :=
  rkcDerive_triple hP _ <| (external_triple hP).bind fun _ => Triple.pure fun _ hs => ⟨rfl, hs⟩

theorem rkcDeriveRmkV1_triple (hP : TickFree P) (r : HksKsfDataRkc) :
    Triple P (rkcDeriveRmkV1 env r) (fun k s => k = env.rmkV1 r ∧ P s) (Fails env P) :=
  rkcDerive_triple hP _ <| (external_triple hP).bind fun _ => Triple.pure fun _ hs => ⟨rfl, hs⟩

theorem rkcMkEncrypt_triple (hP : TickFree P) (r : HksKsfDataRkc) (m : HksKsfDataMk)
    (key : FixedBytes hksRkcMkLen) :
    Triple P (rkcMkEncrypt env r m key) (fun c s => c = env.sealMk (env.rmk r) m.mkIv key ∧ P s)
      (Fails env P) := by
  refine Triple.bind (hksMalloc_triple hP _) fun _ => ?_
  refine Triple.bind (rkcDeriveRmk_triple hP r) fun k => .of_pure fun hk => ?_
  rw [hk]
  exact (orRet_fails (external_triple hP) _).bind fun _ => Triple.pure fun s hs => ⟨rfl, hs⟩

theorem executeMkDecrypt_triple (hP : TickFree P) (m : HksKsfDataMk) (rmk : FixedBytes hksRkcRmkLen) :
    Triple P (executeMkDecrypt env m rmk) (fun k s => env.openMk rmk m = .ok k ∧ P s)
      (FailsOr env P (∃ e, env.openMk rmk m = .error e)) := by
  refine Triple.bind (fails_or (orRet_fails (external_triple hP) _)) fun _ => ?_
  refine (orRet_triple ofResult_triple _).weaken (fun _ => id) (fun k s hs => ⟨hs.2, hs.1⟩) ?_
  rintro stop s ⟨_, ⟨hs, e, rfl, he⟩, hstop⟩
  refine ⟨hs, .inr ⟨?_, e, he⟩⟩
  cases stop
  case ret e => exact ⟨e, rfl⟩
  case crash => cases hstop.mp rfl

theorem rkcMkDecrypt_triple (hP : TickFree P) (r : HksKsfDataRkc) (m : HksKsfDataMk) :
    Triple P (rkcMkDecrypt env r m) (fun k s => env.openMk (env.rmk r) m = .ok k ∧ P s)
      (FailsOr env P (∃ e, env.openMk (env.rmk r) m = .error e)) := by
  refine Triple.bind (fails_or (hksMalloc_triple hP _)) fun _ => ?_
  refine Triple.bind (fails_or (rkcDeriveRmk_triple hP r)) fun k => .of_pure fun hk => ?_
  rw [hk]
  exact executeMkDecrypt_triple hP m _

theorem rkcMkDecryptV1_triple (hP : TickFree P) (data : HksRkcKsfDataV1) :
    Triple P (rkcMkDecryptV1 env data)
      (fun k s => env.openMk (env.rmkV1 data.ksfDataRkc) data.ksfDataMk = .ok k ∧ P s)
      (FailsOr env P (∃ e, env.openMk (env.rmkV1 data.ksfDataRkc) data.ksfDataMk = .error e)) := by
  refine Triple.bind (fails_or (hksMalloc_triple hP _)) fun _ => ?_
  refine Triple.bind (fails_or (rkcDeriveRmkV1_triple hP _)) fun k => .of_pure fun hk => ?_
  rw [hk]
  exact executeMkDecrypt_triple hP _ _

-- The main key that is in memory.
def RkcSystem.mainKey (s : RkcSystem) : Except HksErrorCode (FixedBytes hksRkcMkLen) :=
  hksRkcGetMainKey s hksRkcMkLen

def RkcSystem.masked (s : RkcSystem) (key mkMask : FixedBytes hksRkcMkLen) : RkcSystem :=
  { s with
    cfg   := { s.cfg with mkMask }
    rkcMk := { s.rkcMk with mkWithMask := key.xor mkMask, valid := true } }

theorem mainKey_masked (s : RkcSystem) (key mkMask : FixedBytes hksRkcMkLen) :
    (s.masked key mkMask).mainKey = .ok key :=
  congrArg Except.ok (FixedBytes.xor_xor_cancel key mkMask)

theorem rkcMaskMk_triple (hP : TickFree P) (key : FixedBytes hksRkcMkLen)
    (hmask : ∀ s mkMask, P s → P (s.masked key mkMask)) :
    Triple P (rkcMaskMk env key) (fun _ s => s.mainKey = .ok key ∧ P s) (Fails env P) :=
  (hksCryptoHalFillPrivRandom_triple hP _).bind fun mkMask =>
    Triple.modify fun s hs => ⟨mainKey_masked s key mkMask, hmask s mkMask hs⟩

-- `rkcMakeMk` gives the new main key encrypted under the root key and keeps it in memory.
theorem rkcMakeMk_triple (hP : TickFree P) (r : HksKsfDataRkc) (m : HksKsfDataMk)
    (hmask : ∀ s key mkMask, P s → P (s.masked key mkMask)) :
    Triple P (rkcMakeMk env r m)
      (fun m' s => ∃ key, (env.Seals r m' key ∧ m'.mkEncryptAlg = m.mkEncryptAlg) ∧
        s.mainKey = .ok key ∧ P s) (Fails env P) := by
  refine Triple.bind (hksMalloc_triple hP _) fun _ => ?_
  refine Triple.bind (hksCryptoHalFillPrivRandom_triple hP _) fun key => ?_
  refine Triple.bind (hksCryptoHalFillPrivRandom_triple hP _) fun mkIv => ?_
  refine Triple.bind (rkcMkEncrypt_triple hP r _ key) fun c => .of_pure fun hc => ?_
  refine Triple.bind (rkcMaskMk_triple hP key fun s => hmask s key) fun _ => ?_
  exact Triple.pure fun s hs => ⟨key, ⟨hc, rfl⟩, hs⟩

end Keys

section Attributes

variable {env : RkcEnv} {P Q : RkcSystem → Prop} {D : RkcDisk → Prop}

-- What a failure leaves is said of the files only.
abbrev OnDisk (D : RkcDisk → Prop) : RkcSystem → Prop := fun s => D s.disk

theorem onDisk_fails {β : Type} {x : RkcM β} {R : β → RkcSystem → Prop}
    (h : Triple P x R (Fails env Q)) (hD : ∀ s, Q s → D s.disk) : Triple P x R (Fails env (OnDisk D)) :=
  h.weaken_error fun _ s hs => ⟨hs.1, hD s hs.2⟩

theorem initKsfAttr_triple (hP : TickFree P) (names : List KsfName) (ksfType : HksKsfType)
    (hattr : ∀ s, P s → Q (s.setKsfAttr (names.map some) ksfType)) (hD : ∀ s, P s → D s.disk) :
    Triple P (initKsfAttr env names ksfType) (fun _ => Q) (Fails env (OnDisk D)) := by
  have hclone : Triple P (names.forM fun _ => hksMalloc env .mallocFail) (fun _ => P) (Fails env P) :=
    Triple.forM fun _ _ => hksMalloc_triple hP _
  refine Triple.bind ((attemptRet_triple hclone).weaken_error fun _ s hs => ⟨hs.2.1, hD s hs.2.2⟩)
    fun r => ?_
  refine .of_or (.of_exists fun a => .of_pure fun hr => ?_) (.of_exists fun e => .of_pure fun hr => ?_)
  · rw [hr]
    exact Triple.modify hattr
  · rw [hr]
    refine Triple.bind (Q := fun _ s => env.Faulty ∧ D s.disk)
      (Triple.modify fun s hs => ⟨hs.1, hD s hs.2⟩) fun _ => ?_
    exact Triple.throw fun s hs => hs

-- The answer is exact, or it is `true` because of a failure in front of the checks.
theorem ksfExist_triple (hP : TickFree P) (ksfType : HksKsfType) (names : List KsfName) (d : RkcDisk)
    (hattr : ∀ s, P s → s.ksfAttr ksfType = names.map some) (hd : ∀ s, P s → s.disk = d) :
    Triple P (ksfExist env ksfType)
      (fun b s => (if b then env.Faulty ∨ ∃ name ∈ names, d name ≠ none
        else ∀ name ∈ names, d name = none) ∧ P s) (Fails env P) := by
  have hcheck : Triple P (do getProcessInfo env; hksRkcBuildParamSet env) (fun _ => P) (Fails env P) :=
    (getProcessInfo_triple hP).bind fun _ => hksRkcBuildParamSet_triple hP
  refine Triple.bind ((attemptRet_triple hcheck).weaken_error fun _ _ hs => hs.2) fun r => ?_
  refine .of_or (.of_exists fun a => .of_pure fun hr => ?_) (.of_exists fun e => .of_pure fun hr => ?_)
  · rw [hr]
    refine Triple.get_bind fun s => Triple.pure fun t ⟨ht, hs⟩ => ⟨?_, hs⟩
    rw [ht] at hs
    rw [hattr s hs, hd s hs]
    split
    case isTrue hany =>
      obtain ⟨_, hmem, hsome⟩ := List.any_eq_true.mp hany
      obtain ⟨name, hname, rfl⟩ := List.mem_map.mp hmem
      exact .inr ⟨name, hname, Option.isSome_iff_ne_none.mp hsome⟩
    case isFalse hany =>
      intro name hname
      rw [List.any_eq_true, not_exists] at hany
      by_contra hne
      exact hany (some name) ⟨List.mem_map_of_mem hname, Option.isSome_iff_ne_none.mpr hne⟩
  · rw [hr]
    exact Triple.pure fun s hs => ⟨.inl hs.1, hs.2⟩

end Attributes

end Huks
