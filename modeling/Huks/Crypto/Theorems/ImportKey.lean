import Huks.Crypto.ImportKey
import Huks.Crypto.Theorems.OpenSsl
import Huks.Crypto.Theorems.PublicKeyFormat

namespace Huks

open Except (bind_eq_ok orError_eq_ok)

section CheckKeyLen

variable {alg keyType : UInt32} {params : ParamsValues} {key : Bytes} {format : KeyFormat} {maxSize : UInt32}
  {required ofPair : List Nat}

-- What `checkKeyLenBy` accepts
structure KeyLenAccepted (alg keyType : UInt32) (params : ParamsValues) (key : Bytes) (format : KeyFormat)
    (maxSize : UInt32) (required ofPair : List Nat) : Prop where
  header   : format.headerSize ≤ key.length
  alg      : keyWord key 0 = alg
  keyLen   : keyWord key 1 = params.keyLen.value
  max      : ∀ i ∈ format.sizeWords, keyWord key i ≤ maxSize
  required : ∀ i ∈ required, keyWord key i ≠ 0
  ofPair   : keyType = HksImportKeyType.keyPair → ∀ i ∈ ofPair, keyWord key i ≠ 0
  sum      : ((format.sizeWords.map (keyWord key)).foldl (· + ·) format.headerSize.toUInt32).toNat ≤ key.length

theorem confined_checkKeyLenBy {Q : Unit → Prop} (hrequired : ∀ i ∈ required, 4 * i + 4 ≤ format.headerSize)
    (hofPair : ∀ i ∈ ofPair, 4 * i + 4 ≤ format.headerSize) :
    Confined Q (checkKeyLenBy alg keyType params key format maxSize required ofPair) ↔
      (KeyLenAccepted alg keyType params key format maxSize required ofPair → Q ⟨⟩) := by
  by_cases hlen : key.length < format.headerSize
  case pos =>
    rw [checkKeyLenBy, if_pos hlen]
    exact iff_of_true trivial fun h => absurd h.header (by omega)
  case neg =>
    have hmapM (is : List Nat) (his : ∀ i ∈ is, 4 * i + 4 ≤ format.headerSize) (P : List UInt32 → Prop) :
        Confined P (is.mapM (readWord key)) ↔ P (is.map (keyWord key)) := by
      rw [mapM_readWord fun i hi => Nat.le_trans (his i hi) (by omega)]
      exact Iff.rfl
    have hwords : ∀ i ∈ format.sizeWords, 4 * i + 4 ≤ format.headerSize := by cases format <;> decide
    have hheader : 20 ≤ format.headerSize := by cases format <;> decide
    simp only [checkKeyLenBy, if_neg hlen, confined_bind, confined_ite, confined_throw, confined_readWord,
      hmapM _ hwords, hmapM _ hrequired, hmapM _ hofPair, confined_pure, implies_true, true_and]
    constructor
    case mp =>
      intro h hacc
      refine h.2.2 (not_or.mpr ⟨not_not.mpr hacc.alg, not_not.mpr hacc.keyLen⟩) ?_ ?_ ?_
        (Nat.not_lt.mpr hacc.sum)
      · rintro ⟨size, hmem, hlt⟩
        obtain ⟨i, hi, heq⟩ := List.mem_map.mp hmem
        exact absurd (heq ▸ hacc.max i hi) (UInt32.not_le.mpr hlt)
      · intro hmem
        obtain ⟨i, hi, heq⟩ := List.mem_map.mp hmem
        exact hacc.required i hi heq
      · rintro ⟨hpair, hmem⟩
        obtain ⟨i, hi, heq⟩ := List.mem_map.mp hmem
        exact hacc.ofPair hpair i hi heq
    case mpr =>
      intro h
      refine ⟨by omega, by omega, fun hhead hmax hreq hpair hsum => h ?_⟩
      obtain ⟨halg, hkeyLen⟩ := not_or.mp hhead
      exact {
        header   := by omega
        alg      := not_not.mp halg
        keyLen   := not_not.mp hkeyLen
        max      := fun i hi => UInt32.not_lt.mp fun hlt => hmax ⟨_, List.mem_map_of_mem hi, hlt⟩
        required := fun i hi heq => hreq (heq ▸ List.mem_map_of_mem hi)
        ofPair   := fun hkp i hi heq => hpair ⟨hkp, heq ▸ List.mem_map_of_mem hi⟩
        sum      := Nat.not_lt.mp hsum
      }

theorem toNat_foldl_add {sizes : List UInt32} {a : UInt32}
    (h : a.toNat + (sizes.map UInt32.toNat).sum < UInt32.size) :
    (sizes.foldl (· + ·) a).toNat = a.toNat + (sizes.map UInt32.toNat).sum := by
  rw [toNat_foldl_add_mod]
  exact Nat.mod_eq_of_lt h

-- The sum of the sizes does not wrap around, as each is at most 4096.
theorem KeyLenAccepted.fits (h : KeyLenAccepted alg keyType params key format maxSize required ofPair)
    (hmax : maxSize ≤ 4096) : format.Fits key := by
  have hle (i : Nat) (hi : i ∈ format.sizeWords) : (keyWord key i).toNat ≤ 4096 :=
    UInt32.le_iff_toNat_le.mp (UInt32.le_trans (h.max i hi) hmax)
  have hdeclared : format.declaredSize key = format.headerSize.toUInt32.toNat +
      ((format.sizeWords.map (keyWord key)).map UInt32.toNat).sum := by
    rw [List.map_map]
    cases format <;> rfl
  have hsum : format.headerSize.toUInt32.toNat +
      ((format.sizeWords.map (keyWord key)).map UInt32.toNat).sum < UInt32.size := by
    rw [UInt32.size]
    cases format <;> simp [KeyFormat.sizeWords, KeyFormat.headerSize] at hle ⊢ <;> omega
  refine ⟨h.header, ?_⟩
  rw [hdeclared, ← toNat_foldl_add hsum]
  exact h.sum

theorem checkRsaKeyLen_accepts {Q : Unit → Prop} : Confined Q (checkRsaKeyLen alg keyType params key) ↔
    (KeyLenAccepted alg keyType params key .rsa 4096 [2, 3, 4] [] → Q ⟨⟩) :=
  confined_checkKeyLenBy (by decide) (by decide)

theorem checkEccKeyLen_accepts {Q : Unit → Prop} : Confined Q (checkEccKeyLen alg keyType params key) ↔
    (KeyLenAccepted alg keyType params key .ecc 521 [4] [2, 3] → Q ⟨⟩) :=
  confined_checkKeyLenBy (by decide) (by decide)

theorem checkDsaKeyLen_accepts {Q : Unit → Prop} : Confined Q (checkDsaKeyLen alg keyType params key) ↔
    (KeyLenAccepted alg keyType params key .dsa maxKeySize [2, 4, 5, 6] [3] → Q ⟨⟩) :=
  confined_checkKeyLenBy (by decide) (by decide)

theorem checkCurve25519KeyLen_accepts {Q : Unit → Prop} :
    Confined Q (checkCurve25519KeyLen alg keyType params key) ↔
      (KeyLenAccepted alg keyType params key .curve25519 256 [3] [2] → Q ⟨⟩) :=
  confined_checkKeyLenBy (by decide) (by decide)

theorem checkDHKeyLen_accepts {Q : Unit → Prop} : Confined Q (checkDHKeyLen alg keyType params key) ↔
    (KeyLenAccepted alg keyType params key .dh 4096 [3] [2] → Q ⟨⟩) :=
  confined_checkKeyLenBy (by decide) (by decide)

-- The check of the lengths, for the format of the algorithm
def KeyLenOk (alg keyType : UInt32) (params : ParamsValues) (key : Bytes) : KeyFormat → Prop
  | .rsa        => KeyLenAccepted alg keyType params key .rsa 4096 [2, 3, 4] []
  | .ecc        => KeyLenAccepted alg keyType params key .ecc 521 [4] [2, 3]
  | .dsa        => KeyLenAccepted alg keyType params key .dsa maxKeySize [2, 4, 5, 6] [3]
  | .curve25519 => KeyLenAccepted alg keyType params key .curve25519 256 [3] [2]
  | .dh         => KeyLenAccepted alg keyType params key .dh 4096 [3] [2]

theorem confined_checkKeyLen (halg : KeyFormat.ofAlg alg = some format) {Q : Unit → Prop} :
    Confined Q (checkKeyLen alg keyType params key) ↔ (KeyLenOk alg keyType params key format → Q ⟨⟩) := by
  rw [checkKeyLen, halg]
  cases format
  case rsa => exact checkRsaKeyLen_accepts
  case ecc => exact checkEccKeyLen_accepts
  case dsa => exact checkDsaKeyLen_accepts
  case dh => exact checkDHKeyLen_accepts
  case curve25519 => exact checkCurve25519KeyLen_accepts

theorem KeyLenOk.fits (h : KeyLenOk alg keyType params key format) : format.Fits key := by
  cases format <;> exact KeyLenAccepted.fits h (by decide)

end CheckKeyLen

section Openssl

variable {lib : OpenSsl} {alg keyType : UInt32} {params : ParamsValues} {key : Bytes} {format : KeyFormat} {S : Prop}

-- What the crypto library reads of a public key before any of its sizes has been checked
def PublicRead (key : Bytes) : KeyFormat → Prop
  | .dh  => DhPublicRead key
  | .rsa => 16 ≤ key.length ∧ PartInside key (20 + (keyWord key 2).toNat) (keyWord key 3)
  | _    => True

-- The public key is not one of those that the library takes for insecure.
def PublicSecure (lib : OpenSsl) (key : Bytes) : KeyFormat → Prop
  | .dh  => DhPeerAccepted lib key
  | .rsa => ∃ e, part key (20 + (keyWord key 2).toNat) (keyWord key 3) = some e ∧ 65537 ≤ e
  | _    => True

theorem confined_checkRsaKey : Confined (fun _ => S) (hksOpensslCheckRsaKey key) ↔
    PublicRead key .rsa ∧ (PublicSecure lib key .rsa → S) := by
  simp only [hksOpensslCheckRsaKey, confined_bind, confined_notNull, confined_readWord, confined_bnBin2bn,
    confined_ite, confined_pure, confined_throw, implies_true, true_and, Nat.not_lt, PublicRead, PublicSecure]
  constructor
  case mp =>
    rintro ⟨_, hlen, hin, h⟩
    refine ⟨⟨hlen, hin⟩, ?_⟩
    rintro ⟨e, he, hsecure⟩
    exact h e he hsecure
  case mpr =>
    rintro ⟨⟨hlen, hin⟩, h⟩
    exact ⟨by omega, hlen, hin, fun e he hsecure => h ⟨e, he, hsecure⟩⟩

-- The algorithm that a format of the two with such a check belongs to
theorem ofAlg_dh (h : KeyFormat.ofAlg alg = some format) : alg = HksKeyAlg.dh ↔ format = .dh := by
  constructor
  case mp =>
    rintro rfl
    have hdh : KeyFormat.ofAlg HksKeyAlg.dh = some .dh := by decide
    exact Option.some.inj (h.symm.trans hdh)
  case mpr =>
    rintro rfl
    rw [KeyFormat.ofAlg] at h
    split_ifs at h <;> first | assumption | cases h

theorem ofAlg_rsa (h : KeyFormat.ofAlg alg = some format) : alg = HksKeyAlg.rsa ↔ format = .rsa := by
  constructor
  case mp =>
    rintro rfl
    have hrsa : KeyFormat.ofAlg HksKeyAlg.rsa = some .rsa := by decide
    exact Option.some.inj (h.symm.trans hrsa)
  case mpr =>
    rintro rfl
    rw [KeyFormat.ofAlg] at h
    split_ifs at h <;> first | assumption | cases h

theorem confined_checkPublicImport (halg : KeyFormat.ofAlg alg = some format) :
    Confined (fun _ => S) (opensslCheckImportKey lib alg HksImportKeyType.publicKey key) ↔
      PublicRead key format ∧ (PublicSecure lib key format → S) := by
  have hpublic : HksImportKeyType.publicKey ≠ HksImportKeyType.privateKey := by decide
  rw [opensslCheckImportKey, if_neg hpublic]
  cases format
  case dh =>
    rw [if_pos ((ofAlg_dh halg).mpr rfl)]
    exact confined_checkDhPublicKey key
  case rsa =>
    rw [if_neg (by rw [ofAlg_dh halg]; nofun), if_pos ((ofAlg_rsa halg).mpr rfl)]
    exact confined_checkRsaKey
  all_goals
    rw [if_neg (by rw [ofAlg_dh halg]; nofun), if_neg (by rw [ofAlg_rsa halg]; nofun)]
    exact ⟨fun h => ⟨trivial, fun _ => h⟩, fun h => h.2 trivial⟩

-- Behind the check of the sizes the library reads nothing but the key.
theorem opensslCheckImportKey_inside (halg : KeyFormat.ofAlg alg = some format) (h : format.Fits key)
    (hkey : key.length < UInt32.size) : Inside (opensslCheckImportKey lib alg keyType key) := by
  rw [opensslCheckImportKey]
  split
  case isTrue => exact inside_pure _
  case isFalse =>
    split
    case isTrue hdh =>
      obtain ⟨hlen, hsizes⟩ := KeyFormat.Fits.dh_le ((ofAlg_dh halg).mp hdh ▸ h)
      have hpart : PartInside key 20 (keyWord key 2) := .inr (.inr (by omega))
      rw [inside_iff_confined, hksOpensslCheckDhKey]
      simp only [hksOpensslDhCheckPubKey, confined_bind, confined_notNull, confined_ite, confined_initDhStruct key hkey,
        confined_initDhPubStruct, confined_readWord, confined_bnBin2bn, confined_pure, confined_throw, implies_true,
        and_true, hpart]
      refine ⟨fun _ => ⟨by omega, fun _ _ => by omega⟩, fun _ => ⟨fun _ => ⟨by omega, fun _ => by omega, ?_⟩, ?_⟩⟩
      · exact fun _ _ => by omega
      · exact fun _ _ h => by cases h
    case isFalse =>
      split
      case isTrue hrsa =>
        obtain ⟨hheader, hfits⟩ : KeyFormat.rsa.Fits key := (ofAlg_rsa halg).mp hrsa ▸ h
        simp only [KeyFormat.declaredSize, KeyFormat.headerSize, KeyFormat.sizeWords, List.map_cons, List.map_nil,
          List.sum_cons, List.sum_nil] at hheader hfits
        rw [inside_iff_confined]
        exact (@confined_checkRsaKey lib _ _).mpr ⟨⟨by omega, .inr (.inr (by omega))⟩, fun _ => trivial⟩
      case isFalse => exact inside_pure _

def ImportSizeOk (alg : UInt32) (params : ParamsValues) (key : Bytes) (format : KeyFormat) : Prop :=
  format = .dsa ∨ (20 ≤ key.length ∧ keyWord key 0 = alg ∧ keyWord key 1 = params.keyLen.value)

theorem confined_checkImportKeySize (halg : KeyFormat.ofAlg alg = some format) {Q : Unit → Prop} :
    Confined Q (checkImportKeySize alg params key) ↔ (ImportSizeOk alg params key format → Q ⟨⟩) := by
  have hchecks : Confined Q (do
      if key.length < 20 then throw (.error .invalidKeyInfo)
      let keyAlg ← readWord key 0
      let keySize ← readWord key 1
      if keyAlg ≠ alg ∨ keySize ≠ params.keyLen.value then throw (.error HksErrorCode.invalidKeyInfo)) ↔
      (20 ≤ key.length ∧ keyWord key 0 = alg ∧ keyWord key 1 = params.keyLen.value → Q ⟨⟩) := by
    simp only [confined_bind, confined_ite, confined_throw, confined_readWord, confined_pure, implies_true, true_and,
      Nat.not_lt, not_or, not_not]
    constructor
    case mp =>
      rintro h ⟨hlen, hhead⟩
      exact (h hlen).2.2 hhead
    case mpr => exact fun h hlen => ⟨by omega, by omega, fun hhead => h ⟨hlen, hhead⟩⟩
  rw [checkImportKeySize, halg, ImportSizeOk]
  cases format
  case dsa => exact ⟨fun h _ => h, fun h => h (.inl rfl)⟩
  all_goals
    refine hchecks.trans (imp_congr ?_ Iff.rfl)
    exact ⟨.inr, fun h => h.resolve_left (fun h => by cases h)⟩

end Openssl

section InnerFormat

variable {keyType : UInt32} {key : Bytes} {paramSet : HksParamSet}

theorem copyToInnerKey_ok {inner : Bytes} :
    copyToInnerKey key = .ok inner ↔ (key ≠ [] ∧ key.length ≤ 2048) ∧ key = inner := by
  rw [copyToInnerKey]
  split
  case isTrue h => exact ⟨nofun, fun hok => absurd h (not_or.mpr ⟨hok.1.1, by omega⟩)⟩
  case isFalse h =>
    have ⟨hne, hlen⟩ := not_or.mp h
    exact ⟨fun hok => ⟨⟨hne, by omega⟩, Except.ok.inj hok⟩, fun hok => congrArg _ hok.2⟩

theorem copyToInnerKey_small {inner : Bytes} (h : copyToInnerKey key = .ok inner) : inner.length < UInt32.size := by
  have ⟨⟨_, hlen⟩, heq⟩ := copyToInnerKey_ok.mp h
  rw [← heq, UInt32.size]
  omega

-- What `checkRsaKeyMaterialLen` accepts
structure RsaMaterialOk (keyType : UInt32) (key : Bytes) : Prop where
  nSize : keyWord key 2 ≤ 4096 ∧ keyWord key 2 ≠ 0
  dSize : keyWord key 4 ≤ 4096 ∧ keyWord key 4 ≠ 0
  eSize : keyWord key 3 ≤ 4096
  pair  : keyType = HksImportKeyType.keyPair → keyWord key 3 ≠ 0
  fits  : 20 + (keyWord key 2).toNat + (keyWord key 4).toNat + (keyWord key 3).toNat ≤ key.length

theorem confined_checkRsaKeyMaterialLen {Q : Unit → Prop} :
    Confined Q (checkRsaKeyMaterialLen keyType key) ↔ (RsaMaterialOk keyType key → Q ⟨⟩) := by
  have hsum (hn : keyWord key 2 ≤ 4096) (hd : keyWord key 4 ≤ 4096) (he : keyWord key 3 ≤ 4096) :
      (20 + keyWord key 2 + keyWord key 4 + keyWord key 3).toNat =
        20 + (keyWord key 2).toNat + (keyWord key 4).toNat + (keyWord key 3).toNat := by
    have hn := UInt32.le_iff_toNat_le.mp hn
    have hd := UInt32.le_iff_toNat_le.mp hd
    have he := UInt32.le_iff_toNat_le.mp he
    simp only [UInt32.reduceToNat] at hn hd he
    simp only [UInt32.toNat_add, UInt32.reduceToNat]
    omega
  simp only [checkRsaKeyMaterialLen, confined_bind, confined_ite, confined_throw, confined_readWord, confined_pure,
    implies_true, true_and, Nat.not_lt, not_or, UInt32.not_lt, not_and]
  constructor
  case mp =>
    intro h hok
    have hfits := hok.fits
    refine (h (by omega)).2.2.2 ⟨hok.nSize.1, hok.nSize.2, hok.dSize.1, hok.dSize.2, hok.eSize⟩ hok.pair ?_
    rwa [hsum hok.nSize.1 hok.dSize.1 hok.eSize]
  case mpr =>
    refine fun h hlen => ⟨by omega, by omega, by omega, ?_⟩
    rintro ⟨hn, hn0, hd, hd0, he⟩ hpair hfits
    refine h ?_
    exact ⟨⟨hn, hn0⟩, ⟨hd, hd0⟩, he, hpair, by rwa [hsum hn hd he] at hfits⟩

theorem confined_appendRsaPublicExponent (h : RsaMaterialOk keyType key) {Q : Bytes → Prop} :
    Confined Q (appendRsaPublicExponent key) ↔
      (mallocOk (20 + keyWord key 2 + keyWord key 4 + 3).toNat →
        Q (slice key 0 12 ++ toBytes32 3 ++ slice key 16 4 ++ slice key 20 (keyWord key 2).toNat ++ [1, 0, 1] ++
          slice key (20 + (keyWord key 2).toNat) (keyWord key 4).toNat)) := by
  have hfits := h.fits
  have hoffset : (20 + keyWord key 2).toNat = 20 + (keyWord key 2).toNat := by
    have hn := UInt32.le_iff_toNat_le.mp h.nSize.1
    simp only [UInt32.reduceToNat] at hn
    simp only [UInt32.toNat_add, UInt32.reduceToNat]
    omega
  simp only [appendRsaPublicExponent, confined_bind, confined_ite, confined_throw, confined_readWord, confined_readAt,
    confined_pure, implies_true, true_and, not_not, hoffset]
  constructor
  case mp => exact fun h hmalloc => (h.2.2 hmalloc).2.2.2.2
  case mpr =>
    exact fun h => ⟨by omega, by omega, fun hmalloc => ⟨by omega, by omega, by omega, by omega, h hmalloc⟩⟩

theorem confined_checkedCopy : Confined (fun inner => inner.length < UInt32.size)
    (checked (copyToInnerKey key) : Except (Stop HksErrorCode) Bytes) := by
  rw [confined_checked]
  exact fun inner => copyToInnerKey_small

theorem rsaInnerFormat_small :
    Confined (fun inner => inner.length < UInt32.size) (getRsaPrivateOrPairInnerFormat keyType key) := by
  rw [getRsaPrivateOrPairInnerFormat, confined_bind, confined_checkRsaKeyMaterialLen]
  intro hok
  have hfits := hok.fits
  rw [confined_bind, confined_readWord]
  refine ⟨by omega, ?_⟩
  rw [confined_ite]
  refine ⟨fun _ => ?_, fun _ => confined_checkedCopy⟩
  rw [confined_appendRsaPublicExponent hok]
  intro _
  have hn := UInt32.le_iff_toNat_le.mp hok.nSize.1
  have hd := UInt32.le_iff_toNat_le.mp hok.dSize.1
  simp only [UInt32.reduceToNat] at hn hd
  simp only [List.length_append, slice, List.length_take, length_toBytes32, List.length_cons, List.length_nil,
    UInt32.size]
  omega

theorem innerFormat_small :
    Confined (fun inner => inner.length < UInt32.size) (getPrivateOrPairInnerFormat keyType key paramSet) := by
  simp only [getPrivateOrPairInnerFormat, confined_ite, confined_bind, confined_throw, implies_true, true_and]
  intro _
  rw [confined_checked]
  intro alg _
  rw [and_true]
  refine ⟨fun _ => rsaInnerFormat_small, fun _ => ⟨fun _ => confined_checkedCopy, fun _ _ => ?_⟩⟩
  rw [getCurve25519PrivateOrPairInnerFormat, confined_ite]
  refine ⟨fun _ => confined_checkedCopy, fun _ => ?_⟩
  simp only [confined_ite, confined_throw, implies_true, true_and, confined_checked]
  intro hlen inner hinner
  rw [innerKey] at hinner
  split at hinner
  case isTrue =>
    rw [← Except.ok.inj hinner, List.length_append, not_not.mp hlen]
    exact (by decide : 20 + 32 < UInt32.size)
  case isFalse => nomatch hinner

end InnerFormat

section Import

variable (lib : OpenSsl) (env : ImportEnv) (paramSet : HksParamSet) (key : Bytes)

-- The material of an asymmetric key holds all that its header declares, and the routines that
-- rebuild the key from it read nothing else.
def MaterialHeld (inner : Bytes) : Prop :=
  ∀ alg format, getUInt32 paramSet HksTag.algorithm = .ok alg → KeyFormat.ofAlg alg = some format →
    format.Fits inner ∧ ∀ init ∈ format.inits lib inner, Inside init

def ImportHolds : Prop := Confined (MaterialHeld lib paramSet) (coreImportKey lib env paramSet key)

-- The import of a public key, with the type named or not
def PublicImport : Prop :=
  ∀ keyType, getUInt32 paramSet HksTag.importKeyType = .ok keyType → keyType = HksImportKeyType.publicKey

def TypeNamed : Prop := ∃ keyType, getUInt32 paramSet HksTag.importKeyType = .ok keyType

-- A public key that reaches the library has what the library reads of it, and one that passes the
-- checks holds what its header declares.
def ImportSafe : Prop :=
  PublicImport paramSet → key ≠ [] ∧ key.length ≤ 2048 → ∀ params alg format,
    env.coreCheckGenKeyParams paramSet = .ok params → checkAndGetImportAlg env paramSet = .ok alg →
    KeyFormat.ofAlg alg = some format →
      (TypeNamed paramSet → PublicRead key format) ∧
      ((TypeNamed paramSet → PublicSecure lib key format) → ImportSizeOk alg params key format →
        env.checkImportMutableParams alg params = .ok ⟨⟩ → env.buildKeyBlob key = .ok ⟨⟩ → format.Fits key)

variable {lib env paramSet key}

theorem checkAndGetImportAlg_eq {alg : UInt32} (h : checkAndGetImportAlg env paramSet = .ok alg) :
    getUInt32 paramSet HksTag.algorithm = .ok alg := by
  obtain ⟨alg', halg, h⟩ := bind_eq_ok.mp h
  split at h
  case isTrue => exact Except.ok.inj h ▸ orError_eq_ok.mp halg
  case isFalse => nomatch h

theorem symmetric_noFormat {alg : UInt32} (h : alg ∈ symmetricImportAlg) : KeyFormat.ofAlg alg = none := by
  have hall : symmetricImportAlg.all fun alg => KeyFormat.ofAlg alg = none := by decide
  exact of_decide_eq_true (List.all_eq_true.mp hall alg h)

theorem materialHeld_iff {alg : UInt32} {format : KeyFormat} (halg : getUInt32 paramSet HksTag.algorithm = .ok alg)
    (hformat : KeyFormat.ofAlg alg = some format) (hkey : key.length < UInt32.size) :
    MaterialHeld lib paramSet key ↔ format.Fits key := by
  constructor
  case mp => exact fun h => (h alg format halg hformat).1
  case mpr =>
    intro hfits alg' format' halg' hformat'
    rw [Except.ok.inj (halg'.symm.trans halg)] at hformat'
    rw [Option.some.inj (hformat'.symm.trans hformat)]
    exact ⟨hfits, hfits.inits_inside hkey⟩

theorem materialHeld_of_none {alg : UInt32} (halg : getUInt32 paramSet HksTag.algorithm = .ok alg)
    (hformat : KeyFormat.ofAlg alg = none) : MaterialHeld lib paramSet key := by
  intro alg' format' halg' hformat'
  rw [Except.ok.inj (halg'.symm.trans halg), hformat] at hformat'
  nomatch hformat'

-- Of the algorithms that a key can be imported for, the other ones have a format.
theorem symmetric_of_none {alg : UInt32} (h : checkAndGetImportAlg env paramSet = .ok alg)
    (hformat : KeyFormat.ofAlg alg = none) : alg ∈ symmetricImportAlg := by
  have hmem : alg ∈ importKeyAlg := by
    obtain ⟨_, _, h⟩ := bind_eq_ok.mp h
    split at h
    case isTrue hmem => exact Except.ok.inj h ▸ hmem.1
    case isFalse => nomatch h
  have hall : importKeyAlg.all fun alg => KeyFormat.ofAlg alg = none → alg ∈ symmetricImportAlg := by decide
  exact of_decide_eq_true (List.all_eq_true.mp hall alg hmem) hformat

-- A key that is not a public one is checked before anything else is made of it.
theorem checkedImport_holds {keyType : UInt32} (htype : getUInt32 paramSet HksTag.importKeyType = .ok keyType)
    (hne : keyType ≠ HksImportKeyType.publicKey) (hkey : key.length < UInt32.size) :
    Confined (fun _ => MaterialHeld lib paramSet key) (hksCoreCheckImportKeyParams lib env paramSet key) := by
  rw [hksCoreCheckImportKeyParams, confined_bind, confined_checked]
  intro params _
  rw [confined_bind, confined_checked]
  intro alg halg
  have halg := checkAndGetImportAlg_eq halg
  rw [confined_ite]
  refine ⟨fun hsymmetric => ?_, fun _ => ?_⟩
  · rw [confined_checked]
    exact fun _ _ => materialHeld_of_none halg (symmetric_noFormat hsymmetric)
  · rw [checkImportAsymmetricKey, htype]
    dsimp only
    rw [if_neg hne, confined_bind]
    cases hformat : KeyFormat.ofAlg alg
    case none =>
      rw [checkImportKey, checkKeyLen, hformat]
      exact trivial
    case some format =>
      rw [checkImportKey, confined_bind, confined_checkKeyLen hformat]
      intro hok
      rw [confined_checked]
      intro _ _
      exact (opensslCheckImportKey_inside hformat hok.fits hkey).confined
        fun _ => (materialHeld_iff halg hformat hkey).mpr hok.fits

-- What follows once the checks are passed
theorem confined_build {Q : Bytes → Prop} {inner : Bytes} :
    Confined Q (do
      checked (env.buildKeyBlob inner)
      return inner : Except (Stop HksErrorCode) Bytes) ↔ (env.buildKeyBlob inner = .ok ⟨⟩ → Q inner) := by
  rw [confined_bind, confined_checked]
  exact ⟨fun h hbuild => h ⟨⟩ hbuild, fun h _ hbuild => h hbuild⟩

theorem publicImport_check (hpublic : PublicImport paramSet) {params : ParamsValues} {alg : UInt32} {format : KeyFormat}
    (hformat : KeyFormat.ofAlg alg = some format) {S : Prop} :
    Confined (fun _ => S) (checkImportAsymmetricKey lib env paramSet alg params key) ↔
      (TypeNamed paramSet → PublicRead key format) ∧ ((TypeNamed paramSet → PublicSecure lib key format) →
        ImportSizeOk alg params key format → env.checkImportMutableParams alg params = .ok ⟨⟩ → S) := by
  have hchecks : Confined (fun _ => S) (checkImportPublicKey env alg params key) ↔
      (ImportSizeOk alg params key format → env.checkImportMutableParams alg params = .ok ⟨⟩ → S) := by
    rw [checkImportPublicKey, confined_bind, confined_checkImportKeySize hformat, confined_checked]
    exact forall_congr' fun _ => ⟨fun h hok => h ⟨⟩ hok, fun h _ hok => h hok⟩
  rw [checkImportAsymmetricKey]
  cases htype : getUInt32 paramSet HksTag.importKeyType
  case error e =>
    have hnamed : ¬TypeNamed paramSet := by
      rintro ⟨_, h⟩
      cases htype.symm.trans h
    rw [hchecks]
    exact ⟨fun h => ⟨fun hn => absurd hn hnamed, fun _ => h⟩, fun h => h.2 fun hn => absurd hn hnamed⟩
  case ok keyType =>
    have hnamed : TypeNamed paramSet := ⟨keyType, htype⟩
    dsimp only
    rw [if_pos (hpublic keyType htype), hpublic keyType htype, confined_bind, hchecks,
      confined_checkPublicImport hformat]
    exact ⟨fun h => ⟨fun _ => h.1, fun hsecure => h.2 (hsecure hnamed)⟩,
      fun h => ⟨h.1 hnamed, fun hs => h.2 fun _ => hs⟩⟩

-- A public key comes into the key blob as it is.
theorem publicImport_inner (hpublic : PublicImport paramSet) :
    importInnerKey paramSet key = checked (copyToInnerKey key) := by
  rw [importInnerKey]
  cases htype : getUInt32 paramSet HksTag.importKeyType
  case error e => rfl
  case ok keyType =>
    have hne : ¬(keyType = HksImportKeyType.privateKey ∨ keyType = HksImportKeyType.keyPair) := by
      rw [hpublic keyType htype]
      decide
    exact if_neg hne

theorem importInnerKey_small :
    Confined (fun inner => inner.length < UInt32.size) (importInnerKey paramSet key) := by
  rw [importInnerKey]
  cases getUInt32 paramSet HksTag.importKeyType
  case error e => exact confined_checkedCopy
  case ok keyType => exact confined_ite.mpr ⟨fun _ => innerFormat_small, fun _ => confined_checkedCopy⟩

theorem publicImport_iff (hpublic : PublicImport paramSet) :
    ImportHolds lib env paramSet key ↔ ImportSafe lib env paramSet key := by
  have hcopy : ImportHolds lib env paramSet key ↔ (key ≠ [] ∧ key.length ≤ 2048 →
      Confined (fun _ => env.buildKeyBlob key = .ok ⟨⟩ → MaterialHeld lib paramSet key)
        (hksCoreCheckImportKeyParams lib env paramSet key)) := by
    rw [ImportHolds, coreImportKey, publicImport_inner hpublic, confined_bind, confined_checked]
    simp only [confined_bind (x := hksCoreCheckImportKeyParams _ _ _ _), confined_build]
    constructor
    case mp => exact fun h hcopy => h key (copyToInnerKey_ok.mpr ⟨hcopy, rfl⟩)
    case mpr =>
      intro h inner hinner
      obtain ⟨hcopy, heq⟩ := copyToInnerKey_ok.mp hinner
      exact heq ▸ h hcopy
  rw [hcopy, ImportSafe, forall_prop_of_true hpublic]
  refine forall_congr' fun hsize => ?_
  have hkey : key.length < UInt32.size := by
    rw [UInt32.size]
    omega
  rw [hksCoreCheckImportKeyParams, confined_bind, confined_checked]
  refine forall_congr' fun params => ?_
  constructor
  case mp =>
    intro h alg format hparams halg hformat
    have hcheck := h hparams
    rw [confined_bind, confined_checked] at hcheck
    have hcheck := hcheck alg halg
    have hasymmetric : alg ∉ symmetricImportAlg := fun hmem => by cases (symmetric_noFormat hmem).symm.trans hformat
    rw [if_neg hasymmetric, publicImport_check hpublic hformat,
      materialHeld_iff (checkAndGetImportAlg_eq halg) hformat hkey] at hcheck
    exact hcheck
  case mpr =>
    intro h hparams
    rw [confined_bind, confined_checked]
    intro alg halg
    cases hformat : KeyFormat.ofAlg alg
    case none =>
      rw [if_pos (symmetric_of_none halg hformat), confined_checked]
      exact fun _ _ _ => materialHeld_of_none (checkAndGetImportAlg_eq halg) hformat
    case some format =>
      have hasymmetric : alg ∉ symmetricImportAlg := fun hmem => by cases (symmetric_noFormat hmem).symm.trans hformat
      rw [if_neg hasymmetric, publicImport_check hpublic hformat,
        materialHeld_iff (checkAndGetImportAlg_eq halg) hformat hkey]
      exact h alg format hparams halg hformat

theorem importKey_iff : ImportHolds lib env paramSet key ↔ ImportSafe lib env paramSet key := by
  by_cases hpublic : PublicImport paramSet
  case pos => exact publicImport_iff hpublic
  case neg =>
    refine iff_of_true ?_ fun h => absurd h hpublic
    have ⟨keyType, htype, hne⟩ : ∃ keyType, getUInt32 paramSet HksTag.importKeyType = .ok keyType ∧
        keyType ≠ HksImportKeyType.publicKey := by
      simpa [PublicImport] using hpublic
    rw [ImportHolds, coreImportKey, confined_bind]
    refine importInnerKey_small.mono fun inner _ hsmall => ?_
    rw [confined_bind]
    exact (checkedImport_holds htype hne hsmall).mono fun _ _ hheld => confined_build.mpr fun _ => hheld

-- Checks that only look at the key size
def checkKeySizeParams (paramSet : HksParamSet) : Except HksErrorCode ParamsValues := do
  let alg ← getUInt32 paramSet HksTag.algorithm
  let keyLen ← getUInt32 paramSet HksTag.keySize
  if ∀ sizes, expectKeyLen alg = some sizes → keyLen ∈ sizes then
    return { needs true false false false false with keyLen := { needCheck := true, value := keyLen } }
  else
    throw .invalidKeySize

def keySizeImportEnv : ImportEnv where
  supportAlg _                 := true
  coreCheckGenKeyParams        := checkKeySizeParams
  checkImportMutableParams _ _ := .ok ⟨⟩
  buildKeyBlob _               := .ok ⟨⟩
  keyLen_expected              := by
    intro paramSet params alg sizes hparams halg hsizes
    obtain ⟨alg', halg', h⟩ := bind_eq_ok.mp hparams
    obtain ⟨keyLen, _, h⟩ := bind_eq_ok.mp h
    rw [Except.ok.inj (halg'.symm.trans halg)] at h
    split at h
    case isTrue hmem => exact Except.ok.inj h ▸ hmem sizes hsizes
    case isFalse => nomatch h

def rsaPublicParamSet : HksParamSet where
  paramSetSize := 152
  params       := [.ofUInt32 HksTag.algorithm HksKeyAlg.rsa, .ofUInt32 HksTag.keySize 2048,
    .ofUInt32 HksTag.purpose HksKeyPurpose.verify, .ofUInt32 HksTag.digest HksKeyDigest.sha256,
    .ofUInt32 HksTag.padding HksKeyPadding.pss, .ofUInt32 HksTag.importKeyType HksImportKeyType.publicKey]
  area         := []

-- The library reads the sizes of a public RSA key of one byte, of which only the first byte is there.
theorem importKey_overreads : ¬ImportHolds acceptingOpenSsl keySizeImportEnv rsaPublicParamSet [0] := by
  have hrun : coreImportKey acceptingOpenSsl keySizeImportEnv rsaPublicParamSet [0] = .error .outside := rfl
  rw [ImportHolds, hrun]
  exact id

end Import

end Huks
