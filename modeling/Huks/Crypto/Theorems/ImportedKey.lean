import Huks.Crypto.Theorems.AgreeKey
import Huks.Crypto.Theorems.ImportKey

namespace Huks

open Except (bind_eq_ok orError_eq_ok)

section Use

variable {lib : OpenSsl} {key : Bytes}

-- The material passes the checks that are made of it when the key is used.
def UseAccepts (alg keyType : UInt32) (key : Bytes) : KeyFormat → Prop
  | .rsa        => rsaCheckKeyMaterial key = .ok ⟨⟩
  | .ecc        =>
    if alg = HksKeyAlg.sm2 then
      getSm2Modules key = .ok ⟨⟩
    else
      eccKeySize (keyWord key 1) ∧
        (part key (20 + (keyWord key 2).toNat + (keyWord key 3).toNat) (keyWord key 4)).isSome
  | .dsa        => ∃ dsa, initDsaStruct key true = .ok dsa
  | .dh         => ∃ dh, initDhStruct key = .ok (some dh)
  | .curve25519 => (∃ raw, curve25519PrivateKey key = .ok (some raw)) ∧
    (keyType = HksImportKeyType.keyPair → ∃ raw, curve25519PublicKey key = .ok (some raw))

theorem rsaCheckKeyMaterial_ok (h : 20 ≤ key.length) : rsaCheckKeyMaterial key = .ok ⟨⟩ ↔
    keyWord key 0 = HksKeyAlg.rsa ∧
      key.length = 20 + (keyWord key 2).toNat + (keyWord key 3).toNat + (keyWord key 4).toNat := by
  refine eq_ok_iff fun S => ?_
  simp only [rsaCheckKeyMaterial, confined_bind, confined_ite, confined_throw, confined_readWord, confined_pure,
    implies_true, true_and, not_not, ne_eq]
  constructor
  case mp =>
    rintro h ⟨halg, hlen⟩
    exact (h.2 halg).2.2.2 hlen
  case mpr => exact fun hs => ⟨by omega, fun halg => ⟨by omega, by omega, by omega, fun hlen => hs ⟨halg, hlen⟩⟩⟩

theorem getSm2Modules_ok (h : 20 ≤ key.length) : getSm2Modules key = .ok ⟨⟩ ↔
    keyWord key 1 = 256 ∧ (∀ i ∈ [2, 3, 4], keyWord key i ≤ 32) ∧
      key.length = 20 + (keyWord key 2).toNat + (keyWord key 3).toNat + (keyWord key 4).toNat := by
  refine eq_ok_iff fun S => ?_
  have hne : key ≠ [] := List.ne_nil_of_length_pos (by omega)
  have hbytes : hksKeyBytes 256 = 32 := by decide
  simp only [getSm2Modules, confined_bind, confined_ite, confined_throw, confined_readWord, confined_pure,
    implies_true, true_and, not_or, not_not, ne_eq, UInt32.not_lt, List.forall_mem_cons]
  constructor
  case mp =>
    rintro h' ⟨hsize, ⟨hx, hy, hz, _⟩, hlen⟩
    refine (h' ⟨hne, by omega⟩).2.2.2.2 ⟨hsize, ?_, ?_, ?_, hlen⟩ <;> rwa [hsize, hbytes]
  case mpr =>
    refine fun hs _ => ⟨by omega, by omega, by omega, by omega, ?_⟩
    rintro ⟨hsize, hx, hy, hz, hlen⟩
    refine hs ?_
    rw [hsize, hbytes] at hx hy hz
    exact ⟨hsize, ⟨hx, hy, hz, fun _ h => by cases h⟩, hlen⟩

theorem initDsaStruct_ok (h : KeyFormat.dsa.Fits key) (hkey : key.length < UInt32.size) :
    (∃ dsa, initDsaStruct key true = .ok dsa) ↔ DsaAccepted key true :=
  exists_ok_iff fun _ => confined_initDsaStruct h hkey true

theorem initDhStruct_ok (h : 16 ≤ key.length) (hkey : key.length < UInt32.size) :
    (∃ dh, initDhStruct key = .ok (some dh)) ↔ (dhKey key).isSome := by
  have hvalue : initDhStruct key = .ok (dhKey key) := eq_ok_of_confined fun Q => by
    rw [confined_initDhStruct key hkey]
    exact and_iff_right h
  rw [hvalue, Option.isSome_iff_exists]
  exact exists_congr fun dh => ⟨Except.ok.inj, congrArg _⟩

theorem curve25519_ok (h : KeyFormat.curve25519.Fits key) :
    ((∃ raw, curve25519PrivateKey key = .ok (some raw)) ↔ (keyWord key 3).toNat = curve25519KeyLen) ∧
      ((∃ raw, curve25519PublicKey key = .ok (some raw)) ↔ (keyWord key 2).toNat = curve25519KeyLen) := by
  have ⟨hlen, _⟩ := h.curve25519_le
  have hprivate : curve25519PrivateKey key = .ok (rawKey key (20 + keyWord key 2).toNat (keyWord key 3)) :=
    eq_ok_of_confined fun Q => by
      simp only [curve25519PrivateKey, confined_bind, confined_readWord, confined_evpPkeyNewRawKey]
      exact ⟨fun hq => hq.2.2.2, fun hq => ⟨by omega, by omega, h.curve25519Inside.1, hq⟩⟩
  have hpublic : curve25519PublicKey key = .ok (rawKey key 20 (keyWord key 2)) :=
    eq_ok_of_confined fun Q => by
      simp only [curve25519PublicKey, confined_bind, confined_readWord, confined_evpPkeyNewRawKey]
      exact ⟨fun hq => hq.2.2, fun hq => ⟨by omega, h.curve25519Inside.2, hq⟩⟩
  have hsome {o : Option Bytes} : (∃ raw, (.ok o : Except (Stop HksErrorCode) (Option Bytes)) = .ok (some raw)) ↔
      o.isSome := by
    rw [Option.isSome_iff_exists]
    exact exists_congr fun raw => ⟨Except.ok.inj, congrArg _⟩
  rw [hprivate, hpublic, hsome, hsome]
  exact ⟨rawKey_isSome, rawKey_isSome⟩

end Use

section Import

variable (lib : OpenSsl) (env : ImportEnv) (paramSet : HksParamSet) (key : Bytes)

-- The material of a private key or a key pair passes the checks of its use, and no agreement asks
-- for the size of a DH key that could not be built.
def MaterialUsable (keyType : UInt32) (inner : Bytes) : Prop :=
  ∀ alg format, getUInt32 paramSet HksTag.algorithm = .ok alg → KeyFormat.ofAlg alg = some format →
    UseAccepts alg keyType inner format ∧ (format = .dh → ∀ peer keyLen sharedSize, KeyFormat.dh.Fits peer →
      Inside (hksOpensslDhAgreeKey lib inner peer keyLen sharedSize))

def ImportUsable : Prop :=
  ∀ keyType, getUInt32 paramSet HksTag.importKeyType = .ok keyType →
    keyType = HksImportKeyType.privateKey ∨ keyType = HksImportKeyType.keyPair →
    Confined (MaterialUsable lib paramSet keyType) (coreImportKey lib env paramSet key)

-- The number of a DH key pair, and the exponent of an RSA key pair, are secure ones.
def PairSecure : KeyFormat → Prop
  | .dh  => ∃ dh pub, dhKey key = some dh ∧ part key 20 (keyWord key 2) = some pub ∧
    ¬(pub = 0 ∨ pub = 1 ∨ pub = lib.dhPrime dh.keySize ∨ pub = lib.dhPrime dh.keySize - 1)
  | .rsa => PublicSecure lib key .rsa
  | _    => True

-- The sizes that the use of the key asks for, beyond what the import has checked
def SizesExact (alg keyType : UInt32) (key : Bytes) : KeyFormat → Prop
  | .rsa        => key.length = 20 + (keyWord key 2).toNat + (keyWord key 3).toNat + (keyWord key 4).toNat
  | .ecc        => alg = HksKeyAlg.sm2 → (∀ i ∈ [2, 3, 4], keyWord key i ≤ 32) ∧
    key.length = 20 + (keyWord key 2).toNat + (keyWord key 3).toNat + (keyWord key 4).toNat
  | .dsa        => DsaAccepted key true
  | .dh         => keyType = HksImportKeyType.privateKey → DhExact key
  | .curve25519 => keyType = HksImportKeyType.keyPair →
    (keyWord key 2).toNat = curve25519KeyLen ∧ (keyWord key 3).toNat = curve25519KeyLen

-- A key that the checks of its import let pass has these sizes.
def ImportExact : Prop :=
  ∀ keyType, getUInt32 paramSet HksTag.importKeyType = .ok keyType →
    keyType = HksImportKeyType.privateKey ∨ keyType = HksImportKeyType.keyPair → ∀ params alg format,
    key.length ≤ 2048 → env.coreCheckGenKeyParams paramSet = .ok params →
    checkAndGetImportAlg env paramSet = .ok alg → KeyFormat.ofAlg alg = some format →
    KeyLenOk alg keyType params key format → checkMutableParams alg keyType params = .ok ⟨⟩ →
    (keyType = HksImportKeyType.keyPair → PairSecure lib key format) → env.buildKeyBlob key = .ok ⟨⟩ →
      SizesExact alg keyType key format

variable {lib env paramSet key}

theorem confined_checkKeyPair {alg : UInt32} {format : KeyFormat} (hformat : KeyFormat.ofAlg alg = some format)
    (hfits : format.Fits key) (hkey : key.length < UInt32.size) {S : Prop} :
    Confined (fun _ => S) (opensslCheckImportKey lib alg HksImportKeyType.keyPair key) ↔
      (PairSecure lib key format → S) := by
  have hpair : HksImportKeyType.keyPair ≠ HksImportKeyType.privateKey := by decide
  rw [opensslCheckImportKey, if_neg hpair]
  cases format
  case dh =>
    obtain ⟨hlen, hsizes⟩ := hfits.dh_le
    have hpart : PartInside key 20 (keyWord key 2) := .inr (.inr (by omega))
    have hcheck : hksOpensslCheckDhKey lib key HksImportKeyType.keyPair =
        notNull .cryptoEngineError (initDhStruct key) >>= hksOpensslDhCheckPubKey lib key := rfl
    rw [if_pos ((ofAlg_dh hformat).mpr rfl), hcheck]
    simp only [hksOpensslDhCheckPubKey, confined_bind, confined_notNull, confined_initDhStruct key hkey,
      confined_readWord, confined_bnBin2bn, confined_ite, confined_throw, confined_pure, implies_true, true_and,
      hpart, PairSecure]
    constructor
    case mp =>
      rintro h ⟨dh, pub, hdh, hpub, hsecure⟩
      exact (h.2 dh hdh).2 pub hpub hsecure
    case mpr =>
      exact fun h => ⟨by omega, fun dh hdh => ⟨by omega, fun pub hpub hsecure => h ⟨dh, pub, hdh, hpub, hsecure⟩⟩⟩
  case rsa =>
    obtain ⟨hheader, hsizes⟩ := hfits
    simp only [KeyFormat.declaredSize, KeyFormat.headerSize, KeyFormat.sizeWords, List.map_cons, List.map_nil,
      List.sum_cons, List.sum_nil] at hheader hsizes
    rw [if_neg (by rw [ofAlg_dh hformat]; intro h; cases h), if_pos ((ofAlg_rsa hformat).mpr rfl)]
    refine (@confined_checkRsaKey lib _ _).trans (and_iff_right ?_)
    exact ⟨by omega, .inr (.inr (by omega))⟩
  all_goals
    rw [if_neg (by rw [ofAlg_dh hformat]; intro h; cases h), if_neg (by rw [ofAlg_rsa hformat]; intro h; cases h)]
    exact ⟨fun h _ => h, fun h => h trivial⟩

-- The key with the default exponent, as `appendRsaPublicExponent` writes it
def withExponent (key : Bytes) : Bytes :=
  slice key 0 12 ++ toBytes32 3 ++ slice key 16 4 ++ slice key 20 (keyWord key 2).toNat ++ [1, 0, 1] ++
    slice key (20 + (keyWord key 2).toNat) (keyWord key 4).toNat

-- What `getPrivateOrPairInnerFormat` makes of a key
inductive InnerOf (alg keyType : UInt32) (key : Bytes) : KeyFormat → Bytes → Prop
  | copied {format} (hsize : key.length ≤ 2048)
      (hrsa : format = .rsa → RsaMaterialOk keyType key ∧
        ¬(keyType = HksImportKeyType.privateKey ∧ keyWord key 3 = 0))
      (hcurve : format = .curve25519 → keyType = HksImportKeyType.keyPair) : InnerOf alg keyType key format key
  | exponent (hok : RsaMaterialOk keyType key) (hprivate : keyType = HksImportKeyType.privateKey)
      (hzero : keyWord key 3 = 0) : InnerOf alg keyType key .rsa (withExponent key)
  | raw (hprivate : keyType = HksImportKeyType.privateKey) (hsize : key.length = 32) :
      InnerOf alg keyType key .curve25519 ([alg, 256, 0, 32, 0].flatMap toBytes32 ++ key)

theorem confined_copy {Q : Bytes → Prop} :
    Confined Q (checked (copyToInnerKey key) : Except (Stop HksErrorCode) Bytes) ↔
      (key ≠ [] → key.length ≤ 2048 → Q key) := by
  rw [confined_checked]
  constructor
  case mp => exact fun h hne hsize => h key (copyToInnerKey_ok.mpr ⟨⟨hne, hsize⟩, rfl⟩)
  case mpr =>
    intro h inner hinner
    have ⟨⟨hne, hsize⟩, heq⟩ := copyToInnerKey_ok.mp hinner
    exact heq ▸ h hne hsize

theorem confined_rsaInnerFormat {keyType : UInt32} {Q : Bytes → Prop} :
    Confined Q (getRsaPrivateOrPairInnerFormat keyType key) ↔ (RsaMaterialOk keyType key →
      (keyType = HksImportKeyType.privateKey ∧ keyWord key 3 = 0 → Q (withExponent key)) ∧
        (¬(keyType = HksImportKeyType.privateKey ∧ keyWord key 3 = 0) → key.length ≤ 2048 → Q key)) := by
  rw [getRsaPrivateOrPairInnerFormat, confined_bind, confined_checkRsaKeyMaterialLen]
  refine forall_congr' fun hok => ?_
  have hfits := hok.fits
  have hne : key ≠ [] := List.ne_nil_of_length_pos (by omega)
  have hmalloc : mallocOk (20 + keyWord key 2 + keyWord key 4 + 3).toNat := by
    have hn := UInt32.le_iff_toNat_le.mp hok.nSize.1
    have hd := UInt32.le_iff_toNat_le.mp hok.dSize.1
    simp only [UInt32.reduceToNat] at hn hd
    simp only [mallocOk_iff, UInt32.toNat_add, UInt32.reduceToNat]
    omega
  rw [confined_bind, confined_readWord, confined_ite, confined_appendRsaPublicExponent hok, confined_copy,
    forall_prop_of_true hmalloc, forall_prop_of_true hne]
  exact and_iff_right (by omega)

theorem confined_innerFormat {alg keyType : UInt32} {format : KeyFormat}
    (halg : getUInt32 paramSet HksTag.algorithm = .ok alg) (hformat : KeyFormat.ofAlg alg = some format)
    (hkt : keyType = HksImportKeyType.privateKey ∨ keyType = HksImportKeyType.keyPair) {Q : Bytes → Prop} :
    Confined Q (getPrivateOrPairInnerFormat keyType key paramSet) ↔
      (key ≠ [] → ∀ inner, InnerOf alg keyType key format inner → Q inner) := by
  have halg : (getUInt32 paramSet HksTag.algorithm).orError .checkGetAlgFail = .ok alg := orError_eq_ok.mpr halg
  have hcopied (hrsa : format ≠ .rsa) (hcurve : format ≠ .curve25519) (hne : key ≠ []) :
      Confined Q (checked (copyToInnerKey key) : Except (Stop HksErrorCode) Bytes) ↔
        ∀ inner, InnerOf alg keyType key format inner → Q inner := by
    rw [confined_copy, forall_prop_of_true hne]
    constructor
    case mp =>
      intro h inner hinner
      cases hinner
      case copied hsize _ _ => exact h hsize
      case exponent => exact absurd rfl hrsa
      case raw => exact absurd rfl hcurve
    case mpr => exact fun h hsize => h key (.copied hsize (fun h => absurd h hrsa) fun h => absurd h hcurve)
  by_cases hne : key = []
  case pos =>
    rw [getPrivateOrPairInnerFormat, if_pos hne]
    exact iff_of_true trivial fun h => absurd hne h
  case neg =>
    rw [getPrivateOrPairInnerFormat, if_neg hne, halg, forall_prop_of_true hne]
    change Confined Q (if alg = HksKeyAlg.rsa then _ else if _ then _ else if _ then _ else _) ↔ _
    rw [KeyFormat.ofAlg] at hformat
    split_ifs at hformat with hrsa hecc hdsa hdh hcurve
    all_goals obtain rfl := Option.some.inj hformat
    · rw [if_pos hrsa, confined_rsaInnerFormat]
      constructor
      case mp =>
        intro h inner hinner
        cases hinner
        case copied hsize hok _ => exact (h (hok rfl).1).2 (hok rfl).2 hsize
        case exponent hok hprivate hzero => exact (h hok).1 ⟨hprivate, hzero⟩
      case mpr =>
        exact fun h hok => ⟨fun hzero => h _ (.exponent hok hzero.1 hzero.2),
          fun hzero hsize => h _ (.copied hsize (fun _ => ⟨hok, hzero⟩) (fun h => by cases h))⟩
    · rw [if_neg hrsa, if_pos (by obtain rfl | rfl := hecc <;> decide)]
      exact hcopied (fun h => by cases h) (fun h => by cases h) hne
    · rw [if_neg hrsa, if_pos (by rw [hdsa]; decide)]
      exact hcopied (fun h => by cases h) (fun h => by cases h) hne
    · rw [if_neg hrsa, if_pos (by rw [hdh]; decide)]
      exact hcopied (fun h => by cases h) (fun h => by cases h) hne
    · have halg8 : alg.toUInt8.toUInt32 = alg := by obtain rfl | rfl := hcurve <;> decide
      rw [if_neg hrsa, if_neg (by obtain rfl | rfl := hcurve <;> decide), if_pos hcurve, halg8,
        getCurve25519PrivateOrPairInnerFormat]
      obtain rfl | rfl := hkt
      · rw [if_neg (by decide), confined_ite, confined_checked]
        have hraw (hsize : key.length = 32) : innerKey .mallocFail (20 + key.size) [alg, 256, 0, key.size, 0] key =
            .ok ([alg, 256, 0, 32, 0].flatMap toBytes32 ++ key) := by
          have hkey : key.size = 32 := by rw [Bytes.size, hsize]; rfl
          rw [innerKey, hkey]
          exact if_pos (by decide)
        constructor
        case mp =>
          intro h inner hinner
          cases hinner
          case copied _ _ hpair => exact absurd (hpair rfl) (by decide)
          case raw _ hsize => exact h.2 (not_not.mpr hsize) _ (hraw hsize)
        case mpr =>
          refine fun h => ⟨fun _ => trivial, fun hsize inner hinner => ?_⟩
          rw [hraw (not_not.mp hsize)] at hinner
          exact Except.ok.inj hinner ▸ h _ (.raw rfl (not_not.mp hsize))
      · rw [if_pos rfl, confined_copy, forall_prop_of_true hne]
        constructor
        case mp =>
          intro h inner hinner
          cases hinner
          case copied hsize _ _ => exact h hsize
          case raw hprivate _ => exact absurd hprivate (by decide)
        case mpr => exact fun h hsize => h key (.copied hsize (fun h => by cases h) fun _ => rfl)

theorem withExponent_eq (h : 20 ≤ key.length) : withExponent key =
    [keyWord key 0, keyWord key 1, keyWord key 2, 3, keyWord key 4].flatMap toBytes32 ++
      (slice key 20 (keyWord key 2).toNat ++ [1, 0, 1] ++
        slice key (20 + (keyWord key 2).toNat) (keyWord key 4).toNat) := by
  have hhead : slice key 0 12 =
      toBytes32 (keyWord key 0) ++ toBytes32 (keyWord key 1) ++ toBytes32 (keyWord key 2) := by
    have htake := take_words key 3 (by omega)
    rw [slice, List.drop_zero, htake]
    rfl
  have hlast : slice key 16 4 = toBytes32 (keyWord key 4) := (toBytes32_keyWord (i := 4) (by omega)).symm
  rw [withExponent, hhead, hlast]
  simp only [List.flatMap_cons, List.flatMap_nil, List.append_assoc, List.nil_append]

-- A key with the default exponent is as long as its header says.
theorem withExponent_exact {alg keyType : UInt32} (hok : RsaMaterialOk keyType key) :
    SizesExact alg keyType (withExponent key) .rsa := by
  have hfits := hok.fits
  have hn : (slice key 20 (keyWord key 2).toNat).length = (keyWord key 2).toNat := length_slice (by omega)
  have hd : (slice key (20 + (keyWord key 2).toNat) (keyWord key 4).toNat).length = (keyWord key 4).toNat :=
    length_slice (by omega)
  rw [SizesExact, withExponent_eq (by omega), keyWord_header (by simp), keyWord_header (by simp),
    keyWord_header (by simp)]
  simp only [List.length_append, length_flatMap_toBytes32, hn, hd, List.length_cons, List.length_nil,
    List.getElem_cons_succ, List.getElem_cons_zero, UInt32.reduceToNat]
  omega

section Usable

variable {params : ParamsValues} {alg keyType : UInt32} {format : KeyFormat}

theorem dhKey_isSome (hsize : dhKeySize (keyWord key 1)) (hpub : keyWord key 2 ≤ 4096) :
    (dhKey key).isSome ↔ DhExact key := by
  have hpart : part key 20 (keyWord key 2) = some (bigEndian (slice key 20 (keyWord key 2).toNat)) :=
    if_neg (by have := UInt32.le_iff_toNat_le.mp hpub; simp only [UInt32.reduceToNat] at this; omega)
  rw [dhKey, hpart]
  split
  case isTrue h => exact iff_of_true rfl h.1
  case isFalse h => exact iff_of_false (fun h => by cases h) fun hexact => h ⟨hexact, hsize⟩

theorem dhAgreeKey_inside (hkey : key.length < UInt32.size) (hlen : 16 ≤ key.length) (hsome : (dhKey key).isSome)
    {peer : Bytes} (hpeer : KeyFormat.dh.Fits peer) (keyLen sharedSize : UInt32) :
    Inside (hksOpensslDhAgreeKey lib key peer keyLen sharedSize) := by
  have ⟨hpeerLen, hsizes⟩ := hpeer.dh_le
  rw [inside_iff_confined, confined_dhAgreeKey lib key peer keyLen sharedSize hkey]
  exact fun _ => ⟨⟨by omega, .inr (.inr (by omega))⟩, fun _ => ⟨hlen, hsome, fun _ => trivial⟩⟩

section Accepted

variable (hparams : env.coreCheckGenKeyParams paramSet = .ok params)
  (halg : getUInt32 paramSet HksTag.algorithm = .ok alg) (hformat : KeyFormat.ofAlg alg = some format)
  (hok : KeyLenOk alg keyType params key format)
include hparams halg hok

theorem eccUse_iff (hecc : format = .ecc) (hformat : KeyFormat.ofAlg alg = some format) :
    UseAccepts alg keyType key .ecc ↔ SizesExact alg keyType key .ecc := by
  subst hecc
  have hexpected {sizes : List UInt32} (h : expectKeyLen alg = some sizes) : params.keyLen.value ∈ sizes :=
    env.keyLen_expected hparams halg h
  have hok : KeyLenAccepted alg keyType params key .ecc 521 [4] [2, 3] := hok
  rw [UseAccepts, SizesExact]
  by_cases hsm2 : alg = HksKeyAlg.sm2
  case pos =>
    have hsize : keyWord key 1 = 256 := by
      rw [hok.keyLen]
      exact List.mem_singleton.mp (hexpected (by rw [hsm2]; decide))
    rw [if_pos hsm2, getSm2Modules_ok hok.header, and_iff_right hsize, forall_prop_of_true hsm2]
  case neg =>
    have halg : alg = HksKeyAlg.ecc := by
      rw [KeyFormat.ofAlg] at hformat
      split_ifs at hformat with _ h
      all_goals first | exact h.resolve_right hsm2 | cases hformat
    have hsize : eccKeySize (keyWord key 1) := by
      rw [hok.keyLen, eccKeySize, List.contains_iff_mem]
      exact hexpected (by rw [halg]; decide)
    have hpart : (part key (20 + (keyWord key 2).toNat + (keyWord key 3).toNat) (keyWord key 4)).isSome := by
      have hz := UInt32.le_iff_toNat_le.mp (hok.max 4 (by decide))
      simp only [UInt32.reduceToNat] at hz
      rw [part, if_neg (by omega)]
      rfl
    rw [if_neg hsm2]
    exact iff_of_true ⟨hsize, hpart⟩ fun h => absurd h hsm2

theorem dhUse_iff (hdh : format = .dh) (halgDh : alg = HksKeyAlg.dh) (hkey : key.length < UInt32.size)
    (hkt : keyType = HksImportKeyType.privateKey ∨ keyType = HksImportKeyType.keyPair)
    (hsecure : keyType = HksImportKeyType.keyPair → PairSecure lib key .dh) :
    (UseAccepts alg keyType key .dh ∧ ∀ peer keyLen sharedSize, KeyFormat.dh.Fits peer →
      Inside (hksOpensslDhAgreeKey lib key peer keyLen sharedSize)) ↔ SizesExact alg keyType key .dh := by
  subst hdh
  have hok : KeyLenAccepted alg keyType params key .dh 4096 [3] [2] := hok
  have hlen : 20 ≤ key.length := hok.header
  have hsize : dhKeySize (keyWord key 1) := by
    rw [hok.keyLen, dhKeySize, List.contains_iff_mem]
    exact env.keyLen_expected hparams halg (by rw [halgDh]; decide)
  have hsome := dhKey_isSome hsize (hok.max 2 (by decide))
  have hagree : (dhKey key).isSome → ∀ peer keyLen sharedSize, KeyFormat.dh.Fits peer →
      Inside (hksOpensslDhAgreeKey lib key peer keyLen sharedSize) :=
    fun hkeySome peer keyLen sharedSize hpeer => dhAgreeKey_inside hkey (by omega) hkeySome hpeer keyLen sharedSize
  rw [UseAccepts, SizesExact, initDhStruct_ok (by omega) hkey]
  constructor
  case mp => exact fun h _ => hsome.mp h.1
  case mpr =>
    intro h
    have hkeySome : (dhKey key).isSome := by
      obtain hprivate | hpair := hkt
      · exact hsome.mpr (h hprivate)
      · obtain ⟨dh, _, hdh, _⟩ := hsecure hpair
        exact hdh ▸ rfl
    exact ⟨hkeySome, hagree hkeySome⟩

end Accepted

-- What passes the checks of the import is usable when its sizes are exact.
theorem materialUsable_iff (hkt : keyType = HksImportKeyType.privateKey ∨ keyType = HksImportKeyType.keyPair)
    (hparams : env.coreCheckGenKeyParams paramSet = .ok params)
    (halg : getUInt32 paramSet HksTag.algorithm = .ok alg) (hformat : KeyFormat.ofAlg alg = some format)
    (hok : KeyLenOk alg keyType params key format) (hkey : key.length < UInt32.size)
    (hsecure : keyType = HksImportKeyType.keyPair → PairSecure lib key format)
    (hcurve : format = .curve25519 → keyType = HksImportKeyType.privateKey →
      (keyWord key 3).toNat = curve25519KeyLen) :
    MaterialUsable lib paramSet keyType key ↔ SizesExact alg keyType key format := by
  have husable : MaterialUsable lib paramSet keyType key ↔ UseAccepts alg keyType key format ∧ (format = .dh →
      ∀ peer keyLen sharedSize, KeyFormat.dh.Fits peer →
        Inside (hksOpensslDhAgreeKey lib key peer keyLen sharedSize)) := by
    constructor
    case mp => exact fun h => h alg format halg hformat
    case mpr =>
      intro h alg' format' halg' hformat'
      rw [Except.ok.inj (halg'.symm.trans halg)] at hformat' ⊢
      rwa [Option.some.inj (hformat'.symm.trans hformat)]
  have hfits := hok.fits
  rw [husable]
  cases format
  case rsa =>
    have halgRsa := (ofAlg_rsa hformat).mpr rfl
    rw [and_iff_left (fun h => by cases h), UseAccepts, rsaCheckKeyMaterial_ok hfits.1, SizesExact]
    exact and_iff_right (hok.alg.trans halgRsa)
  case ecc =>
    rw [and_iff_left (fun h => by cases h)]
    exact eccUse_iff hparams halg hok rfl hformat
  case dsa =>
    rw [and_iff_left (fun h => by cases h), UseAccepts, SizesExact]
    exact initDsaStruct_ok hfits hkey
  case dh =>
    rw [forall_prop_of_true rfl]
    exact dhUse_iff hparams halg hok rfl ((ofAlg_dh hformat).mpr rfl) hkey hkt hsecure
  case curve25519 =>
    rw [and_iff_left (fun h => by cases h), UseAccepts, SizesExact, (curve25519_ok hfits).1, (curve25519_ok hfits).2]
    obtain rfl | rfl := hkt
    · exact iff_of_true ⟨hcurve rfl rfl, fun h => absurd h (by decide)⟩ fun h => absurd h (by decide)
    · exact ⟨fun h _ => ⟨h.2 rfl, h.1⟩, fun h => ⟨(h rfl).2, fun _ => (h rfl).1⟩⟩

end Usable

-- The checks of a private key or a key pair
theorem confined_importChecks {keyType alg : UInt32} {format : KeyFormat} {S : Prop}
    (htype : getUInt32 paramSet HksTag.importKeyType = .ok keyType)
    (hkt : keyType = HksImportKeyType.privateKey ∨ keyType = HksImportKeyType.keyPair)
    (halg : getUInt32 paramSet HksTag.algorithm = .ok alg) (hformat : KeyFormat.ofAlg alg = some format)
    (hkey : key.length < UInt32.size) :
    Confined (fun _ => S) (hksCoreCheckImportKeyParams lib env paramSet key) ↔
      ∀ params, env.coreCheckGenKeyParams paramSet = .ok params → checkAndGetImportAlg env paramSet = .ok alg →
        KeyLenOk alg keyType params key format → checkMutableParams alg keyType params = .ok ⟨⟩ →
        (keyType = HksImportKeyType.keyPair → PairSecure lib key format) → S := by
  have hne : keyType ≠ HksImportKeyType.publicKey := by obtain rfl | rfl := hkt <;> decide
  have hasymmetric : alg ∉ symmetricImportAlg := fun hmem => nomatch (symmetric_noFormat hmem).symm.trans hformat
  have hlibrary (hfits : format.Fits key) : Confined (fun _ => S) (opensslCheckImportKey lib alg keyType key) ↔
      ((keyType = HksImportKeyType.keyPair → PairSecure lib key format) → S) := by
    obtain rfl | rfl := hkt
    · rw [opensslCheckImportKey, if_pos rfl]
      exact ⟨fun h _ => h, fun h => h fun hpair => absurd hpair (by decide)⟩
    · rw [confined_checkKeyPair hformat hfits hkey, forall_prop_of_true rfl]
  have hchecks (params : ParamsValues) :
      Confined (fun _ => S) (checkImportAsymmetricKey lib env paramSet alg params key) ↔
        (KeyLenOk alg keyType params key format → checkMutableParams alg keyType params = .ok ⟨⟩ →
          (keyType = HksImportKeyType.keyPair → PairSecure lib key format) → S) := by
    rw [checkImportAsymmetricKey, htype]
    dsimp only
    rw [if_neg hne, confined_bind, checkImportKey, confined_bind, confined_checkKeyLen hformat]
    refine forall_congr' fun hok => ?_
    rw [confined_checked, ← hlibrary hok.fits]
    exact ⟨fun h hmutable => h ⟨⟩ hmutable, fun h _ hmutable => h hmutable⟩
  rw [hksCoreCheckImportKeyParams, confined_bind, confined_checked]
  refine forall_congr' fun params => forall_congr' fun _ => ?_
  rw [confined_bind, confined_checked]
  constructor
  case mp =>
    intro h hgot
    have h := h alg hgot
    rwa [if_neg hasymmetric, hchecks] at h
  case mpr =>
    intro h alg' hgot
    obtain rfl := Except.ok.inj ((checkAndGetImportAlg_eq hgot).symm.trans halg)
    rw [if_neg hasymmetric, hchecks]
    exact h hgot

theorem innerOf_small {alg keyType : UInt32} {format : KeyFormat} {inner : Bytes}
    (h : InnerOf alg keyType key format inner) : inner.length < UInt32.size := by
  rw [UInt32.size]
  cases h
  case copied hsize _ _ => omega
  case exponent hok _ _ =>
    have hn := UInt32.le_iff_toNat_le.mp hok.nSize.1
    have hd := UInt32.le_iff_toNat_le.mp hok.dSize.1
    simp only [UInt32.reduceToNat] at hn hd
    simp only [withExponent, List.length_append, slice, List.length_take, length_toBytes32, List.length_cons,
      List.length_nil]
    omega
  case raw _ hsize =>
    simp only [List.length_append, length_flatMap_toBytes32, List.length_cons, List.length_nil, hsize]
    omega

-- A private key of Curve25519 has been taken as it is, with its size in the header.
theorem innerOf_curve25519 {alg keyType : UInt32} {format : KeyFormat} {inner : Bytes}
    (h : InnerOf alg keyType key format inner) (hcurve : format = .curve25519)
    (hprivate : keyType = HksImportKeyType.privateKey) : (keyWord inner 3).toNat = curve25519KeyLen := by
  cases h
  case copied _ _ hpair => exact absurd ((hpair hcurve).symm.trans hprivate) (by decide)
  case exponent => nomatch hcurve
  case raw =>
    rw [keyWord_header (by simp)]
    rfl

-- The key that has been checked has exact sizes: the import wrote its header itself, or the key is
-- the one that it was given.
theorem innerOf_exact {alg keyType : UInt32} {format : KeyFormat} {params : ParamsValues}
    {P : Bytes → Prop} (hkt : keyType = HksImportKeyType.privateKey ∨ keyType = HksImportKeyType.keyPair) :
    (key ≠ [] → ∀ inner, InnerOf alg keyType key format inner → KeyLenOk alg keyType params inner format →
        P inner → SizesExact alg keyType inner format) ↔
      (key.length ≤ 2048 → KeyLenOk alg keyType params key format → P key → SizesExact alg keyType key format) := by
  constructor
  case mp =>
    intro h hsize hok hP
    have hfits := hok.fits
    have hheader : 20 ≤ format.headerSize := by cases format <;> decide
    have hne : key ≠ [] := List.ne_nil_of_length_pos (by have := hfits.1; omega)
    by_cases hraw : format = .curve25519 ∧ keyType = HksImportKeyType.privateKey
    case pos =>
      obtain ⟨rfl, hprivate⟩ := hraw
      exact fun hpair => absurd (hprivate.symm.trans hpair) (by decide)
    case neg =>
      refine h hne key (.copied hsize ?_ fun hcurve => hkt.resolve_left fun hp => hraw ⟨hcurve, hp⟩) hok hP
      rintro rfl
      have hok : KeyLenAccepted alg keyType params key .rsa 4096 [2, 3, 4] [] := hok
      have hnonzero (i : Nat) (hi : i ∈ [2, 3, 4]) : keyWord key i ≠ 0 := hok.required i hi
      have hmax (i : Nat) (hi : i ∈ [2, 3, 4]) : keyWord key i ≤ 4096 := hok.max i hi
      have ⟨_, hsizes⟩ := hfits
      simp only [KeyFormat.declaredSize, KeyFormat.headerSize, KeyFormat.sizeWords, List.map_cons, List.map_nil,
        List.sum_cons, List.sum_nil] at hsizes
      exact ⟨{
        nSize := ⟨hmax 2 (by decide), hnonzero 2 (by decide)⟩
        dSize := ⟨hmax 4 (by decide), hnonzero 4 (by decide)⟩
        eSize := hmax 3 (by decide)
        pair  := fun _ => hnonzero 3 (by decide)
        fits  := by omega
      }, fun hzero => hnonzero 3 (by decide) hzero.2⟩
  case mpr =>
    intro h _ inner hinner hok hP
    cases hinner
    case copied hsize _ _ => exact h hsize hok hP
    case exponent hmaterial _ _ => exact withExponent_exact hmaterial
    case raw hprivate _ => exact fun hpair => absurd (hprivate.symm.trans hpair) (by decide)

theorem importedKey_iff : ImportUsable lib env paramSet key ↔ ImportExact lib env paramSet key := by
  refine forall_congr' fun keyType => forall_congr' fun htype => forall_congr' fun hkt => ?_
  have hne : keyType ≠ HksImportKeyType.publicKey := by obtain rfl | rfl := hkt <;> decide
  -- Without a format there is nothing that the use could find wrong.
  have hnone (h : ∀ alg format, getUInt32 paramSet HksTag.algorithm = .ok alg → KeyFormat.ofAlg alg ≠ some format) :
      Confined (MaterialUsable lib paramSet keyType) (coreImportKey lib env paramSet key) := by
    rw [coreImportKey, confined_bind]
    refine importInnerKey_small.mono fun inner _ hsmall => ?_
    rw [confined_bind]
    refine (checkedImport_holds htype hne hsmall).mono fun _ _ _ => confined_build.mpr fun _ => ?_
    exact fun alg format halg hformat => absurd hformat (h alg format halg)
  by_cases hsome : ∃ alg format, getUInt32 paramSet HksTag.algorithm = .ok alg ∧ KeyFormat.ofAlg alg = some format
  case neg =>
    have hno (alg : UInt32) (format : KeyFormat) (halg : getUInt32 paramSet HksTag.algorithm = .ok alg) :
        KeyFormat.ofAlg alg ≠ some format := fun hformat => hsome ⟨alg, format, halg, hformat⟩
    refine iff_of_true (hnone hno) fun params alg format _ _ hgot hformat => ?_
    exact absurd hformat (hno alg format (checkAndGetImportAlg_eq hgot))
  case pos =>
    obtain ⟨alg, format, halg, hformat⟩ := hsome
    have hinner : importInnerKey paramSet key = getPrivateOrPairInnerFormat keyType key paramSet := by
      rw [importInnerKey, htype]
      exact if_pos hkt
    have himport : Confined (MaterialUsable lib paramSet keyType) (coreImportKey lib env paramSet key) ↔
        (key ≠ [] → ∀ inner, InnerOf alg keyType key format inner → ∀ params,
          env.coreCheckGenKeyParams paramSet = .ok params → checkAndGetImportAlg env paramSet = .ok alg →
          KeyLenOk alg keyType params inner format → checkMutableParams alg keyType params = .ok ⟨⟩ →
          (keyType = HksImportKeyType.keyPair → PairSecure lib inner format) → env.buildKeyBlob inner = .ok ⟨⟩ →
            MaterialUsable lib paramSet keyType inner) := by
      rw [coreImportKey, hinner, confined_bind, confined_innerFormat halg hformat hkt]
      refine forall_congr' fun _ => forall_congr' fun inner => forall_congr' fun hof => ?_
      simp only [confined_bind (x := hksCoreCheckImportKeyParams _ _ _ _), confined_build]
      exact confined_importChecks htype hkt halg hformat (innerOf_small hof)
    rw [himport]
    constructor
    case mp =>
      intro h params alg' format' hsize hparams hgot hformat' hok hmutable hsecure hbuild
      obtain rfl := Except.ok.inj ((checkAndGetImportAlg_eq hgot).symm.trans halg)
      obtain rfl := Option.some.inj (hformat'.symm.trans hformat)
      refine (innerOf_exact (P := fun inner => (keyType = HksImportKeyType.keyPair →
        PairSecure lib inner format') ∧ env.buildKeyBlob inner = .ok ⟨⟩) hkt).mp ?_ hsize hok ⟨hsecure, hbuild⟩
      rintro hne inner hof hok ⟨hsecure, hbuild⟩
      exact (materialUsable_iff hkt hparams halg hformat hok (innerOf_small hof) hsecure
        (innerOf_curve25519 hof)).mp (h hne inner hof params hparams hgot hok hmutable hsecure hbuild)
    case mpr =>
      intro h hne inner hof params hparams hgot hok hmutable hsecure hbuild
      rw [materialUsable_iff hkt hparams halg hformat hok (innerOf_small hof) hsecure (innerOf_curve25519 hof)]
      refine (innerOf_exact (P := fun inner => (keyType = HksImportKeyType.keyPair →
        PairSecure lib inner format) ∧ env.buildKeyBlob inner = .ok ⟨⟩) hkt).mpr ?_ hne inner hof hok ⟨hsecure, hbuild⟩
      rintro hsize hok ⟨hsecure, hbuild⟩
      exact h params alg format hsize hparams hgot hformat hok hmutable hsecure hbuild

def dhPrivateParamSet : HksParamSet where
  paramSetSize := 104
  params       := [.ofUInt32 HksTag.algorithm HksKeyAlg.dh, .ofUInt32 HksTag.keySize 2048,
    .ofUInt32 HksTag.purpose HksKeyPurpose.agree,
    .ofUInt32 HksTag.importKeyType HksImportKeyType.privateKey]
  area         := []

-- A DH key with a byte behind its two numbers
def trailedDhKey : Bytes := [HksKeyAlg.dh, 2048, 1, 1, 0].flatMap toBytes32 ++ [5, 7, 0]

-- The key is imported, but no DH key can be built from it, so that an agreement asks for the size
-- of no key at all.
theorem importedKey_inexact : ¬ImportUsable acceptingOpenSsl keySizeImportEnv dhPrivateParamSet trailedDhKey := by
  intro h
  have hkeyType : getUInt32 dhPrivateParamSet HksTag.importKeyType = .ok HksImportKeyType.privateKey := by decide
  have hrun : coreImportKey acceptingOpenSsl keySizeImportEnv dhPrivateParamSet trailedDhKey = .ok trailedDhKey := by
    decide
  have husable : MaterialUsable acceptingOpenSsl dhPrivateParamSet HksImportKeyType.privateKey trailedDhKey := by
    have h := h _ hkeyType (.inl rfl)
    rwa [hrun] at h
  have ⟨⟨dh, hdh⟩, _⟩ := husable HksKeyAlg.dh .dh (by decide) (by decide)
  have hbuilt : initDhStruct trailedDhKey = .ok none := by rfl
  nomatch hbuilt.symm.trans hdh

end Import

end Huks
