import Huks.Engine.Theorems.KeyBlobLiteRoundTrip
import Huks.Storage.Theorems.LiteTampering

namespace Huks.KeyBlobLite

open HksParamSet StorageLite

section Open

variable {env : LiteKeyEnv} {key rawKey : Bytes} {size : Nat} {Q : Bytes → Prop}

-- The sizes of a key blob are its own, and there is room for a tag.
structure Openable (key : Bytes) : Prop where
  length : (storeKeyInfo key).keyInfoLen.toNat ≤ key.length
  tagged : hksKeyBlobTagSize ≤ (storeKeyInfo key).keySize.toNat

theorem keyInfoLen_eq (hvalid : hksIsKeyInfoLenInvalid (storeKeyInfo key) = false) :
    (storeKeyInfo key).keyInfoLen.toNat = keyInfoSize + (storeKeyInfo key).aliasSize.toNat +
      (storeKeyInfo key).authIdSize.toNat + (storeKeyInfo key).keySize.toNat :=
  (hksIsKeyInfoLenInvalid_eq_false.mp hvalid).2.2.2

theorem buildKeyBlobUsageSpec_inside {random : Bytes} (hvalid : hksIsKeyInfoLenInvalid (storeKeyInfo key) = false)
    (hlength : (storeKeyInfo key).keyInfoLen.toNat ≤ key.length) : Inside (buildKeyBlobUsageSpec env key random) := by
  have hend := keyInfoLen_eq hvalid
  rw [buildKeyBlobUsageSpec]
  refine inside_bind.mpr ⟨inside_checked _, fun nonce _ =>
    inside_bind.mpr ⟨inside_readAt.mpr (.inr ?_), fun aad _ => ?_⟩⟩
  case refine_1 =>
    have hinfo : keyInfoSize = 40 := rfl
    omega
  case refine_2 => exact inside_pure _

theorem decryptKeyBlob_inside (hvalid : hksIsKeyInfoLenInvalid (storeKeyInfo key) = false) (h : Openable key) :
    Inside (decryptKeyBlob env key) := by
  have hend := keyInfoLen_eq hvalid
  have hlength := h.length
  have htagged := h.tagged
  have htag : hksKeyBlobTagSize = 16 := rfl
  have hcount : ((storeKeyInfo key).keySize.toUInt32 - hksKeyBlobTagSize.toUInt32).toNat =
      (storeKeyInfo key).keySize.toNat - hksKeyBlobTagSize := by
    rw [UInt32.toNat_sub_of_le _ _ (by rw [UInt32.le_iff_toNat_le, UInt16.toNat_toUInt32]; exact htagged),
      UInt16.toNat_toUInt32]
    rfl
  rw [decryptKeyBlob]
  dsimp only
  refine inside_bind.mpr ⟨inside_checked _, fun kek _ => inside_bind.mpr
    ⟨buildKeyBlobUsageSpec_inside hvalid hlength, fun usageSpec _ => inside_bind.mpr
      ⟨inside_readAt.mpr (.inr ?_), fun encKey _ => inside_bind.mpr ⟨inside_readAt.mpr (.inr ?_), fun tag _ => ?_⟩⟩⟩⟩
  case refine_1 =>
    rw [hcount]
    omega
  case refine_2 => omega
  case refine_3 => exact inside_bind.mpr ⟨inside_checked _, fun rawKey _ => inside_pure _⟩

-- With a library that does not fail the aad is read.
theorem buildKeyBlobUsageSpec_ok {random : Bytes} (h : Inside (buildKeyBlobUsageSpec sampleEnv key random)) :
    ∃ usageSpec, buildKeyBlobUsageSpec sampleEnv key random = .ok usageSpec := by
  rw [buildKeyBlobUsageSpec] at h ⊢
  have hin := (inside_bind.mp ((inside_bind.mp h).2 (.zero _) rfl)).1
  exact ⟨_, Except.bind_eq_ok.mpr ⟨.zero _, rfl, Except.bind_eq_ok.mpr
    ⟨_, readAt_eq_ok.mpr ⟨inside_readAt.mp hin, rfl⟩, rfl⟩⟩⟩

-- What such a library is given lies in the blob.
theorem openable_of_inside (hvalid : hksIsKeyInfoLenInvalid (storeKeyInfo key) = false)
    (hmax : key.length ≤ maxKeySize.toNat) (h : Inside (decryptKeyBlob sampleEnv key)) : Openable key := by
  have hend := keyInfoLen_eq hvalid
  have hsize := (hksIsKeyInfoLenInvalid_eq_false.mp hvalid).2.1
  have hmaxKey : maxKeySize.toNat = 2048 := rfl
  have htag : hksKeyBlobTagSize = 16 := rfl
  have hinfo : keyInfoSize = 40 := rfl
  rw [decryptKeyBlob] at h
  obtain ⟨husage, hrest⟩ := inside_bind.mp ((inside_bind.mp h).2 (.zero _) rfl)
  obtain ⟨usageSpec, husage⟩ := buildKeyBlobUsageSpec_ok husage
  obtain ⟨hkey, hrest⟩ := inside_bind.mp (hrest usageSpec husage)
  have htagged : hksKeyBlobTagSize ≤ (storeKeyInfo key).keySize.toNat := by
    -- A shorter key has a length that wraps.
    by_contra hshort
    have hwrap : ((storeKeyInfo key).keySize.toUInt32 - hksKeyBlobTagSize.toUInt32).toNat =
        2 ^ 32 - hksKeyBlobTagSize + (storeKeyInfo key).keySize.toNat := by
      have h16 : hksKeyBlobTagSize.toUInt32.toNat = 16 := rfl
      rw [UInt32.toNat_sub, UInt16.toNat_toUInt32, h16]
      omega
    rw [inside_readAt, hwrap] at hkey
    omega
  obtain ⟨htagIn, _⟩ := inside_bind.mp (hrest _ (readAt_eq_ok.mpr ⟨inside_readAt.mp hkey, rfl⟩))
  rw [inside_readAt] at htagIn
  exact ⟨by omega, htagged⟩

-- What is decrypted is inside, and so is all that comes after it.
theorem getRawKeyMaterial_inside : Inside (getRawKeyMaterial env key) ↔
    (keyInfoSize ≤ key.length → hksIsKeyInfoLenInvalid (storeKeyInfo key) = false →
      Inside (decryptKeyBlob env key)) := by
  rw [getRawKeyMaterial]
  split
  case isTrue hshort => exact iff_of_true (inside_throw _) fun h => absurd h (Nat.not_le_of_lt hshort)
  case isFalse hlong =>
    dsimp only
    split
    case isTrue hinvalid =>
      refine iff_of_true (inside_throw _) fun _ h => ?_
      rw [h] at hinvalid
      cases hinvalid
    case isFalse hvalid =>
      rw [Bool.not_eq_true] at hvalid
      constructor
      case mp => exact fun h _ _ => (inside_bind.mp h).1
      case mpr =>
        refine fun h => inside_bind.mpr ⟨h (Nat.le_of_not_lt hlong) hvalid, fun tmpKey _ => ?_⟩
        split
        case isTrue => exact inside_pure _
        case isFalse => exact inside_pure _

theorem addKeyAuthId_inside {info : HksStoreKeyInfo} {t : HksParamSet}
    (h : keyInfoSize + info.aliasSize.toNat + info.authIdSize.toNat ≤ key.length) :
    Inside (addKeyAuthId info key t) := by
  rw [addKeyAuthId]
  split
  case isTrue => exact inside_pure _
  case isFalse =>
    exact inside_bind.mpr ⟨inside_readAt.mpr (.inr h), fun keyAuthId _ => inside_checked _⟩

theorem translateKeyInfoBlobToParamSet_inside {data : Option BlobData}
    (h : keyInfoSize ≤ key.length → hksIsKeyInfoLenInvalid (storeKeyInfo key) = false →
      (storeKeyInfo key).keyInfoLen.toNat ≤ key.length) : Inside (translateKeyInfoBlobToParamSet data key) := by
  rw [translateKeyInfoBlobToParamSet]
  refine inside_bind.mpr ⟨?_, fun t _ => inside_checked _⟩
  rw [addStorageParams]
  split
  case isTrue => exact inside_throw _
  case isFalse hlong =>
    dsimp only
    split
    case isTrue => exact inside_throw _
    case isFalse hvalid =>
      rw [Bool.not_eq_true] at hvalid
      have hend := keyInfoLen_eq hvalid
      have hlen := h (Nat.le_of_not_lt hlong) hvalid
      refine inside_bind.mpr ⟨inside_checked _, fun t _ => inside_bind.mpr ⟨addKeyAuthId_inside ?_, fun u _ => ?_⟩⟩
      case refine_1 => omega
      case refine_2 => exact inside_checked _

theorem inside_orNull {α : Type} {x : Except (Stop HksErrorCode) α} : Inside (orNull x) ↔ Inside x := by
  rcases x with (_ | e) | a
  case error.outside => exact iff_of_false (fun h => h rfl) fun h => h rfl
  case error.error => exact iff_of_true (inside_ok _) (inside_error _)
  case ok => exact iff_of_true (inside_ok _) (inside_ok _)

-- A key blob is opened without an access outside of it if it is refused, or its sizes are right.
theorem hksGenerateKeyNode_inside (key : Bytes) : (∀ env, Inside (hksGenerateKeyNode env key)) ↔
    (key.length ≤ maxKeySize.toNat → keyInfoSize ≤ key.length →
      hksIsKeyInfoLenInvalid (storeKeyInfo key) = false → Openable key) := by
  constructor
  case mp =>
    intro h hmax hlen hvalid
    have hin := h sampleEnv
    rw [hksGenerateKeyNode, if_neg (Nat.not_lt.mpr hmax), inside_orNull] at hin
    exact openable_of_inside hvalid hmax (getRawKeyMaterial_inside.mp (inside_bind.mp hin).1 hlen hvalid)
  case mpr =>
    intro h env
    rw [hksGenerateKeyNode]
    split
    case isTrue => exact inside_pure _
    case isFalse hmax =>
      rw [inside_orNull]
      have hopen := h (Nat.le_of_not_lt hmax)
      refine inside_bind.mpr ⟨getRawKeyMaterial_inside.mpr fun hlen hvalid =>
        decryptKeyBlob_inside hvalid (hopen hlen hvalid),
        fun rawKey hraw => inside_bind.mpr ⟨?_, fun t _ => inside_pure _⟩⟩
      exact translateKeyInfoBlobToParamSet_inside fun hlen hvalid => (hopen hlen hvalid).length

end Open

section Foreign

open EStateM

variable {store : LiteEnv} {keyAlias : Bytes} {image file : Option Bytes} {head : HksStoreHeaderInfo} {rest : Bytes}

-- A blob with the sizes that its head says
def Sized (blob : Bytes) : Prop :=
  hksIsKeyInfoLenInvalid (storeKeyInfo blob) = false ∧ blob.length = (storeKeyInfo blob).keyInfoLen.toNat

theorem sized_of_found {image : Bytes} {totalLen offset : UInt32} (h : Found image totalLen offset)
    (hinside : totalLen.toNat ≤ image.length) :
    Sized (slice image offset.toNat (infoAt image offset).keyInfoLen.toNat) := by
  have hsize := h.size
  have hend := h.inside
  have hinfo : storeKeyInfo (slice image offset.toNat (infoAt image offset).keyInfoLen.toNat) =
      infoAt image offset := by
    rw [storeKeyInfo, slice, List.take_take, Nat.min_eq_left (by omega), infoAt, slice]
  rw [Sized, hinfo]
  exact ⟨h.valid, length_slice (by omega)⟩

-- A key that the store gives has its own sizes, whatever the image is.
theorem hksStoreGetKeyBlob_sized (h : Bounded head rest) :
    Triple (At (some (rawImage head rest)) file) (StorageLite.hksStoreGetKeyBlob store keyAlias)
      (fun bytes _ => Sized bytes) (fun _ _ => True) := by
  have hinside := h.le_length
  rw [StorageLite.hksStoreGetKeyBlob]
  refine .bind (getKeyOffsetByKeyAlias_raw.weaken_error fun _ _ _ => trivial) fun offset => .of_pure fun hfound => ?_
  have hsize := hfound.size
  have hend := hfound.inside
  refine bind_at (keyInfoAt_raw (by omega)) (hksMalloc_bind fun b _ => guard_refuse (fun _ _ _ => trivial) fun _ => ?_)
  exact triple_at (fun _ => readImage_run (by omega)) fun _ _ => sized_of_found hfound hinside

-- Without an image there is no key.
theorem hksStoreGetKeyBlob_closed (tick : Nat) :
    (StorageLite.hksStoreGetKeyBlob store keyAlias).run ⟨none, file, tick⟩ =
      .error (.error .invalidKeyFile) ⟨none, file, tick⟩ := rfl

theorem sized_of_ok {s t : LiteStore} {bytes : Bytes} (hs : Sound s)
    (h : (StorageLite.hksStoreGetKeyBlob store keyAlias).run s = .ok bytes t) : Sized bytes := by
  obtain ⟨image, file, tick⟩ := s
  obtain hnone | ⟨head, rest, hbounded, hsome⟩ := hs
  case inl =>
    dsimp only at hnone
    rw [hnone, hksStoreGetKeyBlob_closed] at h
    cases h
  case inr =>
    have hrun := @hksStoreGetKeyBlob_sized store keyAlias file head rest hbounded ⟨image, file, tick⟩ ⟨hsome, rfl⟩
    rw [h] at hrun
    exact hrun

theorem Sized.openable_iff {blob : Bytes} (h : Sized blob) :
    (∀ env, Inside (hksGenerateKeyNode env blob)) ↔ hksKeyBlobTagSize ≤ (storeKeyInfo blob).keySize.toNat := by
  obtain ⟨hvalid, hlen⟩ := h
  have hend := keyInfoLen_eq hvalid
  obtain ⟨⟨halias, _⟩, ⟨hkey, _⟩, hauth, _⟩ := hksIsKeyInfoLenInvalid_eq_false.mp hvalid
  have hmax : blob.length ≤ maxKeySize.toNat := by
    have hmaxAlias : hksMaxKeyAliasLen = 64 := rfl
    have hmaxAuth : hksMaxKeyAuthIdLen = 64 := rfl
    have hmaxMaterial : hksMaxKeyMaterialLen = 1572 := rfl
    have hinfo : keyInfoSize = 40 := rfl
    have hmaxKey : maxKeySize.toNat = 2048 := rfl
    omega
  rw [hksGenerateKeyNode_inside]
  constructor
  case mp => exact fun h => (h hmax (by omega) hvalid).tagged
  case mpr => exact fun h _ _ _ => ⟨Nat.le_of_eq hlen.symm, h⟩

end Foreign

section Sample

open EStateM

-- A key is stored and asked for.
def storeEvents (keyBlob : Bytes) : List Event := [.load, .store [97] keyBlob]

def storeAndGet (keyBlob : Bytes) : EStateM.Result (Stop HksErrorCode) LiteStore Bytes :=
  (history calm (storeEvents keyBlob) >>= fun _ => StorageLite.hksStoreGetKeyBlob calm [97]).run { file := none }

def resultOf : EStateM.Result (Stop HksErrorCode) LiteStore Bytes → Option Bytes
  | .ok bytes _ => some bytes
  | .error _ _  => none

variable {keyBlob : Bytes}

theorem storeEvents_sized (h : keyBlob.length < 2 ^ 32) : ∀ event ∈ storeEvents keyBlob, event.Sized := by
  intro event hevent
  simp only [storeEvents, List.mem_cons, List.not_mem_nil, or_false] at hevent
  obtain rfl | rfl := hevent
  case inl => trivial
  case inr => exact h

theorem storeAndGet_ok (h : resultOf (storeAndGet keyBlob) = some keyBlob) : ∃ answers s t,
    (history calm (storeEvents keyBlob)).run { file := none } = .ok answers s ∧
      (StorageLite.hksStoreGetKeyBlob calm [97]).run s = .ok keyBlob t := by
  cases hrun : storeAndGet keyBlob
  case error e t =>
    rw [hrun] at h
    cases h
  case ok bytes t =>
    rw [hrun] at h
    obtain rfl : bytes = keyBlob := Option.some.inj h
    obtain ⟨answers, s, hhistory, hget⟩ := run_bind_eq_ok.mp hrun
    exact ⟨answers, s, t, hhistory, hget⟩

-- What a caller may store in place of a key blob: its key has one byte.
def shortKeyBlob : Bytes :=
  [42, 0, 1, 0] ++ .replicate 16 0 ++ [1, 20] ++ .replicate 16 0 ++ [1, 0, 97, 7]

end Sample

section Main

variable {store : LiteEnv} {keyAlias : Bytes} {file : Option Bytes}

-- Of a key that the store gives, wherever its file is from, the key size alone decides.
theorem foreignKey_inside (hwhole : store.Whole) {events : List Event} (hsized : ∀ event ∈ events, event.Sized)
    {answers : List (Except HksErrorCode Unit)} {s t : LiteStore} {blob : Bytes}
    (hrun : (history store events).run { file } = .ok answers s)
    (hget : (StorageLite.hksStoreGetKeyBlob store keyAlias).run s = .ok blob t) :
    (∀ env, Inside (hksGenerateKeyNode env blob)) ↔ hksKeyBlobTagSize ≤ (storeKeyInfo blob).keySize.toNat := by
  obtain ⟨answers', s', hrun', hsound⟩ := @history_sound store hwhole events hsized { file } (.inl rfl)
  rw [hrun] at hrun'
  cases hrun'
  exact (sized_of_ok hsound hget).openable_iff

theorem foreignKey_inside_sample : (∀ env, Inside (hksGenerateKeyNode env sampleBlob.bytes)) ∧
    ¬∀ env, Inside (hksGenerateKeyNode env shortKeyBlob) := by
  constructor
  case left =>
    have ⟨_, _, _, hrun, hget⟩ := @storeAndGet_ok sampleBlob.bytes (by decide +kernel)
    exact (foreignKey_inside calm_quiet.whole (storeEvents_sized (by decide)) hrun hget).mpr (by decide)
  case right =>
    have ⟨_, _, _, hrun, hget⟩ := @storeAndGet_ok shortKeyBlob (by decide +kernel)
    exact mt (foreignKey_inside calm_quiet.whole (storeEvents_sized (by decide)) hrun hget).mp (by decide)

end Main

end Huks.KeyBlobLite
