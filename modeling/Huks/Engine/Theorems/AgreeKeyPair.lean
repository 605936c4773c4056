import Huks.Crypto.Theorems.OpenSsl
import Huks.Crypto.Theorems.PublicKeyFormat
import Huks.Engine.AgreeKeyPair
import Huks.Service.AgreeKeyPair

namespace Huks.InPlace

open EStateM OutBuffer

section Combined

variable (privateKey publicKey : AllocatedBlob)

theorem AllocatedBlob.length_bounds (blob : AllocatedBlob) :
    0 < blob.bytes.length ∧ blob.bytes.length ≤ 0x800000 :=
  mallocOk_iff.mp blob.allocated

theorem AllocatedBlob.size_toNat (blob : AllocatedBlob) : blob.bytes.size.toNat = blob.bytes.length := by
  have hle := blob.length_bounds
  exact UInt32.toNat_ofNat_of_lt' (by rw [UInt32.size]; omega)

-- The sizes, and behind them the public and the private part
def combined : Bytes :=
  [publicKey.bytes.size, privateKey.bytes.size].flatMap toBytes32 ++ (publicKey.bytes ++ privateKey.bytes)

theorem length_combined :
    (combined privateKey publicKey).length = 8 + privateKey.bytes.length + publicKey.bytes.length := by
  have hheader : ([publicKey.bytes.size, privateKey.bytes.size].flatMap toBytes32).length = 8 := rfl
  rw [combined, List.length_append, hheader, List.length_append]
  omega

theorem combinedSize : (8 + privateKey.bytes.size + publicKey.bytes.size).toNat =
    8 + privateKey.bytes.length + publicKey.bytes.length := by
  have hpri := privateKey.length_bounds
  have hpub := publicKey.length_bounds
  have hpriSize := privateKey.size_toNat
  have hpubSize := publicKey.size_toNat
  have height : (8 : UInt32).toNat = 8 := rfl
  have hsize : UInt32.size = 2 ^ 32 := rfl
  have hfirst : (8 + privateKey.bytes.size).toNat = 8 + privateKey.bytes.length := by
    rw [toNat_add_of_lt (by omega), height, hpriSize]
  rw [toNat_add_of_lt (by omega), hfirst, hpubSize]

theorem conbineIntoKeyPair_ok (h : 8 + privateKey.bytes.length + publicKey.bytes.length ≤ 0x800000) :
    conbineIntoKeyPair privateKey publicKey = .ok (combined privateKey publicKey) := by
  have hpri := privateKey.length_bounds
  have hpub := publicKey.length_bounds
  have hpubSize := publicKey.size_toNat
  have hsize := combinedSize privateKey publicKey
  have hmax : secureMemMaxLen = 0x7fffffff := rfl
  have height : (8 : UInt32).toNat = 8 := rfl
  obtain ⟨size, hsizeEq⟩ : ∃ size, size = 8 + privateKey.bytes.size + publicKey.bytes.size := ⟨_, rfl⟩
  rw [← hsizeEq] at hsize
  have hoffset : (8 + publicKey.bytes.size).toNat = 8 + publicKey.bytes.length := by
    rw [toNat_add_of_lt (by rw [UInt32.size]; omega), height, hpubSize]
  have hafterHeader : (size - 8).toNat = privateKey.bytes.length + publicKey.bytes.length := by
    rw [UInt32.toNat_sub_of_le _ _ (UInt32.le_iff_toNat_le.mpr (by omega))]
    omega
  have hafterPublic : (size - (8 + publicKey.bytes.size)).toNat = privateKey.bytes.length := by
    rw [UInt32.toNat_sub_of_le _ _ (UInt32.le_iff_toNat_le.mpr (by omega))]
    omega
  let header := toBytes32 publicKey.bytes.size ++ toBytes32 privateKey.bytes.size
  have hheader : header.length = 8 := rfl
  let room : Bytes := .replicate size.toNat 0
  let block : OutBuffer := ⟨room, room.length.toUInt32⟩
  have hroom : block.room.length = size.toNat := List.length_replicate
  have hcopies : (do
      discard <| memcpyInto 0 size.toNat header
      discard <| memcpyInto 8 (size - 8).toNat publicKey.bytes
      discard <| memcpyInto (8 + publicKey.bytes.size).toNat (size - (8 + publicKey.bytes.size)).toNat
        privateKey.bytes : OutM HksErrorCode PUnit).run block =
          .ok ⟨⟩ { block with room := header ++ publicKey.bytes ++ privateKey.bytes } := by
    rw [run_bind, discard_memcpyInto_run (by omega) (by omega) (by omega)]
    dsimp only
    rw [run_bind, discard_memcpyInto_behind (by omega) (by omega) (by omega) (by omega)]
    dsimp only
    rw [discard_memcpyInto_behind (by omega) (by omega) (by rw [List.length_append]; omega) (by omega),
      splice_all (by rw [List.length_append, List.length_append]; omega)]
  have hmalloc : mallocOk size.toNat := mallocOk_iff.mpr (by omega)
  simp only [conbineIntoKeyPair, ← hsizeEq, hmalloc, not_true_eq_false, if_false]
  rw [combined, ← List.append_assoc]
  exact inBlock_run hcopies

theorem conbineIntoKeyPair_eq : conbineIntoKeyPair privateKey publicKey =
    if 8 + privateKey.bytes.length + publicKey.bytes.length ≤ 0x800000 then .ok (combined privateKey publicKey)
    else .error (.error .mallocFail) := by
  split
  case isTrue h => exact conbineIntoKeyPair_ok privateKey publicKey h
  case isFalse h =>
    have hmalloc : ¬mallocOk (8 + privateKey.bytes.size + publicKey.bytes.size).toNat := by
      rw [combinedSize, mallocOk_iff]
      omega
    rw [conbineIntoKeyPair]
    exact if_pos hmalloc

end Combined

section Split

variable {word : SizeT} {a b : Nat}

-- A difference that is not negative is computed as such.
theorem SizeT.sub_eq (ha : a < 2 ^ 32) (h : b ≤ a) : word.sub a b = a - b := by
  have hbits : 2 ^ 32 ≤ 2 ^ word.bits := Nat.pow_le_pow_right (by decide) (by cases word <;> decide)
  rw [SizeT.sub, Nat.sub_add_comm h, Nat.add_mod_right]
  exact Nat.mod_eq_of_lt (by omega)

-- The blob that is presented to the engine; its size is a `uint32_t`.
structure KeyIn where
  bytes : Bytes
  small : bytes.length < UInt32.size

-- The sizes that the blob declares fit into it.
def KeyPairFits (bytes : Bytes) : Prop :=
  keyPairSize ≤ bytes.length ∧ keyPairSize + (keyWord bytes 0).toNat + (keyWord bytes 1).toNat ≤ bytes.length

theorem confined_checkAgreeKeyIn (keyIn : KeyIn) {S : Prop} :
    Confined (fun _ => S) (checkAgreeKeyIn word keyIn.bytes) ↔ (KeyPairFits keyIn.bytes → S) := by
  have hsmall : keyIn.bytes.length < 2 ^ 32 := keyIn.small
  have height : keyPairSize = 8 := rfl
  rw [KeyPairFits, checkAgreeKeyIn, confined_ite]
  by_cases hshort : keyIn.bytes = [] ∨ keyIn.bytes.length < keyPairSize
  case pos =>
    have hlen : keyIn.bytes.length < keyPairSize := by
      obtain hnil | hlt := hshort
      · rw [hnil]
        decide
      · exact hlt
    exact iff_of_true ⟨fun _ => trivial, fun h => absurd hshort h⟩ fun h => by omega
  case neg =>
    have ⟨_, hlen⟩ := not_or.mp hshort
    have hfirst := @SizeT.sub_eq word keyIn.bytes.length keyPairSize hsmall (by omega)
    simp only [hshort, confined_bind, confined_readWord, confined_ite, confined_pure, confined_throw, hfirst,
      implies_true, true_and, not_false_eq_true, forall_const]
    -- The second difference is looked at only where the first comparison has shown that it is not negative.
    by_cases hpri : (keyWord keyIn.bytes 1).toNat > keyIn.bytes.length - keyPairSize
    case pos => exact ⟨fun _ h => by omega, fun _ => ⟨by omega, by omega, fun h => absurd (.inl hpri) h⟩⟩
    case neg =>
      have hsecond := @SizeT.sub_eq word (keyIn.bytes.length - keyPairSize) (keyWord keyIn.bytes 1).toNat
        (by omega) (by omega)
      rw [hsecond]
      exact ⟨fun h hfits => h.2.2 (by omega), fun h => ⟨by omega, by omega, fun _ => h (by omega)⟩⟩

def publicPart (bytes : Bytes) : Bytes := slice bytes keyPairSize (keyWord bytes 0).toNat

def privatePart (bytes : Bytes) : Bytes :=
  slice bytes (keyPairSize + (keyWord bytes 0).toNat) (keyWord bytes 1).toNat

variable (keyNode : Bytes → Option HksParamSet) (agreeKey : UInt32 → Bytes → Bytes → Except HksErrorCode Bytes)
  (paramSet : HksParamSet)

-- The key that a part stands for
def keyOfPart (isPlainPubKey : Bool) (part : Bytes) : Except (Stop HksErrorCode) Bytes :=
  if isPlainPubKey then
    return part
  else
    match keyNode part with
    | none          => throw (.error .corruptFile)
    | some paramSet => checked do
      refuseUserAuth paramSet
      hksGetRawKey paramSet

-- The agreement on two parts, in the order in which the engine looks at them
def agreeParts (privateKey publicKey : Bytes) : Except (Stop HksErrorCode) Bytes := do
  let priKey ← keyOfPart keyNode false privateKey
  let pubKey ← keyOfPart keyNode (isPlainPublicKey paramSet) publicKey
  checked (genAgreeKey agreeKey paramSet priKey pubKey)

variable {keyNode paramSet} {bytes : Bytes}

-- Each part is copied from its place, if there can be memory for it.
theorem getAgreeBaseKey_eq (h : KeyPairFits bytes) (isPubKey isPlainPubKey : Bool) :
    getAgreeBaseKey keyNode isPubKey isPlainPubKey bytes =
      if mallocOk (keyWord bytes (if isPubKey then 0 else 1)).toNat then
        keyOfPart keyNode isPlainPubKey (if isPubKey then publicPart bytes else privatePart bytes)
      else
        .error (.error .mallocFail) := by
  obtain ⟨hlen, hsizes⟩ := h
  have height : keyPairSize = 8 := rfl
  have hpublic : (readAt bytes keyPairSize (keyWord bytes 0).toNat : Except (Stop HksErrorCode) Bytes) =
      .ok (publicPart bytes) := readAt_eq_ok.mpr ⟨.inr (by omega), rfl⟩
  have hprivate : (readAt bytes (keyPairSize + (keyWord bytes 0).toNat) (keyWord bytes 1).toNat :
      Except (Stop HksErrorCode) Bytes) = .ok (privatePart bytes) := readAt_eq_ok.mpr ⟨.inr (by omega), rfl⟩
  have hfirst := @readWord_ok bytes 0 (by omega)
  have hsecond := @readWord_ok bytes 1 (by omega)
  have hread : (readAt bytes (if isPubKey then keyPairSize else keyPairSize + (keyWord bytes 0).toNat)
      (if isPubKey then keyWord bytes 0 else keyWord bytes 1).toNat : Except (Stop HksErrorCode) Bytes) =
        .ok (if isPubKey then publicPart bytes else privatePart bytes) := by
    cases isPubKey
    case true => exact hpublic
    case false => exact hprivate
  have hsize : (if isPubKey then keyWord bytes 0 else keyWord bytes 1) = keyWord bytes (if isPubKey then 0 else 1) := by
    cases isPubKey <;> rfl
  have hrun : getAgreeBaseKey keyNode isPubKey isPlainPubKey bytes = (do
      let publicBufferSize ← readWord bytes 0
      let privateBufferSize ← readWord bytes 1
      if ¬mallocOk (if isPubKey then publicBufferSize else privateBufferSize).toNat then
        throw (.error .mallocFail)
      else
        (← readAt bytes (if isPubKey then keyPairSize else keyPairSize + publicBufferSize.toNat)
          (if isPubKey then publicBufferSize else privateBufferSize).toNat) |> keyOfPart keyNode isPlainPubKey) := rfl
  rw [hrun, hfirst, hsecond]
  change (if ¬mallocOk (if isPubKey then keyWord bytes 0 else keyWord bytes 1).toNat then _ else _) = _
  rw [hread, hsize, ite_not]
  rfl

theorem inside_keyOfPart (isPlainPubKey : Bool) (part : Bytes) : Inside (keyOfPart keyNode isPlainPubKey part) := by
  rw [keyOfPart, inside_ite]
  refine ⟨fun _ => inside_pure _, fun _ => ?_⟩
  cases keyNode part
  case none => exact inside_throw _
  case some => exact inside_checked _

theorem inside_getAgreeBaseKey (h : KeyPairFits bytes) (isPubKey isPlainPubKey : Bool) :
    Inside (getAgreeBaseKey keyNode isPubKey isPlainPubKey bytes) := by
  rw [getAgreeBaseKey_eq h, inside_ite]
  exact ⟨fun _ => inside_keyOfPart _ _, fun _ => inside_error _⟩

theorem checkAgreeKeyIn_ok (keyIn : KeyIn) : checkAgreeKeyIn word keyIn.bytes = .ok () ↔ KeyPairFits keyIn.bytes :=
  eq_ok_iff fun _ => confined_checkAgreeKeyIn keyIn

theorem inside_genKeyByAgree (keyIn : KeyIn) : Inside (genKeyByAgree keyNode agreeKey word paramSet keyIn.bytes) := by
  have hcheck : Inside (checkAgreeKeyIn word keyIn.bytes) :=
    inside_iff_confined.mpr ((confined_checkAgreeKeyIn keyIn).mpr fun _ => trivial)
  rw [genKeyByAgree, inside_bind]
  refine ⟨hcheck, fun _ hok => ?_⟩
  have hfits := (checkAgreeKeyIn_ok keyIn).mp hok
  rw [inside_bind]
  refine ⟨inside_getAgreeBaseKey hfits _ _, fun _ _ => ?_⟩
  rw [inside_bind]
  exact ⟨inside_getAgreeBaseKey hfits _ _, fun _ _ => inside_checked _⟩

end Split

section Codec

variable (privateKey publicKey : AllocatedBlob)

theorem keyWord_combined : keyWord (combined privateKey publicKey) 0 = publicKey.bytes.size ∧
    keyWord (combined privateKey publicKey) 1 = privateKey.bytes.size :=
  ⟨keyWord_header (by simp), keyWord_header (by simp)⟩

theorem combined_fits : KeyPairFits (combined privateKey publicKey) := by
  have ⟨hpublic, hprivate⟩ := keyWord_combined privateKey publicKey
  have height : keyPairSize = 8 := rfl
  rw [KeyPairFits, hpublic, hprivate, publicKey.size_toNat, privateKey.size_toNat, length_combined, height]
  omega

theorem parts_combined : publicPart (combined privateKey publicKey) = publicKey.bytes ∧
    privatePart (combined privateKey publicKey) = privateKey.bytes := by
  have ⟨hpublic, hprivate⟩ := keyWord_combined privateKey publicKey
  have hdrop : (combined privateKey publicKey).drop keyPairSize = publicKey.bytes ++ privateKey.bytes :=
    List.drop_left' rfl
  rw [publicPart, privatePart, hpublic, hprivate, publicKey.size_toNat, privateKey.size_toNat, slice, slice,
    ← List.drop_drop, hdrop, List.take_left, List.drop_left, List.take_length]
  exact ⟨rfl, rfl⟩

-- The engine finds the two blobs that the service has combined.
theorem getAgreeBaseKey_combined (keyNode : Bytes → Option HksParamSet) (isPubKey isPlainPubKey : Bool) :
    getAgreeBaseKey keyNode isPubKey isPlainPubKey (combined privateKey publicKey) =
      keyOfPart keyNode isPlainPubKey (if isPubKey then publicKey.bytes else privateKey.bytes) := by
  have ⟨hpublic, hprivate⟩ := keyWord_combined privateKey publicKey
  have ⟨hpublicPart, hprivatePart⟩ := parts_combined privateKey publicKey
  rw [getAgreeBaseKey_eq (combined_fits privateKey publicKey), hpublicPart, hprivatePart]
  cases isPubKey
  case true => exact if_pos (by rw [if_pos rfl, hpublic, publicKey.size_toNat]; exact publicKey.allocated)
  case false =>
    exact if_pos (by rw [if_neg (by decide), hprivate, privateKey.size_toNat]; exact privateKey.allocated)

variable (word : SizeT) (keyNode : Bytes → Option HksParamSet)
  (agreeKey : UInt32 → Bytes → Bytes → Except HksErrorCode Bytes) (paramSet : HksParamSet)

theorem genKeyByAgree_combined (h : 8 + privateKey.bytes.length + publicKey.bytes.length ≤ 0x800000) :
    genKeyByAgree keyNode agreeKey word paramSet (combined privateKey publicKey) =
      agreeParts keyNode agreeKey paramSet privateKey.bytes publicKey.bytes := by
  have hsmall : (combined privateKey publicKey).length < UInt32.size := by
    rw [length_combined, UInt32.size]
    omega
  have hcheck := (@checkAgreeKeyIn_ok word ⟨_, hsmall⟩).mpr (combined_fits privateKey publicKey)
  rw [genKeyByAgree, hcheck, getAgreePriKey, getAgreePubKey, getAgreeBaseKey_combined, getAgreeBaseKey_combined]
  rfl

-- So the keys that the service has looked up are those that the engine agrees on.
theorem genKeyByAgree_getAgreeKeyPair {keyData : Bytes → Except HksErrorCode AllocatedBlob} {alg : UInt32}
    {serviceParamSet : HksParamSet} {keyPair : Bytes}
    (h : getAgreeKeyPair keyData alg serviceParamSet = .ok keyPair) :
    ∃ publicKey privateKey, getAgreePublicKey keyData alg serviceParamSet = .ok publicKey ∧
      getAgreePrivateKey keyData serviceParamSet = .ok privateKey ∧
      genKeyByAgree keyNode agreeKey word paramSet keyPair =
        agreeParts keyNode agreeKey paramSet privateKey.bytes publicKey.bytes := by
  obtain ⟨publicKey, hpublic, h⟩ := Except.bind_eq_ok.mp h
  obtain ⟨privateKey, hprivate, h⟩ := Except.bind_eq_ok.mp h
  rw [conbineIntoKeyPair_eq] at h
  split at h
  case isFalse => nomatch h
  case isTrue hle =>
    cases h
    exact ⟨publicKey, privateKey, checked_eq_ok.mp hpublic, checked_eq_ok.mp hprivate,
      genKeyByAgree_combined _ _ _ _ _ _ hle⟩

-- What the service combines, which it does for all keys that an allocation has room for, the engine takes
-- apart, and the engine reads nothing but what it is given.
theorem agreeKeyPair_split :
    (∀ privateKey publicKey : AllocatedBlob,
      0x800000 < 8 + privateKey.bytes.length + publicKey.bytes.length ∧
        conbineIntoKeyPair privateKey publicKey = .error (.error .mallocFail) ∨
      8 + privateKey.bytes.length + publicKey.bytes.length ≤ 0x800000 ∧
      ∃ keyPair, conbineIntoKeyPair privateKey publicKey = .ok keyPair ∧
        checkAgreeKeyIn word keyPair = .ok () ∧
        getAgreeBaseKey keyNode false true keyPair = .ok privateKey.bytes ∧
        getAgreeBaseKey keyNode true true keyPair = .ok publicKey.bytes ∧
        genKeyByAgree keyNode agreeKey word paramSet keyPair =
          agreeParts keyNode agreeKey paramSet privateKey.bytes publicKey.bytes) ∧
    (∀ keyIn : KeyIn,
      (checkAgreeKeyIn word keyIn.bytes = .ok () ↔ KeyPairFits keyIn.bytes) ∧
      Inside (genKeyByAgree keyNode agreeKey word paramSet keyIn.bytes)) := by
  refine ⟨fun privateKey publicKey => ?_, fun keyIn => ⟨checkAgreeKeyIn_ok keyIn, inside_genKeyByAgree agreeKey keyIn⟩⟩
  rw [conbineIntoKeyPair_eq]
  by_cases h : 8 + privateKey.bytes.length + publicKey.bytes.length ≤ 0x800000
  case neg => exact .inl ⟨Nat.lt_of_not_le h, if_neg h⟩
  case pos =>
    have hsmall : (combined privateKey publicKey).length < UInt32.size := by
      rw [length_combined, UInt32.size]
      omega
    exact .inr ⟨h, _, if_pos h, (checkAgreeKeyIn_ok ⟨_, hsmall⟩).mpr (combined_fits privateKey publicKey),
      getAgreeBaseKey_combined .., getAgreeBaseKey_combined .., genKeyByAgree_combined _ _ _ _ _ _ h⟩

end Codec

end Huks.InPlace
