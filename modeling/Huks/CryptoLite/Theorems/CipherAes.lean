import Huks.CryptoLite.CipherAes
import Huks.Lib.Base64
import Huks.Lib.StateError

namespace Huks.CryptoLite

section CString

@[simp]
theorem ofBuffer_string (text : CString) (rest : Bytes) : CString.ofBuffer (text.bytes ++ 0 :: rest) = text := by
  have htake : (text.bytes ++ 0 :: rest).takeWhile (· ≠ 0) = text.bytes := by
    rw [List.takeWhile_append_of_pos, List.takeWhile_cons_of_neg (by simp), List.append_nil]
    exact fun c hc => by simpa using ne_of_mem_of_not_mem hc text.nulFree
  simp only [CString.ofBuffer, htake]

theorem strlen_string (text : CString) (rest : Bytes) : strlen (text.bytes ++ 0 :: rest) = .ok text.bytes.length := by
  rw [strlen, if_pos (by simp), ofBuffer_string]
  rfl

-- A string ends at the first zero.
theorem length_ofBuffer_le {data : Bytes} {i : Nat} (h : data[i]? = some 0) :
    (CString.ofBuffer data).bytes.length ≤ i := by
  by_contra! hlt
  have hpre : (CString.ofBuffer data).bytes <+: data := List.takeWhile_prefix _
  have hzero : (CString.ofBuffer data).bytes[i]? = some 0 := by
    rw [← h]
    exact (List.prefix_iff_getElem?.mp hpre i hlt).symm ▸ List.getElem?_eq_getElem hlt
  exact (CString.ofBuffer data).nulFree (List.mem_of_getElem? hzero)

end CString

section Index

variable {data a b : Bytes} {i n : Nat} {c : UInt8}

theorem toInt32_of_lt {m : Nat} (h : m < 2 ^ 31) : toInt32 m = m := by
  rw [toInt32]
  omega

theorem toInt32_le (m : Nat) : toInt32 m ≤ m := by
  rw [toInt32]
  omega

theorem charAt_nat (h : i < data.length) : charAt data i = .ok data[i] := by
  rw [charAt, if_pos (Int.natCast_nonneg i), Int.toNat_natCast, elemAt_eq h]

theorem setChar_nat (h : i < data.length) : setChar data i c = .ok (data.set i c) := by
  rw [setChar, if_pos ⟨Int.natCast_nonneg i, by rwa [Int.toNat_natCast]⟩, Int.toNat_natCast]
  rfl

theorem charAt_neg {i : Int} (h : i < 0) : charAt data i = .error .outside := by
  rw [charAt, if_neg (by omega)]
  rfl

-- One element between the others
theorem charAt_between {i : Int} (h : i = a.length) : charAt (a ++ c :: b) i = .ok c := by
  rw [h, charAt_nat (by simp)]
  simp

theorem setChar_between {i : Int} {d : UInt8} (h : i = a.length) : setChar (a ++ d :: b) i c = .ok (a ++ c :: b) := by
  rw [h, setChar_nat (by simp)]
  simp

end Index

section Padding

variable {a b : Bytes} {k : Nat} {c : UInt8}

-- `PaddingPkcs5` fills the bytes behind the text.
theorem foldlM_padChar (h : k ≤ b.length) :
    (List.range k).foldlM (padChar a.length c) (a ++ b) = .ok (a ++ .replicate k c ++ b.drop k) := by
  induction k
  case zero => simp [pure, Except.pure]
  case succ k ih =>
    have hdrop : b.drop k = b[k] :: b.drop (k + 1) := List.drop_eq_getElem_cons h
    rw [List.range_succ, List.foldlM_append, ih (Nat.le_of_succ_le h), hdrop]
    have hset := @setChar_between (a ++ .replicate k c) (b.drop (k + 1)) c (a.length + k : Nat) b[k] (by simp)
    rw [ok_bind, List.foldlM_cons, padChar, hset, List.replicate_succ', ok_bind]
    simp [pure, Except.pure]

-- `UnpaddingPkcs5` clears them from the back.
theorem foldlM_unpadChar {p : Nat} (h : k ≤ p) :
    (List.range k).foldlM (unpadChar (a.length + p : Nat) c) (a ++ .replicate p c ++ b) =
      .ok (a ++ .replicate (p - k) c ++ .replicate k 0 ++ b) := by
  induction k
  case zero => simp [pure, Except.pure]
  case succ k ih =>
    have hlast : List.replicate (p - k) c = .replicate (p - (k + 1)) c ++ [c] := by
      rw [show p - k = p - (k + 1) + 1 by omega, List.replicate_succ']
    have hindex : ((a.length + p : Nat) : Int) - 1 - k = (a ++ List.replicate (p - (k + 1)) c).length := by
      rw [List.length_append, List.length_replicate]
      omega
    rw [List.range_succ, List.foldlM_append, ih (Nat.le_of_succ_le h), hlast, ok_bind, List.foldlM_cons]
    have hassoc : a ++ (.replicate (p - (k + 1)) c ++ [c]) ++ .replicate k 0 ++ b =
        a ++ .replicate (p - (k + 1)) c ++ c :: (.replicate k 0 ++ b) := by simp
    rw [hassoc, unpadChar, charAt_between hindex, ok_bind, if_neg (by simp), setChar_between hindex,
      List.replicate_succ, ok_bind]
    simp [pure, Except.pure]

-- The text with its padding
def padded (text : Bytes) : Bytes :=
  if text.length % aesBlockSize = 0 then
    text
  else
    text ++ .replicate (aesBlockSize - text.length % aesBlockSize) (aesBlockSize - text.length % aesBlockSize).toUInt8

-- The smallest multiple of the block size that is not smaller
def roundUp (len : Nat) : Nat :=
  if len % aesBlockSize ≠ 0 then len / aesBlockSize * aesBlockSize + aesBlockSize else len

theorem length_padded (text : Bytes) : (padded text).length = roundUp text.length := by
  by_cases h : text.length % aesBlockSize = 0
  case pos => rw [padded, roundUp, if_pos h, if_neg (not_not.mpr h)]
  case neg =>
    rw [padded, roundUp, if_neg h, if_pos h, List.length_append, List.length_replicate]
    simp only [aesBlockSize] at h ⊢
    omega

theorem length_padded_mod (text : Bytes) : (padded text).length % aesBlockSize = 0 := by
  rw [length_padded, roundUp]
  split
  case isTrue h =>
    rw [aesBlockSize]
    omega
  case isFalse h => exact not_not.mp h

theorem padded_eq_nil {text : Bytes} : padded text = [] ↔ text = [] := by
  rw [padded]
  split
  case isTrue h => exact Iff.rfl
  case isFalse h => exact iff_of_false (by simp [aesBlockSize]; omega) (by rintro rfl; exact h rfl)

-- What is left of padding that is there
theorem unpaddingPkcs5_padded {text rest : Bytes} (h : text.length % aesBlockSize ≠ 0) :
    unpaddingPkcs5 (padded text ++ rest) (padded text).length =
      .ok (text ++ .replicate (aesBlockSize - text.length % aesBlockSize) 0 ++ rest, text.length) := by
  have hpos : 0 < aesBlockSize - text.length % aesBlockSize := Nat.sub_pos_of_lt (Nat.mod_lt _ (by decide))
  have hlt : aesBlockSize - text.length % aesBlockSize < aesBlockSize := by omega
  rw [padded, if_neg h, List.length_append, List.length_replicate]
  generalize aesBlockSize - text.length % aesBlockSize = p at hpos hlt
  have hp : p.toUInt8.toNat = p := Nat.mod_eq_of_lt (Nat.lt_trans hlt (by decide))
  have hfirst : ¬(p.toUInt8 = 0 ∨ aesBlockSize ≤ p.toUInt8.toNat) := by
    rw [← UInt8.toNat_inj, hp]
    exact fun h => h.elim (Nat.ne_of_gt hpos) (Nat.not_le.mpr hlt)
  have hlast : text ++ .replicate p p.toUInt8 ++ rest =
      text ++ .replicate (p - 1) p.toUInt8 ++ p.toUInt8 :: rest := by
    rw [show p = p - 1 + 1 by omega, List.replicate_succ']
    simp
  have hchar : charAt (text ++ .replicate p p.toUInt8 ++ rest) ((text.length + p : Nat) - 1) = .ok p.toUInt8 := by
    rw [hlast]
    refine charAt_between ?_
    rw [List.length_append, List.length_replicate]
    omega
  rw [unpaddingPkcs5, hchar, ok_bind, if_neg hfirst, hp, foldlM_unpadChar (Nat.le_refl p), ok_bind, Nat.sub_self]
  simp [pure, Except.pure]

end Padding

section Unpadding

variable {data : Bytes} {dataLen i : Nat} {padLen : UInt8}

-- A round clears one byte, or refuses.
theorem confined_unpadChar {Q : Bytes → Prop} (hi : i < dataLen) (hle : dataLen ≤ data.length)
    (h : Q (data.set (dataLen - 1 - i) 0)) : Confined Q (unpadChar dataLen padLen data i) := by
  have hindex : (dataLen : Int) - 1 - i = (dataLen - 1 - i : Nat) := by omega
  rw [unpadChar, hindex, charAt_nat (by omega), ok_bind, setChar_nat (by omega)]
  split
  case isTrue => exact trivial
  case isFalse => exact h

-- From a block on there are as many bytes as the padding can name, and the last one is cleared.
theorem confined_unpaddingPkcs5 (h : aesBlockSize ≤ dataLen) (hle : dataLen ≤ data.length) :
    Confined (fun r => r.1[dataLen - 1]? = some 0) (unpaddingPkcs5 data dataLen) := by
  have hpos : 0 < dataLen := Nat.lt_of_lt_of_le (by decide) h
  have hlast : (dataLen : Int) - 1 = (dataLen - 1 : Nat) := by omega
  rw [unpaddingPkcs5, hlast, charAt_nat (by omega), ok_bind]
  generalize data[dataLen - 1] = padLen
  split
  case isTrue => exact trivial
  case isFalse hpad =>
    have ⟨hzero, hsmall⟩ := not_or.mp hpad
    have hne : padLen.toNat ≠ 0 := fun h0 => hzero (UInt8.toNat_inj.mp h0)
    obtain ⟨n, hn⟩ := Nat.exists_eq_succ_of_ne_zero hne
    rw [confined_bind, hn, List.range_succ_eq_map, List.foldlM_cons, confined_bind]
    refine confined_unpadChar hpos hle (confined_foldlM (Q := fun d => d.length = data.length ∧
      d[dataLen - 1]? = some 0) ?_ ⟨List.length_set, ?_⟩ |>.mono fun _ _ hd => hd.2)
    case refine_1 =>
      intro d j hj ⟨hlen, hd⟩
      have ⟨k, hk, hjk⟩ := List.mem_map.mp hj
      have hlt : j < dataLen := by
        have := List.mem_range.mp hk
        omega
      refine confined_unpadChar hlt (by rwa [hlen]) ⟨by rw [List.length_set, hlen], ?_⟩
      rw [List.getElem?_set_ne (by omega), hd]
    case refine_2 =>
      rw [Nat.sub_zero, List.getElem?_set_self (by omega)]

-- Without a byte in front of the end there is nothing to read.
theorem unpaddingPkcs5_outside {dataLen : Int} (h : dataLen ≤ 0) : unpaddingPkcs5 data dataLen = .error .outside := by
  rw [unpaddingPkcs5, charAt_neg (by omega)]
  rfl

end Unpadding

variable {lib : Mbedtls} {text key : CString} {iv : AesIvMode}

section Init

theorem mallocDecodeData_eq_ok {encoded data : Bytes} :
    mallocDecodeData lib encoded = .ok data ↔ lib.base64Decode encoded = some data ∧ data ≠ [] := by
  rw [mallocDecodeData]
  split
  case h_1 d hd =>
    rw [hd, Option.some_inj]
    split
    case isTrue h => exact ⟨nofun, fun ⟨he, hne⟩ => absurd (he ▸ h) hne⟩
    case isFalse h => exact ⟨fun he => Except.ok.inj he ▸ ⟨rfl, h⟩, fun ⟨he, _⟩ => he ▸ rfl⟩
  case h_2 hd =>
    rw [hd]
    exact ⟨nofun, nofun⟩

-- `k` is the key, and `v` the initialisation vector.
structure Accepts (lib : Mbedtls) (key : CString) (iv : AesIvMode) (k v : Bytes) : Prop where
  decoded : lib.base64Decode key.bytes = some k
  length  : k.length = keyLen
  vector  : initAesCryptContext lib k iv = .ok v

theorem initAesCryptData_eq_ok {action : Action} {ctx : AesCryptContext} :
    initAesCryptData lib action text key iv = .ok ctx ↔
      ∃ t n k v, initAesCryptDataText lib action text = .ok (t, n) ∧ Accepts lib key iv k v ∧
        ctx = ⟨action, t, n, k, v⟩ := by
  rw [initAesCryptData, initAesData]
  simp only [Except.bind_eq_ok, Prod.exists]
  constructor
  case mp =>
    rintro ⟨t, n, k, ⟨t', n', htext, k', hk, h⟩, v, hv, hctx⟩
    split at h
    case isTrue => cases h
    case isFalse hlen =>
      cases h
      exact ⟨t, n, k, v, htext, ⟨(mallocDecodeData_eq_ok.mp hk).1, not_not.mp hlen, hv⟩, (Except.ok.inj hctx).symm⟩
  case mpr =>
    rintro ⟨t, n, k, v, htext, hk, rfl⟩
    have hne : k ≠ [] := by
      rintro rfl
      cases hk.length
    refine ⟨t, n, k, ⟨t, n, htext, k, mallocDecodeData_eq_ok.mpr ⟨hk.decoded, hne⟩, ?_⟩, v, hk.vector, rfl⟩
    rw [if_neg (not_not.mpr hk.length)]
    rfl

theorem le_roundUp (len : Nat) : len ≤ roundUp len := by
  rw [← List.length_replicate (n := len) (a := (0 : UInt8)), ← length_padded, padded]
  split
  case isTrue => exact Nat.le_refl _
  case isFalse => exact List.length_append ▸ Nat.le_add_right _ _

theorem roundUp_lt (len : Nat) : roundUp len < len + aesBlockSize := by
  rw [roundUp]
  split
  case isTrue h =>
    rw [aesBlockSize] at h ⊢
    omega
  case isFalse => exact Nat.lt_add_of_pos_right (by decide)

-- A length from `2 ^ 31` on is negative, or the text does not fit.
theorem toInt32_roundUp {len : Nat} (h : ¬roundUp len < 2 ^ 31) :
    toInt32 (roundUp len) + 1 ≤ 0 ∨ (toInt32 (roundUp len) + 1).toNat < len := by
  have hlt := roundUp_lt len
  rw [toInt32]
  simp only [aesBlockSize] at hlt
  split
  case isTrue => right; omega
  case isFalse => left; omega

-- The text in a buffer of zeros, which has room for the padding and a zero
theorem paddingPkcs5_zeros (h : roundUp text.bytes.length < 2 ^ 31) :
    paddingPkcs5 (splice (.replicate (roundUp text.bytes.length + 1) 0) 0 text.bytes) text.bytes.length =
      .ok (padded text.bytes ++ [0], (padded text.bytes).length) := by
  have hsplice (n : Nat) : splice (.replicate n 0) 0 text.bytes =
      text.bytes ++ .replicate (n - text.bytes.length) 0 := by
    rw [splice, List.take_zero, List.nil_append, Nat.zero_add, List.drop_replicate]
  rw [hsplice, length_padded, paddingPkcs5]
  split
  case isTrue hmod =>
    rw [roundUp, if_neg (not_not.mpr hmod)] at h ⊢
    rw [Nat.add_sub_cancel_left, List.replicate_one, strlen_string, ok_bind, toInt32_of_lt h, padded, if_pos hmod]
    rfl
  case isFalse hmod =>
    have hround : roundUp text.bytes.length =
        aesBlockSize - text.bytes.length % aesBlockSize + text.bytes.length := by
      rw [← length_padded, padded, if_neg hmod, List.length_append, List.length_replicate, Nat.add_comm]
    rw [hround] at h
    rw [padded, if_neg hmod, hround, Nat.add_right_comm, Nat.add_sub_cancel]
    generalize aesBlockSize - text.bytes.length % aesBlockSize = p at h
    have hfill := @foldlM_padChar text.bytes (.replicate (p + 1) 0) p p.toUInt8 (by simp)
    rw [List.drop_replicate, Nat.add_sub_cancel_left] at hfill
    simp only [hfill, ok_bind, toInt32_of_lt h]
    rfl

-- The buffer for the text is as long as the padded text and a zero.
theorem initAesCryptDataText_encrypt : initAesCryptDataText lib .encrypt text =
    if roundUp text.bytes.length < 2 ^ 31 then
      .ok (padded text.bytes ++ [0], (padded text.bytes).length)
    else
      .error (.error .general) := by
  have hround : (if text.bytes.length % aesBlockSize ≠ 0 then
      (text.bytes.length : Int) / aesBlockSize * aesBlockSize + aesBlockSize else text.bytes.length) =
      roundUp text.bytes.length := by
    rw [roundUp]
    split
    case isTrue => push_cast; rfl
    case isFalse => rfl
  rw [initAesCryptDataText]
  simp only [hround]
  by_cases h : roundUp text.bytes.length < 2 ^ 31
  case pos =>
    have hle := le_roundUp text.bytes.length
    rw [if_pos h, toInt32_of_lt h, if_neg (by omega), if_neg (by omega)]
    exact paddingPkcs5_zeros h
  case neg =>
    rw [if_neg h]
    rcases toInt32_roundUp h with hneg | hsmall
    case inl => rw [if_pos hneg]; rfl
    case inr => rw [if_pos hsmall, ite_self]; rfl

theorem initAesCryptDataText_decrypt_eq_ok {t : Bytes} {n : Int} :
    initAesCryptDataText lib .decrypt text = .ok (t, n) ↔ ∃ data, lib.base64Decode text.bytes = some data ∧
      data ≠ [] ∧ t = data ++ [0] ∧ n = toInt32 data.length - (toInt32 data.length).tmod aesBlockSize := by
  simp only [initAesCryptDataText, Except.bind_eq_ok, mallocDecodeData_eq_ok, pure, Except.pure, Except.ok.injEq,
    Prod.mk.injEq, and_assoc, @eq_comm Bytes t, @eq_comm Int n]

end Init

section RoundTrip

variable {k v p : Bytes}

-- Whole blocks in front of the rest of the buffer
theorem aesCryptCbc_blocks {action : Action} {rest : Bytes} (h : p.length % aesBlockSize = 0) :
    aesCryptCbc lib ⟨action, p ++ rest, p.length, k, v⟩ =
      .ok ((if action = .encrypt then lib.cbcEncrypt k v p else lib.cbcDecrypt k v p) ++ rest) := by
  have hread : (readAt (p ++ rest) 0 p.length : CipherM Bytes) = .ok p := by
    refine readAt_eq_ok.mpr ⟨.inr (by simp), ?_⟩
    rw [slice, List.drop_zero, List.take_left]
  have hsplice (out : Bytes) (hlen : out.length = p.length) : splice (p ++ rest) 0 out = out ++ rest :=
    @splice_middle _ [] p out rest hlen
  simp only [aesCryptCbc, if_neg (Int.not_lt.mpr (Int.natCast_nonneg _)), Int.toNat_natCast]
  rw [if_neg (not_not.mpr h), hread, ok_bind, hsplice]
  case hlen =>
    split
    case isTrue => exact lib.length_cbcEncrypt k v p
    case isFalse => exact lib.length_cbcDecrypt k v p
  rfl

theorem doAesCbcEncrypt_encrypt (h : p.length % aesBlockSize = 0) :
    doAesCbcEncrypt lib ⟨.encrypt, p ++ [0], p.length, k, v⟩ =
      if p = [] then
        .error (.error .general)
      else
        .ok ⟨.encrypt, lib.base64Encode (lib.cbcEncrypt k v p) ++ [0, 0],
          toInt32 (lib.base64Encode (lib.cbcEncrypt k v p)).length, k, v⟩ := by
  have hlen : (lib.cbcEncrypt k v p).length = p.length := lib.length_cbcEncrypt k v p
  have hnil : lib.cbcEncrypt k v p = [] ↔ p = [] := by rw [← List.length_eq_zero_iff, hlen, List.length_eq_zero_iff]
  have hread : (readAt (lib.cbcEncrypt k v p ++ [0]) 0 p.length : CipherM Bytes) = .ok (lib.cbcEncrypt k v p) := by
    refine readAt_eq_ok.mpr ⟨.inr (by simp [hlen]), ?_⟩
    rw [slice, List.drop_zero, ← hlen, List.take_left]
  rw [doAesCbcEncrypt, aesCryptCbc_blocks h, ok_bind, if_pos rfl, if_pos rfl]
  simp only [Int.toNat_natCast, hread, ok_bind, mallocEncodeData, hnil]
  split
  case isTrue => rfl
  case isFalse => rfl

theorem crypt_encrypt_eq_ok {out : CString} :
    crypt lib .encrypt text key iv = .ok out ↔ text.bytes ≠ [] ∧ roundUp text.bytes.length < 2 ^ 31 ∧
      ∃ k v, Accepts lib key iv k v ∧ out.bytes = lib.base64Encode (lib.cbcEncrypt k v (padded text.bytes)) := by
  have hbytes (data : Bytes) : CString.ofBuffer (lib.base64Encode data ++ [0, 0]) =
      ⟨lib.base64Encode data, lib.encode_nulFree data⟩ :=
    ofBuffer_string ⟨lib.base64Encode data, lib.encode_nulFree data⟩ [0]
  rw [crypt, Except.bind_eq_ok]
  constructor
  case mp =>
    rintro ⟨ctx, hctx, h⟩
    have ⟨t, n, k, v, htext, hk, hmake⟩ := initAesCryptData_eq_ok.mp hctx
    rw [initAesCryptDataText_encrypt] at htext
    split at htext
    case isFalse => cases htext
    case isTrue hlt =>
      cases htext
      rw [hmake, doAesCbcEncrypt_encrypt (length_padded_mod _)] at h
      split at h
      case isTrue => cases h
      case isFalse hne =>
        refine ⟨mt padded_eq_nil.mpr hne, hlt, k, v, hk, ?_⟩
        rw [ok_bind, hbytes] at h
        rw [← Except.ok.inj h]
  case mpr =>
    rintro ⟨hne, hlt, k, v, hk, hout⟩
    have htext := @initAesCryptDataText_encrypt lib text
    rw [if_pos hlt] at htext
    refine ⟨_, initAesCryptData_eq_ok.mpr ⟨_, _, k, v, htext, hk, rfl⟩, ?_⟩
    rw [doAesCbcEncrypt_encrypt (length_padded_mod _), if_neg (mt padded_eq_nil.mp hne), ok_bind, hbytes]
    simp only [← hout]
    rfl

-- What decryption makes of the text that belongs to `p`
theorem crypt_decrypt {out : CString} (hk : Accepts lib key iv k v) (hne : p ≠ []) (h : p.length % aesBlockSize = 0)
    (hlt : p.length < 2 ^ 31) (hout : out.bytes = lib.base64Encode (lib.cbcEncrypt k v p)) :
    crypt lib .decrypt out key iv = (do
      let (t, n) ← unpaddingPkcs5 (p ++ [0]) p.length
      if n < 0 then throw (.error .general) else return CString.ofBuffer t) := by
  have hlen : (lib.cbcEncrypt k v p).length = p.length := lib.length_cbcEncrypt k v p
  have hcut : (p.length : Int) - (p.length : Int).tmod aesBlockSize = p.length := by
    rw [← Int.ofNat_tmod, h]
    omega
  have htext : initAesCryptDataText lib .decrypt out = .ok (lib.cbcEncrypt k v p ++ [0], p.length) := by
    refine initAesCryptDataText_decrypt_eq_ok.mpr ⟨_, hout ▸ lib.decode_encode _, ?_, rfl, ?_⟩
    case refine_1 => rwa [ne_eq, ← List.length_eq_zero_iff, hlen, List.length_eq_zero_iff]
    case refine_2 => rw [hlen, toInt32_of_lt hlt, hcut]
  have hctx := initAesCryptData_eq_ok.mpr ⟨_, _, k, v, htext, hk, rfl⟩
  have hblocks := @aesCryptCbc_blocks lib k v (lib.cbcEncrypt k v p) .decrypt [0] (hlen ▸ h)
  rw [if_neg nofun, lib.decrypt_encrypt k v p h, hlen] at hblocks
  rw [crypt, hctx, ok_bind, doAesCbcEncrypt, hblocks, ok_bind, if_neg nofun]
  match unpaddingPkcs5 (p ++ [0]) p.length with
  | .error e    => rfl
  | .ok (t, n)  =>
    simp only [ok_bind]
    split
    case isTrue => rfl
    case isFalse => rfl

-- Padding that is there is taken away again.
theorem crypt_decrypt_padded {out : CString} (hk : Accepts lib key iv k v) (hne : text.bytes ≠ [])
    (hlt : roundUp text.bytes.length < 2 ^ 31) (h : text.bytes.length % aesBlockSize ≠ 0)
    (hout : out.bytes = lib.base64Encode (lib.cbcEncrypt k v (padded text.bytes))) :
    crypt lib .decrypt out key iv = .ok text := by
  rw [crypt_decrypt hk (mt padded_eq_nil.mp hne) (length_padded_mod _) (by rwa [length_padded]) hout,
    unpaddingPkcs5_padded h, ok_bind]
  simp only [if_neg (Int.not_lt.mpr (Int.natCast_nonneg text.bytes.length))]
  have hpos : 0 < aesBlockSize - text.bytes.length % aesBlockSize := Nat.sub_pos_of_lt (Nat.mod_lt _ (by decide))
  obtain ⟨n, hn⟩ := Nat.exists_eq_add_of_lt hpos
  rw [hn, Nat.zero_add, List.replicate_succ, List.append_assoc, List.cons_append, ofBuffer_string]
  rfl

-- A text of whole blocks has no padding, and `UnpaddingPkcs5` refuses it or takes a part of the text away.
theorem crypt_decrypt_blocks {out : CString} (hk : Accepts lib key iv k v) (hne : text.bytes ≠ [])
    (hlt : roundUp text.bytes.length < 2 ^ 31) (h : text.bytes.length % aesBlockSize = 0)
    (hout : out.bytes = lib.base64Encode (lib.cbcEncrypt k v (padded text.bytes))) :
    crypt lib .decrypt out key iv ≠ .ok text := by
  have hpos : 0 < text.bytes.length := List.length_pos_iff.mpr hne
  have hblock : aesBlockSize ≤ text.bytes.length := Nat.le_of_dvd hpos (Nat.dvd_of_mod_eq_zero h)
  rw [crypt_decrypt hk (mt padded_eq_nil.mp hne) (length_padded_mod _) (by rwa [length_padded]) hout, padded, if_pos h]
  have hclear := @confined_unpaddingPkcs5 (text.bytes ++ [0]) text.bytes.length hblock (by simp)
  intro heq
  have ⟨⟨t, n⟩, hunpad, hres⟩ := Except.bind_eq_ok.mp heq
  rw [hunpad] at hclear
  have hshort := length_ofBuffer_le hclear
  dsimp only at hres
  split at hres
  case isTrue => cases hres
  case isFalse =>
    rw [Except.ok.inj hres] at hshort
    omega

-- A text that is encrypted comes back when the padding has a byte at least.
theorem crypt_round_trip :
    (∀ out, crypt lib .encrypt text key iv = .ok out → crypt lib .decrypt out key iv = .ok text) ↔
    (text.bytes ≠ [] → roundUp text.bytes.length < 2 ^ 31 → (∃ k v, Accepts lib key iv k v) →
      text.bytes.length % aesBlockSize ≠ 0) := by
  constructor
  case mp =>
    rintro h hne hlt ⟨k, v, hk⟩ hmod
    have hnul := lib.encode_nulFree (lib.cbcEncrypt k v (padded text.bytes))
    have hout := crypt_encrypt_eq_ok.mpr ⟨hne, hlt, k, v, hk, (rfl : (CString.mk _ hnul).bytes = _)⟩
    exact crypt_decrypt_blocks hk hne hlt hmod rfl (h _ hout)
  case mpr =>
    intro h out hcrypt
    have ⟨hne, hlt, k, v, hk, hout⟩ := crypt_encrypt_eq_ok.mp hcrypt
    exact crypt_decrypt_padded hk hne hlt (h hne hlt ⟨k, v, hk⟩) hout

end RoundTrip

section Decrypt

variable {k v data : Bytes}

-- Of a length that is not negative, whole blocks are left.
theorem cut_nat {t : Int} (h : 0 ≤ t) : ∃ m : Nat, t - t.tmod aesBlockSize = m ∧ m % aesBlockSize = 0 ∧
    (m : Int) ≤ t ∧ t < m + aesBlockSize := by
  obtain ⟨n, rfl⟩ := Int.eq_ofNat_of_zero_le h
  refine ⟨n - n % aesBlockSize, ?_⟩
  rw [← Int.ofNat_tmod, aesBlockSize]
  omega

-- With a block at least, all the accesses are inside.
theorem inside_decrypt (h : aesBlockSize ≤ toInt32 data.length) :
    Inside (doAesCbcEncrypt lib ⟨.decrypt, data ++ [0],
      toInt32 data.length - (toInt32 data.length).tmod aesBlockSize, k, v⟩) := by
  have ⟨m, hm, hmod, hmle, hlt⟩ := cut_nat (Int.le_trans (by decide) h)
  have hle : m ≤ data.length := Int.ofNat_le.mp (Int.le_trans hmle (toInt32_le _))
  have hblock : aesBlockSize ≤ m := by
    rw [aesBlockSize] at *
    omega
  have hlen : (data.take m).length = m := by rw [List.length_take, Nat.min_eq_left hle]
  have hsplit : data ++ [0] = data.take m ++ (data.drop m ++ [0]) := by
    rw [← List.append_assoc, List.take_append_drop]
  have hblocks := @aesCryptCbc_blocks lib k v (data.take m) .decrypt (data.drop m ++ [0]) (by rwa [hlen])
  rw [hlen, if_neg nofun] at hblocks
  rw [hm, hsplit, doAesCbcEncrypt, hblocks, ok_bind, if_neg nofun, inside_iff_confined, confined_bind]
  have hroom : m ≤ (lib.cbcDecrypt k v (data.take m) ++ (data.drop m ++ [0])).length := by
    rw [List.length_append, lib.length_cbcDecrypt, hlen]
    exact Nat.le_add_right _ _
  refine (confined_unpaddingPkcs5 hblock hroom).mono fun r _ _ => ?_
  dsimp only
  split
  case isTrue => exact trivial
  case isFalse => exact trivial

-- For whole blocks AES does not refuse.
theorem aesCryptCbc_whole {ctx : AesCryptContext} (h : ctx.textLen % aesBlockSize = 0) :
    aesCryptCbc lib ctx = .error .outside ∨ ∃ text, aesCryptCbc lib ctx = .ok text := by
  have hlength : (if ctx.textLen < 0 then (ctx.textLen + 2 ^ 64).toNat else ctx.textLen.toNat) % aesBlockSize = 0 := by
    rw [aesBlockSize] at *
    split <;> omega
  simp only [aesCryptCbc, hlength, not_true_eq_false, if_false, ne_eq]
  generalize (if ctx.textLen < 0 then (ctx.textLen + 2 ^ 64).toNat else ctx.textLen.toNat) = n
  rw [readAt]
  split
  case isTrue => exact .inr ⟨_, rfl⟩
  case isFalse => exact .inl rfl

-- Where no byte is in front of the end, `UnpaddingPkcs5` reads in front of the buffer, unless AES left it before.
theorem doAesCbcEncrypt_outside {t : Bytes} {n : Int} (hn : n ≤ 0) (hmod : n % aesBlockSize = 0) :
    doAesCbcEncrypt lib ⟨.decrypt, t, n, k, v⟩ = .error .outside := by
  rw [doAesCbcEncrypt]
  rcases @aesCryptCbc_whole lib ⟨.decrypt, t, n, k, v⟩ hmod with h | ⟨t', h⟩
  case inl => rw [h, error_bind]
  case inr => rw [h, ok_bind, if_neg nofun, unpaddingPkcs5_outside hn, error_bind]

theorem not_inside_decrypt (h : ¬aesBlockSize ≤ toInt32 data.length) :
    ¬Inside (doAesCbcEncrypt lib ⟨.decrypt, data ++ [0],
      toInt32 data.length - (toInt32 data.length).tmod aesBlockSize, k, v⟩) := by
  generalize toInt32 data.length = t at h
  have hmod : (t - t.tmod aesBlockSize) % aesBlockSize = 0 := by
    have hdiv := Int.tmod_add_mul_tdiv t aesBlockSize
    rw [Int.sub_eq_iff_eq_add.mpr (Int.add_comm _ _ ▸ hdiv.symm), Int.mul_emod_right]
  have hneg : t - t.tmod aesBlockSize ≤ 0 := by
    rcases Int.le_total 0 t with h0 | h0
    case inl =>
      have ⟨m, hm, hmodm, hmle, _⟩ := cut_nat h0
      rw [aesBlockSize] at *
      omega
    case inr =>
      have ⟨m, hm, _, _, _⟩ := cut_nat (Int.neg_nonneg_of_nonpos h0)
      rw [Int.neg_tmod] at hm
      omega
  rw [doAesCbcEncrypt_outside hneg hmod]
  exact fun hin => hin rfl

theorem inside_decrypt_iff : (∀ ctx, initAesCryptData lib .decrypt text key iv = .ok ctx →
    Inside (doAesCbcEncrypt lib ctx)) ↔
    (∀ data, lib.base64Decode text.bytes = some data → data ≠ [] → (∃ k v, Accepts lib key iv k v) →
      aesBlockSize ≤ toInt32 data.length) := by
  constructor
  case mp =>
    rintro h data hd hne ⟨k, v, hk⟩
    have htext := initAesCryptDataText_decrypt_eq_ok.mpr ⟨data, hd, hne, rfl, rfl⟩
    have hin := h _ (initAesCryptData_eq_ok.mpr ⟨_, _, k, v, htext, hk, rfl⟩)
    exact by_contra fun hshort => not_inside_decrypt hshort hin
  case mpr =>
    intro h ctx hctx
    have ⟨t, n, k, v, htext, hk, hmake⟩ := initAesCryptData_eq_ok.mp hctx
    have ⟨data, hd, hne, ht, hn⟩ := initAesCryptDataText_decrypt_eq_ok.mp htext
    rw [hmake, ht, hn]
    exact inside_decrypt (h data hd hne ⟨k, v, hk⟩)

end Decrypt

-- The round trip needs a byte of padding, and the unpadding a block of text.
theorem aesCrypt_iff (lib : Mbedtls) (text key : CString) (iv : AesIvMode) :
    ((∀ out, crypt lib .encrypt text key iv = .ok out → crypt lib .decrypt out key iv = .ok text) ↔
      (text.bytes ≠ [] → roundUp text.bytes.length < 2 ^ 31 → (∃ k v, Accepts lib key iv k v) →
        text.bytes.length % aesBlockSize ≠ 0)) ∧
    ((∀ ctx, initAesCryptData lib .decrypt text key iv = .ok ctx → Inside (doAesCbcEncrypt lib ctx)) ↔
      (∀ data, lib.base64Decode text.bytes = some data → data ≠ [] → (∃ k v, Accepts lib key iv k v) →
        aesBlockSize ≤ toInt32 data.length)) :=
  ⟨crypt_round_trip, inside_decrypt_iff⟩

section Sample

-- `"0123456789abcdef"`, and what AES makes of it with a key and a vector that are full of `'k'`
def sampleBlock : Bytes := "0123456789abcdef".toList.map fun c => c.toNat.toUInt8

def sampleCipher : Bytes := [149, 158, 23, 188, 16, 235, 12, 179, 150, 86, 140, 10, 20, 116, 18, 123]

def sampleKey : Bytes := .replicate keyLen 0x6b

def sampleCbc (key iv data : Bytes) : Bytes :=
  if key = sampleKey ∧ iv = sampleKey.take aesBlockSize then
    if data = sampleBlock then sampleCipher else if data = sampleCipher then sampleBlock else data
  else
    data

theorem length_sampleCbc (key iv data : Bytes) : (sampleCbc key iv data).length = data.length := by
  rw [sampleCbc]
  split
  case isFalse => rfl
  case isTrue =>
    split
    case isTrue h => rw [h]; rfl
    case isFalse =>
      split
      case isTrue h => rw [h]; rfl
      case isFalse => rfl

theorem sampleCbc_sampleCbc (key iv data : Bytes) : sampleCbc key iv (sampleCbc key iv data) = data := by
  have hne : sampleCipher ≠ sampleBlock := by decide
  by_cases hkey : key = sampleKey ∧ iv = sampleKey.take aesBlockSize
  case neg => simp only [sampleCbc, if_neg hkey]
  case pos =>
    simp only [sampleCbc, if_pos hkey]
    by_cases hblock : data = sampleBlock
    case pos => rw [if_pos hblock, if_neg hne, if_pos rfl, hblock]
    case neg =>
      rw [if_neg hblock]
      by_cases hcipher : data = sampleCipher
      case pos => rw [if_pos hcipher, if_pos rfl, hcipher]
      case neg => rw [if_neg hcipher, if_neg hblock, if_neg hcipher]

def sampleLib : Mbedtls where
  base64Encode      := Base64.encode
  base64Decode      := Base64.decode
  cbcEncrypt        := sampleCbc
  cbcDecrypt        := sampleCbc
  encode_nulFree    := Base64.zero_notMem_encode
  decode_encode     := Base64.decode_encode
  length_cbcEncrypt := length_sampleCbc
  length_cbcDecrypt := length_sampleCbc
  decrypt_encrypt   := fun key iv data _ => sampleCbc_sampleCbc key iv data

def encoded (data : Bytes) : CString := ⟨Base64.encode data, Base64.zero_notMem_encode data⟩

def sampleText : CString := ⟨sampleBlock, by decide⟩

def sampleIv : AesIvMode where
  transformation := none
  ivBuf          := none
  ivOffset       := 0
  ivLen          := 16

theorem accepts_sample : Accepts sampleLib (encoded sampleKey) sampleIv sampleKey (sampleKey.take aesBlockSize) where
  decoded := Base64.decode_encode sampleKey
  length  := by decide
  vector  := rfl

-- One block of text does not come back, and for one byte of decoded text the byte in front of the buffer is read.
theorem aesCrypt_block :
    crypt sampleLib .encrypt sampleText (encoded sampleKey) sampleIv = .ok (encoded sampleCipher) ∧
    crypt sampleLib .decrypt (encoded sampleCipher) (encoded sampleKey) sampleIv = .error (.error .general) ∧
    (initAesCryptData sampleLib .decrypt (encoded [0]) (encoded sampleKey) sampleIv =
      .ok ⟨.decrypt, [0, 0], 0, sampleKey, sampleKey.take aesBlockSize⟩) ∧
    doAesCbcEncrypt sampleLib ⟨.decrypt, [0, 0], 0, sampleKey, sampleKey.take aesBlockSize⟩ = .error .outside := by
  have hne : sampleBlock ≠ [] := by decide
  have hcipher : (encoded sampleCipher).bytes =
      sampleLib.base64Encode (sampleLib.cbcEncrypt sampleKey (sampleKey.take aesBlockSize) sampleBlock) := rfl
  refine ⟨?_, ?_, ?_, doAesCbcEncrypt_outside (by decide) (by decide)⟩
  case refine_1 => exact crypt_encrypt_eq_ok.mpr ⟨hne, by decide, _, _, accepts_sample, hcipher⟩
  case refine_2 =>
    rw [crypt_decrypt accepts_sample hne (by decide) (by decide) hcipher]
    rfl
  case refine_3 =>
    have htext : initAesCryptDataText sampleLib .decrypt (encoded [0]) = .ok ([0, 0], 0) :=
      initAesCryptDataText_decrypt_eq_ok.mpr ⟨[0], Base64.decode_encode [0], by decide, rfl, by decide⟩
    exact initAesCryptData_eq_ok.mpr ⟨_, _, _, _, htext, accepts_sample, rfl⟩

end Sample

end Huks.CryptoLite
