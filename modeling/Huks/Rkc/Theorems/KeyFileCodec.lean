import Huks.Rkc.Theorems.KeyFile

namespace Huks

open EStateM FixedCodec

-- The fields of a version, from the version to the reserve.
def HksKsfDataRkcWithVer.bytes (d : HksKsfDataRkcWithVer) : Bytes :=
  u16.encode d.rkVersion ++ d.ksfDataRkc.bytes

def HksKsfDataMkWithVer.bytes (d : HksKsfDataMkWithVer) : Bytes :=
  u16.encode d.mkVersion ++ d.ksfDataMk.bytes

def ksfRkcFieldsLen : Nat := 128
def ksfMkFieldsLen  : Nat := 92

theorem HksKsfDataRkcWithVer.length_bytes (d : HksKsfDataRkcWithVer) :
    d.bytes.length = ksfRkcFieldsLen := by
  rw [bytes, List.length_append, length_encode, HksKsfDataRkc.length_bytes]
  rfl

theorem HksKsfDataMkWithVer.length_bytes (d : HksKsfDataMkWithVer) :
    d.bytes.length = ksfMkFieldsLen := by
  rw [bytes, List.length_append, length_encode, HksKsfDataMk.length_bytes]
  rfl

section Covers

theorem HksTime.bytes_covers : Covers HksTime.bytes 7 :=
  (u16_covers.append <| u8_covers.append <| u8_covers.append <| u8_covers.append <|
    u8_covers.append u8_covers).map (e := fun (y, mo, d, h, mi, s) => ⟨y, mo, d, h, mi, s⟩) fun _ => rfl

theorem HksKsfDataRkcWithVer.bytes_covers : Covers HksKsfDataRkcWithVer.bytes ksfRkcFieldsLen :=
  (u16_covers.append <| HksTime.bytes_covers.append <| HksTime.bytes_covers.append <|
    (FixedCodec.bytes_covers _).append <| (FixedCodec.bytes_covers _).append <|
    u32_covers.append <| (FixedCodec.bytes_covers _).append <| u32_covers.append <|
    FixedCodec.bytes_covers _).map
    (e := fun (v, ct, et, m, m', i, s, h, r) => ⟨v, ⟨ct, et, m, m', i, s, h, r⟩⟩) fun _ => rfl

theorem HksKsfDataMkWithVer.bytes_covers : Covers HksKsfDataMkWithVer.bytes ksfMkFieldsLen :=
  (u16_covers.append <| HksTime.bytes_covers.append <| HksTime.bytes_covers.append <|
    u32_covers.append <| (FixedCodec.bytes_covers _).append <| (FixedCodec.bytes_covers _).append <|
    FixedCodec.bytes_covers _).map
    (e := fun (v, ct, et, a, i, c, r) => ⟨v, ⟨ct, et, a, i, c, r⟩⟩) fun _ => rfl

end Covers

section Files

variable (sha256 : Bytes → FixedBytes hksRkcHashLen)

-- A file with `n` bytes of fields behind the flag and the hash of them behind these.
structure KsfWellFormed (n : Nat) (src : Bytes) : Prop where
  flag   : src.take hksRkcKsfFlagLen = hksRkcKsfFlag
  length : hksRkcKsfFlagLen + n + hksRkcHashLen ≤ src.length
  hash   : (src.drop (hksRkcKsfFlagLen + n)).take hksRkcHashLen =
    (sha256 ((src.drop hksRkcKsfFlagLen).take n)).val

variable {sha256} {n : Nat} {src : Bytes}

theorem ksfContent_wellFormed (body post : Bytes) :
    KsfWellFormed sha256 body.length (ksfContent sha256 body ++ post) := by
  have hbody : (ksfContent sha256 body ++ post).drop hksRkcKsfFlagLen = body ++ ((sha256 body).val ++ post) := by
    rw [ksfContent, List.append_assoc, drop_flag_append, List.append_assoc]
  constructor
  case flag => rw [ksfContent, List.append_assoc]; rfl
  case length =>
    rw [List.length_append, length_ksfContent, hksRkcKsfFlagLen, hksRkcHashLen]
    omega
  case hash =>
    rw [← List.drop_drop, hbody, List.drop_left, List.take_left, List.take_left' (sha256 body).property]

theorem KsfWellFormed.eq_ksfContent (h : KsfWellFormed sha256 n src) :
    ∃ post, src = ksfContent sha256 ((src.drop hksRkcKsfFlagLen).take n) ++ post := by
  refine ⟨src.drop (hksRkcKsfFlagLen + n + hksRkcHashLen), ?_⟩
  calc src
    _ = src.take hksRkcKsfFlagLen ++ src.drop hksRkcKsfFlagLen := (List.take_append_drop _ _).symm
    _ = hksRkcKsfFlag ++ ((src.drop hksRkcKsfFlagLen).take n ++ src.drop (hksRkcKsfFlagLen + n)) := by
      rw [h.flag, ← List.drop_drop, List.take_append_drop]
    _ = _ := by
      rw [ksfContent, List.append_assoc, List.append_assoc, ← h.hash,
        ← List.drop_drop (i := hksRkcHashLen), List.take_append_drop]

theorem rkcExtractKsfFileFlag_eq_ok {flag post : Bytes} {t : KsfSource}
    (hlen : flag.length = hksRkcKsfFlagLen)
    (h : rkcExtractKsfFileFlag.run ⟨flag ++ post, 0⟩ = .ok () t) : flag = hksRkcKsfFlag := by
  have hne : flag ≠ [] := List.ne_nil_of_length_pos (by rw [hlen]; decide)
  have hrun := (extractFieldFromBuffer_extracts hne).run_bind
    (f := fun fileFlag => if fileFlag ≠ hksRkcKsfFlag then throw .readFileFail else pure ()) [] post
  rw [hlen] at hrun
  have h := hrun.symm.trans h
  split at h
  case isTrue => cases h
  case isFalse heq => exact not_not.mp heq

theorem rkcExtractKsfHash_eq_ok {pre body hash post : Bytes} {t : KsfSource}
    (hpre : pre.length = hksRkcKsfFlagLen) (hlen : hash.length = hksRkcHashLen)
    (h : (rkcExtractKsfHash sha256).run ⟨pre ++ body ++ (hash ++ post), (pre ++ body).length⟩ = .ok () t) :
    hash = (sha256 body).val := by
  have hne : hash ≠ [] := List.ne_nil_of_length_pos (by rw [hlen]; decide)
  have hextract := extractFieldFromBuffer_extracts hne (pre ++ body) post
  rw [hlen] at hextract
  have hsrc : ((pre ++ body ++ (hash ++ post)).drop hksRkcKsfFlagLen).take
      ((pre ++ body).length - hksRkcKsfFlagLen) = body := by
    rw [List.append_assoc, List.drop_left' hpre, List.length_append, hpre, Nat.add_sub_cancel_left,
      List.take_left]
  simp only [rkcExtractKsfHash, run_bind, run_get] at h
  split at h
  case isTrue => cases h
  case isFalse =>
    simp only [run_bind, hextract, hsrc] at h
    split at h
    case isTrue => cases h
    case isFalse heq => exact (not_not.mp heq).symm

-- Where the parts are in a file that is long enough.
theorem exists_ksf_parts {α : Type} {f : α → Bytes} (hf : Covers f n) (h : n + 40 ≤ src.length) :
    ∃ flag a hash post, src = flag ++ (f a ++ (hash ++ post)) ∧
      flag.length = hksRkcKsfFlagLen ∧ hash.length = hksRkcHashLen := by
  have ⟨a, ha⟩ := hf ((src.drop hksRkcKsfFlagLen).take n) (by
    rw [List.length_take, List.length_drop, hksRkcKsfFlagLen]
    omega)
  refine ⟨src.take hksRkcKsfFlagLen, a, (src.drop (hksRkcKsfFlagLen + n)).take hksRkcHashLen,
    src.drop (hksRkcKsfFlagLen + n + hksRkcHashLen), ?_, ?_, ?_⟩
  · rw [ha, ← List.drop_drop (i := hksRkcHashLen), List.take_append_drop, ← List.drop_drop,
      List.take_append_drop, List.take_append_drop]
  · rw [List.length_take, hksRkcKsfFlagLen]
    omega
  · rw [List.length_take, List.length_drop, hksRkcKsfFlagLen, hksRkcHashLen]
    omega

-- What is taken apart is what filling puts there, whatever is behind it.
theorem extractKsfBuf_eq_ok {α : Type} {x : ExtractM α} {f : α → Bytes}
    (hx : ∀ a, Extracts x (f a) a) (hf : Covers f n) (hn : Needs x n) {a : α} :
    extractKsfBuf (do rkcExtractKsfFileFlag; let a ← x; rkcExtractKsfHash sha256; return id a) src = .ok a ↔
      ∃ post, src = ksfContent sha256 (f a) ++ post := by
  constructor
  case mpr =>
    rintro ⟨post, rfl⟩
    exact extractKsfBuf_eq sha256 (hx a) post
  case mp =>
    intro h
    have ⟨flag, b, hash, post, hsrc, hflaglen, hhashlen⟩ :=
      exists_ksf_parts hf (extractKsfBuf_short sha256 hn h)
    subst hsrc
    have ⟨t, hrun⟩ := toExcept_eq_ok.mp h
    have ⟨_, u, hflag, hrun⟩ := run_bind_eq_ok.mp hrun
    cases rkcExtractKsfFileFlag_eq_ok hflaglen hflag
    cases (rkcExtractKsfFileFlag_extracts [] _).symm.trans hflag
    have ⟨a', v, hextract, hrun⟩ := run_bind_eq_ok.mp hrun
    cases (hx b hksRkcKsfFlag (hash ++ post)).symm.trans hextract
    have ⟨_, w, hhash, hrun⟩ := run_bind_eq_ok.mp hrun
    cases hrun
    rw [← List.append_assoc, ← List.length_append] at hhash
    cases rkcExtractKsfHash_eq_ok rfl hhashlen hhash
    exact ⟨post, by rw [ksfContent, List.append_assoc, List.append_assoc]; rfl⟩

theorem extractKsfBufRkc_eq_ok {d : HksKsfDataRkcWithVer} :
    extractKsfBufRkc sha256 src = .ok d ↔ ∃ post, src = ksfContent sha256 d.bytes ++ post := by
  rw [extractKsfBufRkc_eq]
  refine extractKsfBuf_eq_ok (fun d => ?_) HksKsfDataRkcWithVer.bytes_covers ?_
  · exact (extractField_extracts u16 d.rkVersion (by decide)).bind
      ((extractKsfDataRkc_extracts d.ksfDataRkc).map (g := HksKsfDataRkcWithVer.mk d.rkVersion))
  · exact (extractField_needs u16).bind fun v => extractKsfDataRkc_needs.bind fun a => .pure _

theorem extractKsfBufMk_eq_ok {d : HksKsfDataMkWithVer} :
    extractKsfBufMk sha256 src = .ok d ↔ ∃ post, src = ksfContent sha256 d.bytes ++ post := by
  rw [extractKsfBufMk_eq]
  refine extractKsfBuf_eq_ok (fun d => ?_) HksKsfDataMkWithVer.bytes_covers ?_
  · exact (extractField_extracts u16 d.mkVersion (by decide)).bind
      ((extractKsfDataMk_extracts d.ksfDataMk).map (g := HksKsfDataMkWithVer.mk d.mkVersion))
  · exact (extractField_needs u16).bind fun v => extractKsfDataMk_needs.bind fun a => .pure _

theorem fillKsfBufRkc_eq (d : HksKsfDataRkcWithVer) :
    fillKsfBufRkc sha256 d = .ok (ksfContent sha256 d.bytes ++ .replicate (218 - d.bytes.length) 0) := by
  have hfills := (fillField_fills u16 d.rkVersion (by decide)).then (fillKsfDataRkc_fills d.ksfDataRkc)
  refine fillKsfBuf_eq sha256 hfills ?_
  exact d.length_bytes ▸ (by decide)

theorem fillKsfBufMk_eq (d : HksKsfDataMkWithVer) :
    fillKsfBufMk sha256 d = .ok (ksfContent sha256 d.bytes ++ .replicate (218 - d.bytes.length) 0) := by
  have hfills := (fillField_fills u16 d.mkVersion (by decide)).then (fillKsfDataMk_fills d.ksfDataMk)
  refine fillKsfBuf_eq sha256 hfills ?_
  exact d.length_bytes ▸ (by decide)

-- Filling and taking apart are inverse to each other; what is taken apart is well formed.
structure KsfCodecSound (sha256 : Bytes → FixedBytes hksRkcHashLen) {α : Type} (n : Nat)
    (fill : α → Except HksErrorCode Bytes) (extract : Bytes → Except HksErrorCode α) : Prop where
  roundTrip : ∀ a, ∃ buf, fill a = .ok buf ∧ buf.length = hksKsfBufLen ∧ extract buf = .ok a
  accepts   : ∀ src, (∃ a, extract src = .ok a) ↔ KsfWellFormed sha256 n src
  refill    : ∀ src a, extract src = .ok a → ∃ buf, fill a = .ok buf ∧
    buf.take (hksRkcKsfFlagLen + n + hksRkcHashLen) = src.take (hksRkcKsfFlagLen + n + hksRkcHashLen)

theorem ksfCodecSound {α : Type} {fill : α → Except HksErrorCode Bytes}
    {extract : Bytes → Except HksErrorCode α} {f : α → Bytes} (hlen : ∀ a, (f a).length = n)
    (hn : n ≤ 218) (hf : Covers f n)
    (hfill : ∀ a, fill a = .ok (ksfContent sha256 (f a) ++ .replicate (218 - (f a).length) 0))
    (hextract : ∀ {src a}, extract src = .ok a ↔ ∃ post, src = ksfContent sha256 (f a) ++ post) :
    KsfCodecSound sha256 n fill extract where
  roundTrip a := by
    refine ⟨_, hfill a, ?_, hextract.mpr ⟨_, rfl⟩⟩
    rw [List.length_append, length_ksfContent, List.length_replicate, hlen, hksKsfBufLen]
    omega
  accepts src := by
    constructor
    case mp =>
      rintro ⟨a, ha⟩
      obtain ⟨post, hsrc⟩ := hextract.mp ha
      rw [hsrc, ← hlen a]
      exact ksfContent_wellFormed (f a) post
    case mpr =>
      intro h
      obtain ⟨post, hsrc⟩ := h.eq_ksfContent
      obtain ⟨a, ha⟩ := hf ((src.drop hksRkcKsfFlagLen).take n) (by
        have := h.length
        rw [List.length_take, List.length_drop]
        omega)
      exact ⟨a, hextract.mpr ⟨post, ha ▸ hsrc⟩⟩
  refill src a ha := by
    obtain ⟨post, hsrc⟩ := hextract.mp ha
    have hcontent : (ksfContent sha256 (f a)).length = hksRkcKsfFlagLen + n + hksRkcHashLen := by
      rw [length_ksfContent, hlen, hksRkcKsfFlagLen, hksRkcHashLen]
      omega
    exact ⟨_, hfill a, by rw [hsrc, List.take_left' hcontent, List.take_left' hcontent]⟩

variable (sha256) in
theorem ksfCodecSoundRkc :
    KsfCodecSound sha256 ksfRkcFieldsLen (fillKsfBufRkc sha256) (extractKsfBufRkc sha256) :=
  ksfCodecSound HksKsfDataRkcWithVer.length_bytes (by decide) HksKsfDataRkcWithVer.bytes_covers
    fillKsfBufRkc_eq extractKsfBufRkc_eq_ok

variable (sha256) in
theorem ksfCodecSoundMk :
    KsfCodecSound sha256 ksfMkFieldsLen (fillKsfBufMk sha256) (extractKsfBufMk sha256) :=
  ksfCodecSound HksKsfDataMkWithVer.length_bytes (by decide) HksKsfDataMkWithVer.bytes_covers
    fillKsfBufMk_eq extractKsfBufMk_eq_ok

namespace KsfCodecSound

variable {α β : Type} {m : Nat} {fill : α → Except HksErrorCode Bytes}
  {extract : Bytes → Except HksErrorCode α} {fill' : β → Except HksErrorCode Bytes}
  {extract' : Bytes → Except HksErrorCode β} {a : α} {buf : Bytes}

theorem filled (hc : KsfCodecSound sha256 m fill extract) (h : fill a = .ok buf) :
    buf.length = hksKsfBufLen ∧ extract buf = .ok a := by
  have ⟨buf', hfill, hlen, hextract⟩ := hc.roundTrip a
  cases h.symm.trans hfill
  exact ⟨hlen, hextract⟩

-- A filled file has the flag and the length of every other kind, so that only the hash is left.
theorem accepts_filled (hc : KsfCodecSound sha256 m fill extract)
    (hc' : KsfCodecSound sha256 n fill' extract') (hn : n ≤ 218) (h : fill a = .ok buf) :
    (∃ b, extract' buf = .ok b) ↔ (buf.drop (hksRkcKsfFlagLen + n)).take hksRkcHashLen =
      (sha256 ((buf.drop hksRkcKsfFlagLen).take n)).val := by
  have ⟨hlen, hextract⟩ := hc.filled h
  have hwell := (hc.accepts buf).mp ⟨a, hextract⟩
  rw [hc'.accepts]
  constructor
  case mp => exact KsfWellFormed.hash
  case mpr =>
    intro heq
    refine ⟨hwell.flag, ?_, heq⟩
    rw [hlen, hksRkcKsfFlagLen, hksRkcHashLen, hksKsfBufLen]
    omega

end KsfCodecSound

theorem fillKsfBufMk_drop {m : HksKsfDataMkWithVer} {buf : Bytes} (h : fillKsfBufMk sha256 m = .ok buf) :
    (buf.drop (hksRkcKsfFlagLen + ksfRkcFieldsLen)).take hksRkcHashLen =
      (FixedBytes.zero hksRkcHashLen).val := by
  cases (fillKsfBufMk_eq m).symm.trans h
  have hcontent : (ksfContent sha256 m.bytes).length = 132 := by
    rw [length_ksfContent, m.length_bytes]
    rfl
  have hpast : (ksfContent sha256 m.bytes).drop (hksRkcKsfFlagLen + ksfRkcFieldsLen) = [] :=
    List.drop_of_length_le (hcontent ▸ (by decide))
  rw [List.drop_append, hpast, hcontent, m.length_bytes, List.nil_append, List.drop_replicate,
    List.take_replicate]
  rfl

-- A root key file is taken for a main key file when the bytes where a main key file has its hash
-- are the hash; a main key file has zeros where a root key file has its hash.
theorem ksf_codec_exact (sha256 : Bytes → FixedBytes hksRkcHashLen) :
    KsfCodecSound sha256 ksfRkcFieldsLen (fillKsfBufRkc sha256) (extractKsfBufRkc sha256) ∧
    KsfCodecSound sha256 ksfMkFieldsLen (fillKsfBufMk sha256) (extractKsfBufMk sha256) ∧
    (∀ d buf, fillKsfBufRkc sha256 d = .ok buf → ((∃ m, extractKsfBufMk sha256 buf = .ok m) ↔
      (buf.drop (hksRkcKsfFlagLen + ksfMkFieldsLen)).take hksRkcHashLen =
        (sha256 ((buf.drop hksRkcKsfFlagLen).take ksfMkFieldsLen)).val)) ∧
    (∀ m buf, fillKsfBufMk sha256 m = .ok buf → ((∃ d, extractKsfBufRkc sha256 buf = .ok d) ↔
      sha256 ((buf.drop hksRkcKsfFlagLen).take ksfRkcFieldsLen) = .zero hksRkcHashLen)) := by
  have hrkc := ksfCodecSoundRkc sha256
  have hmk := ksfCodecSoundMk sha256
  refine ⟨hrkc, hmk, fun d buf hfill => hrkc.accepts_filled hmk (by decide) hfill, fun m buf hfill => ?_⟩
  rw [hmk.accepts_filled hrkc (by decide) hfill, fillKsfBufMk_drop hfill, eq_comm, Subtype.ext_iff]

-- Whatever the hash, there is a root key file that is taken for a main key file: the salt and the
-- hash algorithm of a root key lie where a main key file has its hash.
theorem exists_rkc_file_accepted (sha256 : Bytes → FixedBytes hksRkcHashLen) : ∃ d buf m,
    fillKsfBufRkc sha256 d = .ok buf ∧ extractKsfBufMk sha256 buf = .ok m ∧ buf.length = hksKsfBufLen := by
  have hrkc := ksfCodecSoundRkc sha256
  obtain ⟨d, hd⟩ := HksKsfDataRkcWithVer.bytes_covers
    (.replicate ksfMkFieldsLen 0 ++ ((sha256 (.replicate ksfMkFieldsLen 0)).val ++ .replicate 4 0)) (by
      rw [List.length_append, List.length_append, (sha256 _).property]
      rfl)
  obtain ⟨buf, hfill, hlen, _⟩ := hrkc.roundTrip d
  have hhash : (buf.drop (hksRkcKsfFlagLen + ksfMkFieldsLen)).take hksRkcHashLen =
      (sha256 ((buf.drop hksRkcKsfFlagLen).take ksfMkFieldsLen)).val := by
    cases (fillKsfBufRkc_eq d).symm.trans hfill
    rw [hd, ← List.drop_drop, ksfContent, List.append_assoc, drop_flag_append, List.append_assoc,
      List.append_assoc, List.take_left' List.length_replicate, List.drop_left' List.length_replicate,
      List.append_assoc, List.take_left' (sha256 _).property]
  obtain ⟨m, hm⟩ := (hrkc.accepts_filled (ksfCodecSoundMk sha256) (by decide) hfill).mpr hhash
  exact ⟨d, buf, m, hfill, hm, hlen⟩

-- In the second part the two hashes do not collide.
theorem rkc_file_accepted_as_mk :
    (∀ sha256, ∃ d buf m, fillKsfBufRkc sha256 d = .ok buf ∧ extractKsfBufMk sha256 buf = .ok m) ∧
    (∃ sha256 d buf m, fillKsfBufRkc sha256 d = .ok buf ∧ extractKsfBufMk sha256 buf = .ok m ∧
      sha256 ((buf.drop hksRkcKsfFlagLen).take ksfRkcFieldsLen) ≠
        sha256 ((buf.drop hksRkcKsfFlagLen).take ksfMkFieldsLen)) := by
  refine ⟨fun sha256 => ?_, fun bs => .ofBytes _ [bs.length.toUInt8], ?_⟩
  · have ⟨d, buf, m, hfill, hm, _⟩ := exists_rkc_file_accepted sha256
    exact ⟨d, buf, m, hfill, hm⟩
  · have ⟨d, buf, m, hfill, hm, hlen⟩ := exists_rkc_file_accepted fun bs => .ofBytes _ [bs.length.toUInt8]
    refine ⟨d, buf, m, hfill, hm, ?_⟩
    simp only [List.length_take, List.length_drop, hlen]
    decide

end Files

end Huks
