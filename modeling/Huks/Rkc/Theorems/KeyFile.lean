import Huks.Rkc.KeyFile

namespace Huks

open EStateM FixedCodec

-- `x` appends `bytes` to a buffer that has room for them.
def Fills (x : FillM Unit) (bytes : Bytes) : Prop :=
  ∀ size filled, filled.length + bytes.length ≤ size →
    x.run ⟨size, filled⟩ = .ok () ⟨size, filled ++ bytes⟩

-- `x` gets `a` from `bytes`, wherever they are in the source.
def Extracts {α : Type} (x : ExtractM α) (bytes : Bytes) (a : α) : Prop :=
  ∀ pre post, x.run ⟨pre ++ (bytes ++ post), pre.length⟩ =
    .ok a ⟨pre ++ (bytes ++ post), pre.length + bytes.length⟩

-- `x` gets nothing from less than `n` bytes.
def Needs {α : Type} (x : ExtractM α) (n : Nat) : Prop :=
  ∀ s a t, s.offset ≤ s.bytes.length → x.run s = .ok a t →
    t.bytes = s.bytes ∧ t.offset = s.offset + n ∧ t.offset ≤ t.bytes.length

section Fills

variable {x y : FillM Unit} {bs cs : Bytes}

theorem Fills.then (hx : Fills x bs) (hy : Fills y cs) : Fills (x >>= fun _ => y) (bs ++ cs) := by
  intro size filled h
  rw [List.length_append] at h
  rw [run_bind, hx size filled (by omega)]
  simp only
  rw [hy size (filled ++ bs) (by rw [List.length_append]; omega), List.append_assoc]

theorem fillFieldToBuffer_fills {src : Bytes} (h : src ≠ []) : Fills (fillFieldToBuffer src) src := by
  intro size filled hsize
  have hpos : 0 < src.length := List.length_pos_iff.mpr h
  simp only [fillFieldToBuffer, run_bind, run_get]
  rw [if_neg (by rintro (h' | h') <;> [exact h h'; omega]), if_neg (by omega), if_neg (by omega)]
  rfl

theorem fillField_fills {α : Type} (codec : FixedCodec α) (a : α) (h : 0 < codec.size) :
    Fills (fillField codec a) (codec.encode a) := by
  refine fillFieldToBuffer_fills fun hnil => ?_
  have := codec.length_encode a
  rw [hnil] at this
  exact absurd this (Nat.ne_of_lt h)

end Fills

section Extracts

variable {α β : Type} {x : ExtractM α} {f : α → ExtractM β} {bs cs : Bytes} {a : α} {b : β}
  {m n : Nat}

theorem Extracts.pure (a : α) : Extracts (pure a) [] a := fun _ _ => rfl

theorem Extracts.bind (hx : Extracts x bs a) (hf : Extracts (f a) cs b) :
    Extracts (x >>= f) (bs ++ cs) b := by
  intro pre post
  have hx := hx pre (cs ++ post)
  have hf := hf (pre ++ bs) post
  rw [← List.append_assoc pre bs (cs ++ post)] at hx
  rw [List.append_assoc bs cs post, ← List.append_assoc pre bs (cs ++ post), run_bind, hx]
  rw [List.length_append] at hf
  simp only
  rw [hf, List.length_append, Nat.add_assoc]

theorem Extracts.map {γ : Type} {g : α → γ} (hx : Extracts x bs a) :
    Extracts (x >>= fun a => Pure.pure (g a)) bs (g a) := by
  have h := hx.bind (.pure (g a)) (f := fun a => Pure.pure (g a))
  rwa [List.append_nil] at h

-- What runs after `x` finds the bytes of `x` behind it.
theorem Extracts.run_bind (hx : Extracts x bs a) (pre post : Bytes) :
    (x >>= f).run ⟨pre ++ (bs ++ post), pre.length⟩ =
      (f a).run ⟨pre ++ bs ++ post, (pre ++ bs).length⟩ := by
  rw [EStateM.run_bind, hx pre post, List.append_assoc, List.length_append]

theorem extractFieldFromBuffer_extracts {bs : Bytes} (h : bs ≠ []) :
    Extracts (extractFieldFromBuffer bs.length) bs bs := by
  intro pre post
  have hpos : 0 < bs.length := List.length_pos_iff.mpr h
  have hlen : (pre ++ (bs ++ post)).length = pre.length + (bs.length + post.length) := by simp
  simp only [extractFieldFromBuffer, run_bind, run_get]
  rw [if_neg, if_neg (by omega), if_neg (by omega)]
  · simp only [run_bind, run_set, run_pure, List.drop_left, List.take_left]
  · rintro (h' | h')
    · rw [h'] at hlen
      simp at hlen
      omega
    · omega

theorem extractField_extracts (codec : FixedCodec α) (a : α) (h : 0 < codec.size) :
    Extracts (extractField codec) (codec.encode a) a := by
  have hne : codec.encode a ≠ [] := by
    intro hnil
    have := codec.length_encode a
    rw [hnil] at this
    exact absurd this (Nat.ne_of_lt h)
  have hx := (extractFieldFromBuffer_extracts hne).map (g := codec.decode)
  rwa [codec.length_encode, codec.decode_encode] at hx

theorem Needs.pure (a : α) : Needs (pure a) 0 := by
  intro s b t hs h
  cases h
  exact ⟨rfl, rfl, hs⟩

theorem Needs.bind (hx : Needs x m) (hf : ∀ a, Needs (f a) n) : Needs (x >>= f) (m + n) := by
  intro s b u hs h
  have ⟨a, t, hrun, h⟩ := run_bind_eq_ok.mp h
  have ⟨hbytes, hoffset, hle⟩ := hx s a t hs hrun
  have ⟨hbytes', hoffset', hle'⟩ := hf a t b u hle h
  exact ⟨hbytes'.trans hbytes, by omega, hle'⟩

theorem extractFieldFromBuffer_needs (n : Nat) : Needs (extractFieldFromBuffer n) n := by
  intro s a t hs h
  simp only [extractFieldFromBuffer, run_bind, run_get] at h
  split at h
  case isTrue => cases h
  case isFalse =>
    split at h
    case isTrue => cases h
    case isFalse =>
      split at h
      case isTrue => cases h
      case isFalse hlt =>
        cases h
        exact ⟨rfl, rfl, by simp only; omega⟩

theorem extractField_needs (codec : FixedCodec α) : Needs (extractField codec) codec.size :=
  (extractFieldFromBuffer_needs codec.size).bind fun _ => .pure _

end Extracts

section Records

def HksTime.bytes (t : HksTime) : Bytes :=
  u16.encode t.hksYear ++ (u8.encode t.hksMon ++ (u8.encode t.hksDay ++ (u8.encode t.hksHour ++
    (u8.encode t.hksMin ++ u8.encode t.hksSec))))

theorem rkcFillKsfTime_fills (t : HksTime) : Fills (rkcFillKsfTime t) t.bytes := by
  refine (fillField_fills u16 _ (by decide)).then ?_
  refine (fillField_fills u8 _ (by decide)).then ?_
  refine (fillField_fills u8 _ (by decide)).then ?_
  refine (fillField_fills u8 _ (by decide)).then ?_
  exact (fillField_fills u8 _ (by decide)).then (fillField_fills u8 _ (by decide))

theorem rkcExtractTime_extracts (t : HksTime) : Extracts rkcExtractTime t.bytes t := by
  refine (extractField_extracts u16 _ (by decide)).bind ?_
  refine (extractField_extracts u8 _ (by decide)).bind ?_
  refine (extractField_extracts u8 _ (by decide)).bind ?_
  refine (extractField_extracts u8 _ (by decide)).bind ?_
  refine (extractField_extracts u8 _ (by decide)).bind ?_
  exact (extractField_extracts u8 _ (by decide)).map

theorem rkcExtractTime_needs : Needs rkcExtractTime 7 :=
  (extractField_needs u16).bind fun _ => (extractField_needs u8).bind fun _ =>
    (extractField_needs u8).bind fun _ => (extractField_needs u8).bind fun _ =>
      (extractField_needs u8).bind fun _ => (extractField_needs u8).bind fun _ => .pure _

def HksKsfDataRkc.bytes (d : HksKsfDataRkc) : Bytes :=
  d.rkCreatedTime.bytes ++ (d.rkExpiredTime.bytes ++ (d.rkMaterial1.val ++ (d.rkMaterial2.val ++
    (u32.encode d.rmkIter ++ (d.rmkSalt.val ++ (u32.encode d.rmkHashAlg ++ d.rkRsv.val))))))

theorem fillKsfDataRkc_fills (d : HksKsfDataRkc) : Fills (fillKsfDataRkc d) d.bytes := by
  refine (rkcFillKsfTime_fills _).then ?_
  refine (rkcFillKsfTime_fills _).then ?_
  refine (fillField_fills (bytes _) _ (by decide)).then ?_
  refine (fillField_fills (bytes _) _ (by decide)).then ?_
  refine (fillField_fills u32 _ (by decide)).then ?_
  refine (fillField_fills (bytes _) _ (by decide)).then ?_
  exact (fillField_fills u32 _ (by decide)).then (fillField_fills (bytes _) _ (by decide))

theorem extractKsfDataRkc_extracts (d : HksKsfDataRkc) : Extracts extractKsfDataRkc d.bytes d := by
  refine (rkcExtractTime_extracts _).bind ?_
  refine (rkcExtractTime_extracts _).bind ?_
  refine (extractField_extracts (bytes _) _ (by decide)).bind ?_
  refine (extractField_extracts (bytes _) _ (by decide)).bind ?_
  refine (extractField_extracts u32 _ (by decide)).bind ?_
  refine (extractField_extracts (bytes _) _ (by decide)).bind ?_
  refine (extractField_extracts u32 _ (by decide)).bind ?_
  exact (extractField_extracts (bytes _) _ (by decide)).map

theorem extractKsfDataRkc_needs : Needs extractKsfDataRkc 126 :=
  rkcExtractTime_needs.bind fun _ => rkcExtractTime_needs.bind fun _ =>
    (extractField_needs (bytes _)).bind fun _ => (extractField_needs (bytes _)).bind fun _ =>
      (extractField_needs u32).bind fun _ => (extractField_needs (bytes _)).bind fun _ =>
        (extractField_needs u32).bind fun _ => (extractField_needs (bytes _)).bind fun _ => .pure _

def HksKsfDataMk.bytes (d : HksKsfDataMk) : Bytes :=
  d.mkCreatedTime.bytes ++ (d.mkExpiredTime.bytes ++ (u32.encode d.mkEncryptAlg ++ (d.mkIv.val ++
    (d.mkCiphertext.val ++ d.mkRsv.val))))

theorem fillKsfDataMk_fills (d : HksKsfDataMk) : Fills (fillKsfDataMk d) d.bytes := by
  refine (rkcFillKsfTime_fills _).then ?_
  refine (rkcFillKsfTime_fills _).then ?_
  refine (fillField_fills u32 _ (by decide)).then ?_
  refine (fillField_fills (bytes _) _ (by decide)).then ?_
  exact (fillField_fills (bytes _) _ (by decide)).then (fillField_fills (bytes _) _ (by decide))

theorem extractKsfDataMk_extracts (d : HksKsfDataMk) : Extracts extractKsfDataMk d.bytes d := by
  refine (rkcExtractTime_extracts _).bind ?_
  refine (rkcExtractTime_extracts _).bind ?_
  refine (extractField_extracts u32 _ (by decide)).bind ?_
  refine (extractField_extracts (bytes _) _ (by decide)).bind ?_
  refine (extractField_extracts (bytes _) _ (by decide)).bind ?_
  exact (extractField_extracts (bytes _) _ (by decide)).map

theorem extractKsfDataMk_needs : Needs extractKsfDataMk 90 :=
  rkcExtractTime_needs.bind fun _ => rkcExtractTime_needs.bind fun _ =>
    (extractField_needs u32).bind fun _ => (extractField_needs (bytes _)).bind fun _ =>
      (extractField_needs (bytes _)).bind fun _ => (extractField_needs (bytes _)).bind fun _ => .pure _

end Records

section Files

variable (sha256 : Bytes → FixedBytes hksRkcHashLen)

-- The bytes of a file before its zeros: the flag, the fields and the hash of the fields.
def ksfContent (body : Bytes) : Bytes := hksRkcKsfFlag ++ (body ++ (sha256 body).val)

theorem length_ksfContent (body : Bytes) : (ksfContent sha256 body).length = body.length + 40 := by
  simp only [ksfContent, List.length_append, (sha256 body).property]
  simp only [hksRkcKsfFlag, hksRkcHashLen, List.length_cons, List.length_nil]
  omega

theorem length_flag_append (body : Bytes) : (hksRkcKsfFlag ++ body).length = 8 + body.length :=
  List.length_append

theorem drop_flag_append (body : Bytes) : (hksRkcKsfFlag ++ body).drop hksRkcKsfFlagLen = body :=
  List.drop_left' rfl

theorem sha256_ne_nil (body : Bytes) : (sha256 body).val ≠ [] := by
  intro h
  have := (sha256 body).property
  rw [h] at this
  exact absurd this (by decide)

theorem fillKsfBuf_eq {x : FillM Unit} {body : Bytes} (hx : Fills x body) (h : body.length ≤ 218) :
    fillKsfBuf (do fillFieldToBuffer hksRkcKsfFlag; x; rkcFillKsfHash sha256) =
      .ok (ksfContent sha256 body ++ .replicate (218 - body.length) 0) := by
  have hlen := length_flag_append body
  have hflag : (fillFieldToBuffer hksRkcKsfFlag).run ⟨hksKsfBufLen, []⟩ =
      .ok () ⟨hksKsfBufLen, hksRkcKsfFlag⟩ := fillFieldToBuffer_fills (by decide) _ [] (by decide)
  have hbody := hx hksKsfBufLen hksRkcKsfFlag (by
    rw [← List.length_append, hlen, hksKsfBufLen]
    omega)
  have hhash : (rkcFillKsfHash sha256).run ⟨hksKsfBufLen, hksRkcKsfFlag ++ body⟩ =
      .ok () ⟨hksKsfBufLen, ksfContent sha256 body⟩ := by
    simp only [rkcFillKsfHash, run_bind, run_get, drop_flag_append]
    rw [hlen, if_neg (by simp only [hksRkcKsfFlagLen, hksKsfBufLen]; omega)]
    rw [fillFieldToBuffer_fills (sha256_ne_nil sha256 body), ksfContent, List.append_assoc]
    rw [hlen, (sha256 body).property, hksRkcHashLen, hksKsfBufLen]
    omega
  simp only [fillKsfBuf, run_bind, hflag, hbody, hhash, length_ksfContent]
  congr 3
  simp only [hksKsfBufLen]
  omega

theorem rkcExtractKsfHash_run (body post : Bytes) :
    (rkcExtractKsfHash sha256).run
        ⟨hksRkcKsfFlag ++ body ++ ((sha256 body).val ++ post), (hksRkcKsfFlag ++ body).length⟩ =
      .ok () ⟨hksRkcKsfFlag ++ body ++ ((sha256 body).val ++ post),
        (hksRkcKsfFlag ++ body).length + hksRkcHashLen⟩ := by
  have hextract := extractFieldFromBuffer_extracts (sha256_ne_nil sha256 body) (hksRkcKsfFlag ++ body) post
  rw [(sha256 body).property] at hextract
  have hsrc : ((hksRkcKsfFlag ++ body ++ ((sha256 body).val ++ post)).drop hksRkcKsfFlagLen).take
      ((hksRkcKsfFlag ++ body).length - hksRkcKsfFlagLen) = body := by
    rw [List.append_assoc, drop_flag_append, length_flag_append]
    refine (congrArg₂ List.take ?_ rfl).trans List.take_left
    simp only [hksRkcKsfFlagLen]
    omega
  simp only [rkcExtractKsfHash, run_bind, run_get]
  rw [if_neg, hsrc]
  · simp only [run_bind, hextract, ne_eq, not_true_eq_false, if_false, run_pure]
  · have hle : hksRkcKsfFlagLen ≤ (hksRkcKsfFlag ++ body).length := by
      rw [length_flag_append, hksRkcKsfFlagLen]
      omega
    have hlen : (hksRkcKsfFlag ++ body ++ ((sha256 body).val ++ post)).length =
        (hksRkcKsfFlag ++ body).length + ((sha256 body).val ++ post).length := List.length_append
    omega

theorem rkcExtractKsfFileFlag_extracts : Extracts rkcExtractKsfFileFlag hksRkcKsfFlag () := by
  have h := extractFieldFromBuffer_extracts (by decide : hksRkcKsfFlag ≠ [])
  have hflag : Extracts (if hksRkcKsfFlag ≠ hksRkcKsfFlag then throw .readFileFail else pure ()) [] () :=
    fun pre post => rfl
  have := h.bind (f := fun fileFlag => if fileFlag ≠ hksRkcKsfFlag then throw .readFileFail else pure ())
    hflag
  rwa [List.append_nil] at this

-- A file that was filled can be taken apart, whatever is behind its hash.
theorem extractKsfBuf_eq {α β : Type} {x : ExtractM α} {g : α → β} {body : Bytes} {a : α}
    (hx : Extracts x body a) (post : Bytes) :
    extractKsfBuf (do rkcExtractKsfFileFlag; let a ← x; rkcExtractKsfHash sha256; return g a)
      (ksfContent sha256 body ++ post) = .ok (g a) := by
  have hsrc : ksfContent sha256 body ++ post =
      [] ++ (hksRkcKsfFlag ++ (body ++ ((sha256 body).val ++ post))) := by
    simp only [ksfContent, List.append_assoc, List.nil_append]
  have hflag := rkcExtractKsfFileFlag_extracts.run_bind
    (f := fun _ => do let a ← x; rkcExtractKsfHash sha256; return g a) []
    (body ++ ((sha256 body).val ++ post))
  have hx := hx.run_bind (f := fun a => do rkcExtractKsfHash sha256; return g a) hksRkcKsfFlag
    ((sha256 body).val ++ post)
  rw [List.nil_append] at hflag
  rw [extractKsfBuf, hsrc]
  refine (congrArg Result.toExcept (hflag.trans hx)).trans ?_
  rw [run_bind, rkcExtractKsfHash_run]
  rfl

theorem rkcExtractKsfHash_needs : Needs (rkcExtractKsfHash sha256) 32 := by
  intro s b t hs h
  simp only [rkcExtractKsfHash, run_bind, run_get] at h
  split at h
  case isTrue => cases h
  case isFalse =>
    refine ((extractFieldFromBuffer_needs hksRkcHashLen).bind (n := 0) fun ksfHash => ?_) s b t hs h
    intro s' b' t' hs' h'
    split at h'
    case isTrue => cases h'
    case isFalse =>
      cases h'
      exact ⟨rfl, rfl, hs'⟩

theorem rkcExtractKsfFileFlag_needs : Needs rkcExtractKsfFileFlag 8 := by
  refine (extractFieldFromBuffer_needs hksRkcKsfFlagLen).bind (n := 0) fun fileFlag => ?_
  intro s b t hs h
  split at h
  case isTrue => cases h
  case isFalse =>
    cases h
    exact ⟨rfl, rfl, hs⟩

-- A file that is cut short of its hash cannot be taken apart.
theorem extractKsfBuf_short {α β : Type} {x : ExtractM α} {g : α → β} {n : Nat} (hx : Needs x n)
    {src : Bytes} {b : β}
    (h : extractKsfBuf (do rkcExtractKsfFileFlag; let a ← x; rkcExtractKsfHash sha256; return g a)
      src = .ok b) : n + 40 ≤ src.length := by
  have needs : Needs (do rkcExtractKsfFileFlag; let a ← x; rkcExtractKsfHash sha256; return g a)
      (8 + (n + (32 + 0))) := rkcExtractKsfFileFlag_needs.bind fun _ => hx.bind fun _ =>
    (rkcExtractKsfHash_needs sha256).bind fun _ => .pure _
  unfold extractKsfBuf at h
  cases hrun : EStateM.run (do rkcExtractKsfFileFlag; let a ← x; rkcExtractKsfHash sha256; return g a)
    (⟨src, 0⟩ : KsfSource) <;> rw [hrun] at h
  case error => cases h
  case ok a t =>
    have ⟨hbytes, hoffset, hle⟩ := needs _ _ _ (Nat.zero_le _) hrun
    rw [hbytes, hoffset] at hle
    simp only at hle
    omega

-- A keystore file with data `a`; cut short it holds the data or none.
structure KsfStores {α : Type} (extract : Bytes → Except HksErrorCode α) (buf : Bytes) (a : α) : Prop where
  length : buf.length = hksKsfBufLen
  whole  : extract buf = .ok a
  cut    : ∀ k b, extract (buf.take k) = .ok b → b = a

theorem ksfStores {α β : Type} {x : FillM Unit} {y : ExtractM α} {g : α → β} {body : Bytes} {a : α}
    (hx : Fills x body) (hy : Extracts y body a) (hn : Needs y body.length) (h : body.length ≤ 218) :
    ∃ buf, fillKsfBuf (do fillFieldToBuffer hksRkcKsfFlag; x; rkcFillKsfHash sha256) = .ok buf ∧
      KsfStores
        (extractKsfBuf do rkcExtractKsfFileFlag; let a ← y; rkcExtractKsfHash sha256; return g a)
        buf (g a) := by
  refine ⟨_, fillKsfBuf_eq sha256 hx h, ?_, extractKsfBuf_eq sha256 hy _, fun k b hcut => ?_⟩
  · rw [List.length_append, length_ksfContent, List.length_replicate, hksKsfBufLen]
    omega
  · have hshort := extractKsfBuf_short sha256 hn hcut
    have hk : (ksfContent sha256 body).length ≤ k := by
      rw [List.length_take] at hshort
      rw [length_ksfContent]
      omega
    rw [List.take_append, List.take_of_length_le hk, extractKsfBuf_eq sha256 hy] at hcut
    cases hcut
    rfl

theorem extractKsfBufRkc_eq :
    extractKsfBufRkc sha256 = extractKsfBuf do
      rkcExtractKsfFileFlag
      let a ← extractField u16 >>= fun v => extractKsfDataRkc >>= fun d => pure (HksKsfDataRkcWithVer.mk v d)
      rkcExtractKsfHash sha256
      return id a := by
  simp only [extractKsfBufRkc, bind_assoc, pure_bind, id]

theorem extractKsfBufMk_eq :
    extractKsfBufMk sha256 = extractKsfBuf do
      rkcExtractKsfFileFlag
      let a ← extractField u16 >>= fun v => extractKsfDataMk >>= fun d => pure (HksKsfDataMkWithVer.mk v d)
      rkcExtractKsfHash sha256
      return id a := by
  simp only [extractKsfBufMk, bind_assoc, pure_bind, id]

theorem HksTime.length_bytes (t : HksTime) : t.bytes.length = 7 := by
  simp only [HksTime.bytes, List.length_append, length_encode]
  rfl

theorem HksKsfDataRkc.length_bytes (d : HksKsfDataRkc) : d.bytes.length = 126 := by
  simp only [HksKsfDataRkc.bytes, List.length_append, length_encode, HksTime.length_bytes,
    d.rkMaterial1.property, d.rkMaterial2.property, d.rmkSalt.property, d.rkRsv.property]
  rfl

theorem HksKsfDataMk.length_bytes (d : HksKsfDataMk) : d.bytes.length = 90 := by
  simp only [HksKsfDataMk.bytes, List.length_append, length_encode, HksTime.length_bytes,
    d.mkIv.property, d.mkCiphertext.property, d.mkRsv.property]
  rfl

theorem fillKsfBufRkc_stores (d : HksKsfDataRkcWithVer) :
    ∃ buf, fillKsfBufRkc sha256 d = .ok buf ∧ KsfStores (extractKsfBufRkc sha256) buf d := by
  have hlen : (u16.encode d.rkVersion ++ d.ksfDataRkc.bytes).length = 2 + (126 + 0) := by
    rw [List.length_append, length_encode, HksKsfDataRkc.length_bytes]
    rfl
  have hfills := (fillField_fills u16 d.rkVersion (by decide)).then (fillKsfDataRkc_fills d.ksfDataRkc)
  have hextracts := (extractField_extracts u16 d.rkVersion (by decide)).bind
    ((extractKsfDataRkc_extracts d.ksfDataRkc).map (g := HksKsfDataRkcWithVer.mk d.rkVersion))
    (f := fun v => extractKsfDataRkc >>= fun d => pure (HksKsfDataRkcWithVer.mk v d))
  have hneeds := (extractField_needs u16).bind fun v =>
    extractKsfDataRkc_needs.bind fun a => .pure (HksKsfDataRkcWithVer.mk v a)
  rw [extractKsfBufRkc_eq]
  exact ksfStores sha256 hfills hextracts (hlen ▸ hneeds) (by omega)

theorem fillKsfBufMk_stores (d : HksKsfDataMkWithVer) :
    ∃ buf, fillKsfBufMk sha256 d = .ok buf ∧ KsfStores (extractKsfBufMk sha256) buf d := by
  have hlen : (u16.encode d.mkVersion ++ d.ksfDataMk.bytes).length = 2 + (90 + 0) := by
    rw [List.length_append, length_encode, HksKsfDataMk.length_bytes]
    rfl
  have hfills := (fillField_fills u16 d.mkVersion (by decide)).then (fillKsfDataMk_fills d.ksfDataMk)
  have hextracts := (extractField_extracts u16 d.mkVersion (by decide)).bind
    ((extractKsfDataMk_extracts d.ksfDataMk).map (g := HksKsfDataMkWithVer.mk d.mkVersion))
    (f := fun v => extractKsfDataMk >>= fun d => pure (HksKsfDataMkWithVer.mk v d))
  have hneeds := (extractField_needs u16).bind fun v =>
    extractKsfDataMk_needs.bind fun a => .pure (HksKsfDataMkWithVer.mk v a)
  rw [extractKsfBufMk_eq]
  exact ksfStores sha256 hfills hextracts (hlen ▸ hneeds) (by omega)

end Files

end Huks
