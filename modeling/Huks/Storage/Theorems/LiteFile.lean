import Huks.Storage.Theorems.LiteStoreKey

namespace Huks.StorageLite

open EStateM

-- A read that reports no failure has filled the buffer.
def LiteEnv.Whole (env : LiteEnv) : Prop := ∀ tick read, env.read tick ≠ .short read

variable {env : LiteEnv} {image file : Option Bytes} {head : HksStoreHeaderInfo} {records : List KeyRecord}
  {rest : Bytes}

theorem not_fault_outside {s : LiteStore} : ¬Fault env image file .outside s := by
  rintro ⟨⟨code, hcode⟩, _⟩
  cases hcode

section Returned

variable {α β : Type} {P : LiteStore → Prop} {x : LiteM α} {f : Except HksErrorCode α → LiteM β}
  {Q : α → LiteStore → Prop} {R : β → LiteStore → Prop} {E F : Stop HksErrorCode → LiteStore → Prop}

theorem run_returned_ok {s t : LiteStore} {a : α} (h : x.run s = .ok a t) :
    (returned x).run s = .ok (.ok a) t := by
  unfold returned
  simp only [EStateM.run] at h ⊢
  rw [h]

theorem run_returned_error {s t : LiteStore} {e : HksErrorCode} (h : x.run s = .error (.error e) t) :
    (returned x).run s = .ok (.error e) t := by
  unfold returned
  simp only [EStateM.run] at h ⊢
  rw [h]

-- The caller goes on with either outcome.
theorem returned_bind (hx : Triple P x Q E) (hinside : ∀ s, ¬E .outside s)
    (hok : ∀ a, Triple (Q a) (f (.ok a)) R F) (herror : ∀ e, Triple (E (.error e)) (f (.error e)) R F) :
    Triple P (returned x >>= f) R F := by
  intro s hs
  have hrun := hx s hs
  cases hr : x.run s
  case ok a t =>
    rw [hr] at hrun
    rw [run_bind_of_ok (run_returned_ok hr)]
    exact hok a t hrun
  case error e t =>
    rw [hr] at hrun
    cases e
    case outside => exact absurd hrun (hinside t)
    case error e =>
      rw [run_bind_of_ok (run_returned_error hr)]
      exact herror e t hrun

end Returned

section Files

theorem getFullFileName_at : Triple (At image file) (getFullFileName env) (fun _ => At image file)
    (Fault env image file) := by
  rw [getFullFileName]
  refine hksMalloc_bind fun b hb => ?_
  refine .ite (fun hfail => .throw fun s hs => ⟨⟨_, rfl⟩, fun hq => hfail ?_, hs⟩) fun _ => .pure fun s hs => hs
  exact hb (by decide) hq

theorem hksFileWrite_at {buf : Bytes} (hne : buf ≠ []) : Triple (At image file) (hksFileWrite env buf)
    (fun _ s => ∃ k, (env.Quiet → buf.length ≤ k) ∧ At image (some (buf.take k)) s)
    (fun e s => (∃ code, e = .error code) ∧ ¬env.Quiet ∧
      (At image file s ∨ ∃ k, At image (some (buf.take k)) s)) := by
  rw [hksFileWrite]
  refine guard_refuse (fun h => absurd h hne) fun _ => .bind (getFullFileName_at.weaken_error ?_) fun _ => ?_
  case refine_1 =>
    rintro e s ⟨hcode, hnot, hs⟩
    exact ⟨hcode, hnot, .inl hs⟩
  refine nextCall_bind fun tick => guard_refuse (fun hfail s hs => ⟨⟨_, rfl⟩, fun hq => hfail ?_, .inl hs⟩) fun _ => ?_
  case refine_2.refine_1 => exact hq.openFile tick
  refine nextCall_bind fun tick => ?_
  cases hwrite : env.write tick
  case done => exact .modify fun s hs => ⟨buf.length, fun _ => Nat.le_refl _, hs.1, by rw [List.take_length]⟩
  case short left =>
    refine .modify fun s hs => ⟨left, fun hq => ?_, hs.1, rfl⟩
    rw [hq.write] at hwrite
    cases hwrite
  case fail left =>
    refine .bind (.modify fun s hs => ⟨hs.1, rfl⟩) fun _ => .throw fun s hs => ⟨⟨_, rfl⟩, fun hq => ?_, .inr ⟨left, hs⟩⟩
    rw [hq.write] at hwrite
    cases hwrite

theorem hksFileRead_at {size : Nat} (hwhole : env.Whole) (hsize : size ≠ 0) :
    Triple (At image file) (hksFileRead env size)
      (fun buf s => (∃ bytes, file = some bytes ∧ size ≤ bytes.length ∧ buf = bytes.take size) ∧ At image file s)
      (fun e s => ((∃ code, e = .error code) ∧
        (env.Quiet → ∀ bytes, file = some bytes → ¬size ≤ bytes.length)) ∧ At image file s) := by
  rw [hksFileRead]
  refine guard_refuse (fun h => absurd h hsize) fun _ => .bind (getFullFileName_at.weaken_error ?_) fun _ => ?_
  case refine_1 =>
    rintro e s ⟨hcode, hnot, hs⟩
    exact ⟨⟨hcode, fun hq => absurd hq hnot⟩, hs⟩
  refine nextCall_bind fun tick => get_bind_at fun _ => ?_
  cases file
  case none => exact .throw fun s hs => ⟨⟨⟨_, rfl⟩, fun _ bytes hbytes => by cases hbytes⟩, hs⟩
  case some bytes =>
    have hfault {e : HksErrorCode} {s : LiteStore} (hnot : ¬env.Quiet) (hs : At image (some bytes) s) :
        ((∃ code, (.error e : Stop HksErrorCode) = .error code) ∧
          (env.Quiet → ∀ b, some bytes = some b → ¬size ≤ b.length)) ∧ At image (some bytes) s :=
      ⟨⟨⟨e, rfl⟩, fun hq => absurd hq hnot⟩, hs⟩
    simp only
    refine guard_refuse (fun hfail s hs => hfault (fun hq => hfail (hq.stat tick)) hs) fun _ => ?_
    refine guard_refuse (fun hlong s hs => ⟨⟨⟨_, rfl⟩, fun _ b hb => ?_⟩, hs⟩) fun hlong => ?_
    case refine_1 =>
      cases hb
      exact Nat.not_le_of_lt hlong
    refine nextCall_bind fun tick => guard_refuse (fun hfail s hs => hfault ?_ hs) fun _ => ?_
    case refine_2.refine_1 => exact fun hq => hfail (hq.openFile tick)
    refine nextCall_bind fun tick => ?_
    cases hread : env.read tick
    case done => exact .pure fun s hs => ⟨⟨bytes, rfl, Nat.le_of_not_lt hlong, rfl⟩, hs⟩
    case short read => exact absurd hread (hwhole tick read)
    case fail =>
      refine .throw fun s hs => hfault (fun hq => ?_) hs
      rw [hq.read] at hread
      cases hread

-- What the size is when nothing fails
def sizeOf (file : Option Bytes) : Nat := (file.map List.length).getD 0

theorem hksFileSize_at {E : Stop HksErrorCode → LiteStore → Prop} : Triple (At image file) (hksFileSize env)
    (fun size s => ((size = sizeOf file ∨ size = 0) ∧ (env.Quiet → size = sizeOf file)) ∧ At image file s) E := by
  rw [hksFileSize]
  refine returned_bind getFullFileName_at (fun s => not_fault_outside) (fun _ => ?_) fun e => ?_
  case refine_1 =>
    simp only
    refine nextCall_bind fun tick => get_bind_at fun _ => ?_
    cases file
    case none => exact .pure fun s hs => ⟨⟨.inl rfl, fun _ => rfl⟩, hs⟩
    case some bytes =>
      refine .pure fun s hs => ⟨?_, hs⟩
      by_cases hstat : env.stat tick = true
      case pos => exact ⟨.inl (if_pos hstat), fun _ => if_pos hstat⟩
      case neg => exact ⟨.inr (if_neg hstat), fun hq => absurd (hq.stat tick) hstat⟩
  case refine_2 =>
    refine .pure ?_
    rintro s ⟨_, hnot, hs⟩
    exact ⟨⟨.inr rfl, fun hq => absurd hq hnot⟩, hs⟩

end Files

section Init

-- Bytes that are long enough start with a header.
theorem exists_header {bytes : Bytes} (h : headerSize ≤ bytes.length) :
    ∃ head rest, bytes = imageOf head [] rest := by
  have hlen : (bytes.take headerSize).length = HksStoreHeaderInfo.codec.size := by
    rw [List.length_take, Nat.min_eq_left h]
    rfl
  refine ⟨HksStoreHeaderInfo.codec.decode (bytes.take headerSize), bytes.drop headerSize, ?_⟩
  rw [imageOf, header_exact _ hlen, pack_nil, List.nil_append, List.take_append_drop]

theorem slice_header : slice (imageOf head records rest) 0 macSize = macInput head := by
  have hsize : macSize ≤ headerSize := by decide
  rw [slice, List.drop_zero, imageOf, List.take_append_of_le_length (by rw [length_encode_header]; exact hsize),
    take_macSize_encode]

theorem length_macInput : (macInput head).length = macSize := by
  rw [← take_macSize_encode, length_macSize _ (by rw [length_encode_header])]

theorem readImage_macSize : ∀ tick, (readImage 0 macSize).run ⟨some (imageOf head records rest), file, tick⟩ =
    .ok (macInput head) ⟨some (imageOf head records rest), file, tick⟩ := by
  intro tick
  have hsize : macSize ≤ headerSize := by decide
  have hlen := length_imageOf head records rest
  rw [readImage_run (by omega), slice_header]

theorem calcHeaderMac_macInput {salt : FixedBytes hksDeriveDefaultSaltLen} :
    Triple (At image file) (calcHeaderMac env salt (macInput head))
      (fun mac s => mac = env.mac salt (macInput head) ∧ At image file s) (Fault env image file) := by
  refine calcHeaderMac_at (List.ne_nil_of_length_pos ?_) ?_
  case refine_1 =>
    rw [length_macInput]
    decide
  case refine_2 =>
    rw [length_macInput]
    decide

-- Whatever the image was, it is an empty store then.
theorem initImageBuffer_at {bytes : Bytes} (hmin : headerSize ≤ bytes.length) (hmax : bytes.length ≤ maxImageSize) :
    Triple (At (some bytes) file) (initImageBuffer env)
      (fun _ s => ∃ head rest, (Sealed env head ∧ headerSize + rest.length = bytes.length) ∧ Holds [] head rest file s)
      (fun e s => ∃ image, Fault env image file e s) := by
  obtain ⟨head, rest, rfl⟩ := exists_header hmin
  rw [initImageBuffer]
  refine bind_at (fun _ => getHeader_imageOf) (bind_at (fun _ => setHeader_imageOf _) ?_)
  refine nextCall_bind fun tick => ?_
  cases hrandom : env.generateRandom tick
  case error e =>
    exact .throw fun s hs => ⟨_, ⟨e, rfl⟩, fun hq => hq.generateRandom tick e hrandom, hs⟩
  case ok salt =>
    refine bind_at (fun _ => getHeader_imageOf) (bind_at (fun _ => setHeader_imageOf _) ?_)
    refine bind_at readImage_macSize (.bind (calcHeaderMac_macInput.weaken_error fun e s h => ⟨_, h⟩) fun mac => ?_)
    refine .of_pure fun hmac => bind_at (fun _ => getHeader_imageOf) ?_
    rw [hmac]
    rw [length_imageOf] at hmax
    refine triple_at (fun _ => setHeader_imageOf _) fun s hs => ⟨_, rest, ⟨?_, ?_⟩, ?_, ?_, hs⟩
    case refine_1 => rw [Sealed, take_macSize_encode, macInput, macInput]
    case refine_2 => rw [length_imageOf, pack_nil, List.length_nil, Nat.add_zero]
    case refine_3 => exact ⟨rfl, rfl⟩
    case refine_4 => rwa [length_imageOf]

end Init

variable {k : Nat}

-- The file is what the store wrote for the records, or the first bytes of it.
structure Written (env : LiteEnv) (records : List KeyRecord) (k : Nat) (head : HksStoreHeaderInfo)
    (file : Option Bytes) : Prop where
  counts   : Counts head records
  fits     : headerSize + (pack records).length ≤ maxStorageSize.toNat
  withMac  : Sealed env head
  file     : file = some ((imageOf head records []).take k)

theorem length_imageOf_nil : (imageOf head records []).length = fileSize records := by
  rw [length_imageOf, List.length_nil, Nat.add_zero, fileSize]

theorem pack_eq_nil (h : (pack records).length = 0) : records = [] := by
  have hge : 40 * records.length ≤ _ := length_pack_ge records
  exact List.length_eq_zero_iff.mp (by omega)

section Check

theorem checkKeyInfoHeaderValid_at (hmac : Sealed env head) :
    Triple (At (some (imageOf head records rest)) file) (checkKeyInfoHeaderValid env)
      (fun _ => At (some (imageOf head records rest)) file) (Fault env (some (imageOf head records rest)) file) := by
  rw [checkKeyInfoHeaderValid]
  refine bind_at (fun _ => getHeader_imageOf) (bind_at readImage_macSize (.bind calcHeaderMac_macInput fun mac => ?_))
  refine .of_pure fun h => .ite (fun hne => absurd ?_ hne) fun _ => .pure fun s hs => hs
  rw [h, hmac, take_macSize_encode]

theorem freshImageBuffer_at (hwhole : env.Whole) (h : Written env records k head file) (hk : headerSize ≤ k) :
    Triple (At (some (imageOf head [] [])) file) (freshImageBuffer env)
      (fun _ s => fileSize records ≤ k ∧ Holds records head [] file s)
      (fun e s => ((∃ code, e = .error code) ∧
        (env.Quiet → k < fileSize records ∧ e = .error .invalidKeyFile)) ∧ ∃ image, At image file s) := by
  have hmax : maxStorageSize.toNat = 5120 := rfl
  have htotal := h.counts.totalLen
  have hfits := h.fits
  rw [freshImageBuffer]
  refine bind_at (fun _ => getHeader_imageOf) (guard_refuse (fun hbad => ?_) fun _ => ?_)
  case refine_1 =>
    rw [gt_iff_lt, UInt32.lt_iff_toNat_lt] at hbad
    omega
  have hsize : sizeOf file = min k (fileSize records) := by
    rw [h.file, sizeOf, Option.map_some, Option.getD_some, List.length_take, length_imageOf_nil]
  refine .ite (fun hlong => ?_) fun hshort => ?_
  case refine_2.refine_1 =>
    refine .bind hksFileSize_at fun fileLen => .of_pure fun hlen => ?_
    obtain ⟨hlen, hquiet⟩ := hlen
    rw [hsize] at hlen hquiet
    refine guard_refuse (fun hcut s hs => ⟨⟨⟨_, rfl⟩, fun hq => ⟨?_, rfl⟩⟩, _, hs⟩) fun hwritten => ?_
    case refine_1 =>
      have := hquiet hq
      rw [fileSize] at this ⊢
      omega
    have hk : fileSize records ≤ k := by
      rw [fileSize] at hlen ⊢
      omega
    have hfile : file = some (imageOf head records []) := by
      rw [h.file, List.take_of_length_le (by rwa [length_imageOf_nil])]
    have hfault {e : HksErrorCode} {s : LiteStore} (hnot : ¬env.Quiet) (hs : At (some (imageOf head [] [])) file s) :
        ((∃ code, (.error e : Stop HksErrorCode) = .error code) ∧
          (env.Quiet → k < fileSize records ∧ (.error e : Stop HksErrorCode) = .error .invalidKeyFile)) ∧
          ∃ image, At image file s := ⟨⟨⟨e, rfl⟩, fun hq => absurd hq hnot⟩, _, hs⟩
    refine hksMalloc_bind fun b hb =>
      guard_refuse (fun hfail s hs => hfault (fun hq => hfail (hb ?_ hq)) hs) fun _ => ?_
    case refine_2.refine_1 =>
      rw [mallocOk_iff]
      omega
    refine returned_bind (hksFileRead_at hwhole (by omega)) ?_ (fun buf => ?_) fun e => ?_
    case refine_2.refine_2.refine_1 =>
      rintro s ⟨⟨⟨code, hcode⟩, _⟩, _⟩
      cases hcode
    case refine_2.refine_2.refine_2 =>
      refine .of_pure fun hread => ?_
      obtain ⟨bytes, hbytes, _, hbuf⟩ := hread
      have hbuf : buf = imageOf head records [] := by
        cases hfile.symm.trans hbytes
        rw [hbuf, List.take_of_length_le (by rw [length_imageOf_nil, fileSize]; omega)]
      refine .modify fun s hs => ⟨hk, h.counts, ?_, by rw [hbuf], hs.2⟩
      rw [length_imageOf_nil, fileSize]
      exact Nat.le_trans hfits (by decide)
    case refine_2.refine_2.refine_3 =>
      refine .throw ?_
      rintro s ⟨⟨_, hread⟩, hs⟩
      refine hfault (fun hq => hread hq _ hfile ?_) hs
      rw [length_imageOf_nil, fileSize]
      omega
  case refine_2.refine_2 =>
    have hnil : records = [] := pack_eq_nil (by omega)
    subst hnil
    refine .pure fun s hs => ⟨hk, h.counts, ?_, hs⟩
    rw [length_imageOf_nil]
    decide

theorem check_at (hwhole : env.Whole) (h : Written env records k head file) (hk : headerSize ≤ k) :
    Triple (At (some (imageOf head [] [])) file) (do checkKeyInfoHeaderValid env; freshImageBuffer env)
      (fun _ s => fileSize records ≤ k ∧ Holds records head [] file s)
      (fun e s => ((∃ code, e = .error code) ∧
        (env.Quiet → k < fileSize records ∧ e = .error .invalidKeyFile)) ∧ ∃ image, At image file s) := by
  refine .bind ((checkKeyInfoHeaderValid_at h.withMac).weaken_error ?_) fun _ => freshImageBuffer_at hwhole h hk
  rintro e s ⟨hcode, hnot, hs⟩
  exact ⟨⟨hcode, fun hq => absurd hq hnot⟩, _, hs⟩

end Check

section Load

-- What is left when the image is given up
theorem freeImageBuffer_refuse {β : Type} {e : HksErrorCode} {Q : β → LiteStore → Prop}
    {E : Stop HksErrorCode → LiteStore → Prop} (h : ∀ s, At none file s → E (.error e) s) :
    Triple (At image file) (do freeImageBuffer; refuse e) Q E :=
  bind_at (fun _ => rfl) (.throw h)

-- A file that is not read is not there.
theorem fallback_at {bytes : Bytes} {E : Stop HksErrorCode → LiteStore → Prop}
    {f : Except HksErrorCode Unit → LiteM Unit} (hok : f (.ok ⟨⟩) = pure ⟨⟩)
    (herror : ∀ e, f (.error e) = (do freeImageBuffer; refuse e))
    (hmin : headerSize ≤ bytes.length) (hmax : bytes.length ≤ maxImageSize)
    (hE : ∀ e s, ¬env.Quiet → At none file s → E (.error e) s) :
    Triple (At (some bytes) file) (returned (initImageBuffer env) >>= f)
      (fun _ s => ∃ head rest, (Sealed env head ∧ headerSize + rest.length = bytes.length) ∧
        Holds [] head rest file s) E := by
  refine returned_bind (initImageBuffer_at hmin hmax) ?_ (fun _ => ?_) fun e => ?_
  case refine_1 =>
    rintro s ⟨image, hfault⟩
    exact not_fault_outside hfault
  case refine_2 =>
    rw [hok]
    exact .pure fun s hs => hs
  case refine_3 =>
    rw [herror]
    refine .of_exists fun image => ?_
    refine .strengthen_pre (S := fun s => ¬env.Quiet ∧ At image file s) (.of_pure fun hnot => ?_) fun s hs => hs.2
    exact freeImageBuffer_refuse fun s hs => hE e s hnot hs

theorem loadFileToBuffer_at (hwhole : env.Whole) (h : Written env records k head file) {bytes : Bytes}
    (hbytes : bytes.length = headerSize) :
    Triple (At (some bytes) file) (loadFileToBuffer env)
      (fun _ s => (∃ head rest, Sealed env head ∧ Holds [] head rest file s ∧ (env.Quiet → k < headerSize)) ∨
        fileSize records ≤ k ∧ Holds records head [] file s)
      (fun e s => ((∃ code, e = .error code) ∧
        (env.Quiet → (headerSize ≤ k ∧ k < fileSize records) ∧ e = .error .invalidKeyFile)) ∧ At none file s) := by
  have hfile := h.file
  rw [loadFileToBuffer]
  refine bind_at (fun _ => hksGetImageBuffer_run) ?_
  rw [hbytes]
  refine returned_bind (hksFileRead_at hwhole (by decide)) ?_ (fun buf => ?_) fun e => ?_
  case refine_1 =>
    rintro s ⟨⟨⟨code, hcode⟩, _⟩, _⟩
    cases hcode
  case refine_2 =>
    refine .of_pure fun hread => ?_
    obtain ⟨b, hb, hlen, hbuf⟩ := hread
    cases hfile.symm.trans hb
    rw [List.length_take, length_imageOf_nil] at hlen
    have hk : headerSize ≤ k := by omega
    have hheader : buf = imageOf head [] [] := by
      rw [hbuf, List.take_take, Nat.min_eq_left hk, imageOf, List.take_left' (length_encode_header head), imageOf,
        pack_nil, List.append_nil, List.append_nil]
    rw [hheader]
    refine bind_at (fun _ => rfl) (returned_bind (check_at hwhole h hk) ?_ (fun _ => ?_) fun e => ?_)
    case refine_1 =>
      rintro s ⟨⟨⟨code, hcode⟩, _⟩, _⟩
      cases hcode
    case refine_2 => exact .pure fun s hs => .inr hs
    case refine_3 =>
      refine .of_pure fun hcut => .of_exists fun image => freeImageBuffer_refuse fun s hs => ?_
      refine ⟨⟨⟨e, rfl⟩, fun hq => ?_⟩, hs⟩
      exact ⟨⟨hk, (hcut.2 hq).1⟩, (hcut.2 hq).2⟩
  case refine_3 =>
    refine .of_pure fun hread => ?_
    refine (fallback_at rfl (fun _ => rfl) (Nat.le_of_eq hbytes.symm) (by rw [hbytes]; decide) ?_).weaken_post ?_
    case refine_1 => exact fun e s hnot hs => ⟨⟨⟨e, rfl⟩, fun hq => absurd hq hnot⟩, hs⟩
    case refine_2 =>
      rintro _ s ⟨head', rest', ⟨hmac, _⟩, hs⟩
      refine .inl ⟨head', rest', hmac, hs, fun hq => ?_⟩
      have hshort := hread.2 hq _ hfile
      rw [List.length_take, length_imageOf_nil, fileSize] at hshort
      omega

theorem loadFileToBuffer_none {bytes : Bytes} (hwhole : env.Whole) (hbytes : bytes.length = headerSize) :
    Triple (At (some bytes) none) (loadFileToBuffer env)
      (fun _ s => ∃ head rest, Holds [] head rest none s)
      (fun e s => ((∃ code, e = .error code) ∧ ¬env.Quiet) ∧ At none none s) := by
  rw [loadFileToBuffer]
  refine bind_at (fun _ => hksGetImageBuffer_run) ?_
  rw [hbytes]
  refine returned_bind (hksFileRead_at hwhole (by decide)) ?_ (fun buf => ?_) fun e => .of_pure fun _ => ?_
  case refine_1 =>
    rintro s ⟨⟨⟨code, hcode⟩, _⟩, _⟩
    cases hcode
  case refine_2 =>
    refine .of_pure fun hread => ?_
    obtain ⟨b, hb, _⟩ := hread
    cases hb
  case refine_3 =>
    refine (fallback_at rfl (fun _ => rfl) (Nat.le_of_eq hbytes.symm) (by rw [hbytes]; decide) ?_).weaken_post ?_
    case refine_1 => exact fun e s hnot hs => ⟨⟨⟨e, rfl⟩, hnot⟩, hs⟩
    case refine_2 =>
      rintro _ s ⟨head, rest, _, hs⟩
      exact ⟨head, rest, hs⟩

theorem applyImageBuffer_none : Triple (At none file) (applyImageBuffer env headerSize)
    (fun _ => At (some (.replicate headerSize 0)) file)
    (fun e s => (e = .error .mallocFail ∧ ¬env.Quiet) ∧ At none file s) := by
  rw [applyImageBuffer]
  refine get_bind_at fun _ => .ite (fun _ => ?_) fun h => absurd rfl h
  refine guard_refuse (fun h => absurd h (by decide)) fun _ => ?_
  refine hksMalloc_bind fun b hb => guard_refuse (fun hfail s hs => ⟨⟨rfl, fun hq => hfail ?_⟩, hs⟩) fun _ => ?_
  case refine_1 => exact hb (by decide) hq
  exact .modify fun s hs => ⟨rfl, hs.2⟩

theorem applyImageBuffer_some {bytes : Bytes} (tick : Nat) :
    (applyImageBuffer env headerSize).run ⟨some bytes, file, tick⟩ = .ok ⟨⟩ ⟨some bytes, file, tick⟩ := rfl

theorem hksLoadFileToBuffer_at {Q : Unit → LiteStore → Prop} {E : Stop HksErrorCode → LiteStore → Prop}
    (hload : ∀ bytes : Bytes, bytes.length = headerSize → Triple (At (some bytes) file) (loadFileToBuffer env) Q E)
    (hE : ∀ s, ¬env.Quiet → At none file s → E (.error .mallocFail) s) :
    Triple (At none file) (hksLoadFileToBuffer env) Q E := by
  rw [hksLoadFileToBuffer]
  refine get_bind_at fun _ => .ite (fun _ => ?_) fun h => absurd rfl h
  refine .bind (applyImageBuffer_none.weaken_error ?_) fun _ => ?_
  case refine_1 =>
    rintro e s ⟨⟨rfl, hnot⟩, hs⟩
    exact hE s hnot hs
  refine bind_at (fun _ => rfl) (hload _ ?_)
  rw [List.length_replicate, List.length_replicate]

end Load

section Save

-- The image is written up to its last record.
theorem save_at {n : Nat} (hmac : Sealed env head) (hcounts : Counts head records)
    (hfits : fileSize records ≤ maxStorageSize.toNat) (hn : n = fileSize records) :
    Triple (At (some (imageOf head records rest)) file) (do hksFileWrite env (← readImage 0 n))
      (fun _ s => s.image = some (imageOf head records rest) ∧
        ∃ k, (env.Quiet → fileSize records ≤ k) ∧ Written env records k head s.file)
      (fun e s => ((∃ code, e = .error code) ∧ ¬env.Quiet) ∧ s.image = some (imageOf head records rest) ∧
        (s.file = file ∨ ∃ k head, Written env records k head s.file)) := by
  have hlen := length_imageOf head records rest
  have hslice : slice (imageOf head records rest) 0 n = imageOf head records [] := by
    have hfront : imageOf head records rest = imageOf head records [] ++ rest := by
      simp only [imageOf, List.append_nil, List.append_assoc]
    rw [slice, List.drop_zero, hfront, hn, ← length_imageOf_nil, List.take_left]
  have hne : imageOf head records [] ≠ [] := by
    refine List.ne_nil_of_length_pos ?_
    rw [length_imageOf_nil, fileSize]
    exact Nat.lt_of_lt_of_le (by decide) (Nat.le_add_right _ _)
  refine bind_at (fun _ => readImage_run (by rw [hn, fileSize]; omega)) ?_
  rw [hslice]
  refine (hksFileWrite_at hne).weaken (fun s hs => hs) ?_ ?_
  case refine_1 =>
    rintro _ s ⟨k, hquiet, himage, hfile⟩
    exact ⟨himage, k, fun hq => length_imageOf_nil ▸ hquiet hq, hcounts, hfits, hmac, hfile⟩
  case refine_2 =>
    rintro e s ⟨hcode, hnot, ⟨himage, hfile⟩ | ⟨k, himage, hfile⟩⟩
    case inl => exact ⟨⟨hcode, hnot⟩, himage, .inl hfile⟩
    case inr => exact ⟨⟨hcode, hnot⟩, himage, .inr ⟨k, head, hcounts, hfits, hmac, hfile⟩⟩

theorem cleanStorageKeyInfo_at {bytes : Bytes} (hmin : headerSize ≤ bytes.length) (hmax : bytes.length ≤ maxImageSize) :
    Triple (At (some bytes) file) (cleanStorageKeyInfo env)
      (fun _ s => ∃ head rest, ((imageOf head [] rest).length ≤ maxImageSize ∧ Counts head []) ∧
        s.image = some (imageOf head [] rest) ∧ ∃ k, (env.Quiet → headerSize ≤ k) ∧ Written env [] k head s.file)
      (fun e s => ((∃ code, e = .error code) ∧ ¬env.Quiet) ∧ s.image = none ∧
        (s.file = file ∨ ∃ k head, Written env [] k head s.file)) := by
  rw [cleanStorageKeyInfo]
  refine returned_bind (initImageBuffer_at hmin hmax) ?_ (fun _ => ?_) fun e => ?_
  case refine_1 =>
    rintro s ⟨image, hfault⟩
    exact not_fault_outside hfault
  case refine_2 =>
    refine .of_exists fun head => .of_exists fun rest => .of_pure fun hmac => ?_
    refine Triple.strengthen_pre (S := fun s => (Counts head [] ∧ (imageOf head [] rest).length ≤ maxImageSize) ∧
      At (some (imageOf head [] rest)) file s) (.of_pure fun hholds => ?_)
        fun s hs => ⟨⟨hs.counts, hs.length⟩, hs.state⟩
    refine returned_bind (save_at hmac.1 hholds.1 (by decide) rfl) ?_ (fun _ => ?_) fun e => ?_
    case refine_1 =>
      rintro s ⟨⟨⟨code, hcode⟩, _⟩, _⟩
      cases hcode
    case refine_2 => exact .pure fun s hs => ⟨head, rest, hholds.symm, hs⟩
    case refine_3 =>
      exact .of_pure fun hnot => .bind (.modify fun s hs => ⟨rfl, hs.2⟩) fun _ => .throw fun s hs => ⟨hnot, hs⟩
  case refine_3 =>
    refine .of_exists fun image => Triple.strengthen_pre (S := fun s => ¬env.Quiet ∧ At image file s)
      (.of_pure fun hnot => ?_) fun s hs => hs.2
    exact freeImageBuffer_refuse fun s hs => ⟨⟨⟨e, rfl⟩, hnot⟩, hs.1, .inl hs.2⟩

theorem hksFileBufferRefresh_at
    (himage : ∀ bytes, image = some bytes → headerSize ≤ bytes.length ∧ bytes.length ≤ maxImageSize) :
    Triple (At image file) (hksFileBufferRefresh env)
      (fun _ s => ∃ head rest, ((imageOf head [] rest).length ≤ maxImageSize ∧ Counts head []) ∧
        s.image = some (imageOf head [] rest) ∧ ∃ k, (env.Quiet → headerSize ≤ k) ∧ Written env [] k head s.file)
      (fun e s => ((∃ code, e = .error code) ∧ ¬env.Quiet) ∧ s.image = none ∧
        (s.file = file ∨ ∃ k head, Written env [] k head s.file)) := by
  rw [hksFileBufferRefresh]
  cases image
  case none =>
    refine .bind (applyImageBuffer_none.weaken_error ?_) fun _ => bind_at (fun _ => rfl) (cleanStorageKeyInfo_at ?_ ?_)
    case refine_1 =>
      rintro e s ⟨⟨rfl, hnot⟩, hs⟩
      exact ⟨⟨⟨_, rfl⟩, hnot⟩, hs.1, .inl hs.2⟩
    case refine_2 => rw [List.length_replicate, List.length_replicate]
    case refine_3 =>
      rw [List.length_replicate, List.length_replicate]
      decide
  case some bytes =>
    obtain ⟨hmin, hmax⟩ := himage bytes rfl
    refine bind_at applyImageBuffer_some (bind_at (fun _ => rfl) (cleanStorageKeyInfo_at ?_ ?_))
    case refine_1 => rwa [List.length_replicate]
    case refine_2 => rwa [List.length_replicate]

end Save

end Huks.StorageLite
