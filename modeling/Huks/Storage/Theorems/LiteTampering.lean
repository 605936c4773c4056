import Huks.Storage.Theorems.LiteRefinement
import Huks.Storage.Theorems.LiteSafety

namespace Huks.StorageLite

open EStateM

variable {env : LiteEnv} {image file : Option Bytes} {head : HksStoreHeaderInfo} {rest keyAlias keyBlob : Bytes}
  {offset totalLen : UInt32} {needDeleteKey : Bool}

section Store

-- What is left of the image when the key at `offset` goes
def remaining (head : HksStoreHeaderInfo) (rest : Bytes) (needDeleteKey : Bool) (offset : UInt32) : UInt32 :=
  if needDeleteKey then head.totalLen - (infoAt (rawImage head rest) offset).keyInfoLen.toUInt32 else head.totalLen

theorem getLenBeforeAddKey_raw (h : Bounded head rest)
    (hfound : needDeleteKey = true → Found (rawImage head rest) head.totalLen offset) (tick : Nat) :
    (getLenBeforeAddKey needDeleteKey offset head).run ⟨some (rawImage head rest), file, tick⟩ =
      .ok (remaining head rest needDeleteKey offset) ⟨some (rawImage head rest), file, tick⟩ := by
  cases needDeleteKey
  case false => rfl
  case true =>
    have hsize := (hfound rfl).size
    have hend := (hfound rfl).inside
    have hinside := h.le_length
    rw [getLenBeforeAddKey, if_pos rfl, run_bind_of_ok (keyInfoAt_raw (by omega) tick)]
    rfl

-- The key that is to be replaced is deleted first.
theorem deleteKey_first {β : Type} {f : PUnit → LiteM β} {Q : β → LiteStore → Prop} (h : Bounded head rest)
    (hfound : needDeleteKey = true → Found (rawImage head rest) head.totalLen offset)
    (hf : ∀ head' rest', Bounded head' rest' → head'.totalLen = remaining head rest needDeleteKey offset →
      Triple (At (some (rawImage head' rest')) file) (f ⟨⟩) Q (Refusal (SoundAt file))) :
    Triple (At (some (rawImage head rest)) file) (if needDeleteKey then deleteKey offset >>= f else f ⟨⟩) Q
      (Refusal (SoundAt file)) := by
  cases needDeleteKey
  case false => exact hf head rest h rfl
  case true =>
    refine .bind (deleteKey_raw h (hfound rfl)) fun _ => .of_exists fun head' => .of_exists fun rest' => ?_
    exact .of_pure fun h' => hf head' rest' h'.1 h'.2

theorem storeKeyBlob_raw (h : Bounded head rest) (hblob : keyBlob.length < 2 ^ 32)
    (hfound : needDeleteKey = true → Found (rawImage head rest) head.totalLen offset) :
    Triple (At (some (rawImage head rest)) file) (storeKeyBlob env needDeleteKey offset keyBlob)
      (fun _ => SoundAt file) (Refusal (SoundAt file)) := by
  have hsound (s : LiteStore) (hs : At (some (rawImage head rest)) file s) : SoundAt file s := ⟨head, rest, h, hs⟩
  rw [storeKeyBlob]
  refine bind_at getHeader_raw (bind_at (getLenBeforeAddKey_raw h hfound) ?_)
  refine checked_bind hsound fun added hadded => ?_
  obtain ⟨hsum, _, _⟩ := getLenAfterAddKey_ok hblob hadded
  refine .bind (refreshKeyInfoHeaderHmac_at.weaken_error ?_) fun newHead => .of_pure fun hnewHead => ?_
  case refine_1 =>
    rintro e s ⟨hcode, _, hs⟩
    exact ⟨hcode, hsound s hs⟩
  refine deleteKey_first h hfound fun head' rest' h' htotal => ?_
  refine .bind (appendNewKey_raw h' hblob) fun _ => .of_exists fun head'' => .of_exists fun rest'' => ?_
  refine .of_pure fun happended => triple_at (setHeader_raw newHead) fun s hs => ⟨newHead, rest'', ?_, hs⟩
  obtain ⟨h'', htotal''⟩ := happended
  have heq : newHead.totalLen = head''.totalLen := by
    rw [hnewHead, htotal'', htotal, ← hsum]
    rfl
  exact h''.of_totalLen (heq ▸ h''.low) (Nat.le_of_eq (congrArg UInt32.toNat heq)) rfl

-- The image is written up to its length.
theorem writeOut_raw {n : Nat} (h : Bounded head rest) (hn : n = head.totalLen.toNat) :
    Triple (At (some (rawImage head rest)) file) (do hksFileWrite env (← readImage 0 n))
      (fun _ => Sound) (Refusal Sound) := by
  have hsound (file : Option Bytes) (s : LiteStore) (hs : At (some (rawImage head rest)) file s) : Sound s :=
    .inr ⟨head, rest, h, hs.1⟩
  have hinside := h.le_length
  have hne : slice (rawImage head rest) 0 n ≠ [] := by
    have hlow : 92 ≤ head.totalLen.toNat := h.low
    rw [← List.length_pos_iff, length_slice (by omega)]
    omega
  refine bind_at (fun _ => readImage_run (by omega)) ((hksFileWrite_at hne).weaken (fun _ hs => hs) ?_ ?_)
  case refine_1 =>
    rintro _ s ⟨k, _, hs⟩
    exact hsound _ s hs
  case refine_2 =>
    rintro e s ⟨hcode, _, hs | ⟨k, hs⟩⟩
    case inl => exact ⟨hcode, hsound _ s hs⟩
    case inr => exact ⟨hcode, hsound _ s hs⟩

theorem SoundAt.sound {s : LiteStore} (h : SoundAt file s) : Sound s := by
  obtain ⟨head, rest, h, hs⟩ := h
  exact .inr ⟨head, rest, h, hs.1⟩

-- What `HksStoreKeyBlob` does once it knows where the key is
theorem storeAndWrite_raw (h : Bounded head rest) (hblob : keyBlob.length < 2 ^ 32)
    (hfound : needDeleteKey = true → Found (rawImage head rest) head.totalLen offset) :
    Triple (At (some (rawImage head rest)) file)
      (do
        storeKeyBlob env needDeleteKey offset keyBlob
        let totalLen ← hksStoreGetToatalSize
        hksFileWrite env (← readImage 0 totalLen.toNat))
      (fun _ => Sound) (Refusal Sound) := by
  refine .bind ((storeKeyBlob_raw h hblob hfound).weaken_error ?_) fun _ => ?_
  case refine_1 =>
    rintro e s ⟨hcode, hs⟩
    exact ⟨hcode, hs.sound⟩
  refine .of_exists fun head' => .of_exists fun rest' => .of_pure fun h' => ?_
  have hlen := @length_rawImage head' rest'
  rw [hksStoreGetToatalSize]
  refine .bind (Q := fun totalLen s => totalLen = head'.totalLen ∧ At (some (rawImage head' rest')) file s)
    (bind_at (fun _ => hksGetImageBuffer_run) ?_)
      fun totalLen => .of_pure fun htotal => writeOut_raw h' (by rw [htotal])
  refine guard_refuse (fun hshort => ?_) fun _ => bind_at getHeader_raw (.pure fun s hs => ⟨rfl, hs⟩)
  omega

theorem hksStoreKeyBlob_raw (h : Bounded head rest) (hblob : keyBlob.length < 2 ^ 32) :
    Triple (At (some (rawImage head rest)) file) (hksStoreKeyBlob env keyAlias keyBlob)
      (fun _ => Sound) (Refusal Sound) := by
  rw [hksStoreKeyBlob]
  refine returned_bind getKeyOffsetByKeyAlias_raw ?_ (fun offset => .of_pure fun hfound => ?_) fun e =>
    .of_pure fun _ => ?_
  case refine_1 =>
    rintro s ⟨⟨code, hcode⟩, _⟩
    cases hcode
  case refine_2 => exact storeAndWrite_raw h hblob fun _ => hfound
  case refine_3 =>
    split
    case h_1 heq => cases heq
    case h_2 => exact storeAndWrite_raw h hblob fun hneed => absurd hneed (by decide)
    case h_3 =>
      refine .bind (Q := fun _ _ => False) (.throw fun s hs => ⟨⟨_, rfl⟩, ?_⟩) fun _ => .of_false
      exact .inr ⟨head, rest, h, hs.1⟩

theorem hksStoreDeleteKeyBlob_raw (h : Bounded head rest) :
    Triple (At (some (rawImage head rest)) file) (hksStoreDeleteKeyBlob env keyAlias)
      (fun _ => Sound) (Refusal Sound) := by
  have hsound (s : LiteStore) (hs : At (some (rawImage head rest)) file s) : Sound s := .inr ⟨head, rest, h, hs.1⟩
  rw [hksStoreDeleteKeyBlob]
  refine .bind (getKeyOffsetByKeyAlias_raw.weaken_error ?_) fun offset => .of_pure fun hfound => ?_
  case refine_1 =>
    rintro e s ⟨hcode, hs⟩
    exact ⟨hcode, hsound s hs⟩
  have hsize := hfound.size
  have hend := hfound.inside
  have hinside := h.le_length
  refine bind_at getHeader_raw (bind_at (keyInfoAt_raw (by omega)) ?_)
  refine .bind (refreshKeyInfoHeaderHmac_at.weaken_error ?_) fun newHead => .of_pure fun hnewHead => ?_
  case refine_2.refine_1 =>
    rintro e s ⟨hcode, _, hs⟩
    exact ⟨hcode, hsound s hs⟩
  refine .bind ((deleteKey_raw h hfound).weaken_error ?_) fun _ => .of_exists fun head' => .of_exists fun rest' => ?_
  case refine_2.refine_2.refine_1 =>
    rintro e s ⟨hcode, hs⟩
    exact ⟨hcode, hs.sound⟩
  refine .of_pure fun hdeleted => bind_at (setHeader_raw newHead) (writeOut_raw ?_ rfl)
  have heq : newHead.totalLen = head'.totalLen := by
    rw [hnewHead, hdeleted.2]
    rfl
  exact hdeleted.1.of_totalLen (heq ▸ hdeleted.1.low) (Nat.le_of_eq (congrArg UInt32.toNat heq)) rfl

end Store

section Load

theorem Bounded.of_counts {head : HksStoreHeaderInfo} {rest : Bytes} (hcounts : Counts head [])
    (hlength : (imageOf head [] rest).length ≤ maxImageSize) : Bounded head rest := by
  have htotal : head.totalLen.toNat = headerSize := hcounts.totalLen
  refine ⟨Nat.le_of_eq htotal.symm, by omega, ?_, ?_⟩
  case refine_1 =>
    rw [htotal]
    decide
  case refine_2 => rwa [← @length_rawImage head rest]

theorem checkKeyInfoHeaderValid_raw : Triple (At (some (rawImage head rest)) file) (checkKeyInfoHeaderValid env)
    (fun _ => At (some (rawImage head rest)) file) (Refusal (At (some (rawImage head rest)) file)) := by
  rw [checkKeyInfoHeaderValid]
  refine bind_at getHeader_raw
    (bind_at readImage_macSize (.bind (calcHeaderMac_macInput.weaken_error ?_) fun mac => ?_))
  case refine_1 =>
    rintro e s ⟨hcode, _, hs⟩
    exact ⟨hcode, hs⟩
  exact .of_pure fun _ => .ite (fun _ => .throw fun s hs => ⟨⟨_, rfl⟩, hs⟩) fun _ => .pure fun s hs => hs

-- The file starts with the header that was checked.
theorem freshImageBuffer_raw {bytes : Bytes} (hwhole : env.Whole) (hfile : file = some bytes)
    (hheader : bytes.take headerSize = HksStoreHeaderInfo.codec.encode head) :
    Triple (At (some (rawImage head [])) file) (freshImageBuffer env)
      (fun _ => Sound) (Refusal fun s => ∃ image, At image file s) := by
  rw [freshImageBuffer]
  refine bind_at getHeader_raw (guard_refuse (fun _ s hs => ⟨⟨_, rfl⟩, _, hs⟩) fun hsize => ?_)
  rw [not_or, Nat.not_lt, gt_iff_lt, UInt32.lt_iff_toNat_lt, Nat.not_lt] at hsize
  obtain ⟨hlow, hsmall⟩ := hsize
  refine .ite (fun _ => ?_) fun hshort => ?_
  case refine_1 =>
    refine .bind hksFileSize_at fun fileLen => .of_pure fun _ => ?_
    refine guard_refuse (fun _ s hs => ⟨⟨_, rfl⟩, _, hs⟩) fun _ => hksMalloc_bind fun b _ => ?_
    refine guard_refuse (fun _ s hs => ⟨⟨_, rfl⟩, _, hs⟩) fun _ => ?_
    have hpos : head.totalLen.toNat ≠ 0 := Nat.ne_of_gt (Nat.lt_of_lt_of_le (by decide) hlow)
    refine returned_bind (hksFileRead_at hwhole hpos) ?_ (fun buf => .of_pure fun hread => ?_) fun e =>
      .of_pure fun _ => ?_
    case refine_1 =>
      rintro s ⟨⟨⟨code, hcode⟩, _⟩, _⟩
      cases hcode
    case refine_2 =>
      obtain ⟨b, hb, hlen, hbuf⟩ := hread
      cases hfile.symm.trans hb
      have htake : buf.take headerSize = HksStoreHeaderInfo.codec.encode head := by
        rw [hbuf, List.take_take, Nat.min_eq_left hlow, hheader]
      have hbufLen : buf.length = head.totalLen.toNat := by
        rw [hbuf, List.length_take, Nat.min_eq_left hlen]
      refine .modify fun s _ => .inr ⟨head, buf.drop headerSize, ⟨hlow, ?_, hsmall, ?_⟩, ?_⟩
      case refine_1 =>
        rw [List.length_drop]
        omega
      case refine_2 =>
        have hdouble : maxImageSize = 2 * maxStorageSize.toNat := rfl
        rw [List.length_drop]
        omega
      case refine_3 => rw [← eq_rawImage htake]
    case refine_3 => exact .throw fun s hs => ⟨⟨_, rfl⟩, _, hs⟩
  case refine_2 =>
    refine .pure fun s hs => .inr ⟨head, [], ⟨hlow, ?_, hsmall, by decide⟩, hs.1⟩
    rw [List.length_nil]
    omega

theorem loadFileToBuffer_raw {bytes : Bytes} (hwhole : env.Whole) (hbytes : bytes.length = headerSize) :
    Triple (At (some bytes) file) (loadFileToBuffer env) (fun _ => Sound) (Refusal Sound) := by
  rw [loadFileToBuffer]
  refine bind_at (fun _ => hksGetImageBuffer_run) ?_
  rw [hbytes]
  refine returned_bind (hksFileRead_at hwhole (by decide)) ?_ (fun buf => .of_pure fun hread => ?_) fun e =>
    .of_pure fun _ => ?_
  case refine_1 =>
    rintro s ⟨⟨⟨code, hcode⟩, _⟩, _⟩
    cases hcode
  case refine_2 =>
    obtain ⟨b, hb, hlen, hbuf⟩ := hread
    have hbufLen : buf.length = headerSize := by rw [hbuf, List.length_take, Nat.min_eq_left hlen]
    obtain ⟨head, rest, hraw⟩ := exists_header (Nat.le_of_eq hbufLen.symm)
    have hrest : rest = [] := by
      rw [hraw, length_imageOf, pack_nil, List.length_nil, Nat.add_zero] at hbufLen
      exact List.length_eq_zero_iff.mp (by omega)
    subst hrest
    have hheader : b.take headerSize = HksStoreHeaderInfo.codec.encode head := by
      rw [← hbuf, hraw, imageOf, pack_nil, List.append_nil, List.append_nil]
    have hcheck : Triple (At (some (rawImage head [])) file)
        (do checkKeyInfoHeaderValid env; freshImageBuffer env)
        (fun _ => Sound) (Refusal fun s => ∃ image, At image file s) := by
      refine .bind (checkKeyInfoHeaderValid_raw.weaken_error ?_) fun _ => freshImageBuffer_raw hwhole hb hheader
      rintro e s ⟨hcode, hs⟩
      exact ⟨hcode, _, hs⟩
    have hraw : buf = rawImage head [] := hraw
    rw [hraw]
    refine bind_at (fun _ => rfl) (returned_bind hcheck ?_ (fun _ => .pure fun s hs => hs) fun e => ?_)
    case refine_1 =>
      rintro s ⟨⟨code, hcode⟩, _⟩
      cases hcode
    case refine_2 =>
      refine .of_pure fun _ => .of_exists fun image => ?_
      exact freeImageBuffer_refuse fun s hs => ⟨⟨e, rfl⟩, .inl hs.1⟩
  case refine_3 =>
    refine (fallback_at rfl (fun _ => rfl) (Nat.le_of_eq hbytes.symm) (by rw [hbytes]; decide) ?_).weaken_post ?_
    case refine_1 => exact fun e s _ hs => ⟨⟨e, rfl⟩, .inl hs.1⟩
    case refine_2 =>
      rintro _ s ⟨head, rest, _, hs⟩
      exact .inr ⟨head, rest, .of_counts hs.counts hs.length, hs.state.1⟩

theorem hksLoadFileToBuffer_raw (hwhole : env.Whole) : Triple (At none file) (hksLoadFileToBuffer env)
    (fun _ => Sound) (Refusal Sound) :=
  hksLoadFileToBuffer_at (fun _ hbytes => loadFileToBuffer_raw hwhole hbytes) fun _ _ hs => ⟨⟨_, rfl⟩, .inl hs.1⟩

theorem hksFileBufferRefresh_raw
    (h : image = none ∨ ∃ head rest, Bounded head rest ∧ image = some (rawImage head rest)) :
    Triple (At image file) (hksFileBufferRefresh env) (fun _ => Sound) (Refusal Sound) := by
  refine (hksFileBufferRefresh_at fun bytes hbytes => ?_).weaken (fun _ hs => hs) ?_ ?_
  case refine_1 =>
    obtain rfl | ⟨head, rest, h, rfl⟩ := h
    case inl => cases hbytes
    case inr =>
      cases hbytes
      rw [length_rawImage]
      exact ⟨Nat.le_add_right _ _, h.length⟩
  case refine_2 =>
    rintro _ s ⟨head, rest, ⟨hlength, hcounts⟩, himage, _⟩
    exact .inr ⟨head, rest, .of_counts hcounts hlength, himage⟩
  case refine_3 =>
    rintro e s ⟨⟨hcode, _⟩, himage, _⟩
    exact ⟨hcode, .inl himage⟩

end Load

section Events

-- What happens to a store: the calls with any blobs, the end of the process, and others that write the file.
inductive Event
  | restart
  | load
  | refresh
  | store (keyAlias keyBlob : Bytes)
  | delete (keyAlias : Bytes)
  | ask (question : Question)
  | tamper (file : Option Bytes)

-- The size of a blob is a `uint32_t`.
def Event.Sized : Event → Prop
  | .store _ keyBlob => keyBlob.length < 2 ^ 32
  | _                => True

def happen (env : LiteEnv) : Event → LiteM Unit
  | .restart                => setImage none
  | .load                   => hksLoadFileToBuffer env
  | .refresh                => hksFileBufferRefresh env
  | .store keyAlias keyBlob => hksStoreKeyBlob env keyAlias keyBlob
  | .delete keyAlias        => hksStoreDeleteKeyBlob env keyAlias
  | .ask question           => discard <| answer env question
  | .tamper file            => modify fun s => { s with file }

def history (env : LiteEnv) (events : List Event) : LiteM (List (Except HksErrorCode Unit)) :=
  events.mapM fun event => returned (happen env event)

-- Without an image there is nothing to search.
theorem closed_raw {x : LiteM Unit}
    (hx : ∀ tick, x.run ⟨none, file, tick⟩ = .error (.error .invalidKeyFile) ⟨none, file, tick⟩) :
    Triple (At none file) x (fun _ => Sound) (Refusal Sound) := by
  rintro ⟨_, _, tick⟩ ⟨rfl, rfl⟩
  rw [hx tick]
  exact ⟨⟨_, rfl⟩, .inl rfl⟩

theorem happen_raw (hwhole : env.Whole) {event : Event} (hsized : event.Sized) :
    Triple Sound (happen env event) (fun _ => Sound) (Refusal Sound) := by
  intro s hs
  suffices h : Triple (At s.image s.file) (happen env event) (fun _ => Sound) (Refusal Sound) from h s ⟨rfl, rfl⟩
  have himage := hs
  rw [Sound] at himage
  generalize s.image = image at himage
  generalize s.file = file
  cases event
  case restart => exact .modify fun _ _ => .inl rfl
  case refresh => exact hksFileBufferRefresh_raw himage
  case tamper file' =>
    refine .modify fun t ht => ?_
    rw [Sound, ht.1]
    exact himage
  case load =>
    obtain rfl | ⟨head, rest, h, rfl⟩ := himage
    case inl => exact hksLoadFileToBuffer_raw hwhole
    case inr => exact get_bind_at fun _ => .pure fun t ht => .inr ⟨head, rest, h, ht.1⟩
  case store keyAlias keyBlob =>
    obtain rfl | ⟨head, rest, h, rfl⟩ := himage
    case inl => exact closed_raw fun _ => rfl
    case inr => exact hksStoreKeyBlob_raw h hsized
  case delete keyAlias =>
    obtain rfl | ⟨head, rest, h, rfl⟩ := himage
    case inl => exact closed_raw fun _ => rfl
    case inr => exact hksStoreDeleteKeyBlob_raw h
  case ask question =>
    obtain rfl | ⟨head, rest, h, rfl⟩ := himage
    case inl =>
      refine closed_raw fun tick => ?_
      rw [happen, run_discard, answer_closed]
    case inr =>
      refine .bind ((answer_raw h).weaken_error ?_) fun _ => .pure fun t ht => .inr ⟨head, rest, h, ht.1⟩
      rintro e t ⟨hcode, ht⟩
      exact ⟨hcode, .inr ⟨head, rest, h, ht.1⟩⟩

theorem history_sound (hwhole : env.Whole) {events : List Event} (hsized : ∀ event ∈ events, event.Sized)
    {s : LiteStore} (hs : Sound s) : ∃ answers t, (history env events).run s = .ok answers t ∧ Sound t := by
  induction events generalizing s
  case nil => exact ⟨[], s, rfl, hs⟩
  case cons event events ih =>
    have hstep := happen_raw hwhole (hsized event (.head _)) s hs
    have hnext : ∃ answer u, (returned (happen env event)).run s = .ok answer u ∧ Sound u := by
      cases hrun : (happen env event).run s
      case ok a u =>
        rw [hrun] at hstep
        exact ⟨_, u, run_returned_ok hrun, hstep⟩
      case error e u =>
        rw [hrun] at hstep
        obtain ⟨⟨code, rfl⟩, hu⟩ := hstep
        exact ⟨_, u, run_returned_error hrun, hu⟩
    obtain ⟨answer, u, hrun, hu⟩ := hnext
    obtain ⟨answers, t, hruns, ht⟩ := ih (fun event hevent => hsized event (.tail _ hevent)) hu
    refine ⟨answer :: answers, t, ?_, ht⟩
    rw [history, List.mapM_cons, run_bind_of_ok hrun]
    exact run_bind_of_ok hruns

-- Whatever others write into the file, and whatever blobs are stored, no access is outside of the image.
theorem liteStore_inside (hwhole : env.Whole) {events : List Event} (hsized : ∀ event ∈ events, event.Sized)
    (file : Option Bytes) : ∃ answers s, (history env events).run { file } = .ok answers s ∧ Sound s :=
  history_sound hwhole hsized (.inl rfl)

theorem liteStore_inside_sample : ∃ answers s, (history calm
      [.tamper (some (.replicate 200 255)), .load, .refresh, .store [97] (.replicate 50 255), .ask (.blob [97])]).run
        { file := none } = .ok answers s ∧ Sound s := by
  refine liteStore_inside calm_quiet.whole (fun event hevent => ?_) none
  simp only [List.mem_cons, List.not_mem_nil, or_false] at hevent
  obtain rfl | rfl | rfl | rfl | rfl := hevent <;> simp [Event.Sized]

end Events

end Huks.StorageLite
