import Huks.Storage.Theorems.LiteFile
import Huks.Storage.Theorems.LiteMachine

namespace Huks.StorageLite

open EStateM

-- What the store says to a question
def answer (env : LiteEnv) : Question → LiteM Value
  | .blob keyAlias     => do return .bytes (← hksStoreGetKeyBlob env keyAlias)
  | .exist keyAlias    => do
    hksStoreIsKeyBlobExist keyAlias
    return .done
  | .blobSize keyAlias => do return .number (← hksStoreGetKeyBlobSize keyAlias)
  | .count             => do return .number (← hksGetKeyCountByProcessName)
  | .totalSize         => do return .number (← hksStoreGetToatalSize)

variable {env : LiteEnv} {image file : Option Bytes} {head : HksStoreHeaderInfo} {t : KeyTable} {r : KeyRecord}
  {rest keyAlias : Bytes}

section Search

-- What the search finds is what the table has.
theorem search_found (hcounts : Counts head t.records) (hfind : t.find keyAlias = some r) :
    ∃ pre post offset, (t.records = pre ++ r :: post ∧ (t.erase keyAlias).records = pre ++ post) ∧
      offset.toNat = headerSize + (pack pre).length ∧ ∀ tick,
        (getKeyOffsetByKeyAlias keyAlias).run ⟨some (imageOf head t.records rest), file, tick⟩ =
          .ok offset ⟨some (imageOf head t.records rest), file, tick⟩ := by
  obtain ⟨pre, post, hrecords, hpre⟩ := KeyedList.split_of_find hfind
  obtain rfl := KeyedList.find_some hfind
  rw [hrecords] at hcounts
  obtain ⟨offset, hoffset, hrun⟩ := getKeyOffsetByKeyAlias_found hcounts hpre
  refine ⟨pre, post, offset, ⟨hrecords, KeyedList.without_of_split hrecords t.nodup⟩, hoffset, fun tick => ?_⟩
  rw [hrecords]
  exact hrun tick

theorem search_missing (hcounts : Counts head t.records) (hfind : t.find keyAlias = none) (tick : Nat) :
    (getKeyOffsetByKeyAlias keyAlias).run ⟨some (imageOf head t.records rest), file, tick⟩ =
      .error (.error .notExist) ⟨some (imageOf head t.records rest), file, tick⟩ :=
  getKeyOffsetByKeyAlias_missing hcounts (KeyedList.find_none.mp hfind)

theorem erase_of_missing (hfind : t.find keyAlias = none) : (t.erase keyAlias).records = t.records :=
  KeyedList.without_of_find_none hfind

-- The search says where the record goes.
theorem exists_place (hcounts : Counts head t.records) (keyAlias : Bytes) : ∃ needDeleteKey offset,
    Place t.records needDeleteKey offset (t.erase keyAlias).records ∧ ∀ tick,
      (returned (getKeyOffsetByKeyAlias keyAlias)).run ⟨some (imageOf head t.records rest), file, tick⟩ =
        .ok (if needDeleteKey then .ok offset else .error .notExist)
          ⟨some (imageOf head t.records rest), file, tick⟩ := by
  cases hfind : t.find keyAlias
  case none =>
    refine ⟨false, 0, ?_, fun tick => run_returned_error (search_missing hcounts hfind tick)⟩
    rw [erase_of_missing hfind]
    exact .absent _
  case some r =>
    obtain ⟨pre, post, offset, ⟨hrecords, herase⟩, hoffset, hrun⟩ := search_found hcounts hfind
    refine ⟨true, offset, ?_, fun tick => run_returned_ok (hrun tick)⟩
    rw [hrecords, herase]
    exact .found pre r post hoffset

end Search

section Ask

variable {question : Question}

-- A question that gets no answer although the table has one
def Unanswered (env : LiteEnv) (t : KeyTable) (question : Question) (code : HksErrorCode) : Prop :=
  (¬env.Quiet ∧ code = .mallocFail) ∧ ∃ keyAlias, question = .blob keyAlias ∧ (t.find keyAlias).isSome

-- What is said of a table, of which nothing changes
def Answers (env : LiteEnv) (t : KeyTable) (question : Question) (image file : Option Bytes) : Prop :=
  Triple (At image file) (answer env question)
    (fun v s => .ok v = t.answer question ∧ At image file s)
    (fun e s => ∃ code, (e = .error code ∧ (.error code = t.answer question ∨ Unanswered env t question code)) ∧
      At image file s)

-- What a function returns is put into an answer.
theorem say_at {α : Type} {x : LiteM α} {a : α} {say : α → Value} {E : Stop HksErrorCode → LiteStore → Prop}
    (h : Triple (At image file) x (fun b s => b = a ∧ At image file s) E) (hsay : .ok (say a) = t.answer question) :
    Triple (At image file) (do return say (← x)) (fun v s => .ok v = t.answer question ∧ At image file s) E := by
  refine h.bind fun b => .pure ?_
  rintro s ⟨rfl, hs⟩
  exact ⟨hsay, hs⟩

theorem slice_record {pre post : List KeyRecord} :
    slice (imageOf head (pre ++ r :: post) rest) (headerSize + (pack pre).length) r.bytes.length = r.bytes := by
  rw [slice, imageOf_split, ← @length_front head, List.drop_left, List.take_left]

theorem answers_blob (hcounts : Counts head t.records) (keyAlias : Bytes) :
    Answers env t (.blob keyAlias) (some (imageOf head t.records rest)) file := by
  rw [Answers, answer, hksStoreGetKeyBlob]
  cases hfind : t.find keyAlias
  case none =>
    refine .bind (Q := fun _ _ => False) ?_ fun _ => .of_false
    refine bind_error_at (search_missing hcounts hfind) fun s hs => ⟨_, ⟨rfl, .inl ?_⟩, hs⟩
    rw [KeyTable.answer, hfind, ofKey]
  case some r =>
    obtain ⟨pre, post, offset, ⟨hrecords, _⟩, hoffset, hrun⟩ := search_found hcounts hfind
    have hle := r.length_le
    have hmalloc : mallocOk r.bytes.length := by
      have := r.keyInfoSize_le
      rw [mallocOk_iff]
      omega
    have hlen : r.info.keyInfoLen.toNat = r.bytes.length := r.length.symm
    refine say_at (bind_at hrun ?_) (by rw [KeyTable.answer, hfind, ofKey])
    rw [hrecords]
    refine bind_at (fun _ => keyInfoAt_record hoffset) ?_
    simp only [hlen]
    refine hksMalloc_bind fun b hb => guard_refuse (fun hfail s hs => ⟨_, ⟨rfl, .inr ?_⟩, hs⟩) fun _ => ?_
    case refine_1 => exact ⟨⟨fun hq => hfail (hb hmalloc hq), rfl⟩, keyAlias, rfl, Option.isSome_of_eq_some hfind⟩
    refine triple_at (fun _ => readImage_run ?_) fun s hs => ⟨?_, hs⟩
    case refine_2.refine_1 =>
      rw [hoffset, length_imageOf, length_pack_split]
      omega
    case refine_2.refine_2 => rw [hoffset, slice_record]

theorem answers_exist (hcounts : Counts head t.records) (keyAlias : Bytes) :
    Answers env t (.exist keyAlias) (some (imageOf head t.records rest)) file := by
  rw [Answers, answer, hksStoreIsKeyBlobExist]
  cases hfind : t.find keyAlias
  case none =>
    refine .bind (Q := fun _ _ => False) ?_ fun _ => .of_false
    refine bind_error_at (search_missing hcounts hfind) fun s hs => ⟨_, ⟨rfl, .inl ?_⟩, hs⟩
    rw [KeyTable.answer, hfind, ofKey]
  case some r =>
    obtain ⟨_, _, offset, _, _, hrun⟩ := search_found hcounts hfind
    refine .bind (bind_at hrun (.pure fun s hs => hs)) fun _ => .pure fun s hs => ⟨?_, hs⟩
    rw [KeyTable.answer, hfind, ofKey]

theorem answers_blobSize (hcounts : Counts head t.records) (keyAlias : Bytes) :
    Answers env t (.blobSize keyAlias) (some (imageOf head t.records rest)) file := by
  rw [Answers, answer, hksStoreGetKeyBlobSize]
  cases hfind : t.find keyAlias
  case none =>
    refine .bind (Q := fun _ _ => False) ?_ fun _ => .of_false
    refine bind_error_at (search_missing hcounts hfind) fun s hs => ⟨_, ⟨rfl, .inl ?_⟩, hs⟩
    rw [KeyTable.answer, hfind, ofKey]
  case some r =>
    obtain ⟨pre, post, offset, ⟨hrecords, _⟩, hoffset, hrun⟩ := search_found hcounts hfind
    have hlen : r.info.keyInfoLen.toUInt32 = r.bytes.length.toUInt32 := by
      rw [← UInt32.toNat_inj, r.toNat_keyInfoLen, r.toNat_length]
    refine say_at (bind_at hrun ?_) (by rw [KeyTable.answer, hfind, ofKey])
    rw [hrecords]
    exact bind_at (fun _ => keyInfoAt_record hoffset) (.pure fun s hs => ⟨hlen, hs⟩)

theorem answers_count (hcounts : Counts head t.records) :
    Answers env t .count (some (imageOf head t.records rest)) file := by
  have hlen := length_imageOf head t.records rest
  have hcount : head.keyCount.toUInt32 = t.records.length.toUInt32 := by
    rw [← UInt32.toNat_inj, UInt16.toNat_toUInt32, hcounts.keyCount, Nat.toUInt32, UInt32.toNat_ofNat']
    have := hcounts.keyCount ▸ head.keyCount.toNat_lt
    omega
  rw [Answers, answer, hksGetKeyCountByProcessName]
  refine say_at (bind_at (fun _ => hksGetImageBuffer_run) (guard_refuse (fun hshort => ?_) fun _ => ?_)) rfl
  case refine_1 => omega
  case refine_2 => exact bind_at (fun _ => getHeader_imageOf) (.pure fun s hs => ⟨hcount, hs⟩)

theorem hksStoreGetToatalSize_run (hcounts : Counts head t.records) (tick : Nat) :
    hksStoreGetToatalSize.run ⟨some (imageOf head t.records rest), file, tick⟩ =
      .ok t.size.toUInt32 ⟨some (imageOf head t.records rest), file, tick⟩ := by
  have hlen := length_imageOf head t.records rest
  have htotal : head.totalLen = t.size.toUInt32 := by
    have hmax : maxStorageSize.toNat = 5120 := rfl
    have hfits := t.fits
    rw [← UInt32.toNat_inj, hcounts.totalLen, Nat.toUInt32, UInt32.toNat_ofNat', KeyTable.size]
    rw [fileSize] at hfits ⊢
    omega
  rw [hksStoreGetToatalSize, run_bind_of_ok hksGetImageBuffer_run, if_neg (by omega), run_bind_of_ok getHeader_imageOf,
    ← htotal]
  rfl

theorem answers_totalSize (hcounts : Counts head t.records) :
    Answers env t .totalSize (some (imageOf head t.records rest)) file :=
  bind_at (hksStoreGetToatalSize_run hcounts) (.pure fun _ hs => ⟨rfl, hs⟩)

theorem answers_at (hcounts : Counts head t.records) :
    Answers env t question (some (imageOf head t.records rest)) file := by
  cases question
  case blob keyAlias => exact answers_blob hcounts keyAlias
  case exist keyAlias => exact answers_exist hcounts keyAlias
  case blobSize keyAlias => exact answers_blobSize hcounts keyAlias
  case count => exact answers_count hcounts
  case totalSize => exact answers_totalSize hcounts

-- Without an image there is no answer.
theorem answer_closed (tick : Nat) : (answer env question).run ⟨none, file, tick⟩ =
    .error (.error .invalidKeyFile) ⟨none, file, tick⟩ := by
  cases question <;> rfl

end Ask

end Huks.StorageLite
