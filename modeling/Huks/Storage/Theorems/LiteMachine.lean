import Huks.Lib.KeyedList
import Huks.Storage.Theorems.LiteImage

namespace Huks.StorageLite

-- What the store is for: keys of different aliases that fit into the file.
structure KeyTable where
  records : List KeyRecord
  nodup   : (records.map KeyRecord.keyAlias).Nodup
  fits    : fileSize records ≤ maxStorageSize.toNat

-- What a caller asks about the keys
inductive Question
  | blob (keyAlias : Bytes)
  | exist (keyAlias : Bytes)
  | blobSize (keyAlias : Bytes)
  | count
  | totalSize
  deriving DecidableEq

inductive Request
  -- The process ends, and another one starts.
  | restart
  | load
  | refresh
  | store (record : KeyRecord)
  | delete (keyAlias : Bytes)
  | ask (question : Question)

inductive Value
  | done
  | bytes (value : Bytes)
  | number (value : UInt32)
  deriving DecidableEq

abbrev Answer := Except HksErrorCode Value

-- What there is to say about a key
def ofKey (say : KeyRecord → Value) : Option KeyRecord → Answer
  | some r => .ok (say r)
  | none   => .error .notExist

namespace KeyTable

def find (t : KeyTable) (keyAlias : Bytes) : Option KeyRecord :=
  KeyedList.find KeyRecord.keyAlias t.records keyAlias

def size (t : KeyTable) : Nat := fileSize t.records

def empty : KeyTable := ⟨[], List.nodup_nil, by decide⟩

theorem length_pack (records : List KeyRecord) :
    (pack records).length = (records.map fun r => r.bytes.length).sum := by
  rw [pack, List.length_flatMap]

theorem size_without_le (t : KeyTable) (keyAlias : Bytes) :
    fileSize (KeyedList.without KeyRecord.keyAlias t.records keyAlias) ≤ t.size := by
  have hsum := KeyedList.sum_without (fun r : KeyRecord => r.bytes.length) t.nodup keyAlias
  rw [← length_pack, ← length_pack] at hsum
  rw [size, fileSize, fileSize]
  omega

def erase (t : KeyTable) (keyAlias : Bytes) : KeyTable where
  records := KeyedList.without KeyRecord.keyAlias t.records keyAlias
  nodup   := KeyedList.nodup_without t.nodup keyAlias
  fits    := Nat.le_trans (t.size_without_le keyAlias) t.fits

-- The table with one more record, or a new one for its alias, if there is room.
def put (t : KeyTable) (r : KeyRecord) : Option KeyTable :=
  if h : fileSize (KeyedList.put KeyRecord.keyAlias t.records r) ≤ maxStorageSize.toNat then
    some ⟨KeyedList.put KeyRecord.keyAlias t.records r, KeyedList.nodup_put t.nodup r, h⟩
  else
    none

def answer (t : KeyTable) : Question → Answer
  | .blob keyAlias     => ofKey (fun r => .bytes r.bytes) (t.find keyAlias)
  | .exist keyAlias    => ofKey (fun _ => .done) (t.find keyAlias)
  | .blobSize keyAlias => ofKey (fun r => .number r.bytes.length.toUInt32) (t.find keyAlias)
  | .count             => .ok (.number t.records.length.toUInt32)
  | .totalSize         => .ok (.number t.size.toUInt32)

variable {t t' : KeyTable} {r : KeyRecord} {keyAlias : Bytes}

theorem put_eq_some : t.put r = some t' ↔ t'.records = KeyedList.put KeyRecord.keyAlias t.records r := by
  rw [put]
  split
  case isTrue h =>
    cases t'
    simp [eq_comm]
  case isFalse h =>
    refine iff_of_false (fun hc => by cases hc) fun heq => h ?_
    rw [← heq]
    exact t'.fits

theorem find_put_self (h : t.put r = some t') : t'.find r.keyAlias = some r := by
  rw [find, put_eq_some.mp h, KeyedList.find_put_self]

theorem find_put_of_ne (h : t.put r = some t') (hne : keyAlias ≠ r.keyAlias) : t'.find keyAlias = t.find keyAlias := by
  rw [find, put_eq_some.mp h, KeyedList.find_put_of_ne hne, find]

theorem find_erase_self : (t.erase keyAlias).find keyAlias = none := KeyedList.find_without_self

theorem find_erase_of_ne {k : Bytes} (h : k ≠ keyAlias) : (t.erase keyAlias).find k = t.find k :=
  KeyedList.find_without_of_ne h

end KeyTable

-- A file that was written for a table, perhaps only its first `size` bytes.
structure Saved where
  table : KeyTable
  size  : Nat

structure Machine where
  memory  : Option KeyTable
  durable : Option Saved

-- What a process finds that starts with the file
inductive Machine.Loads (quiet : Prop) (a : Machine) : Answer → Option KeyTable → Prop
  | saved (s : Saved) (hs : a.durable = some s) (hwhole : s.table.size ≤ s.size) :
      Loads quiet a (.ok .done) (some s.table)
  | empty (h : quiet → ∀ s, a.durable = some s → s.size < headerSize) : Loads quiet a (.ok .done) (some .empty)
  | refused (e : HksErrorCode) (h : quiet → e = .invalidKeyFile ∧
      ∃ s, a.durable = some s ∧ headerSize ≤ s.size ∧ s.size < s.table.size) : Loads quiet a (.error e) none

-- What may be in the file when a write of `t` did not succeed
def Machine.Torn (durable durable' : Option Saved) (t : KeyTable) : Prop :=
  durable' = durable ∨ ∃ size, durable' = some ⟨t, size⟩

-- What a request may do; without failures around the store, `quiet` holds.
inductive Step (quiet : Prop) : Machine → Request → Answer → Machine → Prop
  | restart (a : Machine) : Step quiet a .restart (.ok .done) { a with memory := none }
  | loaded (t : KeyTable) (durable : Option Saved) : Step quiet ⟨some t, durable⟩ .load (.ok .done) ⟨some t, durable⟩
  | load (durable : Option Saved) (answer : Answer) (memory : Option KeyTable)
      (h : Machine.Loads quiet ⟨none, durable⟩ answer memory) :
        Step quiet ⟨none, durable⟩ .load answer ⟨memory, durable⟩
  | refresh (a : Machine) (size : Nat) (h : quiet → headerSize ≤ size) :
      Step quiet a .refresh (.ok .done) ⟨some .empty, some ⟨.empty, size⟩⟩
  | refreshFailed (a : Machine) (e : HksErrorCode) (durable : Option Saved) (hnot : ¬quiet)
      (h : Machine.Torn a.durable durable .empty) : Step quiet a .refresh (.error e) ⟨none, durable⟩
  | closed (durable : Option Saved) (request : Request)
      (h : request ≠ .restart ∧ request ≠ .load ∧ request ≠ .refresh) :
      Step quiet ⟨none, durable⟩ request (.error .invalidKeyFile) ⟨none, durable⟩
  | store (t t' : KeyTable) (durable : Option Saved) (r : KeyRecord) (size : Nat) (hput : t.put r = some t')
      (h : quiet → t'.size ≤ size) :
      Step quiet ⟨some t, durable⟩ (.store r) (.ok .done) ⟨some t', some ⟨t', size⟩⟩
  | storeFull (t : KeyTable) (durable : Option Saved) (r : KeyRecord) (hput : t.put r = none) :
      Step quiet ⟨some t, durable⟩ (.store r) (.error .storageFailure) ⟨some t, durable⟩
  | storeFailed (t t' : KeyTable) (durable : Option Saved) (r : KeyRecord) (e : HksErrorCode) (hnot : ¬quiet)
      (hput : t.put r = some t') (memory : KeyTable) (h : memory = t ∨ memory = t.erase r.keyAlias) :
      Step quiet ⟨some t, durable⟩ (.store r) (.error e) ⟨some memory, durable⟩
  | storeTorn (t t' : KeyTable) (durable durable' : Option Saved) (r : KeyRecord) (e : HksErrorCode) (hnot : ¬quiet)
      (hput : t.put r = some t') (h : Machine.Torn durable durable' t') :
      Step quiet ⟨some t, durable⟩ (.store r) (.error e) ⟨some t', durable'⟩
  | delete (t : KeyTable) (durable : Option Saved) (keyAlias : Bytes) (size : Nat) (hfind : (t.find keyAlias).isSome)
      (h : quiet → (t.erase keyAlias).size ≤ size) :
      Step quiet ⟨some t, durable⟩ (.delete keyAlias) (.ok .done)
        ⟨some (t.erase keyAlias), some ⟨t.erase keyAlias, size⟩⟩
  | deleteMissing (t : KeyTable) (durable : Option Saved) (keyAlias : Bytes) (hfind : t.find keyAlias = none) :
      Step quiet ⟨some t, durable⟩ (.delete keyAlias) (.error .notExist) ⟨some t, durable⟩
  | deleteFailed (t : KeyTable) (durable : Option Saved) (keyAlias : Bytes) (e : HksErrorCode) (hnot : ¬quiet)
      (hfind : (t.find keyAlias).isSome) :
      Step quiet ⟨some t, durable⟩ (.delete keyAlias) (.error e) ⟨some t, durable⟩
  | deleteTorn (t : KeyTable) (durable durable' : Option Saved) (keyAlias : Bytes) (e : HksErrorCode) (hnot : ¬quiet)
      (hfind : (t.find keyAlias).isSome) (h : Machine.Torn durable durable' (t.erase keyAlias)) :
      Step quiet ⟨some t, durable⟩ (.delete keyAlias) (.error e) ⟨some (t.erase keyAlias), durable'⟩
  | ask (t : KeyTable) (durable : Option Saved) (question : Question) :
      Step quiet ⟨some t, durable⟩ (.ask question) (t.answer question) ⟨some t, durable⟩
  | askFailed (t : KeyTable) (durable : Option Saved) (keyAlias : Bytes) (hnot : ¬quiet)
      (hfind : (t.find keyAlias).isSome) :
      Step quiet ⟨some t, durable⟩ (.ask (.blob keyAlias)) (.error .mallocFail) ⟨some t, durable⟩

inductive Run (quiet : Prop) : Machine → List Request → List Answer → Machine → Prop
  | nil (a : Machine) : Run quiet a [] [] a
  | cons {a b c : Machine} {request : Request} {answer : Answer} {requests : List Request} {answers : List Answer}
      (hstep : Step quiet a request answer b) (hrun : Run quiet b requests answers c) :
      Run quiet a (request :: requests) (answer :: answers) c

theorem Run.append {quiet : Prop} {a b : Machine} {front back : List Request} {answers : List Answer}
    (h : Run quiet a (front ++ back) answers b) : ∃ c, Run quiet a front (answers.take front.length) c ∧
      Run quiet c back (answers.drop front.length) b := by
  induction front generalizing a answers
  case nil => exact ⟨a, .nil a, h⟩
  case cons request front ih =>
    cases h
    case cons hstep hrun =>
      obtain ⟨c, hfront, hback⟩ := ih hrun
      exact ⟨c, .cons hstep hfront, hback⟩

theorem Run.length {quiet : Prop} {a b : Machine} {requests : List Request} {answers : List Answer}
    (h : Run quiet a requests answers b) : answers.length = requests.length := by
  induction h
  case nil => rfl
  case cons ih => rw [List.length_cons, List.length_cons, ih]

section Origin

variable {quiet : Prop} {a b : Machine} {request : Request} {requests : List Request} {answer : Answer}
  {answers : List Answer} {p : KeyRecord → Prop}

-- All keys, in the image and in the file, have `p`.
structure Machine.All (p : KeyRecord → Prop) (a : Machine) : Prop where
  memory  : ∀ t, a.memory = some t → ∀ r ∈ t.records, p r
  durable : ∀ s, a.durable = some s → ∀ r ∈ s.table.records, p r

theorem Machine.All.of {t : KeyTable} {durable : Option Saved} (ht : ∀ r ∈ t.records, p r)
    (hdurable : ∀ s, durable = some s → ∀ r ∈ s.table.records, p r) : Machine.All p ⟨some t, durable⟩ where
  memory := by
    intro t' ht'
    cases ht'
    exact ht
  durable := hdurable

theorem Machine.All.saved {t : KeyTable} {size : Nat} (ht : ∀ r ∈ t.records, p r) :
    Machine.All p ⟨some t, some ⟨t, size⟩⟩ := by
  refine .of ht fun s hs => ?_
  cases hs
  exact ht

theorem Machine.Torn.all {durable durable' : Option Saved} {t : KeyTable} (h : Torn durable durable' t)
    (ht : ∀ r ∈ t.records, p r) (hdurable : ∀ s, durable = some s → ∀ r ∈ s.table.records, p r) :
    ∀ s, durable' = some s → ∀ r ∈ s.table.records, p r := by
  obtain rfl | ⟨size, rfl⟩ := h
  case inl => exact hdurable
  case inr =>
    intro s hs
    cases hs
    exact ht

theorem KeyTable.erase_all {t : KeyTable} (h : ∀ r ∈ t.records, p r) (keyAlias : Bytes) :
    ∀ r ∈ (t.erase keyAlias).records, p r := fun r hr => h r (List.mem_of_mem_filter hr)

theorem KeyTable.put_all {t t' : KeyTable} {r : KeyRecord} (h : ∀ r ∈ t.records, p r) (hput : t.put r = some t')
    (hr : p r) : ∀ r ∈ t'.records, p r := by
  rw [put_eq_some.mp hput, KeyedList.put]
  intro r' hr'
  obtain hold | hnew := List.mem_append.mp hr'
  case inl => exact h r' (List.mem_of_mem_filter hold)
  case inr => exact List.mem_singleton.mp hnew ▸ hr

theorem Machine.Loads.all {memory : Option KeyTable} (h : Machine.Loads quiet a answer memory) (ha : a.All p) :
    ∀ t, memory = some t → ∀ r ∈ t.records, p r := by
  intro t ht
  cases h
  case saved s hs _ =>
    cases ht
    exact ha.durable s hs
  case empty =>
    cases ht
    exact List.forall_mem_nil p
  case refused => cases ht

theorem Step.all (h : Step quiet a request answer b) (ha : a.All p) (hnew : ∀ r, request = .store r → p r) :
    b.All p := by
  have hmemory := ha.memory
  have hdurable := ha.durable
  cases h
  case restart =>
    refine ⟨fun t ht => ?_, hdurable⟩
    cases ht
  case loaded => exact ha
  case load h => exact ⟨h.all ha, hdurable⟩
  case refresh size _ => exact .saved (List.forall_mem_nil p)
  case refreshFailed e durable _ h =>
    refine ⟨fun t ht => ?_, h.all (List.forall_mem_nil p) hdurable⟩
    cases ht
  case closed => exact ha
  case store t t' durable r size hput _ => exact .saved (KeyTable.put_all (hmemory t rfl) hput (hnew r rfl))
  case storeFull => exact ha
  case storeFailed t t' durable r e memory _ hput h =>
    refine .of ?_ hdurable
    obtain rfl | rfl := h
    case inl => exact hmemory _ rfl
    case inr => exact KeyTable.erase_all (hmemory t rfl) _
  case storeTorn t t' durable durable' r e _ hput h =>
    have ht' := KeyTable.put_all (hmemory t rfl) hput (hnew r rfl)
    exact .of ht' (h.all ht' hdurable)
  case delete t durable k size _ _ => exact .saved (KeyTable.erase_all (hmemory t rfl) k)
  case deleteMissing => exact ha
  case deleteFailed => exact ha
  case deleteTorn t durable durable' k e _ _ h =>
    have ht' := KeyTable.erase_all (hmemory t rfl) k
    exact .of ht' (h.all ht' hdurable)
  case ask => exact ha
  case askFailed => exact ha

theorem Run.all (h : Run quiet a requests answers b) (ha : a.All p) (hnew : ∀ r, .store r ∈ requests → p r) :
    b.All p := by
  induction h
  case nil => exact ha
  case cons hstep _ ih =>
    refine ih (hstep.all ha fun r hr => hnew r ?_) fun r hr => hnew r (.tail _ hr)
    rw [hr]
    exact .head _

-- A blob comes from a key.
theorem Step.blob {keyAlias bytes : Bytes} (h : Step quiet a request answer b)
    (hrequest : request = .ask (.blob keyAlias)) (hok : answer = .ok (.bytes bytes)) (ha : a.All p) :
    ∃ r, p r ∧ r.keyAlias = keyAlias ∧ bytes = r.bytes := by
  cases h
  case ask t durable question =>
    cases hrequest
    rw [KeyTable.answer] at hok
    cases hfind : t.find keyAlias
    case none =>
      rw [hfind] at hok
      cases hok
    case some r =>
      rw [hfind] at hok
      cases hok
      exact ⟨r, ha.memory t rfl r (KeyedList.mem_of_find hfind), KeyedList.find_some hfind, rfl⟩
  case closed => cases hok
  case askFailed => cases hok
  all_goals cases hrequest

-- The last answer is a blob.
theorem Run.last_blob {keyAlias bytes : Bytes} (h : Run quiet a (requests ++ [.ask (.blob keyAlias)]) answers b)
    (hlast : answers.getLast? = some (.ok (.bytes bytes))) (ha : a.All p) (hnew : ∀ r, .store r ∈ requests → p r) :
    ∃ r, p r ∧ r.keyAlias = keyAlias ∧ bytes = r.bytes := by
  obtain ⟨c, hfront, hback⟩ := h.append
  generalize hdrop : answers.drop requests.length = tail at hback
  cases hback
  case cons d answer answers' hask hnil =>
    cases hnil
    rw [← List.take_append_drop requests.length answers, hdrop, List.getLast?_concat] at hlast
    exact hask.blob rfl (Option.some.inj hlast) (hfront.all ha hnew)

end Origin

section Newest

variable {quiet : Prop} {a b : Machine} {request : Request} {requests : List Request} {answer : Answer}
  {answers : List Answer} {keyAlias : Bytes} {newest : Option KeyRecord}

-- Of the keys with the alias there is none but `newest`.
def Newest (keyAlias : Bytes) (newest : Option KeyRecord) (r : KeyRecord) : Prop :=
  r.keyAlias = keyAlias → newest = some r

def Request.StoresTo (request : Request) (keyAlias : Bytes) : Prop := ∃ r, request = .store r ∧ r.keyAlias = keyAlias

-- What a request that succeeds leaves as the newest key of an alias
def Request.Settles (keyAlias : Bytes) : Request → Option KeyRecord → Prop
  | .store r, newest  => r.keyAlias = keyAlias ∧ newest = some r
  | .delete k, newest => k = keyAlias ∧ newest = none
  | .refresh, newest  => newest = none
  | _, _              => False

theorem KeyTable.alias_erase {t : KeyTable} {r : KeyRecord} (hr : r ∈ (t.erase keyAlias).records) :
    r.keyAlias ≠ keyAlias := by
  simpa using (List.mem_filter.mp hr).2

theorem Step.settled {value : Value} (h : Step quiet a request answer b) (hok : answer = .ok value)
    (hsettles : request.Settles keyAlias newest) : b.All (Newest keyAlias newest) := by
  cases h
  case refresh => exact .saved (List.forall_mem_nil _)
  case store t t' durable r size hput _ =>
    obtain ⟨rfl, rfl⟩ := hsettles
    refine .saved fun r' hr' halias => ?_
    rw [KeyTable.put_eq_some.mp hput, KeyedList.put] at hr'
    obtain hold | hnew := List.mem_append.mp hr'
    case inl => exact absurd halias (KeyTable.alias_erase hold)
    case inr => rw [List.mem_singleton.mp hnew]
  case delete t durable k size _ _ =>
    obtain ⟨rfl, rfl⟩ := hsettles
    exact .saved fun r hr halias => absurd halias (KeyTable.alias_erase hr)
  all_goals first | exact hsettles.elim | cases hok

-- No request between the two stores a key of the alias.
theorem Run.newest_blob {front between : List Request} {settling : Request} {value : Value} {bytes : Bytes}
    (h : Run quiet a (front ++ settling :: (between ++ [.ask (.blob keyAlias)])) answers b)
    (hsettles : settling.Settles keyAlias newest) (hother : ∀ request ∈ between, ¬request.StoresTo keyAlias)
    (hok : answers[front.length]? = some (.ok value)) (hlast : answers.getLast? = some (.ok (.bytes bytes))) :
    ∃ r, newest = some r ∧ bytes = r.bytes := by
  obtain ⟨c, _, hback⟩ := h.append
  generalize hdrop : answers.drop front.length = tail at hback
  cases hback
  case cons settled answer answers' hstep hrun =>
    have hanswer : answers[front.length]? = some answer := by rw [← List.head?_drop, hdrop, List.head?_cons]
    have hsettled := hstep.settled (Option.some.inj (hanswer.symm.trans hok)) hsettles
    have hlast' : answers'.getLast? = answers.getLast? := by
      have hne : answers' ≠ [] := by
        rw [← List.length_pos_iff, hrun.length, List.length_append]
        exact Nat.lt_of_lt_of_le Nat.one_pos (Nat.le_add_left _ _)
      rw [← List.take_append_drop front.length answers, hdrop, List.getLast?_append, List.getLast?_cons,
        List.getLast?_eq_some_getLast hne, Option.getD_some, Option.some_or]
    obtain ⟨r, hnewest, halias, hbytes⟩ := hrun.last_blob (hlast'.trans hlast) hsettled
      fun r hr halias => absurd ⟨r, rfl, halias⟩ (hother _ hr)
    exact ⟨r, hnewest halias, hbytes⟩

end Newest

end Huks.StorageLite
