import Huks.Storage.Theorems.LiteMachine
import Mathlib.Logic.Function.Basic

namespace Huks.StorageLite

-- What the store is to its callers: a map with room for so many bytes, that outlives the process.
structure Spec where
  opened : Bool
  map    : Bytes → Option KeyRecord
  count  : Nat
  used   : Nat

namespace Spec

def closed : Spec := ⟨false, fun _ => none, 0, 0⟩

def remove (s : Spec) (keyAlias : Bytes) : Spec where
  opened := s.opened
  map    := Function.update s.map keyAlias none
  count  := s.count - if (s.map keyAlias).isSome then 1 else 0
  used   := s.used - ((s.map keyAlias).map fun r => r.bytes.length).getD 0

def insert (s : Spec) (r : KeyRecord) : Spec where
  opened := s.opened
  map    := Function.update s.map r.keyAlias (some r)
  count  := s.count + 1
  used   := s.used + r.bytes.length

def answer (s : Spec) : Question → Answer
  | .blob keyAlias     => ofKey (fun r => .bytes r.bytes) (s.map keyAlias)
  | .exist keyAlias    => ofKey (fun _ => .done) (s.map keyAlias)
  | .blobSize keyAlias => ofKey (fun r => .number r.bytes.length.toUInt32) (s.map keyAlias)
  | .count             => .ok (.number s.count.toUInt32)
  | .totalSize         => .ok (.number (headerSize + s.used).toUInt32)

-- What a process does that has the keys
def serve (s : Spec) : Request → Answer × Spec
  | .store r       =>
    if headerSize + ((s.remove r.keyAlias).insert r).used ≤ maxStorageSize.toNat then
      (.ok .done, (s.remove r.keyAlias).insert r)
    else
      (.error .storageFailure, s)
  | .delete k      => if (s.map k).isSome then (.ok .done, s.remove k) else (.error .notExist, s)
  | .ask question  => (s.answer question, s)
  | _              => (.ok .done, s)

def next (s : Spec) : Request → Answer × Spec
  | .restart => (.ok .done, { s with opened := false })
  | .load    => (.ok .done, { s with opened := true })
  | .refresh => (.ok .done, { closed with opened := true })
  | request  => if s.opened then s.serve request else (.error .invalidKeyFile, s)

def run (s : Spec) : List Request → List Answer
  | []                  => []
  | request :: requests => (s.next request).1 :: (s.next request).2.run requests

-- The map of a table
structure Describes (s : Spec) (t : KeyTable) : Prop where
  map   : ∀ keyAlias, s.map keyAlias = t.find keyAlias
  count : s.count = t.records.length
  used  : s.used = (pack t.records).length

-- The file has all of the table that the map describes, and the image has it too once it is loaded.
structure Agrees (s : Spec) (a : Machine) (t : KeyTable) : Prop where
  describes : s.Describes t
  memory    : a.memory = if s.opened then some t else none
  durable   : (a.durable = none ∧ t.records = []) ∨ ∃ size, a.durable = some ⟨t, size⟩ ∧ t.size ≤ size

variable {s : Spec} {t t' : KeyTable} {r : KeyRecord} {keyAlias : Bytes}

@[simp]
theorem remove_map : (s.remove keyAlias).map = Function.update s.map keyAlias none := rfl

@[simp]
theorem insert_map : (s.insert r).map = Function.update s.map r.keyAlias (some r) := rfl

@[simp]
theorem insert_used : (s.insert r).used = s.used + r.bytes.length := rfl

theorem Describes.answer (h : s.Describes t) (question : Question) : s.answer question = t.answer question := by
  cases question
  case blob k => rw [Spec.answer, KeyTable.answer, h.map]
  case exist k => rw [Spec.answer, KeyTable.answer, h.map]
  case blobSize k => rw [Spec.answer, KeyTable.answer, h.map]
  case count => rw [Spec.answer, KeyTable.answer, h.count]
  case totalSize => rw [Spec.answer, KeyTable.answer, h.used, KeyTable.size, fileSize]

theorem Describes.remove (h : s.Describes t) (keyAlias : Bytes) : (s.remove keyAlias).Describes (t.erase keyAlias) where
  map k := by
    by_cases hk : k = keyAlias
    case pos => rw [hk, remove_map, Function.update_self, KeyTable.find_erase_self]
    case neg => rw [remove_map, Function.update_of_ne hk, KeyTable.find_erase_of_ne hk, h.map]
  count := by
    have hlen := KeyedList.length_without t.nodup keyAlias
    rw [Spec.remove, h.count, h.map, ← hlen, KeyTable.find, Nat.add_sub_cancel, KeyTable.erase]
  used := by
    have hsum := KeyedList.sum_without (fun r : KeyRecord => r.bytes.length) t.nodup keyAlias
    rw [← KeyTable.length_pack, ← KeyTable.length_pack] at hsum
    rw [Spec.remove, h.used, h.map, ← hsum, KeyTable.find, Nat.add_sub_cancel, KeyTable.erase]

theorem fileSize_put :
    fileSize (KeyedList.put KeyRecord.keyAlias t.records r) = (t.erase r.keyAlias).size + r.bytes.length := by
  rw [KeyedList.put, fileSize, pack_append, pack_cons, pack_nil, List.append_nil, List.length_append, ← Nat.add_assoc]
  rfl

theorem records_put (h : t.put r = some t') : t'.records = (t.erase r.keyAlias).records ++ [r] :=
  KeyTable.put_eq_some.mp h

theorem Describes.put (h : s.Describes t) (hput : t.put r = some t') :
    ((s.remove r.keyAlias).insert r).Describes t' where
  map k := by
    by_cases hk : k = r.keyAlias
    case pos => rw [hk, insert_map, Function.update_self, KeyTable.find_put_self hput]
    case neg =>
      rw [insert_map, Function.update_of_ne hk, remove_map, Function.update_of_ne hk, KeyTable.find_put_of_ne hput hk,
        h.map]
  count := by
    rw [Spec.insert, (h.remove r.keyAlias).count, records_put hput, List.length_append, List.length_singleton]
  used := by
    rw [Spec.insert, (h.remove r.keyAlias).used, records_put hput, pack_append, pack_cons, pack_nil, List.append_nil,
      List.length_append]

-- There is room in the file where there is in the map.
theorem Describes.put_isSome (h : s.Describes t) :
    (t.put r).isSome ↔ headerSize + ((s.remove r.keyAlias).insert r).used ≤ maxStorageSize.toNat := by
  rw [insert_used, (h.remove r.keyAlias).used, ← Nat.add_assoc, KeyTable.put]
  have hsize := @fileSize_put t r
  split
  case isTrue hfits =>
    rw [hsize] at hfits
    exact iff_of_true rfl hfits
  case isFalse hfull =>
    rw [hsize] at hfull
    exact iff_of_false (by decide) hfull

variable {a b : Machine} {request : Request} {answer : Answer}

theorem eq_empty (h : t.records = []) : t = .empty := by
  obtain ⟨records, nodup, fits⟩ := t
  cases h
  rfl

-- A file with all of a table is not taken for anything else.
theorem Agrees.load {memory : Option KeyTable} (h : s.Agrees a t) (hload : a.Loads True answer memory) :
    answer = .ok .done ∧ memory = some t := by
  cases hload
  case saved saved hs hwhole =>
    obtain ⟨hnone, _⟩ | ⟨size, hsome, hsize⟩ := h.durable
    case inl => cases hnone.symm.trans hs
    case inr =>
      cases hsome.symm.trans hs
      exact ⟨rfl, rfl⟩
  case empty hshort =>
    obtain ⟨_, hnil⟩ | ⟨size, hsome, hsize⟩ := h.durable
    case inl => exact ⟨rfl, congrArg some (eq_empty hnil).symm⟩
    case inr =>
      have hlt := hshort trivial _ hsome
      have hle : headerSize ≤ t.size := Nat.le_add_right _ _
      exact absurd hlt (by simp only; omega)
  case refused e hcut =>
    obtain ⟨_, saved, hs, _, hlt⟩ := hcut trivial
    obtain ⟨hnone, _⟩ | ⟨size, hsome, hsize⟩ := h.durable
    case inl => cases hnone.symm.trans hs
    case inr =>
      cases hsome.symm.trans hs
      exact absurd hlt (Nat.not_lt_of_le hsize)

-- A process that has the keys
theorem Agrees.opened {durable : Option Saved} (h : s.Agrees ⟨some t', durable⟩ t) : s.opened = true ∧ t' = t := by
  have hmemory := h.memory
  cases hopened : s.opened
  case false =>
    rw [hopened, if_neg (by decide)] at hmemory
    cases hmemory
  case true =>
    rw [hopened, if_pos rfl] at hmemory
    exact ⟨rfl, Option.some.inj hmemory⟩

theorem Agrees.closed {durable : Option Saved} (h : s.Agrees ⟨none, durable⟩ t) : s.opened = false := by
  have hmemory := h.memory
  cases hopened : s.opened
  case false => rfl
  case true =>
    rw [hopened, if_pos rfl] at hmemory
    cases hmemory

theorem next_eq (hother : request ≠ .restart ∧ request ≠ .load ∧ request ≠ .refresh) :
    s.next request = if s.opened then s.serve request else (.error .invalidKeyFile, s) := by
  obtain ⟨hrestart, hload, hrefresh⟩ := hother
  cases request
  case restart => exact absurd rfl hrestart
  case load => exact absurd rfl hload
  case refresh => exact absurd rfl hrefresh
  all_goals rfl

-- A table that was just written
theorem Describes.agrees {s' : Spec} {size : Nat} (h : s'.Describes t) (hopened : s'.opened = true)
    (hsize : t.size ≤ size) : s'.Agrees ⟨some t, some ⟨t, size⟩⟩ t :=
  ⟨h, by rw [hopened, if_pos rfl], .inr ⟨size, rfl, hsize⟩⟩

theorem Agrees.step (h : s.Agrees a t) (hstep : Step True a request answer b) :
    answer = (s.next request).1 ∧ ∃ t', (s.next request).2.Agrees b t' := by
  cases hstep
  case restart => exact ⟨rfl, t, ⟨h.describes.map, h.describes.count, h.describes.used⟩, rfl, h.durable⟩
  case loaded t' durable =>
    obtain ⟨_, rfl⟩ := h.opened
    exact ⟨rfl, t', ⟨h.describes.map, h.describes.count, h.describes.used⟩, rfl, h.durable⟩
  case load hload =>
    obtain ⟨rfl, rfl⟩ := h.load hload
    exact ⟨rfl, t, ⟨h.describes.map, h.describes.count, h.describes.used⟩, rfl, h.durable⟩
  case refresh size hsize =>
    exact ⟨rfl, .empty, ⟨fun _ => rfl, rfl, rfl⟩, rfl, .inr ⟨size, rfl, hsize trivial⟩⟩
  case closed durable hother =>
    rw [next_eq hother, h.closed, if_neg (by decide)]
    exact ⟨rfl, t, h⟩
  case store t' t'' durable r size hput hsize =>
    obtain ⟨hopened, rfl⟩ := h.opened
    have hroom := h.describes.put_isSome.mp (Option.isSome_of_eq_some hput)
    rw [next_eq (by simp), if_pos hopened, serve, if_pos hroom]
    exact ⟨rfl, t'', (h.describes.put hput).agrees hopened (hsize trivial)⟩
  case storeFull t' durable r hput =>
    obtain ⟨hopened, rfl⟩ := h.opened
    have hfull : ¬headerSize + ((s.remove r.keyAlias).insert r).used ≤ maxStorageSize.toNat := by
      rw [← h.describes.put_isSome, hput]
      decide
    rw [next_eq (by simp), if_pos hopened, serve, if_neg hfull]
    exact ⟨rfl, t', h⟩
  case delete t' durable k size hfind hsize =>
    obtain ⟨hopened, rfl⟩ := h.opened
    rw [next_eq (by simp), if_pos hopened, serve, h.describes.map, if_pos hfind]
    exact ⟨rfl, t'.erase k, (h.describes.remove k).agrees hopened (hsize trivial)⟩
  case deleteMissing t' durable k hfind =>
    obtain ⟨hopened, rfl⟩ := h.opened
    rw [next_eq (by simp), if_pos hopened, serve, h.describes.map, hfind, if_neg (by decide)]
    exact ⟨rfl, t', h⟩
  case ask t' durable question =>
    obtain ⟨hopened, rfl⟩ := h.opened
    rw [next_eq (by simp), if_pos hopened, serve]
    exact ⟨(h.describes.answer question).symm, t', h⟩
  all_goals exact absurd trivial ‹¬True›

theorem Agrees.run {requests : List Request} {answers : List Answer} (h : s.Agrees a t)
    (hrun : Run True a requests answers b) : answers = s.run requests := by
  induction requests generalizing s a t answers
  case nil =>
    cases hrun
    rfl
  case cons request requests ih =>
    cases hrun
    case cons hstep hrun =>
      obtain ⟨rfl, t', h'⟩ := h.step hstep
      rw [ih h' hrun, Spec.run]

end Spec

end Huks.StorageLite
