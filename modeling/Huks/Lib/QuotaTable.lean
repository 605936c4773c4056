import Mathlib.Data.List.Basic
import Mathlib.Data.List.Nodup
import Mathlib.Logic.Relation
import Mathlib.Order.Basic

namespace QuotaTable

-- A table of at most `capacity` entries in which no owner has more than `quota`. Room is made by
-- evicting entries, but only idle ones.
structure Policy (α κ : Type _) where
  capacity : Nat
  quota    : Nat
  owner    : α → κ
  idle     : α → Bool

namespace Policy

variable {α κ : Type _} [DecidableEq κ]

def owned (P : Policy α κ) (l : List α) (k : κ) : Nat := l.countP (P.owner · = k)

structure Within (P : Policy α κ) (l : List α) : Prop where
  capacity : l.length ≤ P.capacity
  quota    : ∀ k, P.owned l k ≤ P.quota

-- One eviction on behalf of the owner `k`: of a stale entry while the table is full, of the
-- oldest idle entry of an owner at its quota, or of the oldest idle entry of a full table.
inductive Evict (P : Policy α κ) (expired : α → Prop) (k : κ) : List α → List α → Prop
  | stale {l₁ l₂ : List α} {x : α} (full : P.capacity ≤ (l₁ ++ x :: l₂).length)
    (stale : expired x) (idle : P.idle x) : Evict P expired k (l₁ ++ x :: l₂) (l₁ ++ l₂)
  | own {l₁ l₂ : List α} {x : α} (exceeded : P.quota ≤ P.owned (l₁ ++ x :: l₂) k)
    (owner : P.owner x = k) (idle : P.idle x) (oldest : ∀ y ∈ l₁, P.owner y = k → ¬P.idle y) :
    Evict P expired k (l₁ ++ x :: l₂) (l₁ ++ l₂)
  | oldest {l₁ l₂ : List α} {x : α} (full : P.capacity ≤ (l₁ ++ x :: l₂).length)
    (idle : P.idle x) (oldest : ∀ y ∈ l₁, ¬P.idle y) :
    Evict P expired k (l₁ ++ x :: l₂) (l₁ ++ l₂)

abbrev Evicts (P : Policy α κ) (expired : α → Prop) (k : κ) : List α → List α → Prop :=
  Relation.ReflTransGen (P.Evict expired k)

-- An insertion of `x` on behalf of `k` makes room and then appends.
structure Insert (P : Policy α κ) (expired : α → Prop) (k : κ) (x : α) (l l' : List α) : Prop where
  push :: (evicts : ∃ l₁, P.Evicts expired k l l₁ ∧ l' = l₁ ++ [x] ∧ l₁.length < P.capacity ∧
    P.owned l₁ k < P.quota)

variable {P : Policy α κ} {expired : α → Prop} {l l' : List α} {k : κ} {x y : α}

theorem Within.nil : P.Within [] where
  capacity := Nat.zero_le _
  quota _  := Nat.zero_le _

theorem Within.sublist (h : P.Within l) (hs : l'.Sublist l) : P.Within l' where
  capacity := Nat.le_trans hs.length_le h.capacity
  quota k  := Nat.le_trans hs.countP_le (h.quota k)

theorem Within.push (h : P.Within l) (room : l.length < P.capacity)
    (share : P.owned l (P.owner x) < P.quota) : P.Within (l ++ [x]) where
  capacity := by simpa [Nat.succ_le_iff] using room
  quota k  := by
    have := h.quota k
    by_cases hk : P.owner x = k
    · subst hk
      simpa [owned, Nat.succ_le_iff] using share
    · simpa [owned, hk] using this

-- An entry may change as long as it keeps its owner.
theorem Within.replace {l₁ l₂ : List α} (h : P.Within (l₁ ++ x :: l₂)) (hy : P.owner y = P.owner x) :
    P.Within (l₁ ++ y :: l₂) where
  capacity := by simpa using h.capacity
  quota k  := by
    have := h.quota k
    simpa [owned, List.countP_cons, hy] using this

theorem Evict.sublist (e : P.Evict expired k l l') : l'.Sublist l := by
  cases e <;> simp

theorem Evicts.sublist (e : P.Evicts expired k l l') : l'.Sublist l := by
  induction e
  case refl => exact .refl _
  case tail e ih => exact e.sublist.trans ih

theorem Evict.mono {expired' : α → Prop} (h : ∀ x, expired x → expired' x)
    (e : P.Evict expired k l l') : P.Evict expired' k l l' := by
  cases e
  case stale full stale idle => exact .stale full (h _ stale) idle
  case own exceeded owner idle oldest => exact .own exceeded owner idle oldest
  case oldest full idle oldest => exact .oldest full idle oldest

theorem Evicts.mono {expired' : α → Prop} (h : ∀ x, expired x → expired' x)
    (e : P.Evicts expired k l l') : P.Evicts expired' k l l' :=
  Relation.ReflTransGen.mono (fun _ _ => Evict.mono h) _ _ e

-- An entry that is not idle survives.
theorem Evict.mem (e : P.Evict expired k l l') (hx : x ∈ l) (hi : ¬P.idle x) : x ∈ l' := by
  cases e <;> grind

theorem Evicts.mem (e : P.Evicts expired k l l') (hx : x ∈ l) (hi : ¬P.idle x) : x ∈ l' := by
  induction e
  case refl => exact hx
  case tail e ih => exact e.mem ih hi

theorem Insert.within (e : P.Insert expired k x l l') (h : P.Within l) (hk : P.owner x = k) :
    P.Within l' := by
  have ⟨l₁, evicts, hl, room, share⟩ := e.evicts
  exact hl ▸ (h.sublist evicts.sublist).push room (hk ▸ share)

end Policy

section Unlink

variable {α β : Type _} [DecidableEq β] {addr : α → β} {l l₁ l₂ : List α} {x : α} {p : α → Bool}

theorem exists_of_find? (h : l.find? p = some x) :
    ∃ l₁ l₂, l = l₁ ++ x :: l₂ ∧ p x ∧ ∀ y ∈ l₁, ¬p y := by
  have ⟨hx, l₁, l₂, hl, hn⟩ := List.find?_eq_some_iff_append.mp h
  exact ⟨l₁, l₂, hl, hx, by simpa using hn⟩

-- An entry is unlinked by its address, which no other entry has.
theorem eraseP_addr (h : ((l₁ ++ x :: l₂).map addr).Nodup) :
    (l₁ ++ x :: l₂).eraseP (addr · = addr x) = l₁ ++ l₂ := by
  have hn : ∀ y ∈ l₁, addr y ≠ addr x := by
    intro y hy he
    simp only [List.map_append, List.map_cons, List.nodup_append] at h
    exact h.2.2 _ (List.mem_map_of_mem hy) _ (by simp) he
  rw [List.eraseP_append_right _ (by simpa using hn)]
  simp

end Unlink

end QuotaTable
