import Huks.Lib.StateError
import Mathlib.Data.List.Induction
import Mathlib.Algebra.BigOperators.Group.List.Basic
import Mathlib.Algebra.GroupWithZero.Nat
import Mathlib.Data.List.Nodup

-- Lists whose entries have keys: what a table is that keeps its entries in the order of their arrival.
namespace KeyedList

variable {α κ : Type} [DecidableEq κ] (key : α → κ)

def find (l : List α) (k : κ) : Option α := l.find? fun a => key a = k

def without (l : List α) (k : κ) : List α := l.filter fun a => key a ≠ k

-- A new entry takes the place of the one with its key, and stands last.
def put (l : List α) (a : α) : List α := without key l (key a) ++ [a]

variable {key} {l l' : List α} {a b : α} {k k' : κ}

theorem find_some (h : find key l k = some a) : key a = k := by
  simpa using List.find?_some h

theorem mem_of_find (h : find key l k = some a) : a ∈ l := List.mem_of_find?_eq_some h

theorem find_none : find key l k = none ↔ ∀ a ∈ l, key a ≠ k := by
  simp [find]

theorem find_without_self : find key (without key l k) k = none := by
  rw [find_none]
  intro a ha
  simpa using (List.mem_filter.mp ha).2

theorem find_without_of_ne (h : k' ≠ k) : find key (without key l k) k' = find key l k' := by
  induction l
  case nil => rfl
  case cons a l ih =>
    rw [without, List.filter_cons]
    by_cases ha : key a = k
    case pos =>
      have hne : key a ≠ k' := ha ▸ h.symm
      rw [if_neg (by simpa using ha), find, find, List.find?_cons_of_neg (by simpa using hne)]
      exact ih
    case neg =>
      rw [if_pos (by simpa using ha), find, find]
      by_cases hk : key a = k'
      case pos => rw [List.find?_cons_of_pos (by simpa using hk), List.find?_cons_of_pos (by simpa using hk)]
      case neg =>
        rw [List.find?_cons_of_neg (by simpa using hk), List.find?_cons_of_neg (by simpa using hk)]
        exact ih

theorem without_of_find_none (h : find key l k = none) : without key l k = l := by
  rw [find_none] at h
  exact List.filter_eq_self.mpr fun a ha => by simpa using h a ha

theorem find_append : find key (l ++ l') k = (find key l k).or (find key l' k) := List.find?_append

theorem find_put_self : find key (put key l a) (key a) = some a := by
  rw [put, find_append, find_without_self, Option.none_or, find, List.find?_cons_of_pos (by simp)]

theorem find_put_of_ne (h : k ≠ key a) : find key (put key l a) k = find key l k := by
  have hlast : find key [a] k = none := find_none.mpr fun b hb => by
    rw [List.mem_singleton.mp hb]
    exact h.symm
  rw [put, find_append, find_without_of_ne h, hlast, Option.or_none]

theorem nodup_without (h : (l.map key).Nodup) (k : κ) : ((without key l k).map key).Nodup :=
  h.sublist (List.filter_sublist.map key)

theorem nodup_put (h : (l.map key).Nodup) (a : α) : ((put key l a).map key).Nodup := by
  rw [put, List.map_append, List.nodup_append]
  refine ⟨nodup_without h (key a), by simp, ?_⟩
  intro k hk k' hk'
  obtain ⟨b, hb, rfl⟩ := List.mem_map.mp hk
  obtain rfl : k' = key a := by simpa using hk'
  simpa using (List.mem_filter.mp hb).2

-- The only entry with its key lies somewhere, and goes from there.
theorem split_of_find (h : find key l k = some a) :
    ∃ pre post, l = pre ++ a :: post ∧ ∀ b ∈ pre, key b ≠ k := by
  obtain ⟨_, pre, post, rfl, hpre⟩ := List.find?_eq_some_iff_append.mp h
  exact ⟨pre, post, rfl, fun b hb => by simpa using hpre b hb⟩

theorem without_of_split {pre post : List α} (hl : l = pre ++ a :: post) (h : (l.map key).Nodup) :
    without key l (key a) = pre ++ post := by
  subst hl
  rw [List.map_append, List.map_cons, List.nodup_append, List.nodup_cons] at h
  obtain ⟨_, ⟨hpost, _⟩, hpre⟩ := h
  have hkeep {l : List α} (hl : ∀ b ∈ l, key b ≠ key a) : l.filter (fun b => key b ≠ key a) = l :=
    List.filter_eq_self.mpr fun b hb => by simpa using hl b hb
  rw [without, List.filter_append, List.filter_cons_of_neg (by simp)]
  rw [hkeep fun b hb => hpre _ (List.mem_map_of_mem hb) _ List.mem_cons_self,
    hkeep fun b hb heq => hpost (heq ▸ List.mem_map_of_mem hb)]

-- The weights of the entries add up.
theorem sum_without (w : α → Nat) (h : (l.map key).Nodup) (k : κ) :
    ((without key l k).map w).sum + ((find key l k).map w).getD 0 = (l.map w).sum := by
  cases hfind : find key l k
  case none => rw [without_of_find_none hfind, Option.map_none, Option.getD_none, Nat.add_zero]
  case some a =>
    obtain ⟨pre, post, hl, _⟩ := split_of_find hfind
    rw [← find_some hfind, without_of_split hl h, hl, Option.map_some, Option.getD_some]
    simp only [List.map_append, List.map_cons, List.sum_append, List.sum_cons]
    omega

theorem length_without (h : (l.map key).Nodup) (k : κ) :
    (without key l k).length + (if (find key l k).isSome then 1 else 0) = l.length := by
  cases hfind : find key l k
  case none => rw [without_of_find_none hfind, Option.isSome_none, if_neg (by decide), Nat.add_zero]
  case some a =>
    obtain ⟨pre, post, hl, _⟩ := split_of_find hfind
    rw [← find_some hfind, without_of_split hl h, hl, Option.isSome_some, if_pos rfl, List.length_append,
      List.length_append, List.length_cons]
    omega

end KeyedList

namespace Huks

-- Loops in which every element sets what its key names: of the elements with one key the last one counts.
section LastWins

variable {α κ σ β ε : Type} [DecidableEq κ] {key : α → κ} {as : List α} {a : α} {k : κ}

def lastOf (key : α → κ) (as : List α) (k : κ) : Option α := as.reverse.find? (key · = k)

theorem lastOf_append (key : α → κ) (as : List α) (a : α) (k : κ) :
    lastOf key (as ++ [a]) k = if key a = k then some a else lastOf key as k := by
  rw [lastOf, List.reverse_append, List.reverse_singleton, List.singleton_append, List.find?_cons]
  by_cases h : key a = k
  case pos => simp [h]
  case neg => simp [h, lastOf]

theorem mem_of_lastOf (h : lastOf key as k = some a) : a ∈ as ∧ key a = k :=
  ⟨List.mem_reverse.mp (List.mem_of_find?_eq_some h), by simpa using List.find?_some h⟩

theorem lastOf_eq_none : lastOf key as k = none ↔ ∀ a ∈ as, key a ≠ k := by
  simp [lastOf, List.find?_eq_none]

variable {f : σ → α → Except ε σ} {get : σ → β} {value : α → β} {s t : σ} {P : List α → σ → Prop}

-- What every round keeps, about the elements that were seen
theorem foldlM_rounds (hstep : ∀ seen s a t, P seen s → f s a = .ok t → P (seen ++ [a]) t) (hs : P [] s)
    (h : as.foldlM f s = .ok t) : P as t := by
  induction as using List.reverseRecOn generalizing t
  case nil =>
    cases h
    exact hs
  case append_singleton as a ih =>
    rw [List.foldlM_append] at h
    obtain ⟨u, hu, hlast⟩ := Except.bind_eq_ok.mp h
    obtain ⟨t', ht, h⟩ := Except.bind_eq_ok.mp hlast
    cases h
    exact hstep as u a t (ih hu) ht

theorem foldlM_keeps (hstep : ∀ s a t, f s a = .ok t → get t = get s) (h : as.foldlM f s = .ok t) :
    get t = get s :=
  @foldlM_rounds _ _ _ as f s t (fun _ u => get u = get s) (fun _ u a v hu hv => (hstep u a v hv).trans hu) rfl h

theorem foldlM_last (hstep : ∀ s a t, f s a = .ok t → get t = if key a = k then value a else get s)
    (h : as.foldlM f s = .ok t) : get t = (lastOf key as k).elim (get s) value := by
  refine @foldlM_rounds _ _ _ as f s t (fun seen u => get u = (lastOf key seen k).elim (get s) value) ?_ rfl h
  intro seen u a v hu hv
  rw [hstep u a v hv, lastOf_append]
  by_cases ha : key a = k
  case pos => rw [if_pos ha, if_pos ha, Option.elim_some]
  case neg => rw [if_neg ha, if_neg ha, hu]

end LastWins

end Huks
