import Huks.Lib.Splice
import Huks.Lib.StateError
import Mathlib.Algebra.GroupWithZero.Nat

namespace Huks

variable {α β ε σ : Type}

-- A buffer grew from `i` to `j`: what was in front of `i` stays.
structure Grows (b b' : List β) (i j : Nat) : Prop where
  length : b'.length = b.length
  le     : i ≤ j
  within : j ≤ b'.length
  kept   : b'.take i = b.take i

namespace Grows

variable {b b' b'' : List β} {i j k : Nat}

theorem refl (h : i ≤ b.length) : Grows b b i i := ⟨rfl, Nat.le_refl i, h, rfl⟩

theorem trans (g : Grows b b' i j) (h : Grows b' b'' j k) : Grows b b'' i k where
  length := h.length.trans g.length
  le     := Nat.le_trans g.le h.le
  within := h.within
  kept   := (take_of_take g.le h.kept).trans g.kept

theorem splice {m : List β} (h : i + m.length ≤ b.length) (hj : i ≤ j) (hlen : j ≤ b.length) :
    Grows b (Huks.splice b i m) i j where
  length := length_splice h
  le     := hj
  within := by rwa [length_splice h]
  kept   := take_splice (Nat.le_refl i) (by omega)

end Grows

-- A format for one value: `item b i a j` when `a` is in `b` between `i` and `j`. It is a matter of
-- what is in front of `j`.
structure Format (β α : Type) where
  item  : List β → Nat → α → Nat → Prop
  front : ∀ {b b' i a j}, item b i a j → b.take j = b'.take j → item b' i a j
  le    : ∀ {b i a j}, item b i a j → i ≤ j ∧ j ≤ b.length

-- Values one behind the other, from `i` to `j`.
inductive Laid (f : Format β α) (b : List β) : Nat → List α → Nat → Prop
  | nil {i : Nat} : Laid f b i [] i
  | cons {i j k : Nat} {a : α} {l : List α} (head : f.item b i a j) (tail : Laid f b j l k) :
    Laid f b i (a :: l) k

variable {f : Format β α} {b b' : List β} {i j k n : Nat} {a : α} {l : List α}

namespace Laid

theorem le (h : Laid f b i l j) : i ≤ j := by
  induction h
  case nil => exact Nat.le_refl _
  case cons head _ ih => exact Nat.le_trans (f.le head).1 ih

theorem within (h : Laid f b i l j) (hi : i ≤ b.length) : j ≤ b.length := by
  induction h
  case nil => exact hi
  case cons head _ ih => exact ih (f.le head).2

theorem front (h : Laid f b i l j) (hb : b.take j = b'.take j) : Laid f b' i l j := by
  induction h
  case nil => exact .nil
  case cons head tail ih => exact .cons (f.front head (take_of_take tail.le hb)) (ih hb)

-- A value takes at least `n` places.
theorem length_le (hn : ∀ {i a j}, f.item b i a j → i + n ≤ j) (h : Laid f b i l j) :
    i + n * l.length ≤ j := by
  induction h
  case nil => simp
  case cons head _ ih =>
    have := hn head
    rw [List.length_cons, Nat.mul_succ]
    omega

end Laid

-- A step writes a value behind what is there; `valid` says that there is a place.
structure Writes (f : Format β α) (data : σ → List β) (pos : σ → Nat) (valid : σ → Prop)
    (put : σ → α → Except ε σ) : Prop where
  place : ∀ {s}, valid s → pos s ≤ (data s).length
  step  : ∀ {s s' a}, valid s → put s a = .ok s' →
    valid s' ∧ Grows (data s) (data s') (pos s) (pos s') ∧ f.item (data s') (pos s) a (pos s')

-- So does a loop.
theorem Writes.foldlM {data : σ → List β} {pos : σ → Nat} {valid : σ → Prop}
    {put : σ → α → Except ε σ} (w : Writes f data pos valid put) {s s' : σ} (hs : valid s)
    (hl : l.foldlM put s = .ok s') :
    valid s' ∧ Grows (data s) (data s') (pos s) (pos s') ∧ Laid f (data s') (pos s) l (pos s') := by
  induction l generalizing s
  case nil =>
    obtain rfl := Except.ok.inj hl
    exact ⟨hs, .refl (w.place hs), .nil⟩
  case cons a l ih =>
    have ⟨t, ht, hl⟩ := Except.foldlM_cons_eq_ok.mp hl
    have ⟨hvalid, hgrow, hitem⟩ := w.step hs ht
    have ⟨hvalid', hgrow', hlaid⟩ := ih hvalid hl
    exact ⟨hvalid', hgrow.trans hgrow', .cons (f.front hitem hgrow'.kept.symm) hlaid⟩

-- A step that finds room for each value that is fit, and moves on by its size.
structure FillsRoom (size : α → Nat) (fit : α → Prop) (data : σ → List β) (pos : σ → Nat) (valid : σ → Prop)
    (put : σ → α → Except ε σ) : Prop where
  step : ∀ {s a}, valid s → fit a → pos s + size a ≤ (data s).length →
    ∃ s', put s a = .ok s' ∧ pos s' = pos s + size a

-- So values whose sizes add up to no more than the room are all written.
theorem FillsRoom.foldlM {size : α → Nat} {fit : α → Prop} {data : σ → List β} {pos : σ → Nat} {valid : σ → Prop}
    {put : σ → α → Except ε σ} (e : FillsRoom size fit data pos valid put) (w : Writes f data pos valid put) {s : σ}
    (hs : valid s) (hl : ∀ a ∈ l, fit a) (hroom : pos s + (l.map size).sum ≤ (data s).length) :
    ∃ s', l.foldlM put s = .ok s' ∧ pos s' = pos s + (l.map size).sum := by
  induction l generalizing s
  case nil => exact ⟨s, rfl, rfl⟩
  case cons a l ih =>
    rw [List.map_cons, List.sum_cons] at hroom ⊢
    obtain ⟨t, ht, hpos⟩ := e.step hs (hl a List.mem_cons_self) (by omega)
    have ⟨hvalid, hgrow, _⟩ := w.step hs ht
    obtain ⟨s', hs', hpos'⟩ := ih hvalid (fun b hb => hl b (List.mem_cons_of_mem a hb)) (by
      rw [hpos, hgrow.length]
      omega)
    exact ⟨s', Except.foldlM_cons_eq_ok.mpr ⟨t, ht, hs'⟩, by rw [hpos', hpos, Nat.add_assoc]⟩

end Huks
