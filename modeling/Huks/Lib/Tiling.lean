namespace Huks

-- A range of positions `start ≤ i < stop`.
structure Span where
  start : Nat
  stop  : Nat
  deriving DecidableEq, Repr

-- The spans lie one behind the other, from `lo` to `hi`, without a gap.
inductive Tiles : Nat → List Span → Nat → Prop
  | nil {lo : Nat} : Tiles lo [] lo
  | cons {lo stop hi : Nat} {spans : List Span} (le : lo ≤ stop) (tail : Tiles stop spans hi) :
    Tiles lo (⟨lo, stop⟩ :: spans) hi

namespace Tiles

variable {lo hi : Nat} {spans : List Span}

theorem le (t : Tiles lo spans hi) : lo ≤ hi := by
  induction t
  case nil => exact Nat.le_refl _
  case cons h _ ih => exact Nat.le_trans h ih

theorem within (t : Tiles lo spans hi) : ∀ s ∈ spans, lo ≤ s.start ∧ s.start ≤ s.stop ∧ s.stop ≤ hi := by
  induction t
  case nil => simp
  case cons h tail ih =>
    intro s hs
    rcases List.mem_cons.mp hs with rfl | hs
    · exact ⟨Nat.le_refl _, h, tail.le⟩
    · have ⟨hstart, hstop, hle⟩ := ih s hs
      exact ⟨Nat.le_trans h hstart, hstop, hle⟩

-- Each span ends before the later ones start.
theorem ordered (t : Tiles lo spans hi) : spans.Pairwise fun s s' => s.stop ≤ s'.start := by
  induction t
  case nil => exact .nil
  case cons tail ih => exact .cons (fun s hs => (tail.within s hs).1) ih

end Tiles

end Huks
