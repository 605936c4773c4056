import Mathlib.Data.List.Nodup
import Mathlib.Logic.Function.Basic

namespace LinkedList

-- A cell of a singly linked list: what it holds and the address of the cell behind it.
structure Cell (ι α : Type _) where
  value : α
  next  : Option ι
  deriving DecidableEq, Repr

-- The memory maps an address to the cell that is allocated there.
abbrev Heap (ι α : Type _) := ι → Option (Cell ι α)

variable {ι α : Type _}

-- The pointers lead from `start` over the cells of the list to `stop`.
def Segment (h : Heap ι α) : Option ι → List ι → Option ι → Prop
  | start, [], stop     => start = stop
  | start, i :: l, stop => start = some i ∧ ∃ c, h i = some c ∧ Segment h c.next l stop

-- Walks from `start` to the first cell that `p` accepts and returns it with the cell in front of
-- it. The walk gets stuck without fuel or on an address that is not allocated.
def walk (h : Heap ι α) (p : ι → α → Bool) :
    (fuel : Nat) → (start previous : Option ι) → Option (Option (ι × Option ι))
  | 0, _, _                       => none
  | _ + 1, none, _                => some none
  | fuel + 1, some i, previous =>
    match h i with
    | none   => none
    | some c => if p i c.value then some (some (i, previous)) else walk h p fuel c.next (some i)

variable {h h' : Heap ι α} {start stop mid : Option ι} {l l₁ l₂ : List ι} {i j : ι} {c : Cell ι α}

namespace Segment

theorem append : Segment h start (l₁ ++ l₂) stop ↔
    ∃ mid, Segment h start l₁ mid ∧ Segment h mid l₂ stop := by
  induction l₁ generalizing start
  case nil => simp [Segment]
  case cons i l₁ ih =>
    simp only [List.cons_append, Segment, ih]
    constructor
    · rintro ⟨hi, c, hc, mid, h₁, h₂⟩
      exact ⟨mid, ⟨hi, c, hc, h₁⟩, h₂⟩
    · rintro ⟨mid, ⟨hi, c, hc, h₁⟩, h₂⟩
      exact ⟨hi, c, hc, mid, h₁, h₂⟩

-- A segment depends on nothing but the pointers of its cells.
theorem congr (hnext : ∀ i ∈ l, (h' i).map Cell.next = (h i).map Cell.next)
    (hs : Segment h start l stop) : Segment h' start l stop := by
  induction l generalizing start
  case nil => exact hs
  case cons i l ih =>
    have ⟨hi, c, hc, hs⟩ := hs
    have hhead := hnext i List.mem_cons_self
    rw [hc, Option.map_some, Option.map_eq_some_iff] at hhead
    have ⟨c', hc', hcn⟩ := hhead
    exact ⟨hi, c', hc', hcn ▸ ih (fun j hj => hnext j (List.mem_cons_of_mem _ hj)) hs⟩

theorem congr_heap (hsame : ∀ i ∈ l, h' i = h i) (hs : Segment h start l stop) :
    Segment h' start l stop :=
  hs.congr fun i hi => by rw [hsame i hi]

theorem allocated (hs : Segment h start l stop) (hi : i ∈ l) : ∃ c, h i = some c := by
  have ⟨l₁, l₂, hl⟩ := List.append_of_mem hi
  rw [hl] at hs
  have ⟨_, _, _, c, hc, _⟩ := append.mp hs
  exact ⟨c, hc⟩

-- The first address is the start, or the list is empty.
theorem start_eq (hs : Segment h start l none) : start = l.head? := by
  cases l
  case nil => exact hs
  case cons => exact hs.1

end Segment

section Walk

variable {p : ι → α → Bool} {fuel : Nat} {previous : Option ι}

-- With enough fuel, a walk over a list gets through.
theorem walk_isSome (hs : Segment h start l none) (hfuel : l.length < fuel) :
    (walk h p fuel start previous).isSome := by
  induction l generalizing start previous fuel
  case nil =>
    cases fuel
    case zero => nomatch hfuel
    case succ => cases hs; rfl
  case cons i l ih =>
    cases fuel
    case zero => nomatch hfuel
    case succ fuel =>
      have ⟨hi, c, hc, htail⟩ := hs
      subst hi
      simp only [walk, hc]
      split
      case isTrue => rfl
      case isFalse => exact ih htail (Nat.lt_of_succ_lt_succ hfuel)

-- A walk that got through found nothing, or the first cell that `p` accepts.
theorem walk_cases {r : Option (ι × Option ι)} (hs : Segment h start l none)
    (hr : walk h p fuel start previous = some r) :
    (r = none ∧ ∀ i ∈ l, ∀ c, h i = some c → p i c.value = false) ∨
      ∃ l₁ i l₂ c, l = l₁ ++ i :: l₂ ∧ h i = some c ∧ p i c.value ∧
        r = some (i, l₁.getLast?.or previous) := by
  induction l generalizing start previous fuel
  case nil =>
    cases fuel
    case zero => nomatch hr
    case succ =>
      cases hs
      cases hr
      exact .inl ⟨rfl, nofun⟩
  case cons i l ih =>
    cases fuel
    case zero => nomatch hr
    case succ fuel =>
      have ⟨hi, c, hc, htail⟩ := hs
      subst hi
      simp only [walk, hc] at hr
      split at hr
      case isTrue hp =>
        cases hr
        exact .inr ⟨[], i, l, c, rfl, hc, hp, rfl⟩
      case isFalse hp =>
        obtain ⟨hnone, hall⟩ | ⟨l₁, j, l₂, d, hl, hd, hpd, hr⟩ := ih htail hr
        · refine .inl ⟨hnone, List.forall_mem_cons.mpr ⟨fun d hd => ?_, hall⟩⟩
          cases hc.symm.trans hd
          exact Bool.eq_false_iff.mpr hp
        · refine .inr ⟨i :: l₁, j, l₂, d, congrArg _ hl, hd, hpd, ?_⟩
          rw [hr, List.getLast?_cons]
          cases l₁.getLast? <;> rfl

end Walk

section Update

variable [DecidableEq ι]

-- Writes the pointer of the cell at `i`.
def setNext (h : Heap ι α) (i : ι) (next : Option ι) : Heap ι α :=
  Function.update h i ((h i).map ({ · with next }))

-- Writes what the cell at `i` holds.
def setValue (h : Heap ι α) (i : ι) (f : α → α) : Heap ι α :=
  Function.update h i ((h i).map fun c => { c with value := f c.value })

variable {next : Option ι} {f : α → α}

theorem setNext_of_ne (hne : j ≠ i) : setNext h i next j = h j := Function.update_of_ne hne _ _

theorem setValue_of_ne (hne : j ≠ i) : setValue h i f j = h j := Function.update_of_ne hne _ _

theorem setNext_self : setNext h i next i = (h i).map ({ · with next }) := Function.update_self ..

theorem setValue_self : setValue h i f i = (h i).map fun c => { c with value := f c.value } :=
  Function.update_self ..

-- The values stay when pointers are written.
theorem setNext_value : (setNext h i next j).map Cell.value = (h j).map Cell.value := by
  by_cases hj : j = i
  case pos =>
    rw [hj, setNext_self, Option.map_map]
    rfl
  case neg => rw [setNext_of_ne hj]

namespace Segment

theorem setValue (hs : Segment h start l stop) : Segment (setValue h i f) start l stop := by
  refine hs.congr fun j _ => ?_
  by_cases hj : j = i
  case pos =>
    rw [hj, setValue_self, Option.map_map]
    rfl
  case neg => rw [setValue_of_ne hj]

theorem setNext_of_notMem (hi : i ∉ l) (hs : Segment h start l stop) :
    Segment (setNext h i next) start l stop :=
  hs.congr_heap fun _ hj => setNext_of_ne fun he => hi (he ▸ hj)

-- The cell at `i` is made to point at `next`, where the segment `l₂` begins.
theorem redirect (hs : Segment h start (l₁ ++ [i]) mid) (hi : i ∉ l₁ ++ l₂)
    (hs₂ : Segment h next l₂ stop) : Segment (setNext h i next) start (l₁ ++ i :: l₂) stop := by
  have ⟨hi₁, hi₂⟩ := not_or.mp (mt List.mem_append.mpr hi)
  have ⟨_, h₁, hstart, c, hc, _⟩ := append.mp hs
  refine append.mpr ⟨_, h₁.setNext_of_notMem hi₁, hstart, { c with next }, ?_, ?_⟩
  · rw [setNext_self, hc, Option.map_some]
  · exact hs₂.setNext_of_notMem hi₂

end Segment

end Update

end LinkedList
