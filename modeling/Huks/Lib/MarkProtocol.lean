import Mathlib.Data.List.Induction
import Mathlib.Data.Set.Insert

namespace MarkProtocol

-- Parties mark a resource before they work on it and unmark it afterwards; each of them holds at
-- most one.
structure State (α : Type _) where
  marked  : Set α
  holders : List (Option α)

variable {α : Type _}

inductive Step : State α → State α → Prop
  | keep {s : State α} : Step s s
  | mark {s : State α} {i : Nat} {a : α} (idle : s.holders[i]? = some none) (free : a ∉ s.marked) :
    Step s ⟨insert a s.marked, s.holders.set i (some a)⟩
  | unmark {s : State α} {i : Nat} {a : α} (holds : s.holders[i]? = some (some a)) :
    Step s ⟨s.marked \ {a}, s.holders.set i none⟩

-- A party goes on without unmarking what it holds.
inductive Forget : State α → State α → Prop
  | intro {s : State α} {i : Nat} {a : α} (holds : s.holders[i]? = some (some a)) :
    Forget s ⟨s.marked, s.holders.set i none⟩

namespace State

-- What a party holds is marked, and no other party holds it.
structure Exclusive (s : State α) : Prop where
  marked : ∀ {i : Nat} {a : α}, s.holders[i]? = some (some a) → a ∈ s.marked
  unique : ∀ {i j : Nat} {a : α}, s.holders[i]? = some (some a) →
    s.holders[j]? = some (some a) → i = j

-- Somebody still has to unmark what is marked.
def Accounted (s : State α) : Prop := ∀ a ∈ s.marked, some a ∈ s.holders

end State

-- Whom a resource belongs to after the `i`-th party has changed what it holds.
theorem holds_set {h : List (Option α)} {i j : Nat} {x : Option α} {a : α}
    (hj : (h.set i x)[j]? = some (some a)) :
    j = i ∧ x = some a ∨ j ≠ i ∧ h[j]? = some (some a) := by
  rw [List.getElem?_set] at hj
  split at hj
  case isFalse hne => exact .inr ⟨Ne.symm hne, hj⟩
  case isTrue he =>
    split at hj
    case isFalse => cases hj
    case isTrue => exact .inl ⟨he.symm, Option.some.inj hj⟩

variable {s t : State α}

theorem Step.exclusive (h : Step s t) (e : s.Exclusive) : t.Exclusive := by
  cases h
  case keep => exact e
  case mark i a idle free =>
    refine ⟨fun hj => ?_, fun hj hk => ?_⟩
    · rcases holds_set hj with ⟨_, he⟩ | ⟨_, hj⟩
      · exact .inl (Option.some.inj he).symm
      · exact .inr (e.marked hj)
    · rcases holds_set hj with ⟨hji, hb⟩ | ⟨_, hj⟩ <;> rcases holds_set hk with ⟨hki, hc⟩ | ⟨_, hk⟩
      · rw [hji, hki]
      · exact absurd (e.marked hk) (Option.some.inj hb ▸ free)
      · exact absurd (e.marked hj) (Option.some.inj hc ▸ free)
      · exact e.unique hj hk
  case unmark i a holds =>
    refine ⟨fun hj => ?_, fun hj hk => ?_⟩
    · rcases holds_set hj with ⟨_, he⟩ | ⟨hne, hj⟩
      · cases he
      · exact ⟨e.marked hj, fun he => hne (e.unique hj (he ▸ holds))⟩
    · rcases holds_set hj with ⟨_, he⟩ | ⟨_, hj⟩
      · cases he
      · rcases holds_set hk with ⟨_, he⟩ | ⟨_, hk⟩
        · cases he
        · exact e.unique hj hk

theorem Forget.exclusive (h : Forget s t) (e : s.Exclusive) : t.Exclusive := by
  cases h
  case intro i a holds =>
    refine ⟨fun hj => ?_, fun hj hk => ?_⟩
    · rcases holds_set hj with ⟨_, he⟩ | ⟨_, hj⟩
      · cases he
      · exact e.marked hj
    · rcases holds_set hj with ⟨_, he⟩ | ⟨_, hj⟩
      · cases he
      · rcases holds_set hk with ⟨_, he⟩ | ⟨_, hk⟩
        · cases he
        · exact e.unique hj hk

theorem mem_set_of_ne {h : List (Option α)} {i : Nat} {x y z : Option α} (hi : h[i]? = some y)
    (hz : z ∈ h) (hne : z ≠ y) : z ∈ h.set i x := by
  have ⟨j, hj⟩ := List.getElem?_of_mem hz
  have hij : i ≠ j := by
    rintro rfl
    exact hne (Option.some.inj (hj.symm.trans hi))
  exact List.mem_of_getElem? ((List.getElem?_set_ne hij).trans hj)

theorem Step.accounted (h : Step s t) (acc : s.Accounted) : t.Accounted := by
  cases h
  case keep => exact acc
  case mark i a idle free =>
    intro b hb
    rcases hb with rfl | hb
    · exact List.mem_set (List.getElem?_eq_some_iff.mp idle).1 _
    · exact mem_set_of_ne idle (acc b hb) nofun
  case unmark i a holds =>
    intro b hb
    exact mem_set_of_ne holds (acc b hb.1) fun he => hb.2 (Option.some.inj he)

-- Nobody is left who would unmark a forgotten resource.
theorem Forget.not_accounted (h : Forget s t) (e : s.Exclusive) : ¬t.Accounted := by
  cases h
  case intro i a holds =>
    intro acc
    have ⟨j, hj⟩ := List.getElem?_of_mem (acc a (e.marked holds))
    rcases holds_set hj with ⟨_, he⟩ | ⟨hne, hj⟩
    · cases he
    · exact hne (e.unique hj holds)

-- Along a run, every marked resource is accounted for exactly as long as no party forgets.
theorem accounted_iff {ι : Type _} {run : List ι → State α} {forgets : List ι → ι → Prop}
    (exclusive : (run []).Exclusive) (accounted : (run []).Accounted)
    (step : ∀ pre i, ¬forgets pre i → Step (run pre) (run (pre ++ [i])))
    (forget : ∀ pre i, forgets pre i → Forget (run pre) (run (pre ++ [i]))) (schedule : List ι) :
    (∀ pre, pre <+: schedule → (run pre).Accounted) ↔
      ∀ pre i, pre ++ [i] <+: schedule → ¬forgets pre i := by
  have exclusive (pre : List ι) : (run pre).Exclusive := by
    induction pre using List.reverseRecOn
    case nil => exact exclusive
    case append_singleton pre i ih =>
      by_cases hf : forgets pre i
      case pos => exact (forget pre i hf).exclusive ih
      case neg => exact (step pre i hf).exclusive ih
  refine ⟨fun acc pre i hpre hf => ?_, fun hf pre hpre => ?_⟩
  · exact (forget pre i hf).not_accounted (exclusive pre) (acc _ hpre)
  · induction pre using List.reverseRecOn
    case nil => exact accounted
    case append_singleton pre i ih =>
      have ih := ih <| (List.prefix_append _ _).trans hpre
      exact (step pre i (hf pre i hpre)).accounted ih

end MarkProtocol
