import Mathlib.Data.List.Basic
import Mathlib.Data.List.Infix
import Mathlib.Data.List.TakeDrop

-- Paths as texts: every component stands behind a separator.

namespace PathText

variable {α : Type} {sep : α}

def render (sep : α) (comps : List (List α)) : List α := comps.flatMap (sep :: ·)

@[simp]
theorem render_nil : render sep [] = [] := rfl

@[simp]
theorem render_cons (c : List α) (comps : List (List α)) :
    render sep (c :: comps) = sep :: (c ++ render sep comps) := rfl

@[simp]
theorem render_append (comps comps' : List (List α)) :
    render sep (comps ++ comps') = render sep comps ++ render sep comps' := by
  simp [render]

-- No component contains the separator.
abbrev Plain (sep : α) (comps : List (List α)) : Prop := ∀ c ∈ comps, sep ∉ c

-- In front of a separator stands the end of a component.
theorem exists_getLast_of_infix {a : α} (ha : a ≠ sep) {comps : List (List α)}
    (h : Plain sep comps) (hocc : [a, sep] <:+: render sep comps) :
    ∃ c ∈ comps, c.getLast? = some a := by
  induction comps
  case nil => simp at hocc
  case cons c comps ih =>
    have ⟨hc, hrest⟩ := List.forall_mem_cons.mp h
    obtain hpre | hocc := List.infix_cons_iff.mp hocc
    case inl =>
      have ⟨_, htext⟩ := hpre
      exact (ha (List.cons.inj htext).1).elim
    obtain hin | hin | ⟨l₁, l₂, hnil₁, hnil₂, heq, hsuffix, hpre⟩ :=
      List.infix_append_iff_ne_nil.mp hocc
    · exact (hc (hin.subset (by simp))).elim
    · have ⟨d, hd, hlast⟩ := ih hrest hin
      exact ⟨d, List.mem_cons_of_mem _ hd, hlast⟩
    · -- The separator begins the rest, so that `c` ends with `a`.
      obtain ⟨b, rfl⟩ : ∃ b, l₁ = [b] := by
        have hlength := congrArg List.length heq
        have := List.length_pos_of_ne_nil hnil₁
        have := List.length_pos_of_ne_nil hnil₂
        rw [List.length_append] at hlength
        exact List.length_eq_one_iff.mp (by simp at hlength; omega)
      obtain rfl : a = b := (List.cons.inj heq).1
      obtain ⟨front, rfl⟩ := hsuffix
      exact ⟨_, List.mem_cons_self, by simp⟩

theorem head_render (comps : List (List α)) : ∀ a, (render sep comps).head? = some a → a = sep := by
  cases comps <;> simp [eq_comm]

variable [DecidableEq α]

theorem takeWhile_behind {c text : List α} (hc : sep ∉ c) (htext : ∀ a, text.head? = some a → a = sep) :
    (c ++ text).takeWhile (· ≠ sep) = c := by
  have hall : ∀ a ∈ c, decide (a ≠ sep) = true := by
    intro a ha
    simpa using fun h : a = sep => hc (h ▸ ha)
  rw [List.takeWhile_append_of_pos hall]
  cases text
  case nil => simp
  case cons a text => simp [htext a rfl]

theorem takeWhile_component {c : List α} (hc : sep ∉ c) (comps : List (List α)) :
    (c ++ render sep comps).takeWhile (· ≠ sep) = c :=
  takeWhile_behind hc (head_render comps)

-- The components can be read back.
theorem render_injective {comps comps' : List (List α)} (h : Plain sep comps)
    (h' : Plain sep comps') (heq : render sep comps = render sep comps') : comps = comps' := by
  induction comps generalizing comps'
  case nil =>
    cases comps'
    case nil => rfl
    case cons => simp at heq
  case cons c comps ih =>
    cases comps'
    case nil => simp at heq
    case cons c' comps' =>
      have ⟨hc, hrest⟩ := List.forall_mem_cons.mp h
      have ⟨hc', hrest'⟩ := List.forall_mem_cons.mp h'
      have htext : c ++ render sep comps = c' ++ render sep comps' := by simpa using heq
      have hcc : c = c' := by
        rw [← takeWhile_component hc comps, htext, takeWhile_component hc' comps']
      subst hcc
      rw [ih hrest hrest' (List.append_cancel_left htext)]

-- What stands behind a directory and a separator are the components below the directory.
theorem render_eq_append {dir comps : List (List α)} {text : List α} (hdir : Plain sep dir)
    (hcomps : Plain sep comps) (h : render sep comps = render sep dir ++ sep :: text) :
    ∃ name rest, comps = dir ++ name :: rest ∧ text = name ++ render sep rest := by
  induction dir generalizing comps
  case nil =>
    cases comps
    case nil => simp at h
    case cons c comps => exact ⟨c, comps, rfl, (by simpa using h.symm)⟩
  case cons d dir ih =>
    cases comps
    case nil => simp at h
    case cons c comps =>
      have ⟨hd, hdir'⟩ := List.forall_mem_cons.mp hdir
      have ⟨hc, hrest⟩ := List.forall_mem_cons.mp hcomps
      have htext : c ++ render sep comps = d ++ (render sep dir ++ sep :: text) := by simpa using h
      obtain rfl : c = d := by
        have hhead : ∀ a, (render sep dir ++ sep :: text).head? = some a → a = sep := by
          cases dir <;> simp [eq_comm]
        rw [← takeWhile_component hc comps, htext, takeWhile_behind hd hhead]
      have ⟨name, rest, hcomps, hname⟩ := ih hdir' hrest (List.append_cancel_left htext)
      exact ⟨name, rest, by rw [hcomps]; rfl, hname⟩

-- Of a run of separators behind `prev` one is left.
def collapseFrom (sep : α) : α → List α → List α
  | _, []           => []
  | prev, a :: text =>
    if a ≠ sep ∨ prev ≠ sep then a :: collapseFrom sep a text else collapseFrom sep a text

theorem collapseFrom_component {c : List α} (hc : sep ∉ c) (prev : α) (text : List α) :
    collapseFrom sep prev (c ++ text) = c ++ collapseFrom sep (c.getLastD prev) text := by
  induction c generalizing prev
  case nil => rfl
  case cons a c ih =>
    have hne : a ≠ sep := fun h => hc (h ▸ List.mem_cons_self)
    rw [List.cons_append, collapseFrom, if_pos (.inl hne),
      ih fun h => hc (List.mem_cons_of_mem _ h)]
    cases c
    case nil => rfl
    case cons => rfl

def collapse (sep : α) : List α → List α
  | []        => []
  | a :: text => a :: collapseFrom sep a text

theorem collapseFrom_length (prev : α) (text : List α) :
    (collapseFrom sep prev text).length ≤ text.length := by
  induction text generalizing prev
  case nil => exact Nat.le_refl _
  case cons a text ih =>
    have := ih a
    rw [collapseFrom]
    split <;> simp only [List.length_cons] <;> omega

theorem collapse_length (text : List α) : (collapse sep text).length ≤ text.length := by
  cases text
  case nil => exact Nat.le_refl _
  case cons a text => exact Nat.succ_le_succ (collapseFrom_length a text)

-- Empty components in front of another component disappear with their separators.
theorem collapse_render {c : List α} {comps : List (List α)} (h : Plain sep (c :: comps))
    (hlast : (c :: comps).getLast? ≠ some []) :
    collapse sep (render sep (c :: comps)) = render sep ((c :: comps).filter (· ≠ [])) := by
  rw [render_cons, collapse]
  induction comps generalizing c
  case nil =>
    have hc : c ≠ [] := fun hc => hlast (by rw [hc]; rfl)
    rw [collapseFrom_component (h c List.mem_cons_self)]
    simp [hc, collapseFrom]
  case cons d comps ih =>
    have ⟨hc, h⟩ := List.forall_mem_cons.mp h
    have ih := ih h (by rwa [List.getLast?_cons_cons] at hlast)
    rw [collapseFrom_component hc, render_cons, collapseFrom]
    by_cases hnil : c = []
    case pos =>
      subst hnil
      rw [if_neg (by simp [List.getLastD])]
      simpa using ih
    case neg =>
      have hsep : c.getLastD sep ≠ sep := by
        rw [List.getLastD_eq_getLast?, List.getLast?_eq_some_getLast hnil, Option.getD_some]
        exact fun h => hc (h ▸ List.getLast_mem hnil)
      have hkeep : (c :: d :: comps).filter (· ≠ []) = c :: (d :: comps).filter (· ≠ []) :=
        List.filter_cons_of_pos (by simpa using hnil)
      rw [if_pos (.inr hsep), ih, hkeep, render_cons]

end PathText
