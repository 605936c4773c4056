import Huks.Lib.Splice

namespace Huks

-- Why a computation over buffers ends early: it leaves a buffer, or it returns an error of its own.
inductive Stop (ε : Type)
  | outside
  | error (e : ε)
  deriving DecidableEq, Repr

-- The computation does not leave a buffer.
def Inside {ε α : Type} (x : Except (Stop ε) α) : Prop := x ≠ .error .outside

-- A computation that touches no buffer.
def checked {ε α : Type} (x : Except ε α) : Except (Stop ε) α := x.mapError .error

-- The `n` elements behind the first `i`. Where there is nothing to read the place does not matter.
def readAt {ε α : Type} (buf : List α) (i n : Nat) : Except (Stop ε) (List α) :=
  if n = 0 ∨ i + n ≤ buf.length then .ok (slice buf i n) else .error .outside

-- One element.
def elemAt {ε α : Type} (buf : List α) (i : Nat) : Except (Stop ε) α :=
  if h : i < buf.length then .ok buf[i] else .error .outside

variable {ε α β : Type} {x : Except (Stop ε) α} {f : α → Except (Stop ε) β} {buf : List α} {i n : Nat}

@[simp]
theorem inside_ok (a : α) : Inside (.ok a : Except (Stop ε) α) := nofun

@[simp]
theorem inside_pure (a : α) : Inside (pure a : Except (Stop ε) α) := nofun

@[simp]
theorem inside_error (e : ε) : Inside (.error (.error e) : Except (Stop ε) α) := nofun

@[simp]
theorem inside_throw (e : ε) : Inside (throw (.error e) : Except (Stop ε) α) := nofun

@[simp]
theorem inside_checked (y : Except ε α) : Inside (checked y) := by
  cases y <;> nofun

@[simp]
theorem checked_eq_ok {y : Except ε α} {a : α} : checked y = .ok a ↔ y = .ok a := by
  cases y <;> simp [checked, Except.mapError]

theorem ok_bind (a : α) : .ok a >>= f = f a := rfl

theorem error_bind (e : Stop ε) : .error e >>= f = .error e := rfl

-- A sequence stays inside when its first part does, and the rest does with what comes from it.
theorem inside_bind : Inside (x >>= f) ↔ Inside x ∧ ∀ a, x = .ok a → Inside (f a) := by
  cases x
  case error e => exact ⟨fun h => ⟨fun he => h (by rw [he]; rfl), nofun⟩, fun h he => h.1 (by cases he; rfl)⟩
  case ok a => exact ⟨fun h => ⟨nofun, fun b hb => Except.ok.inj hb ▸ h⟩, fun h => h.2 a rfl⟩

theorem inside_ite {c : Prop} [Decidable c] {y : Except (Stop ε) α} :
    Inside (if c then x else y) ↔ (c → Inside x) ∧ (¬c → Inside y) := by
  split
  case isTrue h => simp [h]
  case isFalse h => simp [h]

@[simp]
theorem inside_readAt : Inside (readAt buf i n : Except (Stop ε) (List α)) ↔ n = 0 ∨ i + n ≤ buf.length := by
  rw [readAt]
  split
  case isTrue h => exact ⟨fun _ => h, fun _ => nofun⟩
  case isFalse h => exact ⟨fun hin => absurd rfl hin, fun h' => absurd h' h⟩

theorem readAt_eq_ok {l : List α} : (readAt buf i n : Except (Stop ε) (List α)) = .ok l ↔
    (n = 0 ∨ i + n ≤ buf.length) ∧ slice buf i n = l := by
  rw [readAt]
  split
  case isTrue h => simp [h]
  case isFalse h => simp [h]

theorem elemAt_eq (h : i < buf.length) : (elemAt buf i : Except (Stop ε) α) = .ok buf[i] := dif_pos h

-- The computation does not leave a buffer, and what it returns satisfies `Q`. It may refuse.
def Confined (Q : α → Prop) : Except (Stop ε) α → Prop
  | .ok a             => Q a
  | .error .outside   => False
  | .error (.error _) => True

section Confined

variable {Q : α → Prop} {R : β → Prop}

@[simp]
theorem confined_pure (a : α) : Confined Q (pure a : Except (Stop ε) α) ↔ Q a := Iff.rfl

@[simp]
theorem confined_ok (a : α) : Confined Q (.ok a : Except (Stop ε) α) ↔ Q a := Iff.rfl

@[simp]
theorem confined_throw (e : ε) : Confined Q (throw (.error e) : Except (Stop ε) α) := trivial

theorem confined_bind : Confined R (x >>= f) ↔ Confined (fun a => Confined R (f a)) x := by
  match x with
  | .ok _             => exact Iff.rfl
  | .error .outside   => exact Iff.rfl
  | .error (.error _) => exact Iff.rfl

theorem confined_discard {P : PUnit → Prop} :
    Confined P (discard x) ↔ Confined (fun _ => P ⟨⟩) x := by
  match x with
  | .ok _             => exact Iff.rfl
  | .error .outside   => exact Iff.rfl
  | .error (.error _) => exact Iff.rfl

theorem confined_ite {c : Prop} [Decidable c] {y : Except (Stop ε) α} :
    Confined Q (if c then x else y) ↔ (c → Confined Q x) ∧ (¬c → Confined Q y) := by
  split
  case isTrue h => simp [h]
  case isFalse h => simp [h]

theorem confined_checked {y : Except ε α} : Confined Q (checked y) ↔ ∀ a, y = .ok a → Q a := by
  cases y
  case error e => exact iff_of_true trivial nofun
  case ok a => exact ⟨fun h b hb => Except.ok.inj hb ▸ h, fun h => h a rfl⟩

theorem confined_readAt {P : List α → Prop} : Confined P (readAt buf i n : Except (Stop ε) (List α)) ↔
    (n = 0 ∨ i + n ≤ buf.length) ∧ P (slice buf i n) := by
  rw [readAt]
  split
  case isTrue h => exact ⟨fun hp => ⟨h, hp⟩, fun hp => hp.2⟩
  case isFalse h => exact ⟨False.elim, fun hp => h hp.1⟩

theorem Confined.mono {P : α → Prop} (h : Confined P x) (himp : ∀ a, x = .ok a → P a → Q a) : Confined Q x := by
  match x with
  | .ok a             => exact himp a rfl h
  | .error .outside   => exact h
  | .error (.error _) => exact trivial

theorem inside_iff_confined : Inside x ↔ Confined (fun _ => True) x := by
  match x with
  | .ok a             => exact iff_of_true nofun trivial
  | .error .outside   => exact iff_of_false (fun h => h rfl) id
  | .error (.error e) => exact iff_of_true nofun trivial

theorem Inside.confined (h : Inside x) (hq : ∀ a, Q a) : Confined Q x :=
  (inside_iff_confined.mp h).mono fun a _ _ => hq a

-- What every round of a loop keeps, the loop keeps.
theorem confined_foldlM {γ : Type} {g : α → γ → Except (Stop ε) α} {cs : List γ} {a : α}
    (hstep : ∀ b, ∀ c ∈ cs, Q b → Confined Q (g b c)) (h : Q a) : Confined Q (cs.foldlM g a) := by
  induction cs generalizing a
  case nil => exact h
  case cons c cs ih =>
    rw [List.foldlM_cons, confined_bind]
    refine (hstep a c (.head cs) h).mono fun b _ hb => ih (fun b' c' hc => hstep b' c' (.tail c hc)) hb

-- A computation all of whose results are `a` has this result.
theorem eq_ok_of_confined {a : α} (h : ∀ Q : α → Prop, Confined Q x ↔ Q a) : x = .ok a := by
  match x with
  | .ok b             => exact congrArg _ ((h (· = a)).mpr rfl)
  | .error .outside   => exact ((h fun _ => True).mpr trivial).elim
  | .error (.error _) => exact ((h fun _ => False).mp trivial).elim

-- A computation that goes on where `c` holds, and refuses elsewhere
theorem exists_ok_iff {c : Prop} (h : ∀ S : Prop, Confined (fun _ => S) x ↔ (c → S)) : (∃ a, x = .ok a) ↔ c := by
  match x with
  | .ok a             => exact iff_of_true ⟨a, rfl⟩ (not_not.mp fun hc => (h False).mpr hc)
  | .error .outside   => exact ((h True).mpr fun _ => trivial).elim
  | .error (.error _) => exact iff_of_false nofun fun hc => (h False).mp trivial hc

theorem eq_ok_iff {c : Prop} {x : Except (Stop ε) Unit} (h : ∀ S : Prop, Confined (fun _ => S) x ↔ (c → S)) :
    x = .ok ⟨⟩ ↔ c :=
  ⟨fun hx => (exists_ok_iff h).mp ⟨⟨⟩, hx⟩, fun hc => ((exists_ok_iff h).mpr hc).choose_spec⟩

-- A computation that is inside where `c` holds, and then returns what `P` describes, or refuses
theorem eq_ok_iff_of_confined {c : Prop} {P : α → Prop} {a : α}
    (h : ∀ Q : α → Prop, Confined Q x ↔ c ∧ ∀ b, P b → Q b) : x = .ok a ↔ c ∧ P a := by
  match x with
  | .ok b             =>
    have ⟨hc, honly⟩ := (h (· = b)).mp rfl
    have hb : P b := by
      by_contra hnot
      exact (h (· ≠ b)).mpr ⟨hc, fun d hd heq => hnot (heq ▸ hd)⟩ rfl
    exact ⟨fun heq => ⟨hc, Except.ok.inj heq ▸ hb⟩, fun ⟨_, ha⟩ => congrArg _ (honly a ha).symm⟩
  | .error .outside   => exact iff_of_false nofun fun ⟨hc, _⟩ => (h fun _ => True).mpr ⟨hc, fun _ _ => trivial⟩
  | .error (.error _) => exact iff_of_false nofun fun ⟨_, ha⟩ => ((h fun _ => False).mp trivial).2 a ha

-- A library function that returns `NULL` where it fails.
def notNull (e : ε) (x : Except (Stop ε) (Option α)) : Except (Stop ε) α := do
  match ← x with
  | some a => return a
  | none   => throw (.error e)

theorem confined_notNull {e : ε} {x : Except (Stop ε) (Option α)} :
    Confined Q (notNull e x) ↔ Confined (fun o => ∀ a, o = some a → Q a) x := by
  match x with
  | .ok (some a)      => exact ⟨fun h b hb => Option.some.inj hb ▸ h, fun h => h a rfl⟩
  | .ok none          => exact iff_of_true trivial nofun
  | .error .outside   => exact Iff.rfl
  | .error (.error _) => exact Iff.rfl

end Confined

end Huks
