import Mathlib.Tactic.Common

namespace Except

variable {ε α β : Type _} {x : Except ε α} {f : α → Except ε β} {b : β}

theorem bind_eq_ok : x >>= f = .ok b ↔ ∃ a, x = .ok a ∧ f a = .ok b := by
  cases x <;> simp [bind, Except.bind]

theorem map_eq_ok {g : α → β} : x.map g = .ok b ↔ ∃ a, x = .ok a ∧ g a = b := by
  cases x <;> simp [Except.map]

theorem foldlM_cons_eq_ok {γ : Type _} {g : β → γ → Except ε β} {c : γ} {cs : List γ} {a b : β} :
    (c :: cs).foldlM g a = .ok b ↔ ∃ a', g a c = .ok a' ∧ cs.foldlM g a' = .ok b := by
  rw [List.foldlM_cons, bind_eq_ok]

-- Every failure of `x` is reported as `e`.
def orError (x : Except ε α) (e : ε) : Except ε α := x.mapError fun _ => e

theorem orError_eq_ok {e : ε} {a : α} : x.orError e = .ok a ↔ x = .ok a := by
  cases x <;> simp [orError, Except.mapError]

theorem forM_eq_ok {l : List α} {f : α → Except ε PUnit} :
    l.forM f = .ok ⟨⟩ ↔ ∀ a ∈ l, f a = .ok ⟨⟩ := by
  induction l
  case nil => exact iff_of_true rfl (by simp)
  case cons a l ih =>
    have hcons : (a :: l).forM f = f a >>= fun _ => l.forM f := rfl
    rw [hcons, bind_eq_ok, List.forall_mem_cons, ← ih]
    exact ⟨fun ⟨_, ha, hl⟩ => ⟨ha, hl⟩, fun ⟨ha, hl⟩ => ⟨_, ha, hl⟩⟩

end Except

namespace EStateM

universe u

variable {ε σ τ α β : Type u}

-- The state a run ends in, whether it returns or throws.
def Result.final : Result ε σ α → σ
  | .ok _ s | .error _ s => s

-- What a run returns or throws, without the state.
def Result.toExcept : Result ε σ α → Except ε α
  | .ok a _    => .ok a
  | .error e _ => .error e

@[simp]
theorem Result.final_ok (a : α) (s : σ) : (Result.ok a s : Result ε σ α).final = s := rfl

@[simp]
theorem Result.final_error (e : ε) (s : σ) : (Result.error e s : Result ε σ α).final = s := rfl

@[simp]
theorem run_throw' (e : ε) (s : σ) : (throw e : EStateM ε σ α).run s = .error e s := rfl

@[simp]
theorem run_ofExcept_ok (a : α) (s : σ) :
    (MonadExcept.ofExcept (.ok a) : EStateM ε σ α).run s = .ok a s := rfl

@[simp]
theorem run_ofExcept_error (e : ε) (s : σ) :
    (MonadExcept.ofExcept (.error e) : EStateM ε σ α).run s = .error e s := rfl

theorem ofExcept_ok_bind (a : α) (f : α → EStateM ε σ β) :
    (MonadExcept.ofExcept (.ok a) >>= f) = f a := rfl

theorem run_bind_of_ok {x : EStateM ε σ α} {f : α → EStateM ε σ β} {s t : σ} {a : α} (h : x.run s = .ok a t) :
    (x >>= f).run s = (f a).run t := by
  rw [run_bind, h]

theorem run_bind_of_error {x : EStateM ε σ α} {f : α → EStateM ε σ β} {s t : σ} {e : ε} (h : x.run s = .error e t) :
    (x >>= f).run s = .error e t := by
  rw [run_bind, h]

theorem run_bind_eq_ok {x : EStateM ε σ α} {f : α → EStateM ε σ β} {s t : σ} {b : β} :
    (x >>= f).run s = .ok b t ↔ ∃ a u, x.run s = .ok a u ∧ (f a).run u = .ok b t := by
  rw [run_bind]
  cases x.run s <;> simp

theorem run_discard (x : EStateM ε σ α) (s : σ) :
    (discard x).run s = match x.run s with
      | .ok _ t    => .ok ⟨⟩ t
      | .error e t => .error e t := by
  change (x >>= fun _ => pure PUnit.unit).run s = _
  rw [run_bind]
  cases x.run s <;> rfl

theorem run_discard_final (x : EStateM ε σ α) (s : σ) :
    ((discard x).run s).final = (x.run s).final := by
  rw [run_discard]
  cases x.run s <;> rfl

-- The part of the state that a component works on.
structure Lens (σ τ : Type u) where
  get : σ → τ
  set : τ → σ → σ

-- Runs `x` on its part of the state and leaves the rest alone.
def zoom (l : Lens σ τ) (x : EStateM ε τ α) : EStateM ε σ α := fun s =>
  match x.run (l.get s) with
  | .ok a t    => .ok a (l.set t s)
  | .error e t => .error e (l.set t s)

theorem final_zoom (l : Lens σ τ) (x : EStateM ε τ α) (s : σ) :
    ((zoom l x).run s).final = l.set (x.run (l.get s)).final s := by
  simp only [zoom, EStateM.run]
  cases x (l.get s) <;> rfl

theorem run_zoom_eq_ok {l : Lens σ τ} {x : EStateM ε τ α} {s s' : σ} {a : α} :
    (zoom l x).run s = .ok a s' ↔ ∃ t, x.run (l.get s) = .ok a t ∧ s' = l.set t s := by
  simp only [zoom, EStateM.run]
  cases x (l.get s) <;> simp [eq_comm]

theorem toExcept_eq_ok {r : Result ε σ α} {a : α} : r.toExcept = .ok a ↔ ∃ s, r = .ok a s := by
  cases r <;> simp [Result.toExcept]

-- Runs `x` and hands its outcome to the caller, who cleans up before passing a failure on.
def attempt (x : EStateM ε σ α) : EStateM ε σ (Except ε α) := fun s =>
  match x.run s with
  | .ok a t    => .ok (.ok a) t
  | .error e t => .ok (.error e) t

theorem run_attempt (x : EStateM ε σ α) (s : σ) :
    (attempt x).run s = .ok (x.run s).toExcept (x.run s).final := by
  simp only [attempt, EStateM.run]
  cases x s <;> rfl

theorem final_attempt (x : EStateM ε σ α) (s : σ) :
    ((attempt x).run s).final = (x.run s).final := by
  rw [run_attempt]
  rfl

theorem run_attempt_ok {x : EStateM ε σ α} {s t : σ} {a : α} :
    (attempt x).run s = .ok (.ok a) t ↔ x.run s = .ok a t := by
  rw [run_attempt]
  cases x.run s <;> simp [Result.toExcept]

theorem run_ofExcept_eq_ok {x : Except ε α} {s t : σ} {a : α} :
    (MonadExcept.ofExcept x : EStateM ε σ α).run s = .ok a t ↔ x = .ok a ∧ s = t := by
  cases x <;> simp

-- Every run of `x` from a state with `P` ends in a state with `P`, also when it throws.
def Preserves (P : σ → Prop) (x : EStateM ε σ α) : Prop := ∀ s, P s → P (x.run s).final

namespace Preserves

variable {P : σ → Prop} {x : EStateM ε σ α} {f : α → EStateM ε σ β}

theorem pure (a : α) : Preserves P (pure a : EStateM ε σ α) := fun _ h => h

theorem throw (e : ε) : Preserves P (throw e : EStateM ε σ α) := fun _ h => h

theorem get : Preserves P (get : EStateM ε σ σ) := fun _ h => h

theorem ofExcept (x : Except ε α) : Preserves P (MonadExcept.ofExcept x : EStateM ε σ α) := by
  cases x
  case ok => exact pure _
  case error => exact throw _

theorem modify {g : σ → σ} (h : ∀ s, P s → P (g s)) :
    Preserves P (modify g : EStateM ε σ PUnit) := h

theorem modifyGet {g : σ → α × σ} (h : ∀ s, P s → P (g s).2) :
    Preserves P (modifyGet g : EStateM ε σ α) := h

theorem bind (hx : Preserves P x) (hf : ∀ a, Preserves P (f a)) : Preserves P (x >>= f) := by
  intro s h
  have hs := hx s h
  rw [run_bind]
  cases hr : x.run s
  case error => simpa [hr] using hs
  case ok a t =>
    rw [hr] at hs
    exact hf a t hs

-- What the first part left behind is still there at the end, whether it returned or threw.
theorem final_bind {s : σ} (hf : ∀ a, Preserves P (f a)) (h : P (x.run s).final) :
    P ((x >>= f).run s).final := by
  rw [run_bind]
  cases hr : x.run s
  case error => rwa [hr] at h
  case ok a t =>
    rw [hr] at h
    exact hf a t h

theorem ite {c : Prop} [Decidable c] {y : EStateM ε σ α} (hx : Preserves P x)
    (hy : Preserves P y) : Preserves P (if c then x else y) := by
  split
  case isTrue => exact hx
  case isFalse => exact hy

-- A check in front of the rest of the code.
theorem guard {c : Prop} [Decidable c] {e : ε} {f : PUnit → EStateM ε σ β}
    (hf : Preserves P (f ⟨⟩)) :
    Preserves P (if c then (MonadExcept.throw e : EStateM ε σ PUnit) >>= f else f ⟨⟩) :=
  .ite (.bind (.throw e) fun _ => hf) hf

-- What a check returned is known to what follows it.
theorem ofExcept_bind {x : Except ε α} (hf : ∀ a, x = .ok a → Preserves P (f a)) :
    Preserves P (MonadExcept.ofExcept x >>= f) := by
  cases x
  case error => exact throw _
  case ok a => exact hf a rfl

theorem get_bind {f : σ → EStateM ε σ β} (hf : ∀ s, P s → P ((f s).run s).final) :
    Preserves P ((MonadState.get : EStateM ε σ σ) >>= f) := hf

theorem zoom {l : Lens σ τ} {Q : τ → Prop} {x : EStateM ε τ α} (hx : Preserves Q x)
    (hget : ∀ s, P s → Q (l.get s)) (hset : ∀ s t, P s → Q t → P (l.set t s)) :
    Preserves P (EStateM.zoom l x) := by
  intro s h
  rw [final_zoom]
  exact hset s _ h (hx _ (hget s h))

theorem attempt (hx : Preserves P x) : Preserves P (EStateM.attempt x) := by
  intro s h
  rw [final_attempt]
  exact hx s h

end Preserves

end EStateM
