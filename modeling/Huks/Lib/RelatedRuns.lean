import Huks.Lib.StateError

namespace EStateM

universe u

variable {ε σ τ α β : Type u}

-- From a state with `P` the two programs return or throw the same and end in the same state.
def SameRuns (P : σ → Prop) (x y : EStateM ε σ α) : Prop := ∀ s, P s → x.run s = y.run s

namespace SameRuns

variable {P : σ → Prop} {x y : EStateM ε σ α} {f g : α → EStateM ε σ β}

theorem refl (x : EStateM ε σ α) : SameRuns P x x := fun _ _ => rfl

theorem of_eq (h : x = y) : SameRuns P x y := h ▸ refl x

theorem mono {Q : σ → Prop} (h : SameRuns Q x y) (hQ : ∀ s, P s → Q s) : SameRuns P x y :=
  fun s hs => h s (hQ s hs)

theorem eq (h : SameRuns (fun _ => True) x y) : x = y := funext fun s => h s trivial

-- What a run of the first part returned, and the state it left, is known to the rest.
theorem bind_ok (hx : SameRuns P x y)
    (hf : ∀ s a t, P s → x.run s = .ok a t → (f a).run t = (g a).run t) :
    SameRuns P (x >>= f) (y >>= g) := by
  intro s h
  rw [run_bind, run_bind, ← hx s h]
  cases hr : x.run s
  case ok a t => exact hf s a t h hr
  case error => rfl

theorem bind (hx : SameRuns P x y) (hP : Preserves P x) (hf : ∀ a, SameRuns P (f a) (g a)) :
    SameRuns P (x >>= f) (y >>= g) := by
  refine bind_ok hx fun s a t h hr => hf a t ?_
  have ht := hP s h
  rwa [hr] at ht

-- The rest is the same from every state.
theorem bind_eq (hx : SameRuns P x y) (hf : ∀ a, f a = g a) : SameRuns P (x >>= f) (y >>= g) :=
  bind_ok hx fun _ a _ _ _ => by rw [hf a]

theorem ofExcept_bind {x : Except ε α} (hf : ∀ a, x = .ok a → SameRuns P (f a) (g a)) :
    SameRuns P (MonadExcept.ofExcept x >>= f) (MonadExcept.ofExcept x >>= g) := by
  cases x
  case error => exact refl _
  case ok a => exact hf a rfl

theorem get_bind {f g : σ → EStateM ε σ β} (hf : ∀ s, P s → (f s).run s = (g s).run s) :
    SameRuns P ((MonadState.get : EStateM ε σ σ) >>= f) (MonadState.get >>= g) := hf

theorem ite {c : Prop} [Decidable c] {x' y' : EStateM ε σ α} (hx : c → SameRuns P x y)
    (hy : ¬c → SameRuns P x' y') : SameRuns P (if c then x else x') (if c then y else y') := by
  split
  case isTrue h => exact hx h
  case isFalse h => exact hy h

theorem attempt (h : SameRuns P x y) : SameRuns P (EStateM.attempt x) (EStateM.attempt y) := by
  intro s hs
  rw [run_attempt, run_attempt, h s hs]

theorem zoom {l : Lens σ τ} {Q : τ → Prop} {x y : EStateM ε τ α} (h : SameRuns Q x y)
    (hget : ∀ s, P s → Q (l.get s)) : SameRuns P (EStateM.zoom l x) (EStateM.zoom l y) := by
  intro s hs
  have h : x (l.get s) = y (l.get s) := h _ (hget s hs)
  simp only [EStateM.run, EStateM.zoom, h]

end SameRuns

-- The rest of a program runs only after a check that returned.
theorem ofExcept_bind_congr {x : Except ε α} {f g : α → EStateM ε σ β}
    (h : ∀ a, x = .ok a → f a = g a) :
    MonadExcept.ofExcept x >>= f = MonadExcept.ofExcept x >>= g :=
  SameRuns.eq <| .ofExcept_bind fun a ha => .of_eq (h a ha)

variable {γ : Type u}

-- From states related by `R` a program returns or throws the same, and ends in related states.
def Respects (R : σ → σ → Prop) (x : EStateM ε σ α) : Prop :=
  ∀ s t, R s t → (x.run s).toExcept = (x.run t).toExcept ∧ R (x.run s).final (x.run t).final

namespace Respects

variable {R : σ → σ → Prop} {x : EStateM ε σ α} {f : α → EStateM ε σ β}

theorem pure (a : α) : Respects R (pure a : EStateM ε σ α) := fun _ _ h => ⟨rfl, h⟩

theorem throw (e : ε) : Respects R (throw e : EStateM ε σ α) := fun _ _ h => ⟨rfl, h⟩

theorem ofExcept (x : Except ε α) : Respects R (MonadExcept.ofExcept x : EStateM ε σ α) := by
  cases x
  case ok => exact pure _
  case error => exact throw _

-- What the first part can return is known to the rest.
theorem bind_ok (hx : Respects R x) (hf : ∀ s a t, x.run s = .ok a t → Respects R (f a)) :
    Respects R (x >>= f) := by
  intro s t h
  have ⟨hout, hfinal⟩ := hx s t h
  rw [run_bind, run_bind]
  cases hs : x.run s <;> cases ht : x.run t <;> rw [hs, ht] at hout hfinal
  case ok.ok a u b v =>
    obtain rfl : a = b := Except.ok.inj hout
    exact hf s a u hs u v hfinal
  case ok.error => contradiction
  case error.ok => contradiction
  case error.error d u e v =>
    obtain rfl : d = e := Except.error.inj hout
    exact ⟨rfl, hfinal⟩

theorem bind (hx : Respects R x) (hf : ∀ a, Respects R (f a)) : Respects R (x >>= f) :=
  bind_ok hx fun _ a _ _ => hf a

theorem ite {c : Prop} [Decidable c] {y : EStateM ε σ α} (hx : Respects R x) (hy : Respects R y) :
    Respects R (if c then x else y) := by
  split
  case isTrue => exact hx
  case isFalse => exact hy

theorem modifyGet {g : σ → α × σ}
    (h : ∀ s t, R s t → (g s).1 = (g t).1 ∧ R (g s).2 (g t).2) :
    Respects R (modifyGet g : EStateM ε σ α) :=
  fun s t hst => ⟨congrArg Except.ok (h s t hst).1, (h s t hst).2⟩

theorem attempt (hx : Respects R x) : Respects R (EStateM.attempt x) := by
  intro s t h
  have ⟨hout, hfinal⟩ := hx s t h
  rw [run_attempt, run_attempt]
  exact ⟨congrArg Except.ok hout, hfinal⟩

end Respects

end EStateM
