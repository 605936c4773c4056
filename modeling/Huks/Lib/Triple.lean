import Huks.Lib.StateError

namespace EStateM

universe u

variable {ε σ α β : Type u}

-- From a state with `P`, `x` returns `a` in a state with `Q a` or throws `e` in one with `E e`.
def Triple (P : σ → Prop) (x : EStateM ε σ α) (Q : α → σ → Prop) (E : ε → σ → Prop) : Prop :=
  ∀ s, P s → match x.run s with
    | .ok a t    => Q a t
    | .error e t => E e t

namespace Triple

variable {P P' : σ → Prop} {Q Q' : α → σ → Prop} {R : β → σ → Prop} {E E' : ε → σ → Prop}
  {x : EStateM ε σ α} {f : α → EStateM ε σ β}

theorem ok (h : Triple P x Q E) {s t : σ} {a : α} (hs : P s) (hr : x.run s = .ok a t) : Q a t := by
  have := h s hs
  rwa [hr] at this

theorem error (h : Triple P x Q E) {s t : σ} {e : ε} (hs : P s) (hr : x.run s = .error e t) :
    E e t := by
  have := h s hs
  rwa [hr] at this

theorem intro (hok : ∀ s a t, P s → x.run s = .ok a t → Q a t)
    (herror : ∀ s e t, P s → x.run s = .error e t → E e t) : Triple P x Q E := by
  intro s hs
  cases hr : x.run s
  case ok a t => exact hok s a t hs hr
  case error e t => exact herror s e t hs hr

theorem weaken (h : Triple P' x Q' E') (hP : ∀ s, P s → P' s) (hQ : ∀ a s, Q' a s → Q a s)
    (hE : ∀ e s, E' e s → E e s) : Triple P x Q E :=
  .intro (fun _ _ _ hs hr => hQ _ _ (h.ok (hP _ hs) hr))
    (fun _ _ _ hs hr => hE _ _ (h.error (hP _ hs) hr))

theorem strengthen_pre {S : σ → Prop} (h : Triple S x Q E) (hP : ∀ s, P s → S s) :
    Triple P x Q E :=
  h.weaken hP (fun _ _ => id) fun _ _ => id

theorem weaken_post (h : Triple P x Q' E) (hQ : ∀ a s, Q' a s → Q a s) : Triple P x Q E :=
  h.weaken (fun _ => id) hQ fun _ _ => id

theorem weaken_error (h : Triple P x Q E') (hE : ∀ e s, E' e s → E e s) : Triple P x Q E :=
  h.weaken (fun _ => id) (fun _ _ => id) hE

-- A fact that does not depend on the state is a fact of the proof.
theorem of_pure {p : Prop} (h : p → Triple P x Q E) : Triple (fun s => p ∧ P s) x Q E :=
  fun s hs => h hs.1 s hs.2

theorem of_exists {γ : Type _} {P : γ → σ → Prop} (h : ∀ c, Triple (P c) x Q E) :
    Triple (fun s => ∃ c, P c s) x Q E := fun s ⟨c, hs⟩ => h c s hs

theorem of_or (h : Triple P x Q E) (h' : Triple P' x Q E) : Triple (fun s => P s ∨ P' s) x Q E :=
  fun s hs => hs.elim (h s) (h' s)

theorem of_false : Triple (fun _ => False) x Q E := fun _ h => h.elim

theorem pure {a : α} (h : ∀ s, P s → Q a s) : Triple P (pure a : EStateM ε σ α) Q E := h

theorem throw {e : ε} (h : ∀ s, P s → E e s) : Triple P (throw e : EStateM ε σ α) Q E := h

theorem bind (hx : Triple P x Q E) (hf : ∀ a, Triple (Q a) (f a) R E) : Triple P (x >>= f) R E := by
  intro s hs
  have h := hx s hs
  rw [run_bind]
  cases hr : x.run s
  case error e t => rwa [hr] at h
  case ok a t =>
    rw [hr] at h
    exact hf a t h

theorem get_bind {f : σ → EStateM ε σ β} (h : ∀ s, Triple (fun t => t = s ∧ P t) (f s) R E) :
    Triple P ((MonadState.get : EStateM ε σ σ) >>= f) R E := fun s hs => h s s ⟨rfl, hs⟩

theorem modify {g : σ → σ} {Q : PUnit → σ → Prop} (h : ∀ s, P s → Q ⟨⟩ (g s)) :
    Triple P (modify g : EStateM ε σ PUnit) Q E := h

theorem ofExcept {y : Except ε α} (hok : ∀ a s, y = .ok a → P s → Q a s) (hE : ∀ e s, y = .error e → P s → E e s) :
    Triple P (MonadExcept.ofExcept y : EStateM ε σ α) Q E := by
  cases y
  case error e => exact throw fun s hs => hE e s rfl hs
  case ok a => exact pure fun s hs => hok a s rfl hs

theorem ite {c : Prop} [Decidable c] {y : EStateM ε σ α} (hx : c → Triple P x Q E)
    (hy : ¬c → Triple P y Q E) : Triple P (if c then x else y) Q E := by
  split
  case isTrue h => exact hx h
  case isFalse h => exact hy h

-- A check in front of the rest of the code.
theorem guard {c : Prop} [Decidable c] {e : ε} {g : PUnit → EStateM ε σ β}
    (hthrow : c → ∀ s, P s → E e s) (hg : ¬c → Triple P (g ⟨⟩) R E) :
    Triple P (if c then (MonadExcept.throw e : EStateM ε σ PUnit) >>= g else g ⟨⟩) R E :=
  .ite (fun h => .bind (Q := fun _ _ => False) (.throw (hthrow h)) fun _ => .of_false) hg

-- The caller goes on with either outcome.
theorem attempt (hx : Triple P x Q E) {F : ε → σ → Prop} :
    Triple P (EStateM.attempt x)
      (fun r s => (∀ a, r = .ok a → Q a s) ∧ ∀ e, r = .error e → E e s) F := by
  intro s hs
  have h := hx s hs
  rw [run_attempt]
  cases hr : x.run s
  case ok a t =>
    rw [hr] at h
    refine ⟨fun b hb => ?_, nofun⟩
    cases hb
    exact h
  case error e t =>
    rw [hr] at h
    refine ⟨nofun, fun e' he => ?_⟩
    cases he
    exact h

-- The caller does not care how it went.
theorem attempt_discard {S : σ → Prop} (hx : ∀ s, P s → S (x.run s).final) {F : ε → σ → Prop} :
    Triple P (discard (EStateM.attempt x)) (fun _ => S) F := by
  intro s hs
  rw [run_discard, run_attempt]
  exact hx s hs

-- The rule for a loop: every pass keeps `P`.
theorem forM {γ : Type _} {l : List γ} {f : γ → EStateM ε σ PUnit}
    (h : ∀ c ∈ l, Triple P (f c) (fun _ => P) E) : Triple P (l.forM f) (fun _ => P) E := by
  induction l
  case nil => exact pure fun _ => id
  case cons c l ih =>
    exact (h c List.mem_cons_self).bind fun _ => ih fun d hd => h d (List.mem_cons_of_mem _ hd)

-- What a check returned is known to what follows it.
theorem ofExcept_bind {y : Except ε α} (hf : ∀ a, y = .ok a → Triple P (f a) R E)
    (hE : ∀ e s, y = .error e → P s → E e s) : Triple P (MonadExcept.ofExcept y >>= f) R E := by
  cases y
  case error e => exact throw fun s hs => hE e s rfl hs
  case ok a => exact hf a rfl

end Triple

theorem Triple.final {P S : σ → Prop} {x : EStateM ε σ α}
    (h : Triple P x (fun _ => S) fun _ => S) {s : σ} (hs : P s) : S (x.run s).final := by
  have h := h s hs
  cases hr : x.run s <;> rwa [hr] at h

theorem Preserves.triple {P : σ → Prop} {x : EStateM ε σ α} (h : Preserves P x) :
    Triple P x (fun _ => P) fun _ _ => True := by
  intro s hs
  have hfinal := h s hs
  cases hr : x.run s
  case ok => rwa [hr] at hfinal
  case error => trivial

-- What the first part returns has `p`, and that is known to the rest.
theorem Triple.preserves_bind {P : σ → Prop} {x : EStateM ε σ α} {p : α → Prop}
    {f : α → EStateM ε σ β} (hx : Triple P x (fun a s => P s ∧ p a) fun _ => P)
    (hf : ∀ a, p a → Preserves P (f a)) : Preserves P (x >>= f) := by
  intro s hs
  have h := hx s hs
  rw [run_bind]
  cases hr : x.run s
  case error e t => rwa [hr] at h
  case ok a t =>
    rw [hr] at h
    exact hf a h.2 t h.1

end EStateM
