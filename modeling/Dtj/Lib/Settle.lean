import Dtj.Lib.Code

/-!
# Calls that come to their end

A call that is alone with the environment takes its next action as soon as it can be done; while it
waits, the environment goes on.

* `Reaches`    the call may end with `a`, in the state `s'`;
* `Settles`    **whatever the environment does, the call ends, and with `Q`**: `Settles.mono`,
               `Settles.bind`, `Settles.both`;
* `state_settles`, `change_settles`, `checked_settles`   its rules, for calls with errors.
-/

namespace Conc

variable {σ ι α β : Type}

namespace Code

/-- the call may end with `a`, in the state `s'` -/
inductive Reaches (env : ι → σ → Option σ) (a : α) (s' : σ) : Code σ α → σ → Prop
  | done : Reaches env a s' (.done a) s'
  | act {β : Type} {step : σ → Option (β × σ)} {next : β → Code σ α} {s s₁ : σ} {b : β}
      (hs : step s = some (b, s₁)) (h : Reaches env a s' (next b) s₁) :
      Reaches env a s' (.act step next) s
  | wait {β : Type} {step : σ → Option (β × σ)} {next : β → Code σ α} {s s₁ : σ} {e : ι}
      (hs : step s = none) (he : env e s = some s₁) (h : Reaches env a s' (.act step next) s₁) :
      Reaches env a s' (.act step next) s

/-- **the call ends, and with `Q`** -/
inductive Settles (env : ι → σ → Option σ) (Q : α → σ → Prop) : Code σ α → σ → Prop
  | done {a : α} {s : σ} (h : Q a s) : Settles env Q (.done a) s
  | act {β : Type} {step : σ → Option (β × σ)} {next : β → Code σ α} {s s₁ : σ} {b : β}
      (hs : step s = some (b, s₁)) (h : Settles env Q (next b) s₁) : Settles env Q (.act step next) s
  | wait {β : Type} {step : σ → Option (β × σ)} {next : β → Code σ α} {s : σ}
      (hs : step s = none) (goes : ∃ e s₁, env e s = some s₁)
      (h : ∀ e s₁, env e s = some s₁ → Settles env Q (.act step next) s₁) :
      Settles env Q (.act step next) s

section
variable {env : ι → σ → Option σ} {s : σ} {Q : α → σ → Prop}

theorem Settles.mono {p : Code σ α} {Q' : α → σ → Prop} (h : p.Settles env Q s)
    (hQ : ∀ a s, Q a s → Q' a s) : p.Settles env Q' s := by
  induction h with
  | done h => exact .done (hQ _ _ h)
  | act hs _ ih => exact .act hs ih
  | wait hs goes _ ih => exact .wait hs goes ih

/-- a call is done part by part -/
theorem Settles.bind {p : Code σ α} {f : α → Code σ β} {Q' : β → σ → Prop} (h : p.Settles env Q s)
    (hf : ∀ a s, Q a s → (f a).Settles env Q' s) : (p >>= f).Settles env Q' s := by
  induction h with
  | done h => exact hf _ _ h
  | act hs _ ih => exact .act hs ih
  | wait hs goes _ ih => exact .wait hs goes ih

/-- **a call that ends, ends in one way at least**, and all is true there -/
theorem Settles.both {p : Code σ α} {Q' : α → σ → Prop} (h : p.Settles env Q s)
    (h' : p.Settles env Q' s) : ∃ a s', p.Reaches env a s' s ∧ Q a s' ∧ Q' a s' := by
  induction h with
  | @done a s h =>
    cases h' with
    | done h' => exact ⟨a, s, .done, h, h'⟩
  | @act β step next s s₁ b hs _ ih =>
    cases h' with
    | act hs' h' =>
      rw [hs] at hs'
      cases hs'
      obtain ⟨a, s', hr, hq⟩ := ih h'
      exact ⟨a, s', .act hs hr, hq⟩
    | wait hs' =>
      rw [hs] at hs'
      cases hs'
  | @wait β step next s hs goes _ ih =>
    cases h' with
    | act hs' =>
      rw [hs] at hs'
      cases hs'
    | wait _ _ h' =>
      obtain ⟨e, s₁, he⟩ := goes
      obtain ⟨a, s', hr, hq⟩ := ih e s₁ he (h' e s₁ he)
      exact ⟨a, s', .wait hs he hr, hq⟩

/-- what a call that ends may end with -/
theorem Settles.reaches {p : Code σ α} {a : α} {s' : σ} (h : p.Settles env Q s)
    (hr : p.Reaches env a s' s) : Q a s' := by
  induction hr with
  | done =>
    cases h with
    | done h => exact h
  | act hs _ ih =>
    cases h with
    | act hs' h =>
      rw [hs] at hs'
      cases hs'
      exact ih h
    | wait hs' =>
      rw [hs] at hs'
      cases hs'
  | wait hs he _ ih =>
    cases h with
    | act hs' =>
      rw [hs] at hs'
      cases hs'
    | wait _ _ h => exact ih (h _ _ he)

end

/-! ## calls with errors -/

section
variable {env : ι → σ → Option σ} {s : σ} {ε : Type} {Q : Except ε β → σ → Prop}

theorem atom_settles {step : σ → Option (Except ε α × σ)} {k : α → ExceptT ε (Code σ) β} {a : α}
    {s' : σ} (hs : step s = some (.ok a, s')) (h : (k a).run.Settles env Q s') :
    (ExceptT.mk (atom step) >>= k).run.Settles env Q s := .act hs h

theorem atom_settles_error {step : σ → Option (Except ε α × σ)} {k : α → ExceptT ε (Code σ) β} {e : ε}
    {s' : σ} (hs : step s = some (.error e, s')) (h : Q (.error e) s') :
    (ExceptT.mk (atom step) >>= k).run.Settles env Q s := .act hs (.done h)

theorem atom_waits {step : σ → Option (Except ε α × σ)} {k : α → ExceptT ε (Code σ) β}
    (hs : step s = none) (goes : ∃ e s', env e s = some s')
    (h : ∀ e s', env e s = some s' → (ExceptT.mk (atom step) >>= k).run.Settles env Q s') :
    (ExceptT.mk (atom step) >>= k).run.Settles env Q s := .wait hs goes h

theorem state_settles {k : σ → ExceptT ε (Code σ) β} (h : (k s).run.Settles env Q s) :
    (state >>= k).run.Settles env Q s := atom_settles rfl h

theorem change_settles {f : σ → σ} {k : Unit → ExceptT ε (Code σ) β}
    (h : (k ()).run.Settles env Q (f s)) : (change f >>= k).run.Settles env Q s := atom_settles rfl h

theorem checked_settles {x : Except ε α} {k : α → ExceptT ε (Code σ) β}
    (hok : ∀ a, x = .ok a → (k a).run.Settles env Q s) (herr : ∀ e, x = .error e → Q (.error e) s) :
    (checked x >>= k).run.Settles env Q s := by
  cases x with
  | ok a => exact hok a rfl
  | error e => exact .done (herr e rfl)

end

end Code

end Conc
