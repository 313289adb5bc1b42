import Mathlib.Tactic

/-!
# Calls in atomic actions

A call on a state that others change, too, is a piece of `Code`: it has a result, or it does one
action on the state and goes on; an action that cannot be done yet is waited for.

* `Code.run`       what a call does when it is left alone;
* `Code.Keeps I Q` left alone it passes through states with `I` and ends with `Q`: `Keeps.bind`;
* `Code.state`, `Code.change`, `Code.checked`   actions of calls that may fail, and their rules.
-/

namespace Conc

/-- the code of a call on a state `σ` -/
inductive Code (σ α : Type) : Type 1 where
  | done (a : α)
  | act {β : Type} (step : σ → Option (β × σ)) (next : β → Code σ α)

namespace Code
variable {σ α β : Type}

def bind (p : Code σ α) (f : α → Code σ β) : Code σ β :=
  match p with
  | done a => f a
  | act step next => act step fun b => (next b).bind f

instance : Monad (Code σ) where
  pure := done
  bind := bind

theorem bind_done (p : Code σ α) : p.bind done = p := by
  induction p with
  | done a => rfl
  | act step next ih =>
    show act step (fun b => (next b).bind done) = _
    rw [funext ih]

protected theorem bind_assoc {γ : Type} (p : Code σ α) (f : α → Code σ β) (g : β → Code σ γ) :
    (p.bind f).bind g = p.bind fun a => (f a).bind g := by
  induction p with
  | done a => rfl
  | act step next ih =>
    show act step (fun b => ((next b).bind f).bind g) = _
    rw [funext ih]
    rfl

instance : LawfulMonad (Code σ) := LawfulMonad.mk' (Code σ) bind_done (fun _ _ => rfl) Code.bind_assoc

/-- one action -/
def atom (step : σ → Option (β × σ)) : Code σ β := act step done

/-- the call is left alone until it is done -/
def run : Code σ α → σ → Option (α × σ)
  | done a, s => some (a, s)
  | act step next, s =>
    match step s with
    | none => none
    | some (b, s) => (next b).run s

/-- the call, left alone, passes only through states with `I` before its last one, and ends with `Q` -/
def Keeps (I : σ → Prop) (Q : α → σ → Prop) : Code σ α → σ → Prop
  | done a, s => Q a s
  | act step next, s => ∀ b s', step s = some (b, s') → I s' ∧ (next b).Keeps I Q s'

section
variable {I : σ → Prop} {s : σ}

theorem keeps_pure {Q : α → σ → Prop} {a : α} (h : Q a s) : (pure a : Code σ α).Keeps I Q s := h

theorem keeps_atom {step : σ → Option (β × σ)} {Q : β → σ → Prop}
    (h : ∀ b s', step s = some (b, s') → I s' ∧ Q b s') : (atom step).Keeps I Q s := h

theorem Keeps.mono {I' : σ → Prop} {p : Code σ α} {Q Q' : α → σ → Prop} (h : p.Keeps I Q s)
    (hI : ∀ s, I s → I' s) (hQ : ∀ a s, Q a s → Q' a s) : p.Keeps I' Q' s := by
  induction p generalizing s with
  | done a => exact hQ a s h
  | act step next ih =>
    intro b s' hs
    obtain ⟨h', hnext⟩ := h b s' hs
    exact ⟨hI s' h', ih b hnext⟩

/-- a call is done part by part -/
theorem Keeps.bind {p : Code σ α} {f : α → Code σ β} {Q : α → σ → Prop} {Q' : β → σ → Prop}
    (h : p.Keeps I Q s) (hf : ∀ a s, Q a s → (f a).Keeps I Q' s) : (p >>= f).Keeps I Q' s := by
  induction p generalizing s with
  | done a => exact hf a s h
  | act step next ih =>
    intro b s' hs
    obtain ⟨hI, hnext⟩ := h b s' hs
    exact ⟨hI, ih b hnext⟩

/-- the same for calls with errors: a part that fails is the last one -/
theorem Keeps.bind_except {ε : Type} {p : ExceptT ε (Code σ) α} {f : α → ExceptT ε (Code σ) β}
    {Q : Except ε α → σ → Prop} {Q' : Except ε β → σ → Prop} (h : p.run.Keeps I Q s)
    (hok : ∀ a s, Q (.ok a) s → (f a).run.Keeps I Q' s)
    (herr : ∀ e s, Q (.error e) s → Q' (.error e) s) : (p >>= f).run.Keeps I Q' s := by
  refine h.bind fun x s hx => ?_
  cases x with
  | ok a => exact hok a s hx
  | error e => exact herr e s hx

theorem Keeps.of_run {p : Code σ α} {Q : α → σ → Prop} {a : α} {s' : σ} (h : p.Keeps I Q s)
    (hrun : p.run s = some (a, s')) : Q a s' := by
  induction p generalizing s with
  | done b =>
    cases hrun
    exact h
  | act step next ih =>
    rw [run] at hrun
    split at hrun
    · cases hrun
    · rename_i b s₁ hs
      exact ih b (h b s₁ hs).2 hrun

/-! ## calls that may fail -/

variable {ε : Type} {Q : Except ε β → σ → Prop}

def state : ExceptT ε (Code σ) σ := ExceptT.mk (atom fun s => some (.ok s, s))

def change (f : σ → σ) : ExceptT ε (Code σ) Unit := ExceptT.mk (atom fun s => some (.ok (), f s))

/-- a computation that does not look at the state -/
def checked (x : Except ε α) : ExceptT ε (Code σ) α := ExceptT.mk (pure x)

theorem state_keeps {k : σ → ExceptT ε (Code σ) β} (hI : I s) (h : (k s).run.Keeps I Q s) :
    (state >>= k).run.Keeps I Q s := by
  refine Keeps.bind_except (keeps_atom (Q := fun x s' => x = .ok s ∧ s' = s) ?_) ?_ ?_
  · intro x s' hx
    cases hx
    exact ⟨hI, rfl, rfl⟩
  · rintro a s' ⟨hx, rfl⟩
    cases hx
    exact h
  · rintro e s' ⟨hx, -⟩
    cases hx

theorem change_keeps {f : σ → σ} {k : Unit → ExceptT ε (Code σ) β} (hI : I (f s))
    (h : (k ()).run.Keeps I Q (f s)) : (change f >>= k).run.Keeps I Q s := by
  refine Keeps.bind_except (keeps_atom (Q := fun x s' => x = .ok () ∧ s' = f s) ?_) ?_ ?_
  · intro x s' hx
    cases hx
    exact ⟨hI, rfl, rfl⟩
  · rintro a s' ⟨-, rfl⟩
    exact h
  · rintro e s' ⟨hx, -⟩
    cases hx

theorem checked_keeps {x : Except ε α} {k : α → ExceptT ε (Code σ) β}
    (hok : ∀ a, x = .ok a → (k a).run.Keeps I Q s) (herr : ∀ e, x = .error e → Q (.error e) s) :
    (checked x >>= k).run.Keeps I Q s := by
  cases x with
  | ok a => exact hok a rfl
  | error e => exact herr e rfl

end

end Code

end Conc
