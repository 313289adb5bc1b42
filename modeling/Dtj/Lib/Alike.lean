import Dtj.Lib.Checked

/-!
# Programs that answer alike

Two programs are run from related states.  They answer alike if they end with the same value or the
same error, in states that are related again.  What a program does not look at may then be anything.

* `Alike`       two ends of runs;
* `Alike.bind`  the rule for one program after the other; `get`, `of`, `ite` and so on.
-/

namespace Checked

/-- the same value or the same error, in related states -/
inductive Alike {σ τ ε α : Type} (R : σ → τ → Prop) :
    EStateM.Result (Abort ε) σ α → EStateM.Result (Abort ε) τ α → Prop
  | ok (a : α) {s : σ} {t : τ} (h : R s t) : Alike R (.ok a s) (.ok a t)
  | error (e : Abort ε) {s : σ} {t : τ} (h : R s t) : Alike R (.error e s) (.error e t)

namespace Alike
variable {σ τ ε α β : Type} {R : σ → τ → Prop} {s : σ} {t : τ}

theorem pure (a : α) (h : R s t) :
    Alike R ((Pure.pure a : Prog σ ε α).run s) ((Pure.pure a : Prog τ ε α).run t) := .ok a h

theorem throw (e : Abort ε) (h : R s t) :
    Alike R ((MonadExcept.throw e : Prog σ ε α).run s) ((MonadExcept.throw e : Prog τ ε α).run t) := .error e h

theorem of (r : Res ε α) (h : R s t) :
    Alike R ((Prog.of r : Prog σ ε α).run s) ((Prog.of r : Prog τ ε α).run t) := by
  cases r with
  | ok a => exact .ok a h
  | error e => exact .error e h

/-- **one program after the other** -/
theorem bind {x : Prog σ ε α} {y : Prog τ ε α} {f : α → Prog σ ε β} {g : α → Prog τ ε β}
    (hx : Alike R (x.run s) (y.run t)) (hf : ∀ a s t, R s t → Alike R ((f a).run s) ((g a).run t)) :
    Alike R ((x >>= f).run s) ((y >>= g).run t) := by
  rw [EStateM.run_bind, EStateM.run_bind]
  generalize x.run s = r at hx
  generalize y.run t = r' at hx
  cases hx with
  | ok a h => exact hf a _ _ h
  | error e h => exact .error e h

/-- what is looked at is the state that is there -/
theorem get {f : σ → Prog σ ε β} {g : τ → Prog τ ε β} (h : Alike R ((f s).run s) ((g t).run t)) :
    Alike R ((MonadState.get >>= f).run s) ((MonadState.get >>= g).run t) := h

theorem map {x : Prog σ ε α} {y : Prog τ ε α} (f : α → β) (h : Alike R (x.run s) (y.run t)) :
    Alike R ((f <$> x).run s) ((f <$> y).run t) := by
  rw [run_map, run_map]
  generalize x.run s = r at h
  generalize y.run t = r' at h
  cases h with
  | ok a h => exact .ok (f a) h
  | error e h => exact .error e h

theorem ite (c : Prop) [Decidable c] {x x' : Prog σ ε α} {y y' : Prog τ ε α}
    (h : Alike R (x.run s) (y.run t)) (h' : Alike R (x'.run s) (y'.run t)) :
    Alike R ((if c then x else x').run s) ((if c then y else y').run t) := by
  by_cases hc : c
  · rw [if_pos hc, if_pos hc]
    exact h
  · rw [if_neg hc, if_neg hc]
    exact h'

end Alike

end Checked
