import Mathlib.Tactic

/-!
# Runs of a step function

A system takes one action after the other; an action may be impossible.

* `Trace step ok s as s'`   from `s`, the actions `as` lead to `s'`, each of them allowed by `ok`;
* `Trace.invariant`         **what every allowed step keeps**, a run keeps;
* `Trace.append`            two runs, one after the other;
* `Trace.of_play`           the run that follows a list of actions.
-/

section
variable {σ α : Type*}

/-- a run, every action of which is allowed in its state -/
inductive Trace (step : σ → α → Option σ) (ok : σ → α → Prop) : σ → List α → σ → Prop
  | nil (s) : Trace step ok s [] s
  | cons {s s' s'' a as} (hok : ok s a) (hstep : step s a = some s')
      (h : Trace step ok s' as s'') : Trace step ok s (a :: as) s''

namespace Trace
variable {step : σ → α → Option σ} {ok : σ → α → Prop} {s s' s'' : σ} {as bs : List α} {a : α}

/-- **what every allowed step keeps**, a run keeps -/
theorem invariant {P : σ → Prop} (h : Trace step ok s as s')
    (hkeep : ∀ s a s', P s → ok s a → a ∈ as → step s a = some s' → P s') (hs : P s) : P s' := by
  induction h with
  | nil => exact hs
  | @cons s s₁ s₂ a as hok hstep _ ih =>
    refine ih (fun t b t' ht hb hmem => hkeep t b t' ht hb (List.mem_cons_of_mem a hmem)) ?_
    exact hkeep s a s₁ hs hok List.mem_cons_self hstep

theorem append (h : Trace step ok s as s') (h' : Trace step ok s' bs s'') :
    Trace step ok s (as ++ bs) s'' := by
  induction h with
  | nil => exact h'
  | cons hok hstep _ ih => exact .cons hok hstep (ih h')

theorem snoc (h : Trace step ok s as s') (hok : ok s' a) (hstep : step s' a = some s'') :
    Trace step ok s (as ++ [a]) s'' := h.append (.cons hok hstep (.nil s''))

theorem mono {ok' : σ → α → Prop} (h : Trace step ok s as s') (hok : ∀ s a, ok s a → ok' s a) :
    Trace step ok' s as s' := by
  induction h with
  | nil => exact .nil _
  | cons hok' hstep _ ih => exact .cons (hok _ _ hok') hstep ih

end Trace

/-- the actions, one after the other, as long as each is allowed -/
def play (step : σ → α → Option σ) (ok : σ → α → Bool) : σ → List α → Option σ
  | s, [] => some s
  | s, a :: as => if ok s a then (step s a).bind fun s' => play step ok s' as else none

theorem Trace.of_play {step : σ → α → Option σ} {ok : σ → α → Bool} {ok' : σ → α → Prop}
    (hok : ∀ s a, ok s a = true → ok' s a) {as : List α} {s s' : σ}
    (h : play step ok s as = some s') : Trace step ok' s as s' := by
  induction as generalizing s with
  | nil =>
    cases h
    exact .nil _
  | cons a as ih =>
    rw [play] at h
    split at h
    · obtain ⟨s₁, hstep, hrest⟩ := Option.bind_eq_some_iff.mp h
      exact .cons (hok s a ‹_›) hstep (ih hrest)
    · cases h

end
