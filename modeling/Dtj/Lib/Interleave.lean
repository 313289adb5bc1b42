import Dtj.Lib.Code

/-!
# Calls that interleave freely, among events from outside

Tasks share a state; each takes its next action whenever that is possible, and the environment
changes the state in between.  What one task may count on is its rely relation, what it promises
is that its actions are in the rely relation of all others.

* `Code.Safe`           a call that keeps its promises, and ends with `Q`, as long as all others do;
* `safe_atom`, `Safe.bind`, `state_safe`   its rules, for calls with errors too;
* `Tasks`, `Steps`      the tasks in the order in which they were started, and what may happen;
* `Tasks.play`          a run that follows a list of moves;
* `Happens.safe`        **the rule of interleaving**: if each call is safe by itself, all are safe
                        together.
-/

namespace Conc

variable {σ κ ι α β : Type}

/-- what a task may count on -/
structure Contract (σ : Type) where
  inv : σ → Prop
  rely : Nat → σ → σ → Prop
  start : Nat → σ → Prop
  refl : ∀ i s, rely i s s
  trans : ∀ i s s' s'', rely i s s' → rely i s' s'' → rely i s s''
  fresh : ∀ i s s', start i s → rely i s s' → start i s'

/-- an action of the task `i` that is allowed -/
structure Contract.Allows (K : Contract σ) (i : Nat) (s s' : σ) : Prop where
  inv : K.inv s'
  rely : ∀ j, j ≠ i → K.rely j s s'

/-- a state that the others may lead to -/
structure Contract.Leads (K : Contract σ) (i : Nat) (s s' : σ) : Prop where
  inv : K.inv s'
  rely : K.rely i s s'

/-- the call of the task `i`, of whose actions only those with `C` are looked at, keeps the contract
and ends with `Q` -/
def Code.Safe (K : Contract σ) (C : σ → σ → Prop) (i : Nat) (Q : α → σ → Prop) :
    Code σ α → σ → Prop
  | .done a, s => ∀ s', K.Leads i s s' → Q a s'
  | .act step next, s => ∀ s₁, K.Leads i s s₁ → ∀ b s₂, step s₁ = some (b, s₂) → C s₁ s₂ →
    K.Allows i s₁ s₂ ∧ (next b).Safe K C i Q s₂

namespace Code
variable {K : Contract σ} {C : σ → σ → Prop} {i : Nat} {s s' : σ}

/-- the others go on -/
theorem Safe.leads {p : Code σ α} {Q : α → σ → Prop} (h : p.Safe K C i Q s)
    (hs : K.Leads i s s') : p.Safe K C i Q s' := by
  cases p with
  | done a => exact fun s'' h'' => h s'' ⟨h''.inv, K.trans _ _ _ _ hs.rely h''.rely⟩
  | act step next => exact fun s₁ h₁ => h s₁ ⟨h₁.inv, K.trans _ _ _ _ hs.rely h₁.rely⟩

theorem Safe.mono {p : Code σ α} {Q Q' : α → σ → Prop} (h : p.Safe K C i Q s)
    (hQ : ∀ a s, Q a s → Q' a s) : p.Safe K C i Q' s := by
  induction p generalizing s with
  | done a => exact fun s' h' => hQ a s' (h s' h')
  | act step next ih =>
    intro s₁ h₁ b s₂ hstep hC
    obtain ⟨hallow, hnext⟩ := h s₁ h₁ b s₂ hstep hC
    exact ⟨hallow, ih b hnext⟩

theorem safe_pure {a : α} {Q : α → σ → Prop} (h : ∀ s', K.Leads i s s' → Q a s') :
    (pure a : Code σ α).Safe K C i Q s := h

theorem safe_atom {step : σ → Option (β × σ)} {Q : β → σ → Prop}
    (h : ∀ s₁, K.Leads i s s₁ → ∀ b s₂, step s₁ = some (b, s₂) → C s₁ s₂ →
      K.Allows i s₁ s₂ ∧ ∀ s₃, K.Leads i s₂ s₃ → Q b s₃) : (atom step).Safe K C i Q s := h

theorem Safe.bind {p : Code σ α} {f : α → Code σ β} {Q : α → σ → Prop} {Q' : β → σ → Prop}
    (h : p.Safe K C i Q s) (hs : K.inv s) (hf : ∀ a s, K.inv s → Q a s → (f a).Safe K C i Q' s) :
    (p >>= f).Safe K C i Q' s := by
  induction p generalizing s with
  | done a => exact hf a s hs (h s ⟨hs, K.refl i s⟩)
  | act step next ih =>
    intro s₁ h₁ b s₂ hstep hC
    obtain ⟨hallow, hnext⟩ := h s₁ h₁ b s₂ hstep hC
    exact ⟨hallow, ih b hnext hallow.inv⟩

/-- the same for calls with errors -/
theorem Safe.bind_except {ε : Type} {p : ExceptT ε (Code σ) α} {f : α → ExceptT ε (Code σ) β}
    {Q : Except ε α → σ → Prop} {Q' : Except ε β → σ → Prop} (h : p.run.Safe K C i Q s)
    (hs : K.inv s) (hok : ∀ a s, K.inv s → Q (.ok a) s → (f a).run.Safe K C i Q' s)
    (herr : ∀ e s, K.inv s → Q (.error e) s → Q' (.error e) s) :
    (p >>= f).run.Safe K C i Q' s := by
  have herr' : ∀ e s, K.inv s → (∀ s', K.Leads i s s' → Q (.error e) s') →
      (pure (.error e) : Code σ (Except ε β)).Safe K C i Q' s :=
    fun e s _ hq s' hs' => herr e s' hs'.inv (hq s' hs')
  show (p.run >>= fun x => ExceptT.bindCont f x).Safe K C i Q' s
  generalize p.run = q at h
  induction q generalizing s with
  | done x =>
    cases x with
    | ok a => exact hok a s hs (h s ⟨hs, K.refl i s⟩)
    | error e => exact herr' e s hs h
  | act step next ih =>
    intro s₁ h₁ b s₂ hstep hC
    obtain ⟨hallow, hnext⟩ := h s₁ h₁ b s₂ hstep hC
    exact ⟨hallow, ih b hallow.inv hnext⟩

/-- one action of a call with errors, and the rest -/
theorem atom_safe {ε : Type} {step : σ → Option (Except ε α × σ)} {k : α → ExceptT ε (Code σ) β}
    {Q : Except ε β → σ → Prop} (h : ∀ s₁, K.Leads i s s₁ → ∀ x s₂, step s₁ = some (x, s₂) →
      C s₁ s₂ → K.Allows i s₁ s₂ ∧ match x with
        | .ok a => (k a).run.Safe K C i Q s₂
        | .error e => ∀ s₃, K.Leads i s₂ s₃ → Q (.error e) s₃) :
    (ExceptT.mk (atom step) >>= k).run.Safe K C i Q s := by
  intro s₁ h₁ x s₂ hstep hC
  obtain ⟨hallow, hnext⟩ := h s₁ h₁ x s₂ hstep hC
  cases x with
  | ok a => exact ⟨hallow, hnext⟩
  | error e => exact ⟨hallow, hnext⟩

variable {ε : Type} {Q : Except ε β → σ → Prop}

theorem state_safe {k : σ → ExceptT ε (Code σ) β}
    (h : ∀ s₁, K.Leads i s s₁ → (k s₁).run.Safe K C i Q s₁) :
    (state >>= k).run.Safe K C i Q s := by
  refine atom_safe fun s₁ h₁ x s₂ hstep _ => ?_
  cases hstep
  exact ⟨⟨h₁.inv, fun j _ => K.refl j s₁⟩, h s₁ h₁⟩

theorem change_safe {f : σ → σ} {k : Unit → ExceptT ε (Code σ) β}
    (h : ∀ s₁, K.Leads i s s₁ → C s₁ (f s₁) →
      K.Allows i s₁ (f s₁) ∧ (k ()).run.Safe K C i Q (f s₁)) :
    (change f >>= k).run.Safe K C i Q s := by
  refine atom_safe fun s₁ h₁ x s₂ hstep hC => ?_
  cases hstep
  exact h s₁ h₁ hC

theorem checked_safe {x : Except ε α} {k : α → ExceptT ε (Code σ) β}
    (hok : ∀ a, x = .ok a → (k a).run.Safe K C i Q s)
    (herr : ∀ e, x = .error e → ∀ s', K.Leads i s s' → Q (.error e) s') :
    (checked x >>= k).run.Safe K C i Q s := by
  cases x with
  | ok a => exact hok a rfl
  | error e => exact herr e rfl

end Code

/-- the state, and the calls that were made, each with the code that is left of it -/
structure Tasks (σ κ α : Type) : Type 1 where
  state : σ
  calls : List (κ × Code σ α)

def Tasks.start (s : σ) : Tasks σ κ α := ⟨s, []⟩

section
variable (body : Nat → κ → Code σ α) (env : ι → σ → Option σ) (C : σ → σ → Prop)

/-- a call is made, a task takes an action with `C`, or something happens outside -/
inductive Steps (g : Tasks σ κ α) : Tasks σ κ α → Prop
  | call (c : κ) : Steps g ⟨g.state, g.calls ++ [(c, body g.calls.length c)]⟩
  | act {i : Nat} {c : κ} {β : Type} {step : σ → Option (β × σ)} {next : β → Code σ α} {b : β}
      {s : σ} (hc : g.calls[i]? = some (c, .act step next)) (hs : step g.state = some (b, s))
      (hC : C g.state s) : Steps g ⟨s, g.calls.set i (c, next b)⟩
  | env {e : ι} {s : σ} (h : env e g.state = some s) : Steps g ⟨s, g.calls⟩

inductive Happens (s₀ : σ) : Tasks σ κ α → Prop
  | start : Happens s₀ (.start s₀)
  | step {g g' : Tasks σ κ α} (h : Happens s₀ g) (hg : Steps body env C g g') : Happens s₀ g'

end

/-- what is to happen next -/
inductive Move (κ ι : Type) where
  | call (c : κ)
  | act (i : Nat)
  | env (e : ι)

section
variable (body : Nat → κ → Code σ α) (env : ι → σ → Option σ) (ok : σ → σ → Bool)

def Tasks.move (g : Tasks σ κ α) : Move κ ι → Option (Tasks σ κ α)
  | .call c => some ⟨g.state, g.calls ++ [(c, body g.calls.length c)]⟩
  | .act i =>
    match g.calls[i]? with
    | some (c, .act step next) =>
      match step g.state with
      | some (b, s) => if ok g.state s then some ⟨s, g.calls.set i (c, next b)⟩ else none
      | none => none
    | _ => none
  | .env e => (env e g.state).map fun s => ⟨s, g.calls⟩

def Tasks.play : List (Move κ ι) → Tasks σ κ α → Option (Tasks σ κ α)
  | [], g => some g
  | m :: ms, g =>
    match g.move body env ok m with
    | some g' => Tasks.play ms g'
    | none => none

end

section
variable {body : Nat → κ → Code σ α} {env : ι → σ → Option σ} {C : σ → σ → Prop}
  {ok : σ → σ → Bool}

theorem Tasks.move_steps {g g' : Tasks σ κ α} {m : Move κ ι} (hC : ∀ s s', ok s s' = true → C s s')
    (h : g.move body env ok m = some g') : Steps body env C g g' := by
  cases m with
  | call c =>
    cases h
    exact .call c
  | act i =>
    simp only [Tasks.move] at h
    split at h
    · rename_i c β step next hc
      split at h
      · rename_i b s hs
        split at h
        · rename_i hok
          cases h
          exact .act hc hs (hC _ _ hok)
        · cases h
      · cases h
    · cases h
  | env e =>
    obtain ⟨s, hs, rfl⟩ := Option.map_eq_some_iff.mp h
    exact .env hs

theorem Tasks.play_happens {s₀ : σ} {g g' : Tasks σ κ α} {ms : List (Move κ ι)}
    (hC : ∀ s s', ok s s' = true → C s s') (hg : Happens body env C s₀ g)
    (h : Tasks.play body env ok ms g = some g') : Happens body env C s₀ g' := by
  induction ms generalizing g with
  | nil =>
    cases h
    exact hg
  | cons m ms ih =>
    rw [Tasks.play] at h
    split at h
    · rename_i g₁ hm
      exact ih (hg.step (Tasks.move_steps hC hm)) h
    · cases h

end

/-! ## the rule of interleaving -/

section
variable {body : Nat → κ → Code σ α} {env : ι → σ → Option σ} {C : σ → σ → Prop} {s₀ : σ}
  {K : Contract σ} {Q : Nat → κ → α → σ → Prop}

/-- all tasks are safe, and those that will still be made can start -/
structure Together (K : Contract σ) (C : σ → σ → Prop) (Q : Nat → κ → α → σ → Prop)
    (g : Tasks σ κ α) : Prop where
  inv : K.inv g.state
  safe : ∀ (i : Nat) (c : κ) (p : Code σ α), g.calls[i]? = some (c, p) → p.Safe K C i (Q i c) g.state
  fresh : ∀ i, g.calls.length ≤ i → K.start i g.state

theorem Happens.safe {g : Tasks σ κ α} (h : Happens body env C s₀ g) (hinv : K.inv s₀)
    (hstart : ∀ i, K.start i s₀)
    (hbody : ∀ i c s, K.inv s → K.start i s → (body i c).Safe K C i (Q i c) s)
    (henv : ∀ e s s', K.inv s → env e s = some s' → K.inv s' ∧ ∀ i, K.rely i s s') :
    Together K C Q g := by
  induction h with
  | start => exact ⟨hinv, fun i c p hp => (by cases hp), fun i _ => hstart i⟩
  | @step g g' _ hg ih =>
    cases hg with
    | call c =>
      refine ⟨ih.inv, fun i c' p hp => ?_, fun i hi => ih.fresh i ?_⟩
      · rcases Nat.lt_trichotomy i g.calls.length with hlt | rfl | hgt
        · exact ih.safe i c' p ((List.getElem?_append_left hlt).symm.trans hp)
        · have hnew : (g.calls ++ [(c, body g.calls.length c)])[g.calls.length]?
              = some (c, body g.calls.length c) := List.getElem?_concat_length
          cases hnew.symm.trans hp
          exact hbody _ c _ ih.inv (ih.fresh _ (le_refl _))
        · have hlen : (g.calls ++ [(c, body g.calls.length c)]).length ≤ i := by
            rw [List.length_append, List.length_singleton]
            omega
          cases (List.getElem?_eq_none hlen).symm.trans hp
      · have hlen : (g.calls ++ [(c, body g.calls.length c)]).length ≤ i := hi
        rw [List.length_append, List.length_singleton] at hlen
        omega
    | @act i c β act next b s hc hs hC =>
      obtain ⟨hallow, hnext⟩ := ih.safe i c _ hc g.state ⟨ih.inv, K.refl i _⟩ b s hs hC
      obtain ⟨hi, -⟩ := List.getElem?_eq_some_iff.mp hc
      refine ⟨hallow.inv, fun j c' p hp => ?_, fun j hj => ?_⟩
      · by_cases hji : j = i
        · subst hji
          rw [List.getElem?_set_self hi] at hp
          cases hp
          exact hnext
        · rw [List.getElem?_set_ne (Ne.symm hji)] at hp
          exact (ih.safe j c' p hp).leads ⟨hallow.inv, hallow.rely j hji⟩
      · have hlen : (g.calls.set i (c, next b)).length ≤ j := hj
        rw [List.length_set] at hlen
        exact K.fresh j _ _ (ih.fresh j hlen) (hallow.rely j (by omega))
    | env h =>
      obtain ⟨hinv', hrely⟩ := henv _ _ _ ih.inv h
      exact ⟨hinv', fun j c p hp => (ih.safe j c p hp).leads ⟨hinv', hrely j⟩,
        fun j hj => K.fresh j _ _ (ih.fresh j hj) (hrely j)⟩

/-- what a call that is over leaves -/
theorem Together.result {g : Tasks σ κ α} (h : Together K C Q g) {i : Nat} {c : κ} {a : α}
    (hc : g.calls[i]? = some (c, .done a)) : Q i c a g.state :=
  h.safe i c _ hc g.state ⟨h.inv, K.refl i _⟩

end

end Conc
