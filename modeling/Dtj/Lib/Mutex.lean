import Dtj.Lib.Code

/-!
# Calls that hold a lock from their first action to their last

The calls of several threads share a state.  Every call takes one lock before its first action and
gives it back with its result.

* `Threads`, `Step`       the calls that are waiting, inside or back, and the turns they take;
* `Reached`               what turns lead to, if a call `c` only takes the lock on a state `s` with
                          `C s c`;
* `reached_guarded`       **the rule of the lock**: what each call brings back when it is left alone
                          holds in every interleaving while the lock is free.
-/

namespace Conc

section
variable {σ κ α : Type}

/-- where a thread is in its call -/
inductive Caller (σ κ α : Type) : Type 1 where
  | waiting (c : κ)
  | inside (c : κ) (rest : Code σ α)
  | back (c : κ) (a : α)

/-- the state, who holds the lock, and the threads in the order in which they were started -/
structure Threads (σ κ α : Type) : Type 1 where
  state : σ
  holder : Option Nat
  callers : List (Caller σ κ α)

def Threads.start (s : σ) : Threads σ κ α := ⟨s, none, []⟩

/-- the call that a thread is in, or is back from -/
def Caller.call : Caller σ κ α → κ
  | waiting c => c
  | inside c _ => c
  | back c _ => c

/-- a turn of the schedule: a call is started, or a thread goes on -/
inductive Turn (κ : Type) where
  | call (c : κ)
  | lock (i : Nat)
  | act (i : Nat)
  | unlock (i : Nat)

variable (body : Nat → κ → Code σ α) (C : σ → κ → Prop)

/-- what a turn does; `none` if it is not possible -/
def turn (g : Threads σ κ α) : Turn κ → Option (Threads σ κ α)
  | .call c => some { g with callers := g.callers ++ [.waiting c] }
  | .lock i =>
    match g.holder, g.callers[i]? with
    | none, some (.waiting c) =>
      some ⟨g.state, some i, g.callers.set i (.inside c (body i c))⟩
    | _, _ => none
  | .act i =>
    match g.callers[i]? with
    | some (.inside c (.act step next)) =>
      (step g.state).map fun x => ⟨x.2, g.holder, g.callers.set i (.inside c (next x.1))⟩
    | _ => none
  | .unlock i =>
    match g.callers[i]? with
    | some (.inside c (.done a)) => some ⟨g.state, none, g.callers.set i (.back c a)⟩
    | _ => none

/-- a turn is taken, and a call that takes the lock finds a state that meets `C` -/
inductive Step (g : Threads σ κ α) : Threads σ κ α → Prop
  | call (c : κ) : Step g { g with callers := g.callers ++ [.waiting c] }
  | lock {i : Nat} {c : κ} (hfree : g.holder = none) (hc : g.callers[i]? = some (.waiting c))
      (hC : C g.state c) : Step g ⟨g.state, some i, g.callers.set i (.inside c (body i c))⟩
  | act {i : Nat} {c : κ} {β : Type} {step : σ → Option (β × σ)} {next : β → Code σ α} {b : β}
      {s : σ} (hc : g.callers[i]? = some (.inside c (.act step next)))
      (hs : step g.state = some (b, s)) :
      Step g ⟨s, g.holder, g.callers.set i (.inside c (next b))⟩
  | unlock {i : Nat} {c : κ} {a : α} (hc : g.callers[i]? = some (.inside c (.done a))) :
      Step g ⟨g.state, none, g.callers.set i (.back c a)⟩

/-- the threads after some turns -/
inductive Reached (s₀ : σ) : Threads σ κ α → Prop
  | start : Reached s₀ (.start s₀)
  | step {g g' : Threads σ κ α} (h : Reached s₀ g) (hg : Step body C g g') : Reached s₀ g'

/-- what a list of turns leads to; a call `c` takes the lock on a state `s` with `ok s c` -/
def play (body : Nat → κ → Code σ α) (ok : σ → κ → Bool) :
    Threads σ κ α → List (Turn κ) → Option (Threads σ κ α)
  | g, [] => some g
  | g, t :: ts =>
    match t with
    | .lock i =>
      match g.callers[i]? with
      | some x =>
        if ok g.state x.call then (turn body g t).bind fun g => play body ok g ts else none
      | none => none
    | _ => (turn body g t).bind fun g => play body ok g ts

/-- a call that is back -/
structure Returned (κ α : Type) where
  caller : Nat
  call : κ
  result : α

/-! ## the rule of the lock -/

section
variable {body : Nat → κ → Code σ α} {C : σ → κ → Prop} {s₀ : σ}

theorem turn_step {g g' : Threads σ κ α} {t : Turn κ} (h : turn body g t = some g')
    (hC : ∀ i c, t = .lock i → g.callers[i]? = some (.waiting c) → C g.state c) :
    Step body C g g' := by
  cases t with
  | call c =>
    cases h
    exact .call c
  | lock i =>
    simp only [turn] at h
    split at h
    · rename_i c hfree hc
      cases h
      exact .lock hfree hc (hC i c rfl hc)
    · cases h
  | act i =>
    simp only [turn] at h
    split at h
    · rename_i c β step next hc
      obtain ⟨x, hx, rfl⟩ := Option.map_eq_some_iff.mp h
      exact .act hc hx
    · cases h
  | unlock i =>
    simp only [turn] at h
    split at h
    · rename_i c a hc
      cases h
      exact .unlock hc
    · cases h

theorem play_reached {ok : σ → κ → Bool} {g g' : Threads σ κ α} {ts : List (Turn κ)}
    (h : play body ok g ts = some g') (hg : Reached body (fun s c => ok s c = true) s₀ g) :
    Reached body (fun s c => ok s c = true) s₀ g' := by
  induction ts generalizing g with
  | nil =>
    cases h
    exact hg
  | cons t ts ih =>
    have hgo : ∀ h' : (turn body g t).bind (fun g => play body ok g ts) = some g',
        (∀ i c, t = .lock i → g.callers[i]? = some (.waiting c) → ok g.state c = true) →
        Reached body (fun s c => ok s c = true) s₀ g' := by
      intro h' hC
      obtain ⟨g₁, hg₁, h'⟩ := Option.bind_eq_some_iff.mp h'
      exact ih h' (hg.step (turn_step hg₁ hC))
    cases t with
    | lock i =>
      rw [play] at h
      split at h
      · rename_i x hx
        split at h
        · rename_i hok
          refine hgo h fun j c hj hc => ?_
          cases hj
          cases hx.symm.trans hc
          exact hok
        · cases h
      · cases h
    | call c => exact hgo h fun i c hi => by cases hi
    | act i => exact hgo h fun i c hi => by cases hi
    | unlock i => exact hgo h fun i c hi => by cases hi

/-- the calls `xs` are back: while the lock is free the state has `J`, and the call that is inside
will leave it so -/
structure Guarded (I J : List (Returned κ α) → σ → Prop) (g : Threads σ κ α)
    (xs : List (Returned κ α)) : Prop where
  free : g.holder = none → J xs g.state
  held : ∀ i, g.holder = some i → ∃ c p, g.callers[i]? = some (.inside c p)
  inside : ∀ i c p, g.callers[i]? = some (.inside c p) → g.holder = some i ∧ I xs g.state ∧
    p.Keeps (I xs) (fun a s => J (xs ++ [⟨i, c, a⟩]) s) g.state
  back : ∀ x, x ∈ xs ↔ g.callers[x.caller]? = some (.back x.call x.result)

variable {I J : List (Returned κ α) → σ → Prop}

theorem Guarded.now {g : Threads σ κ α} {xs : List (Returned κ α)} (h : Guarded I J g xs)
    (hJ : ∀ xs s, J xs s → I xs s) : I xs g.state := by
  cases hh : g.holder with
  | none => exact hJ _ _ (h.free hh)
  | some i =>
    obtain ⟨c, p, hp⟩ := h.held i hh
    exact (h.inside i c p hp).2.1

theorem set_self {g : Threads σ κ α} {i : Nat} {x y : Caller σ κ α} (h : g.callers[i]? = some x) :
    (g.callers.set i y)[i]? = some y := by
  obtain ⟨hi, _⟩ := List.getElem?_eq_some_iff.mp h
  rw [List.getElem?_set_self hi]

theorem set_other {g : Threads σ κ α} {i j : Nat} {y : Caller σ κ α} (h : j ≠ i) :
    (g.callers.set i y)[j]? = g.callers[j]? := List.getElem?_set_ne (Ne.symm h)

theorem Guarded.step {g g' : Threads σ κ α} {xs : List (Returned κ α)} (h : Guarded I J g xs)
    (hJ : ∀ xs s, J xs s → I xs s)
    (enter : ∀ xs s i c, J xs s → C s c → (∀ x ∈ xs, x.caller ≠ i) →
      (body i c).Keeps (I xs) (fun a s => J (xs ++ [⟨i, c, a⟩]) s) s)
    (hg : Step body C g g') : ∃ xs', Guarded I J g' xs' := by
  cases hg with
  | call c =>
    -- a thread at the end of the list: the others stay where they are
    have hold : ∀ i : Nat, (g.callers ++ [Caller.waiting c])[i]? = g.callers[i]? ∨
        (g.callers ++ [Caller.waiting c])[i]? = some (Caller.waiting c) ∧ g.callers[i]? = none := by
      intro i
      by_cases hi : i < g.callers.length
      · exact .inl (List.getElem?_append_left hi)
      · by_cases hi' : i = g.callers.length
        · exact .inr ⟨by rw [hi', List.getElem?_concat_length], List.getElem?_eq_none (by omega)⟩
        · have hlen : (g.callers ++ [Caller.waiting c]).length ≤ i := by
            rw [List.length_append, List.length_singleton]
            omega
          exact .inl ((List.getElem?_eq_none hlen).trans (List.getElem?_eq_none (by omega)).symm)
    refine ⟨xs, h.free, fun i hi => ?_, fun i c' p hp => ?_, fun x => ?_⟩
    · obtain ⟨c', p, hp⟩ := h.held i hi
      refine ⟨c', p, ?_⟩
      rcases hold i with he | he
      · exact he.trans hp
      · rw [hp] at he
        cases he.2
    · rcases hold i with he | he
      · exact h.inside i c' p (he.symm.trans hp)
      · cases he.1.symm.trans hp
    · rw [h.back x]
      rcases hold x.caller with he | he
      · rw [← he]
      · constructor
        · intro hx
          cases he.2.symm.trans hx
        · intro hx
          cases he.1.symm.trans hx
  | @lock i c hfree hc hC =>
    have hJs := h.free hfree
    have hi : ∀ x ∈ xs, x.caller ≠ i := by
      intro x hx hxi
      have hb := (h.back x).mp hx
      rw [hxi] at hb
      cases hb.symm.trans hc
    refine ⟨xs, fun hn => (by cases hn), fun j hj => ?_, fun j c' p hp => ?_, fun x => ?_⟩
    · cases hj
      exact ⟨c, body i c, set_self hc⟩
    · by_cases hji : j = i
      · subst hji
        cases (set_self hc).symm.trans hp
        exact ⟨rfl, hJ _ _ hJs, enter xs g.state j c hJs hC hi⟩
      · have hin := (h.inside j c' p ((set_other hji).symm.trans hp)).1
        rw [hfree] at hin
        cases hin
    · rw [h.back x]
      by_cases hxi : x.caller = i
      · rw [hxi, set_self hc, hc]
        constructor <;> intro hx <;> cases hx
      · rw [set_other hxi]
  | @act i c β act next b s hc hs =>
    obtain ⟨hi, -, hk⟩ := h.inside i c _ hc
    obtain ⟨hI, hk⟩ := hk b s hs
    refine ⟨xs, fun hn => ?_, fun j hj => ?_, fun j c' p hp => ?_, fun x => ?_⟩
    · rw [hi] at hn
      cases hn
    · cases hi.symm.trans hj
      exact ⟨c, next b, set_self hc⟩
    · by_cases hji : j = i
      · subst hji
        cases (set_self hc).symm.trans hp
        exact ⟨hi, hI, hk⟩
      · have hin := (h.inside j c' p ((set_other hji).symm.trans hp)).1
        cases hi.symm.trans hin
        exact absurd rfl hji
    · rw [h.back x]
      by_cases hxi : x.caller = i
      · rw [hxi, set_self hc, hc]
        constructor <;> intro hx <;> cases hx
      · rw [set_other hxi]
  | @unlock i c a hc =>
    obtain ⟨hi, -, hk⟩ := h.inside i c _ hc
    have hback : J (xs ++ [⟨i, c, a⟩]) g.state := hk
    refine ⟨xs ++ [⟨i, c, a⟩], fun _ => hback, fun j hj => (by cases hj), fun j c' p hp => ?_,
      fun x => ?_⟩
    · by_cases hji : j = i
      · subst hji
        cases (set_self hc).symm.trans hp
      · have hin := (h.inside j c' p ((set_other hji).symm.trans hp)).1
        cases hi.symm.trans hin
        exact absurd rfl hji
    · rw [List.mem_append, List.mem_singleton, h.back x]
      by_cases hxi : x.caller = i
      · rw [hxi, set_self hc, hc]
        obtain ⟨j, c', a'⟩ := x
        constructor
        · rintro (hx | hx)
          · cases hx
          · cases hx
            rfl
        · intro hx
          cases hx
          cases hxi
          exact .inr rfl
      · rw [set_other hxi]
        constructor
        · rintro (hx | hx)
          · exact hx
          · exact absurd (congrArg Returned.caller hx) hxi
        · exact .inl

/-- **What holds while the lock is free**: if `J` holds at the start, and each call that may take
the lock brings `J` back when it is left alone, then every interleaving keeps it; the calls that
are back are counted in the order in which they took the lock -/
theorem reached_guarded {g : Threads σ κ α} (h : Reached body C s₀ g) (start : J [] s₀)
    (hJ : ∀ xs s, J xs s → I xs s)
    (enter : ∀ xs s i c, J xs s → C s c → (∀ x ∈ xs, x.caller ≠ i) →
      (body i c).Keeps (I xs) (fun a s => J (xs ++ [⟨i, c, a⟩]) s) s) :
    ∃ xs, Guarded I J g xs := by
  induction h with
  | start =>
    refine ⟨[], fun _ => start, fun i hi => (by cases hi), fun i c p hp => ?_, fun x => ?_⟩
    · cases hp
    · constructor <;> intro hx <;> cases hx
  | step h hg ih =>
    obtain ⟨xs, hx⟩ := ih
    exact hx.step hJ enter hg

end
end

end Conc
