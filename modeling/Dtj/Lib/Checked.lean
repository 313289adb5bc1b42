import Mathlib.Tactic

/-!
# Checked runs: errors, panics and loops that must end

A call of a systems program ends with a value, with an error that its type names, or with a
panic (overflow, an index or a slice out of range, an unwrapped failure).  A loop may also run
for ever.  Here the four ends are kept apart, so that "no panic" and "it ends" are statements
about the value of a function:

* `Res ε α`      a call without state; `fail e` is its error, `crash` its panic;
* `Prog σ ε α`   a call on a state `σ`, which keeps its changes when the call fails;
* `add64`, `sub64`, `incr32`, `incr64`, `slice`, `idx`   the operations that can panic;
* `Safe`, `Ends`   no panic and no endless loop, with what holds at the end; `bind` rules for both;
* `forRange`     a counted loop, `loop` a loop that asks after every round whether to go on;
* `loop_of_decreasing`   a loop whose rounds decrease a measure ends before its fuel does.
-/

namespace Checked

/-- how a call ends without a value -/
inductive Abort (ε : Type) where
  | error (e : ε)
  | panic
  | diverge
deriving DecidableEq, Repr

abbrev Res (ε α : Type) := Except (Abort ε) α

abbrev Prog (σ ε α : Type) := EStateM (Abort ε) σ α

section
variable {σ ε α β : Type}

def fail (e : ε) : Res ε α := .error (.error e)

def crash : Res ε α := .error .panic

/-- a computation that cannot panic, as a call -/
def lift : Except ε α → Res ε α
  | .ok a => .ok a
  | .error e => fail e

@[simp] theorem lift_ok (a : α) : lift (.ok a : Except ε α) = .ok a := rfl
@[simp] theorem lift_error (e : ε) : lift (.error e : Except ε α) = fail e := rfl

theorem lift_bind (x : Except ε α) (f : α → Except ε β) :
    lift (x >>= f) = lift x >>= fun a => lift (f a) := by
  cases x <;> rfl

theorem lift_eq_ok {x : Except ε α} {a : α} : lift x = .ok a ↔ x = .ok a := by
  cases x <;> simp [fail]

theorem lift_eq_fail {x : Except ε α} {e : ε} : lift x = fail e ↔ x = .error e := by
  cases x <;> simp [fail]

theorem lift_ne_panic (x : Except ε α) : lift x ≠ .error .panic := by
  cases x <;> simp [fail]

theorem lift_ne_diverge (x : Except ε α) : lift x ≠ .error .diverge := by
  cases x <;> simp [fail]

@[simp] theorem ok_bind (a : α) (f : α → Except ε β) : (Except.ok a >>= f) = f a := rfl
@[simp] theorem error_bind (e : ε) (f : α → Except ε β) :
    ((.error e : Except ε α) >>= f) = .error e := rfl
@[simp] theorem fail_bind (e : ε) (f : α → Res ε β) : (fail e >>= f) = fail e := rfl
@[simp] theorem crash_bind (f : α → Res ε β) : (crash (ε := ε) >>= f) = crash := rfl

/-- what a call that returned a value did: its first part returned one, and then the rest -/
theorem bind_eq_ok {x : Except ε α} {f : α → Except ε β} {b : β} :
    x >>= f = .ok b ↔ ∃ a, x = .ok a ∧ f a = .ok b := by
  cases x with
  | error e =>
    constructor
    · intro h; cases h
    · rintro ⟨a, h, _⟩; cases h
  | ok a =>
    constructor
    · intro h; exact ⟨a, rfl, h⟩
    · rintro ⟨_, h, h'⟩; cases h; exact h'

/-- the call ends with a value that satisfies `P`, or with an error of its type -/
def Safe (P : α → Prop) : Res ε α → Prop
  | .ok a => P a
  | .error (.error _) => True
  | .error _ => False

theorem Safe.bind {P : α → Prop} {Q : β → Prop} {x : Res ε α} {f : α → Res ε β} (hx : Safe P x)
    (hf : ∀ a, P a → Safe Q (f a)) : Safe Q (x >>= f) := by
  cases x with
  | ok a => exact hf a hx
  | error e => cases e <;> exact hx

theorem Safe.mono {P Q : α → Prop} {x : Res ε α} (hx : Safe P x) (h : ∀ a, P a → Q a) :
    Safe Q x := by
  cases x with
  | ok a => exact h a hx
  | error e => cases e <;> exact hx

theorem safe_ite {P : α → Prop} {c : Prop} [Decidable c] {x y : Res ε α} (hx : c → Safe P x)
    (hy : ¬ c → Safe P y) : Safe P (if c then x else y) := by
  split
  · exact hx ‹_›
  · exact hy ‹_›

theorem safe_lift {P : α → Prop} {x : Except ε α} (h : ∀ a, x = .ok a → P a) :
    Safe P (lift x) := by
  cases x with
  | ok a => exact h a rfl
  | error e => trivial

/-! ## operations that can panic -/

/-- `a + b` on `usize` or `u64` (64 bits both) -/
def add64 (a b : Nat) : Res ε Nat := if a + b < 2^64 then .ok (a + b) else crash

def sub64 (a b : Nat) : Res ε Nat := if b ≤ a then .ok (a - b) else crash

def incr32 (x : UInt32) : Res ε UInt32 := if x.toNat + 1 < 2^32 then .ok (x + 1) else crash

def incr64 (x : UInt64) : Res ε UInt64 := if x.toNat + 1 < 2^64 then .ok (x + 1) else crash

/-- `buf[a..b]` -/
def slice (buf : List α) (a b : Nat) : Res ε (List α) :=
  if a ≤ b ∧ b ≤ buf.length then .ok ((buf.drop a).take (b - a)) else crash

/-- `buf[i]` -/
def idx (buf : List α) (i : Nat) : Res ε α :=
  match buf[i]? with
  | some a => .ok a
  | none => crash

theorem add64_eq {a b : Nat} (h : a + b < 2^64) : (add64 a b : Res ε Nat) = .ok (a + b) :=
  if_pos h

theorem sub64_eq {a b : Nat} (h : b ≤ a) : (sub64 a b : Res ε Nat) = .ok (a - b) := if_pos h

theorem incr32_eq {x : UInt32} (h : x.toNat + 1 < 2^32) : (incr32 x : Res ε UInt32) = .ok (x + 1) :=
  if_pos h

theorem incr64_eq {x : UInt64} (h : x.toNat + 1 < 2^64) : (incr64 x : Res ε UInt64) = .ok (x + 1) :=
  if_pos h

theorem incr64_ok {x y : UInt64} (h : (incr64 x : Res ε UInt64) = .ok y) :
    y.toNat = x.toNat + 1 := by
  unfold incr64 at h
  split at h
  · rename_i hlt
    cases h
    rw [UInt64.toNat_add, show (1 : UInt64).toNat = 1 from rfl, Nat.mod_eq_of_lt hlt]
  · cases h

theorem slice_eq {buf : List α} {a b : Nat} (h : a ≤ b) (h' : b ≤ buf.length) :
    (slice buf a b : Res ε (List α)) = .ok ((buf.drop a).take (b - a)) :=
  if_pos ⟨h, h'⟩

theorem idx_eq {buf : List α} {i : Nat} (h : i < buf.length) :
    (idx buf i : Res ε α) = .ok (buf[i]) := by
  unfold idx
  rw [List.getElem?_eq_getElem h]

/-! ## calls on a state -/

/-- a call without state, inside one with state -/
def Prog.of (r : Res ε α) : Prog σ ε α := fun s =>
  match r with
  | .ok a => .ok a s
  | .error e => .error e s

@[simp] theorem Prog.of_ok (a : α) (s : σ) : (Prog.of (.ok a : Res ε α)).run s = .ok a s := rfl
@[simp] theorem Prog.of_error (e : Abort ε) (s : σ) :
    (Prog.of (.error e : Res ε α)).run s = .error e s := rfl
@[simp] theorem Prog.of_fail (e : ε) (s : σ) :
    (Prog.of (fail e : Res ε α)).run s = .error (.error e) s := rfl
@[simp] theorem Prog.of_crash (s : σ) :
    (Prog.of (crash : Res ε α)).run s = .error .panic s := rfl

@[simp] theorem run_throw (e : Abort ε) (s : σ) : (throw e : Prog σ ε α).run s = .error e s := rfl

/-- a result, with its value changed -/
def mapResult (f : α → β) : EStateM.Result (Abort ε) σ α → EStateM.Result (Abort ε) σ β
  | .ok a s => .ok (f a) s
  | .error e s => .error e s

theorem run_map (f : α → β) (p : Prog σ ε α) (s : σ) :
    (f <$> p).run s = mapResult f (p.run s) := by
  simp only [Functor.map, EStateM.map, EStateM.run]
  cases p s <;> rfl

/-- a call that succeeds, part by part -/
theorem run_bind_ok {x : Prog σ ε α} {f : α → Prog σ ε β} {s s' : σ} {b : β} :
    (x >>= f).run s = .ok b s' ↔ ∃ a s₁, x.run s = .ok a s₁ ∧ (f a).run s₁ = .ok b s' := by
  rw [EStateM.run_bind]
  constructor
  · intro h
    cases hx : x.run s with
    | ok a s₁ =>
      rw [hx] at h
      exact ⟨a, s₁, rfl, h⟩
    | error e s₁ =>
      rw [hx] at h
      cases h
  · rintro ⟨a, s₁, hx, hf⟩
    rw [hx]
    exact hf

theorem run_ite (c : Prop) [Decidable c] (p q : Prog σ ε α) (s : σ) :
    (if c then p else q).run s = if c then p.run s else q.run s := by
  split <;> rfl

/-- the state that a call left -/
def stateOf : EStateM.Result (Abort ε) σ α → σ
  | .ok _ s => s
  | .error _ s => s

/-- how a call ended, without the state that it left -/
def resOf : EStateM.Result (Abort ε) σ α → Res ε α
  | .ok a _ => .ok a
  | .error e _ => .error e

/-- the value and the state of a call that succeeded -/
def succeeded : EStateM.Result (Abort ε) σ α → Option (α × σ)
  | .ok a s => some (a, s)
  | .error _ _ => none

theorem succeeded_some {r : EStateM.Result (Abort ε) σ α} {a : α} {s : σ}
    (h : succeeded r = some (a, s)) : r = .ok a s := by
  cases r with
  | ok a' s' =>
    cases h
    rfl
  | error e s' => cases h

/-- the call left a state that satisfies `Q`, however it ended; and it ended with a value or with
an error of its type, if `room` holds -/
def Ends (room : Prop) (Q : σ → Prop) : EStateM.Result (Abort ε) σ α → Prop
  | .ok _ s => Q s
  | .error (.error _) s => Q s
  | .error _ s => Q s ∧ ¬ room

section
variable {room : Prop} {Q R : σ → Prop} {r : EStateM.Result (Abort ε) σ α}

theorem Ends.mono {room' : Prop} (h : Ends room Q r) (hr : room' → room) (hq : ∀ s, Q s → R s) :
    Ends room' R r := by
  cases r with
  | ok a s => exact hq s h
  | error e s =>
    cases e with
    | error e => exact hq s h
    | panic => exact ⟨hq s h.1, fun h' => h.2 (hr h')⟩
    | diverge => exact ⟨hq s h.1, fun h' => h.2 (hr h')⟩

theorem Ends.bind {x : Prog σ ε α} {f : α → Prog σ ε β} {s : σ} (hx : Ends room Q (x.run s))
    (hq : ∀ s', Q s' → R s')
    (hf : ∀ a s', x.run s = .ok a s' → Q s' → Ends room R ((f a).run s')) :
    Ends room R ((x >>= f).run s) := by
  rw [EStateM.run_bind]
  cases hr : x.run s with
  | ok a s' =>
    rw [hr] at hx
    exact hf a s' hr hx
  | error e s' =>
    rw [hr] at hx
    cases e with
    | error e => exact hq s' hx
    | panic => exact ⟨hq s' hx.1, hx.2⟩
    | diverge => exact ⟨hq s' hx.1, hx.2⟩

theorem Ends.map (h : Ends room Q r) (f : α → β) : Ends room Q (mapResult f r) := by
  cases r with
  | ok a s => exact h
  | error e s => cases e <;> exact h

theorem Ends.left (h : Ends room Q r) : Q (stateOf r) := by
  cases r with
  | ok a s => exact h
  | error e s =>
    cases e with
    | error e => exact h
    | panic => exact h.1
    | diverge => exact h.1

end

/-! ## loops -/

/-- `for _ in 0..n`, the variables of the body as a state -/
def forRange (body : σ → Res ε σ) : Nat → σ → Res ε σ
  | 0, s => .ok s
  | n + 1, s => body s >>= forRange body n

/-- a loop whose body says whether to go on, for at most the given number of rounds -/
def loop (body : Prog σ ε Bool) : Nat → Prog σ ε Unit
  | 0 => throw .diverge
  | n + 1 => do
      if ← body then loop body n

theorem loop_succ (body : Prog σ ε Bool) (n : Nat) (s : σ) :
    (loop body (n + 1)).run s = match body.run s with
      | .ok true s' => (loop body n).run s'
      | .ok false s' => .ok () s'
      | .error e s' => .error e s' := by
  rw [loop, EStateM.run_bind]
  cases body.run s with
  | error e s' => rfl
  | ok b s' => cases b <;> rfl

/-- **A loop whose rounds decrease a measure never runs out of fuel** -/
theorem loop_of_decreasing (body : Prog σ ε Bool) (μ : σ → Nat)
    (hμ : ∀ s s', body.run s = .ok true s' → μ s' < μ s)
    (hb : ∀ s s', body.run s ≠ .error .diverge s') (n : Nat) (s : σ) (hn : μ s < n) :
    ∀ s', (loop body n).run s ≠ .error .diverge s' := by
  induction n generalizing s with
  | zero => omega
  | succ n ih =>
    intro s' h
    rw [loop_succ] at h
    cases hs : body.run s with
    | error e t =>
      rw [hs] at h
      cases h
      exact hb s s' hs
    | ok b t =>
      rw [hs] at h
      cases b with
      | false => cases h
      | true =>
        have hlt := hμ s t hs
        exact ih t (by omega) s' h

end

end Checked
