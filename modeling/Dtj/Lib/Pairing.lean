import Mathlib.Tactic

/-!
# Opening and closing marks

A list of marks opens and closes keys, each any number of times.

* `Unmatched`     a key that is opened and never closed;
* `LeftOpen`      a key that is opened and not closed after that;
* `leftOpen_snoc` one more mark;
* `agree_iff`     **the two are the same exactly when no key that is closed is left open**.
-/

namespace Pairing

inductive Mark (κ : Type) where
  | opens (k : κ)
  | closes (k : κ)
deriving DecidableEq

variable {κ : Type}

/-- whatever the order -/
def Unmatched (ms : List (Mark κ)) (k : κ) : Prop := .opens k ∈ ms ∧ .closes k ∉ ms

/-- in order -/
def LeftOpen (ms : List (Mark κ)) (k : κ) : Prop :=
  ∃ before after, ms = before ++ .opens k :: after ∧ .closes k ∉ after

theorem not_leftOpen_nil (k : κ) : ¬ LeftOpen [] k := by
  rintro ⟨before, after, h, -⟩
  cases before <;> cases h

theorem LeftOpen.mem {ms : List (Mark κ)} {k : κ} (h : LeftOpen ms k) : .opens k ∈ ms := by
  obtain ⟨before, after, rfl, -⟩ := h
  simp

theorem leftOpen_snoc {ms : List (Mark κ)} {m : Mark κ} {k : κ} :
    LeftOpen (ms ++ [m]) k ↔ m = .opens k ∨ (m ≠ .closes k ∧ LeftOpen ms k) := by
  constructor
  · rintro ⟨before, after, h, hclose⟩
    cases List.eq_nil_or_concat after with
    | inl hnil =>
      subst hnil
      obtain ⟨-, hm⟩ := List.append_inj' h rfl
      exact .inl (List.cons.inj hm).1
    | inr hsnoc =>
      obtain ⟨after, last, rfl⟩ := hsnoc
      rw [List.concat_eq_append] at h hclose
      rw [← List.cons_append, ← List.append_assoc] at h
      obtain ⟨hms, hm⟩ := List.append_inj' h rfl
      have hlast : m = last := (List.cons.inj hm).1
      rw [List.mem_append, not_or, List.mem_singleton, ← hlast] at hclose
      exact .inr ⟨Ne.symm hclose.2, before, after, hms, hclose.1⟩
  · rintro (rfl | ⟨hm, before, after, rfl, hclose⟩)
    · exact ⟨ms, [], rfl, List.not_mem_nil⟩
    · refine ⟨before, after ++ [m], by simp, ?_⟩
      rw [List.mem_append, not_or, List.mem_singleton]
      exact ⟨hclose, Ne.symm hm⟩

theorem Unmatched.leftOpen {ms : List (Mark κ)} {k : κ} (h : Unmatched ms k) : LeftOpen ms k := by
  obtain ⟨before, after, rfl⟩ := List.append_of_mem h.1
  refine ⟨before, after, rfl, ?_⟩
  intro hclose
  exact h.2 (by simp [hclose])

/-- **The unmatched keys are those left open exactly when no key that is closed is left open.** -/
theorem agree_iff (ms : List (Mark κ)) :
    (∀ k, Unmatched ms k ↔ LeftOpen ms k) ↔ ∀ k, .closes k ∈ ms → ¬ LeftOpen ms k := by
  constructor
  · intro h k hclose hopen
    exact ((h k).mpr hopen).2 hclose
  · intro h k
    refine ⟨Unmatched.leftOpen, ?_⟩
    intro hopen
    exact ⟨hopen.mem, fun hclose => h k hclose hopen⟩

end Pairing
