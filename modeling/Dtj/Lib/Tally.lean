import Mathlib.Tactic

/-!
# Tallies

How often each of some keys has come, in the order in which they came first.

* `add`, `tally`     one key more, and the tally of a list;
* `of_tally`         **an entry is a key of the list, with its count**;
* `top`              the entries that are counted most;
* `top_ranked`       they are in order, and no other is counted more.
-/

namespace Tally

variable {κ : Type} [DecidableEq κ]

/-- one more of a key -/
def add (k : κ) : List (κ × Int) → List (κ × Int)
  | [] => [(k, 1)]
  | (j, n) :: rest => if j = k then (k, n + 1) :: rest else (j, n) :: add k rest

def addAll (c : List (κ × Int)) (keys : List κ) : List (κ × Int) := keys.foldl (fun c k => add k c) c

/-- the tally of a list -/
def tally (keys : List κ) : List (κ × Int) := addAll [] keys

/-- the entries that are counted most, those that came first before the others -/
def top (n : Nat) (c : List (κ × Int)) : List (κ × Int) := (c.mergeSort fun a b => decide (b.2 ≤ a.2)).take n

variable {c : List (κ × Int)} {k j : κ} {keys keys' : List κ} {n : Int}

theorem keys_add (k : κ) (c : List (κ × Int)) : ∀ j, j ∈ (add k c).map Prod.fst ↔ j = k ∨ j ∈ c.map Prod.fst := by
  intro j
  induction c with
  | nil => simp [add]
  | cons e rest ih =>
    rw [add]
    split_ifs with he
    · rw [List.map_cons, List.map_cons, List.mem_cons, List.mem_cons, he]
      tauto
    · rw [List.map_cons, List.map_cons, List.mem_cons, List.mem_cons, ih]
      tauto

theorem add_nodup (h : (c.map Prod.fst).Nodup) (k : κ) : ((add k c).map Prod.fst).Nodup := by
  induction c with
  | nil => simp [add]
  | cons e rest ih =>
    obtain ⟨hnot, hrest⟩ := List.nodup_cons.mp h
    rw [add]
    split_ifs with he
    · rw [List.map_cons, List.nodup_cons]
      exact ⟨he ▸ hnot, hrest⟩
    · rw [List.map_cons, List.nodup_cons, keys_add]
      exact ⟨not_or.mpr ⟨he, hnot⟩, ih hrest⟩

/-- what an entry is after one more of a key -/
theorem mem_add (h : (c.map Prod.fst).Nodup) : (j, n) ∈ add k c ↔
    (j ≠ k ∧ (j, n) ∈ c) ∨ (j = k ∧ ((j, n - 1) ∈ c ∨ (n = 1 ∧ k ∉ c.map Prod.fst))) := by
  induction c with
  | nil => simp [add]
  | cons e rest ih =>
    obtain ⟨i, m⟩ := e
    obtain ⟨hnot, hrest⟩ := List.nodup_cons.mp h
    have hmem : ∀ {x : Int}, (i, x) ∉ rest := fun hx => hnot (List.mem_map.mpr ⟨_, hx, rfl⟩)
    rw [add]
    by_cases he : i = k
    · subst he
      rw [if_pos rfl, List.mem_cons, List.mem_cons, List.mem_cons, Prod.mk.injEq, Prod.mk.injEq, Prod.mk.injEq]
      by_cases hj : j = i
      · subst hj
        simp only [true_and, ne_eq, not_true_eq_false, false_and, false_or, hmem, or_false, List.map_cons,
          List.mem_cons, true_or, not_true_eq_false, and_false]
        omega
      · simp [hj]
    · rw [if_neg he, List.mem_cons, List.mem_cons, List.mem_cons, Prod.mk.injEq, Prod.mk.injEq, ih hrest]
      by_cases hj : j = k
      · subst hj
        have hi : ¬ j = i := fun heq => he heq.symm
        simp [hi]
      · simp [hj]

/-- a tally of some keys -/
structure Of (keys : List κ) (c : List (κ × Int)) : Prop where
  nodup : (c.map Prod.fst).Nodup
  mem : ∀ j n, (j, n) ∈ c ↔ j ∈ keys ∧ n = keys.countP (· = j)

theorem Of.mem_keys (h : Of keys c) : k ∈ c.map Prod.fst ↔ k ∈ keys := by
  rw [List.mem_map]
  constructor
  · rintro ⟨⟨j, n⟩, hmem, rfl⟩
    exact ((h.mem j n).mp hmem).1
  · intro hk
    exact ⟨(k, (keys.countP (· = k) : Nat)), (h.mem _ _).mpr ⟨hk, rfl⟩, rfl⟩

theorem Of.add (h : Of keys c) (k : κ) : Of (keys ++ [k]) (add k c) := by
  refine ⟨add_nodup h.nodup k, fun j n => ?_⟩
  rw [mem_add h.nodup, List.mem_append, List.mem_singleton, List.countP_append, List.countP_singleton]
  by_cases hj : j = k
  · subst hj
    rw [h.mem j n, h.mem j (n - 1), h.mem_keys]
    by_cases hmem : j ∈ keys
    · simp [hmem]
      omega
    · have hzero : keys.countP (· = j) = 0 :=
        List.countP_eq_zero.mpr fun i hi => by simpa using fun heq : i = j => hmem (heq ▸ hi)
      simp [hmem, hzero]
  · have hk : ¬ k = j := fun heq => hj heq.symm
    simp [hj, hk, h.mem]

/-- **an entry is a key of the list, with its count** -/
theorem of_tally (keys : List κ) : Of keys (tally keys) := by
  induction keys using List.reverseRecOn with
  | nil => exact ⟨List.nodup_nil, fun j n => by simp [tally, addAll]⟩
  | append_singleton keys k ih =>
    have hstep : tally (keys ++ [k]) = Tally.add k (tally keys) := List.foldl_append
    rw [hstep]
    exact ih.add k

theorem addAll_append (c : List (κ × Int)) (keys keys' : List κ) :
    addAll c (keys ++ keys') = addAll (addAll c keys) keys' := List.foldl_append

/-! ## the entries that are counted most -/

/-- some entries of a tally that are counted most -/
structure Ranked (n : Nat) (c rows : List (κ × Int)) : Prop where
  sub : ∀ e ∈ rows, e ∈ c
  nodup : (rows.map Prod.fst).Nodup
  sorted : rows.Pairwise fun a b => b.2 ≤ a.2
  length : rows.length = min n c.length
  rest : ∀ e ∈ c, e ∉ rows → ∀ r ∈ rows, e.2 ≤ r.2

omit [DecidableEq κ] in
theorem top_ranked (h : (c.map Prod.fst).Nodup) (n : Nat) : Ranked n c (top n c) := by
  have hperm := List.mergeSort_perm c fun a b => decide (b.2 ≤ a.2)
  have hsorted : (c.mergeSort fun a b => decide (b.2 ≤ a.2)).Pairwise fun a b => b.2 ≤ a.2 := by
    refine (@List.pairwise_mergeSort (κ × Int) (fun a b => decide (b.2 ≤ a.2)) ?_ ?_ c).imp fun hle => of_decide_eq_true hle
    · intro a b e hab hbe
      rw [decide_eq_true_eq] at hab hbe ⊢
      omega
    · intro a b
      rw [Bool.or_eq_true, decide_eq_true_eq, decide_eq_true_eq]
      omega
  generalize hs : (c.mergeSort fun a b => decide (b.2 ≤ a.2)) = s at hperm hsorted
  have htop : top n c = s.take n := by rw [top, hs]
  rw [htop]
  refine ⟨fun e he => hperm.subset (List.mem_of_mem_take he), ?_, ?_, ?_, fun e he hnot r hr => ?_⟩
  · have hall : (s.map Prod.fst).Nodup := (hperm.map Prod.fst).nodup_iff.mpr h
    exact hall.sublist ((List.take_sublist n s).map _)
  · exact hsorted.sublist (List.take_sublist n s)
  · rw [List.length_take, hperm.length_eq]
  · -- what is left out comes after what is kept
    have hmem : e ∈ s.take n ++ s.drop n := by
      rw [List.take_append_drop]
      exact hperm.symm.subset he
    rcases List.mem_append.mp hmem with hkept | hleft
    · exact absurd hkept hnot
    · rw [← List.take_append_drop n s] at hsorted
      exact (List.pairwise_append.mp hsorted).2.2 r hr e hleft

end Tally
