import Mathlib.Tactic

/-!
# Lists cut at marked places

A list is cut before each element that a test marks; what is before the first mark is left out.

* `marks`           the places of the marked elements;
* `cut`             the pieces between places;
* `cut_marks_flatten`, `cut_marks_last`, `marks_length`
                    the pieces put together, the last piece, and how many there are;
* `filter_from`     in a list of numbered elements, those from a number on.
-/

namespace Cut

variable {α : Type}

/-- the places of the marked elements, counted from `i` -/
def marks (b : α → Bool) (i : Nat) : List α → List Nat
  | [] => []
  | x :: xs => if b x then i :: marks b (i + 1) xs else marks b (i + 1) xs

/-- from each place to the next, and from the last one to the end -/
def cut (xs : List α) : List Nat → List (List α)
  | [] => []
  | [start] => [xs.drop start]
  | start :: stop :: rest => (xs.take stop).drop start :: cut xs (stop :: rest)

theorem marks_length (b : α → Bool) (i : Nat) (xs : List α) :
    (marks b i xs).length = (xs.filter b).length := by
  induction xs generalizing i with
  | nil => rfl
  | cons x xs ih =>
    rw [marks, List.filter_cons]
    split_ifs
    · rw [List.length_cons, List.length_cons, ih]
    · exact ih (i + 1)

theorem marks_eq_nil {b : α → Bool} {i : Nat} {xs : List α} :
    marks b i xs = [] ↔ ∀ x ∈ xs, b x = false := by
  rw [← List.length_eq_zero_iff, marks_length, List.length_eq_zero_iff, List.filter_eq_nil_iff]
  simp

/-- the places are in the list -/
theorem marks_bounds {b : α → Bool} {i k : Nat} {xs : List α} (h : k ∈ marks b i xs) :
    i ≤ k ∧ k < i + xs.length := by
  induction xs generalizing i with
  | nil => cases h
  | cons x xs ih =>
    rw [marks] at h
    rw [List.length_cons]
    split_ifs at h
    · cases List.mem_cons.mp h with
      | inl heq => omega
      | inr hrest =>
        have := ih hrest
        omega
    · have := ih h
      omega

/-- the places ascend -/
theorem marks_sorted (b : α → Bool) (i : Nat) (xs : List α) : (marks b i xs).Pairwise (· < ·) := by
  induction xs generalizing i with
  | nil => exact List.Pairwise.nil
  | cons x xs ih =>
    rw [marks]
    split_ifs
    · refine List.Pairwise.cons ?_ (ih (i + 1))
      intro k hk
      exact (marks_bounds hk).1
    · exact ih (i + 1)

/-- before the first place nothing is marked -/
theorem marks_head {b : α → Bool} {i k : Nat} {xs : List α} {rest : List Nat}
    (h : marks b i xs = k :: rest) : xs.drop (k - i) = xs.dropWhile fun x => !b x := by
  induction xs generalizing i with
  | nil => cases h
  | cons x xs ih =>
    rw [marks] at h
    split_ifs at h with hx
    · cases h
      simp [hx]
    · have hk : i + 1 ≤ k := (marks_bounds (h ▸ List.mem_cons_self)).1
      rw [List.dropWhile_cons_of_pos (by simpa using hx), ← ih h, show k - i = (k - (i + 1)) + 1 by omega,
        List.drop_succ_cons]

theorem cut_length (xs : List α) (starts : List Nat) : (cut xs starts).length = starts.length := by
  induction starts with
  | nil => rfl
  | cons start rest ih =>
    cases rest with
    | nil => rfl
    | cons stop rest => exact congrArg (· + 1) ih

/-- ascending places cut the list from the first of them on -/
theorem cut_flatten {xs : List α} {start : Nat} {rest : List Nat}
    (h : (start :: rest).Pairwise (· < ·)) : (cut xs (start :: rest)).flatten = xs.drop start := by
  induction rest generalizing start with
  | nil => simp [cut]
  | cons stop rest ih =>
    rw [List.pairwise_cons] at h
    have hlt : start < stop := h.1 stop List.mem_cons_self
    rw [cut, List.flatten_cons, ih h.2, List.drop_take]
    conv_rhs => rw [← List.take_append_drop (stop - start) (xs.drop start), List.drop_drop,
      Nat.add_sub_cancel' hlt.le]

/-- the last piece is from the last place on -/
theorem cut_last {xs : List α} {starts : List Nat} {last : Nat} (h : starts.getLast? = some last) :
    (cut xs starts).getLast? = some (xs.drop last) := by
  induction starts with
  | nil => cases h
  | cons start rest ih =>
    cases rest with
    | nil =>
      cases h
      rfl
    | cons stop rest =>
      rw [List.getLast?_cons_cons] at h
      have hne : cut xs (stop :: rest) ≠ [] := by
        intro hnil
        have := cut_length xs (stop :: rest)
        rw [hnil] at this
        cases this
      rw [cut, List.getLast?_cons_of_ne_nil hne]
      exact ih h

/-- the last marked element is at the last place -/
theorem marks_last {b : α → Bool} {i last : Nat} {xs : List α}
    (h : (marks b i xs).getLast? = some last) :
    ∃ x, xs[last - i]? = some x ∧ (xs.filter b).getLast? = some x := by
  induction xs generalizing i with
  | nil => cases h
  | cons y xs ih =>
    have hshift : ∀ {x}, i + 1 ≤ last → xs[last - (i + 1)]? = some x → (y :: xs)[last - i]? = some x := by
      intro x hlast hx
      rw [show last - i = (last - (i + 1)) + 1 by omega, List.getElem?_cons_succ, hx]
    rw [marks] at h
    rw [List.filter_cons]
    split_ifs at h ⊢ with hy
    · by_cases hnil : marks b (i + 1) xs = []
      · rw [hnil] at h
        cases h
        refine ⟨y, by simp, ?_⟩
        rw [List.filter_eq_nil_iff.mpr fun x hx => by simp [marks_eq_nil.mp hnil x hx]]
        rfl
      · rw [List.getLast?_cons_of_ne_nil hnil] at h
        obtain ⟨x, hx, hfilter⟩ := ih h
        refine ⟨x, hshift (marks_bounds (List.mem_of_getLast? h)).1 hx, ?_⟩
        rw [List.getLast?_cons_of_ne_nil (List.ne_nil_of_mem (List.mem_of_getLast? hfilter)), hfilter]
    · obtain ⟨x, hx, hfilter⟩ := ih h
      exact ⟨x, hshift (marks_bounds (List.mem_of_getLast? h)).1 hx, hfilter⟩

/-- in a list whose elements are numbered in turn, those from a number on -/
theorem filter_from {key : α → Int} {base : Int} {k : Nat} {xs : List α}
    (hkey : ∀ (i : Nat) x, xs[i]? = some x → key x = base + i) :
    xs.filter (fun x => decide (base + k ≤ key x)) = xs.drop k := by
  induction xs generalizing base k with
  | nil => simp
  | cons x xs ih =>
    cases k with
    | zero =>
      rw [List.drop_zero, List.filter_eq_self]
      intro y hy
      obtain ⟨i, hi⟩ := List.mem_iff_getElem?.mp hy
      rw [hkey i y hi, decide_eq_true_eq]
      omega
    | succ k =>
      have hx : key x = base := by
        rw [hkey 0 x List.getElem?_cons_zero]
        simp
      have hxs : ∀ (i : Nat) y, xs[i]? = some y → key y = (base + 1) + i := by
        intro i y hy
        rw [hkey (i + 1) y (by rw [List.getElem?_cons_succ, hy])]
        push_cast
        ring
      rw [List.filter_cons, hx, if_neg (by simp), List.drop_succ_cons, ← ih hxs]
      congr 1
      funext y
      rw [decide_eq_decide]
      push_cast
      omega

end Cut
