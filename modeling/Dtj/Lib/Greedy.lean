import Mathlib.Tactic

/-!
# Greedy windows

A list is cut into windows in one pass: a window goes on as long as the elements fit its first one,
and the next window starts where it ends.

* `windows`, `windowsFrom`   the pass;
* `windows_flatten`          the windows put together are the list;
* `windows_fits`             the elements of a window fit its first one;
* `Hits`                     a long window that meets a stretch of the list;
* `windows_hit`              **a run of `2 m - 2` elements that fit each other meets a window of `m`**;
* `windows_hit_head`         and so does a run of `m` that no window goes on to;
* `windows_cons`             the first window, and the rest;
* `places`                   where the windows are in the list.
-/

namespace Greedy

variable {α : Type} (fits : α → α → Bool)

/-- the window that starts at `a` and has `window` so far -/
def windowsFrom (a : α) (window : List α) : List α → List (List α)
  | [] => [window]
  | b :: rest =>
    if fits a b then windowsFrom a (window ++ [b]) rest else window :: windowsFrom b [b] rest

def windows : List α → List (List α)
  | [] => []
  | a :: rest => windowsFrom fits a [a] rest

variable {fits}

theorem windowsFrom_flatten (a : α) (window xs : List α) :
    (windowsFrom fits a window xs).flatten = window ++ xs := by
  induction xs generalizing a window with
  | nil => simp [windowsFrom]
  | cons b rest ih =>
    rw [windowsFrom]
    split_ifs
    · rw [ih, List.append_assoc, List.singleton_append]
    · rw [List.flatten_cons, ih, List.singleton_append]

/-- the windows put together are the list -/
theorem windows_flatten (xs : List α) : (windows fits xs).flatten = xs := by
  cases xs with
  | nil => rfl
  | cons a rest => exact windowsFrom_flatten a [a] rest

theorem windowsFrom_fits {a : α} {window xs W : List α}
    (hwindow : ∃ rest, window = a :: rest ∧ ∀ b ∈ rest, fits a b = true)
    (h : W ∈ windowsFrom fits a window xs) :
    ∃ first rest, W = first :: rest ∧ ∀ b ∈ rest, fits first b = true := by
  induction xs generalizing a window with
  | nil =>
    rw [windowsFrom, List.mem_singleton] at h
    obtain ⟨rest, hrest, hfits⟩ := hwindow
    exact ⟨a, rest, h.trans hrest, hfits⟩
  | cons b xs ih =>
    obtain ⟨rest, hrest, hfits⟩ := hwindow
    rw [windowsFrom] at h
    split_ifs at h with hb
    · refine ih ⟨rest ++ [b], by rw [hrest, List.cons_append], ?_⟩ h
      intro c hc
      cases List.mem_append.mp hc with
      | inl hc => exact hfits c hc
      | inr hc => exact List.mem_singleton.mp hc ▸ hb
    · cases List.mem_cons.mp h with
      | inl hw => exact ⟨a, rest, hw.trans hrest, hfits⟩
      | inr hw => exact ih ⟨[], rfl, by simp⟩ hw

/-- the elements of a window fit its first one -/
theorem windows_fits {xs W : List α} (h : W ∈ windows fits xs) :
    ∃ first rest, W = first :: rest ∧ ∀ b ∈ rest, fits first b = true := by
  cases xs with
  | nil => cases h
  | cons a rest => exact windowsFrom_fits ⟨[], rfl, by simp⟩ h

/-! ## runs -/

/-- a window of at least `m` elements that meets the places from `lo` up to `hi` -/
def Hits (pieces : List (List α)) (m lo hi : Nat) : Prop :=
  ∃ before W after, pieces = before ++ W :: after ∧ m ≤ W.length
    ∧ before.flatten.length < hi ∧ lo < before.flatten.length + W.length

theorem Hits.cons {pieces : List (List α)} {m lo hi : Nat} (h : Hits pieces m lo hi) (W : List α) :
    Hits (W :: pieces) m (W.length + lo) (W.length + hi) := by
  obtain ⟨before, V, after, rfl, hm, hhi, hlo⟩ := h
  refine ⟨W :: before, V, after, rfl, hm, ?_, ?_⟩
  · rw [List.flatten_cons, List.length_append]
    omega
  · rw [List.flatten_cons, List.length_append]
    omega

theorem Hits.mono {pieces : List (List α)} {m lo lo' hi hi' : Nat} (h : Hits pieces m lo hi)
    (hlo : lo' ≤ lo) (hhi : hi ≤ hi') : Hits pieces m lo' hi' := by
  obtain ⟨before, W, after, hpieces, hm, hbefore, hafter⟩ := h
  exact ⟨before, W, after, hpieces, hm, by omega, by omega⟩

/-- elements that fit the first one of a window stay in it -/
theorem windowsFrom_append {a : α} {window run : List α} (h : ∀ b ∈ run, fits a b = true)
    (xs : List α) : windowsFrom fits a window (run ++ xs) = windowsFrom fits a (window ++ run) xs := by
  induction run generalizing window with
  | nil => simp
  | cons b run ih =>
    rw [List.cons_append, windowsFrom, if_pos (h b List.mem_cons_self),
      ih fun c hc => h c (List.mem_cons_of_mem _ hc), List.append_assoc, List.singleton_append]

variable (fits) in
/-- the first window has what it has so far, and more -/
theorem windowsFrom_head (a : α) (window xs : List α) :
    ∃ more others, windowsFrom fits a window xs = (window ++ more) :: others := by
  induction xs generalizing a window with
  | nil => exact ⟨[], [], by simp [windowsFrom]⟩
  | cons b xs ih =>
    rw [windowsFrom]
    split_ifs
    · obtain ⟨more, others, h⟩ := ih a (window ++ [b])
      exact ⟨b :: more, others, by rw [h, List.append_assoc, List.singleton_append]⟩
    · exact ⟨[], _, by rw [List.append_nil]⟩

/-- every element of a run fits those before it -/
abbrev Run (fits : α → α → Bool) (run : List α) : Prop := run.Pairwise fun a b => fits a b = true

/-- a window that starts with a run has all of it -/
theorem hit_start {a : α} {run : List α} (h : Run fits (a :: run)) (xs : List α) {m : Nat}
    (hm : m ≤ run.length + 1) : Hits (windowsFrom fits a [a] (run ++ xs)) m 0 (run.length + 1) := by
  rw [windowsFrom_append (List.pairwise_cons.mp h).1]
  obtain ⟨more, others, hall⟩ := windowsFrom_head fits a ([a] ++ run) xs
  rw [hall]
  refine ⟨[], [a] ++ run ++ more, others, rfl, ?_, by simp, by simp⟩
  simp
  omega

/-- a window that is open when a run starts, or the next one -/
theorem hit_open {a : α} {window run : List α} (hwindow : window ≠ []) (h : Run fits run) (xs : List α)
    {m : Nat} (hrun : run ≠ []) (hm : m ≤ run.length) (hlong : 2 * m ≤ run.length + 2) :
    Hits (windowsFrom fits a window (run ++ xs)) m window.length (window.length + run.length) := by
  have hpos : 1 ≤ window.length := List.length_pos_iff.mpr hwindow
  -- the part of the run that stays in the open window
  have hsplit := List.takeWhile_append_dropWhile (p := fits a) (l := run)
  have hfirst : ∀ b ∈ run.takeWhile (fits a), fits a b = true :=
    List.all_eq_true.mp List.all_takeWhile
  generalize run.takeWhile (fits a) = first at hsplit hfirst
  cases hrest : run.dropWhile (fits a) with
  | nil =>
    rw [hrest, List.append_nil] at hsplit
    subst hsplit
    rw [windowsFrom_append hfirst]
    obtain ⟨more, others, hall⟩ := windowsFrom_head fits a (window ++ first) xs
    rw [hall]
    have hlen : 1 ≤ first.length := List.length_pos_iff.mpr hrun
    refine ⟨[], _, others, rfl, ?_, by simp; omega, ?_⟩
    · simp only [List.length_append]
      omega
    · simp only [List.flatten_nil, List.length_nil, List.length_append]
      omega
  | cons b rest =>
    have hb : fits a b = false := by
      have := List.head?_dropWhile_not (fits a) run
      rw [hrest] at this
      simpa using this
    rw [hrest] at hsplit
    have hrunLen : run.length = first.length + (rest.length + 1) := by
      rw [← hsplit, List.length_append, List.length_cons]
    have hnext : Run fits (b :: rest) := (List.pairwise_append.mp (hsplit ▸ h)).2.1
    rw [← hsplit, List.append_assoc, windowsFrom_append hfirst, List.cons_append, windowsFrom,
      if_neg (by simp [hb])]
    by_cases hlarge : first ≠ [] ∧ m ≤ first.length + 1
    · have hlen : 1 ≤ first.length := List.length_pos_iff.mpr hlarge.1
      refine ⟨[], window ++ first, _, rfl, ?_, by simp, ?_⟩
      · rw [List.length_append]
        omega
      · simp only [List.flatten_nil, List.length_nil, List.length_append]
        omega
    · have hall : m ≤ rest.length + 1 := by
        by_cases hnone : first = []
        · rw [hnone, List.length_nil] at hrunLen
          omega
        · have hshort : ¬ m ≤ first.length + 1 := fun hle => hlarge ⟨hnone, hle⟩
          omega
      refine ((hit_start hnext xs hall).cons (window ++ first)).mono ?_ ?_
      · rw [List.length_append]
        omega
      · simp only [List.length_append, List.length_cons]
        omega

/-- the windows from some place on, the one that is open there aside -/
theorem hit_from {a : α} {window before run : List α} (hwindow : window ≠ []) (h : Run fits run)
    (xs : List α) {m : Nat} (hrun : run ≠ []) (hm : m ≤ run.length) (hlong : 2 * m ≤ run.length + 2) :
    Hits (windowsFrom fits a window (before ++ (run ++ xs))) m (window.length + before.length)
      (window.length + before.length + run.length) := by
  induction before generalizing a window with
  | nil => exact hit_open hwindow h xs hrun hm hlong
  | cons b before ih =>
    rw [List.cons_append, windowsFrom, List.length_cons]
    split_ifs
    · refine (ih (List.append_ne_nil_of_right_ne_nil _ (List.cons_ne_nil b []))).mono ?_ ?_
      · simp only [List.length_append, List.length_singleton]
        omega
      · simp only [List.length_append, List.length_singleton]
        omega
    · refine ((ih (List.cons_ne_nil b [])).cons window).mono ?_ ?_
      · simp only [List.length_singleton]
        omega
      · simp only [List.length_singleton]
        omega

/-- **A run of `2 m - 2` elements, and of `m`, meets a window of `m`.** -/
theorem windows_hit (before : List α) {run : List α} (h : Run fits run) (xs : List α) {m : Nat} (hrun : run ≠ [])
    (hm : m ≤ run.length) (hlong : 2 * m ≤ run.length + 2) :
    Hits (windows fits (before ++ (run ++ xs))) m before.length (before.length + run.length) := by
  cases before with
  | nil =>
    cases run with
    | nil => exact absurd rfl hrun
    | cons a run =>
      refine (hit_start h xs hm).mono ?_ ?_
      · simp
      · simp
  | cons b before =>
    refine (hit_from (List.cons_ne_nil b []) h xs hrun hm hlong).mono ?_ ?_
    · simp only [List.length_cons, List.length_nil]
      omega
    · simp only [List.length_cons, List.length_nil]
      omega

/-- no window that has the element before `b` goes on to `b` -/
structure Stops (fits : α → α → Bool) (b : α) (before : List α) : Prop where
  last : ∀ p ∈ before.getLast?, fits p b = false
  between : before.Pairwise fun c p => fits c p = true → fits c b = true → fits p b = true

theorem Stops.tail {a b c : α} {before : List α} (h : Stops fits b (a :: c :: before)) :
    Stops fits b (c :: before) :=
  ⟨fun p hp => h.last p (by rwa [List.getLast?_cons_cons]), (List.pairwise_cons.mp h.between).2⟩

/-- an element that is in the window of `a` is passed over -/
theorem Stops.skip {a b c : α} {before : List α} (h : Stops fits b (a :: c :: before))
    (hc : fits a c = true) : Stops fits b (a :: before) := by
  obtain ⟨ha, hbetween⟩ := List.pairwise_cons.mp h.between
  rw [List.forall_mem_cons] at ha
  refine ⟨?_, List.Pairwise.cons ha.2 (List.pairwise_cons.mp hbetween).2⟩
  intro p hp
  cases before with
  | nil =>
    cases hp
    have hlast : fits c b = false := h.last c rfl
    by_contra hab
    rw [ha.1 hc (by simpa using hab)] at hlast
    cases hlast
  | cons d before =>
    apply h.last p
    rwa [List.getLast?_cons_cons] at hp ⊢

theorem hit_head_from {a b : α} {window before run : List α} (h : Run fits (b :: run)) (xs : List α)
    {m : Nat} (hm : m ≤ run.length + 1) (hstops : Stops fits b (a :: before)) :
    Hits (windowsFrom fits a window (before ++ (b :: run ++ xs))) m (window.length + before.length)
      (window.length + before.length + (run.length + 1)) := by
  induction before generalizing a window with
  | nil =>
    have ha : fits a b = false := hstops.last a rfl
    rw [List.nil_append, List.cons_append, windowsFrom, if_neg (by simp [ha])]
    exact (hit_start h xs hm).cons window
  | cons c before ih =>
    rw [List.cons_append, windowsFrom, List.length_cons]
    split_ifs with hc
    · refine (ih (hstops.skip hc)).mono ?_ ?_
      · simp only [List.length_append, List.length_singleton]
        omega
      · simp only [List.length_append, List.length_singleton]
        omega
    · refine ((ih hstops.tail).cons window).mono ?_ ?_
      · simp only [List.length_singleton]
        omega
      · simp only [List.length_singleton]
        omega

/-- **So does a run of `m` that no window goes on to.** -/
theorem windows_hit_head {b : α} {before run : List α} (h : Run fits (b :: run)) (xs : List α) {m : Nat}
    (hm : m ≤ run.length + 1) (hstops : Stops fits b before) :
    Hits (windows fits (before ++ (b :: run ++ xs))) m before.length
      (before.length + (run.length + 1)) := by
  cases before with
  | nil =>
    refine (hit_start h xs hm).mono ?_ ?_
    · simp
    · simp
  | cons a before =>
    refine (hit_head_from h xs hm hstops).mono ?_ ?_
    · simp only [List.length_cons, List.length_nil]
      omega
    · simp only [List.length_cons, List.length_nil]
      omega

/-! ## the pass, window by window -/

theorem windowsFrom_eq (a : α) (window xs : List α) : windowsFrom fits a window xs
    = (window ++ xs.takeWhile (fits a)) :: windows fits (xs.dropWhile (fits a)) := by
  induction xs generalizing window with
  | nil => simp [windowsFrom, windows]
  | cons b xs ih =>
    rw [windowsFrom, List.takeWhile_cons, List.dropWhile_cons]
    split_ifs
    · rw [ih, List.append_assoc, List.singleton_append]
    · rw [List.append_nil]
      rfl

theorem windows_cons (a : α) (xs : List α) : windows fits (a :: xs)
    = (a :: xs.takeWhile (fits a)) :: windows fits (xs.dropWhile (fits a)) := windowsFrom_eq a [a] xs

/-- the rest starts where the first window ends -/
theorem drop_takeWhile (p : α → Bool) (xs : List α) :
    xs.drop (xs.takeWhile p).length = xs.dropWhile p := by
  have h : (xs.takeWhile p ++ xs.dropWhile p).drop (xs.takeWhile p).length = xs.dropWhile p :=
    List.drop_left
  rwa [List.takeWhile_append_dropWhile] at h

/-! ## places -/

/-- where each piece starts and ends, the first one at `i` -/
def places (i : Nat) : List (List α) → List (Nat × Nat)
  | [] => []
  | W :: rest => (i, i + W.length) :: places (i + W.length) rest

theorem mem_places {i : Nat} {pieces : List (List α)} {r : Nat × Nat} : r ∈ places i pieces ↔
    ∃ before W after, pieces = before ++ W :: after ∧ r.1 = i + before.flatten.length
      ∧ r.2 = r.1 + W.length := by
  induction pieces generalizing i with
  | nil => simp [places]
  | cons V rest ih =>
    rw [places, List.mem_cons, ih]
    constructor
    · rintro (rfl | ⟨before, W, after, rfl, hfst, hsnd⟩)
      · exact ⟨[], V, rest, rfl, rfl, rfl⟩
      · refine ⟨V :: before, W, after, rfl, ?_, hsnd⟩
        rw [hfst, List.flatten_cons, List.length_append, Nat.add_assoc]
    · rintro ⟨before, W, after, hpieces, hfst, hsnd⟩
      cases before with
      | nil =>
        cases hpieces
        exact .inl (Prod.ext hfst (by rw [hsnd, hfst]; rfl))
      | cons U before =>
        cases hpieces
        refine .inr ⟨before, W, after, rfl, ?_, hsnd⟩
        rw [hfst, List.flatten_cons, List.length_append, Nat.add_assoc]

/-- each place ends before the next one starts -/
theorem places_disjoint (i : Nat) (pieces : List (List α)) :
    (places i pieces).Pairwise fun r s => r.2 ≤ s.1 := by
  induction pieces generalizing i with
  | nil => exact List.Pairwise.nil
  | cons W rest ih =>
    refine List.Pairwise.cons ?_ (ih (i + W.length))
    intro r hr
    obtain ⟨before, V, after, -, hfst, -⟩ := mem_places.mp hr
    rw [hfst]
    omega

end Greedy
