import Dtj.Lib.Cut

/-!
# The surroundings of marked elements

The elements of a list that are at most `before` places in front of a marked one, or `after` behind it.

* `span`             the places around one;
* `around`           the elements around any marked one, in the order of the list;
* `firsts`           the first element of each key;
* `firsts_spans`     **the spans of ascending places, one after the other and each place once, are in order**;
* `pick_near`        the elements at the places that are near.
-/

namespace Around
open Cut

variable {α κ μ : Type}

/-! ## the first of each key -/

section
variable [DecidableEq κ] [DecidableEq μ]

/-- the elements whose key has not come before -/
def firsts (key : α → κ) : List κ → List α → List α
  | _, [] => []
  | seen, x :: xs => if key x ∈ seen then firsts key seen xs else x :: firsts key (key x :: seen) xs

variable {key key' : α → κ} {seen seen' : List κ} {xs ys : List α}

theorem firsts_sublist (key : α → κ) (seen : List κ) (xs : List α) : (firsts key seen xs).Sublist xs := by
  induction xs generalizing seen with
  | nil => exact List.Sublist.slnil
  | cons x xs ih =>
    rw [firsts]
    split_ifs
    · exact (ih seen).cons x
    · exact (ih _).cons_cons x

theorem firsts_congr_key (h : ∀ x ∈ xs, key x = key' x) : firsts key seen xs = firsts key' seen xs := by
  induction xs generalizing seen with
  | nil => rfl
  | cons x xs ih =>
    obtain ⟨hx, hxs⟩ := List.forall_mem_cons.mp h
    rw [firsts, firsts, hx, ih hxs, ih hxs]

theorem firsts_congr_seen (h : ∀ k, k ∈ seen ↔ k ∈ seen') : firsts key seen xs = firsts key seen' xs := by
  induction xs generalizing seen seen' with
  | nil => rfl
  | cons x xs ih =>
    rw [firsts, firsts, ih h]
    have hcons : ∀ k, k ∈ key x :: seen ↔ k ∈ key x :: seen' := fun k => by rw [List.mem_cons, List.mem_cons, h k]
    rw [ih hcons]
    simp only [h (key x)]

theorem firsts_injective {g : κ → μ} (hg : Function.Injective g) :
    firsts (fun x => g (key x)) (seen.map g) xs = firsts key seen xs := by
  induction xs generalizing seen with
  | nil => rfl
  | cons x xs ih =>
    have hmem : g (key x) ∈ seen.map g ↔ key x ∈ seen := List.mem_map_of_injective hg
    have hcons : g (key x) :: seen.map g = (key x :: seen).map g := rfl
    rw [firsts, firsts, ih, hcons, ih]
    simp only [hmem]

theorem firsts_map {β : Type} {key : β → κ} (f : α → β) :
    firsts key seen (xs.map f) = (firsts (fun x => key (f x)) seen xs).map f := by
  induction xs generalizing seen with
  | nil => rfl
  | cons x xs ih =>
    rw [List.map_cons, firsts, firsts, ih, ih]
    split_ifs
    · rfl
    · rfl

theorem firsts_append : firsts key seen (xs ++ ys) = firsts key seen xs ++ firsts key (xs.map key ++ seen) ys := by
  induction xs generalizing seen with
  | nil => rfl
  | cons x xs ih =>
    rw [List.cons_append, firsts, firsts]
    split_ifs with hx
    · rw [ih]
      congr 1
      refine firsts_congr_seen fun k => ?_
      simp only [List.map_cons, List.cons_append, List.mem_cons, List.mem_append]
      constructor
      · exact .inr
      · rintro (rfl | h)
        · exact .inr hx
        · exact h
    · rw [ih, List.cons_append]
      congr 2
      refine firsts_congr_seen fun k => ?_
      simp only [List.map_cons, List.cons_append, List.mem_cons, List.mem_append]
      tauto

/-- of each key that is new there is an element -/
theorem exists_firsts {x : α} (hx : x ∈ xs) (hnew : key x ∉ seen) : ∃ y ∈ firsts key seen xs, key y = key x := by
  induction xs generalizing seen with
  | nil => cases hx
  | cons z xs ih =>
    rw [firsts]
    rcases List.mem_cons.mp hx with rfl | htail
    · rw [if_neg hnew]
      exact ⟨x, List.mem_cons_self, rfl⟩
    · split_ifs with hz
      · exact ih htail hnew
      · by_cases heq : key x = key z
        · exact ⟨z, List.mem_cons_self, heq.symm⟩
        · have hnew' : key x ∉ key z :: seen := by
            rw [List.mem_cons, not_or]
            exact ⟨heq, hnew⟩
          obtain ⟨y, hy, hkey⟩ := ih htail hnew'
          exact ⟨y, List.mem_cons_of_mem z hy, hkey⟩

theorem not_seen {x : α} (hx : x ∈ firsts key seen xs) : key x ∉ seen := by
  induction xs generalizing seen with
  | nil => cases hx
  | cons z xs ih =>
    rw [firsts] at hx
    split_ifs at hx with hz
    · exact ih hx
    · rcases List.mem_cons.mp hx with rfl | htail
      · exact hz
      · exact fun hmem => ih htail (List.mem_cons_of_mem _ hmem)

theorem firsts_nodup (key : α → κ) (seen : List κ) (xs : List α) : ((firsts key seen xs).map key).Nodup := by
  induction xs generalizing seen with
  | nil => exact List.nodup_nil
  | cons x xs ih =>
    rw [firsts]
    split_ifs
    · exact ih seen
    · rw [List.map_cons, List.nodup_cons]
      refine ⟨fun hmem => ?_, ih _⟩
      obtain ⟨y, hy, hkey⟩ := List.mem_map.mp hmem
      exact not_seen hy (hkey ▸ List.mem_cons_self)

end

/-! ## places -/

variable {before after n i j : Nat} {hits : List Nat}

/-- the places around one -/
def span (before after n i : Nat) : List Nat := List.range' (i - before) (min n (i + after + 1) - (i - before))

theorem mem_span : j ∈ span before after n i ↔ j < n ∧ i ≤ j + before ∧ j ≤ i + after := by
  rw [span, List.mem_range'_1]
  omega

/-- a place that is around a marked one -/
def Near (before after : Nat) (hits : List Nat) (j : Nat) : Prop := ∃ i ∈ hits, i ≤ j + before ∧ j ≤ i + after

instance : Decidable (Near before after hits j) :=
  inferInstanceAs (Decidable (∃ i ∈ hits, i ≤ j + before ∧ j ≤ i + after))

/-- the places that are near, in order -/
def near (before after n : Nat) (hits : List Nat) : List Nat := (List.range n).filter fun j => Near before after hits j

theorem mem_near : j ∈ near before after n hits ↔ j < n ∧ Near before after hits j := by
  rw [near, List.mem_filter, List.mem_range, decide_eq_true_eq]

theorem near_sorted (before after n : Nat) (hits : List Nat) : (near before after n hits).Pairwise (· < ·) :=
  (List.pairwise_lt_range (n := n)).filter _

theorem mem_spans : j ∈ hits.flatMap (span before after n) ↔ j < n ∧ Near before after hits j := by
  rw [List.mem_flatMap]
  constructor
  · rintro ⟨i, hi, hj⟩
    obtain ⟨hn, hnear⟩ := mem_span.mp hj
    exact ⟨hn, i, hi, hnear⟩
  · rintro ⟨hn, i, hi, hnear⟩
    exact ⟨i, hi, mem_span.mpr ⟨hn, hnear⟩⟩

/-- the spans of ascending places ascend, if no place is taken twice -/
theorem firsts_spans_sorted (hhits : hits.Pairwise (· < ·)) :
    (firsts id [] (hits.flatMap (span before after n))).Pairwise (· < ·) := by
  induction hits using List.reverseRecOn with
  | nil => exact List.Pairwise.nil
  | append_singleton hits i ih =>
    obtain ⟨hbefore, -, hlast⟩ := List.pairwise_append.mp hhits
    rw [List.flatMap_append, List.flatMap_singleton, firsts_append, List.pairwise_append]
    refine ⟨ih hbefore, ?_, fun a ha b hb => ?_⟩
    · exact List.Pairwise.sublist (firsts_sublist _ _ _) (List.pairwise_lt_range' 1)
    · -- what the last span adds is behind every span before it
      obtain ⟨i', hi', ha'⟩ := List.mem_flatMap.mp ((firsts_sublist _ _ _).subset ha)
      have hlt := hlast i' hi' i (List.mem_singleton_self i)
      obtain ⟨hn, hlow, -⟩ := mem_span.mp ((firsts_sublist _ _ _).subset hb)
      have hnew : b ∉ span before after n i' := by
        intro hmem
        refine not_seen hb (List.mem_append_left _ ?_)
        rw [List.map_id]
        exact List.mem_flatMap.mpr ⟨i', hi', hmem⟩
      have hfar : i' + after < b := by
        by_contra hle
        exact hnew (mem_span.mpr ⟨hn, by omega, by omega⟩)
      have hnear := (mem_span.mp ha').2.2
      omega

/-- **the spans of ascending places, one after the other and each place once, are the near places in order** -/
theorem firsts_spans (hhits : hits.Pairwise (· < ·)) :
    firsts id [] (hits.flatMap (span before after n)) = near before after n hits := by
  refine List.Pairwise.eq_of_mem_iff (firsts_spans_sorted hhits) (near_sorted before after n hits) ?_
  intro j
  rw [mem_near, ← mem_spans]
  constructor
  · exact fun h => (firsts_sublist _ _ _).subset h
  · intro h
    have hfirst : ∃ y ∈ firsts id [] (hits.flatMap (span before after n)), id y = id j :=
      exists_firsts h List.not_mem_nil
    obtain ⟨y, hy, hkey⟩ := hfirst
    cases hkey
    exact hy

/-- the places of the spans, as a set that is sorted -/
theorem sorted_spans (before after n : Nat) (hits : List Nat) :
    (hits.flatMap (span before after n)).dedup.mergeSort (fun i j => decide (i ≤ j)) = near before after n hits := by
  generalize hplaces : hits.flatMap (span before after n) = places
  have hperm := List.mergeSort_perm places.dedup fun i j => decide (i ≤ j)
  have hle : (places.dedup.mergeSort fun i j => decide (i ≤ j)).Pairwise (· ≤ ·) := by
    refine (@List.pairwise_mergeSort Nat (fun i j => decide (i ≤ j)) ?_ ?_ places.dedup).imp fun h => of_decide_eq_true h
    · intro i j k hij hjk
      exact decide_eq_true ((of_decide_eq_true hij).trans (of_decide_eq_true hjk))
    · intro i j
      rw [Bool.or_eq_true, decide_eq_true_eq, decide_eq_true_eq]
      omega
  have hne : (places.dedup.mergeSort fun i j => decide (i ≤ j)).Nodup := hperm.nodup_iff.mpr (List.nodup_dedup places)
  have hlt : (places.dedup.mergeSort fun i j => decide (i ≤ j)).Pairwise (· < ·) :=
    (hle.and hne).imp fun h => lt_of_le_of_ne h.1 h.2
  refine List.Pairwise.eq_of_mem_iff hlt (near_sorted before after n hits) fun j => ?_
  rw [hperm.mem_iff, List.mem_dedup, mem_near, ← hplaces, mem_spans]

/-! ## elements -/

variable {xs : List α} {p : α → Bool}

/-- the elements around the marked ones -/
def around (p : α → Bool) (before after : Nat) (xs : List α) : List α :=
  (xs.zipIdx.filter fun x => Near before after (marks p 0 xs) x.2).map Prod.fst

theorem mem_marks {k : Nat} : i ∈ marks p k xs ↔ k ≤ i ∧ ∃ x, xs[i - k]? = some x ∧ p x = true := by
  induction xs generalizing k with
  | nil => simp [marks]
  | cons x xs ih =>
    have hrest : i ∈ marks p (k + 1) xs ↔ k + 1 ≤ i ∧ ∃ y, (x :: xs)[i - k]? = some y ∧ p y = true := by
      rw [ih]
      refine and_congr_right fun hlt => ?_
      rw [show i - k = (i - (k + 1)) + 1 by omega, List.getElem?_cons_succ]
    have hsplit : (k ≤ i ∧ ∃ y, (x :: xs)[i - k]? = some y ∧ p y = true) ↔
        (i = k ∧ p x = true) ∨ (k + 1 ≤ i ∧ ∃ y, (x :: xs)[i - k]? = some y ∧ p y = true) := by
      constructor
      · rintro ⟨hle, y, hy, hp⟩
        rcases Nat.eq_or_lt_of_le hle with rfl | hlt
        · rw [Nat.sub_self, List.getElem?_cons_zero] at hy
          cases hy
          exact .inl ⟨rfl, hp⟩
        · exact .inr ⟨hlt, y, hy, hp⟩
      · rintro (⟨rfl, hp⟩ | ⟨hlt, h⟩)
        · exact ⟨le_refl i, x, by rw [Nat.sub_self]; rfl, hp⟩
        · exact ⟨by omega, h⟩
    rw [marks, hsplit, ← hrest]
    by_cases hp : p x = true
    · rw [if_pos hp, List.mem_cons]
      exact or_congr_left (by simp [hp])
    · rw [if_neg hp]
      exact ⟨.inr, fun h => h.resolve_left fun hx => hp hx.2⟩

/-- an element is around the marked ones, if its place is near to one of theirs -/
theorem mem_around {x : α} : x ∈ around p before after xs ↔
    ∃ (i j : Nat) (m : α), xs[i]? = some m ∧ p m = true ∧ xs[j]? = some x ∧ i ≤ j + before ∧ j ≤ i + after := by
  rw [around, List.mem_map]
  constructor
  · rintro ⟨⟨y, j⟩, hmem, rfl⟩
    obtain ⟨hj, hnear⟩ := List.mem_filter.mp hmem
    obtain ⟨i, hi, hlow, hhigh⟩ := of_decide_eq_true hnear
    obtain ⟨-, m, hm, hp⟩ := mem_marks.mp hi
    exact ⟨i, j, m, hm, hp, List.mem_zipIdx_iff_getElem?.mp hj, hlow, hhigh⟩
  · rintro ⟨i, j, m, hm, hp, hj, hlow, hhigh⟩
    refine ⟨(x, j), List.mem_filter.mpr ⟨List.mem_zipIdx_iff_getElem?.mpr hj, decide_eq_true ?_⟩, rfl⟩
    exact ⟨i, mem_marks.mpr ⟨Nat.zero_le i, m, hm, hp⟩, hlow, hhigh⟩

/-- around nothing there is nothing -/
theorem around_none (h : marks p 0 xs = []) : around p before after xs = [] := by
  rw [around, h, List.map_eq_nil_iff, List.filter_eq_nil_iff]
  intro x _ hx
  obtain ⟨i, hi, -⟩ := of_decide_eq_true hx
  cases hi

theorem around_sublist (p : α → Bool) (before after : Nat) (xs : List α) : (around p before after xs).Sublist xs := by
  have hsub := (List.filter_sublist (l := xs.zipIdx) (p := fun x => Near before after (marks p 0 xs) x.2)).map Prod.fst
  rw [List.zipIdx_map_fst] at hsub
  exact hsub

section
variable [Inhabited α]

/-- the elements at some places -/
def pick (xs : List α) (places : List Nat) : List α := places.map fun j => xs[j]!

theorem pick_near (p : α → Bool) (before after : Nat) (xs : List α) :
    pick xs (near before after xs.length (marks p 0 xs)) = around p before after xs := by
  have hzip : xs.zipIdx = (List.range xs.length).map fun j => (xs[j]!, j) := by
    refine List.ext_getElem (by simp) fun j hj hj' => ?_
    have hlen : j < xs.length := by simpa using hj
    simp [hlen]
  rw [around, hzip, List.filter_map, List.map_map, pick, near]
  rfl

theorem slice_eq_pick {lo hi : Nat} (hhi : hi ≤ xs.length) :
    (xs.take hi).drop lo = pick xs (List.range' lo (hi - lo)) := by
  refine List.ext_getElem ?_ fun j hj hj' => ?_
  · simp [pick]
    omega
  · have hlen : lo + j < xs.length := by
      rw [List.length_drop, List.length_take] at hj
      omega
    simp [pick, hlen]

/-- the surroundings of one place -/
theorem span_eq_pick (before after i : Nat) (xs : List α) :
    (xs.take (min xs.length (i + after + 1))).drop (i - before) = pick xs (span before after xs.length i) :=
  slice_eq_pick (min_le_left _ _)

theorem mem_pick_span {x : α} : x ∈ pick xs (span before after xs.length i) ↔
    ∃ j, xs[j]? = some x ∧ i ≤ j + before ∧ j ≤ i + after := by
  rw [pick, List.mem_map]
  constructor
  · rintro ⟨j, hj, rfl⟩
    obtain ⟨hlen, hnear⟩ := mem_span.mp hj
    refine ⟨j, ?_, hnear⟩
    rw [List.getElem?_eq_getElem hlen, getElem!_pos xs j hlen]
  · rintro ⟨j, hj, hnear⟩
    obtain ⟨hlen, hget⟩ := List.getElem?_eq_some_iff.mp hj
    refine ⟨j, mem_span.mpr ⟨hlen, hnear⟩, ?_⟩
    rw [getElem!_pos xs j hlen, hget]

end

end Around
