import Mathlib.Data.List.Nodup
import Mathlib.Tactic

/-!
# Pages of a list

A page is a slice of a list.  The pages of what is left of a list by a filter, and when a slice of the
list itself is one of them.

* `page`, `pages_flatten`   the pages, one after the other, are the list;
* `pages_growing`           **the pages of a list that grows meanwhile**, as long as they are full;
* `filter_drop_sublist`     what is left after `n` that were kept stands after the first `n`;
* `page_filter_iff`         **when a slice of a list is a page of what is left of it**.
-/

namespace Page

variable {α : Type}

def page (l : List α) (offset limit : Nat) : List α := (l.drop offset).take limit

theorem page_nil {l : List α} {offset : Nat} (limit : Nat) (h : l.length ≤ offset) :
    page l offset limit = [] := by
  rw [page, List.drop_eq_nil_of_le h, List.take_nil]

theorem page_cons (a : α) (l : List α) (offset limit : Nat) :
    page (a :: l) (offset + 1) limit = page l offset limit := rfl

/-- **the pages, one after the other, are the list** -/
theorem pages_flatten {l : List α} {limit : Nat} (n : Nat) (hn : l.length ≤ n * limit) :
    ((List.range n).map fun i => page l (i * limit) limit).flatten = l := by
  induction n generalizing l with
  | zero =>
    rw [Nat.zero_mul, Nat.le_zero] at hn
    rw [List.eq_nil_of_length_eq_zero hn]
    rfl
  | succ n ih =>
    have hrest : (l.drop limit).length ≤ n * limit := by
      rw [List.length_drop]
      rw [Nat.succ_mul] at hn
      omega
    have hpages : ∀ i, page l ((i + 1) * limit) limit = page (l.drop limit) (i * limit) limit := by
      intro i
      rw [page, page, List.drop_drop, Nat.succ_mul, Nat.add_comm]
    rw [List.range_succ_eq_map, List.map_cons, List.flatten_cons, List.map_map]
    have htail : (List.map ((fun i => page l (i * limit) limit) ∘ Nat.succ) (List.range n)).flatten
        = l.drop limit := by
      rw [← ih hrest]
      congr 1
      exact List.map_congr_left fun i _ => hpages i
    rw [htail, page, Nat.zero_mul, List.drop_zero, List.take_append_drop]

/-- **pages of a list that grows from one page to the next**: as long as they are full, nothing is left out
and nothing comes twice -/
theorem pages_growing {ls : Nat → List α} {limit k : Nat} (hgrow : ∀ i < k, ls i <+: ls (i + 1))
    (hfull : ∀ i < k, (page (ls i) (i * limit) limit).length = limit) :
    ((List.range (k + 1)).map fun i => page (ls i) (i * limit) limit).flatten = (ls k).take ((k + 1) * limit) := by
  induction k with
  | zero =>
    rw [Nat.zero_add, Nat.one_mul, List.range_one, List.map_singleton, List.flatten_singleton, page, Nat.zero_mul,
      List.drop_zero]
  | succ k ih =>
    have hstep := hgrow k (Nat.lt_succ_self k)
    have hpage := hfull k (Nat.lt_succ_self k)
    -- the pages so far are still the beginning of the list
    have hbegin : (ls k).take ((k + 1) * limit) = (ls (k + 1)).take ((k + 1) * limit) := by
      rw [page, List.length_take, List.length_drop] at hpage
      obtain ⟨more, hmore⟩ := hstep
      rw [← hmore]
      rcases Nat.eq_zero_or_pos limit with rfl | hpos
      · rw [Nat.mul_zero, List.take_zero, List.take_zero]
      · refine (List.take_append_of_le_length ?_).symm
        rw [Nat.succ_mul]
        omega
    rw [List.range_succ, List.map_append, List.flatten_append, List.map_singleton, List.flatten_singleton,
      ih (fun i hi => hgrow i (Nat.lt_succ_of_lt hi)) fun i hi => hfull i (Nat.lt_succ_of_lt hi), hbegin, page,
      ← List.take_add, ← Nat.succ_mul]

section
variable (p : α → Bool)

theorem filter_drop_sublist (l : List α) (n : Nat) : ((l.filter p).drop n).Sublist (l.drop n) :=
  List.filter_sublist.drop n

/-- the first of a list without repetitions does not come later -/
theorem filter_page_head {a : α} {l : List α} (h : (a :: l).Nodup) {offset limit : Nat} {rest : List α}
    (hpage : page (l.filter p) offset limit = a :: rest) : False := by
  have hmem : a ∈ page (l.filter p) offset limit := by
    rw [hpage]
    exact List.mem_cons_self
  have hl : a ∈ l := List.mem_filter.mp (List.mem_of_mem_drop (List.mem_of_mem_take hmem)) |>.1
  exact (List.nodup_cons.mp h).1 hl

/-- the first `m` that are kept, and the first `m'` of all -/
theorem take_filter_iff {l : List α} (h : l.Nodup) (m m' : Nat) : (l.filter p).take m = l.take m'
    ↔ (∀ a ∈ l.take m', p a = true) ∧ (m' < m → ∀ a ∈ l.drop m', ¬ p a = true) ∧ (m < m' → l.length ≤ m) := by
  induction l generalizing m m' with
  | nil => simp
  | cons a l ih =>
    have hl := (List.nodup_cons.mp h).2
    cases m' with
    | zero =>
      cases m with
      | zero => simp
      | succ m =>
        rw [List.take_zero, List.take_eq_nil_iff, List.filter_eq_nil_iff]
        simp
    | succ m' =>
      by_cases ha : p a = true
      · rw [List.filter_cons_of_pos ha]
        cases m with
        | zero => simp
        | succ m =>
          rw [List.take_succ_cons, List.take_succ_cons, List.cons_inj_right, ih hl, List.forall_mem_cons,
            List.drop_succ_cons, List.length_cons, Nat.add_lt_add_iff_right, Nat.add_lt_add_iff_right,
            Nat.add_le_add_iff_right]
          exact and_congr_left fun _ => (and_iff_right ha).symm
      · rw [List.filter_cons_of_neg ha, List.take_succ_cons]
        constructor
        · intro heq
          exact (@filter_page_head α p _ l h 0 m _ heq).elim
        · intro hall
          exact absurd (hall.1 a List.mem_cons_self) ha

/-- what is kept at a place was not before that place -/
theorem page_filter_later {l : List α} (h : l.Nodup) {offset limit limit' : Nat} (hlimit' : 0 < limit')
    (heq : page (l.filter p) (offset + 1) limit = page l offset limit') : l.length ≤ offset := by
  by_contra hlt
  rw [not_le] at hlt
  obtain ⟨limit', rfl⟩ := Nat.exists_eq_succ_of_ne_zero hlimit'.ne'
  have hpage : page l offset (limit' + 1) = l[offset] :: (l.drop (offset + 1)).take limit' := by
    rw [page, List.drop_eq_getElem_cons hlt, List.take_succ_cons]
  have hmem : l[offset] ∈ l.drop (offset + 1) := by
    refine (filter_drop_sublist p l (offset + 1)).subset (List.mem_of_mem_take (i := limit) ?_)
    have hin : l[offset] ∈ page (l.filter p) (offset + 1) limit := by
      rw [heq, hpage]
      exact List.mem_cons_self
    exact hin
  have hdrop := (List.drop_sublist offset l).nodup h
  rw [List.drop_eq_getElem_cons hlt, List.nodup_cons] at hdrop
  exact hdrop.1 hmem

/-- **a slice of a list is a page of what is left of it** when nothing of the list stands there, or all up
to its end is kept, and the two end together -/
theorem page_filter_iff {l : List α} (h : l.Nodup) (offset : Nat) {limit limit' : Nat} (hlimit' : 0 < limit') :
    page (l.filter p) offset limit = page l offset limit'
      ↔ l.length ≤ offset ∨ ((∀ a ∈ l.take (offset + limit'), p a = true) ∧
        (limit' < limit → ∀ a ∈ l.drop (offset + limit'), ¬ p a = true) ∧
        (limit < limit' → l.length ≤ offset + limit)) := by
  induction l generalizing offset with
  | nil =>
    rw [List.filter_nil, page_nil limit (Nat.zero_le _), page_nil limit' (Nat.zero_le _)]
    simp
  | cons a l ih =>
    cases offset with
    | zero =>
      rw [page, page, List.drop_zero, List.drop_zero, take_filter_iff p h]
      simp
    | succ offset =>
      have hl := (List.nodup_cons.mp h).2
      have hshift : ∀ n, offset + 1 + n = offset + n + 1 := fun n => by omega
      rw [page_cons, hshift, hshift, List.take_succ_cons, List.drop_succ_cons, List.length_cons,
        Nat.add_le_add_iff_right, Nat.add_le_add_iff_right, List.forall_mem_cons]
      by_cases ha : p a = true
      · rw [List.filter_cons_of_pos ha, page_cons, ih hl offset, and_iff_right ha]
      · rw [List.filter_cons_of_neg ha]
        constructor
        · intro heq
          exact .inl (page_filter_later p hl hlimit' heq)
        · rintro (hlength | ⟨⟨hall, -⟩, -⟩)
          · rw [page_nil limit' hlength, page_nil]
            exact (List.length_filter_le p l).trans (by omega)
          · exact absurd hall ha

/-- a slice from the first on is a later page only of nothing -/
theorem page_filter_start {l : List α} (h : l.Nodup) {offset limit limit' : Nat} (hoffset : 0 < offset)
    (hlimit' : 0 < limit') : page (l.filter p) offset limit = page l 0 limit' ↔ l = [] := by
  constructor
  · intro heq
    obtain ⟨offset, rfl⟩ := Nat.exists_eq_succ_of_ne_zero hoffset.ne'
    cases l with
    | nil => rfl
    | cons a l =>
      obtain ⟨limit', rfl⟩ := Nat.exists_eq_succ_of_ne_zero hlimit'.ne'
      have hmem : a ∈ page ((a :: l).filter p) (offset + 1) limit := by
        rw [heq]
        exact List.mem_cons_self
      have hl : a ∈ l := ((filter_drop_sublist p (a :: l) (offset + 1)).subset
        (List.mem_of_mem_take hmem) |> List.mem_of_mem_drop)
      exact absurd hl (List.nodup_cons.mp h).1
  · rintro rfl
    rw [List.filter_nil, page_nil limit (Nat.zero_le _), page_nil limit' (Nat.zero_le _)]

end

end Page
