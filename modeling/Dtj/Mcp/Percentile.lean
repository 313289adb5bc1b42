import Dtj.Lib.Between
import Dtj.Mcp.Report

/-!
# Percentiles in exact arithmetic

`_percentile` and the numbers of a report, with rational numbers in place of floats.

* `_percentile`, `metric`     the source;
* `percentile_between`        a percentile is a value between two places of the list;
* `percentile_mono`           it lies between the first and the last value and grows with the rank;
* `percentiles_ordered`       **in every report min ≤ p50 ≤ p95 ≤ max**;
* `ExactAt`, `percentile_float`   what the reports compute where no operation on floats rounds.
-/

namespace Dtj.Mcp.Rational

open Between

inductive IndexError where
  | IndexError

/-- `sorted_vals[i]`; a negative index counts from the end -/
def index (sorted_vals : List ℚ) (i : Int) : Except IndexError ℚ :=
  let i := if i < 0 then i + sorted_vals.length else i
  if 0 ≤ i ∧ i < sorted_vals.length then .ok (sorted_vals.getD i.toNat 0) else .error .IndexError

def _percentile (sorted_vals : List ℚ) (p : ℚ) : Except IndexError (Option ℚ) :=
  match sorted_vals with
  | [] => .ok none
  | [x] => .ok (some x)
  | _ => do
    let k := ((sorted_vals.length : ℚ) - 1) * (p / 100)
    let f := ⌊k⌋
    let c := ⌈k⌉
    -- then `int(k)` is `f`
    if f = c then return some (← index sorted_vals f)
    else
      let d0 := (← index sorted_vals f) * (c - k)
      let d1 := (← index sorted_vals c) * (k - f)
      return some (d0 + d1)

/-- the numbers of a line of a report -/
structure Metric where
  count : Nat
  p50 : Option ℚ
  p95 : Option ℚ
  max : Option ℚ

def sorted (values : List ℚ) : List ℚ := values.mergeSort fun a b => decide (a ≤ b)

def metric (values : List ℚ) : Except IndexError Metric := do
  let values_sorted := sorted values
  let p50 ← _percentile values_sorted 50
  let p95 ← _percentile values_sorted 95
  return {
    count := values_sorted.length
    p50 := p50
    p95 := p95
    max := values_sorted.getLast? }

/-! ## the list as a sequence -/

def place (vals : List ℚ) (i : Int) : ℚ := vals.getD i.toNat 0

section
variable {vals : List ℚ}

theorem place_eq {i : Int} (h : i.toNat < vals.length) : place vals i = vals[i.toNat] := by
  rw [place, List.getD_eq_getElem?_getD, List.getElem?_eq_getElem h, Option.getD_some]

theorem index_place {i : Int} (h0 : 0 ≤ i) (h : i < vals.length) : index vals i = .ok (place vals i) := by
  unfold index
  rw [if_neg (not_lt.mpr h0), if_pos ⟨h0, h⟩]
  rfl

theorem place_mono (hs : vals.Pairwise (· ≤ ·)) :
    MonotoneOn (place vals) (Set.Icc 0 ((vals.length : Int) - 1)) := by
  intro i hi j hj hij
  obtain ⟨hi0, hi1⟩ := hi
  obtain ⟨hj0, hj1⟩ := hj
  have hin : i.toNat < vals.length := by omega
  have hjn : j.toNat < vals.length := by omega
  rw [place_eq hin, place_eq hjn]
  obtain heq | hlt := eq_or_lt_of_le hij
  · subst heq
    exact le_refl _
  · exact List.pairwise_iff_getElem.mp hs _ _ hin hjn (by omega)

/-- the place that a percentile is taken from -/
def rank (vals : List ℚ) (p : ℚ) : ℚ := ((vals.length : ℚ) - 1) * (p / 100)

theorem length_sub_nonneg (hne : vals ≠ []) : (0 : ℚ) ≤ (vals.length : ℚ) - 1 := by
  have hpos : 1 ≤ vals.length := List.length_pos_iff.mpr hne
  have hcast : (1 : ℚ) ≤ (vals.length : ℚ) := by exact_mod_cast hpos
  linarith

theorem rank_mono (hne : vals ≠ []) {p q : ℚ} (hpq : p ≤ q) : rank vals p ≤ rank vals q := by
  unfold rank
  exact mul_le_mul_of_nonneg_left (by linarith) (length_sub_nonneg hne)

theorem rank_bounds (hne : vals ≠ []) {p : ℚ} (hp : 0 ≤ p) (hp' : p ≤ 100) :
    0 ≤ rank vals p ∧ rank vals p ≤ (vals.length : ℚ) - 1 := by
  have hlast : rank vals 100 = (vals.length : ℚ) - 1 := by
    unfold rank
    norm_num
  refine ⟨mul_nonneg (length_sub_nonneg hne) (by linarith), ?_⟩
  rw [← hlast]
  exact rank_mono hne hp'

/-- **a percentile is a value between two places of the list** -/
theorem percentile_between (hne : vals ≠ []) {p : ℚ} (hp : 0 ≤ p) (hp' : p ≤ 100) :
    _percentile vals p = .ok (some (between (place vals) (rank vals p))) := by
  obtain ⟨h0, h1⟩ := rank_bounds hne hp hp'
  cases vals with
  | nil => exact absurd rfl hne
  | cons x rest =>
  cases rest with
  | nil =>
    have hzero : rank [x] p = ((0 : Int) : ℚ) := by simp [rank]
    rw [hzero, between_int]
    rfl
  | cons y rest =>
    generalize hr : rank (x :: y :: rest) p = r at h0 h1
    have hfloor : 0 ≤ ⌊r⌋ := Int.floor_nonneg.mpr h0
    have hceil : ⌈r⌉ ≤ ((x :: y :: rest).length : Int) - 1 := by
      rw [Int.ceil_le]
      push_cast
      exact h1
    have hle := Int.floor_le_ceil r
    have hf : index (x :: y :: rest) ⌊r⌋ = .ok _ := index_place hfloor (by omega)
    have hc : index (x :: y :: rest) ⌈r⌉ = .ok _ := index_place (hfloor.trans hle) (by omega)
    unfold _percentile between
    dsimp only
    rw [← rank, hr, hf, hc]
    split_ifs <;> rfl

theorem place_zero (hne : vals ≠ []) : place vals 0 = vals.head hne := by
  cases vals with
  | nil => exact absurd rfl hne
  | cons v vs => rfl

theorem place_last (hne : vals ≠ []) : place vals ((vals.length : Int) - 1) = vals.getLast hne := by
  have hpos := List.length_pos_iff.mpr hne
  have hlast : ((vals.length : Int) - 1).toNat = vals.length - 1 := by omega
  rw [place_eq (by omega), List.getLast_eq_getElem]
  simp only [hlast]

/-- a percentile lies between the first and the last value, and a later one is no smaller -/
theorem percentile_mono (hne : vals ≠ []) (hs : vals.Pairwise (· ≤ ·)) {p q : ℚ} (hp : 0 ≤ p)
    (hpq : p ≤ q) (hq : q ≤ 100) :
    ∃ a b, _percentile vals p = .ok (some a) ∧ _percentile vals q = .ok (some b)
      ∧ vals.head hne ≤ a ∧ a ≤ b ∧ b ≤ vals.getLast hne := by
  have hmono := place_mono hs
  obtain ⟨hp0, hp1⟩ := rank_bounds hne hp (hpq.trans hq)
  obtain ⟨hq0, hq1⟩ := rank_bounds hne (hp.trans hpq) hq
  have hcast : (((vals.length : Int) - 1 : Int) : ℚ) = (vals.length : ℚ) - 1 := by push_cast; rfl
  rw [← hcast] at hp1 hq1
  have hzero : ((0 : Int) : ℚ) ≤ rank vals p := by
    rw [Int.cast_zero]
    exact hp0
  have hfirst := between_mono hmono le_rfl hzero hp1
  have hlast := between_mono hmono (hzero.trans (rank_mono hne hpq)) hq1 le_rfl
  rw [between_int, place_zero hne] at hfirst
  rw [between_int, place_last hne] at hlast
  exact ⟨_, _, percentile_between hne hp (hpq.trans hq), percentile_between hne (hp.trans hpq) hq, hfirst,
    between_mono hmono hzero (rank_mono hne hpq) hq1, hlast⟩

/-! ## the report -/

theorem sorted_sorted (values : List ℚ) : (sorted values).Pairwise (· ≤ ·) := by
  have hsorted : (sorted values).Pairwise fun a b => decide (a ≤ b) = true := by
    apply List.pairwise_mergeSort
    · intro a b c hab hbc
      rw [decide_eq_true_eq] at hab hbc ⊢
      exact hab.trans hbc
    · intro a b
      simpa using le_total a b
  exact hsorted.imp of_decide_eq_true

theorem mem_sorted {v : ℚ} {values : List ℚ} : v ∈ sorted values ↔ v ∈ values := List.mem_mergeSort

/-- the line of a report on `values` has its numbers in order -/
structure Metric.Ordered (values : List ℚ) (m : Metric) : Prop where
  numbers : ∃ low p50 p95 high, m.p50 = some p50 ∧ m.p95 = some p95 ∧ m.max = some high
    ∧ low ∈ values ∧ (∀ v ∈ values, low ≤ v) ∧ low ≤ p50 ∧ p50 ≤ p95 ∧ p95 ≤ high
    ∧ high ∈ values ∧ ∀ v ∈ values, v ≤ high

theorem metric_ordered {values : List ℚ} (hne : values ≠ []) :
    ∃ m, metric values = .ok m ∧ m.Ordered values := by
  have hsorted := sorted_sorted values
  have hne' : sorted values ≠ [] := by
    intro hnil
    obtain ⟨v, hv⟩ := List.exists_mem_of_ne_nil values hne
    rw [← mem_sorted, hnil] at hv
    cases hv
  obtain ⟨a, b, ha, hb, hlow, hab, hhigh⟩ :=
    percentile_mono hne' hsorted (p := 50) (q := 95) (by norm_num) (by norm_num) (by norm_num)
  refine ⟨⟨(sorted values).length, some a, some b, (sorted values).getLast?⟩, ?_, ?_⟩
  · rw [metric, ha, hb]
    rfl
  · refine ⟨_, a, b, _, rfl, rfl, List.getLast?_eq_some_getLast hne', mem_sorted.mp (List.head_mem hne'),
      ?_, hlow, hab, hhigh, mem_sorted.mp (List.getLast_mem hne'), ?_⟩
    · intro v hv
      exact hsorted.rel_head (mem_sorted.mpr hv)
    · intro v hv
      exact hsorted.rel_getLast (mem_sorted.mpr hv)

/-! ## floats -/

/-- on these numbers the operations of `_percentile` do not round; `val` is the number of some bits -/
structure ExactAt (arith : Arith) (val : UInt64 → ℚ) (vals : List UInt64) (p : Nat) : Prop where
  floor : (arith.floor (arith.rank (vals.length - 1) p) : Int) = ⌊rank (vals.map val) p⌋
  ceil : (arith.ceil (arith.rank (vals.length - 1) p) : Int) = ⌈rank (vals.map val) p⌉
  line : ∀ x y, val (arith.add
      (arith.mul x (arith.sub (arith.ofNat (arith.ceil (arith.rank (vals.length - 1) p)))
        (arith.rank (vals.length - 1) p)))
      (arith.mul y (arith.sub (arith.rank (vals.length - 1) p)
        (arith.ofNat (arith.floor (arith.rank (vals.length - 1) p))))))
    = val x * (⌈rank (vals.map val) p⌉ - rank (vals.map val) p)
      + val y * (rank (vals.map val) p - ⌊rank (vals.map val) p⌋)

theorem place_map {val : UInt64 → ℚ} {bits : List UInt64} {n : Nat} (h : n < bits.length) :
    place (bits.map val) n = val (bits.getD n 0) := by
  have hlength : (n : Int).toNat < (bits.map val).length := by
    rw [List.length_map]
    exact h
  rw [place_eq hlength, List.getElem_map, List.getD_eq_getElem?_getD, List.getElem?_eq_getElem h,
    Option.getD_some]
  rfl

/-- where nothing rounds, the percentile of a report is the exact one -/
theorem percentile_float {arith : Arith} {val : UInt64 → ℚ} {bits : List UInt64} {p : Nat}
    (hexact : ExactAt arith val bits p) (hne : bits ≠ []) (hp : p ≤ 100) :
    ∃ b, Mcp._percentile arith bits p = .float b ∧ _percentile (bits.map val) p = .ok (some (val b)) := by
  have hne' : bits.map val ≠ [] := by
    rwa [ne_eq, List.map_eq_nil_iff]
  have hp0 : (0 : ℚ) ≤ p := Nat.cast_nonneg p
  have hp1 : (p : ℚ) ≤ 100 := by exact_mod_cast hp
  rw [percentile_between hne' hp0 hp1]
  obtain ⟨h0, h1⟩ := rank_bounds hne' hp0 hp1
  have hceil : ⌈rank (bits.map val) p⌉ ≤ (bits.length : Int) - 1 := by
    rw [Int.ceil_le]
    rw [List.length_map] at h1
    push_cast
    exact h1
  have hle := Int.floor_le_ceil (rank (bits.map val) p)
  have hpos := List.length_pos_iff.mpr hne
  cases bits with
  | nil => exact absurd rfl hne
  | cons x rest =>
  cases rest with
  | nil =>
    have hzero : rank ([x].map val) p = ((0 : Int) : ℚ) := by simp [rank]
    rw [hzero, between_int]
    exact ⟨x, rfl, rfl⟩
  | cons y rest =>
    generalize hbits : x :: y :: rest = bits at *
    have hrun : Mcp._percentile arith bits p
        = let k := arith.rank (bits.length - 1) p
          if arith.floor k = arith.ceil k then .float (bits.getD (arith.floor k) 0)
          else .float (arith.add
            (arith.mul (bits.getD (arith.floor k) 0) (arith.sub (arith.ofNat (arith.ceil k)) k))
            (arith.mul (bits.getD (arith.ceil k) 0) (arith.sub k (arith.ofNat (arith.floor k))))) := by
      rw [← hbits]
      rfl
    rw [hrun]
    dsimp only
    have hfloor := hexact.floor
    have hceil' := hexact.ceil
    have hf := @place_map val bits (arith.floor (arith.rank (bits.length - 1) p)) (by omega)
    have hc := @place_map val bits (arith.ceil (arith.rank (bits.length - 1) p)) (by omega)
    unfold between
    by_cases hsame : arith.floor (arith.rank (bits.length - 1) p) = arith.ceil (arith.rank (bits.length - 1) p)
    · rw [if_pos hsame, if_pos (by omega), ← hfloor, hf]
      exact ⟨_, rfl, rfl⟩
    · rw [if_neg hsame, if_neg (by omega)]
      refine ⟨_, rfl, ?_⟩
      rw [hexact.line, ← hf, ← hc, hfloor, hceil']

/-- **Percentiles are ordered.**  Those of a sorted list lie between its first and its last value and
grow with the rank; and a report on any values has min ≤ p50 ≤ p95 ≤ max. -/
theorem percentiles_ordered (hne : vals ≠ []) :
    (vals.Pairwise (· ≤ ·) → ∀ p q, 0 ≤ p → p ≤ q → q ≤ 100 →
      ∃ a b, _percentile vals p = .ok (some a) ∧ _percentile vals q = .ok (some b)
        ∧ vals.head hne ≤ a ∧ a ≤ b ∧ b ≤ vals.getLast hne)
    ∧ ∃ m, metric vals = .ok m ∧ m.Ordered vals :=
  ⟨fun hs _ _ hp hpq hq => percentile_mono hne hs hp hpq hq, metric_ordered hne⟩

theorem percentiles_ordered_example :
    ∃ a b, _percentile [1, 2, 4] 20 = .ok (some a) ∧ _percentile [1, 2, 4] 95 = .ok (some b)
      ∧ 1 ≤ a ∧ a ≤ b ∧ b ≤ 4 := by
  have hsorted : [(1 : ℚ), 2, 4].Pairwise (· ≤ ·) := by
    norm_num
  exact (percentiles_ordered (List.cons_ne_nil 1 [2, 4])).1 hsorted 20 95 (by norm_num) (by norm_num)
    (by norm_num)

end

end Dtj.Mcp.Rational
