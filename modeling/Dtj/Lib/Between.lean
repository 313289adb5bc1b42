import Mathlib.Tactic
import Mathlib.Algebra.Order.Floor.Ring
import Mathlib.Order.Interval.Set.Basic

/-!
# Between two places of a sequence

A sequence is known at the integers; between two of them its value is taken from the line through
both neighbours.

* `between x k`         the value at `k`;
* `between_eq`          as one line from the lower neighbour;
* `floor_le_between`, `between_le_ceil`   the value is between those of the neighbours;
* `between_mono`        **a monotone sequence stays monotone**.
-/

namespace Between

variable {K : Type} [Field K] [LinearOrder K] [IsStrictOrderedRing K] [FloorRing K]

def between (x : Int → K) (k : K) : K :=
  if ⌊k⌋ = ⌈k⌉ then x ⌊k⌋ else x ⌊k⌋ * (⌈k⌉ - k) + x ⌈k⌉ * (k - ⌊k⌋)

section
variable {x : Int → K} {a b : Int} {j k : K}

theorem ceil_of_ne (h : ⌊k⌋ ≠ ⌈k⌉) : ⌈k⌉ = ⌊k⌋ + 1 := by
  have hle : ⌊k⌋ ≤ ⌈k⌉ := Int.floor_le_ceil k
  have hup : ⌈k⌉ ≤ ⌊k⌋ + 1 := Int.ceil_le_floor_add_one k
  omega

theorem between_eq (x : Int → K) (k : K) :
    between x k = x ⌊k⌋ + (x ⌈k⌉ - x ⌊k⌋) * (k - ⌊k⌋) := by
  unfold between
  split_ifs with h
  · rw [← h, sub_self, zero_mul, add_zero]
  · have hc : (⌈k⌉ : K) = ⌊k⌋ + 1 := by
      rw [ceil_of_ne h]
      push_cast
      rfl
    rw [hc]
    ring

theorem floor_le_between (h : x ⌊k⌋ ≤ x ⌈k⌉) : x ⌊k⌋ ≤ between x k := by
  rw [between_eq]
  have hfrac : 0 ≤ k - ⌊k⌋ := sub_nonneg.mpr (Int.floor_le k)
  have hstep : 0 ≤ (x ⌈k⌉ - x ⌊k⌋) * (k - ⌊k⌋) := mul_nonneg (sub_nonneg.mpr h) hfrac
  linarith

theorem between_le_ceil (h : x ⌊k⌋ ≤ x ⌈k⌉) : between x k ≤ x ⌈k⌉ := by
  rw [between_eq]
  have hfrac : k - ⌊k⌋ ≤ 1 := by
    have hlt := Int.lt_floor_add_one k
    linarith
  have hstep : (x ⌈k⌉ - x ⌊k⌋) * (k - ⌊k⌋) ≤ x ⌈k⌉ - x ⌊k⌋ :=
    mul_le_of_le_one_right (sub_nonneg.mpr h) hfrac
  linarith

/-- **a monotone sequence stays monotone between its places** -/
theorem between_mono (hx : MonotoneOn x (Set.Icc a b)) (ha : a ≤ j) (hjk : j ≤ k) (hb : k ≤ b) :
    between x j ≤ between x k := by
  have haj : a ≤ ⌊j⌋ := Int.le_floor.mpr ha
  have hkb : ⌈k⌉ ≤ b := Int.ceil_le.mpr hb
  have hj : ⌊j⌋ ≤ ⌈j⌉ := Int.floor_le_ceil j
  have hk : ⌊k⌋ ≤ ⌈k⌉ := Int.floor_le_ceil k
  have hfloor : ⌊j⌋ ≤ ⌊k⌋ := Int.floor_le_floor hjk
  have hceil : ⌈j⌉ ≤ ⌈k⌉ := Int.ceil_le_ceil hjk
  have hxj : x ⌊j⌋ ≤ x ⌈j⌉ := hx ⟨haj, by omega⟩ ⟨by omega, by omega⟩ hj
  have hxk : x ⌊k⌋ ≤ x ⌈k⌉ := hx ⟨by omega, by omega⟩ ⟨by omega, hkb⟩ hk
  by_cases hsame : ⌈j⌉ ≤ ⌊k⌋
  · -- a place of the sequence is between them
    calc between x j ≤ x ⌈j⌉ := between_le_ceil hxj
      _ ≤ x ⌊k⌋ := hx ⟨by omega, by omega⟩ ⟨by omega, by omega⟩ hsame
      _ ≤ between x k := floor_le_between hxk
  · -- they have the same neighbours
    have hjtop : ⌈j⌉ ≤ ⌊j⌋ + 1 := Int.ceil_le_floor_add_one j
    have hktop : ⌈k⌉ ≤ ⌊k⌋ + 1 := Int.ceil_le_floor_add_one k
    have hf : ⌊k⌋ = ⌊j⌋ := by omega
    have hc : ⌈k⌉ = ⌈j⌉ := by omega
    rw [between_eq, between_eq, hf, hc]
    have hstep := mul_le_mul_of_nonneg_left (sub_le_sub_right hjk (⌊j⌋ : K)) (sub_nonneg.mpr hxj)
    linarith

theorem between_int (x : Int → K) (i : Int) : between x i = x i := by
  rw [between, if_pos (by rw [Int.floor_intCast, Int.ceil_intCast]), Int.floor_intCast]

end

end Between
