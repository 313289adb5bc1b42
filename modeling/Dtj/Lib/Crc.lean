import Mathlib.Tactic

/-!
# Shift registers with feedback

A reflected CRC: the register moves down by one bit, and the polynomial is added when the bit that
falls out is set.  The bits of a message are added at the low end, one before each move.

* `step`, `feed`      one move, and a whole message, for a register of any width;
* `step_xor`, `feed_xor`         **the register is linear in what is fed to it**;
* `feed_word`         a message that fits into the register may be added at once;
* `Burst`, `feed_burst`          **messages that differ in one short burst are told apart**.
-/

namespace Crc

variable {w : Nat}

/-- one move of the register -/
def step (poly c : BitVec w) : BitVec w := if c.getLsbD 0 then (c >>> 1) ^^^ poly else c >>> 1

/-- a bit at the low end -/
def low (b : Bool) : BitVec w := if b then 1#w else 0#w

/-- the register after a message -/
def feed (poly c : BitVec w) (bits : List Bool) : BitVec w :=
  bits.foldl (fun c b => step poly (c ^^^ low b)) c

/-- a message as a number, its first bit lowest -/
def word (bits : List Bool) : BitVec w := bits.foldr (fun b x => low b ^^^ x <<< 1) 0#w

/-! ## one move -/

section
variable (poly : BitVec w)

theorem step_zero : step poly 0#w = 0#w := by
  rw [step, if_neg (by simp)]
  simp

theorem step_xor (a b : BitVec w) : step poly (a ^^^ b) = step poly a ^^^ step poly b := by
  have hadd : ∀ x y z : BitVec w, x ^^^ y ^^^ z = x ^^^ z ^^^ y := fun x y z => by
    rw [BitVec.xor_assoc, BitVec.xor_comm y, BitVec.xor_assoc]
  simp only [step, BitVec.getLsbD_xor, BitVec.ushiftRight_xor_distrib]
  cases a.getLsbD 0 <;> cases b.getLsbD 0
  · rfl
  · exact BitVec.xor_assoc ..
  · exact hadd ..
  · show a >>> 1 ^^^ b >>> 1 = (a >>> 1 ^^^ poly) ^^^ (b >>> 1 ^^^ poly)
    rw [← BitVec.xor_assoc, hadd (a >>> 1), BitVec.xor_assoc (a >>> 1 ^^^ b >>> 1), BitVec.xor_self,
      BitVec.xor_zero]

theorem steps_xor (n : Nat) (a b : BitVec w) :
    (step poly)^[n] (a ^^^ b) = (step poly)^[n] a ^^^ (step poly)^[n] b := by
  induction n generalizing a b with
  | zero => rfl
  | succ n ih => rw [Function.iterate_succ_apply, step_xor, ih, ← Function.iterate_succ_apply,
      ← Function.iterate_succ_apply]

/-- a register whose highest bit is not set may have been shifted -/
theorem step_shift {c : BitVec w} (h : c.getLsbD (w - 1) = false) : step poly (c <<< 1) = c := by
  rw [step, if_neg (by simp)]
  apply BitVec.eq_of_getLsbD_eq
  intro i hi
  rw [BitVec.getLsbD_ushiftRight, BitVec.getLsbD_shiftLeft]
  by_cases hlast : 1 + i < w
  · simp [hlast]
  · have hw : i = w - 1 := by omega
    rw [hw, h]
    simp [show ¬ 1 + (w - 1) < w by omega]

/-- **nothing is lost in a move**: the polynomial has its highest bit -/
theorem step_ne {c : BitVec w} (hpoly : poly.getLsbD (w - 1) = true) (hc : c ≠ 0#w) :
    step poly c ≠ 0#w := by
  intro h
  have hw : w ≠ 0 := by
    rintro rfl
    exact hc (BitVec.eq_nil c ▸ rfl)
  unfold step at h
  split at h
  · have htop := congrArg (fun x => x.getLsbD (w - 1)) h
    simp only [BitVec.getLsbD_xor, BitVec.getLsbD_ushiftRight, hpoly, BitVec.getLsbD_zero] at htop
    rw [BitVec.getLsbD_of_ge c (1 + (w - 1)) (by omega)] at htop
    cases htop
  · rename_i hlow
    refine hc (BitVec.eq_of_getLsbD_eq fun i hi => ?_)
    rw [BitVec.getLsbD_zero]
    cases i with
    | zero => exact Bool.eq_false_iff.mpr hlow
    | succ i =>
      have hbit := congrArg (fun x => x.getLsbD i) h
      simp only [BitVec.getLsbD_ushiftRight, BitVec.getLsbD_zero] at hbit
      rwa [Nat.add_comm] at hbit

theorem steps_ne {c : BitVec w} (hpoly : poly.getLsbD (w - 1) = true) (hc : c ≠ 0#w) (n : Nat) :
    (step poly)^[n] c ≠ 0#w := by
  induction n generalizing c with
  | zero => exact hc
  | succ n ih => exact ih (step_ne poly hpoly hc)

/-! ## messages -/

theorem feed_nil (c : BitVec w) : feed poly c [] = c := rfl

theorem feed_cons (c : BitVec w) (b : Bool) (bits : List Bool) :
    feed poly c (b :: bits) = feed poly (step poly (c ^^^ low b)) bits := rfl

theorem feed_append (c : BitVec w) (xs ys : List Bool) :
    feed poly c (xs ++ ys) = feed poly (feed poly c xs) ys := List.foldl_append ..

theorem low_xor (a b : Bool) : (low (a ^^ b) : BitVec w) = low a ^^^ low b := by
  cases a <;> cases b <;> simp [low]

/-- **the register is linear** -/
theorem feed_xor (a b : BitVec w) {xs ys : List Bool} (h : xs.length = ys.length) :
    feed poly (a ^^^ b) (xs.zipWith xor ys) = feed poly a xs ^^^ feed poly b ys := by
  induction xs generalizing a b ys with
  | nil =>
    cases ys with
    | nil => rfl
    | cons y ys => cases h
  | cons x xs ih =>
    cases ys with
    | nil => cases h
    | cons y ys =>
      have hmid : a ^^^ b ^^^ (low x ^^^ low y) = a ^^^ low x ^^^ (b ^^^ low y) := by
        rw [BitVec.xor_assoc, BitVec.xor_assoc, ← BitVec.xor_assoc b, BitVec.xor_comm b,
          BitVec.xor_assoc]
      rw [List.zipWith_cons_cons, feed_cons, feed_cons, feed_cons, low_xor, hmid, step_xor]
      exact ih _ _ (Nat.succ.inj h)

theorem feed_false (c : BitVec w) (n : Nat) :
    feed poly c (List.replicate n false) = (step poly)^[n] c := by
  induction n generalizing c with
  | zero => rfl
  | succ n ih =>
    rw [List.replicate_succ, feed_cons, ih, Function.iterate_succ_apply, low, if_neg Bool.false_ne_true,
      BitVec.xor_zero]

/-- the bits of a message that fits -/
theorem word_getLsbD (bits : List Bool) {i : Nat} (hi : i < w) :
    (word bits : BitVec w).getLsbD i = bits.getD i false := by
  have hlow : ∀ b, (low b : BitVec w).getLsbD 0 = b := fun b => by
    cases b <;> simp [low, show 0 < w by omega]
  have hhigh : ∀ b j, (low b : BitVec w).getLsbD (j + 1) = false := fun b j => by
    cases b <;> simp [low]
  induction bits generalizing i with
  | nil => simp [word]
  | cons b bits ih =>
    rw [show (word (b :: bits) : BitVec w) = low b ^^^ word bits <<< 1 from rfl, BitVec.getLsbD_xor,
      BitVec.getLsbD_shiftLeft]
    cases i with
    | zero => simp [hlow]
    | succ i =>
      rw [hhigh, List.getD_cons_succ, ← ih (by omega)]
      simp [hi]

/-- **a message that fits into the register may be added at once** -/
theorem feed_word (c : BitVec w) {bits : List Bool} (h : bits.length ≤ w) :
    feed poly c bits = (step poly)^[bits.length] (c ^^^ word bits) := by
  induction bits generalizing c with
  | nil => simp [feed_nil, word]
  | cons b bits ih =>
    rw [List.length_cons] at h
    have htop : (word bits : BitVec w).getLsbD (w - 1) = false := by
      rw [word_getLsbD bits (by omega), List.getD_eq_getElem?_getD, List.getElem?_eq_none (by omega)]
      rfl
    rw [feed_cons, ih _ (by omega), List.length_cons, Function.iterate_succ_apply,
      show (word (b :: bits) : BitVec w) = low b ^^^ word bits <<< 1 from rfl, ← BitVec.xor_assoc,
      step_xor poly (c ^^^ low b), step_shift poly htop]

/-! ## bursts -/

/-- two messages of one length that differ, all within `n` consecutive bits -/
structure Burst (n : Nat) (xs ys : List Bool) : Prop where
  length : ys.length = xs.length
  differ : ys ≠ xs
  within : ∃ k, ∀ j, ys[j]? ≠ xs[j]? → k ≤ j ∧ j < k + n

/-- the places where they differ: nothing, then at most `n` bits, then nothing -/
theorem Burst.places {n : Nat} {xs ys : List Bool} (h : Burst n xs ys) : ∃ i bits j,
    xs.zipWith xor ys = List.replicate i false ++ (bits ++ List.replicate j false) ∧
      bits.length ≤ n ∧ true ∈ bits := by
  obtain ⟨k, hk⟩ := h.within
  have hlen : (xs.zipWith xor ys).length = xs.length := by
    rw [List.length_zipWith, h.length, Nat.min_self]
  have hbit : ∀ j (hj : j < (xs.zipWith xor ys).length),
      (xs.zipWith xor ys)[j] = true ↔ ys[j]? ≠ xs[j]? := by
    intro j hj
    have hx : j < xs.length := hlen ▸ hj
    have hy : j < ys.length := h.length ▸ hx
    rw [List.getElem_zipWith, List.getElem?_eq_getElem hx, List.getElem?_eq_getElem hy]
    cases xs[j] <;> cases ys[j] <;> decide
  generalize xs.zipWith xor ys = ds at hlen hbit
  have hbefore : ∀ b ∈ ds.take k, b = false := by
    intro b hb
    obtain ⟨j, hj, rfl⟩ := List.getElem_of_mem hb
    rw [List.length_take] at hj
    rw [List.getElem_take, Bool.eq_false_iff]
    intro htrue
    have := hk j ((hbit j (by omega)).mp htrue)
    omega
  have hafter : ∀ b ∈ (ds.drop k).drop n, b = false := by
    intro b hb
    obtain ⟨j, hj, rfl⟩ := List.getElem_of_mem hb
    rw [List.length_drop, List.length_drop] at hj
    rw [List.getElem_drop, List.getElem_drop, Bool.eq_false_iff]
    intro htrue
    have := hk _ ((hbit (k + (n + j)) (by omega)).mp htrue)
    omega
  have hsplit : ds = ds.take k ++ ((ds.drop k).take n ++ (ds.drop k).drop n) := by
    rw [List.take_append_drop, List.take_append_drop]
  refine ⟨(ds.take k).length, (ds.drop k).take n, ((ds.drop k).drop n).length, ?_,
    List.length_take_le .., ?_⟩
  · rw [← List.eq_replicate_of_mem hbefore, ← List.eq_replicate_of_mem hafter]
    exact hsplit
  · -- the bit that differs is in the middle
    obtain ⟨j, hj⟩ : ∃ j, ys[j]? ≠ xs[j]? := by
      by_contra hno
      push Not at hno
      exact h.differ (List.ext_getElem? hno)
    have hlt : j < ds.length := by
      by_contra hge
      refine hj ?_
      rw [List.getElem?_eq_none (by rw [h.length]; omega), List.getElem?_eq_none (by omega)]
    have hmem : true ∈ ds := List.mem_of_getElem ((hbit j hlt).mpr hj)
    rw [hsplit] at hmem
    rcases List.mem_append.mp hmem with hmem | hmem
    · cases hbefore _ hmem
    · rcases List.mem_append.mp hmem with hmem | hmem
      · exact hmem
      · cases hafter _ hmem

/-- **a burst that fits into the register is seen** -/
theorem feed_burst (hpoly : poly.getLsbD (w - 1) = true) (c : BitVec w) {xs ys : List Bool}
    (h : Burst w xs ys) : feed poly c ys ≠ feed poly c xs := by
  obtain ⟨i, bits, j, hplaces, hlen, hmem⟩ := h.places
  have hword : (word bits : BitVec w) ≠ 0#w := by
    intro h0
    obtain ⟨k, hk, hbit⟩ := List.getElem_of_mem hmem
    have hget := word_getLsbD bits (show k < w by omega)
    rw [h0, BitVec.getLsbD_zero, List.getD_eq_getElem?_getD, List.getElem?_eq_getElem hk, hbit] at hget
    cases hget
  have hzero : feed poly 0#w (List.replicate i false) = 0#w := by
    rw [feed_false]
    exact Function.iterate_fixed (step_zero poly) i
  have hdiff : feed poly 0#w (xs.zipWith xor ys) ≠ 0#w := by
    rw [hplaces, feed_append, feed_append, hzero, feed_word poly _ hlen, BitVec.zero_xor, feed_false]
    exact steps_ne poly hpoly (steps_ne poly hpoly hword _) _
  intro heq
  have hlin := feed_xor poly c c h.length.symm
  rw [heq, BitVec.xor_self, BitVec.xor_self] at hlin
  exact hdiff hlin

end

end Crc
