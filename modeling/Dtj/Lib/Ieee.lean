import Mathlib.Tactic

/-!
# Binary floating-point numbers, by their bits

A format has a sign, an exponent and a mantissa.

* `Num`, `value`          what the bits of a number are worth;
* `value_parts`           bits that are put together from their parts;
* `worth_eq`              **the same number in two formats**: a bit more of the mantissa is a lower
                          last bit;
* `holds_iff`             **the numbers of a format**: a significand that is short enough, and an
                          exponent in range.
-/

namespace Ieee

/-- what a number is worth -/
inductive Num where
  | nan
  | infinite (negative : Bool)
  | finite (q : ℚ)

/-- the bits of the exponent and of the mantissa -/
structure Format where
  exponent : Nat
  mantissa : Nat

def single : Format := ⟨8, 23⟩

def double : Format := ⟨11, 52⟩

/-- the last bit of a number with the exponent `e` is worth `2 ^ (e - lowest)` -/
def Format.lowest (f : Format) : Nat := 2^(f.exponent - 1) - 1 + f.mantissa

/-- the bit before the mantissa is left out, unless the exponent is zero -/
def Format.significand (f : Format) (exp mant : Nat) : Nat :=
  mant + if exp = 0 then 0 else 2^f.mantissa

def worth (f : Format) (negative : Bool) (exp mant : Nat) : Num :=
  if exp = 2^f.exponent - 1 then if mant = 0 then .infinite negative else .nan
  else .finite ((if negative then -1 else 1) * f.significand exp mant *
    2^((max exp 1 : Nat) - f.lowest : ℤ))

def value (f : Format) (bits : Nat) : Num :=
  worth f (bits / 2^(f.exponent + f.mantissa) % 2 = 1) (bits / 2^f.mantissa % 2^f.exponent)
    (bits % 2^f.mantissa)

theorem value_parts (f : Format) {sign exp mant : Nat} (hsign : sign < 2) (hexp : exp < 2^f.exponent)
    (hmant : mant < 2^f.mantissa) :
    value f (sign * 2^(f.exponent + f.mantissa) + exp * 2^f.mantissa + mant) =
      worth f (sign = 1) exp mant := by
  have hpos : 0 < 2^f.mantissa := by positivity
  have hpos' : 0 < 2^f.exponent := by positivity
  have hall : sign * 2^(f.exponent + f.mantissa) + exp * 2^f.mantissa + mant
      = mant + 2^f.mantissa * (exp + 2^f.exponent * sign) := by
    rw [pow_add]
    ring
  have hdiv : (mant + 2^f.mantissa * (exp + 2^f.exponent * sign)) / 2^f.mantissa
      = exp + 2^f.exponent * sign := by
    rw [Nat.add_mul_div_left _ _ hpos, Nat.div_eq_of_lt hmant, Nat.zero_add]
  have hmod : (mant + 2^f.mantissa * (exp + 2^f.exponent * sign)) % 2^f.mantissa = mant := by
    rw [Nat.add_mul_mod_self_left, Nat.mod_eq_of_lt hmant]
  have hexp' : (exp + 2^f.exponent * sign) % 2^f.exponent = exp := by
    rw [Nat.add_mul_mod_self_left, Nat.mod_eq_of_lt hexp]
  have htop : (exp + 2^f.exponent * sign) / 2^f.exponent = sign := by
    rw [Nat.add_mul_div_left _ _ hpos', Nat.div_eq_of_lt hexp, Nat.zero_add]
  rw [value, hall, hmod, hdiv, hexp', Nat.add_comm f.exponent, pow_add, ← Nat.div_div_eq_div_mul,
    hdiv, htop, Nat.mod_eq_of_lt hsign]

/-- two numbers with the same sign and the same last bits are worth the same -/
theorem worth_eq {f g : Format} {negative : Bool} {exp mant exp' mant' : Nat} (k : Nat)
    (hf : exp ≠ 2^f.exponent - 1) (hg : exp' ≠ 2^g.exponent - 1)
    (hs : g.significand exp' mant' = f.significand exp mant * 2^k)
    (he : ((max exp' 1 : Nat) : ℤ) - g.lowest + k = (max exp 1 : Nat) - f.lowest) :
    worth g negative exp' mant' = worth f negative exp mant := by
  rw [worth, worth, if_neg hf, if_neg hg, hs, ← he, zpow_add₀ (by norm_num), zpow_natCast]
  congr 1
  push_cast
  ring

/-! ## the numbers of a format -/

/-- a number that some bits of the format are worth -/
def Format.Holds (f : Format) : Num → Prop
  | .nan => True
  | .infinite _ => True
  | .finite q => ∃ sig e : Nat, sig < 2^(f.mantissa + 1) ∧ 1 ≤ e ∧ e + 2 ≤ 2^f.exponent ∧
      |q| = sig * 2^((e : ℤ) - f.lowest)

/-- a significand is shifted up until its first bit is in place or the exponent is the lowest -/
theorem normalize (f : Format) {sig e : Nat} (hsig : sig < 2^(f.mantissa + 1)) (he : 1 ≤ e) :
    ∃ exp mant, exp ≤ e ∧ mant < 2^f.mantissa ∧
      f.significand exp mant * 2^max exp 1 = sig * 2^e := by
  induction e generalizing sig with
  | zero => omega
  | succ e ih =>
    rw [pow_succ] at hsig
    by_cases htop : 2^f.mantissa ≤ sig
    · refine ⟨e + 1, sig - 2^f.mantissa, le_rfl, by omega, ?_⟩
      have hs : f.significand (e + 1) (sig - 2^f.mantissa) = sig := by
        rw [Format.significand, if_neg (by omega)]
        omega
      rw [hs, max_eq_left he]
    · by_cases hlow : e = 0
      · refine ⟨0, sig, by omega, by omega, ?_⟩
        rw [hlow]
        simp [Format.significand]
      · have hdouble : 2 * sig < 2^(f.mantissa + 1) := by
          rw [pow_succ]
          omega
        obtain ⟨exp, mant, hexp, hmant, hval⟩ := ih hdouble (by omega)
        refine ⟨exp, mant, by omega, hmant, ?_⟩
        rw [hval, pow_succ]
        ring

theorem value_holds (f : Format) (hexp : 2 ≤ f.exponent) (bits : Nat) : f.Holds (value f bits) := by
  have h4 : 2^2 ≤ 2^f.exponent := Nat.pow_le_pow_right (by norm_num) hexp
  have hlt : bits / 2^f.mantissa % 2^f.exponent < 2^f.exponent := Nat.mod_lt _ (by positivity)
  have hm : bits % 2^f.mantissa < 2^f.mantissa := Nat.mod_lt _ (by positivity)
  unfold value worth
  generalize bits / 2^f.mantissa % 2^f.exponent = exp at hlt ⊢
  generalize bits % 2^f.mantissa = mant at hm ⊢
  generalize decide (bits / 2^(f.exponent + f.mantissa) % 2 = 1) = negative
  have hpow : (0 : ℚ) ≤ f.significand exp mant * 2^(((max exp 1 : Nat) : ℤ) - f.lowest) := by
    positivity
  have hfinite : ∀ q : ℚ, exp ≠ 2^f.exponent - 1 →
      |q| = f.significand exp mant * 2^(((max exp 1 : Nat) : ℤ) - f.lowest) → f.Holds (.finite q) := by
    intro q hmax hq
    refine ⟨f.significand exp mant, max exp 1, ?_, le_max_right _ _, by omega, hq⟩
    rw [Format.significand, pow_succ]
    split <;> omega
  split_ifs with hmax hzero hneg
  · trivial
  · trivial
  · apply hfinite _ hmax
    rw [neg_one_mul, neg_mul, abs_neg, abs_of_nonneg hpow]
  · apply hfinite _ hmax
    rw [one_mul, abs_of_nonneg hpow]

/-- **A number is worth some bits of a format exactly when it is one of its numbers.** -/
theorem holds_iff (f : Format) (hexp : 2 ≤ f.exponent) (hmant : 1 ≤ f.mantissa) (n : Num) :
    (∃ bits < 2^(1 + f.exponent + f.mantissa), value f bits = n) ↔ f.Holds n := by
  have h4 : 2^2 ≤ 2^f.exponent := Nat.pow_le_pow_right (by norm_num) hexp
  have h2 : 2^1 ≤ 2^f.mantissa := Nat.pow_le_pow_right (by norm_num) hmant
  have hparts : ∀ sign exp mant : Nat, sign < 2 → exp < 2^f.exponent → mant < 2^f.mantissa →
      ∃ bits < 2^(1 + f.exponent + f.mantissa), value f bits = worth f (sign = 1) exp mant := by
    intro sign exp mant hs he hm
    refine ⟨_, ?_, value_parts f hs he hm⟩
    have hlow : exp * 2^f.mantissa + mant < 2^(f.exponent + f.mantissa) := by
      calc exp * 2^f.mantissa + mant < exp * 2^f.mantissa + 2^f.mantissa := by omega
        _ = (exp + 1) * 2^f.mantissa := by ring
        _ ≤ 2^f.exponent * 2^f.mantissa := Nat.mul_le_mul_right _ he
        _ = 2^(f.exponent + f.mantissa) := (pow_add ..).symm
    have hsign : sign * 2^(f.exponent + f.mantissa) ≤ 1 * 2^(f.exponent + f.mantissa) :=
      Nat.mul_le_mul_right _ (by omega)
    rw [show 1 + f.exponent + f.mantissa = (f.exponent + f.mantissa) + 1 by ring, pow_succ]
    omega
  constructor
  · rintro ⟨bits, -, rfl⟩
    exact value_holds f hexp bits
  · intro h
    cases n with
    | nan =>
      obtain ⟨bits, hbits, hval⟩ := hparts 0 (2^f.exponent - 1) 1
        (by omega) (by omega) (by omega)
      exact ⟨bits, hbits, by simpa [worth] using hval⟩
    | infinite negative =>
      obtain ⟨bits, hbits, hval⟩ := hparts (if negative then 1 else 0) (2^f.exponent - 1) 0
        (by split <;> omega) (by omega) (by omega)
      refine ⟨bits, hbits, ?_⟩
      cases negative <;> simpa [worth] using hval
    | finite q =>
      obtain ⟨sig, e, hsig, he, hrange, hq⟩ := h
      obtain ⟨exp, mant, hle, hm, hval⟩ := normalize f hsig he
      obtain ⟨bits, hbits, hworth⟩ := hparts (if q < 0 then 1 else 0) exp mant
        (by split <;> omega) (by omega) hm
      refine ⟨bits, hbits, ?_⟩
      have habs : (f.significand exp mant : ℚ) * 2^(((max exp 1 : Nat) : ℤ) - f.lowest) = |q| := by
        rw [hq, zpow_sub₀ (by norm_num), zpow_sub₀ (by norm_num), zpow_natCast, zpow_natCast,
          ← mul_div_assoc, ← mul_div_assoc]
        congr 1
        exact_mod_cast hval
      rw [hworth, worth, if_neg (by omega)]
      congr 1
      by_cases hneg : q < 0
      · rw [if_pos (by simp [hneg]), mul_assoc, habs, abs_of_neg hneg]
        ring
      · rw [if_neg (by simp [hneg]), mul_assoc, habs, abs_of_nonneg (not_lt.mp hneg), one_mul]

end Ieee
