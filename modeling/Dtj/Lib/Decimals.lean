import Dtj.Lib.Json

/-!
# Numbers as JSON texts

* `numeral_numeric`                 a text that denotes a number has only characters of numbers;
* `denotes_number`                  **such a text is a JSON value**;
* `natText`, `intText`              decimal digits; `denotes_nat`, `denotes_int`: they are read as the number;
* `numeral_point`                   `.0` behind digits changes nothing.
-/

namespace Json

/-! ## the characters of numbers -/

theorem digit_numeric {u : UInt16} (h : isDigit u = true) : isNumeric u = true := by
  rw [isNumeric, h]
  rfl

theorem takeWhile_numeric {t : Text} : ∀ u ∈ t.takeWhile isDigit, isNumeric u = true := fun _ hu =>
  digit_numeric (List.mem_takeWhile_imp hu)

theorem integer_some {t rest : Text} {n : Nat} (h : integer t = some (n, rest)) :
    t = t.takeWhile isDigit ++ rest ∧ t.takeWhile isDigit ≠ [] ∧
      ((t.takeWhile isDigit).head? = some 0x30 → t.takeWhile isDigit = [0x30]) ∧
      n = digits (t.takeWhile isDigit) := by
  unfold integer at h
  dsimp only at h
  split_ifs at h with hbad
  cases h
  rw [not_or] at hbad
  exact ⟨List.takeWhile_append_dropWhile.symm, hbad.1, fun hhead => by_contra fun hlong => hbad.2 ⟨hhead, hlong⟩, rfl⟩

theorem fraction_some {t rest : Text} {f : ℚ} (h : fraction t = some (f, rest)) :
    ∃ front, t = front ++ rest ∧ ∀ u ∈ front, isNumeric u = true := by
  unfold fraction at h
  dsimp only at h
  split_ifs at h with hpoint hempty
  · cases h
    obtain ⟨tail, rfl⟩ := List.head?_eq_some_iff.mp hpoint
    refine ⟨0x2E :: tail.takeWhile isDigit, ?_, ?_⟩
    · rw [List.cons_append, List.tail_cons, List.takeWhile_append_dropWhile]
    · rw [List.forall_mem_cons]
      exact ⟨rfl, takeWhile_numeric⟩
  · cases h
    exact ⟨[], rfl, fun _ hu => by cases hu⟩

theorem unsigned_suffix (t : Text) : ∃ sign, t = sign ++ unsigned t ∧ ∀ u ∈ sign, isNumeric u = true := by
  unfold unsigned
  split_ifs with hsign
  · obtain hsign | hsign := hsign
    · obtain ⟨more, rfl⟩ := List.head?_eq_some_iff.mp hsign
      exact ⟨[0x2D], rfl, List.forall_mem_singleton.mpr rfl⟩
    · obtain ⟨more, rfl⟩ := List.head?_eq_some_iff.mp hsign
      exact ⟨[0x2B], rfl, List.forall_mem_singleton.mpr rfl⟩
  · exact ⟨[], rfl, fun _ hu => by cases hu⟩

theorem exponent_some {t rest : Text} {e : ℤ} (h : exponent t = some (e, rest)) :
    ∃ front, t = front ++ rest ∧ ∀ u ∈ front, isNumeric u = true := by
  unfold exponent at h
  dsimp only at h
  by_cases he : t.head? = some 0x65 ∨ t.head? = some 0x45
  · rw [if_pos he] at h
    obtain ⟨u, tail, rfl, hu⟩ : ∃ u tail, t = u :: tail ∧ isNumeric u = true := by
      obtain he | he := he
      · obtain ⟨tail, rfl⟩ := List.head?_eq_some_iff.mp he
        exact ⟨_, tail, rfl, rfl⟩
      · obtain ⟨tail, rfl⟩ := List.head?_eq_some_iff.mp he
        exact ⟨_, tail, rfl, rfl⟩
    rw [List.tail_cons] at h
    by_cases hempty : (unsigned tail).takeWhile isDigit = []
    · rw [if_pos hempty] at h
      cases h
    rw [if_neg hempty, Option.some.injEq, Prod.mk.injEq] at h
    obtain ⟨-, rfl⟩ := h
    obtain ⟨sign, hsign, hnumeric⟩ := unsigned_suffix tail
    refine ⟨u :: (sign ++ (unsigned tail).takeWhile isDigit), ?_, ?_⟩
    · rw [List.cons_append, List.append_assoc, List.takeWhile_append_dropWhile, ← hsign]
    · rw [List.forall_mem_cons, List.forall_mem_append]
      exact ⟨hu, hnumeric, takeWhile_numeric⟩
  · rw [if_neg he] at h
    cases h
    exact ⟨[], rfl, fun _ hu => by cases hu⟩

/-- the parts of a number -/
theorem numeral_some {t : Text} {q : ℚ} (h : numeral t = some q) :
    ∃ n t₁ f t₂ e, integer (if t.head? = some 0x2D then t.tail else t) = some (n, t₁) ∧
      fraction t₁ = some (f, t₂) ∧ exponent t₂ = some (e, []) ∧
      q = (if t.head? = some 0x2D then -1 else 1) * (n + f) * 10^e := by
  unfold numeral at h
  simp only [Option.bind_eq_bind, Option.bind_eq_some_iff] at h
  obtain ⟨⟨n, t₁⟩, hinteger, ⟨f, t₂⟩, hfraction, ⟨e, t₃⟩, hexponent, h⟩ := h
  by_cases hend : t₃ = []
  · subst hend
    rw [if_pos rfl] at h
    exact ⟨n, t₁, f, t₂, e, hinteger, hfraction, hexponent, (Option.some.inj h).symm⟩
  · rw [if_neg hend] at h
    cases h

/-- **a text that denotes a number has only characters of numbers** -/
theorem numeral_numeric {t : Text} {q : ℚ} (h : numeral t = some q) : ∀ u ∈ t, isNumeric u = true := by
  obtain ⟨n, t₁, f, t₂, e, hinteger, hfraction, hexponent, -⟩ := numeral_some h
  obtain ⟨hsplit, -, -, -⟩ := integer_some hinteger
  obtain ⟨front₁, rfl, hfront₁⟩ := fraction_some hfraction
  obtain ⟨front₂, rfl, hfront₂⟩ := exponent_some hexponent
  have hunsigned : ∀ u ∈ (if t.head? = some 0x2D then t.tail else t), isNumeric u = true := by
    rw [hsplit]
    simp only [List.forall_mem_append]
    exact ⟨takeWhile_numeric, hfront₁, hfront₂, fun _ hu => by cases hu⟩
  split_ifs at hunsigned with hminus
  · obtain ⟨tail, rfl⟩ := List.head?_eq_some_iff.mp hminus
    rw [List.forall_mem_cons]
    exact ⟨rfl, hunsigned⟩
  · exact hunsigned

theorem numeric_cases {u : UInt16} (h : isNumeric u = true) :
    isSpace u = false ∧ mark u = none ∧ u ≠ 0x22 ∧ word u = none := by
  have hne : ∀ v : UInt16, isNumeric v = false → u ≠ v := by
    rintro v hv rfl
    rw [h] at hv
    cases hv
  refine ⟨?_, ?_, hne 0x22 rfl, ?_⟩
  · simp only [isSpace, Bool.or_eq_false_iff, decide_eq_false_iff_not]
    exact ⟨⟨⟨hne 0x20 rfl, hne 0x9 rfl⟩, hne 0xA rfl⟩, hne 0xD rfl⟩
  · cases hmark : mark u with
    | none => rfl
    | some t =>
      rw [mark_not_numeric hmark] at h
      cases h
  · unfold word
    rw [if_neg (hne 0x6E rfl), if_neg (hne 0x74 rfl), if_neg (hne 0x66 rfl)]

theorem span_all {p : UInt16 → Bool} {t more : Text} (ht : ∀ u ∈ t, p u = true)
    (hmore : more.head?.any p = false) : (t ++ more).takeWhile p = t ∧ (t ++ more).dropWhile p = more := by
  rw [List.takeWhile_append_of_pos ht, List.dropWhile_append_of_pos ht]
  cases more with
  | nil => exact ⟨List.append_nil t, rfl⟩
  | cons u more =>
    have hu : ¬ p u = true := ne_true_of_eq_false hmore
    rw [List.takeWhile_cons_of_neg hu, List.dropWhile_cons_of_neg hu, List.append_nil]
    exact ⟨rfl, rfl⟩

theorem reads_number {t : Text} {q : ℚ} (h : numeral t = some q) : Reads t [.number q] := by
  intro more hmore
  have hnumeric := numeral_numeric h
  cases t with
  | nil => cases h
  | cons u rest =>
    rw [List.forall_mem_cons] at hnumeric
    obtain ⟨hspace, hmark, hquote, hword⟩ := numeric_cases hnumeric.1
    obtain ⟨htake, hdrop⟩ := span_all hnumeric.2 hmore
    have htoken : token u (rest ++ more) = some (.number q, more) := by
      unfold token
      rw [hmark, if_neg hquote, hword, htake, hdrop, h]
      rfl
    rw [List.cons_append, tokens_cons (ne_true_of_eq_false hspace) htoken]
    rfl

/-- **a text that denotes a number is a value** -/
theorem denotes_number {t : Text} {q : ℚ} (h : numeral t = some q) : Denotes t (.number q) :=
  ⟨[.number q], parses_number q, reads_number h⟩

/-! ## decimal digits -/

def natText (n : Nat) : Text := (Nat.toDigits 10 n).map fun c => UInt16.ofNat c.toNat

def intText (i : Int) : Text := if 0 ≤ i then natText i.toNat else 0x2D :: natText (-i).toNat

theorem digitChar_unit {c : Char} (h : c.isDigit = true) :
    isDigit (UInt16.ofNat c.toNat) = true ∧ (UInt16.ofNat c.toNat).toNat = c.toNat := by
  rw [Char.isDigit, Bool.and_eq_true, decide_eq_true_eq, decide_eq_true_eq, ge_iff_le, UInt32.le_iff_toNat_le,
    UInt32.le_iff_toNat_le] at h
  have hlow : 48 ≤ c.toNat := h.1
  have hhigh : c.toNat ≤ 57 := h.2
  have hnat : (UInt16.ofNat c.toNat).toNat = c.toNat := by
    rw [UInt16.toNat_ofNat', Nat.mod_eq_of_lt (by omega)]
  rw [isDigit, Bool.and_eq_true, decide_eq_true_eq, decide_eq_true_eq, UInt16.le_iff_toNat_le, UInt16.le_iff_toNat_le,
    hnat]
  exact ⟨⟨hlow, hhigh⟩, rfl⟩

theorem natText_digits (n : Nat) : ∀ u ∈ natText n, isDigit u = true := by
  intro u hu
  obtain ⟨c, hc, rfl⟩ := List.mem_map.mp hu
  exact (digitChar_unit (Nat.isDigit_of_mem_toDigits (by decide) (by decide) hc)).1

theorem natText_ne_nil (n : Nat) : natText n ≠ [] := by
  rw [natText, ne_eq, List.map_eq_nil_iff]
  exact Nat.toDigits_ne_nil

theorem digits_natText (n : Nat) : digits (natText n) = n := by
  have hfold : ∀ (cs : List Char), (∀ c ∈ cs, c.isDigit = true) → ∀ m : Nat,
      (cs.map fun c => UInt16.ofNat c.toNat).foldl (fun n u => 10 * n + (u.toNat - 0x30)) m
        = Nat.ofDigitChars 10 cs m := by
    intro cs
    induction cs with
    | nil => exact fun _ _ => Nat.ofDigitChars_nil.symm
    | cons c cs ih =>
      intro h m
      rw [List.forall_mem_cons] at h
      rw [List.map_cons, List.foldl_cons, ih h.2, Nat.ofDigitChars_cons, (digitChar_unit h.1).2]
      rfl
  rw [digits, natText, hfold _ (fun c hc => Nat.isDigit_of_mem_toDigits (by decide) (by decide) hc),
    Nat.ofDigitChars_ten_toDigits]

/-- no zero stands before another digit -/
theorem natText_head {n : Nat} (hn : (natText n).head? = some 0x30) : natText n = [0x30] := by
  induction n using Nat.strong_induction_on with
  | _ n ih =>
    by_cases hlt : n < 10
    · rw [natText, Nat.toDigits_of_lt_base hlt] at hn ⊢
      rw [List.map_singleton, List.head?_cons, Option.some.injEq] at hn
      rw [List.map_singleton, hn]
    · have hsplit : natText n = natText (n / 10) ++ [UInt16.ofNat (Nat.digitChar (n % 10)).toNat] := by
        rw [natText, Nat.toDigits_of_base_le (by decide) (not_lt.mp hlt), List.map_append]
        rfl
      rw [hsplit, List.head?_append_of_ne_nil _ (natText_ne_nil _)] at hn
      have hzero := digits_natText (n / 10)
      rw [ih (n / 10) (by omega) hn] at hzero
      have hdigit : digits [0x30] = 0 := rfl
      omega

/-- digits alone -/
theorem integer_digits {t more : Text} (hne : t ≠ []) (hdigits : ∀ u ∈ t, isDigit u = true)
    (hzero : t.head? = some 0x30 → t = [0x30]) (hmore : more.head?.any isDigit = false) :
    integer (t ++ more) = some (digits t, more) := by
  obtain ⟨htake, hdrop⟩ := span_all hdigits hmore
  unfold integer
  dsimp only
  rw [htake, hdrop, if_neg]
  rintro (hnil | ⟨hhead, hlong⟩)
  · exact hne hnil
  · exact hlong (hzero hhead)

theorem not_minus {t : Text} (hdigits : ∀ u ∈ t, isDigit u = true) : t.head? ≠ some 0x2D := by
  intro hminus
  have hdigit := hdigits 0x2D (List.mem_of_head? hminus)
  revert hdigit
  decide

theorem numeral_of {t t₁ t₂ : Text} {n : Nat} {f : ℚ} {e : ℤ}
    (hinteger : integer (if t.head? = some 0x2D then t.tail else t) = some (n, t₁))
    (hfraction : fraction t₁ = some (f, t₂)) (hexponent : exponent t₂ = some (e, [])) :
    numeral t = some ((if t.head? = some 0x2D then -1 else 1) * (n + f) * 10^e) := by
  unfold numeral
  simp only [Option.bind_eq_bind]
  rw [hinteger, Option.bind_some, hfraction, Option.bind_some, hexponent, Option.bind_some, if_pos rfl]

theorem integer_natText (n : Nat) : integer (natText n) = some (n, []) := by
  have hinteger := @integer_digits (natText n) [] (natText_ne_nil n) (natText_digits n) natText_head rfl
  rwa [List.append_nil, digits_natText] at hinteger

theorem numeral_nat (n : Nat) : numeral (natText n) = some (n : ℚ) := by
  have hminus := not_minus (natText_digits n)
  rw [numeral_of (by rw [if_neg hminus]; exact integer_natText n) rfl rfl, if_neg hminus]
  simp

theorem numeral_int (i : Int) : numeral (intText i) = some (i : ℚ) := by
  unfold intText
  by_cases h : 0 ≤ i
  · have hcast : ((i.toNat : Nat) : ℚ) = i := by
      rw [← Int.cast_natCast, Int.toNat_of_nonneg h]
    rw [if_pos h, numeral_nat, hcast]
  · have hcast : (((-i).toNat : Nat) : ℚ) = -i := by
      rw [← Int.cast_natCast, Int.toNat_of_nonneg (by omega), Int.cast_neg]
    have hinteger : integer (if (0x2D :: natText (-i).toNat).head? = some 0x2D then (0x2D :: natText (-i).toNat).tail
        else 0x2D :: natText (-i).toNat) = some ((-i).toNat, []) := by
      rw [if_pos List.head?_cons]
      exact integer_natText (-i).toNat
    rw [if_neg h, numeral_of hinteger rfl rfl, if_pos List.head?_cons, hcast]
    simp

theorem denotes_nat (n : Nat) : Denotes (natText n) (.number n) := denotes_number (numeral_nat n)

theorem denotes_int (i : Int) : Denotes (intText i) (.number i) := denotes_number (numeral_int i)

/-- **`.0` behind digits changes nothing** -/
theorem numeral_point {t : Text} {q : ℚ} (h : numeral t = some q)
    (hplain : ∀ u ∈ t, u ≠ 0x2E ∧ u ≠ 0x65 ∧ u ≠ 0x45) : numeral (t ++ [0x2E, 0x30]) = some q := by
  obtain ⟨n, t₁, f, t₂, e, hinteger, hfraction, hexponent, rfl⟩ := numeral_some h
  obtain ⟨hsplit, hne, hzeros, hn⟩ := integer_some hinteger
  have hunsigned : ∀ u ∈ (if t.head? = some 0x2D then t.tail else t), u ≠ 0x2E ∧ u ≠ 0x65 ∧ u ≠ 0x45 := by
    intro u hu
    split_ifs at hu
    · exact hplain u (List.mem_of_mem_tail hu)
    · exact hplain u hu
  have hhead : ∀ u, t₁.head? = some u → u ≠ 0x2E ∧ u ≠ 0x65 ∧ u ≠ 0x45 := by
    intro u hu
    refine hunsigned u ?_
    rw [hsplit]
    exact List.mem_append_right _ (List.mem_of_head? hu)
  have hzero : fraction t₁ = some (0, t₁) := if_neg fun h => (hhead _ h).1 rfl
  rw [hzero] at hfraction
  cases hfraction
  have hone : exponent t₁ = some (0, t₁) := if_neg (by
    rintro (h | h)
    · exact (hhead _ h).2.1 rfl
    · exact (hhead _ h).2.2 rfl)
  rw [hone] at hexponent
  cases hexponent
  rw [List.append_nil] at hsplit
  rw [← hsplit] at hne hzeros hn
  have hdigits : ∀ u ∈ (if t.head? = some 0x2D then t.tail else t), isDigit u = true := by
    intro u hu
    rw [hsplit] at hu
    exact List.mem_takeWhile_imp hu
  have hpoint := @integer_digits _ [0x2E, 0x30] hne hdigits hzeros rfl
  rw [← hn] at hpoint
  have hlonger : (if (t ++ [0x2E, 0x30]).head? = some 0x2D then (t ++ [0x2E, 0x30]).tail else t ++ [0x2E, 0x30])
      = (if t.head? = some 0x2D then t.tail else t) ++ [0x2E, 0x30] ∧
      ((t ++ [0x2E, 0x30]).head? = some 0x2D ↔ t.head? = some 0x2D) := by
    cases t with
    | nil => exact absurd rfl hne
    | cons u t =>
      rw [List.cons_append, List.head?_cons, List.head?_cons]
      split
      · exact ⟨rfl, Iff.rfl⟩
      · exact ⟨rfl, Iff.rfl⟩
  rw [← hlonger.1] at hpoint
  have hfraction : fraction [0x2E, 0x30] = some (0, []) := by decide +kernel
  rw [numeral_of hpoint hfraction rfl]
  simp only [hlonger.2]

end Json
