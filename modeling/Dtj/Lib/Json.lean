import Mathlib.Data.List.TakeWhile
import Mathlib.Tactic

/-!
# JSON

A text is a list of code units.  It is cut into tokens, and the tokens are read as one value; a number
is read as the rational number that it denotes.

* `Token`, `tokens`    the tokens of a text;
* `Value`, `parse`     the value of a text;
* `tokens_append`      the tokens of two texts, one after the other;
* `Denotes`            a text that is a value, wherever it stands; one rule for each kind of value;
* `Denotes.parse`      **such a text is read as that value**;
* `Begins`, `Members`  the same for a text that is put together piece by piece.
-/

namespace Json

abbrev Text := List UInt16

inductive Value where
  | null
  | bool (b : Bool)
  | number (q : ℚ)
  | string (s : Text)
  | array (vs : List Value)
  | object (ms : List (Text × Value))

inductive Token where
  | lbrace
  | rbrace
  | lbracket
  | rbracket
  | comma
  | colon
  | null
  | bool (b : Bool)
  | number (q : ℚ)
  | string (s : Text)
deriving DecidableEq

/-! ## numbers -/

def isDigit (u : UInt16) : Bool := 0x30 ≤ u && u ≤ 0x39

def digits (t : Text) : Nat := t.foldl (fun n u => 10 * n + (u.toNat - 0x30)) 0

/-- no zero stands before another digit -/
def integer (t : Text) : Option (Nat × Text) :=
  let ds := t.takeWhile isDigit
  if ds = [] ∨ (ds.head? = some 0x30 ∧ ds ≠ [0x30]) then none else some (digits ds, t.dropWhile isDigit)

def fraction (t : Text) : Option (ℚ × Text) :=
  if t.head? = some 0x2E then
    let ds := t.tail.takeWhile isDigit
    if ds = [] then none else some (digits ds / 10^ds.length, t.tail.dropWhile isDigit)
  else some (0, t)

/-- what follows a sign, if there is one -/
def unsigned (t : Text) : Text := if t.head? = some 0x2D ∨ t.head? = some 0x2B then t.tail else t

def exponent (t : Text) : Option (ℤ × Text) :=
  if t.head? = some 0x65 ∨ t.head? = some 0x45 then
    let ds := (unsigned t.tail).takeWhile isDigit
    if ds = [] then none
    else some (if t.tail.head? = some 0x2D then -digits ds else digits ds, (unsigned t.tail).dropWhile isDigit)
  else some (0, t)

/-- the number that a text denotes -/
def numeral (t : Text) : Option ℚ := do
  let negative := t.head? = some 0x2D
  let (n, t) ← integer (if negative then t.tail else t)
  let (f, t) ← fraction t
  let (e, t) ← exponent t
  if t = [] then some ((if negative then -1 else 1) * (n + f) * 10^e) else none

/-- the characters of numbers -/
def isNumeric (u : UInt16) : Bool :=
  isDigit u || u = 0x2B || u = 0x2D || u = 0x2E || u = 0x45 || u = 0x65

/-! ## strings -/

def hexDigit (u : UInt16) : Option Nat :=
  if isDigit u then some (u.toNat - 0x30)
  else if 0x41 ≤ u ∧ u ≤ 0x46 then some (u.toNat - 0x37)
  else if 0x61 ≤ u ∧ u ≤ 0x66 then some (u.toNat - 0x57)
  else none

def hex (a b c d : UInt16) : Option UInt16 := do
  let a ← hexDigit a
  let b ← hexDigit b
  let c ← hexDigit c
  let d ← hexDigit d
  return UInt16.ofNat (((a * 16 + b) * 16 + c) * 16 + d)

/-- what a letter after a backslash stands for -/
def escape (u : UInt16) : Option UInt16 :=
  if u = 0x22 ∨ u = 0x2F ∨ u = 0x5C then some u
  else if u = 0x62 then some 0x8
  else if u = 0x66 then some 0xC
  else if u = 0x6E then some 0xA
  else if u = 0x72 then some 0xD
  else if u = 0x74 then some 0x9
  else none

/-- after an opening quote: the string, and what follows its closing quote -/
def string : Text → Option (Text × Text)
  | [] => none
  | u :: rest =>
    if u = 0x22 then some ([], rest)
    else if u = 0x5C then
      match rest with
      | [] => none
      | e :: rest =>
        if e = 0x75 then
          match rest with
          | a :: b :: c :: d :: rest => do
            let v ← hex a b c d
            let (s, rest) ← string rest
            return (v :: s, rest)
          | _ => none
        else do
          let v ← escape e
          let (s, rest) ← string rest
          return (v :: s, rest)
    else if u < 0x20 then none
    else do
      let (s, rest) ← string rest
      return (u :: s, rest)

/-! ## tokens -/

def isSpace (u : UInt16) : Bool := u = 0x20 || u = 0x9 || u = 0xA || u = 0xD

def mark (u : UInt16) : Option Token :=
  if u = 0x7B then some .lbrace
  else if u = 0x7D then some .rbrace
  else if u = 0x5B then some .lbracket
  else if u = 0x5D then some .rbracket
  else if u = 0x2C then some .comma
  else if u = 0x3A then some .colon
  else none

/-- the word that begins with a letter: the rest of it, and its token -/
def word (u : UInt16) : Option (Text × Token) :=
  if u = 0x6E then some ([0x75, 0x6C, 0x6C], .null)
  else if u = 0x74 then some ([0x72, 0x75, 0x65], .bool true)
  else if u = 0x66 then some ([0x61, 0x6C, 0x73, 0x65], .bool false)
  else none

/-- the rest of a word -/
def expect (w : Text) (t : Token) (rest : Text) : Option (Token × Text) :=
  if w.isPrefixOf rest then some (t, rest.drop w.length) else none

/-- the token that begins with a character; a number goes on as long as characters of numbers follow -/
def token (u : UInt16) (rest : Text) : Option (Token × Text) :=
  match mark u with
  | some t => some (t, rest)
  | none =>
    if u = 0x22 then (string rest).map fun r => (.string r.1, r.2)
    else
      match word u with
      | some (w, t) => expect w t rest
      | none => (numeral (u :: rest.takeWhile isNumeric)).map fun q => (.number q, rest.dropWhile isNumeric)

def scan : Nat → Text → Option (List Token)
  | _, [] => some []
  | 0, _ => none
  | n + 1, u :: rest =>
    if isSpace u then scan n rest
    else do
      let (t, rest) ← token u rest
      let ts ← scan n rest
      return t :: ts

def tokens (text : Text) : Option (List Token) := scan text.length text

/-! ## values -/

/-- the elements of an array, up to its end -/
def elements (value : List Token → Option (Value × List Token)) :
    Nat → List Token → Option (List Value × List Token)
  | 0, _ => none
  | k + 1, ts => do
    let (v, ts) ← value ts
    match ts with
    | .comma :: ts => do
      let (vs, ts) ← elements value k ts
      return (v :: vs, ts)
    | .rbracket :: ts => return ([v], ts)
    | _ => none

/-- the members of an object, up to its end -/
def members (value : List Token → Option (Value × List Token)) :
    Nat → List Token → Option (List (Text × Value) × List Token)
  | k + 1, .string key :: .colon :: ts => do
    let (v, ts) ← value ts
    match ts with
    | .comma :: ts => do
      let (ms, ts) ← members value k ts
      return ((key, v) :: ms, ts)
    | .rbrace :: ts => return ([(key, v)], ts)
    | _ => none
  | _, _ => none

/-- a value, and the tokens after it; a value in another one has less fuel -/
def value : Nat → List Token → Option (Value × List Token)
  | 0, _ => none
  | _ + 1, .null :: ts => some (.null, ts)
  | _ + 1, .bool b :: ts => some (.bool b, ts)
  | _ + 1, .number q :: ts => some (.number q, ts)
  | _ + 1, .string s :: ts => some (.string s, ts)
  | _ + 1, .lbracket :: .rbracket :: ts => some (.array [], ts)
  | n + 1, .lbracket :: ts => do
    let (vs, ts) ← elements (value n) n ts
    return (.array vs, ts)
  | _ + 1, .lbrace :: .rbrace :: ts => some (.object [], ts)
  | n + 1, .lbrace :: ts => do
    let (ms, ts) ← members (value n) n ts
    return (.object ms, ts)
  | _ + 1, _ => none

/-- the value that a text is -/
def parse (text : Text) : Option Value := do
  let ts ← tokens text
  let (v, rest) ← value (ts.length + 1) ts
  if rest = [] then some v else none

/-! ## one token after the other -/

section
variable {u e a b c d : UInt16} {rest : Text}

theorem string_end : string (0x22 :: rest) = some ([], rest) := by
  rw [string.eq_def]
  rfl

theorem string_hex : string (0x5C :: 0x75 :: a :: b :: c :: d :: rest)
    = (hex a b c d).bind fun v => (string rest).map fun r => (v :: r.1, r.2) := by
  have hne : (0x5C : UInt16) ≠ 0x22 := by decide
  rw [string.eq_def]
  dsimp only
  rw [if_neg hne, if_pos rfl, if_pos rfl]
  cases hex a b c d <;> cases string rest <;> rfl

theorem string_escape (he : e ≠ 0x75) : string (0x5C :: e :: rest)
    = (escape e).bind fun v => (string rest).map fun r => (v :: r.1, r.2) := by
  have hne : (0x5C : UInt16) ≠ 0x22 := by decide
  rw [string.eq_def]
  dsimp only
  rw [if_neg hne, if_pos rfl, if_neg he]
  cases escape e <;> cases string rest <;> rfl

theorem string_char (hquote : u ≠ 0x22) (hback : u ≠ 0x5C) (hcontrol : ¬ u < 0x20) :
    string (u :: rest) = (string rest).map fun r => (u :: r.1, r.2) := by
  rw [string.eq_def]
  dsimp only
  rw [if_neg hquote, if_neg hback, if_neg hcontrol]
  cases string rest <;> rfl

end

/-- how the characters of a string are written -/
inductive Chars : Text → Text → Prop
  | nil : Chars [] []
  | char {u : UInt16} {body s : Text} (hquote : u ≠ 0x22) (hback : u ≠ 0x5C) (hcontrol : ¬ u < 0x20)
      (h : Chars body s) : Chars (u :: body) (u :: s)
  | escape {e v : UInt16} {body s : Text} (he : escape e = some v) (h : Chars body s) :
      Chars (0x5C :: e :: body) (v :: s)
  | hex {a b c d v : UInt16} {body s : Text} (hv : hex a b c d = some v) (h : Chars body s) :
      Chars (0x5C :: 0x75 :: a :: b :: c :: d :: body) (v :: s)

/-- **a string goes on to its closing quote** -/
theorem string_ok {t s rest : Text} :
    string t = some (s, rest) ↔ ∃ body, t = body ++ 0x22 :: rest ∧ Chars body s := by
  constructor
  · intro h
    induction t using string.induct generalizing s with
    | case1 => cases h
    | case2 more =>
      rw [string_end] at h
      cases h
      exact ⟨[], rfl, .nil⟩
    | case3 => cases h
    | case4 a b c d more hne ih =>
      rw [string_hex, Option.bind_eq_some_iff] at h
      obtain ⟨v, hv, h⟩ := h
      obtain ⟨⟨s', rest'⟩, hs, h⟩ := Option.map_eq_some_iff.mp h
      cases h
      obtain ⟨body, rfl, hbody⟩ := ih hs
      exact ⟨_, rfl, .hex hv hbody⟩
    | case5 more hshort hne =>
      rw [string.eq_def] at h
      dsimp only at h
      rw [if_neg hne, if_pos rfl, if_pos rfl] at h
      split at h
      · exact (hshort _ _ _ _ _ rfl).elim
      · cases h
    | case6 e more he hne ih =>
      rw [string_escape he, Option.bind_eq_some_iff] at h
      obtain ⟨v, hv, h⟩ := h
      obtain ⟨⟨s', rest'⟩, hs, h⟩ := Option.map_eq_some_iff.mp h
      cases h
      obtain ⟨body, rfl, hbody⟩ := ih hs
      exact ⟨_, rfl, .escape hv hbody⟩
    | case7 u more hquote hback hcontrol =>
      rw [string.eq_def] at h
      dsimp only at h
      rw [if_neg hquote, if_neg hback, if_pos hcontrol] at h
      cases h
    | case8 u more hquote hback hcontrol ih =>
      rw [string_char hquote hback hcontrol] at h
      obtain ⟨⟨s', rest'⟩, hs, h⟩ := Option.map_eq_some_iff.mp h
      cases h
      obtain ⟨body, rfl, hbody⟩ := ih hs
      exact ⟨_, rfl, .char hquote hback hcontrol hbody⟩
  · rintro ⟨body, rfl, hbody⟩
    induction hbody with
    | nil => exact string_end
    | char hquote hback hcontrol _ ih => rw [List.cons_append, string_char hquote hback hcontrol, ih]; rfl
    | @escape e v body s he _ ih =>
      have hne : e ≠ 0x75 := by
        rintro rfl
        cases he
      rw [List.cons_append, List.cons_append, string_escape hne, he, ih]
      rfl
    | hex hv _ ih =>
      simp only [List.cons_append]
      rw [string_hex, hv, ih]
      rfl

theorem Chars.append {body body' s s' : Text} (h : Chars body s) (h' : Chars body' s') :
    Chars (body ++ body') (s ++ s') := by
  induction h with
  | nil => exact h'
  | char hquote hback hcontrol _ ih => exact .char hquote hback hcontrol ih
  | escape he _ ih => exact .escape he ih
  | hex hv _ ih => exact .hex hv ih

theorem span_append {p : UInt16 → Bool} (rest : Text) {more : Text}
    (hmore : rest.dropWhile p = [] → more.head?.any p = false) :
    (rest ++ more).takeWhile p = rest.takeWhile p ∧ (rest ++ more).dropWhile p = rest.dropWhile p ++ more := by
  induction rest with
  | nil =>
    have hnone := hmore rfl
    cases more with
    | nil => exact ⟨rfl, rfl⟩
    | cons u more =>
      have hu : ¬ p u = true := ne_true_of_eq_false hnone
      rw [List.nil_append, List.takeWhile_cons_of_neg hu, List.dropWhile_cons_of_neg hu]
      exact ⟨rfl, rfl⟩
  | cons u rest ih =>
    rw [List.cons_append]
    by_cases hu : p u = true
    · rw [List.dropWhile_cons_of_pos hu] at hmore
      obtain ⟨htake, hdrop⟩ := ih hmore
      rw [List.takeWhile_cons_of_pos hu, List.takeWhile_cons_of_pos hu, List.dropWhile_cons_of_pos hu,
        List.dropWhile_cons_of_pos hu, htake, hdrop]
      exact ⟨rfl, rfl⟩
    · rw [List.takeWhile_cons_of_neg hu, List.takeWhile_cons_of_neg hu, List.dropWhile_cons_of_neg hu,
        List.dropWhile_cons_of_neg hu]
      exact ⟨rfl, rfl⟩

theorem expect_ok {word rest rest' : Text} {t t' : Token} :
    expect word t rest = some (t', rest') ↔ t' = t ∧ rest = word ++ rest' := by
  unfold expect
  split
  · next h =>
    obtain ⟨more, rfl⟩ := List.isPrefixOf_iff_prefix.mp h
    rw [List.drop_left, Option.some.injEq, Prod.mk.injEq, List.append_cancel_left_eq]
    exact and_congr_left fun _ => eq_comm
  · next h =>
    constructor
    · intro h
      cases h
    · rintro ⟨-, rfl⟩
      exact absurd (List.isPrefixOf_iff_prefix.mpr (List.prefix_append word rest')) h

/-- the four ways to find a token -/
theorem token_cases {u : UInt16} {rest rest' : Text} {t : Token} (h : token u rest = some (t, rest')) :
    (mark u = some t ∧ rest' = rest)
      ∨ (u = 0x22 ∧ ∃ body s, t = .string s ∧ rest = body ++ 0x22 :: rest' ∧ Chars body s)
      ∨ (mark u = none ∧ u ≠ 0x22 ∧ ∃ w, word u = some (w, t) ∧ rest = w ++ rest')
      ∨ (mark u = none ∧ u ≠ 0x22 ∧ word u = none ∧ ∃ q, t = .number q ∧
        numeral (u :: rest.takeWhile isNumeric) = some q ∧ rest' = rest.dropWhile isNumeric) := by
  unfold token at h
  cases hmark : mark u with
  | some t' =>
    rw [hmark] at h
    cases h
    exact .inl ⟨rfl, rfl⟩
  | none =>
    rw [hmark] at h
    dsimp only at h
    by_cases hquote : u = 0x22
    · rw [if_pos hquote] at h
      obtain ⟨⟨s, r⟩, hs, h⟩ := Option.map_eq_some_iff.mp h
      cases h
      obtain ⟨body, hrest, hbody⟩ := string_ok.mp hs
      exact .inr (.inl ⟨hquote, body, s, rfl, hrest, hbody⟩)
    rw [if_neg hquote] at h
    cases hword : word u with
    | some wt =>
      rw [hword] at h
      obtain ⟨rfl, hrest⟩ := expect_ok.mp h
      exact .inr (.inr (.inl ⟨rfl, hquote, wt.1, rfl, hrest⟩))
    | none =>
      rw [hword] at h
      obtain ⟨q, hq, h⟩ := Option.map_eq_some_iff.mp h
      cases h
      exact .inr (.inr (.inr ⟨rfl, hquote, rfl, q, rfl, hq, rfl⟩))

/-- a token does not depend on what follows, unless it is a number that goes on -/
theorem token_append {u : UInt16} {rest rest' : Text} {t : Token} (h : token u rest = some (t, rest'))
    {more : Text} (hmore : ∀ q, t = .number q → rest' = [] → more.head?.any isNumeric = false) :
    token u (rest ++ more) = some (t, rest' ++ more) := by
  unfold token
  obtain ⟨hmark, rfl⟩ | ⟨rfl, body, s, rfl, rfl, hbody⟩ | ⟨hmark, hquote, w, hword, rfl⟩ |
    ⟨hmark, hquote, hword, q, rfl, hq, rfl⟩ := token_cases h
  · rw [hmark]
  · have hstring : string (body ++ 0x22 :: rest' ++ more) = some (s, rest' ++ more) :=
      string_ok.mpr ⟨body, by rw [List.append_assoc, List.cons_append], hbody⟩
    have hnone : mark 0x22 = none := rfl
    rw [hnone, if_pos rfl, hstring]
    rfl
  · rw [hmark, if_neg hquote, hword]
    exact expect_ok.mpr ⟨rfl, List.append_assoc _ _ _⟩
  · obtain ⟨htake, hdrop⟩ := span_append rest (hmore q rfl)
    rw [hmark, if_neg hquote, hword, htake, hdrop, hq]
    rfl

theorem token_suffix {u : UInt16} {rest rest' : Text} {t : Token} (h : token u rest = some (t, rest')) :
    rest' <:+ rest := by
  obtain ⟨-, rfl⟩ | ⟨-, body, s, -, rfl, -⟩ | ⟨-, -, w, -, rfl⟩ | ⟨-, -, -, q, -, -, rfl⟩ := token_cases h
  · exact List.suffix_refl _
  · exact ⟨body ++ [0x22], by simp⟩
  · exact List.suffix_append w rest'
  · exact List.dropWhile_suffix isNumeric

theorem scan_fuel {n m : Nat} {text : Text} (hn : text.length ≤ n) (hm : text.length ≤ m) :
    scan n text = scan m text := by
  induction n generalizing m text with
  | zero =>
    rw [List.eq_nil_of_length_eq_zero (Nat.le_zero.mp hn)]
    cases m <;> rfl
  | succ n ih =>
    cases text with
    | nil => cases m <;> rfl
    | cons u rest =>
      rw [List.length_cons] at hn hm
      obtain ⟨m, rfl⟩ := Nat.exists_eq_succ_of_ne_zero (Nat.ne_of_gt (Nat.lt_of_lt_of_le (Nat.succ_pos _) hm))
      rw [scan, scan]
      split
      · exact ih (by omega) (by omega)
      · cases ht : token u rest with
        | none => rfl
        | some r =>
          obtain ⟨t, rest'⟩ := r
          have hlength := (token_suffix ht).length_le
          have hscan := @ih m rest' (by omega) (by omega)
          simp only [Option.bind_eq_bind, Option.bind_some]
          rw [hscan]

theorem tokens_nil : tokens [] = some [] := rfl

theorem tokens_space {u : UInt16} (hu : isSpace u = true) (rest : Text) : tokens (u :: rest) = tokens rest := by
  unfold tokens
  rw [List.length_cons, scan, if_pos hu]

theorem tokens_none {u : UInt16} {rest : Text} (hu : ¬ isSpace u = true) (h : token u rest = none) :
    tokens (u :: rest) = none := by
  unfold tokens
  rw [List.length_cons, scan, if_neg hu, h]
  rfl

theorem tokens_cons {u : UInt16} {rest rest' : Text} {t : Token} (hu : ¬ isSpace u = true)
    (h : token u rest = some (t, rest')) : tokens (u :: rest) = (tokens rest').map (t :: ·) := by
  have hscan := @scan_fuel rest.length rest'.length rest' (token_suffix h).length_le le_rfl
  unfold tokens
  rw [List.length_cons, scan, if_neg hu, h]
  simp only [Option.bind_eq_bind, Option.bind_some]
  rw [hscan]
  cases scan rest'.length rest' <;> rfl

/-- a number begins with a digit or with a minus -/
theorem numeral_first {u : UInt16} {t : Text} {q : ℚ} (h : numeral (u :: t) = some q) :
    u = 0x2D ∨ isDigit u = true := by
  by_contra hu
  rw [not_or] at hu
  have hnot : (u :: t).head? ≠ some 0x2D := fun h => hu.1 (Option.some.inj h)
  have hinteger : integer (u :: t) = none := by
    unfold integer
    dsimp only
    rw [List.takeWhile_cons_of_neg hu.2, if_pos (.inl rfl)]
  unfold numeral at h
  dsimp only at h
  rw [if_neg hnot, hinteger] at h
  cases h

theorem numeral_head {u : UInt16} {t : Text} {q : ℚ} (h : numeral (u :: t) = some q) : isNumeric u = true := by
  obtain rfl | hdigit := numeral_first h
  · rfl
  · rw [isNumeric, hdigit]
    rfl

/-- a number that ends a text ends it with one of its characters -/
theorem token_last {u : UInt16} {rest : Text} {q : ℚ} (h : token u rest = some (.number q, [])) :
    (u :: rest).getLast?.any isNumeric = true := by
  have hall : ∀ v ∈ u :: rest, isNumeric v = true := by
    obtain ⟨hmark, -⟩ | ⟨-, body, s, ht, -⟩ | ⟨-, -, w, hword, -⟩ | ⟨-, -, -, q', -, hq, hrest⟩ := token_cases h
    · unfold mark at hmark
      split_ifs at hmark <;> cases hmark
    · cases ht
    · unfold word at hword
      split_ifs at hword <;> cases hword
    · rw [List.forall_mem_cons]
      exact ⟨numeral_head hq, List.dropWhile_eq_nil_iff.mp hrest.symm⟩
  rw [List.getLast?_eq_some_getLast (List.cons_ne_nil u rest), Option.any_some]
  exact hall _ (List.getLast_mem _)

/-- **the tokens of two texts, one after the other**, unless a number goes on from the first to the second -/
theorem tokens_append {text : Text} {ts : List Token} (h : tokens text = some ts) {more : Text}
    (hmore : text.getLast?.any isNumeric = true → more.head?.any isNumeric = false) :
    tokens (text ++ more) = (tokens more).map (ts ++ ·) := by
  induction hn : text.length using Nat.strong_induction_on generalizing text ts with
  | _ n ih =>
    cases text with
    | nil =>
      cases h
      rw [List.nil_append]
      cases tokens more <;> rfl
    | cons u rest =>
      rw [List.length_cons] at hn
      rw [List.cons_append]
      have hlast : ∀ rest' : Text, rest' <:+ rest → (rest'.getLast?.any isNumeric = true →
          more.head?.any isNumeric = false) := by
        rintro rest' ⟨front, rfl⟩ hnumeric
        refine hmore ?_
        cases rest' with
        | nil => cases hnumeric
        | cons v rest' =>
          rw [← List.cons_append, List.getLast?_append_of_ne_nil _ (List.cons_ne_nil v rest')]
          exact hnumeric
      by_cases hu : isSpace u = true
      · rw [tokens_space hu] at h ⊢
        exact ih rest.length (by omega) h (hlast rest (List.suffix_refl rest)) rfl
      · cases ht : token u rest with
        | none =>
          rw [tokens_none hu ht] at h
          cases h
        | some r =>
          obtain ⟨t, rest'⟩ := r
          rw [tokens_cons hu ht] at h
          obtain ⟨ts', hts, rfl⟩ := Option.map_eq_some_iff.mp h
          have htoken := @token_append u rest rest' t ht more (by
            rintro q rfl rfl
            exact hmore (token_last ht))
          have hsuffix := token_suffix ht
          have hlength := hsuffix.length_le
          rw [tokens_cons hu htoken, ih rest'.length (by omega) hts (hlast rest' hsuffix) rfl]
          cases tokens more <;> rfl

/-! ## texts that have no tokens -/

/-- a character that begins no token -/
def Stray (u : UInt16) : Prop :=
  isSpace u = false ∧ mark u = none ∧ u ≠ 0x22 ∧ word u = none ∧ u ≠ 0x2D ∧ isDigit u = false

instance (u : UInt16) : Decidable (Stray u) := inferInstanceAs (Decidable (_ ∧ _ ∧ _ ∧ _ ∧ _ ∧ _))

theorem tokens_stray {u : UInt16} (hu : Stray u) (rest : Text) : tokens (u :: rest) = none := by
  obtain ⟨hspace, hmark, hquote, hword, hminus, hdigit⟩ := hu
  refine tokens_none (ne_true_of_eq_false hspace) ?_
  unfold token
  rw [hmark, if_neg hquote, hword, Option.map_eq_none_iff, Option.eq_none_iff_forall_ne_some]
  intro q hq
  obtain hfirst | hfirst := numeral_first hq
  · exact hminus hfirst
  · rw [hdigit] at hfirst
    cases hfirst

theorem tokens_append_none {text more : Text} (h : (tokens text).isSome = true ∧ text.getLast?.any isNumeric = false)
    (hmore : tokens more = none) : tokens (text ++ more) = none := by
  obtain ⟨ts, hts⟩ := Option.isSome_iff_exists.mp h.1
  have hlast : text.getLast?.any isNumeric = true → more.head?.any isNumeric = false := by
    rw [h.2]
    exact Bool.noConfusion
  rw [tokens_append hts hlast, hmore]
  rfl

theorem parse_eq_none {text : Text} (h : tokens text = none) : parse text = none := by
  rw [parse, h]
  rfl

/-! ## the value of the tokens -/

/-- the tokens are this value, whatever follows -/
def Parses (ts : List Token) (v : Value) : Prop :=
  ∀ n rest, ts.length < n → value n (ts ++ rest) = some (v, rest)

theorem parses_null : Parses [.null] .null := by
  intro n rest hn
  cases n with
  | zero => cases hn
  | succ n => rfl

theorem parses_bool (b : Bool) : Parses [.bool b] (.bool b) := by
  intro n rest hn
  cases n with
  | zero => cases hn
  | succ n => rfl

theorem parses_number (q : ℚ) : Parses [.number q] (.number q) := by
  intro n rest hn
  cases n with
  | zero => cases hn
  | succ n => rfl

theorem parses_string (s : Text) : Parses [.string s] (.string s) := by
  intro n rest hn
  cases n with
  | zero => cases hn
  | succ n => rfl

/-- the tokens with a comma between them -/
def separated : List (List Token) → List Token
  | [] => []
  | [ts] => ts
  | ts :: ts' :: rest => ts ++ .comma :: separated (ts' :: rest)

theorem separated_length {tss : List (List Token)} {ts : List Token} (h : ts ∈ tss) :
    ts.length ≤ (separated tss).length := by
  induction tss using separated.induct with
  | case1 => cases h
  | case2 t =>
    cases List.mem_singleton.mp h
    exact le_refl _
  | case3 t t' more ih =>
    rw [separated, List.length_append, List.length_cons]
    cases List.mem_cons.mp h with
    | inl heq =>
      subst heq
      omega
    | inr hmem =>
      have := ih hmem
      omega

theorem separated_count (tss : List (List Token)) : tss.length ≤ (separated tss).length + 1 := by
  induction tss using separated.induct with
  | case1 => exact Nat.zero_le _
  | case2 t => exact Nat.le_add_left _ _
  | case3 t t' more ih =>
    simp only [separated, List.length_append, List.length_cons] at ih ⊢
    omega

theorem elements_separated {n : Nat} {vs : List (List Token × Value)} (hne : vs ≠ [])
    (h : ∀ p ∈ vs, ∀ rest, value n (p.1 ++ rest) = some (p.2, rest)) {k : Nat} (hk : vs.length ≤ k) (rest : List Token) :
    elements (value n) k (separated (vs.map Prod.fst) ++ .rbracket :: rest) = some (vs.map Prod.snd, rest) := by
  induction vs generalizing k with
  | nil => exact absurd rfl hne
  | cons p vs ih =>
    obtain ⟨k, rfl⟩ := Nat.exists_eq_succ_of_ne_zero (Nat.ne_of_gt (Nat.lt_of_lt_of_le (Nat.succ_pos _) hk))
    rw [List.forall_mem_cons] at h
    rw [List.length_cons, Nat.succ_le_succ_iff] at hk
    cases vs with
    | nil =>
      rw [List.map_singleton, List.map_singleton, separated, elements, h.1]
      rfl
    | cons q vs =>
      have hrest := ih (List.cons_ne_nil q vs) h.2 hk
      rw [List.map_cons, List.map_cons, separated, List.append_assoc, elements, h.1, ← List.map_cons]
      simp only [Option.bind_eq_bind, Option.bind_some, List.cons_append]
      rw [hrest]
      rfl

theorem value_array {n : Nat} {ts rest : List Token} {vs : List Value} (h : elements (value n) n ts = some (vs, rest)) :
    value (n + 1) (.lbracket :: ts) = some (.array vs, rest) := by
  have hhead : ∀ ts', ts ≠ .rbracket :: ts' := by
    rintro ts' rfl
    cases n with
    | zero => cases h
    | succ n => cases h
  rw [value, h]
  · rfl
  · exact hhead

theorem parses_array {vs : List (List Token × Value)} (h : ∀ p ∈ vs, Parses p.1 p.2) :
    Parses (.lbracket :: (separated (vs.map Prod.fst) ++ [.rbracket])) (.array (vs.map Prod.snd)) := by
  intro n rest hn
  cases n with
  | zero => cases hn
  | succ n =>
    rw [List.cons_append, List.append_assoc, List.singleton_append]
    by_cases hne : vs = []
    · rw [hne]
      rfl
    · rw [List.length_cons, List.length_append, List.length_singleton] at hn
      have hinner : ∀ p ∈ vs, ∀ rest, value n (p.1 ++ rest) = some (p.2, rest) := by
        intro p hp rest
        have := separated_length (List.mem_map_of_mem (f := Prod.fst) hp)
        exact h p hp n rest (by omega)
      have hcount := separated_count (vs.map Prod.fst)
      rw [List.length_map] at hcount
      exact value_array (elements_separated hne hinner (by omega) rest)

theorem members_separated {n : Nat} {ms : List (Text × List Token × Value)} (hne : ms ≠ [])
    (h : ∀ m ∈ ms, ∀ rest, value n (m.2.1 ++ rest) = some (m.2.2, rest)) {k : Nat} (hk : ms.length ≤ k)
    (rest : List Token) :
    members (value n) k (separated (ms.map fun m => .string m.1 :: .colon :: m.2.1) ++ .rbrace :: rest)
      = some (ms.map fun m => (m.1, m.2.2), rest) := by
  induction ms generalizing k with
  | nil => exact absurd rfl hne
  | cons m ms ih =>
    obtain ⟨k, rfl⟩ := Nat.exists_eq_succ_of_ne_zero (Nat.ne_of_gt (Nat.lt_of_lt_of_le (Nat.succ_pos _) hk))
    rw [List.forall_mem_cons] at h
    rw [List.length_cons, Nat.succ_le_succ_iff] at hk
    cases ms with
    | nil =>
      rw [List.map_singleton, List.map_singleton, separated, List.cons_append, List.cons_append, members, h.1]
      rfl
    | cons m' ms =>
      have hrest := ih (List.cons_ne_nil m' ms) h.2 hk
      rw [List.map_cons, List.map_cons, separated, List.append_assoc, List.cons_append, List.cons_append, members, h.1]
      simp only [List.map_cons] at hrest
      simp only [Option.bind_eq_bind, Option.bind_some, List.cons_append]
      rw [hrest]
      rfl

theorem value_object {n : Nat} {ts rest : List Token} {ms : List (Text × Value)}
    (h : members (value n) n ts = some (ms, rest)) : value (n + 1) (.lbrace :: ts) = some (.object ms, rest) := by
  have hhead : ∀ ts', ts ≠ .rbrace :: ts' := by
    rintro ts' rfl
    cases n with
    | zero => cases h
    | succ n => cases h
  rw [value, h]
  · rfl
  · exact hhead

theorem parses_object {ms : List (Text × List Token × Value)} (h : ∀ m ∈ ms, Parses m.2.1 m.2.2) :
    Parses (.lbrace :: (separated (ms.map fun m => .string m.1 :: .colon :: m.2.1) ++ [.rbrace]))
      (.object (ms.map fun m => (m.1, m.2.2))) := by
  intro n rest hn
  cases n with
  | zero => cases hn
  | succ n =>
    rw [List.cons_append, List.append_assoc, List.singleton_append]
    by_cases hne : ms = []
    · rw [hne]
      rfl
    · rw [List.length_cons, List.length_append, List.length_singleton] at hn
      have hinner : ∀ m ∈ ms, ∀ rest, value n (m.2.1 ++ rest) = some (m.2.2, rest) := by
        intro m hm rest
        have := separated_length (List.mem_map_of_mem (f := fun m => Token.string m.1 :: .colon :: m.2.1) hm)
        simp only [List.length_cons] at this
        exact h m hm n rest (by omega)
      have hcount := separated_count (ms.map fun m => .string m.1 :: .colon :: m.2.1)
      rw [List.length_map] at hcount
      exact value_object (members_separated hne hinner (by omega) rest)

/-! ## texts that are values -/

/-- the text has these tokens, wherever it stands: no number goes on behind it -/
def Reads (text : Text) (ts : List Token) : Prop :=
  ∀ more : Text, more.head?.any isNumeric = false → tokens (text ++ more) = (tokens more).map (ts ++ ·)

/-- the text is this value -/
def Denotes (text : Text) (v : Value) : Prop := ∃ ts, Parses ts v ∧ Reads text ts

/-- **such a text is read as that value** -/
theorem Denotes.parse {text : Text} {v : Value} (h : Denotes text v) : parse text = some v := by
  obtain ⟨ts, hparses, htokens⟩ := h
  have hts := htokens [] rfl
  rw [List.append_nil, tokens_nil, Option.map_some, List.append_nil] at hts
  have hvalue := hparses (ts.length + 1) [] (Nat.lt_succ_self _)
  rw [List.append_nil] at hvalue
  rw [Json.parse, hts]
  simp only [Option.bind_eq_bind, Option.bind_some]
  rw [hvalue]
  rfl

theorem Denotes.of_tokens {text : Text} {ts : List Token} {v : Value} (htokens : tokens text = some ts)
    (h : Parses ts v) : Denotes text v :=
  ⟨ts, h, fun _ hmore => tokens_append htokens fun _ => hmore⟩

/-- a text in quotes -/
def quoted (body : Text) : Text := 0x22 :: (body ++ [0x22])

theorem tokens_quoted {body s : Text} (h : Chars body s) (more : Text) :
    tokens (quoted body ++ more) = (tokens more).map (.string s :: ·) := by
  have hstring : token 0x22 (body ++ 0x22 :: more) = some (.string s, more) := by
    unfold token
    have hnone : mark 0x22 = none := rfl
    rw [hnone, if_pos rfl, string_ok.mpr ⟨body, rfl, h⟩]
    rfl
  have hquoted : quoted body ++ more = 0x22 :: (body ++ 0x22 :: more) := by simp [quoted]
  rw [hquoted, tokens_cons (by decide) hstring]

theorem denotes_string {body s : Text} (h : Chars body s) : Denotes (quoted body) (.string s) :=
  ⟨[.string s], parses_string s, fun more _ => tokens_quoted h more⟩

/-- the texts with a comma between them -/
def commas : List Text → Text
  | [] => []
  | [t] => t
  | t :: t' :: rest => t ++ 0x2C :: commas (t' :: rest)

def arrayText (vs : List Text) : Text := 0x5B :: (commas vs ++ [0x5D])

def objectText (ms : List (Text × Text)) : Text :=
  0x7B :: (commas (ms.map fun m => quoted m.1 ++ 0x3A :: m.2) ++ [0x7D])

theorem tokens_mark {u : UInt16} {t : Token} (h : mark u = some t) (rest : Text) :
    tokens (u :: rest) = (tokens rest).map (t :: ·) := by
  have hspace : ¬ isSpace u = true := by
    intro hu
    have hnone : mark u = none := by
      simp only [isSpace, Bool.or_eq_true, decide_eq_true_eq] at hu
      obtain ((rfl | rfl) | rfl) | rfl := hu <;> rfl
    rw [hnone] at h
    cases h
  refine tokens_cons hspace ?_
  unfold token
  rw [h]

theorem mark_not_numeric {u : UInt16} {t : Token} (h : mark u = some t) : isNumeric u = false := by
  unfold mark at h
  split_ifs at h with h1 h2 h3 h4 h5 h6
  all_goals
    subst u
    rfl

/-- texts with their tokens, with commas between them -/
theorem reads_commas {ps : List (Text × List Token)} (h : ∀ p ∈ ps, Reads p.1 p.2) :
    Reads (commas (ps.map Prod.fst)) (separated (ps.map Prod.snd)) := by
  intro more hmore
  induction ps with
  | nil => simp [commas, separated]
  | cons p ps ih =>
    rw [List.forall_mem_cons] at h
    cases ps with
    | nil => exact h.1 more hmore
    | cons q ps =>
      have hrest := ih h.2
      rw [List.map_cons, List.map_cons, commas, List.map_cons, List.map_cons, separated, List.append_assoc,
        List.cons_append, h.1 _ rfl, tokens_mark rfl, ← List.map_cons, hrest]
      cases tokens more with
      | none => rfl
      | some ts => simp

theorem Denotes.all {vs : List (Text × Value)} (h : ∀ p ∈ vs, Denotes p.1 p.2) :
    ∃ ps : List (Text × List Token × Value), vs = ps.map (fun p => (p.1, p.2.2)) ∧
      ∀ p ∈ ps, Parses p.2.1 p.2.2 ∧ Reads p.1 p.2.1 := by
  induction vs with
  | nil => exact ⟨[], rfl, fun p hp => by cases hp⟩
  | cons v vs ih =>
    rw [List.forall_mem_cons] at h
    obtain ⟨ts, hts⟩ := h.1
    obtain ⟨ps, rfl, hps⟩ := ih h.2
    refine ⟨(v.1, ts, v.2) :: ps, rfl, ?_⟩
    rw [List.forall_mem_cons]
    exact ⟨hts, hps⟩

/-- the brackets around a text -/
theorem reads_brackets {u u' : UInt16} {t t' : Token} (hu : mark u = some t) (hu' : mark u' = some t')
    {text : Text} {ts : List Token} (h : Reads text ts) :
    Reads (u :: (text ++ [u'])) (t :: (ts ++ [t'])) := by
  intro more hmore
  have hinner : tokens (text ++ u' :: more) = (tokens (u' :: more)).map (ts ++ ·) :=
    h (u' :: more) (mark_not_numeric hu')
  rw [List.cons_append, List.append_assoc, List.singleton_append, tokens_mark hu, hinner, tokens_mark hu']
  cases tokens more with
  | none => rfl
  | some ts' => simp

/-- **an array** of texts that are values -/
theorem denotes_array {vs : List (Text × Value)} (h : ∀ p ∈ vs, Denotes p.1 p.2) :
    Denotes (arrayText (vs.map Prod.fst)) (.array (vs.map Prod.snd)) := by
  obtain ⟨ps, rfl, hps⟩ := Denotes.all h
  have hparses := @parses_array (ps.map Prod.snd) (by
    intro p' hp'
    obtain ⟨p, hp, rfl⟩ := List.mem_map.mp hp'
    exact (hps p hp).1)
  have hreads := @reads_commas (ps.map fun p => (p.1, p.2.1)) (by
    intro p' hp'
    obtain ⟨p, hp, rfl⟩ := List.mem_map.mp hp'
    exact (hps p hp).2)
  simp only [List.map_map] at hparses hreads ⊢
  exact ⟨_, hparses, reads_brackets rfl rfl hreads⟩

/-- characters that are written as themselves -/
theorem chars_self {s : Text} (h : ∀ u ∈ s, u ≠ 0x22 ∧ u ≠ 0x5C ∧ ¬ u < 0x20) : Chars s s := by
  induction s with
  | nil => exact .nil
  | cons u s ih =>
    rw [List.forall_mem_cons] at h
    exact .char h.1.1 h.1.2.1 h.1.2.2 (ih h.2)

theorem reads_member {key text : Text} {ts : List Token} (hkey : Chars key key) (h : Reads text ts) :
    Reads (quoted key ++ 0x3A :: text) (.string key :: .colon :: ts) := by
  intro more hmore
  rw [List.append_assoc, List.cons_append, tokens_quoted hkey, tokens_mark rfl, h more hmore]
  cases tokens more <;> rfl

/-- **an object** of keys, which are written as themselves, and of texts that are values -/
theorem denotes_object {ms : List (Text × Text × Value)} (hkeys : ∀ m ∈ ms, Chars m.1 m.1)
    (h : ∀ m ∈ ms, Denotes m.2.1 m.2.2) :
    Denotes (objectText (ms.map fun m => (m.1, m.2.1))) (.object (ms.map fun m => (m.1, m.2.2))) := by
  have hall : ∃ ps : List (Text × Text × List Token × Value), ms = ps.map (fun p => (p.1, p.2.1, p.2.2.2)) ∧
      ∀ p ∈ ps, Parses p.2.2.1 p.2.2.2 ∧ Reads (quoted p.1 ++ 0x3A :: p.2.1) (.string p.1 :: .colon :: p.2.2.1) := by
    induction ms with
    | nil => exact ⟨[], rfl, fun p hp => by cases hp⟩
    | cons m ms ih =>
      rw [List.forall_mem_cons] at hkeys h
      obtain ⟨ts, hparses, hreads⟩ := h.1
      obtain ⟨ps, rfl, hps⟩ := ih hkeys.2 h.2
      refine ⟨(m.1, m.2.1, ts, m.2.2) :: ps, rfl, ?_⟩
      rw [List.forall_mem_cons]
      exact ⟨⟨hparses, reads_member hkeys.1 hreads⟩, hps⟩
  obtain ⟨ps, rfl, hps⟩ := hall
  have hparses := @parses_object (ps.map fun p => (p.1, p.2.2)) (by
    intro p' hp'
    obtain ⟨p, hp, rfl⟩ := List.mem_map.mp hp'
    exact (hps p hp).1)
  have hreads := @reads_commas (ps.map fun p => (quoted p.1 ++ 0x3A :: p.2.1, .string p.1 :: .colon :: p.2.2.1)) (by
    intro p' hp'
    obtain ⟨p, hp, rfl⟩ := List.mem_map.mp hp'
    exact (hps p hp).2)
  unfold objectText
  simp only [List.map_map] at hparses hreads ⊢
  exact ⟨_, hparses, reads_brackets rfl rfl hreads⟩

theorem commas_cons (t : Text) (ts : List Text) : commas (t :: ts) = t ++ ts.flatMap (0x2C :: ·) := by
  induction ts generalizing t with
  | nil => simp [commas]
  | cons t' ts ih => rw [commas, ih, List.flatMap_cons, List.cons_append]

/-! ## texts, piece by piece -/

/-- the text begins with this value, and goes on with `rest` -/
def Begins (text : Text) (v : Value) (rest : Text) : Prop := ∃ t, Denotes t v ∧ text = t ++ rest

/-- the text begins with these values, with commas between them -/
def Elements (text : Text) (vs : List Value) (rest : Text) : Prop :=
  ∃ ts : List (Text × Value), (∀ p ∈ ts, Denotes p.1 p.2) ∧ ts.map Prod.snd = vs ∧
    text = commas (ts.map Prod.fst) ++ rest

/-- a member of an object behind another one -/
def field (key text : Text) : Text := 0x2C :: (quoted key ++ 0x3A :: text)

/-- the text begins with these members, each with a comma before it -/
def Members (text : Text) (ms : List (Text × Value)) (rest : Text) : Prop :=
  ∃ ts : List (Text × Text × Value), (∀ m ∈ ts, Chars m.1 m.1 ∧ Denotes m.2.1 m.2.2) ∧
    (ts.map fun m => (m.1, m.2.2)) = ms ∧ text = (ts.flatMap fun m => field m.1 m.2.1) ++ rest

section
variable {text key t more rest : Text} {v : Value} {vs : List Value} {ms : List (Text × Value)}

/-- behind a value, too -/
theorem Denotes.append_none (h : Denotes t v) (hhead : more.head?.any isNumeric = false) (hmore : tokens more = none) :
    tokens (t ++ more) = none := by
  obtain ⟨ts, -, hreads⟩ := h
  rw [hreads more hhead, hmore]
  rfl

theorem Denotes.begins (h : Denotes t v) : Begins (t ++ rest) v rest := ⟨t, h, rfl⟩

theorem Begins.denotes (h : Begins text v []) : Denotes text v := by
  obtain ⟨t, ht, rfl⟩ := h
  rwa [List.append_nil]

theorem Elements.nil : Elements rest [] rest := ⟨[], List.forall_mem_nil _, rfl, rfl⟩

theorem Elements.one (h : Begins text v rest) : Elements text [v] rest := by
  obtain ⟨t, ht, rfl⟩ := h
  refine ⟨[(t, v)], ?_, rfl, rfl⟩
  intro p hp
  cases List.mem_singleton.mp hp
  exact ht

theorem Elements.cons (h : Begins text v (0x2C :: more)) (hmore : Elements more vs rest) (hne : vs ≠ []) :
    Elements text (v :: vs) rest := by
  obtain ⟨t, ht, rfl⟩ := h
  obtain ⟨ts, hts, rfl, rfl⟩ := hmore
  refine ⟨(t, v) :: ts, ?_, rfl, ?_⟩
  · rw [List.forall_mem_cons]
    exact ⟨ht, hts⟩
  · cases ts with
    | nil => exact absurd rfl hne
    | cons p ts =>
      rw [List.map_cons, List.map_cons, List.map_cons, commas, List.append_assoc]
      rfl

/-- the brackets around the elements -/
theorem Elements.array (h : Elements text vs (0x5D :: rest)) : Begins (0x5B :: text) (.array vs) rest := by
  obtain ⟨ts, hts, rfl, rfl⟩ := h
  refine ⟨_, denotes_array hts, ?_⟩
  simp [arrayText]

theorem Members.nil : Members rest [] rest := ⟨[], List.forall_mem_nil _, rfl, rfl⟩

theorem Members.cons (hkey : Chars key key) (h : Begins text v more) (hmore : Members more ms rest) :
    Members (0x2C :: (quoted key ++ 0x3A :: text)) ((key, v) :: ms) rest := by
  obtain ⟨t, ht, rfl⟩ := h
  obtain ⟨ts, hts, rfl, rfl⟩ := hmore
  refine ⟨(key, t, v) :: ts, ?_, rfl, ?_⟩
  · rw [List.forall_mem_cons]
    exact ⟨⟨hkey, ht⟩, hts⟩
  · simp [field]

/-- the braces around the members -/
theorem Members.object (hkey : Chars key key) (h : Begins text v more) (hmore : Members more ms (0x7D :: rest)) :
    Begins (0x7B :: (quoted key ++ 0x3A :: text)) (.object ((key, v) :: ms)) rest := by
  obtain ⟨t, ht, rfl⟩ := h
  obtain ⟨ts, hts, rfl, rfl⟩ := hmore
  have hall : ∀ m ∈ (key, t, v) :: ts, Chars m.1 m.1 ∧ Denotes m.2.1 m.2.2 := by
    rw [List.forall_mem_cons]
    exact ⟨⟨hkey, ht⟩, hts⟩
  refine ⟨_, denotes_object (fun m hm => (hall m hm).1) (fun m hm => (hall m hm).2), ?_⟩
  rw [objectText, List.map_cons, List.map_cons, commas_cons]
  simp [field, List.flatMap_map]

end

end Json
