import Dtj.Explorer.Client
import Mathlib.Data.List.TakeWhile

/-!
# The query language of the explorer

`packages/dtj-vscode`, `traceqlSubset.ts`: a query is cut into tokens, and the clauses are read one
after the other.  A loop that did not end would be `diverge`, an exception `panic`.

* `tokenize`, `parseTraceqlSubset`   the source;
* `Spells`, `Lexes`                  how a text is written, token after token;
* `next_ok`                          what one round of the tokenizer takes off the text;
* `tokenize_ok`                      **the tokenizer accepts a text if and only if it is so written**;
* `tokenize_returns`                 and it ends without an exception.
-/

namespace Dtj.Explorer.Traceql
open Checked
open Sdk.TypeScript (Str units)

/-! ## tokens -/

inductive Keyword where
  | FROM | EVENTS | WHERE | AND | OR | NOT | SELECT | LIMIT | IN | BETWEEN | GROUP | BY | ORDER | ASC
  | DESC | GRAPH | AS | COUNT | MIN | MAX | P50 | P95
deriving DecidableEq, Repr

def Keyword.name : Keyword → Str
  | FROM => units "FROM"
  | EVENTS => units "EVENTS"
  | WHERE => units "WHERE"
  | AND => units "AND"
  | OR => units "OR"
  | NOT => units "NOT"
  | SELECT => units "SELECT"
  | LIMIT => units "LIMIT"
  | IN => units "IN"
  | BETWEEN => units "BETWEEN"
  | GROUP => units "GROUP"
  | BY => units "BY"
  | ORDER => units "ORDER"
  | ASC => units "ASC"
  | DESC => units "DESC"
  | GRAPH => units "GRAPH"
  | AS => units "AS"
  | COUNT => units "COUNT"
  | MIN => units "MIN"
  | MAX => units "MAX"
  | P50 => units "P50"
  | P95 => units "P95"

def keywords : List Keyword :=
  [.FROM, .EVENTS, .WHERE, .AND, .OR, .NOT, .SELECT, .LIMIT, .IN, .BETWEEN, .GROUP, .BY, .ORDER, .ASC,
    .DESC, .GRAPH, .AS, .COUNT, .MIN, .MAX, .P50, .P95]

inductive Tok where
  | kw (value : Keyword)
  | ident (value : Str)
  | string (value : Str)
  | number (value : Nat)
  | op (value : Str)
  | star
  | comma
  | eof
deriving DecidableEq

def fail {α : Type} (message : Str) : Res Str α := Checked.fail message

def QUERY_TEXT_MAX_CHARS : Nat := 4096

/-- `/[A-Za-z_]/` -/
def isAlpha (u : UInt16) : Bool := (0x41 ≤ u && u ≤ 0x5A) || u = 0x5F || (0x61 ≤ u && u ≤ 0x7A)

/-- `/[0-9]/` -/
def isDigit (u : UInt16) : Bool := 0x30 ≤ u && u ≤ 0x39

/-- `/[A-Za-z0-9_]/` -/
def isAlnum (u : UInt16) : Bool := isAlpha u || isDigit u

/-- `toUpperCase` and `toLowerCase` of a word -/
def upper (word : Str) : Str := word.map fun u => if 0x61 ≤ u && u ≤ 0x7A then u - 0x20 else u
def lower (word : Str) : Str := word.map fun u => if 0x41 ≤ u && u ≤ 0x5A then u + 0x20 else u

/-- `Number(num)`; from 2⁵³ on the number is rounded, to one that is not safe -/
def number (num : Str) : Nat := num.foldl (fun n u => 10 * n + (u.toNat - 0x30)) 0

def word (ident : Str) : Tok :=
  match keywords.find? fun k => decide (k.name = upper ident) with
  | some k => .kw k
  | none => .ident (lower ident)

/-- the loop in a string, after its quote -/
def readString (quote : UInt16) (value : Str) : Str → Res Str (Str × Str)
  | [] => fail (units "unterminated string literal")
  | c :: rest =>
    if c = quote then .ok (value, rest)
    else if c = 0x5C then
      match rest with
      | [] => fail (units "unterminated string escape")
      | escaped :: rest => readString quote (value ++ [escaped]) rest
    else readString quote (value ++ [c]) rest

/-- one round of the loop: the token, if it finds one, and the rest of the text -/
def next (c : UInt16) (rest : Str) : Res Str (Option Tok × Str) :=
  if isSpace c then .ok (none, rest)
  else if c = 0x2A then .ok (some .star, rest)
  else if c = 0x2C then .ok (some .comma, rest)
  else if c = 0x2E ∨ c = 0x25 ∨ c = 0x28 ∨ c = 0x29 then
    fail (units "unsupported token '" ++ [c] ++ units "' in explorer TraceQL subset")
  else if c = 0x3D then .ok (some (.op (units "=")), rest)
  else if c = 0x21 ∨ c = 0x3C ∨ c = 0x3E then
    fail (units "only '=' comparisons are supported in explorer TraceQL subset")
  else if c = 0x22 ∨ c = 0x27 then do
    let (value, rest) ← readString c [] rest
    return (some (.string value), rest)
  else if isDigit c then
    let num := (c :: rest).takeWhile isDigit
    let rest := (c :: rest).dropWhile isDigit
    if rest.head?.any isAlpha then
      fail (units "numeric units are not supported in explorer TraceQL subset")
    else if 2^53 ≤ number num then fail (units "integer out of safe range")
    else .ok (some (.number (number num)), rest)
  else if isAlpha c then
    .ok (some (word ((c :: rest).takeWhile isAlnum)), (c :: rest).dropWhile isAlnum)
  else fail (units "unexpected character '" ++ [c] ++ units "'")

def scan : Nat → Str → List Tok → Res Str (List Tok)
  | _, [], tokens => .ok (tokens ++ [.eof])
  | 0, _ :: _, _ => .error .diverge
  | n + 1, c :: rest, tokens => do
    let (tok, rest) ← next c rest
    scan n rest (tokens ++ tok.toList)

def tokenize (input : Str) : Res Str (List Tok) :=
  let s := trim input
  if s = [] then fail (units "empty query")
  else if s.length > QUERY_TEXT_MAX_CHARS then
    fail (units s!"query exceeds {QUERY_TEXT_MAX_CHARS} characters")
  else if 0 ∈ s then fail (units "query contains NUL")
  else if 0x3B ∈ s then fail (units "multiple statements are not supported")
  else scan s.length s []

/-! ## clauses -/

def peek : List Tok → Tok
  | [] => .eof
  | t :: _ => t

def expectKw (kw : Keyword) (tokens : List Tok) : Res Str (List Tok) :=
  if peek tokens = .kw kw then .ok tokens.tail else fail (units "expected " ++ kw.name)

def source (tokens : List Tok) : Res Str (List Tok) :=
  if peek tokens = .kw .GRAPH then
    fail (units "FROM graph is not supported in explorer TraceQL subset")
  else if peek tokens = .kw .EVENTS then .ok tokens.tail
  else fail (units "expected \"events\" after FROM")

/-- the object that is returned: its keys, in the order in which they were set, and their values -/
abbrev Filters := List (Str × Str)

/-- the properties of `FIELD_TO_FILTER` -/
def FIELD_TO_FILTER : Filters :=
  [(units "domain", units "domain"), (units "category", units "category"),
    (units "event_name", units "eventName"), (units "severity", units "severity"),
    (units "correlation", units "correlation")]

/-- what the literal inherits from `Object.prototype`, as the key that it becomes; the other names
there have capital letters -/
def inherited : Filters :=
  [(units "constructor", units "function Object() \x7b [native code] \x7d"),
    (units "__proto__", units "[object Object]")]

/-- `FIELD_TO_FILTER[name]` -/
def filterKeyOf (name : Str) : Option Str := (FIELD_TO_FILTER ++ inherited).lookup name

def fieldName : Tok → Res Str Str
  | .ident name =>
    if name = units "payload" then
      fail (units "payload.* predicates are not supported in explorer TraceQL subset")
    else .ok name
  | _ => fail (units "expected field name in WHERE")

def filterKey (name : Str) : Res Str Str :=
  match filterKeyOf name with
  | some key => .ok key
  | none => fail (units "unsupported field '" ++ name ++
      units "' (allowed: domain, category, event_name, severity, correlation)")

def comparison : Tok → Res Str Unit
  | .kw .IN => fail (units "IN is not supported in explorer TraceQL subset")
  | .kw .BETWEEN => fail (units "BETWEEN is not supported in explorer TraceQL subset")
  | .op value => if value = units "=" then .ok () else fail (units "only '=' comparisons are supported")
  | _ => fail (units "only '=' comparisons are supported")

def valueOf : Tok → Res Str Str
  | .string value => .ok value
  | .ident value =>
    if value ∈ SEVERITIES then .ok value
    else fail (units "predicate value must be a string or severity literal")
  | _ => fail (units "predicate value must be a string or severity literal")

/-- one round of the loop after WHERE; `seen` holds the keys of `filters` -/
def predicate (filters : Filters) (tokens : List Tok) : Res Str (Filters × List Tok) :=
  if peek tokens = .kw .OR then fail (units "OR is not supported in explorer TraceQL subset")
  else if peek tokens = .kw .NOT then fail (units "NOT is not supported in explorer TraceQL subset")
  else do
    let name ← fieldName (peek tokens)
    let tokens := tokens.tail
    let key ← filterKey name
    comparison (peek tokens)
    let tokens := tokens.tail
    let value ← valueOf (peek tokens)
    let tokens := tokens.tail
    if value.length > FILTER_MAX_CHARS then
      fail (units "filter value for " ++ name ++ units " exceeds max length")
    else if key = units "severity" ∧ value ∉ SEVERITIES then
      fail (units "severity must be an exact severity name")
    else if key ∈ filters.map Prod.fst then fail (units "duplicate predicate for " ++ name)
    else .ok (filters ++ [(key, value)], tokens)

def predicates : Nat → Filters → List Tok → Res Str (Filters × List Tok)
  | 0, _, _ => .error .diverge
  | n + 1, filters, tokens => do
    let (filters, tokens) ← predicate filters tokens
    if peek tokens = .kw .AND then predicates n filters tokens.tail else .ok (filters, tokens)

def whereClause (tokens : List Tok) : Res Str (Filters × List Tok) :=
  if peek tokens = .kw .WHERE then predicates tokens.length [] tokens.tail else .ok ([], tokens)

def SELECT_FIELDS : List Str :=
  [units "event_sequence", units "severity", units "domain", units "category", units "event_name",
    units "correlation", units "monotonic_ns"]

def isColumn : Tok → Bool
  | .ident value => value ∈ SELECT_FIELDS
  | _ => false

/-- the columns after the first -/
def columns : List Tok → Res Str (List Tok)
  | .comma :: col :: rest =>
    if isColumn col then columns rest else fail (units "SELECT supports only timeline fields or *")
  | [.comma] => fail (units "SELECT supports only timeline fields or *")
  | tokens => .ok tokens

def aggregates : List Keyword := [.COUNT, .MIN, .MAX, .P50, .P95]

def selectClause (tokens : List Tok) : Res Str (List Tok) :=
  if peek tokens = .kw .SELECT then
    let first := peek tokens.tail
    let rest := tokens.tail.tail
    if aggregates.any fun k => first = .kw k then
      fail (units "aggregates are not supported in explorer TraceQL subset")
    else if first = .star then .ok rest
    else if isColumn first then columns rest
    else fail (units "SELECT supports only * or timeline fields")
  else .ok tokens

def limitClause (tokens : List Tok) : Res Str (Nat × List Tok) :=
  if peek tokens = .kw .LIMIT then
    match peek tokens.tail with
    | .number n =>
      if n < 1 ∨ n > EVENTS_PAGE_MAX then fail (units s!"LIMIT must be in 1..={EVENTS_PAGE_MAX}")
      else .ok (n, tokens.tail.tail)
    | _ => fail (units "LIMIT must be an integer")
  else fail (units "LIMIT is required in explorer TraceQL subset")

structure TraceqlSubsetOk where
  filters : Filters
  limit : Nat
deriving DecidableEq

def parseTokens (tokens : List Tok) : Res Str TraceqlSubsetOk := do
  let tokens ← expectKw .FROM tokens
  let tokens ← source tokens
  let (filters, tokens) ← whereClause tokens
  if peek tokens = .kw .GROUP then
    fail (units "GROUP BY is not supported in explorer TraceQL subset")
  else if peek tokens = .kw .ORDER then
    fail (units "ORDER BY is not supported in explorer TraceQL subset")
  else
    let tokens ← selectClause tokens
    let (limit, tokens) ← limitClause tokens
    if peek tokens ≠ .eof then fail (units "unexpected trailing tokens")
    else .ok ⟨filters, limit⟩

def parseTraceqlSubset (input : Str) : Res Str TraceqlSubsetOk := do
  parseTokens (← tokenize input)

example : parseTraceqlSubset (units "FROM events WHERE domain = \"wire\" AND severity = info AND event_name = 'K' LIMIT 50")
  = .ok ⟨[(units "domain", units "wire"), (units "severity", units "info"), (units "eventName", units "K")], 50⟩ := by
  decide +kernel

/-! ## how a text is written -/

/-- the inside of a string: a backslash stands before any character -/
inductive Quoted (quote : UInt16) : Str → Str → Prop
  | nil : Quoted quote [] []
  | char {c : UInt16} {body value : Str} (hquote : c ≠ quote) (hescape : c ≠ 0x5C)
      (h : Quoted quote body value) : Quoted quote (c :: body) (c :: value)
  | escape (c : UInt16) {body value : Str} (h : Quoted quote body value) :
      Quoted quote (0x5C :: c :: body) (c :: value)

/-- a token, as it is written -/
inductive Spells : Str → Tok → Prop
  | star : Spells [0x2A] .star
  | comma : Spells [0x2C] .comma
  | equals : Spells [0x3D] (.op (units "="))
  | string {quote : UInt16} {body value : Str} (hquote : quote = 0x22 ∨ quote = 0x27)
      (h : Quoted quote body value) : Spells (quote :: (body ++ [quote])) (.string value)
  | number {c : UInt16} {digits : Str} (h : ∀ u ∈ c :: digits, isDigit u = true)
      (hsafe : number (c :: digits) < 2^53) : Spells (c :: digits) (.number (number (c :: digits)))
  | word {c : UInt16} {rest : Str} (hc : isAlpha c = true) (h : ∀ u ∈ rest, isAlnum u = true) :
      Spells (c :: rest) (word (c :: rest))

def Tok.isWord : Tok → Bool
  | .kw _ => true
  | .ident _ => true
  | .number _ => true
  | _ => false

/-- a word or a number ends where the letters and digits do -/
def Parted (t : Tok) (rest : Str) : Prop := t.isWord = true → rest.head?.any isAlnum = false

/-- a text is some tokens, one after the other, with white space around them -/
inductive Lexes : Str → List Tok → Prop
  | nil : Lexes [] []
  | space {c : UInt16} {rest : Str} {tokens : List Tok} (hc : isSpace c = true) (h : Lexes rest tokens) :
      Lexes (c :: rest) tokens
  | token {text rest : Str} {t : Tok} {tokens : List Tok} (ht : Spells text t) (hp : Parted t rest)
      (h : Lexes rest tokens) : Lexes (text ++ rest) (t :: tokens)

/-! ## one round -/

theorem isWord_word (ident : Str) : (word ident).isWord = true := by
  unfold word
  split <;> rfl

section
variable {quote c : UInt16} {value rest : Str}

theorem readString_end : readString quote value (quote :: rest) = .ok (value, rest) := by
  rw [readString.eq_def]
  exact if_pos rfl

theorem readString_escape (hquote : quote ≠ 0x5C) :
    readString quote value (0x5C :: c :: rest) = readString quote (value ++ [c]) rest := by
  rw [readString.eq_def]
  dsimp only
  rw [if_neg (Ne.symm hquote), if_pos rfl]

theorem readString_char (hquote : c ≠ quote) (hescape : c ≠ 0x5C) :
    readString quote value (c :: rest) = readString quote (value ++ [c]) rest := by
  rw [readString.eq_def]
  dsimp only
  rw [if_neg hquote, if_neg hescape]

/-- what follows a string is what follows its last quote -/
theorem readString_ok {s v : Str} (hquote : quote ≠ 0x5C) : readString quote value s = .ok (v, rest)
    ↔ ∃ body w, s = body ++ quote :: rest ∧ Quoted quote body w ∧ v = value ++ w := by
  constructor
  · intro h
    induction value, s using readString.induct quote with
    | case1 value => cases h
    | case2 value rest' =>
      rw [readString_end] at h
      cases h
      exact ⟨[], [], rfl, .nil, (List.append_nil v).symm⟩
    | case3 value hne =>
      rw [readString.eq_def] at h
      dsimp only at h
      rw [if_neg hne, if_pos rfl] at h
      cases h
    | case4 value escaped rest' hne ih =>
      rw [readString_escape hquote] at h
      obtain ⟨body, w, hs, hq, hv⟩ := ih h
      refine ⟨0x5C :: escaped :: body, escaped :: w, by rw [hs]; rfl, .escape escaped hq, ?_⟩
      rw [hv, List.append_assoc, List.singleton_append]
    | case5 value c rest' hne hescape ih =>
      rw [readString_char hne hescape] at h
      obtain ⟨body, w, hs, hq, hv⟩ := ih h
      refine ⟨c :: body, c :: w, by rw [hs]; rfl, .char hne hescape hq, ?_⟩
      rw [hv, List.append_assoc, List.singleton_append]
  · rintro ⟨body, w, rfl, hq, rfl⟩
    induction hq generalizing value with
    | nil => rw [List.nil_append, readString_end, List.append_nil]
    | char hne hescape _ ih =>
      rw [List.cons_append, readString_char hne hescape, ih, List.append_assoc, List.singleton_append]
    | escape c _ ih =>
      rw [List.cons_append, List.cons_append, readString_escape hquote, ih, List.append_assoc,
        List.singleton_append]

end

theorem isAlnum_le {c : UInt16} (h : isAlnum c = true) : c ≤ 0x7A := by
  simp only [isAlnum, isAlpha, isDigit, Bool.or_eq_true, Bool.and_eq_true, decide_eq_true_eq] at h
  obtain ((⟨-, h⟩ | rfl) | ⟨-, h⟩) | ⟨-, h⟩ := h
  · exact UInt16.le_trans h (by decide)
  · decide
  · exact h
  · exact UInt16.le_trans h (by decide)

theorem isAlnum_not_space {c : UInt16} (h : isAlnum c = true) : isSpace c = false := by
  have hlow : ([0x9, 0xA, 0xB, 0xC, 0xD, 0x20, 0xA0, 0x1680, 0x2028, 0x2029, 0x202F, 0x205F, 0x3000,
      0xFEFF] : Str).all (fun d => !isAlnum d) = true := by decide
  rw [isSpace, Bool.or_eq_false_iff]
  constructor
  · rw [decide_eq_false_iff_not]
    intro hmem
    have hnot := List.all_eq_true.mp hlow c hmem
    rw [h] at hnot
    cases hnot
  · have hlt : ¬ 0x2000 ≤ c := UInt16.not_le.mpr (UInt16.lt_of_le_of_lt (isAlnum_le h) (by decide))
    rw [decide_eq_false hlt, Bool.false_and]

/-- letters and digits are no white space and no punctuation -/
theorem next_alnum {c : UInt16} (h : isAlnum c = true) (rest : Str) :
    next c rest = if isDigit c then
        let num := (c :: rest).takeWhile isDigit
        let rest := (c :: rest).dropWhile isDigit
        if rest.head?.any isAlpha then
          fail (units "numeric units are not supported in explorer TraceQL subset")
        else if 2^53 ≤ number num then fail (units "integer out of safe range")
        else .ok (some (.number (number num)), rest)
      else .ok (some (word ((c :: rest).takeWhile isAlnum)), (c :: rest).dropWhile isAlnum) := by
  have hplain : isSpace c = false ∧ c ≠ 0x2A ∧ c ≠ 0x2C ∧ ¬ (c = 0x2E ∨ c = 0x25 ∨ c = 0x28 ∨ c = 0x29) ∧
      c ≠ 0x3D ∧ ¬ (c = 0x21 ∨ c = 0x3C ∨ c = 0x3E) ∧ ¬ (c = 0x22 ∨ c = 0x27) := by
    refine ⟨isAlnum_not_space h, ?_, ?_, ?_, ?_, ?_, ?_⟩
    · rintro rfl
      cases h
    · rintro rfl
      cases h
    · rintro (rfl | rfl | rfl | rfl) <;> cases h
    · rintro rfl
      cases h
    · rintro (rfl | rfl | rfl) <;> cases h
    · rintro (rfl | rfl) <;> cases h
  obtain ⟨hspace, hstar, hcomma, hpunct, hequals, hcompare, hquote⟩ := hplain
  unfold next
  rw [if_neg (ne_true_of_eq_false hspace), if_neg hstar, if_neg hcomma, if_neg hpunct, if_neg hequals,
    if_neg hcompare, if_neg hquote]
  by_cases hd : isDigit c = true
  · rw [if_pos hd, if_pos hd]
  · rw [isAlnum, Bool.or_eq_true] at h
    rw [if_neg hd, if_neg hd, if_pos (h.resolve_right hd)]

theorem isAlpha_not_digit {c : UInt16} (h : isAlpha c = true) : isDigit c = false := by
  have hlow : 0x39 < c := by
    simp only [isAlpha, Bool.or_eq_true, Bool.and_eq_true, decide_eq_true_eq] at h
    obtain (⟨h, -⟩ | rfl) | ⟨h, -⟩ := h
    · exact UInt16.lt_of_lt_of_le (by decide) h
    · decide
    · exact UInt16.lt_of_lt_of_le (by decide) h
  rw [isDigit, decide_eq_false (UInt16.not_le.mpr hlow), Bool.and_false]

/-- a longest run -/
theorem span_eq {p : UInt16 → Bool} {text rest : Str} (h : ∀ u ∈ text, p u = true)
    (hrest : rest.head?.any p = false) :
    (text ++ rest).takeWhile p = text ∧ (text ++ rest).dropWhile p = rest := by
  rw [List.takeWhile_append_of_pos h, List.dropWhile_append_of_pos h]
  cases rest with
  | nil => exact ⟨List.append_nil text, rfl⟩
  | cons u rest =>
    have hu : ¬ p u = true := ne_true_of_eq_false hrest
    rw [List.takeWhile_cons_of_neg hu, List.dropWhile_cons_of_neg hu, List.append_nil]
    exact ⟨rfl, rfl⟩

theorem head_dropWhile (p : UInt16 → Bool) (s : Str) : (s.dropWhile p).head?.any p = false := by
  induction s with
  | nil => rfl
  | cons u s ih =>
    cases hu : p u with
    | true => rwa [List.dropWhile_cons_of_pos hu]
    | false => rw [List.dropWhile_cons_of_neg (ne_true_of_eq_false hu), List.head?_cons, Option.any_some, hu]

theorem head_isAlnum {rest : Str} : rest.head?.any isAlnum = false
    ↔ rest.head?.any isAlpha = false ∧ rest.head?.any isDigit = false := by
  cases rest with
  | nil => simp
  | cons u rest => simp [isAlnum]

theorem quote_ne {c : UInt16} (hquote : c = 0x22 ∨ c = 0x27) : c ≠ 0x5C := by
  rintro rfl
  revert hquote
  decide

theorem next_quote {c : UInt16} (hquote : c = 0x22 ∨ c = 0x27) (rest : Str) :
    next c rest = do
      let (value, rest) ← readString c [] rest
      return (some (.string value), rest) := by
  cases hquote with
  | inl h =>
    subst h
    rfl
  | inr h =>
    subst h
    rfl

/-- **what one round takes off the text**: a white space, or a token -/
theorem next_ok {c : UInt16} {rest rest' : Str} {tok : Option Tok} :
    next c rest = .ok (tok, rest') ↔ (isSpace c = true ∧ tok = none ∧ rest' = rest)
      ∨ ∃ t text, tok = some t ∧ c :: rest = text ++ rest' ∧ Spells text t ∧ Parted t rest' := by
  constructor
  · intro h
    by_cases halnum : isAlnum c = true
    · right
      rw [next_alnum halnum] at h
      dsimp only at h
      split_ifs at h with hd ha hsafe
      · cases h
      · cases h
      · cases h
        refine ⟨_, _, rfl, List.takeWhile_append_dropWhile.symm, ?_, ?_⟩
        · rw [List.takeWhile_cons_of_pos hd] at hsafe ⊢
          refine .number ?_ (not_le.mp hsafe)
          rw [← List.takeWhile_cons_of_pos hd]
          exact fun u hu => (List.mem_takeWhile_imp hu)
        · intro _
          exact head_isAlnum.mpr ⟨eq_false_of_ne_true ha, head_dropWhile _ _⟩
      · cases h
        refine ⟨_, _, rfl, List.takeWhile_append_dropWhile.symm, ?_, fun _ => head_dropWhile _ _⟩
        rw [List.takeWhile_cons_of_pos halnum]
        rw [isAlnum, Bool.or_eq_true] at halnum
        exact .word (halnum.resolve_right hd) fun u hu => (List.mem_takeWhile_imp hu)
    · rw [isAlnum, Bool.or_eq_true, not_or] at halnum
      unfold next at h
      by_cases hspace : isSpace c = true
      · rw [if_pos hspace] at h
        cases h
        exact .inl ⟨hspace, rfl, rfl⟩
      right
      rw [if_neg hspace] at h
      by_cases hstar : c = 0x2A
      · rw [if_pos hstar] at h
        cases h
        subst hstar
        exact ⟨_, _, rfl, rfl, .star, fun hw => by cases hw⟩
      rw [if_neg hstar] at h
      by_cases hcomma : c = 0x2C
      · rw [if_pos hcomma] at h
        cases h
        subst hcomma
        exact ⟨_, _, rfl, rfl, .comma, fun hw => by cases hw⟩
      rw [if_neg hcomma] at h
      by_cases hpunct : c = 0x2E ∨ c = 0x25 ∨ c = 0x28 ∨ c = 0x29
      · rw [if_pos hpunct] at h
        cases h
      rw [if_neg hpunct] at h
      by_cases hequals : c = 0x3D
      · rw [if_pos hequals] at h
        cases h
        subst hequals
        exact ⟨_, _, rfl, rfl, .equals, fun hw => by cases hw⟩
      rw [if_neg hequals] at h
      by_cases hcompare : c = 0x21 ∨ c = 0x3C ∨ c = 0x3E
      · rw [if_pos hcompare] at h
        cases h
      rw [if_neg hcompare] at h
      by_cases hquote : c = 0x22 ∨ c = 0x27
      · rw [if_pos hquote] at h
        obtain ⟨⟨value, rest''⟩, hread, h⟩ := bind_eq_ok.mp h
        cases h
        obtain ⟨body, w, hs, hq, hv⟩ := (readString_ok (quote_ne hquote)).mp hread
        refine ⟨_, c :: (body ++ [c]), rfl, by rw [hs]; simp, ?_, fun hw => by cases hw⟩
        rw [hv]
        exact .string hquote hq
      rw [if_neg hquote, if_neg halnum.2, if_neg halnum.1] at h
      cases h
  · rintro (⟨hspace, rfl, rfl⟩ | ⟨t, text, rfl, htext, hspell, hpart⟩)
    · rw [next, if_pos hspace]
    · cases hspell with
      | star =>
        cases htext
        rfl
      | comma =>
        cases htext
        rfl
      | equals =>
        cases htext
        rfl
      | @string quote body value hquote hq =>
        rw [List.cons_append, List.append_assoc, List.singleton_append] at htext
        obtain ⟨rfl, rfl⟩ := List.cons.inj htext
        have hread : readString c [] (body ++ c :: rest') = .ok (value, rest') :=
          (readString_ok (quote_ne hquote)).mpr ⟨body, value, rfl, hq, (List.nil_append value).symm⟩
        rw [next_quote hquote, hread]
        rfl
      | @number u digits hdigits hsafe =>
        rw [List.cons_append] at htext
        obtain ⟨rfl, rfl⟩ := List.cons.inj htext
        have hd : isDigit c = true := hdigits c List.mem_cons_self
        obtain ⟨halpha, hdigit⟩ := head_isAlnum.mp (hpart rfl)
        obtain ⟨htake, hdrop⟩ := span_eq hdigits hdigit
        rw [List.cons_append] at htake hdrop
        rw [next_alnum (by rw [isAlnum, hd, Bool.or_true]), if_pos hd]
        dsimp only
        rw [htake, hdrop, if_neg (ne_true_of_eq_false halpha), if_neg (not_le.mpr hsafe)]
      | @word u letters hu hword =>
        rw [List.cons_append] at htext
        obtain ⟨rfl, rfl⟩ := List.cons.inj htext
        have halnum : ∀ v ∈ c :: letters, isAlnum v = true := by
          rw [List.forall_mem_cons]
          exact ⟨by rw [isAlnum, hu, Bool.true_or], hword⟩
        obtain ⟨htake, hdrop⟩ := span_eq halnum (hpart (isWord_word _))
        rw [List.cons_append] at htake hdrop
        rw [next_alnum (halnum c List.mem_cons_self), if_neg (ne_true_of_eq_false (isAlpha_not_digit hu)), htake,
          hdrop]

/-! ## the loop -/

theorem next_shorter {c : UInt16} {rest rest' : Str} {tok : Option Tok}
    (h : next c rest = .ok (tok, rest')) : rest'.length ≤ rest.length := by
  obtain ⟨-, -, rfl⟩ | ⟨t, text, -, htext, hspell, -⟩ := next_ok.mp h
  · exact le_refl _
  · have hlength := congrArg List.length htext
    have hpos : 0 < text.length := by cases hspell <;> simp
    rw [List.length_cons, List.length_append] at hlength
    omega

/-- the loop gives the tokens that the text is written with -/
theorem scan_ok {n : Nat} {s : Str} {tokens found : List Tok} (hn : s.length ≤ n) :
    scan n s tokens = .ok found ↔ ∃ more, Lexes s more ∧ found = tokens ++ more ++ [.eof] := by
  constructor
  · intro h
    induction n generalizing s tokens with
    | zero =>
      cases s with
      | nil =>
        cases h
        exact ⟨[], .nil, by rw [List.append_nil]⟩
      | cons c rest => cases h
    | succ n ih =>
      cases s with
      | nil =>
        cases h
        exact ⟨[], .nil, by rw [List.append_nil]⟩
      | cons c rest =>
        rw [List.length_cons] at hn
        obtain ⟨⟨tok, rest'⟩, hnext, h⟩ := bind_eq_ok.mp h
        have hshort := next_shorter hnext
        obtain ⟨more, hmore, hfound⟩ := ih (by omega) h
        obtain ⟨hspace, rfl, rfl⟩ | ⟨t, text, rfl, htext, hspell, hpart⟩ := next_ok.mp hnext
        · exact ⟨more, .space hspace hmore, by simpa using hfound⟩
        · refine ⟨t :: more, ?_, by simpa using hfound⟩
          rw [htext]
          exact .token hspell hpart hmore
  · rintro ⟨more, hmore, rfl⟩
    induction hmore generalizing n tokens with
    | nil => cases n <;> simp [scan]
    | @space c rest more hc hmore ih =>
      cases n with
      | zero => cases hn
      | succ n =>
        rw [List.length_cons] at hn
        rw [scan, next_ok.mpr (.inl ⟨hc, rfl, rfl⟩), ok_bind]
        dsimp only
        rw [ih (by omega), Option.toList_none, List.append_nil]
    | @token text rest t more hspell hpart hmore ih =>
      have hpos : ∃ c text', text = c :: text' := by
        cases hspell
        all_goals exact ⟨_, _, rfl⟩
      obtain ⟨c, text', rfl⟩ := hpos
      cases n with
      | zero => cases hn
      | succ n =>
        rw [List.cons_append, List.length_cons, List.length_append] at hn
        have hnext : next c (text' ++ rest) = .ok (some t, rest) :=
          next_ok.mpr (.inr ⟨t, c :: text', rfl, rfl, hspell, hpart⟩)
        rw [List.cons_append, scan, hnext, ok_bind]
        dsimp only
        rw [ih (by omega)]
        simp

/-- the tokens that a text is written with are the only ones -/
theorem Lexes.unique {s : Str} {ts ts' : List Tok} (h : Lexes s ts) (h' : Lexes s ts') : ts = ts' := by
  have hscan := (@scan_ok s.length s [] _ le_rfl).mpr ⟨ts, h, rfl⟩
  rw [(@scan_ok s.length s [] _ le_rfl).mpr ⟨ts', h', rfl⟩] at hscan
  simpa using hscan.symm

/-- what is left of a query when white space at its ends is gone: not too long, without NUL, and one
statement -/
structure Admitted (text : Str) : Prop where
  length : text.length ≤ QUERY_TEXT_MAX_CHARS
  no_nul : 0 ∉ text
  one_statement : 0x3B ∉ text

/-- **the tokenizer gives the tokens that the query is written with** -/
theorem tokenize_ok {input : Str} {found : List Tok} : tokenize input = .ok found
    ↔ trim input ≠ [] ∧ Admitted (trim input) ∧ ∃ tokens, Lexes (trim input) tokens ∧ found = tokens ++ [.eof] := by
  unfold tokenize
  dsimp only
  generalize trim input = s
  by_cases hempty : s = []
  · rw [if_pos hempty]
    simp [fail, Checked.fail, hempty]
  rw [if_neg hempty]
  by_cases hlength : s.length > QUERY_TEXT_MAX_CHARS
  · rw [if_pos hlength]
    constructor
    · intro h
      cases h
    · intro h
      exact absurd h.2.1.length (not_le.mpr hlength)
  rw [if_neg hlength]
  by_cases hnul : 0 ∈ s
  · rw [if_pos hnul]
    constructor
    · intro h
      cases h
    · intro h
      exact absurd hnul h.2.1.no_nul
  rw [if_neg hnul]
  by_cases hstatement : 0x3B ∈ s
  · rw [if_pos hstatement]
    constructor
    · intro h
      cases h
    · intro h
      exact absurd hstatement h.2.1.one_statement
  rw [if_neg hstatement, scan_ok le_rfl]
  simp only [List.nil_append]
  constructor
  · intro h
    exact ⟨hempty, ⟨not_lt.mp hlength, hnul, hstatement⟩, h⟩
  · intro h
    exact h.2.2

/-! ## the end of the loops -/

/-- it ends, and without an exception -/
def Returns {α : Type} (r : Res Str α) : Prop := Safe (fun _ => True) r

theorem returns_fail {α : Type} (message : Str) : Returns (fail message : Res Str α) := trivial

theorem Returns.bind {α β : Type} {x : Res Str α} {f : α → Res Str β} (hx : Returns x)
    (hf : ∀ a, x = .ok a → Returns (f a)) : Returns (x >>= f) := by
  cases x with
  | ok a => exact hf a rfl
  | error e => cases e <;> exact hx

theorem readString_returns (quote : UInt16) (value s : Str) : Returns (readString quote value s) := by
  induction value, s using readString.induct quote with
  | case1 value => trivial
  | case2 value rest =>
    rw [readString_end]
    trivial
  | case3 value hne =>
    rw [readString.eq_def]
    dsimp only
    rw [if_neg hne, if_pos rfl]
    trivial
  | case4 value escaped rest hne ih =>
    rw [readString_escape (Ne.symm hne)]
    exact ih
  | case5 value c rest hne hescape ih =>
    rw [readString_char hne hescape]
    exact ih

theorem next_returns (c : UInt16) (rest : Str) : Returns (next c rest) := by
  by_cases halnum : isAlnum c = true
  · rw [next_alnum halnum]
    dsimp only
    by_cases hd : isDigit c = true
    · rw [if_pos hd]
      split_ifs <;> trivial
    · rw [if_neg hd]
      trivial
  by_cases hquote : c = 0x22 ∨ c = 0x27
  · rw [next_quote hquote]
    refine (readString_returns c [] rest).bind ?_
    intro found _
    trivial
  rw [isAlnum, Bool.or_eq_true, not_or] at halnum
  unfold next
  rw [if_neg hquote, if_neg halnum.2, if_neg halnum.1]
  repeat' apply safe_ite <;> intro _
  all_goals trivial

theorem scan_returns {n : Nat} {s : Str} (hn : s.length ≤ n) (tokens : List Tok) :
    Returns (scan n s tokens) := by
  induction n generalizing s tokens with
  | zero =>
    cases s with
    | nil => trivial
    | cons c rest => cases hn
  | succ n ih =>
    cases s with
    | nil => trivial
    | cons c rest =>
      rw [List.length_cons] at hn
      refine (next_returns c rest).bind ?_
      rintro ⟨tok, rest'⟩ hnext
      have hshort := next_shorter hnext
      exact ih (by omega) _

theorem tokenize_returns (input : Str) : Returns (tokenize input) := by
  unfold tokenize
  dsimp only
  split_ifs
  case neg => exact scan_returns le_rfl []
  all_goals trivial

end Dtj.Explorer.Traceql
