import Dtj.Explorer.Session
import Dtj.Explorer.Subset
import Mathlib.Data.List.ReduceOption

/-!
# A query that the explorer writes

`normalizeFilters` (`messages.ts`) lets a message's filters through, and `formatTraceqlSubset` writes
them as a query.  The values are written by `JSON.stringify` and read back by the tokenizer of the
query language, which drops each backslash and keeps what stands after it.

* `formatTraceqlSubset`, `normalizeFilters`   the source;
* `points`, `escape`         what `JSON.stringify` does with a string, code point by code point;
* `reread`, `reread_eq_iff`  what the tokenizer makes of it, and when that is the string again;
* `lexes_format`             the tokens of the query;
* `read_back_iff`            **the query is read as its filters if and only if their values are plain**.
-/

namespace Dtj.Explorer.Traceql
open Checked
open Sdk.TypeScript (Str units units_nat isHigh isLow lone)

/-! ## `JSON.stringify` of a string -/

/-- the code points of a string; a surrogate that stands alone is one too -/
def points : Str → List Str
  | [] => []
  | [u] => [[u]]
  | u :: v :: rest => if isHigh u ∧ isLow v then [u, v] :: points rest else [u] :: points (v :: rest)

def hexDigit (n : Nat) : UInt16 := UInt16.ofNat (if n < 10 then 0x30 + n else 0x57 + n)

/-- four digits -/
def hex (u : UInt16) : Str :=
  [hexDigit (u.toNat / 2^12 % 2^4), hexDigit (u.toNat / 2^8 % 2^4), hexDigit (u.toNat / 2^4 % 2^4),
    hexDigit (u.toNat % 2^4)]

/-- what stands after the backslash, if the code point is escaped -/
def escape : Str → Option Str
  | [u] =>
    if u = 0x22 ∨ u = 0x5C then some [u]
    else if u = 0x8 then some (units "b")
    else if u = 0x9 then some (units "t")
    else if u = 0xA then some (units "n")
    else if u = 0xC then some (units "f")
    else if u = 0xD then some (units "r")
    else if u < 0x20 ∨ isHigh u ∨ isLow u then some (units "u" ++ hex u)
    else none
  | _ => none

def escaped (point : Str) : Str :=
  match escape point with
  | some text => 0x5C :: text
  | none => point

/-- `JSON.stringify(value)` -/
def stringify (value : Str) : Str := 0x22 :: ((points value).flatMap escaped ++ [0x22])

example : stringify (units "a\"b\\\n\x01") = units "\"a\\\"b\\\\\\n\\u0001\"" := by decide

/-! ## filters -/

/-- a property of an object that came in a message -/
inductive Property where
  | undefined
  | string (value : Str)
  | other
deriving DecidableEq

/-- the filters of a message: `undefined` or `null`, an object, or anything else -/
inductive RawFilters where
  | missing
  | object (properties : List (Str × Property))
  | other
deriving DecidableEq

def FILTER_KEYS : List Str :=
  [units "domain", units "category", units "eventName", units "severity", units "correlation"]

/-- one round of the second loop; `none` is the `return null` -/
def normalizeFilter (f : List (Str × Property)) (key : Str) : Option (Option Str) :=
  match f.lookup key with
  | none => some none
  | some .undefined => some none
  | some (.string v) =>
    if v = [] then some none
    else if v.length > FILTER_MAX_CHARS ∨ 0 ∈ v then none
    else some (some v)
  | some .other => none

def normalizeFilters : RawFilters → Option EventFilters
  | .missing => some ⟨none, none, none, none, none⟩
  | .object f =>
    if f.all fun p => decide (p.1 ∈ FILTER_KEYS) then do
      let domain ← normalizeFilter f (units "domain")
      let category ← normalizeFilter f (units "category")
      let eventName ← normalizeFilter f (units "eventName")
      let severity ← normalizeFilter f (units "severity")
      let correlation ← normalizeFilter f (units "correlation")
      return ⟨domain, category, eventName, severity, correlation⟩
    else none
  | .other => none

def options (filters : EventFilters) : List (Option Str) :=
  [filters.domain, filters.category, filters.eventName, filters.severity, filters.correlation]

/-- the values that are given, by their names -/
def named (names : List Str) (values : List (Option Str)) : Filters :=
  (names.zip values).filterMap fun p => p.2.map fun v => (p.1, v)

/-- the object: the keys that it has, in the order in which they are set -/
def entries (filters : EventFilters) : Filters := named FILTER_KEYS (options filters)

def push (field : Str) : Option Str → List Str
  | none => []
  | some value => if value = [] then [] else [field ++ units " = " ++ stringify value]

def formatTraceqlSubset (filters : EventFilters) (limit : Nat) : Str :=
  let preds := push (units "domain") filters.domain ++ push (units "category") filters.category ++
    push (units "event_name") filters.eventName ++ push (units "severity") filters.severity ++
    push (units "correlation") filters.correlation
  let wherePart := if preds.length > 0 then units " WHERE " ++ (units " AND ").intercalate preds else []
  units "FROM events" ++ wherePart ++ units " LIMIT " ++ units (toString limit)

example : formatTraceqlSubset ⟨some (units "wire"), none, none, some (units "info"), none⟩ 100
    = units "FROM events WHERE domain = \"wire\" AND severity = \"info\" LIMIT 100" := by
  decide

/-! ## code points -/

theorem flatten_points (value : Str) : (points value).flatten = value := by
  induction value using points.induct with
  | case1 => rfl
  | case2 u => rfl
  | case3 u v rest hpair ih => rw [points, if_pos hpair, List.flatten_cons, ih]; rfl
  | case4 u v rest hpair ih => rw [points, if_neg hpair, List.flatten_cons, ih]; rfl

/-- a code unit, or a pair of surrogates -/
theorem mem_points {value point : Str} (h : point ∈ points value) :
    (∃ u, point = [u]) ∨ ∃ u v, point = [u, v] ∧ isHigh u = true ∧ isLow v = true := by
  induction value using points.induct with
  | case1 => cases h
  | case2 u => exact .inl ⟨u, List.mem_singleton.mp h⟩
  | case3 u v rest hpair ih =>
    rw [points, if_pos hpair, List.mem_cons] at h
    cases h with
    | inl h => exact .inr ⟨u, v, h, hpair⟩
    | inr h => exact ih h
  | case4 u v rest hpair ih =>
    rw [points, if_neg hpair, List.mem_cons] at h
    cases h with
    | inl h => exact .inl ⟨u, h⟩
    | inr h => exact ih h

/-- a code unit that is escaped by letters and digits -/
def Marked (u : UInt16) : Prop := u < 0x20 ∨ isHigh u = true ∨ isLow u = true

theorem lone_iff (value : Str) :
    lone value = true ↔ ∃ u, [u] ∈ points value ∧ (isHigh u = true ∨ isLow u = true) := by
  induction value using points.induct with
  | case1 => simp [lone, points]
  | case2 u => simp [lone, points]
  | case3 u v rest hpair ih => simp [lone, points, hpair, ih]
  | case4 u v rest hpair ih => simp [lone, points, hpair, ih, or_and_right, exists_or, or_assoc]

theorem isAlnum_hexDigit {n : Nat} (hn : n < 2^4) : isAlnum (hexDigit n) = true := by
  have hall : ∀ n < 2^4, isAlnum (hexDigit n) = true := by decide
  exact hall n hn

theorem isAlnum_hex {u d : UInt16} (h : d ∈ hex u) : isAlnum d = true := by
  simp only [hex, List.mem_cons, List.not_mem_nil, or_false] at h
  obtain rfl | rfl | rfl | rfl := h
  all_goals exact isAlnum_hexDigit (Nat.mod_lt _ (by decide))

/-- **what is escaped**: quotes and backslashes, by themselves, and what is marked, by letters -/
theorem escape_some {point text : Str} (h : escape point = some text) :
    (text = point ∧ (point = [0x22] ∨ point = [0x5C]))
      ∨ ∃ u c rest, point = [u] ∧ Marked u ∧ text = c :: rest ∧ isAlpha c = true ∧ ∀ d ∈ rest, isAlnum d = true := by
  unfold escape at h
  split at h
  case h_1 u =>
    by_cases hquote : u = 0x22 ∨ u = 0x5C
    · rw [if_pos hquote] at h
      cases h
      left
      cases hquote with
      | inl hu => exact ⟨rfl, .inl (by rw [hu])⟩
      | inr hu => exact ⟨rfl, .inr (by rw [hu])⟩
    rw [if_neg hquote] at h
    right
    split_ifs at h with hb ht hn hf hr hmarked
    · cases h
      exact ⟨u, 0x62, [], rfl, .inl (by rw [hb]; decide), rfl, by decide, by simp⟩
    · cases h
      exact ⟨u, 0x74, [], rfl, .inl (by rw [ht]; decide), rfl, by decide, by simp⟩
    · cases h
      exact ⟨u, 0x6E, [], rfl, .inl (by rw [hn]; decide), rfl, by decide, by simp⟩
    · cases h
      exact ⟨u, 0x66, [], rfl, .inl (by rw [hf]; decide), rfl, by decide, by simp⟩
    · cases h
      exact ⟨u, 0x72, [], rfl, .inl (by rw [hr]; decide), rfl, by decide, by simp⟩
    · cases h
      exact ⟨u, 0x75, hex u, rfl, hmarked, rfl, by decide, fun d hd => isAlnum_hex hd⟩
  case h_2 => cases h

theorem escape_none {u : UInt16} (h : escape [u] = none) : u ≠ 0x22 ∧ u ≠ 0x5C ∧ ¬ Marked u := by
  unfold escape at h
  dsimp only at h
  split_ifs at h with hquote hb ht hn hf hr hmarked
  rw [not_or] at hquote
  exact ⟨hquote.1, hquote.2, hmarked⟩

theorem high_low_plain {u : UInt16} (h : isHigh u = true ∨ isLow u = true) : 0xD800 ≤ u := by
  simp only [isHigh, isLow, decide_eq_true_eq] at h
  obtain ⟨h, -⟩ | ⟨h, -⟩ := h
  · exact h
  · exact UInt16.le_trans (by decide) h

/-! ## a string, read back -/

/-- what the tokenizer makes of a code point -/
def reread (point : Str) : Str := (escape point).getD point

theorem Quoted.append {quote : UInt16} {a b v w : Str} (ha : Quoted quote a v) (hb : Quoted quote b w) :
    Quoted quote (a ++ b) (v ++ w) := by
  induction ha with
  | nil => exact hb
  | char hquote hescape _ ih => exact .char hquote hescape ih
  | escape c _ ih => exact .escape c ih

/-- text without quotes and backslashes stands for itself -/
theorem quoted_self {quote : UInt16} {text : Str} (h : ∀ u ∈ text, u ≠ quote ∧ u ≠ 0x5C) :
    Quoted quote text text := by
  induction text with
  | nil => exact .nil
  | cons u text ih =>
    rw [List.forall_mem_cons] at h
    exact .char h.1.1 h.1.2 (ih h.2)

theorem isAlnum_ne {u : UInt16} (h : isAlnum u = true) : u ≠ 0x22 ∧ u ≠ 0x5C := by
  constructor
  · rintro rfl
    cases h
  · rintro rfl
    cases h

theorem quoted_escaped {value point : Str} (h : point ∈ points value) :
    Quoted 0x22 (escaped point) (reread point) := by
  unfold escaped reread
  cases hescape : escape point with
  | some text =>
    obtain ⟨rfl, hself⟩ | ⟨u, c, rest, -, -, rfl, -, hrest⟩ := escape_some hescape
    · cases hself with
      | inl hself =>
        subst hself
        exact .escape 0x22 .nil
      | inr hself =>
        subst hself
        exact .escape 0x5C .nil
    · exact .escape c (quoted_self fun d hd => isAlnum_ne (hrest d hd))
  | none =>
    refine quoted_self ?_
    obtain ⟨u, rfl⟩ | ⟨u, v, rfl, hu, hv⟩ := mem_points h
    · obtain ⟨hquote, hback, -⟩ := escape_none hescape
      simpa using ⟨hquote, hback⟩
    · have hne : ∀ w : UInt16, 0xD800 ≤ w → w ≠ 0x22 ∧ w ≠ 0x5C := by
        intro w hw
        constructor
        · rintro rfl
          exact absurd hw (by decide)
        · rintro rfl
          exact absurd hw (by decide)
      simpa using ⟨hne u (high_low_plain (.inl hu)), hne v (high_low_plain (.inr hv))⟩

theorem quoted_points (ps : List Str) (h : ∀ p ∈ ps, Quoted 0x22 (escaped p) (reread p)) :
    Quoted 0x22 (ps.flatMap escaped) (ps.flatMap reread) := by
  induction ps with
  | nil => exact .nil
  | cons p ps ih =>
    rw [List.forall_mem_cons] at h
    exact h.1.append (ih h.2)

/-- the string that is read where `stringify value` stands -/
def readBack (value : Str) : Str := (points value).flatMap reread

theorem spells_stringify (value : Str) : Spells (stringify value) (.string (readBack value)) :=
  .string (.inl rfl) (quoted_points _ fun _ hp => quoted_escaped hp)

theorem isAlpha_not_marked {c : UInt16} (h : isAlpha c = true) : ¬ Marked c := by
  have hletter : 0x41 ≤ c ∧ c ≤ 0x7A := by
    simp only [isAlpha, Bool.or_eq_true, Bool.and_eq_true, decide_eq_true_eq] at h
    obtain (⟨h₁, h₂⟩ | rfl) | ⟨h₁, h₂⟩ := h
    · exact ⟨h₁, UInt16.le_trans h₂ (by decide)⟩
    · decide
    · exact ⟨UInt16.le_trans (by decide) h₁, h₂⟩
  rintro (hlow | hsurrogate)
  · exact absurd (UInt16.lt_of_le_of_lt hletter.1 hlow) (by decide)
  · exact absurd (UInt16.le_trans (high_low_plain hsurrogate) hletter.2) (by decide)

/-- a code point is read as itself, or it is a marked unit and another one is read first -/
theorem reread_cases {value point : Str} (h : point ∈ points value) :
    (reread point = point ∧ ∀ u, point = [u] → ¬ Marked u)
      ∨ ∃ u c rest, point = [u] ∧ Marked u ∧ reread point = c :: rest ∧ c ≠ u := by
  unfold reread
  cases hescape : escape point with
  | none =>
    refine .inl ⟨rfl, ?_⟩
    rintro u rfl
    exact (escape_none hescape).2.2
  | some text =>
    obtain ⟨rfl, hself⟩ | ⟨u, c, rest, rfl, hmarked, rfl, hc, -⟩ := escape_some hescape
    · refine .inl ⟨rfl, ?_⟩
      have hplain : ¬ Marked 0x22 ∧ ¬ Marked 0x5C := by
        unfold Marked
        decide
      rintro u rfl
      obtain hself | hself := hself
      · cases hself
        exact hplain.1
      · cases hself
        exact hplain.2
    · refine .inr ⟨u, c, rest, rfl, hmarked, rfl, ?_⟩
      rintro rfl
      exact isAlpha_not_marked hc hmarked

theorem flatMap_reread {value : Str} {ps : List Str} (h : ∀ p ∈ ps, p ∈ points value) :
    ps.flatMap reread = ps.flatten ↔ ∀ u, [u] ∈ ps → ¬ Marked u := by
  induction ps with
  | nil => simp
  | cons p ps ih =>
    rw [List.forall_mem_cons] at h
    rw [List.flatMap_cons, List.flatten_cons]
    obtain ⟨hself, hplain⟩ | ⟨u, c, rest, rfl, hmarked, hread, hne⟩ := reread_cases h.1
    · rw [hself, List.append_cancel_left_eq, ih h.2]
      constructor
      · intro hps u hu
        cases List.mem_cons.mp hu with
        | inl hp => exact hplain u hp.symm
        | inr hmem => exact hps u hmem
      · intro hps u hu
        exact hps u (List.mem_cons_of_mem p hu)
    · rw [hread]
      constructor
      · intro heq
        exact absurd (List.cons.inj heq).1 hne
      · intro hps
        exact absurd hmarked (hps u List.mem_cons_self)

/-- no control character, and no surrogate that stands alone -/
structure Intact (value : Str) : Prop where
  printable : ∀ u ∈ value, 0x20 ≤ u
  paired : lone value = false

theorem intact_iff (value : Str) : Intact value ↔ ∀ u, [u] ∈ points value → ¬ Marked u := by
  constructor
  · rintro ⟨hprintable, hpaired⟩ u hu (hlow | hsurrogate)
    · have hmem : u ∈ value := by
        rw [← flatten_points value]
        exact List.mem_flatten.mpr ⟨[u], hu, List.mem_singleton.mpr rfl⟩
      exact UInt16.not_le.mpr hlow (hprintable u hmem)
    · rw [(lone_iff value).mpr ⟨u, hu, hsurrogate⟩] at hpaired
      cases hpaired
  · intro hplain
    refine ⟨?_, ?_⟩
    · intro u hu
      rw [← flatten_points value] at hu
      obtain ⟨p, hp, hmem⟩ := List.mem_flatten.mp hu
      obtain ⟨v, rfl⟩ | ⟨v, w, rfl, hv, hw⟩ := mem_points hp
      · cases List.mem_singleton.mp hmem
        exact UInt16.not_lt.mp fun hlow => hplain u hp (.inl hlow)
      · have hpair : 0xD800 ≤ u := by
          rw [List.mem_cons, List.mem_singleton] at hmem
          obtain rfl | rfl := hmem
          · exact high_low_plain (.inl hv)
          · exact high_low_plain (.inr hw)
        exact UInt16.le_trans (by decide) hpair
    · rw [← Bool.not_eq_true, lone_iff]
      rintro ⟨u, hu, hsurrogate⟩
      exact hplain u hu (.inr hsurrogate)

/-- **a string is read back exactly when it is intact** -/
theorem readBack_eq_iff (value : Str) : readBack value = value ↔ Intact value := by
  have hread := @flatMap_reread value (points value) fun _ hp => hp
  rw [flatten_points] at hread
  rw [readBack, hread, intact_iff]

/-! ## characters outside of words and strings -/

/-- a character that escapes do not bring in -/
def Outside (d : UInt16) : Prop := isAlnum d = false ∧ d ≠ 0x22 ∧ d ≠ 0x5C ∧ d < 0xD800

theorem mem_escaped {value point : Str} {d : UInt16} (hd : Outside d) (h : point ∈ points value) :
    d ∈ escaped point ↔ d ∈ point ∧ 0x20 ≤ d := by
  obtain ⟨halnum, hquote, hback, hlow⟩ := hd
  unfold escaped
  cases hescape : escape point with
  | some text =>
    have hword : ∀ c : UInt16, isAlnum c = true → d ≠ c := by
      rintro c hc rfl
      rw [hc] at halnum
      cases halnum
    obtain ⟨rfl, hself⟩ | ⟨u, c, rest, rfl, hmarked, rfl, hc, hrest⟩ := escape_some hescape
    · obtain rfl | rfl := hself
      all_goals simp [hquote, hback]
    · have hnot : d ∉ 0x5C :: c :: rest := by
        rw [List.mem_cons, List.mem_cons, not_or, not_or]
        refine ⟨hback, hword c (by rw [isAlnum, hc, Bool.true_or]), ?_⟩
        intro hmem
        exact hword d (hrest d hmem) rfl
      refine ⟨fun hmem => absurd hmem hnot, ?_⟩
      rintro ⟨hmem, hprintable⟩
      cases List.mem_singleton.mp hmem
      cases hmarked with
      | inl hcontrol => exact absurd hcontrol (UInt16.not_lt.mpr hprintable)
      | inr hsurrogate => exact absurd hlow (UInt16.not_lt.mpr (high_low_plain hsurrogate))
  | none =>
    refine ⟨fun hmem => ⟨hmem, ?_⟩, fun hmem => hmem.1⟩
    obtain ⟨u, rfl⟩ | ⟨u, v, rfl, hu, hv⟩ := mem_points h
    · cases List.mem_singleton.mp hmem
      exact UInt16.not_lt.mp fun hcontrol => (escape_none hescape).2.2 (.inl hcontrol)
    · have hpair : 0xD800 ≤ d := by
        rw [List.mem_cons, List.mem_singleton] at hmem
        obtain rfl | rfl := hmem
        · exact high_low_plain (.inl hu)
        · exact high_low_plain (.inr hv)
      exact absurd hlow (UInt16.not_lt.mpr hpair)

theorem mem_stringify (value : Str) {d : UInt16} (hd : Outside d) :
    d ∈ stringify value ↔ d ∈ value ∧ 0x20 ≤ d := by
  have hquote : d ≠ 0x22 := hd.2.1
  have hinside : d ∈ (points value).flatMap escaped ↔ d ∈ value ∧ 0x20 ≤ d := by
    rw [List.mem_flatMap]
    constructor
    · rintro ⟨p, hp, hmem⟩
      obtain ⟨hmem, hprintable⟩ := (mem_escaped hd hp).mp hmem
      refine ⟨?_, hprintable⟩
      rw [← flatten_points value]
      exact List.mem_flatten.mpr ⟨p, hp, hmem⟩
    · rintro ⟨hmem, hprintable⟩
      rw [← flatten_points value] at hmem
      obtain ⟨p, hp, hmem⟩ := List.mem_flatten.mp hmem
      exact ⟨p, hp, (mem_escaped hd hp).mpr ⟨hmem, hprintable⟩⟩
  rw [stringify, List.mem_cons, List.mem_append, List.mem_singleton, hinside]
  simp [hquote]

/-! ## filters that are let through -/

theorem normalizeFilter_normal {f : List (Str × Property)} {key : Str} {filter : Option Str}
    (h : normalizeFilter f key = some filter) : normal filter = true := by
  unfold normalizeFilter at h
  split at h
  · cases h
    rfl
  · cases h
    rfl
  · split_ifs at h with hempty hlarge
    · cases h
      rfl
    · cases h
      rw [not_or, not_lt] at hlarge
      simp [normal, hempty, hlarge.1, hlarge.2]
  · cases h

/-- **what comes through the check**: given values are not empty, not too long and without NUL -/
theorem normalizeFilters_normal {raw : RawFilters} {filters : EventFilters}
    (h : normalizeFilters raw = some filters) : (options filters).all normal = true := by
  unfold normalizeFilters at h
  split at h
  · cases h
    rfl
  · split_ifs at h
    simp only [Option.bind_eq_bind, Option.bind_eq_some_iff, Option.pure_def, Option.some.injEq] at h
    obtain ⟨domain, hdomain, category, hcategory, eventName, heventName, severity, hseverity, correlation,
      hcorrelation, rfl⟩ := h
    simp [options, normalizeFilter_normal hdomain, normalizeFilter_normal hcategory,
      normalizeFilter_normal heventName, normalizeFilter_normal hseverity, normalizeFilter_normal hcorrelation]
  · cases h

section
variable {names : List Str} {values : List (Option Str)}

theorem map_named {β : Type} (f : Str × Str → β) :
    (named names values).map f = (names.zip values).flatMap fun p => (p.2.map fun v => f (p.1, v)).toList := by
  induction names generalizing values with
  | nil => rfl
  | cons name names ih =>
    cases values with
    | nil => rfl
    | cons value values =>
      rw [List.zip_cons_cons, List.flatMap_cons, ← ih, named, List.zip_cons_cons, List.filterMap_cons]
      cases value <;> rfl

theorem named_values (h : names.length = values.length) :
    (named names values).map Prod.snd = values.reduceOption := by
  induction names generalizing values with
  | nil =>
    rw [List.eq_nil_of_length_eq_zero h.symm]
    rfl
  | cons name names ih =>
    cases values with
    | nil => cases h
    | cons value values =>
      have hvalues := @ih values (Nat.succ.inj h)
      rw [named, List.zip_cons_cons, List.filterMap_cons]
      cases value with
      | none => exact hvalues
      | some v => exact congrArg (v :: ·) hvalues

theorem named_names : ((named names values).map Prod.fst).Sublist names := by
  induction names generalizing values with
  | nil => exact List.nil_sublist _
  | cons name names ih =>
    cases values with
    | nil => exact List.nil_sublist _
    | cons value values =>
      rw [named, List.zip_cons_cons, List.filterMap_cons]
      cases value with
      | none => exact ih.trans (List.sublist_cons_self name names)
      | some v => exact ih.cons_cons name

theorem named_rename (g : Str → Str) :
    (named names values).map (fun p => (g p.1, p.2)) = named (names.map g) values := by
  induction names generalizing values with
  | nil => rfl
  | cons name names ih =>
    cases values with
    | nil => rfl
    | cons value values =>
      rw [named, List.map_cons, named, List.zip_cons_cons, List.zip_cons_cons, List.filterMap_cons,
        List.filterMap_cons]
      cases value with
      | none => exact ih
      | some v => exact congrArg ((g name, v) :: ·) ih

end

/-! ## the text -/

/-- the fields that are given, by their names in the language -/
def given (filters : EventFilters) : Filters := named (FIELD_TO_FILTER.map Prod.fst) (options filters)

def equality (p : Str × Str) : Str := p.1 ++ units " = " ++ stringify p.2

/-- the text after FROM events -/
def whereText (ps : Filters) : Str :=
  if ps = [] then [] else units " WHERE " ++ (units " AND ").intercalate (ps.map equality)

theorem push_normal (field : Str) {filter : Option Str} (h : normal filter = true) :
    push field filter = (filter.map fun v => equality (field, v)).toList := by
  cases filter with
  | none => rfl
  | some value =>
    have hne : value ≠ [] := by
      rintro rfl
      cases h
    rw [push, if_neg hne]
    rfl

theorem format_eq {filters : EventFilters} (h : (options filters).all normal = true) (limit : Nat) :
    formatTraceqlSubset filters limit
      = units "FROM events" ++ whereText (given filters) ++ units " LIMIT " ++ units (toString limit) := by
  have hpreds : push (units "domain") filters.domain ++ push (units "category") filters.category ++
      push (units "event_name") filters.eventName ++ push (units "severity") filters.severity ++
      push (units "correlation") filters.correlation = (given filters).map equality := by
    simp only [options, List.all_cons, List.all_nil, Bool.and_true, Bool.and_eq_true] at h
    obtain ⟨hdomain, hcategory, heventName, hseverity, hcorrelation⟩ := h
    rw [push_normal _ hdomain, push_normal _ hcategory, push_normal _ heventName, push_normal _ hseverity,
      push_normal _ hcorrelation, given, map_named]
    simp [FIELD_TO_FILTER, options]
  unfold formatTraceqlSubset whereText
  dsimp only
  rw [hpreds]
  cases given filters <;> rfl

theorem given_values (filters : EventFilters) : (given filters).map Prod.snd = (options filters).reduceOption :=
  named_values rfl

theorem entries_values (filters : EventFilters) : (entries filters).map Prod.snd = (options filters).reduceOption :=
  named_values rfl

/-- the key of a field of the language -/
def keyOf (name : Str) : Str := (ownKey name).getD []

theorem given_keys (filters : EventFilters) :
    (given filters).map (fun p => (keyOf p.1, p.2)) = entries filters := by
  have hkeys : (FIELD_TO_FILTER.map Prod.fst).map keyOf = FILTER_KEYS := by decide
  rw [given, named_rename, hkeys, entries]

theorem given_name {filters : EventFilters} {p : Str × Str} (h : p ∈ given filters) :
    p.1 ∈ FIELD_TO_FILTER.map Prod.fst :=
  named_names.subset (List.mem_map.mpr ⟨p, h, rfl⟩)

/-! ## its tokens -/

def equalityTokens (p : Str × Str) : List Tok := [.ident p.1, .op (units "="), .string (readBack p.2)]

def equalitiesTokens : Filters → List Tok
  | [] => []
  | [p] => equalityTokens p
  | p :: q :: rest => equalityTokens p ++ .kw .AND :: equalitiesTokens (q :: rest)

def whereTokens (ps : Filters) : List Tok := if ps = [] then [] else .kw .WHERE :: equalitiesTokens ps

def formatTokens (ps : Filters) (limit : Nat) : List Tok :=
  .kw .FROM :: .kw .EVENTS :: (whereTokens ps ++ [.kw .LIMIT, .number limit])

def isName (name : Str) : Bool := name.head?.any isAlpha && name.all isAlnum

theorem spells_name {name : Str} (h : isName name = true) : Spells name (word name) := by
  rw [isName, Bool.and_eq_true, List.all_eq_true] at h
  cases name with
  | nil => cases h.1
  | cons c letters => exact .word h.1 fun u hu => h.2 u (List.mem_cons_of_mem c hu)

section
variable {rest : Str} {ts : List Tok}

/-- a word that a space follows -/
theorem lexes_name {name : Str} (hname : isName name = true) (h : Lexes rest ts) :
    Lexes (name ++ 0x20 :: rest) (word name :: ts) :=
  .token (spells_name hname) (fun _ => rfl) (.space rfl h)

theorem lexes_equality {p : Str × Str} (hp : p.1 ∈ FIELD_TO_FILTER.map Prod.fst) (h : Lexes rest ts) :
    Lexes (equality p ++ rest) (equalityTokens p ++ ts) := by
  have hname : ∀ name ∈ FIELD_TO_FILTER.map Prod.fst, isName name = true ∧ word name = .ident name := by
    decide
  obtain ⟨hp, hword⟩ := hname p.1 hp
  have hequals : units " = " = [0x20, 0x3D, 0x20] := by decide
  have hstring : Lexes (stringify p.2 ++ rest) (.string (readBack p.2) :: ts) :=
    .token (spells_stringify p.2) (fun hw => by cases hw) h
  have hlexes := lexes_name hp (.token .equals (fun hw => by cases hw) (.space (c := 0x20) rfl hstring))
  rw [hword] at hlexes
  rw [equality, hequals, equalityTokens]
  simpa using hlexes

theorem lexes_equalities {ps : Filters} (hps : ∀ p ∈ ps, p.1 ∈ FIELD_TO_FILTER.map Prod.fst) (h : Lexes rest ts) :
    Lexes ((units " AND ").intercalate (ps.map equality) ++ rest) (equalitiesTokens ps ++ ts) := by
  have hand : ∀ text : Str, units " AND " ++ text = 0x20 :: (units "AND" ++ 0x20 :: text) := by
    have hunits : units " AND " = 0x20 :: (units "AND" ++ [0x20]) := by decide
    intro text
    rw [hunits]
    simp
  have hword : isName (units "AND") = true ∧ word (units "AND") = .kw .AND := by decide
  induction ps using equalitiesTokens.induct with
  | case1 => exact h
  | case2 p =>
    rw [List.map_singleton, List.intercalate_singleton]
    exact lexes_equality (hps p List.mem_cons_self) h
  | case3 p q more ih =>
    rw [List.forall_mem_cons] at hps
    have hmore := lexes_name hword.1 (ih hps.2)
    rw [hword.2] at hmore
    have hlexes := lexes_equality hps.1 (.space (c := 0x20) rfl hmore)
    rw [List.map_cons, List.map_cons, List.intercalate_cons_cons, ← List.map_cons, equalitiesTokens]
    simpa [hand] using hlexes

/-- the text after FROM events begins with a space -/
theorem lexes_where {ps : Filters} (hps : ∀ p ∈ ps, p.1 ∈ FIELD_TO_FILTER.map Prod.fst) (h : Lexes rest ts) :
    ∃ text, whereText ps ++ 0x20 :: rest = 0x20 :: text ∧ Lexes text (whereTokens ps ++ ts) := by
  unfold whereText whereTokens
  by_cases hnone : ps = []
  · rw [if_pos hnone, if_pos hnone]
    exact ⟨rest, rfl, h⟩
  · have hwhere : units " WHERE " = 0x20 :: (units "WHERE" ++ [0x20]) := by decide
    have hword : isName (units "WHERE") = true ∧ word (units "WHERE") = .kw .WHERE := by decide
    have hlexes := lexes_name hword.1 (lexes_equalities hps (.space (c := 0x20) rfl h))
    rw [hword.2] at hlexes
    rw [if_neg hnone, if_neg hnone, hwhere]
    exact ⟨_, by simp, hlexes⟩

end

/-- the decimal digits of a number -/
theorem digits_nat (n : Nat) :
    (∀ u ∈ units (toString n), isDigit u = true) ∧ number (units (toString n)) = n ∧ units (toString n) ≠ [] := by
  rw [units_nat]
  exact ⟨Json.natText_digits n, Json.digits_natText n, Json.natText_ne_nil n⟩

theorem spells_limit {limit : Nat} (hmax : limit ≤ EVENTS_PAGE_MAX) :
    Spells (units (toString limit)) (.number limit) := by
  obtain ⟨hdigits, hnumber, hne⟩ := digits_nat limit
  generalize units (toString limit) = text at hdigits hnumber hne
  cases text with
  | nil => exact absurd rfl hne
  | cons c digits =>
    rw [← hnumber]
    refine .number hdigits ?_
    rw [hnumber]
    exact lt_of_le_of_lt hmax (by decide)

/-- **the tokens of the query** -/
theorem lexes_format {ps : Filters} (hps : ∀ p ∈ ps, p.1 ∈ FIELD_TO_FILTER.map Prod.fst) {limit : Nat}
    (hmax : limit ≤ EVENTS_PAGE_MAX) :
    Lexes (units "FROM events" ++ whereText ps ++ units " LIMIT " ++ units (toString limit)) (formatTokens ps limit) := by
  have hfrom : units "FROM events" = units "FROM" ++ 0x20 :: units "events" := by decide
  have hlimit : units " LIMIT " = 0x20 :: (units "LIMIT" ++ [0x20]) := by decide
  have hnames : isName (units "FROM") = true ∧ isName (units "events") = true ∧ isName (units "LIMIT") = true := by
    decide
  have hwords : word (units "FROM") = .kw .FROM ∧ word (units "events") = .kw .EVENTS ∧
      word (units "LIMIT") = .kw .LIMIT := by
    decide
  have hdigits : Lexes (units (toString limit)) [.number limit] := by
    have hlexes := Lexes.token (spells_limit hmax) (fun _ => rfl) .nil
    rwa [List.append_nil] at hlexes
  obtain ⟨text, htext, hlexes⟩ := lexes_where hps (lexes_name hnames.2.2 hdigits)
  have hquery := lexes_name hnames.1 (lexes_name hnames.2.1 hlexes)
  rw [hwords.1, hwords.2.1, hwords.2.2, ← htext] at hquery
  rw [hfrom, hlimit]
  simpa [formatTokens] using hquery

/-! ## what stands in the text -/

theorem mem_intercalate {sep : Str} {d : UInt16} (hsep : d ∉ sep) (texts : List Str) :
    d ∈ sep.intercalate texts ↔ ∃ text ∈ texts, d ∈ text := by
  induction texts with
  | nil => simp
  | cons text texts ih =>
    cases texts with
    | nil => simp
    | cons text' texts =>
      rw [List.intercalate_cons_cons, List.mem_append, List.mem_append, ih, or_iff_left hsep]
      simp

/-- NUL and semicolons come from the values, and NUL is escaped there -/
theorem mem_format {ps : Filters} (hps : ∀ p ∈ ps, p.1 ∈ FIELD_TO_FILTER.map Prod.fst) {limit : Nat}
    {d : UInt16} (hd : d = 0 ∨ d = 0x3B) :
    d ∈ units "FROM events" ++ whereText ps ++ units " LIMIT " ++ units (toString limit)
      ↔ ∃ v ∈ ps.map Prod.snd, d ∈ v ∧ 0x20 ≤ d := by
  have hout : Outside d := by
    unfold Outside
    obtain rfl | rfl := hd
    · decide
    · decide
  have htexts : d ∉ units "FROM events" ∧ d ∉ units " WHERE " ∧ d ∉ units " AND " ∧ d ∉ units " = " ∧
      d ∉ units " LIMIT " ∧ ∀ name ∈ FIELD_TO_FILTER.map Prod.fst, d ∉ name := by
    obtain rfl | rfl := hd
    · decide
    · decide
  obtain ⟨hfrom, hwhere, hand, hequals, hlimit, hnames⟩ := htexts
  have hdigits : d ∉ units (toString limit) := by
    intro hmem
    have halnum : isAlnum d = true := by
      rw [isAlnum, (digits_nat limit).1 d hmem, Bool.or_true]
    rw [hout.1] at halnum
    cases halnum
  have hequality : ∀ p ∈ ps, d ∈ equality p ↔ d ∈ p.2 ∧ 0x20 ≤ d := by
    intro p hp
    rw [equality, List.mem_append, List.mem_append, mem_stringify p.2 hout]
    simp [hnames p.1 (hps p hp), hequals]
  have hwhereText : d ∈ whereText ps ↔ ∃ v ∈ ps.map Prod.snd, d ∈ v ∧ 0x20 ≤ d := by
    have hequalities : d ∈ (units " AND ").intercalate (ps.map equality)
        ↔ ∃ v ∈ ps.map Prod.snd, d ∈ v ∧ 0x20 ≤ d := by
      rw [mem_intercalate hand]
      constructor
      · rintro ⟨text, htext, hmem⟩
        obtain ⟨p, hp, rfl⟩ := List.mem_map.mp htext
        exact ⟨p.2, List.mem_map_of_mem hp, (hequality p hp).mp hmem⟩
      · rintro ⟨v, hv, hmem⟩
        obtain ⟨p, hp, rfl⟩ := List.mem_map.mp hv
        exact ⟨equality p, List.mem_map_of_mem hp, (hequality p hp).mpr hmem⟩
    unfold whereText
    by_cases hnone : ps = []
    · rw [if_pos hnone, hnone]
      simp
    · rw [if_neg hnone, List.mem_append, hequalities]
      simp [hwhere]
  rw [List.mem_append, List.mem_append, List.mem_append, hwhereText, or_iff_left hdigits, or_iff_left hlimit,
    or_iff_right hfrom]

theorem trim_eq {s front back : Str} {c d : UInt16} (hfront : s = c :: back) (hback : s = front ++ [d])
    (hc : isSpace c = false) (hd : isSpace d = false) : trim s = s := by
  have hleft : s.dropWhile isSpace = s := by
    rw [hfront, List.dropWhile_cons_of_neg (ne_true_of_eq_false hc)]
  have hright : s.reverse.dropWhile isSpace = s.reverse := by
    rw [hback, List.reverse_append, List.reverse_singleton, List.singleton_append,
      List.dropWhile_cons_of_neg (ne_true_of_eq_false hd)]
  rw [trim, hleft, hright, List.reverse_reverse]

theorem trim_format (ps : Filters) (limit : Nat) :
    trim (units "FROM events" ++ whereText ps ++ units " LIMIT " ++ units (toString limit))
      = units "FROM events" ++ whereText ps ++ units " LIMIT " ++ units (toString limit) := by
  obtain ⟨hdigits, -, hne⟩ := digits_nat limit
  have hfrom : units "FROM events" = 0x46 :: units "ROM events" := by decide
  obtain ⟨front, d, hd⟩ := (List.eq_nil_or_concat' (units (toString limit))).resolve_left hne
  have hlast : isAlnum d = true := by
    rw [isAlnum, hdigits d (by rw [hd]; simp), Bool.or_true]
  have hback : units "FROM events" ++ whereText ps ++ units " LIMIT " ++ units (toString limit)
      = units "FROM events" ++ whereText ps ++ units " LIMIT " ++ front ++ [d] := by
    rw [hd, ← List.append_assoc]
  exact trim_eq (by rw [hfrom]; rfl) hback (by decide) (isAlnum_not_space hlast)

/-! ## the query, read -/

section
variable {key : Str → Option Str} {v : Str}

theorem Equality.string_length {ts : List Tok} {f : Str × Str} (h : Equality key ts f)
    (hv : .string v ∈ ts) : v.length ≤ FILTER_MAX_CHARS := by
  cases h with
  | mk hkey ht hlength _ =>
    simp only [List.mem_cons, List.not_mem_nil, or_false] at hv
    obtain h | h | h := hv
    · cases h
    · cases h
    · subst h
      cases ht
      exact hlength

theorem Equalities.string_length {ts : List Tok} {fs : Filters} (h : Equalities key ts fs)
    (hv : .string v ∈ ts) : v.length ≤ FILTER_MAX_CHARS := by
  induction h with
  | one hf => exact hf.string_length hv
  | and hf _ ih =>
    rw [List.mem_append, List.mem_cons] at hv
    obtain hv | hv | hv := hv
    · exact hf.string_length hv
    · cases hv
    · exact ih hv

theorem Columns.no_string {ts : List Tok} (h : Columns ts) : .string v ∉ ts := by
  induction h with
  | nil => exact List.not_mem_nil
  | cons _ _ ih => simpa using ih

theorem Select.no_string {ts : List Tok} (h : Select ts) : .string v ∉ ts := by
  cases h with
  | none => simp
  | star => simp
  | fields _ h => simpa using h.no_string

/-- a string in a query is a value, and not too long -/
theorem Query.string_length {ts : List Tok} {filters : Filters} {limit : Nat}
    (h : Query key ts filters limit) (hv : .string v ∈ ts) : v.length ≤ FILTER_MAX_CHARS := by
  obtain ⟨hwhere, hselect, -, -⟩ := h
  have hnone := hselect.no_string (v := v)
  simp only [List.mem_cons, List.mem_append, List.not_mem_nil, or_false, reduceCtorEq, false_or, hnone] at hv
  cases hwhere with
  | none => cases hv
  | some hfs _ => exact hfs.string_length ((List.mem_cons.mp hv).resolve_left Tok.noConfusion)

end

theorem equalities_format {ps : Filters} (hne : ps ≠ []) (hps : ∀ p ∈ ps, p.1 ∈ FIELD_TO_FILTER.map Prod.fst)
    (hlength : ∀ p ∈ ps, (readBack p.2).length ≤ FILTER_MAX_CHARS)
    (hseverity : ∀ p ∈ ps, keyOf p.1 = units "severity" → readBack p.2 ∈ SEVERITIES) :
    Equalities ownKey (equalitiesTokens ps) (ps.map fun p => (keyOf p.1, readBack p.2)) := by
  have hkeys : ∀ name ∈ FIELD_TO_FILTER.map Prod.fst, ownKey name = some (keyOf name) := by decide
  have hequality : ∀ p ∈ ps, Equality ownKey (equalityTokens p) (keyOf p.1, readBack p.2) := fun p hp =>
    .mk (hkeys p.1 (hps p hp)) (.string _) (hlength p hp) (hseverity p hp)
  clear hps hlength hseverity
  induction ps using equalitiesTokens.induct with
  | case1 => exact absurd rfl hne
  | case2 p => exact .one (hequality p List.mem_cons_self)
  | case3 p q rest ih =>
    rw [List.forall_mem_cons] at hequality
    exact .and hequality.1 (ih (List.cons_ne_nil q rest) hequality.2)

/-- the query in the values that are read -/
theorem query_format {ps : Filters} (hps : ∀ p ∈ ps, p.1 ∈ FIELD_TO_FILTER.map Prod.fst)
    (hnodup : (ps.map fun p => keyOf p.1).Nodup)
    (hlength : ∀ p ∈ ps, (readBack p.2).length ≤ FILTER_MAX_CHARS)
    (hseverity : ∀ p ∈ ps, keyOf p.1 = units "severity" → readBack p.2 ∈ SEVERITIES)
    {limit : Nat} (hmin : 1 ≤ limit) (hmax : limit ≤ EVENTS_PAGE_MAX) :
    Query ownKey (formatTokens ps limit) (ps.map fun p => (keyOf p.1, readBack p.2)) limit := by
  have hwhere : Where ownKey (whereTokens ps) (ps.map fun p => (keyOf p.1, readBack p.2)) := by
    unfold whereTokens
    by_cases hnone : ps = []
    · rw [if_pos hnone, hnone]
      exact .none
    · rw [if_neg hnone]
      refine .some (equalities_format hnone hps hlength hseverity) ?_
      rwa [List.map_map]
  exact .mk hwhere .none hmin hmax

theorem mem_formatTokens {ps : Filters} {p : Str × Str} (hp : p ∈ ps) (limit : Nat) :
    .string (readBack p.2) ∈ formatTokens ps limit := by
  have hequalities : .string (readBack p.2) ∈ equalitiesTokens ps := by
    induction ps using equalitiesTokens.induct with
    | case1 => cases hp
    | case2 q =>
      cases List.mem_singleton.mp hp
      simp [equalitiesTokens, equalityTokens]
    | case3 q q' rest ih =>
      rw [equalitiesTokens, List.mem_append, List.mem_cons]
      cases List.mem_cons.mp hp with
      | inl heq =>
        subst heq
        exact .inl (by simp [equalityTokens])
      | inr hmem => exact .inr (.inr (ih hmem))
  have hwhere : .string (readBack p.2) ∈ whereTokens ps := by
    rw [whereTokens, if_neg (List.ne_nil_of_mem hp)]
    exact List.mem_cons_of_mem _ hequalities
  unfold formatTokens
  exact List.mem_cons_of_mem _ (List.mem_cons_of_mem _ (List.mem_append_left _ hwhere))

theorem entries_severity {filters : EventFilters} {value : Str} (h : (units "severity", value) ∈ entries filters) :
    filters.severity = some value := by
  have hne : units "severity" ≠ units "domain" ∧ units "severity" ≠ units "category" ∧
      units "severity" ≠ units "eventName" ∧ units "severity" ≠ units "correlation" := by
    decide
  obtain ⟨hdomain, hcategory, heventName, hcorrelation⟩ := hne
  simpa [entries, named, FILTER_KEYS, options, hdomain.symm, hcategory.symm, heventName.symm,
    hcorrelation.symm] using h

/-- a value that a query can hold: no control character, no surrogate that stands alone, and no
semicolon -/
structure Plain (value : Str) : Prop extends Intact value where
  one_statement : 0x3B ∉ value

/-- **a query is read as the filters that it was written from if and only if their values are plain** -/
theorem read_back_iff {raw : RawFilters} {filters : EventFilters} {limit : Nat}
    (hfilters : normalizeFilters raw = some filters)
    (hseverity : ∀ severity, filters.severity = some severity → severity ∈ SEVERITIES)
    (hmin : 1 ≤ limit) (hmax : limit ≤ EVENTS_PAGE_MAX)
    (hlength : (formatTraceqlSubset filters limit).length ≤ QUERY_TEXT_MAX_CHARS) :
    parseTraceqlSubset (formatTraceqlSubset filters limit) = .ok ⟨entries filters, limit⟩
      ↔ ∀ value, some value ∈ options filters → Plain value := by
  have hnormal := normalizeFilters_normal hfilters
  have hps : ∀ p ∈ given filters, p.1 ∈ FIELD_TO_FILTER.map Prod.fst := fun p hp => given_name hp
  have hvalue : ∀ value, some value ∈ options filters ↔ value ∈ (given filters).map Prod.snd := by
    intro value
    rw [given_values, List.reduceOption_mem_iff]
  have hlexes := lexes_format hps hmax
  have hnul := @mem_format _ hps limit 0 (.inl rfl)
  have hstatement := @mem_format _ hps limit 0x3B (.inr rfl)
  rw [format_eq hnormal] at hlength ⊢
  have htrim := trim_format (given filters) limit
  generalize units "FROM events" ++ whereText (given filters) ++ units " LIMIT " ++ units (toString limit) = text
    at hlength hlexes hnul hstatement htrim
  -- a query in the values that are read, as long as they are not too long
  have hread : (∀ p ∈ given filters, (readBack p.2).length ≤ FILTER_MAX_CHARS) →
      Written filterKeyOf text ((given filters).map fun p => (keyOf p.1, readBack p.2)) limit := by
    intro hshort
    have hnodup : ((given filters).map fun p => keyOf p.1).Nodup := by
      have hkeys : ((entries filters).map Prod.fst).Nodup :=
        named_names.nodup (by decide)
      rwa [← given_keys, List.map_map] at hkeys
    have hsame : ∀ severity ∈ SEVERITIES, readBack severity = severity := by decide
    have hnames : ∀ p ∈ given filters, keyOf p.1 = units "severity" → readBack p.2 ∈ SEVERITIES := by
      intro p hp hkey
      have hentry : (units "severity", p.2) ∈ entries filters := by
        rw [← given_keys, ← hkey]
        exact List.mem_map_of_mem hp
      have hmem := hseverity p.2 (entries_severity hentry)
      rwa [hsame p.2 hmem]
    have hquery := query_format hps hnodup hshort hnames hmin hmax
    have hwritten : Written ownKey text ((given filters).map fun p => (keyOf p.1, readBack p.2)) limit := by
      refine ⟨?_, ?_, _, ?_, hquery⟩
      · rwa [htrim]
      · rw [htrim, hnul]
        rintro ⟨v, -, -, hzero⟩
        exact absurd hzero (by decide)
      · rwa [htrim]
    exact hwritten.imp fun _ _ _ => ownKey_found
  have hback : (given filters).map (fun p => (keyOf p.1, readBack p.2)) = entries filters
      ↔ ∀ p ∈ given filters, Intact p.2 := by
    rw [← given_keys, List.map_inj_left]
    refine forall₂_congr fun p _ => ?_
    rw [Prod.mk.injEq, readBack_eq_iff]
    exact and_iff_right rfl
  constructor
  · intro hparse value hmem
    obtain ⟨hone, hwritten⟩ := parse_iff.mp hparse
    obtain ⟨-, -, ts, hts, hquery⟩ := hwritten
    rw [htrim] at hone hts
    rw [hts.unique hlexes] at hquery
    have hshort : ∀ p ∈ given filters, (readBack p.2).length ≤ FILTER_MAX_CHARS := fun p hp =>
      hquery.string_length (mem_formatTokens hp limit)
    have hagain := parse_iff.mpr ⟨by rwa [htrim], hread hshort⟩
    rw [hparse] at hagain
    have heq := congrArg TraceqlSubsetOk.filters (Except.ok.inj hagain)
    obtain ⟨p, hp, rfl⟩ := List.mem_map.mp ((hvalue value).mp hmem)
    refine ⟨hback.mp heq.symm p hp, ?_⟩
    intro hsemicolon
    exact hone (hstatement.mpr ⟨p.2, List.mem_map_of_mem hp, hsemicolon, by decide⟩)
  · intro hplain
    have hgiven : ∀ p ∈ given filters, Plain p.2 := fun p hp =>
      hplain p.2 ((hvalue p.2).mpr (List.mem_map_of_mem hp))
    have hshort : ∀ p ∈ given filters, (readBack p.2).length ≤ FILTER_MAX_CHARS := by
      intro p hp
      rw [(readBack_eq_iff p.2).mpr (hgiven p hp).toIntact]
      have hgood := List.all_eq_true.mp hnormal _ ((hvalue p.2).mpr (List.mem_map_of_mem hp))
      simp only [normal, Option.all_some, Bool.and_eq_true, decide_eq_true_eq] at hgood
      exact hgood.1.2
    have hwritten := hread hshort
    rw [hback.mpr fun p hp => (hgiven p hp).toIntact] at hwritten
    refine parse_iff.mpr ⟨?_, hwritten⟩
    rw [htrim, hstatement]
    rintro ⟨v, hv, hsemicolon, -⟩
    obtain ⟨p, hp, rfl⟩ := List.mem_map.mp hv
    exact (hgiven p hp).one_statement hsemicolon

/-- a new line comes back as a letter, and a semicolon is refused -/
theorem newline_changed :
    normalizeFilters (.object [(units "domain", .string (units "a\nb"))])
        = some ⟨some (units "a\nb"), none, none, none, none⟩
      ∧ parseTraceqlSubset (formatTraceqlSubset ⟨some (units "a\nb"), none, none, none, none⟩ 1)
        = .ok ⟨[(units "domain", units "anb")], 1⟩
      ∧ parseTraceqlSubset (formatTraceqlSubset ⟨some (units "a\nb"), none, none, none, none⟩ 1)
        ≠ .ok ⟨entries ⟨some (units "a\nb"), none, none, none, none⟩, 1⟩
      ∧ parseTraceqlSubset (formatTraceqlSubset ⟨some (units "a;b"), none, none, none, none⟩ 1)
        = .error (.error (units "multiple statements are not supported")) := by
  decide +kernel

theorem read_back_example :
    parseTraceqlSubset (formatTraceqlSubset ⟨some (units "a \"b\" \\ é"), none, none, some (units "info"), none⟩ 256)
      = .ok ⟨entries ⟨some (units "a \"b\" \\ é"), none, none, some (units "info"), none⟩, 256⟩ := by
  have hfilters : normalizeFilters (.object [(units "severity", .string (units "info")),
      (units "domain", .string (units "a \"b\" \\ é"))])
      = some ⟨some (units "a \"b\" \\ é"), none, none, some (units "info"), none⟩ := by
    decide
  refine (read_back_iff hfilters ?_ (by decide) (by decide) (by decide)).mpr ?_
  · rintro severity hsome
    cases hsome
    decide
  · intro value hvalue
    have hplain : [units "a \"b\" \\ é", units "info"].all
        (fun v => v.all (fun u => 0x20 ≤ u) && !lone v && v.all (fun u => u != 0x3B)) = true := by
      decide
    have hmem : value ∈ [units "a \"b\" \\ é", units "info"] := by simpa [options] using hvalue
    have hall := List.all_eq_true.mp hplain value hmem
    simp only [Bool.and_eq_true, List.all_eq_true, decide_eq_true_eq, Bool.not_eq_true', bne_iff_ne] at hall
    obtain ⟨⟨hprintable, hpaired⟩, hone⟩ := hall
    exact ⟨⟨hprintable, hpaired⟩, fun hmem => hone _ hmem rfl⟩

end Dtj.Explorer.Traceql
