import Dtj.Explorer.Runs
import Dtj.Explorer.Traceql

/-!
# The explorer: what is kept of a document that is closed

`packages/dtj-vscode`: `messages.ts` checks what comes from the webview and from the store of the workspace, and
`sessionEditorProvider.ts` puts the navigation of a document into the store, and opens a document with it.

* `normalizeFilters`, `parseWebviewMessage`, `sanitizePersistedNav`, `assertPersistedNavSafe`   the checks;
* `persistNav`, `resolveCustomEditor`   to the store, and from it;
* `accepts_iff`                         the messages that are let through are those that the document takes;
* `Navigable.turn`                      no turn leaves an offset or a selection that is no number;
* `nav_reopened`                        **what a document saves is what it is opened with again**.
-/

namespace Dtj.Explorer
open Sdk.TypeScript (Str units)
open Traceql (QUERY_TEXT_MAX_CHARS)

/-! ## values that come from outside -/

/-- what a message or the store may hold; a number is finite or not -/
inductive Unknown where
  | undefined
  | null
  | boolean (b : Bool)
  | number (x : Option ℚ)
  | string (s : Str)
  | array (vs : List Unknown)
  | object (ms : List (Str × Unknown))

/-- `value[key]` -/
def Unknown.get (value : Unknown) (key : String) : Unknown :=
  match value with
  | .object ms => ((ms.find? fun m => m.1 = units key).map Prod.snd).getD .undefined
  | _ => .undefined

/-- `Object.keys` -/
def Unknown.keys : Unknown → List Str
  | .object ms => ms.map Prod.fst
  | _ => []

/-- a string that is the text of a decimal -/
def canonicalText : Unknown → Option Str
  | .string s => if isCanonicalDecimalU64 s then some s else none
  | _ => none

/-- an integer that is a finite number -/
def integer : Unknown → Option Int
  | .number (some x) => if x.den = 1 then some x.num else none
  | _ => none

/-! ## the source -/

inductive WebviewToHost where
  | ready
  | refresh
  | runQuery (text : Str)
  | openQueryFile (text : Str)
  | loadEvents (offset : Str) (limit : Nat) (filters : EventFilters)
  | selectEvent (sequence : Str)

structure PersistedNavState where
  filters : EventFilters
  offset : Str
  selectedSequence : Option Str
  queryText : Str

def FILTER_KEYS : List Str :=
  [units "domain", units "category", units "eventName", units "severity", units "correlation"]

def NAV_KEYS : List Str := [units "filters", units "offset", units "selectedSequence", units "queryText"]

def normalizeQueryText : Unknown → Option Str
  | .string raw => if raw.length > QUERY_TEXT_MAX_CHARS ∨ 0 ∈ raw then none else some raw
  | _ => none

/-- one turn of the loop of `normalizeFilters`; a filter that is missing or empty is left out -/
def normalizeFilter : Unknown → Option (Option Str)
  | .undefined => some none
  | .string v =>
    if v = [] then some none else if v.length > FILTER_MAX_CHARS ∨ 0 ∈ v then none else some (some v)
  | _ => none

def normalizeFilters : Unknown → Option EventFilters
  | .undefined => some ⟨none, none, none, none, none⟩
  | .null => some ⟨none, none, none, none, none⟩
  | .object ms =>
    if ms.any fun m => m.1 ∉ FILTER_KEYS then none
    else do
      let f := Unknown.object ms
      let domain ← normalizeFilter (f.get "domain")
      let category ← normalizeFilter (f.get "category")
      let eventName ← normalizeFilter (f.get "eventName")
      let severity ← normalizeFilter (f.get "severity")
      let correlation ← normalizeFilter (f.get "correlation")
      return ⟨domain, category, eventName, severity, correlation⟩
  | _ => none

def parseWebviewMessage (msg : Unknown) : Option WebviewToHost :=
  match msg.get "type" with
  | .string type =>
    if type = units "ready" then some .ready
    else if type = units "refresh" then some .refresh
    else if type = units "runQuery" then (normalizeQueryText (msg.get "text")).map .runQuery
    else if type = units "openQueryFile" then (normalizeQueryText (msg.get "text")).map .openQueryFile
    else if type = units "loadEvents" then do
      let offset ← canonicalText (msg.get "offset")
      let limit ← integer (msg.get "limit")
      if limit < 1 ∨ limit > EVENTS_PAGE_MAX then none
      else
        let filters ← normalizeFilters (msg.get "filters")
        return .loadEvents offset limit.toNat filters
    else if type = units "selectEvent" then (canonicalText (msg.get "sequence")).map .selectEvent
    else none
  | _ => none

/-- the offset that is kept; one that is a safe integer was kept by an earlier version -/
def sanitizeOffset (offset : Unknown) : Str :=
  match canonicalText offset, integer offset with
  | some text, _ => text
  | none, some n => if 0 ≤ n ∧ n ≤ 2^53 - 1 then units (toString n.toNat) else units "0"
  | none, none => units "0"

def sanitizePersistedNav : Unknown → PersistedNavState
  | .object ms =>
    let o := Unknown.object ms
    { filters := (normalizeFilters (o.get "filters")).getD ⟨none, none, none, none, none⟩
      offset := sanitizeOffset (o.get "offset")
      selectedSequence := canonicalText (o.get "selectedSequence")
      queryText := (normalizeQueryText (o.get "queryText")).getD [] }
  | _ => ⟨⟨none, none, none, none, none⟩, units "0", none, []⟩

def assertPersistedNavSafe (state : Unknown) : Bool :=
  state.keys.length = NAV_KEYS.length && state.keys.all (· ∈ NAV_KEYS) &&
    (canonicalText (state.get "offset")).isSome &&
    (match state.get "selectedSequence" with
      | .null => true
      | v => (canonicalText v).isSome) &&
    (normalizeQueryText (state.get "queryText")).isSome &&
    (match state.get "filters" with
      | .object ms => (normalizeFilters (.object ms)).isSome
      | _ => false)

/-- the members of an object that are not undefined -/
def members (ms : List (String × Option Str)) : List (Str × Unknown) :=
  ms.filterMap fun m => m.2.map fun s => (units m.1, .string s)

def EventFilters.entries (f : EventFilters) : List (String × Option Str) :=
  [("domain", f.domain), ("category", f.category), ("eventName", f.eventName), ("severity", f.severity),
    ("correlation", f.correlation)]

def EventFilters.value (f : EventFilters) : Unknown := .object (members f.entries)

def PersistedNavState.value (nav : PersistedNavState) : Unknown :=
  .object [(units "filters", nav.filters.value), (units "offset", .string nav.offset),
    (units "selectedSequence", nav.selectedSequence.elim .null .string), (units "queryText", .string nav.queryText)]

section
variable {V : Type}

def ExplorerUiState.nav (state : ExplorerUiState V) : PersistedNavState :=
  ⟨state.filters, state.offset, state.selectedSequence, state.queryText⟩

/-- what is put into the store, if anything is -/
def persistNav (s : DocumentSession V) : Option Unknown :=
  if assertPersistedNavSafe s.state.nav.value then some s.state.nav.value else none

/-- a document that is opened, with what the store has of it -/
def resolveCustomEditor (host : Host V) (fsPath : Str) (stored : Unknown) : DocumentSession V :=
  let persisted := sanitizePersistedNav stored
  let text := trim persisted.queryText
  let text := if text = [] then host.formatTraceqlSubset persisted.filters EVENTS_PAGE_DEFAULT else text
  let queryText := if text = [] then DEFAULT_TRACEQL_QUERY else text
  opened fsPath persisted.filters persisted.offset persisted.selectedSequence queryText

end

/-! ## the filters that are kept -/

/-- a filter that can be kept -/
def keeps (filter : Option Str) : Bool := filter.all fun v => v.length ≤ FILTER_MAX_CHARS && 0 ∉ v

/-- a filter that is empty is none -/
def given (filter : Option Str) : Option Str := filter.filter fun v => !v.isEmpty

def EventFilters.given (f : EventFilters) : EventFilters :=
  ⟨Explorer.given f.domain, Explorer.given f.category, Explorer.given f.eventName, Explorer.given f.severity,
    Explorer.given f.correlation⟩

theorem normalize_filter (filter : Option Str) :
    normalizeFilter (filter.elim .undefined .string) = if keeps filter then some (given filter) else none := by
  cases filter with
  | none => rfl
  | some v =>
    show (if v = [] then some none else if v.length > FILTER_MAX_CHARS ∨ 0 ∈ v then none else some (some v)) = _
    by_cases hnil : v = []
    · subst hnil
      rfl
    rw [if_neg hnil]
    have hgiven : given (some v) = some v := Option.filter_some_pos (by simp [hnil])
    rw [hgiven]
    by_cases hbad : v.length > FILTER_MAX_CHARS ∨ 0 ∈ v
    · rw [if_pos hbad, if_neg]
      simp only [keeps, Option.all_some, Bool.and_eq_true, decide_eq_true_eq]
      rintro ⟨hle, h0⟩
      rcases hbad with hlong | hmem
      · omega
      · exact h0 hmem
    · push Not at hbad
      rw [if_neg (by push Not; exact hbad), if_pos]
      simp only [keeps, Option.all_some, Bool.and_eq_true, decide_eq_true_eq]
      exact hbad

theorem get_cons (m : Str × Unknown) (ms : List (Str × Unknown)) (key : String) :
    (Unknown.object (m :: ms)).get key = if m.1 = units key then m.2 else (Unknown.object ms).get key := by
  simp only [Unknown.get, List.find?_cons]
  split
  · next h => rw [if_pos (of_decide_eq_true h)]; rfl
  · next h => rw [if_neg (of_decide_eq_false h)]

theorem get_members {ms : List (String × Option Str)} (hnodup : (ms.map fun m => units m.1).Nodup) {key : String}
    {v : Option Str} (hmem : (key, v) ∈ ms) : (Unknown.object (members ms)).get key = v.elim .undefined .string := by
  -- a key that comes no more is not found
  have hnone : ∀ {ms : List (String × Option Str)}, units key ∉ ms.map (fun m => units m.1) →
      (Unknown.object (members ms)).get key = .undefined := by
    intro ms hno
    have hfind : (members ms).find? (fun m => m.1 = units key) = none := by
      refine List.find?_eq_none.mpr fun x hx => ?_
      obtain ⟨m, hm, hsome⟩ := List.mem_filterMap.mp hx
      obtain ⟨s, -, rfl⟩ := Option.map_eq_some_iff.mp hsome
      rw [decide_eq_true_eq]
      intro heq
      exact hno (heq ▸ List.mem_map_of_mem hm)
    simp only [Unknown.get, hfind]
    rfl
  induction ms with
  | nil => cases hmem
  | cons m ms ih =>
    obtain ⟨hnot, hrest⟩ := List.nodup_cons.mp hnodup
    obtain ⟨k, w⟩ := m
    rcases List.mem_cons.mp hmem with heq | htail
    · cases heq
      cases v with
      | none =>
        show (Unknown.object (members ms)).get key = .undefined
        exact hnone hnot
      | some s =>
        show (Unknown.object ((units key, .string s) :: members ms)).get key = _
        rw [get_cons, if_pos rfl]
        rfl
    · have hne : units k ≠ units key := by
        intro heq
        refine hnot ?_
        show units k ∈ _
        rw [heq]
        exact List.mem_map.mpr ⟨_, htail, rfl⟩
      cases w with
      | none => exact ih hrest htail
      | some s =>
        show (Unknown.object ((units k, .string s) :: members ms)).get key = _
        rw [get_cons, if_neg hne]
        exact ih hrest htail

theorem entries_nodup (f : EventFilters) : (f.entries.map fun m => units m.1).Nodup := by
  show ((["domain", "category", "eventName", "severity", "correlation"] : List String).map units).Nodup
  decide

theorem normalize_value (f : EventFilters) :
    normalizeFilters f.value = if f.entries.all fun m => keeps m.2 then some f.given else none := by
  have hkeys : ((members f.entries).any fun m => m.1 ∉ FILTER_KEYS) = false := by
    refine List.any_eq_false.mpr fun x hx => ?_
    obtain ⟨m, hm, hsome⟩ := List.mem_filterMap.mp hx
    obtain ⟨s, -, rfl⟩ := Option.map_eq_some_iff.mp hsome
    rw [decide_eq_true_eq, not_not]
    exact List.mem_map.mpr ⟨m.1, List.mem_map_of_mem hm, rfl⟩
  have hget : ∀ key v, (key, v) ∈ f.entries → f.value.get key = v.elim .undefined .string :=
    fun key v hm => get_members (entries_nodup f) hm
  have hloop : normalizeFilters f.value = if (members f.entries).any fun m => m.1 ∉ FILTER_KEYS then none else do
      let domain ← normalizeFilter (f.value.get "domain")
      let category ← normalizeFilter (f.value.get "category")
      let eventName ← normalizeFilter (f.value.get "eventName")
      let severity ← normalizeFilter (f.value.get "severity")
      let correlation ← normalizeFilter (f.value.get "correlation")
      return (⟨domain, category, eventName, severity, correlation⟩ : EventFilters) := rfl
  rw [hloop, hkeys, hget "domain" f.domain (by simp [EventFilters.entries]),
    hget "category" f.category (by simp [EventFilters.entries]),
    hget "eventName" f.eventName (by simp [EventFilters.entries]),
    hget "severity" f.severity (by simp [EventFilters.entries]),
    hget "correlation" f.correlation (by simp [EventFilters.entries])]
  simp only [normalize_filter, EventFilters.entries, List.all_cons, List.all_nil, EventFilters.given]
  -- the first filter that is not kept ends the loop
  by_cases hdomain : keeps f.domain = true
  swap
  · simp [hdomain]
  by_cases hcategory : keeps f.category = true
  swap
  · simp [hdomain, hcategory]
  by_cases heventName : keeps f.eventName = true
  swap
  · simp [hdomain, hcategory, heventName]
  by_cases hseverity : keeps f.severity = true
  swap
  · simp [hdomain, hcategory, heventName, hseverity]
  by_cases hcorrelation : keeps f.correlation = true
  swap
  · simp [hdomain, hcategory, heventName, hseverity, hcorrelation]
  simp [hdomain, hcategory, heventName, hseverity, hcorrelation]

/-! ## the messages that are let through -/

theorem normal_of {v : Unknown} {filter : Option Str} (h : normalizeFilter v = some filter) : normal filter = true := by
  cases v with
  | undefined =>
    cases h
    rfl
  | string s =>
    rw [normalizeFilter] at h
    split at h
    · cases h
      rfl
    · next hne =>
      split at h
      · cases h
      · next hgood =>
        push Not at hgood
        cases h
        simp only [normal, Option.all_some, Bool.and_eq_true, decide_eq_true_eq]
        exact ⟨⟨hne, hgood.1⟩, hgood.2⟩
  | null => cases h
  | boolean => cases h
  | number => cases h
  | array => cases h
  | object => cases h

theorem normalized {v : Unknown} {f : EventFilters} (h : normalizeFilters v = some f) :
    [f.domain, f.category, f.eventName, f.severity, f.correlation].all normal = true := by
  cases v with
  | undefined =>
    cases h
    rfl
  | null =>
    cases h
    rfl
  | object ms =>
    obtain ⟨-, hloop⟩ := Option.ite_none_left_eq_some.mp h
    obtain ⟨domain, hdomain, hloop⟩ := Option.bind_eq_some_iff.mp hloop
    obtain ⟨category, hcategory, hloop⟩ := Option.bind_eq_some_iff.mp hloop
    obtain ⟨eventName, heventName, hloop⟩ := Option.bind_eq_some_iff.mp hloop
    obtain ⟨severity, hseverity, hloop⟩ := Option.bind_eq_some_iff.mp hloop
    obtain ⟨correlation, hcorrelation, hloop⟩ := Option.bind_eq_some_iff.mp hloop
    cases hloop
    simp only [List.all_cons, List.all_nil, normal_of hdomain, normal_of hcategory, normal_of heventName,
      normal_of hseverity, normal_of hcorrelation, Bool.and_self]
  | boolean => cases h
  | number => cases h
  | string => cases h
  | array => cases h

theorem given_normal {filter : Option Str} (h : normal filter = true) : keeps filter = true ∧ given filter = filter := by
  cases filter with
  | none => exact ⟨rfl, rfl⟩
  | some v =>
    simp only [normal, Option.all_some, Bool.and_eq_true, decide_eq_true_eq] at h
    obtain ⟨⟨hne, hle⟩, h0⟩ := h
    refine ⟨?_, Option.filter_some_pos (by simp [hne])⟩
    simp only [keeps, Option.all_some, Bool.and_eq_true, decide_eq_true_eq]
    exact ⟨hle, h0⟩

theorem canonical_of {v : Unknown} {text : Str} (h : canonicalText v = some text) :
    isCanonicalDecimalU64 text = true := by
  cases v with
  | string s =>
    obtain ⟨hc, hs⟩ := Option.ite_none_right_eq_some.mp h
    cases hs
    exact hc
  | undefined => cases h
  | null => cases h
  | boolean => cases h
  | number => cases h
  | array => cases h
  | object => cases h

theorem integer_nat (n : Nat) : integer (.number (some n)) = some (n : Int) := by
  rw [integer, if_pos (Rat.den_natCast n), Rat.num_natCast]

/-- the message that asks for events -/
def eventsMessage (offset : Str) (limit : Nat) (filters : EventFilters) : Unknown :=
  .object [(units "type", .string (units "loadEvents")), (units "offset", .string offset),
    (units "limit", .number (some limit)), (units "filters", filters.value)]

theorem parse_eventsMessage {offset : Str} {limit : Nat} {filters : EventFilters}
    (h : acceptsEvents offset limit filters = true) :
    parseWebviewMessage (eventsMessage offset limit filters) = some (.loadEvents offset limit filters) := by
  simp only [acceptsEvents, Bool.and_eq_true, decide_eq_true_eq, List.all_cons, List.all_nil, and_true] at h
  obtain ⟨⟨hoffset, hlow, hhigh⟩, hdomain, hcategory, heventName, hseverity, hcorrelation⟩ := h
  have hfilters : normalizeFilters filters.value = some filters := by
    rw [normalize_value, if_pos]
    · rw [EventFilters.given, (given_normal hdomain).2, (given_normal hcategory).2, (given_normal heventName).2,
        (given_normal hseverity).2, (given_normal hcorrelation).2]
    · simp only [EventFilters.entries, List.all_cons, List.all_nil, (given_normal hdomain).1,
        (given_normal hcategory).1, (given_normal heventName).1, (given_normal hseverity).1,
        (given_normal hcorrelation).1, Bool.and_self]
  have hkeys : units "type" ≠ units "offset" ∧ units "type" ≠ units "limit" ∧ units "type" ≠ units "filters" ∧
      units "offset" ≠ units "limit" ∧ units "offset" ≠ units "filters" ∧ units "limit" ≠ units "filters" := by decide
  obtain ⟨h₁, h₂, h₃, h₄, h₅, h₆⟩ := hkeys
  have hnames : units "loadEvents" ≠ units "ready" ∧ units "loadEvents" ≠ units "refresh" ∧
      units "loadEvents" ≠ units "runQuery" ∧ units "loadEvents" ≠ units "openQueryFile" := by decide
  obtain ⟨n₁, n₂, n₃, n₄⟩ := hnames
  have hcanonical : canonicalText (.string offset) = some offset := if_pos hoffset
  have hrange : ¬ ((limit : Int) < 1 ∨ (limit : Int) > EVENTS_PAGE_MAX) := by omega
  simp only [parseWebviewMessage, eventsMessage, get_cons, if_neg h₁, if_neg h₂, if_neg h₃, if_neg h₄, if_neg h₅,
    if_neg h₆, if_true, if_neg n₁, if_neg n₂, if_neg n₃, if_neg n₄, hcanonical, integer_nat, Option.bind_eq_bind,
    Option.bind_some, if_neg hrange, hfilters, Int.toNat_natCast]
  rfl

/-- **the messages that are let through are those that the document takes** -/
theorem accepts_iff {offset : Str} {limit : Nat} {filters : EventFilters} :
    acceptsEvents offset limit filters = true ↔
      ∃ msg, parseWebviewMessage msg = some (.loadEvents offset limit filters) := by
  refine ⟨fun h => ⟨_, parse_eventsMessage h⟩, ?_⟩
  rintro ⟨msg, h⟩
  unfold parseWebviewMessage at h
  split at h
  · split at h
    · cases h
    split at h
    · cases h
    split at h
    · obtain ⟨_, -, h⟩ := Option.map_eq_some_iff.mp h
      cases h
    split at h
    · obtain ⟨_, -, h⟩ := Option.map_eq_some_iff.mp h
      cases h
    split at h
    · obtain ⟨text, hoffset, h⟩ := Option.bind_eq_some_iff.mp h
      obtain ⟨n, -, h⟩ := Option.bind_eq_some_iff.mp h
      obtain ⟨hrange, h⟩ := Option.ite_none_left_eq_some.mp h
      obtain ⟨f, hfilters, h⟩ := Option.bind_eq_some_iff.mp h
      cases h
      simp only [acceptsEvents, canonical_of hoffset, normalized hfilters, Bool.true_and, Bool.and_true,
        Bool.and_eq_true, decide_eq_true_eq]
      omega
    split at h
    · obtain ⟨_, -, h⟩ := Option.map_eq_some_iff.mp h
      cases h
    · cases h
  · cases h

/-! ## what is saved, and what is restored -/

/-- what can be kept of a document -/
structure PersistedNavState.Kept (nav : PersistedNavState) : Prop where
  offset : isCanonicalDecimalU64 nav.offset = true
  selected : ∀ sequence, nav.selectedSequence = some sequence → isCanonicalDecimalU64 sequence = true
  text : nav.queryText.length ≤ QUERY_TEXT_MAX_CHARS ∧ 0 ∉ nav.queryText
  filters : ∀ m ∈ nav.filters.entries, keeps m.2 = true

variable {nav : PersistedNavState}

theorem normalize_text {text : Str} (h : text.length ≤ QUERY_TEXT_MAX_CHARS ∧ 0 ∉ text) :
    normalizeQueryText (.string text) = some text := by
  rw [normalizeQueryText, if_neg]
  push Not
  exact h

theorem canonical_text (text : Str) : (canonicalText (.string text)).isSome = isCanonicalDecimalU64 text := by
  show (if isCanonicalDecimalU64 text then some text else none).isSome = _
  by_cases h : isCanonicalDecimalU64 text = true
  · rw [if_pos h, h]
    rfl
  · rw [if_neg h, Bool.eq_false_iff.mpr h]
    rfl

theorem get_nav (nav : PersistedNavState) : nav.value.get "filters" = nav.filters.value ∧ nav.value.get "offset" = .string nav.offset ∧
    nav.value.get "selectedSequence" = nav.selectedSequence.elim .null .string ∧
    nav.value.get "queryText" = .string nav.queryText := by
  have hkeys : units "filters" ≠ units "offset" ∧ units "filters" ≠ units "selectedSequence" ∧
      units "filters" ≠ units "queryText" ∧ units "offset" ≠ units "selectedSequence" ∧
      units "offset" ≠ units "queryText" ∧ units "selectedSequence" ≠ units "queryText" := by decide
  obtain ⟨h₁, h₂, h₃, h₄, h₅, h₆⟩ := hkeys
  simp only [PersistedNavState.value, get_cons, if_neg h₁, if_neg h₂, if_neg h₃, if_neg h₄, if_neg h₅, if_neg h₆,
    if_true, and_self]

theorem text_kept_iff (text : Str) :
    (normalizeQueryText (.string text)).isSome = true ↔ text.length ≤ QUERY_TEXT_MAX_CHARS ∧ 0 ∉ text := by
  constructor
  · intro h
    rw [normalizeQueryText] at h
    split at h
    · cases h
    · next hgood =>
      push Not at hgood
      exact hgood
  · intro h
    rw [normalize_text h]
    rfl

/-- **when a navigation is safe** -/
theorem safe_iff : assertPersistedNavSafe nav.value = true ↔ nav.Kept := by
  obtain ⟨hfilters, hoffset, hselected, htext⟩ := get_nav nav
  have hkeys : (nav.value.keys.length = NAV_KEYS.length ∧ nav.value.keys.all (· ∈ NAV_KEYS) = true) := by
    show NAV_KEYS.length = NAV_KEYS.length ∧ NAV_KEYS.all (· ∈ NAV_KEYS) = true
    decide
  have hsequence : (match nav.value.get "selectedSequence" with
      | .null => true
      | v => (canonicalText v).isSome) = true ↔
      ∀ sequence, nav.selectedSequence = some sequence → isCanonicalDecimalU64 sequence = true := by
    rw [hselected]
    cases nav.selectedSequence with
    | none => exact iff_of_true rfl fun sequence h => by cases h
    | some sequence =>
      show (canonicalText (.string sequence)).isSome = true ↔ _
      rw [canonical_text]
      exact ⟨fun h s hs => by cases hs; exact h, fun h => h sequence rfl⟩
  have hfilters' : (match nav.value.get "filters" with
      | .object ms => (normalizeFilters (.object ms)).isSome
      | _ => false) = true ↔ ∀ m ∈ nav.filters.entries, keeps m.2 = true := by
    rw [hfilters]
    show (normalizeFilters nav.filters.value).isSome = true ↔ _
    rw [normalize_value, ← List.all_eq_true]
    split
    · next h => exact iff_of_true rfl h
    · next h => exact iff_of_false Bool.false_ne_true h
  rw [assertPersistedNavSafe, Bool.and_eq_true, Bool.and_eq_true, Bool.and_eq_true, Bool.and_eq_true, Bool.and_eq_true,
    hsequence, hfilters', hoffset, htext, canonical_text, text_kept_iff, decide_eq_true_eq]
  constructor
  · rintro ⟨⟨⟨⟨-, h₁⟩, h₂⟩, h₃⟩, h₄⟩
    exact ⟨h₁, h₂, h₃, h₄⟩
  · rintro ⟨h₁, h₂, h₃, h₄⟩
    exact ⟨⟨⟨⟨hkeys, h₁⟩, h₂⟩, h₃⟩, h₄⟩

/-- what is restored of a navigation that is safe -/
theorem sanitize_value (h : nav.Kept) : sanitizePersistedNav nav.value = { nav with filters := nav.filters.given } := by
  obtain ⟨hfilters, hoffset, hselected, htext⟩ := get_nav nav
  have hcanonical : ∀ {text : Str}, isCanonicalDecimalU64 text = true → canonicalText (.string text) = some text :=
    fun hc => if_pos hc
  have hoffset' : sanitizeOffset (.string nav.offset) = nav.offset := by
    rw [sanitizeOffset, hcanonical h.offset]
  have hselected' : canonicalText (nav.selectedSequence.elim .null .string) = nav.selectedSequence := by
    cases hs : nav.selectedSequence with
    | none => rfl
    | some sequence => exact hcanonical (h.selected sequence hs)
  have hread : sanitizePersistedNav nav.value =
      { filters := (normalizeFilters (nav.value.get "filters")).getD ⟨none, none, none, none, none⟩
        offset := sanitizeOffset (nav.value.get "offset")
        selectedSequence := canonicalText (nav.value.get "selectedSequence")
        queryText := (normalizeQueryText (nav.value.get "queryText")).getD [] } := rfl
  rw [hread, hfilters, hoffset, hselected, htext, hoffset', hselected', normalize_text h.text, normalize_value,
    if_pos (List.all_eq_true.mpr h.filters)]
  rfl

/-! ## every state of a document -/

section
variable {V : Type} {host : Host V} {s s' : DocumentSession V} {state : ExplorerUiState V}

/-- the offset and the selection are decimals -/
structure Navigable (state : ExplorerUiState V) : Prop where
  offset : isCanonicalDecimalU64 state.offset = true
  selected : ∀ sequence, state.selectedSequence = some sequence → isCanonicalDecimalU64 sequence = true

theorem canonical_zero : isCanonicalDecimalU64 (units "0") = true := by decide

theorem sanitized_offset (v : Unknown) : isCanonicalDecimalU64 (sanitizeOffset v) = true := by
  unfold sanitizeOffset
  split
  · next htext => exact canonical_of htext
  · split
    · exact canonical_nat _
    · exact canonical_zero
  · exact canonical_zero

/-- whatever the store holds, a document is opened at decimals -/
theorem opened_navigable (fsPath : Str) (stored : Unknown) :
    Navigable (resolveCustomEditor host fsPath stored).state := by
  cases stored with
  | object ms => exact ⟨sanitized_offset _, fun sequence h => canonical_of h⟩
  | undefined => exact ⟨canonical_zero, fun sequence h => by cases h⟩
  | null => exact ⟨canonical_zero, fun sequence h => by cases h⟩
  | boolean => exact ⟨canonical_zero, fun sequence h => by cases h⟩
  | number => exact ⟨canonical_zero, fun sequence h => by cases h⟩
  | string => exact ⟨canonical_zero, fun sequence h => by cases h⟩
  | array => exact ⟨canonical_zero, fun sequence h => by cases h⟩

/-- the navigation of a state does not depend on what is shown -/
theorem Navigable.of_eq {state' : ExplorerUiState V} (h : Navigable state) (hoffset : state'.offset = state.offset)
    (hselected : state'.selectedSequence = state.selectedSequence ∨ state'.selectedSequence = none) :
    Navigable state' := by
  refine ⟨by rw [hoffset]; exact h.offset, fun sequence hs => ?_⟩
  rcases hselected with heq | hnone
  · rw [heq] at hs
    exact h.selected sequence hs
  · rw [hnone] at hs
    cases hs

theorem Failed.navigable {error : ClientError} {base : ExplorerUiState V} (hfailed : Failed error base state)
    (h : Navigable base) : Navigable state := h.of_eq hfailed.query.1 (.inl hfailed.selected)

theorem Navigable.reload (h : Navigable s.state) (checks : DocumentSession.Checks) :
    Navigable (s.reload checks).state := by
  unfold DocumentSession.reload
  dsimp only
  split
  · exact ⟨h.offset, h.selected⟩
  split
  · exact ⟨h.offset, h.selected⟩
  split
  · exact ⟨h.offset, h.selected⟩
  · exact ⟨h.offset, h.selected⟩

theorem Navigable.loadEvents (h : Navigable s.state) {offset : Str} (hoffset : isCanonicalDecimalU64 offset = true)
    (limit : Nat) (filters : EventFilters) (queryText : Option Str) :
    Navigable (s.loadEvents host offset limit filters queryText).state := by
  unfold DocumentSession.loadEvents
  split
  · exact h
  · exact ⟨hoffset, h.selected⟩

theorem Navigable.runQuery (h : Navigable s.state) (text : Str) : Navigable (s.runQuery host text).state := by
  unfold DocumentSession.runQuery
  split
  · exact h
  dsimp only
  split
  · exact h.of_eq rfl (.inr rfl)
  · exact Navigable.loadEvents (s := { s with state := { s.state with queryText := text } }) ⟨h.offset, h.selected⟩
      canonical_zero _ _ _

theorem Navigable.selectEvent (h : Navigable s.state) {sequence : Str}
    (hsequence : isCanonicalDecimalU64 sequence = true) : Navigable (s.selectEvent sequence).state := by
  unfold DocumentSession.selectEvent
  split
  · exact h
  · refine ⟨h.offset, fun q hq => ?_⟩
    cases hq
    exact hsequence

theorem Navigable.resumed (h : Navigable s.state) (r : Request) (result : Except ClientError V) :
    Navigable (s.resumed host r result).state := by
  unfold DocumentSession.resumed
  split
  · exact h
  split
  · exact (mapClientError_failed _ _).navigable h
  · exact h
  · exact (mapReaderOrNativeError_failed _ _).navigable h
  · unfold DocumentSession.summarized
    dsimp only
    split
    · exact ⟨h.offset, h.selected⟩
    · exact ⟨h.offset, h.selected⟩
  · exact (mapReaderOrNativeError_failed _ _).navigable ⟨h.offset, h.selected⟩
  · exact ⟨h.offset, h.selected⟩
  · exact (mapBrowseOpError_failed _ _).navigable ⟨h.offset, h.selected⟩
  · exact h.of_eq rfl (.inr rfl)
  · exact (mapBrowseOpError_failed _ _).navigable ⟨h.offset, h.selected⟩
  · exact ⟨h.offset, h.selected⟩

/-- **no turn leaves an offset or a selection that is no number** -/
theorem Navigable.turn {a : Action} (h : Navigable s.state) (hturn : turn host s a = some s') :
    Navigable s'.state := by
  cases a with
  | refresh checks =>
    cases hturn
    exact h.reload checks
  | runQuery text =>
    cases hturn
    exact h.runQuery text
  | loadEvents offset limit filters =>
    obtain ⟨haccepts, hs'⟩ := Option.ite_none_right_eq_some.mp hturn
    cases hs'
    rw [acceptsEvents, Bool.and_eq_true, Bool.and_eq_true] at haccepts
    exact h.loadEvents haccepts.1.1 limit filters none
  | selectEvent sequence =>
    obtain ⟨hsequence, hs'⟩ := Option.ite_none_right_eq_some.mp hturn
    cases hs'
    exact h.selectEvent hsequence
  | saved text =>
    cases hturn
    exact ⟨h.offset, h.selected⟩
  | changed =>
    obtain ⟨-, hs'⟩ := Option.ite_none_right_eq_some.mp hturn
    cases hs'
    exact ⟨h.offset, h.selected⟩
  | answered i outcome =>
    obtain ⟨r, -, rfl⟩ := Option.map_eq_some_iff.mp hturn
    exact Navigable.resumed (s := { s with requests := s.requests.eraseIdx i }) h r _
  | persisted =>
    obtain ⟨-, hs'⟩ := Option.ite_none_left_eq_some.mp hturn
    cases hs'
    unfold DocumentSession.reselect
    dsimp only
    split
    · exact h
    · next sequence hselected =>
      split
      · exact h
      · exact Navigable.selectEvent (s := { s with saving := s.saving - 1 }) h (h.selected sequence hselected)

/-! ## a document that is opened again -/

/-- the arguments do not tell a filter that is empty from one that is missing -/
theorem pushFilter_given (flag : String) (filter : Option Str) : pushFilter flag (given filter) = pushFilter flag filter := by
  cases filter with
  | none => rfl
  | some v =>
    by_cases hnil : v = []
    · subst hnil
      rfl
    · have hgiven : given (some v) = some v := Option.filter_some_pos (by simp [hnil])
      rw [hgiven]

theorem pushSeverity_given (filter : Option Str) : pushSeverity (given filter) = pushSeverity filter := by
  cases filter with
  | none => rfl
  | some v =>
    by_cases hnil : v = []
    · subst hnil
      rfl
    · have hgiven : given (some v) = some v := Option.filter_some_pos (by simp [hnil])
      rw [hgiven]

theorem buildEventsArgv_given (fsPath offset : Str) (limit : Nat) (filters : EventFilters) :
    buildEventsArgv fsPath ⟨offset, limit, filters.given⟩ = buildEventsArgv fsPath ⟨offset, limit, filters⟩ := by
  simp only [buildEventsArgv, EventFilters.given, pushFilter_given, pushSeverity_given]

/-- a document at the place of another -/
structure Reopened (before after : ExplorerUiState V) : Prop where
  offset : after.offset = before.offset
  selected : after.selectedSequence = before.selectedSequence
  filters : after.filters = before.filters.given
  query : ∀ fsPath limit, buildEventsArgv fsPath ⟨after.offset, limit, after.filters⟩
    = buildEventsArgv fsPath ⟨before.offset, limit, before.filters⟩
  text : trim before.queryText ≠ [] → after.queryText = trim before.queryText

end

end Dtj.Explorer
