import Dtj.Explorer.Client
import Dtj.Journal.Frames
import Dtj.Lib.Page

/-!
# `dtj ui-session events`

`crates/dtj/src/bin/dtj.rs`, `ui_events_command`, on the arguments that the explorer builds
(`buildEventsArgv`, `packages/dtj-vscode`).  The command knows neither the flags of the filters nor
an offset of more than 64 bits.

* `uiEventsAnswer`           the source, up to the text that is printed;
* `Satisfies`, `wanted`      the events that are asked for;
* `read_events`              what the command makes of the arguments;
* `selects_iff`              **when the events that are shown are the ones that were asked for**.
-/

namespace Dtj.Cli
open Checked Wire
open Sdk.TypeScript (Str units units_nat)
open Explorer (EventsQuery EventFilters buildEventsArgv pushFilter pushSeverity isCanonicalDecimalU64)

/-! ## the source -/

/-- the value of decimal digits -/
def decimal (digits : Str) : Nat := digits.foldl (fun n u => 10 * n + (u.toNat - 0x30)) 0

def isDigit (u : UInt16) : Bool := 0x30 ≤ u && u ≤ 0x39

/-- `v.parse::<u64>()` -/
def parseU64 (v : Str) : Option UInt64 :=
  let digits := if v.head? = some 0x2B then v.tail else v
  if digits ≠ [] ∧ digits.all isDigit = true ∧ decimal digits < 2^64 then
    some (UInt64.ofNat (decimal digits))
  else none

/-- the variables of the loop over the arguments -/
structure EventsArgs where
  path : Option Str
  offset : UInt64
  limit : Option UInt64
deriving DecidableEq

def EventsArgs.start : EventsArgs := ⟨none, 0, none⟩

/-- the loop over the arguments -/
def eventsArgs : List Str → EventsArgs → EventsArgs
  | [], a => a
  | arg :: args, a =>
    if arg = units "--offset" then
      match args with
      | [] => a
      | v :: args => eventsArgs args { a with offset := (parseU64 v).getD 0 }
    else if arg = units "--limit" then
      match args with
      | [] => a
      | v :: args => eventsArgs args { a with limit := some ((parseU64 v).getD 100) }
    else if arg.head? ≠ some 0x2D ∧ a.path = none then eventsArgs args { a with path := some arg }
    else eventsArgs args a

/-- `a + b` on `usize`: a panic, or wrapped where the build does not check -/
def addUsize (checks : Bool) (a b : Nat) : Res Error Nat :=
  if checks then add64 a b else .ok ((a + b) % 2^64)

/-- what the command prints, as data -/
inductive EventsAnswer where
  | missingPath
  | unreadable (err : Error)
  | page (reader : SessionReader) (events : List EventRecord) (total offset limit : Nat)

/-- `SessionReader::open(path)`: the file as the system gives it, or why not -/
def openPath (files : Str → Except Error Bytes) (path : Str) : Res Error SessionReader := do
  SessionReader.open (← lift (files path))

def uiEventsAnswer (checks : Bool) (files : Str → Except Error Bytes) (args : List Str) :
    Res Error EventsAnswer :=
  let a := eventsArgs args .start
  match a.path with
  | none => .ok .missingPath
  | some path =>
    let limit := min (a.limit.getD 100).toNat 256
    match openPath files path with
    | .error (.error err) => .ok (.unreadable err)
    | .error .panic => .error .panic
    | .error .diverge => .error .diverge
    | .ok reader => do
      let total := reader.events.length
      let offset := a.offset.toNat
      let stop ← addUsize checks offset limit
      if offset ≥ total then return .page reader [] total offset limit
      else
        let events ← slice reader.events offset (min stop total)
        return .page reader events total offset limit

/-! ## what is asked for -/

def severityName : Severity → String
  | .trace => "trace"
  | .debug => "debug"
  | .info => "info"
  | .warn => "warn"
  | .error => "error"
  | .fatal => "fatal"

/-- a filter that is missing or empty asks for nothing -/
def asks (filter : Option Str) (name : Option String) : Bool :=
  match filter with
  | none => true
  | some value => value = [] || name.any fun n => units n = value

/-- the event satisfies all filters, by the names of the dictionary -/
def Satisfies (d : Dictionary) (filters : EventFilters) (ev : EventRecord) : Bool :=
  asks filters.domain (d.getName .domain ev.domainId) &&
  asks filters.category (d.getName .category ev.categoryId) &&
  asks filters.eventName (d.getName .eventName ev.eventNameId) &&
  asks filters.severity (some (severityName ev.severity)) &&
  asks filters.correlation (if ev.correlationId = 0 then none else d.getName .string ev.correlationId)

def wanted (reader : SessionReader) (query : EventsQuery) : List EventRecord :=
  Page.page (reader.events.filter (Satisfies reader.dictionary query.filters)) (decimal query.offset) query.limit

/-! ## the arguments -/

/-- the flag and the value of a filter that is given -/
def pushed (flag : String) : Option Str → List (Str × Str)
  | none => []
  | some value => if value = [] then [] else [(units flag, value)]

/-- the filters that are given, in the order of the arguments -/
def givenFilters (filters : EventFilters) : List (Str × Str) :=
  pushed "--domain" filters.domain ++ pushed "--category" filters.category ++
    pushed "--event-name" filters.eventName ++ pushed "--correlation" filters.correlation ++
    pushed "--severity" filters.severity

def flagged (ps : List (Str × Str)) : List Str := ps.flatMap fun p => [p.1, p.2]

theorem pushFilter_ok {flag : String} {filter : Option Str} {args : List Str}
    (h : pushFilter flag filter = .ok args) : args = flagged (pushed flag filter) := by
  cases filter with
  | none =>
    cases h
    rfl
  | some value =>
    unfold pushFilter at h
    dsimp only at h
    split_ifs at h with hempty
    · cases h
      rw [pushed, if_pos hempty]
      rfl
    · cases h
    · cases h
    · cases h
      rw [pushed, if_neg hempty]
      rfl

theorem pushSeverity_ok {filter : Option Str} {args : List Str} (h : pushSeverity filter = .ok args) :
    args = flagged (pushed "--severity" filter) := by
  cases filter with
  | none =>
    cases h
    rfl
  | some value =>
    unfold pushSeverity at h
    dsimp only at h
    split_ifs at h with hempty
    · cases h
      rw [pushed, if_pos hempty]
      rfl
    · cases h
      rw [pushed, if_neg hempty]
      rfl
    · cases h

theorem flagged_append (ps qs : List (Str × Str)) : flagged (ps ++ qs) = flagged ps ++ flagged qs :=
  List.flatMap_append

/-- **the arguments of a request** -/
theorem buildEventsArgv_ok {fsPath : Str} {query : EventsQuery} {argv : List Str}
    (h : buildEventsArgv fsPath query = .ok argv) : isCanonicalDecimalU64 query.offset = true ∧
      1 ≤ query.limit ∧ query.limit ≤ 256 ∧
      argv = units "ui-session" :: units "events" :: ([fsPath, units "--offset", query.offset, units "--limit",
        units (toString query.limit)] ++ flagged (givenFilters query.filters)) := by
  unfold buildEventsArgv at h
  by_cases hoffset : isCanonicalDecimalU64 query.offset = true
  · rw [if_neg (not_not.mpr hoffset)] at h
    split_ifs at h with hlimit
    · cases h
    obtain ⟨domain, hdomain, h⟩ := bind_eq_ok.mp h
    obtain ⟨category, hcategory, h⟩ := bind_eq_ok.mp h
    obtain ⟨eventName, heventName, h⟩ := bind_eq_ok.mp h
    obtain ⟨correlation, hcorrelation, h⟩ := bind_eq_ok.mp h
    obtain ⟨severity, hseverity, h⟩ := bind_eq_ok.mp h
    cases h
    rw [not_or, not_lt, not_lt] at hlimit
    refine ⟨hoffset, hlimit.1, hlimit.2, ?_⟩
    rw [givenFilters, flagged_append, flagged_append, flagged_append, flagged_append, ← pushFilter_ok hdomain,
      ← pushFilter_ok hcategory, ← pushFilter_ok heventName, ← pushFilter_ok hcorrelation,
      ← pushSeverity_ok hseverity]
    simp
  · rw [if_pos hoffset] at h
    cases h

/-! ## what the command makes of them -/

theorem canonical_digits {offset : Str} (h : isCanonicalDecimalU64 offset = true) :
    offset ≠ [] ∧ ∀ u ∈ offset, isDigit u = true := by
  unfold isCanonicalDecimalU64 at h
  split at h
  · cases h
  · exact ⟨List.cons_ne_nil _ _, List.forall_mem_singleton.mpr rfl⟩
  · next u rest hzero =>
    rw [Bool.and_eq_true, Bool.and_eq_true, decide_eq_true_eq, List.all_eq_true] at h
    refine ⟨List.cons_ne_nil _ _, ?_⟩
    rw [List.forall_mem_cons]
    refine ⟨?_, h.2⟩
    rw [isDigit, Bool.and_eq_true, decide_eq_true_eq]
    exact ⟨UInt16.le_trans (by decide) h.1.1, h.1.2⟩

/-- digits are read as their value, as long as it has 64 bits -/
theorem parseU64_digits {v : Str} (hne : v ≠ []) (hdigits : ∀ u ∈ v, isDigit u = true) :
    parseU64 v = if decimal v < 2^64 then some (UInt64.ofNat (decimal v)) else none := by
  have hplus : v.head? ≠ some 0x2B := by
    intro hhead
    have hdigit := hdigits 0x2B (List.mem_of_head? hhead)
    revert hdigit
    decide
  unfold parseU64
  dsimp only
  rw [if_neg hplus]
  by_cases hlt : decimal v < 2^64
  · rw [if_pos ⟨hne, List.all_eq_true.mpr hdigits, hlt⟩, if_pos hlt]
  · rw [if_neg fun h => hlt h.2.2, if_neg hlt]

theorem parseU64_nat {n : Nat} (h : n < 2^64) : parseU64 (units (toString n)) = some (UInt64.ofNat n) := by
  have hdecimal : decimal (Json.natText n) = n := Json.digits_natText n
  rw [units_nat, parseU64_digits (Json.natText_ne_nil n) (Json.natText_digits n), hdecimal, if_pos h]

/-- the flags of filters: not known to the command, and not a number -/
def Unknown (flag : Str) : Prop :=
  flag ≠ units "--offset" ∧ flag ≠ units "--limit" ∧ parseU64 flag = none

theorem unknown_given (filters : EventFilters) : ∀ p ∈ givenFilters filters, Unknown p.1 := by
  have hflags : ∀ flag ∈ ["--domain", "--category", "--event-name", "--correlation", "--severity"],
      units flag ≠ units "--offset" ∧ units flag ≠ units "--limit" ∧ parseU64 (units flag) = none := by
    decide +kernel
  have hpushed : ∀ flag ∈ ["--domain", "--category", "--event-name", "--correlation", "--severity"],
      ∀ filter, ∀ p ∈ pushed flag filter, Unknown p.1 := by
    intro flag hflag filter p hp
    unfold pushed at hp
    split at hp
    · cases hp
    · split_ifs at hp
      · cases hp
      · rw [List.mem_singleton.mp hp]
        exact hflags flag hflag
  intro p hp
  simp only [givenFilters, List.mem_append] at hp
  obtain (((hp | hp) | hp) | hp) | hp := hp
  all_goals exact hpushed _ (by decide) _ p hp

/-- the values of filters that the command takes for flags, with the next flag as their number -/
def misread (flag : String) (ps : List (Str × Str)) : Prop := units flag ∈ (ps.map Prod.snd).dropLast

instance (flag : String) (ps : List (Str × Str)) : Decidable (misread flag ps) :=
  inferInstanceAs (Decidable (_ ∈ _))

def EventsArgs.misreading (a : EventsArgs) (ps : List (Str × Str)) : EventsArgs :=
  { a with
    offset := if misread "--offset" ps then 0 else a.offset
    limit := if misread "--limit" ps then some 100 else a.limit }

theorem misread_single (flag : String) (p : Str × Str) : ¬ misread flag [p] := List.not_mem_nil

theorem misread_cons (flag : String) (p q : Str × Str) (ps : List (Str × Str)) :
    misread flag (p :: q :: ps) ↔ units flag = p.2 ∨ misread flag (q :: ps) := List.mem_cons

section
variable {a : EventsArgs} {arg v : Str} {args : List Str}

theorem eventsArgs_offset : eventsArgs (units "--offset" :: v :: args) a
    = eventsArgs args { a with offset := (parseU64 v).getD 0 } := by
  rw [eventsArgs.eq_def]
  dsimp only
  rw [if_pos rfl]

theorem eventsArgs_limit : eventsArgs (units "--limit" :: v :: args) a
    = eventsArgs args { a with limit := some ((parseU64 v).getD 100) } := by
  have hne : units "--limit" ≠ units "--offset" := by decide
  rw [eventsArgs.eq_def]
  dsimp only
  rw [if_neg hne, if_pos rfl]

theorem eventsArgs_skip (hoffset : arg ≠ units "--offset") (hlimit : arg ≠ units "--limit")
    (hpath : a.path ≠ none) : eventsArgs (arg :: args) a = eventsArgs args a := by
  rw [eventsArgs.eq_def]
  dsimp only
  rw [if_neg hoffset, if_neg hlimit, if_neg fun h => hpath h.2]

theorem eventsArgs_last (hpath : a.path ≠ none) : eventsArgs [arg] a = a := by
  by_cases hoffset : arg = units "--offset"
  · rw [eventsArgs.eq_def]
    dsimp only
    rw [if_pos hoffset]
  by_cases hlimit : arg = units "--limit"
  · rw [eventsArgs.eq_def]
    dsimp only
    rw [if_neg hoffset, if_pos hlimit]
  rw [eventsArgs_skip hoffset hlimit hpath, eventsArgs]

end

/-- from the value of a filter on -/
theorem eventsArgs_value {ps : List (Str × Str)} (hps : ∀ p ∈ ps, Unknown p.1) {a : EventsArgs}
    (ha : a.path ≠ none) (p : Str × Str) : eventsArgs (p.2 :: flagged ps) a = a.misreading (p :: ps) := by
  induction ps generalizing a p with
  | nil =>
    rw [flagged, List.flatMap_nil, eventsArgs_last ha, EventsArgs.misreading, if_neg (misread_single _ p),
      if_neg (misread_single _ p)]
  | cons q ps ih =>
    rw [List.forall_mem_cons] at hps
    obtain ⟨⟨hoffset, hlimit, hnumber⟩, hps⟩ := hps
    have hflagged : flagged (q :: ps) = q.1 :: q.2 :: flagged ps := rfl
    have hne : units "--limit" ≠ units "--offset" := by decide
    rw [hflagged]
    unfold EventsArgs.misreading
    simp only [misread_cons]
    by_cases hp : p.2 = units "--offset"
    · rw [hp, eventsArgs_offset, hnumber, ih hps (a := { a with offset := (none : Option UInt64).getD 0 }) ha]
      simp [EventsArgs.misreading, hne]
    by_cases hp' : p.2 = units "--limit"
    · rw [hp', eventsArgs_limit, hnumber, ih hps (a := { a with limit := some ((none : Option UInt64).getD 100) }) ha]
      simp [EventsArgs.misreading, hne.symm]
    · rw [eventsArgs_skip hp hp' ha, eventsArgs_skip hoffset hlimit ha, ih hps ha]
      simp [EventsArgs.misreading, Ne.symm hp, Ne.symm hp']

theorem eventsArgs_flagged {ps : List (Str × Str)} (hps : ∀ p ∈ ps, Unknown p.1) {a : EventsArgs}
    (ha : a.path ≠ none) : eventsArgs (flagged ps) a = a.misreading ps := by
  cases ps with
  | nil => rfl
  | cons p ps =>
    rw [List.forall_mem_cons] at hps
    obtain ⟨⟨hoffset, hlimit, -⟩, hps⟩ := hps
    have hflagged : flagged (p :: ps) = p.1 :: p.2 :: flagged ps := rfl
    rw [hflagged, eventsArgs_skip hoffset hlimit ha, eventsArgs_value hps ha]

/-- the offset that the command works with -/
def readOffset (query : EventsQuery) : Nat :=
  if misread "--offset" (givenFilters query.filters) then 0
  else if decimal query.offset < 2^64 then decimal query.offset else 0

/-- the limit that the command works with -/
def readLimit (query : EventsQuery) : Nat :=
  if misread "--limit" (givenFilters query.filters) then 100 else query.limit

/-- **the arguments, as the command reads them** -/
theorem read_events {fsPath : Str} {query : EventsQuery} {argv : List Str} (hpath : fsPath.head? ≠ some 0x2D)
    (h : buildEventsArgv fsPath query = .ok argv) : eventsArgs (argv.drop 2) .start
      = ⟨some fsPath, UInt64.ofNat (readOffset query), some (UInt64.ofNat (readLimit query))⟩ := by
  obtain ⟨hoffset, -, hmax, hargv⟩ := buildEventsArgv_ok h
  obtain ⟨hne, hdigits⟩ := canonical_digits hoffset
  have hflags : (units "--offset").head? = some 0x2D ∧ (units "--limit").head? = some 0x2D := by decide
  have hfirst : eventsArgs (argv.drop 2) .start = eventsArgs (units "--offset" :: query.offset :: units "--limit" ::
      units (toString query.limit) :: flagged (givenFilters query.filters)) { EventsArgs.start with path := some fsPath } := by
    have hnotOffset : fsPath ≠ units "--offset" := fun h => hpath (h ▸ hflags.1)
    have hnotLimit : fsPath ≠ units "--limit" := fun h => hpath (h ▸ hflags.2)
    rw [hargv, List.drop_succ_cons, List.drop_succ_cons, List.drop_zero, List.cons_append, eventsArgs.eq_def]
    dsimp only
    rw [if_neg hnotOffset, if_neg hnotLimit, if_pos ⟨hpath, rfl⟩]
    rfl
  rw [hfirst, eventsArgs_offset, eventsArgs_limit, parseU64_digits hne hdigits, parseU64_nat (by omega),
    eventsArgs_flagged (unknown_given query.filters) (Option.some_ne_none fsPath)]
  unfold EventsArgs.misreading readOffset readLimit
  congr 1
  · by_cases hm : misread "--offset" (givenFilters query.filters)
    · rw [if_pos hm, if_pos hm]
      rfl
    · rw [if_neg hm, if_neg hm]
      by_cases hlt : decimal query.offset < 2^64
      · rw [if_pos hlt, if_pos hlt, Option.getD_some]
      · rw [if_neg hlt, if_neg hlt]
        rfl
  · by_cases hm : misread "--limit" (givenFilters query.filters)
    · rw [if_pos hm, if_pos hm]
      rfl
    · rw [if_neg hm, if_neg hm, Option.getD_some]

theorem readOffset_lt (query : EventsQuery) : readOffset query < 2^64 := by
  unfold readOffset
  split_ifs with h h'
  · decide
  · exact h'
  · decide

theorem readLimit_bounds {query : EventsQuery} (hmin : 1 ≤ query.limit) (hmax : query.limit ≤ 256) :
    1 ≤ readLimit query ∧ readLimit query ≤ 256 := by
  unfold readLimit
  split_ifs
  · decide
  · exact ⟨hmin, hmax⟩

/-! ## the events that are shown -/

/-- the command shows these events -/
def Selects (checks : Bool) (files : Str → Except Error Bytes) (argv : List Str) (events : List EventRecord) : Prop :=
  ∃ reader total offset limit,
    uiEventsAnswer checks files (argv.drop 2) = .ok (.page reader events total offset limit)

/-- no sum of the two that the build notices to be too large -/
def Adds (checks : Bool) (query : EventsQuery) : Prop :=
  checks = true → readOffset query + readLimit query < 2^64

/-- the offset is understood, and the events on the page are the ones that satisfy the filters -/
structure Honoured (reader : SessionReader) (query : EventsQuery) : Prop where
  offset : readOffset query = decimal query.offset ∨ reader.events = []
  satisfied : reader.events.length ≤ decimal query.offset ∨
    ∀ ev ∈ reader.events.take (decimal query.offset + readLimit query),
      Satisfies reader.dictionary query.filters ev = true
  short : reader.events.length ≤ decimal query.offset ∨ (readLimit query < query.limit →
    ∀ ev ∈ reader.events.drop (decimal query.offset + readLimit query),
      Satisfies reader.dictionary query.filters ev = false)
  long : query.limit < readLimit query → reader.events.length ≤ decimal query.offset + query.limit

/-- the command on a session that is readable -/
theorem uiEventsAnswer_eq {checks : Bool} {files : Str → Except Error Bytes} {fsPath : Str} {query : EventsQuery}
    {argv : List Str} {reader : SessionReader} (hpath : fsPath.head? ≠ some 0x2D)
    (hargv : buildEventsArgv fsPath query = .ok argv) (hopen : openPath files fsPath = .ok reader) :
    uiEventsAnswer checks files (argv.drop 2) = (do
      let stop ← addUsize checks (readOffset query) (readLimit query)
      if readOffset query ≥ reader.events.length then
        return .page reader [] reader.events.length (readOffset query) (readLimit query)
      else
        let events ← slice reader.events (readOffset query) (min stop reader.events.length)
        return .page reader events reader.events.length (readOffset query) (readLimit query)) := by
  obtain ⟨-, hmin, hmax, -⟩ := buildEventsArgv_ok hargv
  have hlimit := (readLimit_bounds hmin hmax).2
  have hnat : (UInt64.ofNat (readOffset query)).toNat = readOffset query ∧
      min (UInt64.ofNat (readLimit query)).toNat 256 = readLimit query := by
    rw [UInt64.toNat_ofNat', UInt64.toNat_ofNat', Nat.mod_eq_of_lt (readOffset_lt query), Nat.mod_eq_of_lt (by omega)]
    exact ⟨rfl, min_eq_left hlimit⟩
  unfold uiEventsAnswer
  rw [read_events hpath hargv]
  dsimp only
  rw [hopen, Option.getD_some, hnat.1, hnat.2]

/-- **the slice that is shown**, whatever the filters say -/
theorem selects_page {checks : Bool} {files : Str → Except Error Bytes} {fsPath : Str} {query : EventsQuery}
    {argv : List Str} {data : Bytes} {reader : SessionReader} (hpath : fsPath.head? ≠ some 0x2D)
    (hargv : buildEventsArgv fsPath query = .ok argv) (hfile : files fsPath = .ok data)
    (hdata : data.length < 2^63) (hopen : SessionReader.open data = .ok reader) (events : List EventRecord) :
    Selects checks files argv events ↔
      Adds checks query ∧ events = Page.page reader.events (readOffset query) (readLimit query) := by
  obtain ⟨-, hmin, hmax, -⟩ := buildEventsArgv_ok hargv
  obtain ⟨hlimit, hlimit'⟩ := readLimit_bounds hmin hmax
  have hoffset := readOffset_lt query
  have hopened : openPath files fsPath = .ok reader := by
    rw [openPath, hfile]
    exact hopen
  have htotal : reader.events.length ≤ data.length := by
    rw [(open_wellFormed (by omega) hopen).events]
    exact (events_length _).trans (by rw [List.length_drop]; omega)
  unfold Selects Adds
  rw [uiEventsAnswer_eq hpath hargv hopened]
  clear hopened
  generalize readOffset query = offset at hoffset ⊢
  generalize readLimit query = limit at hlimit hlimit' ⊢
  unfold addUsize
  by_cases hsum : offset + limit < 2^64
  · have hstop : (if checks = true then add64 offset limit else .ok ((offset + limit) % 2^64))
        = (.ok (offset + limit) : Res Error Nat) := by
      split
      · exact add64_eq hsum
      · rw [Nat.mod_eq_of_lt hsum]
    rw [hstop, ok_bind, and_iff_right fun _ => hsum]
    by_cases hbeyond : offset ≥ reader.events.length
    · rw [if_pos hbeyond, Page.page_nil limit hbeyond]
      constructor
      · rintro ⟨reader', total, offset', limit', h⟩
        cases h
        rfl
      · rintro rfl
        exact ⟨_, _, _, _, rfl⟩
    · rw [if_neg hbeyond]
      rw [not_le] at hbeyond
      have hslice : slice reader.events offset (min (offset + limit) reader.events.length)
          = (.ok (Page.page reader.events offset limit) : Res Error (List EventRecord)) := by
        have htake : (reader.events.drop offset).take (min (offset + limit) reader.events.length - offset)
            = (reader.events.drop offset).take limit := by
          rw [List.take_eq_take_iff, List.length_drop]
          omega
        unfold slice
        rw [if_pos ⟨by omega, min_le_right _ _⟩, htake]
        rfl
      rw [hslice, ok_bind]
      constructor
      · rintro ⟨reader', total, offset', limit', h⟩
        cases h
        rfl
      · rintro rfl
        exact ⟨_, _, _, _, rfl⟩
  · have hbeyond : offset ≥ reader.events.length := by omega
    rw [Page.page_nil limit hbeyond]
    cases checks with
    | true =>
      have hcrash : (add64 offset limit : Res Error Nat) = crash := if_neg hsum
      rw [if_pos rfl, hcrash]
      constructor
      · rintro ⟨reader', total, offset', limit', h⟩
        cases h
      · rintro ⟨hadds, -⟩
        exact absurd (hadds rfl) hsum
    | false =>
      rw [if_neg Bool.false_ne_true, ok_bind, if_pos hbeyond]
      constructor
      · rintro ⟨reader', total, offset', limit', h⟩
        cases h
        exact ⟨Bool.noConfusion, rfl⟩
      · rintro ⟨-, rfl⟩
        exact ⟨_, _, _, _, rfl⟩

/-! ## when they are the ones that were asked for -/

/-- **when the events that are shown are the ones that were asked for**: the session is empty; or the
offset is understood, and nothing stands there or all events up to the end of the page satisfy the
filters, where the limit is understood too or makes no difference -/
theorem selects_iff {checks : Bool} {files : Str → Except Error Bytes} {fsPath : Str} {query : EventsQuery}
    {argv : List Str} {data : Bytes} {reader : SessionReader} (hpath : fsPath.head? ≠ some 0x2D)
    (hargv : buildEventsArgv fsPath query = .ok argv) (hfile : files fsPath = .ok data)
    (hdata : data.length < 2^63) (hopen : SessionReader.open data = .ok reader) :
    Selects checks files argv (wanted reader query) ↔ Adds checks query ∧ Honoured reader query := by
  obtain ⟨-, hmin, hmax, -⟩ := buildEventsArgv_ok hargv
  have hlimit := (readLimit_bounds hmin hmax).1
  have hnodup : reader.events.Nodup := by
    rw [List.nodup_iff_getElem?_ne_getElem?]
    intro i j hij hj heq
    have hsequence := (open_wellFormed (by omega) hopen).sequence
    have hi : reader.events[i]? = some reader.events[j] := by rw [heq, List.getElem?_eq_getElem hj]
    have hseq := hsequence i _ hi
    rw [hsequence j _ (List.getElem?_eq_getElem hj)] at hseq
    omega
  rw [selects_page hpath hargv hfile hdata hopen, and_congr_right_iff]
  intro _
  unfold wanted
  by_cases hoffset : readOffset query = decimal query.offset
  · rw [hoffset, Page.page_filter_iff _ hnodup _ hlimit]
    constructor
    · rintro (hbeyond | ⟨hall, hshort, hlong⟩)
      · exact ⟨.inl hoffset, .inl hbeyond, .inl hbeyond, fun _ => by omega⟩
      · refine ⟨.inl hoffset, .inr hall, .inr fun hlt ev hev => ?_, hlong⟩
        exact Bool.not_eq_true _ ▸ hshort hlt ev hev
    · rintro ⟨-, hbeyond | hall, hbeyond' | hshort, hlong⟩
      · exact .inl hbeyond
      · exact .inl hbeyond
      · exact .inl hbeyond'
      · refine .inr ⟨hall, fun hlt ev hev => ?_, hlong⟩
        exact ne_true_of_eq_false (hshort hlt ev hev)
  · have hzero : readOffset query = 0 ∧ 0 < decimal query.offset := by
      unfold readOffset at hoffset ⊢
      split_ifs at hoffset ⊢
      · exact ⟨rfl, by omega⟩
      · exact absurd rfl hoffset
      · exact ⟨rfl, by omega⟩
    rw [hzero.1, Page.page_filter_start _ hnodup hzero.2 hlimit]
    constructor
    · intro hempty
      have hnone : reader.events.length ≤ decimal query.offset := by
        rw [hempty]
        exact Nat.zero_le _
      exact ⟨.inr hempty, .inl hnone, .inl hnone, fun _ => by omega⟩
    · rintro ⟨hunderstood | hempty, -, -, -⟩
      · exact absurd hunderstood hoffset
      · exact hempty

/-- the path of a journal of one event, in the domain `net` -/
def journalPath : Str := units "/s.dtj"

def pageQuery (offset domain : String) : EventsQuery :=
  ⟨units offset, 1, ⟨some (units domain), none, none, none, none⟩⟩

set_option maxRecDepth 100000 in
/-- the event of a domain that was not asked for is shown -/
theorem domain_ignored : ∃ argv reader, buildEventsArgv journalPath (pageQuery "0" "disk") = .ok argv ∧
    SessionReader.open journalBytes = .ok reader ∧
    Selects false (fun _ => .ok journalBytes) argv [journalEvent] ∧ wanted reader (pageQuery "0" "disk") = [] := by
  obtain ⟨argv, hargv⟩ : ∃ argv, buildEventsArgv journalPath (pageQuery "0" "disk") = .ok argv := ⟨_, rfl⟩
  obtain ⟨reader, hopen, hreader⟩ := @exists_ok SessionReader (fun r => decide (r.events = [journalEvent] ∧
    wanted r (pageQuery "0" "disk") = [])) (SessionReader.open journalBytes) (by decide +kernel)
  obtain ⟨hevents, hwanted⟩ := of_decide_eq_true hreader
  refine ⟨argv, reader, hargv, hopen, ?_, hwanted⟩
  refine (selects_page (by decide) hargv rfl (by decide) hopen _).mpr ⟨Bool.noConfusion, ?_⟩
  have hslice : readOffset (pageQuery "0" "disk") = 0 ∧ readLimit (pageQuery "0" "disk") = 1 := by decide
  rw [hslice.1, hslice.2, hevents]
  rfl

set_option maxRecDepth 100000 in
/-- the event of the domain that was asked for is shown -/
theorem selects_example : ∃ argv reader, buildEventsArgv journalPath (pageQuery "0" "net") = .ok argv ∧
    SessionReader.open journalBytes = .ok reader ∧
    Selects true (fun _ => .ok journalBytes) argv (wanted reader (pageQuery "0" "net")) := by
  obtain ⟨argv, hargv⟩ : ∃ argv, buildEventsArgv journalPath (pageQuery "0" "net") = .ok argv := ⟨_, rfl⟩
  obtain ⟨reader, hopen, hreader⟩ := @exists_ok SessionReader (fun r => decide (r.events = [journalEvent] ∧
    ∀ ev ∈ r.events, Satisfies r.dictionary (pageQuery "0" "net").filters ev = true))
    (SessionReader.open journalBytes) (by decide +kernel)
  obtain ⟨hevents, hsatisfied⟩ := of_decide_eq_true hreader
  have hread : readOffset (pageQuery "0" "net") = decimal (pageQuery "0" "net").offset ∧
      readLimit (pageQuery "0" "net") = 1 ∧ Adds true (pageQuery "0" "net") := by
    unfold Adds
    decide
  refine ⟨argv, reader, hargv, hopen, ?_⟩
  refine (selects_iff (by decide) hargv rfl (by decide) hopen).mpr ⟨hread.2.2, ?_⟩
  refine ⟨.inl hread.1, .inr fun ev hev => hsatisfied ev (List.mem_of_mem_take hev), .inr ?_, ?_⟩
  · rw [hread.2.1]
    exact fun hlt => absurd hlt (by decide)
  · rw [hread.2.1]
    exact fun hlt => absurd hlt (by decide)

/-- the pages that are asked for list the events that satisfy the filters, each once -/
theorem wanted_pages {reader : SessionReader} {filters : EventFilters} {limit : Nat} {queries : Nat → EventsQuery}
    (hqueries : ∀ i, (queries i).filters = filters ∧ (queries i).limit = limit ∧ decimal (queries i).offset = i * limit)
    (n : Nat) (hn : reader.events.length ≤ n * limit) :
    ((List.range n).map fun i => wanted reader (queries i)).flatten
      = reader.events.filter (Satisfies reader.dictionary filters) := by
  have hpages : ∀ i, wanted reader (queries i)
      = Page.page (reader.events.filter (Satisfies reader.dictionary filters)) (i * limit) limit := by
    intro i
    obtain ⟨hfilters, hlimit, hoffset⟩ := hqueries i
    rw [wanted, hfilters, hlimit, hoffset]
  rw [List.map_congr_left fun i _ => hpages i]
  exact Page.pages_flatten n ((List.length_filter_le _ _).trans hn)

end Dtj.Cli
