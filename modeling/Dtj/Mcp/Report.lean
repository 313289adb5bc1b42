import Dtj.Mcp.Events

/-!
# The two reports on duration fields

`stats_report_dtj` decodes the session and keeps the events with the filters of the search;
`performance_report_dtj_index` takes them from the index, with filters of its own.  Both collect the
numbers under names that look like durations and tell their percentiles.

* `stats_report_dtj`, `statsItem`               the report on the session;
* `performance_report_dtj_index`, `performanceItem`, `_filter_events`   the one on its index;
* `performanceItem_eq`                          the two collections are the same;
* `filter_events_numbered`                      the index filter leaves numbered events in their order;
* `reports_agree_iff`                           **when the two reports are the same**;
* `capitals_missed`                             a category that only one of them finds.
-/

namespace Dtj.Mcp

open Posix

def SCALAR_NUMERIC_TYPES : List Str := ["i32", "i64", "u32", "u64", "f32", "f64"]

/-- the numbers and patterns of `report.py` -/
structure Arith where
  /-- `float(n)` -/
  ofInt : Int → Except Exc UInt64
  sorted : List UInt64 → List UInt64
  /-- `n * (p / 100.0)` -/
  rank : Nat → Nat → UInt64
  floor : UInt64 → Nat
  ceil : UInt64 → Nat
  ofNat : Nat → UInt64
  add : UInt64 → UInt64 → UInt64
  sub : UInt64 → UInt64 → UInt64
  mul : UInt64 → UInt64 → UInt64
  /-- what `re.IGNORECASE` takes a code point for -/
  ignoring : UInt32 → UInt32

/-- `isinstance(value, (int, float))`, truth values aside -/
def Py.isNumber : Py → Bool
  | .int _ => true
  | .float _ => true
  | _ => false

section
variable (arith : Arith)

/-- `float(value)` of a number -/
def Arith.float : Py → Except Exc UInt64
  | .int n => arith.ofInt n
  | .float bits => .ok bits
  | _ => .error .TypeError

/-- `(duration|elapsed|latency|ms$|_ms$)`; the end may be before a last line feed -/
def _DURATION_KEY (key : Str) : Bool :=
  let key := key.map arith.ignoring
  Str.within "duration" key || Str.within "elapsed" key || Str.within "latency" key ||
    decide (lit "ms" <:+ key) || decide (lit "ms\n" <:+ key) || decide (lit "_ms" <:+ key) ||
    decide (lit "_ms\n" <:+ key)

def _is_duration_field (key : Str) (value : Py) : Bool := value.isNumber && _DURATION_KEY arith key

def _percentile (sorted_vals : List UInt64) (p : Nat) : Py :=
  match sorted_vals with
  | [] => .none
  | [x] => .float x
  | _ =>
    let k := arith.rank (sorted_vals.length - 1) p
    let f := arith.floor k
    let c := arith.ceil k
    if f = c then .float (sorted_vals.getD f 0)
    else
      let d0 := arith.mul (sorted_vals.getD f 0) (arith.sub (arith.ofNat c) k)
      let d1 := arith.mul (sorted_vals.getD c 0) (arith.sub k (arith.ofNat f))
      .float (arith.add d0 d1)

/-! ## buckets and rows -/

/-- what the numbers are collected under -/
structure Bucket where
  domain : Str
  category : Str
  eventName : Str
  field : Str
deriving DecidableEq

/-- `buckets[key].append(value)`, where a key that is not there has the empty list -/
def appendTo (key : Bucket) (value : UInt64) : List (Bucket × List UInt64) → List (Bucket × List UInt64)
  | [] => [(key, [value])]
  | (k, values) :: rest =>
    if k = key then (k, values ++ [value]) :: rest else (k, values) :: appendTo key value rest

def buckets (readings : List (Bucket × UInt64)) : List (Bucket × List UInt64) :=
  readings.foldl (fun found r => appendTo r.1 r.2 found) []

/-- the order of the rows: `(-count, domain, category, eventName, field)` -/
def rowLe (r s : Bucket × List UInt64) : Bool :=
  if r.2.length ≠ s.2.length then decide (s.2.length < r.2.length)
  else if r.1.domain ≠ s.1.domain then decide (r.1.domain < s.1.domain)
  else if r.1.category ≠ s.1.category then decide (r.1.category < s.1.category)
  else if r.1.eventName ≠ s.1.eventName then decide (r.1.eventName < s.1.eventName)
  else decide (r.1.field ≤ s.1.field)

def row (r : Bucket × List UInt64) : Py :=
  let values_sorted := arith.sorted r.2
  .dict [("domain", .str r.1.domain), ("category", .str r.1.category),
    ("eventName", .str r.1.eventName), ("field", .str r.1.field), ("count", .int r.2.length),
    ("p50", _percentile arith values_sorted 50), ("p95", _percentile arith values_sorted 95),
    ("max", (values_sorted.getLast?.map Py.float).getD .none)]

/-- the lines that both reports end with -/
def metrics (readings : List (Bucket × UInt64)) : Py :=
  .list (((buckets readings).mergeSort rowLe).map (row arith))

/-! ## `stats_report_dtj` -/

variable (python : Python)

/-- the key of a number of an event -/
def bucketOf (event : Dict) (name : Str) : Bucket where
  domain := text python ((get event "domain").orElse (.str []))
  category := text python ((get event "category").orElse (.str []))
  eventName := text python ((get event "event_name").orElse (.str []))
  field := name

/-- what its loop does with one item of a payload -/
def statsItem (event item : Dict) : Except Exc (List (Bucket × UInt64)) :=
  match get item "name" with
  | .str name =>
    if name.isEmpty then .ok []
    else do
      if !(← within (get item "type") SCALAR_NUMERIC_TYPES) then
        return []
      let value := get item "value"
      if !value.isNumber then
        return []
      if !_is_duration_field arith name value then
        return []
      return [(bucketOf python event name, ← arith.float value)]
  | _ => .ok []

def statsReadings : List Dict → Except Exc (List (Bucket × UInt64))
  | [] => .ok []
  | e :: rest => do
    let found ← overPayload (statsItem arith python e) e
    let others ← statsReadings rest
    return found ++ others

/-- the text arguments of a tool -/
def Py.ofText : Option Str → Py
  | some s => .str s
  | Option.none => .none

/-- the filters that the statistics pass on -/
def narrowed (domain category : Option Str) : Filters where
  domain := .ofText domain
  category := .ofText category
  event_name := .none
  event := .none
  correlation_id := .none
  severity := .none
  text := .none
  exclude := .none
  exclude_category := .none

def statsEvents (domain category : Option Str) : List Dict → Except Exc (List Dict)
  | [] => .ok []
  | e :: rest => do
    let keep ← event_matches_native_filters python e (narrowed domain category) none none
    let others ← statsEvents domain category rest
    return if keep then e :: others else others

/-- `c[name] += 1` -/
def bump (c : List (Str × Int)) (name : Str) : List (Str × Int) :=
  assign name ((c.lookup name).getD 0 + 1) c

/-- `Counter(…)` of some texts -/
def counter (names : List Str) : List (Str × Int) := names.foldl bump []

/-- `dict(Counter(str(e.get(key) or "<none>") for e in events).most_common())` -/
def counts (key : Str) (events : List Dict) : Py :=
  let names := events.map fun e => text python ((get e key).orElse (.str "<none>"))
  .dict (((counter names).mergeSort fun a b => decide (b.2 ≤ a.2)).map fun c => (c.1, .int c.2))

end

section
variable {ν : Type} (host : Host ν) (arith : Arith) (fs : Fs ν)

def _base (session : Path ν) (decoded : Dict) : Dict :=
  [("ok", .bool true), ("adapter", (get decoded "adapter").orElse adapter),
    ("session_path", .str (host.str session)), ("torn_tail", .bool (get decoded "torn_tail").truthy)]

def statsResult (session : Path ν) (decoded : Dict) (events : List Dict)
    (readings : List (Bucket × UInt64)) : Dict :=
  _base host session decoded ++ ([("events_scanned", .int events.length),
    ("counts", .dict [("by_domain", counts host.python "domain" events),
      ("by_category", counts host.python "category" events),
      ("by_event_name", counts host.python "event_name" events),
      ("by_severity", counts host.python "severity" events)]),
    ("metrics", metrics arith readings)] : Dict)

def stats_report_dtj (session : Path ν) (domain category : Option Str) : Except Exc Dict := do
  let decoded ← read_session_dtj host fs session
  if !(get decoded "ok").truthy then
    return decoded
  let raw ← _events decoded
  let events ← statsEvents host.python domain category raw
  let readings ← statsReadings arith host.python events
  return statsResult host arith session decoded events readings

/-! ## `performance_report_dtj_index` -/

/-- the arguments of `_filter_events` -/
structure IndexFilter where
  domain : Option Str
  category : Option Str
  event_name : Option Str
  correlation : Option Str
  severity : Option Str

/-- an argument is missing, or the value is the same -/
def same (python : Python) (e : Dict) (key : Str) (wanted : Option Str) : Bool :=
  wanted.all fun s => python.eq (get e key) (.str s)

def IndexFilter.keeps (python : Python) (f : IndexFilter) (e : Dict) : Bool :=
  same python e "domain" f.domain && same python e "category" f.category &&
    same python e "event_name" f.event_name && same python e "correlation" f.correlation &&
    same python e "severity" f.severity

/-- the sort key: `int(e.get("event_sequence") or 0)` -/
def sortKey (python : Python) (e : Dict) : Except Exc Int :=
  python.toInt ((get e "event_sequence").orElse (.int 0))

def sortBySequence (python : Python) (out : List Dict) : Except Exc (List Dict) := do
  let keys ← out.mapM (sortKey python)
  return ((keys.zip out).mergeSort fun a b => decide (a.1 ≤ b.1)).map Prod.snd

def _filter_events (python : Python) (events : List Dict) (f : IndexFilter) : Except Exc (List Dict) :=
  sortBySequence python (events.filter (f.keeps python))

def loadedIndex (session index : Path ν) (doc : Dict) (events : List Dict) : Dict :=
  [("ok", .bool true), ("adapter", adapter), ("session_path", .str (host.str session)),
    ("index_path", .str (host.str index)), ("torn_tail", .bool (get doc "torn_tail").truthy),
    ("events", .list (events.map .dict))]

def load_validated_index_events (session index : Path ν) (f : IndexFilter) : Except Exc Dict := do
  let opened ← _open_validated_index host fs session index
  if !(get opened "ok").truthy then
    return opened
  match get opened "doc" with
  | .dict doc => do
    let raw ← _events doc
    let events ← _filter_events host.python raw f
    return loadedIndex host session index doc events
  | _ => .error .TypeError

/-- `_iter_eligible_numeric_fields`, for one item of a payload -/
def eligible (item : Dict) : Except Exc (List (Str × Py)) :=
  match get item "name" with
  | .str name =>
    if name.isEmpty then .ok []
    else do
      if !(← within (get item "type") SCALAR_NUMERIC_TYPES) then
        return []
      let value := get item "value"
      if !value.isNumber then
        return []
      return [(name, value)]
  | _ => .ok []

/-- what the loop does with a field that is eligible -/
def performanceField (python : Python) (field : Option Str) (event : Dict) (entry : Str × Py) :
    Except Exc (List (Bucket × UInt64)) :=
  if field.any (· ≠ entry.1) then .ok []
  else if !_is_duration_field arith entry.1 entry.2 then .ok []
  else do
    return [(bucketOf python event entry.1, ← arith.float entry.2)]

def performanceItem (python : Python) (field : Option Str) (event item : Dict) :
    Except Exc (List (Bucket × UInt64)) := do
  match ← eligible item with
  | entry :: _ => performanceField arith python field event entry
  | [] => return []

/-- the loop over the events: `none` where one is no object -/
def performanceReadings (python : Python) (field : Option Str) :
    List Py → Except Exc (Option (List (Bucket × UInt64)))
  | [] => .ok (some [])
  | .dict e :: rest => do
    let found ← overPayload (performanceItem arith python field e) e
    let others ← performanceReadings python field rest
    return others.map (found ++ ·)
  | _ :: _ => .ok none

def performanceResult (loaded : Dict) (events_scanned : Nat) (readings : List (Bucket × UInt64)) : Dict :=
  [("ok", .bool true), ("adapter", adapter), ("session_path", get loaded "session_path"),
    ("index_path", get loaded "index_path"), ("torn_tail", .bool (get loaded "torn_tail").truthy),
    ("events_scanned", .int events_scanned), ("metrics", metrics arith readings)]

def corruptIndex (loaded : Dict) (session index : Path ν) (message : String) : Dict :=
  [("ok", .bool false), ("adapter", adapter),
    ("session_path", getD loaded "session_path" (.str (host.str session))),
    ("index_path", getD loaded "index_path" (.str (host.str index))),
    ("error", .dict [("kind", .str "CorruptIndex"), ("message", .str message)])]

def performance_report_dtj_index (session index : Path ν) (domain category field : Option Str) :
    Except Exc Dict := do
  let loaded ← load_validated_index_events host fs session index ⟨domain, category, none, none, none⟩
  if !(get loaded "ok").truthy then
    return loaded
  match get loaded "events" with
  | .list events =>
    match ← performanceReadings arith host.python field events with
    | some readings => return performanceResult arith loaded events.length readings
    | none => return corruptIndex host loaded session index "index event projection is not an object"
  | _ => return corruptIndex host loaded session index "validated index load missing events list"

end

/-! ## the collections -/

section
variable {arith : Arith} {python : Python}

/-- one item, without a field restriction: the same checks in another order -/
theorem performanceItem_eq (event item : Dict) :
    performanceItem arith python none event item = statsItem arith python event item := by
  unfold performanceItem eligible statsItem
  split
  · rename_i name hname
    split_ifs with hempty
    · rfl
    · cases within (get item "type") SCALAR_NUMERIC_TYPES with
      | error exc => rfl
      | ok known =>
        cases known with
        | false => rfl
        | true =>
          cases hnumber : (get item "value").isNumber with
          | false => simp [hnumber, bind, Except.bind, pure, Except.pure]
          | true => simp [hnumber, bind, Except.bind, pure, Except.pure, performanceField]
  · rfl

theorem performanceReadings_eq (events : List Dict) :
    performanceReadings arith python none (events.map .dict)
      = (statsReadings arith python events).map some := by
  induction events with
  | nil => rfl
  | cons e rest ih =>
    have hitems : performanceItem arith python none e = statsItem arith python e :=
      funext fun item => performanceItem_eq e item
    rw [List.map_cons, performanceReadings, statsReadings, hitems, ih]
    cases overPayload (statsItem arith python e) e with
    | error exc => rfl
    | ok found =>
      cases statsReadings arith python rest with
      | error exc => rfl
      | ok others => rfl

/-- what can be read from all events can be read from some of them -/
theorem statsReadings_sublist {some all : List Dict} (hsub : some.Sublist all)
    {readings : List (Bucket × UInt64)} (h : statsReadings arith python all = .ok readings) :
    ∃ fewer, statsReadings arith python some = .ok fewer := by
  induction hsub generalizing readings with
  | slnil => exact ⟨[], rfl⟩
  | cons e hsub ih =>
    rw [statsReadings] at h
    obtain ⟨found, -, h⟩ := bind_eq_ok h
    obtain ⟨others, hothers, -⟩ := bind_eq_ok h
    exact ih hothers
  | cons_cons e hsub ih =>
    rw [statsReadings] at h
    obtain ⟨found, hfound, h⟩ := bind_eq_ok h
    obtain ⟨others, hothers, -⟩ := bind_eq_ok h
    obtain ⟨fewer, hfewer⟩ := ih hothers
    refine ⟨found ++ fewer, ?_⟩
    rw [statsReadings, hfound, hfewer]
    rfl

/-! ## the filters -/

/-- `==` of a value and a text -/
def EqText (python : Python) : Prop := ∀ value s, python.eq value (.str s) = value.isText s

/-- the category filter of the search, on one event -/
def alike (python : Python) (e : Dict) (category : Option Str) : Bool :=
  category.all fun c =>
    match get e "category" with
    | .str s => decide (python.casefold s = python.casefold c)
    | _ => false

theorem narrowed_matches (domain category : Option Str) (e : Dict) :
    event_matches_native_filters python e (narrowed domain category) none none
      = .ok (same python e "domain" domain && alike python e category) := by
  have hdomain : (!(Py.ofText domain).isNone && !python.eq (get e "domain") (Py.ofText domain))
      = !same python e "domain" domain := by
    cases domain with
    | none => rfl
    | some d => simp [Py.ofText, Py.isNone, same]
  have hnone : Py.none.isNone = true := rfl
  unfold event_matches_native_filters narrowed alike
  dsimp only
  rw [hdomain]
  cases same python e "domain" domain with
  | false => cases get e "category" <;> simp [hnone, bind, Except.bind, pure, Except.pure]
  | true =>
    cases category with
    | none => cases get e "category" <;> rfl
    | some c =>
      cases get e "category" with
      | str s =>
        by_cases h : python.casefold s = python.casefold c
        · simp [Py.ofText, Py.isNone, Python.casefolded, bind, Except.bind, pure, Except.pure, h]
        · simp [Py.ofText, Py.isNone, Python.casefolded, bind, Except.bind, pure, Except.pure, h]
      | _ => rfl

theorem statsEvents_eq (domain category : Option Str) (events : List Dict) :
    statsEvents python domain category events
      = .ok (events.filter fun e => same python e "domain" domain && alike python e category) := by
  induction events with
  | nil => rfl
  | cons e rest ih =>
    rw [statsEvents, narrowed_matches, ih, List.filter_cons]
    cases same python e "domain" domain && alike python e category <;> rfl

/-- the keys of numbered events are their sequences -/
theorem sortKey_eq {events : List Dict} (hseq : Numbered events) {e : Dict} (he : e ∈ events) :
    sortKey python e = .ok (seqOf e) := by
  obtain ⟨i, hi⟩ := List.mem_iff_getElem?.mp he
  have hkey : get e "event_sequence" = .int (i + 1) := hseq i e hi
  have htruthy : (Py.int (i + 1)).truthy = true := by
    rw [Py.truthy, bne_iff_ne]
    omega
  rw [sortKey, seqOf, hkey, Py.orElse, if_pos htruthy]
  rfl

theorem numbered_sorted {events : List Dict} (hseq : Numbered events) :
    events.Pairwise fun a b => seqOf a ≤ seqOf b := by
  rw [List.pairwise_iff_getElem]
  intro i j hi hj hij
  rw [seqOf, seqOf, hseq.asInt (List.getElem?_eq_getElem hi), hseq.asInt (List.getElem?_eq_getElem hj)]
  simp only [Option.getD_some]
  omega

/-- **the index filter leaves numbered events in their order** -/
theorem filter_events_numbered {events : List Dict} (hseq : Numbered events) (f : IndexFilter) :
    _filter_events python events f = .ok (events.filter (f.keeps python)) := by
  have hsub : (events.filter (f.keeps python)).Sublist events := List.filter_sublist
  have hkeys : (events.filter (f.keeps python)).mapM (sortKey python)
      = .ok ((events.filter (f.keeps python)).map seqOf) := by
    have hall : ∀ es : List Dict, (∀ e ∈ es, e ∈ events) →
        es.mapM (sortKey python) = .ok (es.map seqOf) := by
      intro es hes
      induction es with
      | nil => rfl
      | cons e es ih =>
        rw [List.mapM_cons, sortKey_eq hseq (hes e List.mem_cons_self),
          ih fun d hd => hes d (List.mem_cons_of_mem e hd)]
        rfl
    exact hall _ fun e he => hsub.mem he
  have hzip : ((events.filter (f.keeps python)).map seqOf).zip (events.filter (f.keeps python))
      = (events.filter (f.keeps python)).map fun e => (seqOf e, e) := by
    have h := List.zip_map' (f := seqOf) (g := id) (l := events.filter (f.keeps python))
    rwa [List.map_id] at h
  rw [_filter_events, sortBySequence, hkeys]
  dsimp only [bind, Except.bind, pure, Except.pure]
  rw [hzip, List.mergeSort_of_pairwise, List.map_map]
  · rw [show Prod.snd ∘ (fun e : Dict => (seqOf e, e)) = id from rfl, List.map_id]
  · rw [List.pairwise_map]
    exact ((numbered_sorted hseq).sublist hsub).imp fun h => decide_eq_true h

theorem keeps_narrow (domain category : Option Str) (e : Dict) :
    IndexFilter.keeps python ⟨domain, category, none, none, none⟩ e
      = (same python e "domain" domain && same python e "category" category) := by
  simp [IndexFilter.keeps, same]

/-- a category that is the same is alike -/
theorem alike_of_same (heq : EqText python) {e : Dict} {category : Option Str}
    (h : same python e "category" category = true) : alike python e category = true := by
  cases category with
  | none => rfl
  | some c =>
    rw [same, Option.all_some, heq] at h
    rw [alike, Option.all_some]
    cases hcat : get e "category" with
    | str s =>
      rw [hcat, Py.isText, beq_iff_eq] at h
      exact decide_eq_true (by rw [h])
    | _ =>
      rw [hcat] at h
      cases h

/-- the events that the two filters keep are the same -/
theorem kept_eq_iff (heq : EqText python) (domain category : Option Str) (events : List Dict) :
    (events.filter fun e => same python e "domain" domain && same python e "category" category)
      = (events.filter fun e => same python e "domain" domain && alike python e category)
    ↔ ∀ c, category = some c → ∀ e ∈ events, same python e "domain" domain = true →
      ∀ s, get e "category" = .str s → python.casefold s = python.casefold c → s = c := by
  constructor
  · rintro h c rfl e he hdomain s hs hfold
    have halike : e ∈ events.filter fun e => same python e "domain" domain && alike python e (some c) := by
      rw [List.mem_filter, hdomain, Bool.true_and, alike, Option.all_some, hs]
      exact ⟨he, decide_eq_true hfold⟩
    rw [← h, List.mem_filter, hdomain, Bool.true_and, same, Option.all_some, heq, hs] at halike
    exact beq_iff_eq.mp halike.2
  · intro h
    apply List.filter_congr
    intro e he
    cases hdomain : same python e "domain" domain with
    | false => rfl
    | true =>
      rw [Bool.true_and, Bool.true_and, Bool.eq_iff_iff]
      refine ⟨alike_of_same heq, fun halike => ?_⟩
      cases category with
      | none => rfl
      | some c =>
        rw [same, Option.all_some, heq]
        rw [alike, Option.all_some] at halike
        cases hcat : get e "category" with
        | str s =>
          rw [hcat] at halike
          exact beq_iff_eq.mpr (h c rfl e he hdomain s hcat (of_decide_eq_true halike))
        | _ =>
          rw [hcat] at halike
          cases halike

end

section
variable {ν : Type} [DecidableEq ν] (host : Host ν) (disk : Disk ν) (arith : Arith)

omit [DecidableEq ν] in
theorem stats_run {fs : Fs ν} {session : Path ν} {domain category : Option Str} {decoded report : Dict}
    {events : List Dict} (hread : read_session_dtj host fs session = .ok decoded)
    (hdecoded : (get decoded "ok").truthy = true) (hevents : _events decoded = .ok events)
    (h : stats_report_dtj host arith fs session domain category = .ok report) :
    let kept := events.filter fun e => same host.python e "domain" domain && alike host.python e category
    ∃ readings, statsReadings arith host.python kept = .ok readings
      ∧ report = statsResult host arith session decoded kept readings := by
  unfold stats_report_dtj at h
  rw [hread] at h
  dsimp only [bind, Except.bind] at h
  rw [hdecoded, hevents] at h
  dsimp only at h
  rw [if_neg (by decide), statsEvents_eq] at h
  obtain ⟨readings, hreadings, h⟩ := bind_eq_ok h
  cases h
  exact ⟨readings, hreadings, rfl⟩

omit [DecidableEq ν] in
theorem load_run {fs : Fs ν} {session index : Path ν} {doc : Dict} {events : List Dict}
    (hopened : _open_validated_index host fs session index = .ok [("ok", .bool true), ("doc", .dict doc)])
    (hevents : _events doc = .ok events) (hseq : Numbered events) (f : IndexFilter) :
    load_validated_index_events host fs session index f
      = .ok (loadedIndex host session index doc (events.filter (f.keeps host.python))) := by
  unfold load_validated_index_events
  rw [hopened]
  show (_events doc >>= fun raw => _filter_events host.python raw f >>= _) = _
  rw [hevents]
  show (_filter_events host.python events f >>= _) = _
  rw [filter_events_numbered hseq]
  rfl

omit [DecidableEq ν] in
theorem performance_run {fs : Fs ν} {session index : Path ν} (domain category : Option Str) {doc : Dict}
    {events : List Dict}
    (hopened : _open_validated_index host fs session index = .ok [("ok", .bool true), ("doc", .dict doc)])
    (hevents : _events doc = .ok events) (hseq : Numbered events) {readings : List (Bucket × UInt64)}
    (hreadings : statsReadings arith host.python (events.filter fun e =>
      same host.python e "domain" domain && same host.python e "category" category) = .ok readings) :
    ∃ r, performance_report_dtj_index host arith fs session index domain category none = .ok r
      ∧ (get r "ok").truthy = true
      ∧ get r "events_scanned" = .int (events.filter fun e => same host.python e "domain" domain
        && same host.python e "category" category).length
      ∧ get r "metrics" = metrics arith readings := by
  have hkeeps : IndexFilter.keeps host.python ⟨domain, category, none, none, none⟩
      = fun e => same host.python e "domain" domain && same host.python e "category" category :=
    funext (keeps_narrow domain category)
  unfold performance_report_dtj_index
  rw [load_run host hopened hevents hseq, hkeeps]
  generalize (events.filter fun e => same host.python e "domain" domain
    && same host.python e "category" category) = kept at hreadings ⊢
  refine ⟨performanceResult arith (loadedIndex host session index doc kept) kept.length readings, ?_, rfl,
    rfl, rfl⟩
  show (performanceReadings arith host.python none (kept.map .dict) >>= _) = _
  rw [performanceReadings_eq, hreadings]
  show Except.ok (performanceResult arith _ (kept.map Py.dict).length readings) = _
  rw [List.length_map]

/-- **The two reports are the same exactly when no category of an event in the domain differs from the
argument in its letter case only.** -/
theorem reports_agree_iff (fs₀ fs₁ fs : Fs ν) (session index : Path ν) (domain category : Option Str)
    {built opened decoded report : Dict} {events : List Dict}
    (hnew : ∀ name ∈ index.comps.getLast?, Unused (makeParent disk fs₀ index).1 (disk.temp name))
    (hbuilt : index_session_dtj host disk fs₀ session index true = (fs₁, .ok built))
    (hok : (get built "ok").truthy = true) (hround : RoundTrips host disk fs₀ session)
    (hsession : fs.read session = fs₀.read session) (hindex : fs.read index = fs₁.read index)
    (hopened : _open_validated_index host fs session index = .ok opened)
    (haccepted : (get opened "ok").truthy = true) (heq : EqText host.python)
    (hread : read_session_dtj host fs session = .ok decoded) (hevents : _events decoded = .ok events)
    (hseq : Numbered events)
    (hstats : stats_report_dtj host arith fs session domain category = .ok report) :
    (∃ r, performance_report_dtj_index host arith fs session index domain category none = .ok r
      ∧ (get r "ok").truthy = true
      ∧ get r "events_scanned" = get report "events_scanned" ∧ get r "metrics" = get report "metrics")
    ↔ ∀ c, category = some c → ∀ e ∈ events, same host.python e "domain" domain = true →
      ∀ s, get e "category" = .str s → host.python.casefold s = host.python.casefold c → s = c := by
  obtain ⟨decoded', doc, raw, hread', hdecoded, hraw, before, -, hdoc, hload⟩ :=
    built_document host disk hnew hbuilt hok hround
  have hsame : decoded' = decoded := by
    rw [read_session_dtj, ← hsession] at hread'
    exact Except.ok.inj (hread'.symm.trans hread)
  subst hsame
  obtain ⟨bytes, found, hbytes, hfound, rfl⟩ := opened_document host hopened haccepted
  have hdocument : found = doc := by
    have hloaded := hload bytes (hindex ▸ hbytes)
    rw [hfound] at hloaded
    cases hloaded
    rfl
  subst hdocument
  obtain ⟨normalized, rfl, hindexed⟩ := events_of_document hdoc
  have hsource : ∀ d : Dict, get d "events" = .list (normalized.map .dict) →
      _events d = _events decoded' := by
    intro d hd
    rw [_events, _events, hd, hraw]
  rw [← kept_eq_iff heq]
  obtain ⟨readings, hreadings, rfl⟩ := stats_run host arith hread hdecoded hevents hstats
  have hsub : (events.filter fun e => same host.python e "domain" domain
      && same host.python e "category" category).Sublist
      (events.filter fun e => same host.python e "domain" domain && alike host.python e category) := by
    apply List.monotone_filter_right
    intro e h
    rw [Bool.and_eq_true] at h ⊢
    exact ⟨h.1, alike_of_same heq h.2⟩
  obtain ⟨fewer, hfewer⟩ := statsReadings_sublist hsub hreadings
  obtain ⟨r, hr, hrok, hscanned, hmetrics⟩ := performance_run host arith domain category
    hopened ((hsource found hindexed).trans hevents) hseq hfewer
  constructor
  · rintro ⟨r', hr', -, hscanned', -⟩
    rw [hr] at hr'
    cases hr'
    rw [hscanned] at hscanned'
    have hlen := Int.ofNat.inj (Py.int.inj hscanned')
    exact hsub.eq_of_length hlen
  · intro h
    refine ⟨r, hr, hrok, ?_, ?_⟩
    · rw [hscanned, h]
      rfl
    · rw [h] at hfewer
      rw [hmetrics, Except.ok.inj (hfewer.symm.trans hreadings)]
      rfl

end

/-! ## a category in capitals -/

def exampleArith : Arith where
  ofInt _ := .ok 0
  sorted xs := xs
  rank _ _ := 0
  floor _ := 0
  ceil _ := 0
  ofNat _ := 0
  add a _ := a
  sub a _ := a
  mul a _ := a
  ignoring c := if 65 ≤ c ∧ c ≤ 90 then c + 32 else c

theorem exampleEvent_numbered : Numbered [exampleEvent] := by
  intro i e he
  match i with
  | 0 => cases he; rfl
  | _ + 1 => cases he

theorem examplePython_eqText : EqText examplePython := by
  intro value s
  cases value <;> rfl

set_option maxRecDepth 100000 in
theorem exampleBuilt_opened : _open_validated_index exampleHost exampleBuilt (examplePath "s.dtj")
    (examplePath "i.json") = .ok [("ok", .bool true), ("doc", .dict exampleDocument)] := rfl

set_option maxRecDepth 100000 in
theorem reports_agree_example : ∃ r, performance_report_dtj_index exampleHost exampleArith exampleBuilt
    (examplePath "s.dtj") (examplePath "i.json") (some "net") (some "rx") none = .ok r
      ∧ (get r "ok").truthy = true ∧ get r "events_scanned" = .int 1
      ∧ get r "metrics" = metrics exampleArith [] := by
  have hnew : ∀ name ∈ (examplePath "i.json").comps.getLast?,
      Unused (makeParent exampleDisk exampleFs (examplePath "i.json")).1 (exampleDisk.temp name) := by
    rintro name hname
    cases hname
    exact exampleFs_unused (by decide)
  have hbuilt : index_session_dtj exampleHost exampleDisk exampleFs (examplePath "s.dtj")
      (examplePath "i.json") true = (exampleBuilt, .ok exampleReport) := Prod.ext rfl rfl
  refine (reports_agree_iff exampleHost exampleDisk exampleArith exampleFs exampleBuilt exampleBuilt _ _
    (some "net") (some "rx") hnew hbuilt rfl exampleHost_roundTrips rfl rfl exampleBuilt_opened rfl
    examplePython_eqText rfl rfl exampleEvent_numbered rfl).mpr ?_
  rintro c hc e he - s hs -
  cases hc
  cases List.mem_singleton.mp he
  cases hs
  rfl

set_option maxRecDepth 100000 in
/-- **The category `RX`: the statistics see the event of the category `rx`, the index report does
not.** -/
theorem capitals_missed : ∃ report r,
    stats_report_dtj exampleHost exampleArith exampleBuilt (examplePath "s.dtj") none (some "RX")
      = .ok report
    ∧ performance_report_dtj_index exampleHost exampleArith exampleBuilt (examplePath "s.dtj")
      (examplePath "i.json") none (some "RX") none = .ok r
    ∧ (get report "ok").truthy = true ∧ (get r "ok").truthy = true
    ∧ get report "events_scanned" = .int 1 ∧ get r "events_scanned" = .int 0 := by
  obtain ⟨r, hr, hok, hscanned, -⟩ := performance_run exampleHost exampleArith none (some "RX")
    exampleBuilt_opened (rfl : _ = Except.ok [exampleEvent]) exampleEvent_numbered
    (rfl : _ = Except.ok ([] : List (Bucket × UInt64)))
  exact ⟨_, r, rfl, hr, rfl, hok, rfl, hscanned⟩

end Dtj.Mcp
