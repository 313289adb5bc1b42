import Dtj.Lib.Cut
import Dtj.Mcp.Derived

/-!
# Events of a decoded session

The parts of `dtj_analyze.py` and `dtj_analytics.py` that look at one event, and the boundaries of
the sessions in a list of them.  An event may hold any value in any field: a test of one that Python
cannot make raises a `TypeError`.

* `_tag`, `_haystack`, `_compact`          the texts of an event;
* `_entity_refs`, `_entity_id_from_event`  the entities that it names;
* `_is_session_boundary`                   the test that the next four share;
* `_scope_events`, `_count_sessions`, `_session_slices`, `last_session_dtj`
                                           the sessions;
* `boundaries_agree`                       **they find the same ones**.
-/

namespace Dtj.Mcp

open Posix Cut

/-! ## one event -/

/-- `d[key]` -/
def key (d : Dict) (key : Str) : Except Exc Py :=
  match d.lookup key with
  | some value => .ok value
  | none => .error .KeyError

/-- `isinstance(value, int)`: a truth value is one -/
def Py.asInt : Py → Option Int
  | .int n => some n
  | .bool b => some (if b then 1 else 0)
  | _ => Option.none

/-- `value in {…}`, of texts -/
def within (value : Py) (names : List Str) : Except Exc Bool :=
  match value with
  | .str s => .ok (s ∈ names)
  | .list _ => .error .TypeError
  | .dict _ => .error .TypeError
  | _ => .ok false

/-- the loop over a payload: an item that is no object is passed over -/
def overItems {α : Type} (f : Dict → Except Exc (List α)) : List Py → Except Exc (List α)
  | [] => .ok []
  | .dict item :: rest => do
    let found ← f item
    let others ← overItems f rest
    return found ++ others
  | _ :: rest => overItems f rest

/-- the same loop, when the payload is a list -/
def overPayload {α : Type} (f : Dict → Except Exc (List α)) (event : Dict) : Except Exc (List α) :=
  match get event "payload" with
  | .list payload => overItems f payload
  | _ => .ok []

def ENTITY_FIELD_KEYS : List Str := ["id", "wire", "networkId", "sourceId", "route"]

def SCALAR_TYPES : List Str := ["bool", "i32", "i64", "u32", "u64", "f32", "f64", "enum"]

def INTEGER_TYPES : List Str := ["i32", "i64", "u32", "u64"]

section
variable (python : Python)

/-- `str(value)`, and the value of an f-string -/
def text (python : Python) : Py → Str
  | .str s => s
  | value => python.str value

def _tag (event : Dict) : Str :=
  let cat := (get event "category").orElse (.str [])
  let name := (get event "event_name").orElse (.str [])
  if cat.truthy || name.truthy then text python cat ++ lit "." ++ text python name else "<none>"

/-- `value`, when it is a text -/
def texts : Py → List Str
  | .str s => [s]
  | _ => []

/-- what `_string_parts` adds for one item -/
def itemParts (item : Dict) : Except Exc (List Str) := do
  let name := texts (get item "name")
  let type := get item "type"
  let val := get item "value"
  if type.isText "interned_string" && val.isStr then
    return name ++ texts val
  if ← within type SCALAR_TYPES then
    return name ++ [text python val]
  return name ++ if type.isText "bytes" then texts (get item "hex") else []

def _string_parts (event : Dict) : Except Exc (List Str) := do
  let parts := [lit "domain", lit "category", lit "event_name", lit "correlation",
    lit "severity"].flatMap fun key => (texts (get event key)).filter fun value => !value.isEmpty
  let more ← overPayload (itemParts python) event
  return parts ++ more

/-- `name=value`, of an item with a name and a value that has a text -/
def itemPair (item : Dict) : Except Exc (List Str) :=
  match get item "name" with
  | .str name => do
    let type := get item "type"
    let val := get item "value"
    if type.isText "interned_string" && val.isStr then
      return [name ++ lit "=" ++ text python val]
    if ← within type SCALAR_TYPES then
      return [name ++ lit "=" ++ text python val]
    return []
  | _ => .ok []

def _haystack (event : Dict) : Except Exc Str := do
  let parts ← _string_parts python event
  let pairs ← overPayload (itemPair python) event
  return List.intercalate (lit " ") (parts ++ pairs)

def _compact (event : Dict) : Except Exc Str := do
  let seq := get event "event_sequence"
  let corr := (get event "correlation").orElse (.str "-")
  let fields ← overPayload (itemPair python) event
  let msg := List.intercalate (lit " ") fields
  let msg := if msg.length > 120 then msg.take 117 ++ lit "..." else msg
  return python.rstrip (text python seq ++ lit "\t" ++ _tag python event ++ lit "\tcorr=" ++
    text python corr ++ lit "\t" ++ msg)

/-- an item that names an entity: the key and the text of its value -/
def entityItem (item : Dict) : Except Exc (List (Str × Str)) := do
  let name := get item "name"
  let type := get item "type"
  let value := get item "value"
  if !(← within name ENTITY_FIELD_KEYS) then
    return []
  if type.isText "interned_string" && value.isStr then
    return [(text python name, text python value)]
  if (← within type INTEGER_TYPES) && !value.isNone then
    return [(text python name, text python value)]
  return []

/-- a set, as the list of its members -/
def _entity_refs (event : Dict) : Except Exc (List Str) := do
  let corr := match get event "correlation" with
    | .str corr => if corr.isEmpty then [] else [corr]
    | _ => []
  let items ← overPayload (entityItem python) event
  return corr ++ items.map Prod.snd

/-- `value or other`, of texts that may be missing -/
def textOr (value other : Option Str) : Option Str :=
  match value with
  | some s => if s.isEmpty then other else some s
  | none => other

def _entity_id_from_event (event : Dict) : Except Exc (Option Str) := do
  let items ← overPayload (entityItem python) event
  let by_name := items.foldl (fun d e => assign e.1 e.2 d) []
  return textOr (by_name.lookup (lit "id")) (textOr (by_name.lookup (lit "networkId"))
    (textOr (by_name.lookup (lit "sourceId")) (by_name.lookup (lit "wire"))))

def _event_matches (event_name : Str) (substrings : List Str) : Bool :=
  substrings.any fun s => Str.within s event_name

/-! ## boundaries -/

/-- `text in value` -/
def contains (text : Str) : Py → Except Exc Bool
  | .str s => .ok (Str.within text s)
  | .list xs => .ok (xs.any fun x => python.eq x (.str text))
  | .dict items => .ok (items.lookup text).isSome
  | _ => .error .TypeError

variable (lower : Str → Str)

def _is_session_boundary (event : Dict) : Except Exc Bool := do
  let cat := (get event "category").orElse (.str [])
  let name := (get event "event_name").orElse (.str [])
  if cat.isText "Session" then
    if ← contains python "Begin" name then
      return true
  if _tag python event = "Session.Begin" then
    return true
  if cat.isText "Lifecycle" && name.isText "trace" then
    return Str.within "cleared" (lower (← _haystack python event))
  return false

/-- `[e for e in events if _is_session_boundary(e)]` -/
def boundaries : List Dict → Except Exc (List Dict)
  | [] => .ok []
  | e :: rest => do
    let b ← _is_session_boundary python lower e
    let others ← boundaries rest
    return if b then e :: others else others

def _last_boundary_seq (events : List Dict) : Except Exc (Option Int) := do
  let found ← boundaries python lower events
  return (found.filterMap fun e => (get e "event_sequence").asInt).getLast?

def _count_sessions (events : List Dict) : Except Exc Nat := do
  let n := (← boundaries python lower events).length
  return if n > 0 then n else if events.isEmpty then 0 else 1

/-- the keyword arguments of `_scope_events`, at their defaults -/
structure Scope where
  since_last_clear : Bool := false
  category : Option Str := none
  mono_from_ns : Option Int := none
  mono_to_ns : Option Int := none

/-- what the loop of `_scope_events` keeps -/
def Scope.keeps (scope : Scope) (since_seq : Option Int) (event : Dict) : Bool :=
  let seq := (get event "event_sequence").asInt
  let mono := (get event "monotonic_ns").asInt
  !(since_seq.any fun since => seq.any (· < since)) &&
  !(scope.category.any fun category => !(get event "category").isText category) &&
  !(scope.mono_from_ns.any fun start => mono.any (· < start)) &&
  !(scope.mono_to_ns.any fun stop => mono.any (stop < ·))

def _scope_events (events : List Dict) (scope : Scope) : Except Exc (List Dict) := do
  let since_seq ← if scope.since_last_clear then _last_boundary_seq python lower events else .ok none
  return events.filter (scope.keeps since_seq)

/-- `[i for i, e in enumerate(events) if _is_session_boundary(e)]`, counted from `i` -/
def boundaryStarts (i : Nat) : List Dict → Except Exc (List Nat)
  | [] => .ok []
  | e :: rest => do
    let b ← _is_session_boundary python lower e
    let others ← boundaryStarts (i + 1) rest
    return if b then i :: others else others

def _session_slices (events : List Dict) : Except Exc (List (List Dict)) := do
  let starts ← boundaryStarts python lower 0 events
  if starts.isEmpty then
    return if events.isEmpty then [] else [events]
  return cut events starts

end

/-! ## the last session -/

section
variable {ν : Type} (host : Host ν) (fs : Fs ν) (lower : Str → Str)

def _ok (session : Path ν) (decoded extra : Dict) : Dict :=
  ([("ok", .bool true), ("adapter", (get decoded "adapter").orElse adapter),
    ("session_path", .str (host.str session)),
    ("torn_tail", .bool (get decoded "torn_tail").truthy)] : Dict) ++ extra

/-- the `session` and `text` of the result, for a session without a boundary -/
def wholeSession (events : List Dict) : Dict × Str :=
  ([("boundary_event_sequence", .int 1), ("explicit_boundary", .bool false),
    ("events_in_session", .int events.length)],
    lit "session start: event_sequence 1 (no explicit boundary)\nevents in session: " ++
      Str.ofInt events.length)

/-- for one with a last boundary -/
def sessionSince (last : Dict) (events : List Dict) : Except Exc (Dict × Str) := do
  let seq ← host.python.toInt (← key last "event_sequence")
  let count := (events.filter fun e => (get e "event_sequence").asInt.any (seq ≤ ·)).length
  let compact ← _compact host.python last
  return ([("boundary_event_sequence", .int seq), ("explicit_boundary", .bool true),
      ("tag", .str (_tag host.python last)), ("events_in_session", .int count)],
    lit "session start: event_sequence " ++ Str.ofInt seq ++ lit "  tag " ++ _tag host.python last ++
      lit "\nmessage: " ++ compact.take 80 ++ lit "\nevents since boundary: " ++ Str.ofInt count)

def lastSession (events : List Dict) : Except Exc (Dict × Str) := do
  let found ← boundaries host.python lower events
  match found.getLast? with
  | none => return wholeSession events
  | some last => sessionSince host last events

def last_session_dtj (session : Path ν) : Except Exc Dict := do
  let decoded ← read_session_dtj host fs session
  if !(get decoded "ok").truthy then
    return decoded
  let events ← _events decoded
  if events.isEmpty then
    return _ok host session decoded [("text", .str "No events."),
      ("session", .dict [("boundary_event_sequence", .none), ("events_in_session", .int 0)])]
  let (found, text) ← lastSession host lower events
  return _ok host session decoded [("text", .str text), ("session", .dict found)]

end

/-! ## the boundaries of a list -/

section
variable {python : Python} {lower : Str → Str} {events : List Dict}

/-- the test, where it can be made -/
def isBoundary (python : Python) (lower : Str → Str) (event : Dict) : Bool :=
  match _is_session_boundary python lower event with
  | .ok b => b
  | .error _ => false

theorem isBoundary_eq {e : Dict} {b : Bool} (h : _is_session_boundary python lower e = .ok b) :
    isBoundary python lower e = b := by
  rw [isBoundary, h]

/-- the four scans make the same tests in the same order: the same one raises -/
theorem boundaries_error {exc : Exc} (h : boundaries python lower events = .error exc) (i : Nat) :
    boundaryStarts python lower i events = .error exc := by
  induction events generalizing i with
  | nil => cases h
  | cons e rest ih =>
    rw [boundaries] at h
    rw [boundaryStarts]
    cases hb : _is_session_boundary python lower e with
    | error exc' =>
      rw [hb] at h
      cases h
      rfl
    | ok b =>
      rw [hb] at h
      cases hrest : boundaries python lower rest with
      | error exc' =>
        rw [hrest] at h
        cases h
        show (boundaryStarts python lower (i + 1) rest >>= _) = _
        rw [ih hrest (i + 1)]
        rfl
      | ok found =>
        rw [hrest] at h
        cases h

theorem boundaries_ok {found : List Dict} (h : boundaries python lower events = .ok found) :
    (∀ e ∈ events, _is_session_boundary python lower e = .ok (isBoundary python lower e))
    ∧ found = events.filter (isBoundary python lower)
    ∧ ∀ i, boundaryStarts python lower i events = .ok (marks (isBoundary python lower) i events) := by
  induction events generalizing found with
  | nil =>
    cases h
    simp [boundaryStarts, marks]
  | cons e rest ih =>
    obtain ⟨b, hb, h⟩ := bind_eq_ok h
    obtain ⟨others, hothers, h⟩ := bind_eq_ok h
    cases h
    obtain ⟨htests, hfound, hstarts⟩ := ih hothers
    have hmark := isBoundary_eq hb
    refine ⟨?_, ?_, ?_⟩
    · rw [List.forall_mem_cons]
      exact ⟨by rw [hmark, hb], htests⟩
    · rw [List.filter_cons, hmark, hfound]
    · intro i
      rw [boundaryStarts, hb, marks, hmark]
      show (boundaryStarts python lower (i + 1) rest >>= _) = _
      rw [hstarts (i + 1)]
      cases b <;> rfl

/-- the sequences of the events are 1, 2, 3, … -/
def Numbered (events : List Dict) : Prop :=
  ∀ (i : Nat) e, events[i]? = some e → get e "event_sequence" = .int (i + 1)

/-- what `last_session_dtj` reports -/
def reported (d : Dict) : Py :=
  match get d "session" with
  | .dict session => get session "events_in_session"
  | _ => .none

/-- the sequence of a numbered event -/
def seqOf (e : Dict) : Int := (get e "event_sequence").asInt.getD 0

theorem Numbered.asInt (hseq : Numbered events) {i : Nat} {e : Dict} (he : events[i]? = some e) :
    (get e "event_sequence").asInt = some ((1 : Int) + i) := by
  rw [hseq i e he, Py.asInt, Int.add_comm]

theorem Numbered.mem (hseq : Numbered events) {e : Dict} (he : e ∈ events) :
    (get e "event_sequence").asInt = some (seqOf e) := by
  obtain ⟨i, hi⟩ := List.mem_iff_getElem?.mp he
  rw [seqOf, hseq.asInt hi]
  rfl

/-- a test of the sequence of numbered events is a test of their place -/
theorem Numbered.filter_from (hseq : Numbered events) (k : Nat) {p : Dict → Bool}
    (hp : ∀ e ∈ events, p e = decide ((1 + k : Int) ≤ seqOf e)) : events.filter p = events.drop k := by
  have hkey (i : Nat) (e : Dict) (he : events[i]? = some e) : seqOf e = 1 + i := by
    rw [seqOf, hseq.asInt he]
    rfl
  rw [← Cut.filter_from hkey]
  exact List.filter_congr hp

/-- the last boundary, in a list that has one -/
theorem last_boundary (hseq : Numbered events) {b : Dict → Bool} {k : Nat}
    (hk : (marks b 0 events).getLast? = some k) :
    ∃ last, (events.filter b).getLast? = some last
      ∧ get last "event_sequence" = .int (k + 1)
      ∧ ((events.filter b).filterMap fun e => (get e "event_sequence").asInt).getLast?
        = some ((1 : Int) + k) := by
  obtain ⟨last, hlast, hfilter⟩ := marks_last hk
  rw [Nat.sub_zero] at hlast
  refine ⟨last, hfilter, hseq k last hlast, ?_⟩
  obtain ⟨before, hbefore⟩ := List.getLast?_eq_some_iff.mp hfilter
  rw [hbefore, List.filterMap_append, List.filterMap_cons, hseq.asInt hlast]
  simp

variable {ν : Type} {host : Host ν} {fs : Fs ν} {session : Path ν} {decoded : Dict}

/-- without a boundary the scope is the whole list -/
theorem scope_all (h : boundaries python lower events = .ok []) :
    _scope_events python lower events { since_last_clear := true } = .ok events := by
  rw [_scope_events, if_pos rfl, _last_boundary_seq, h]
  show Except.ok (events.filter _) = _
  rw [List.filter_eq_self.mpr fun e _ => ?_]
  simp [Scope.keeps]

/-- with one, it is what follows the last -/
theorem scope_last (hseq : Numbered events) {found : List Dict} {k : Nat}
    (h : boundaries python lower events = .ok found)
    (hk : (marks (isBoundary python lower) 0 events).getLast? = some k) :
    _scope_events python lower events { since_last_clear := true } = .ok (events.drop k) := by
  obtain ⟨last, hlast, -, hseqs⟩ := last_boundary hseq hk
  rw [_scope_events, if_pos rfl, _last_boundary_seq, h, (boundaries_ok h).2.1]
  show Except.ok (events.filter (Scope.keeps _ _)) = _
  rw [hseqs, hseq.filter_from k]
  intro e he
  have hkeep : Scope.keeps { since_last_clear := true } (some ((1 : Int) + k)) e
      = !decide (seqOf e < 1 + k) := by
    simp [Scope.keeps, hseq.mem he]
  rw [hkeep, ← decide_not, decide_eq_decide]
  exact not_lt

theorem marks_eq_nil_iff {found : List Dict} (h : boundaries python lower events = .ok found) :
    marks (isBoundary python lower) 0 events = [] ↔ found = [] := by
  rw [(boundaries_ok h).2.1, List.filter_eq_nil_iff, marks_eq_nil]
  simp

/-- the sessions of a list whose boundaries can be told -/
theorem slices_ok (hne : events ≠ []) (hseq : Numbered events) {found : List Dict}
    (h : boundaries python lower events = .ok found) :
    ∃ slices last, _session_slices python lower events = .ok slices
      ∧ slices.getLast? = some last
      ∧ _scope_events python lower events { since_last_clear := true } = .ok last
      ∧ slices.flatten = (if found = [] then events
          else events.dropWhile fun e => !isBoundary python lower e)
      ∧ _count_sessions python lower events = .ok slices.length := by
  obtain ⟨htests, hfound, hstarts⟩ := boundaries_ok h
  have hslices : _session_slices python lower events = .ok
      (if (marks (isBoundary python lower) 0 events).isEmpty then
        if events.isEmpty then [] else [events]
      else cut events (marks (isBoundary python lower) 0 events)) := by
    rw [_session_slices, hstarts 0]
    show (if _ then _ else _) = _
    split_ifs <;> rfl
  have hcount : _count_sessions python lower events = .ok (if found = [] then 1 else found.length) := by
    rw [_count_sessions, h]
    show Except.ok (if found.length > 0 then _ else _) = _
    cases found with
    | nil => simp [hne]
    | cons e rest => simp
  cases hk : (marks (isBoundary python lower) 0 events).getLast? with
  | none =>
    have hnil := List.getLast?_eq_none_iff.mp hk
    have hnone := (marks_eq_nil_iff h).mp hnil
    refine ⟨[events], events, ?_, rfl, scope_all (hnone ▸ h), ?_, ?_⟩
    · rw [hslices, hnil]
      simp [hne]
    · rw [if_pos hnone, List.flatten_singleton]
    · rw [hcount, if_pos hnone]
      rfl
  | some k =>
    have hmarks : marks (isBoundary python lower) 0 events ≠ [] := by
      intro hnil
      rw [hnil] at hk
      cases hk
    have hsome : found ≠ [] := mt (marks_eq_nil_iff h).mpr hmarks
    refine ⟨cut events (marks (isBoundary python lower) 0 events), events.drop k, ?_, cut_last hk,
      scope_last hseq h hk, ?_, ?_⟩
    · rw [hslices, if_neg (by simpa using hmarks)]
    · rw [if_neg hsome]
      cases hall : marks (isBoundary python lower) 0 events with
      | nil => exact absurd hall hmarks
      | cons start rest =>
        rw [cut_flatten (hall ▸ marks_sorted _ 0 events), ← marks_head hall, Nat.sub_zero]
    · rw [hcount, if_neg hsome, cut_length, marks_length, hfound]

theorem key_get {d : Dict} {name : Str} {n : Int} (h : get d name = .int n) :
    key d name = .ok (.int n) := by
  rw [get, getD] at h
  rw [key]
  cases hl : d.lookup name with
  | none =>
    rw [hl] at h
    cases h
  | some value =>
    rw [hl] at h
    exact congrArg Except.ok h

variable (events) in
theorem sessionSince_ok {last : Dict} {seq : Int} {compact : Str}
    (hkey : key last "event_sequence" = .ok (.int seq)) (hc : _compact host.python last = .ok compact) :
    ∃ found text, sessionSince host last events = .ok (found, text) ∧ get found "events_in_session"
      = .int (events.filter fun e => (get e "event_sequence").asInt.any (seq ≤ ·)).length := by
  have hget : ∀ a b c n : Py, get [(lit "boundary_event_sequence", a), (lit "explicit_boundary", b),
      (lit "tag", c), (lit "events_in_session", n)] "events_in_session" = n := by
    intro a b c n
    rfl
  unfold sessionSince
  rw [hkey, hc]
  exact ⟨_, _, rfl, hget ..⟩

/-- what the last session is reported as, when its text can be made -/
theorem lastSession_ok (hseq : Numbered events) {found : List Dict}
    (h : boundaries host.python lower events = .ok found) :
    (∃ s text last, lastSession host lower events = .ok (s, text)
      ∧ _scope_events host.python lower events { since_last_clear := true } = .ok last
      ∧ get s "events_in_session" = .int last.length)
    ∨ ∃ exc, lastSession host lower events = .error exc
      ∧ ∃ e ∈ events, _compact host.python e = .error exc := by
  cases hk : (marks (isBoundary host.python lower) 0 events).getLast? with
  | none =>
    have hnone := (marks_eq_nil_iff h).mp (List.getLast?_eq_none_iff.mp hk)
    rw [hnone] at h
    have hrun : lastSession host lower events = .ok (wholeSession events) := by
      rw [lastSession, h]
      rfl
    exact .inl ⟨_, _, events, hrun, scope_all h, rfl⟩
  | some k =>
    obtain ⟨last, hlast, hlastSeq, -⟩ := last_boundary hseq hk
    have hrun : lastSession host lower events = sessionSince host last events := by
      rw [lastSession, h, (boundaries_ok h).2.1]
      dsimp only [bind, Except.bind]
      rw [hlast]
    have hmem : last ∈ events := (List.mem_filter.mp (List.mem_of_getLast? hlast)).1
    rw [hrun]
    cases hcompact : _compact host.python last with
    | error exc =>
      refine .inr ⟨exc, ?_, last, hmem, hcompact⟩
      rw [sessionSince, key_get hlastSeq, hcompact]
      rfl
    | ok compact =>
      obtain ⟨found, text, hsince, hcount⟩ := sessionSince_ok events (key_get hlastSeq) hcompact
      refine .inl ⟨found, text, events.drop k, hsince, scope_last hseq h hk, ?_⟩
      rw [hcount, hseq.filter_from k]
      intro e he
      simp [hseq.mem he, Int.add_comm]

/-- **The scope since the last boundary, the slices, their count and the last session are those of
one cut of the list, or the test of an event raises and they all do.** -/
theorem boundaries_agree (host : Host ν) (fs : Fs ν) (lower : Str → Str) (session : Path ν)
    (hread : read_session_dtj host fs session = .ok decoded) (hok : (get decoded "ok").truthy = true)
    (hevents : _events decoded = .ok events) (hne : events ≠ []) (hseq : Numbered events) :
    (∃ exc, _scope_events host.python lower events { since_last_clear := true } = .error exc
      ∧ _session_slices host.python lower events = .error exc
      ∧ _count_sessions host.python lower events = .error exc
      ∧ last_session_dtj host fs lower session = .error exc)
    ∨ ∃ slices last, _session_slices host.python lower events = .ok slices
      ∧ slices.getLast? = some last
      ∧ _scope_events host.python lower events { since_last_clear := true } = .ok last
      ∧ (∀ e ∈ events, _is_session_boundary host.python lower e
        = .ok (isBoundary host.python lower e))
      ∧ slices.flatten = (if events.any (isBoundary host.python lower)
        then events.dropWhile (fun e => !isBoundary host.python lower e) else events)
      ∧ _count_sessions host.python lower events = .ok slices.length
      ∧ ((∃ d, last_session_dtj host fs lower session = .ok d ∧ reported d = .int last.length)
        -- a payload that its text cannot be made of
        ∨ ∃ exc, last_session_dtj host fs lower session = .error exc
          ∧ ∃ e ∈ events, _compact host.python e = .error exc) := by
  have hrun : last_session_dtj host fs lower session
      = lastSession host lower events >>= fun found =>
        .ok (_ok host session decoded [("text", .str found.2), ("session", .dict found.1)]) := by
    unfold last_session_dtj
    rw [hread]
    dsimp only [bind, Except.bind]
    rw [hok, hevents]
    simp only [Bool.not_true, Bool.false_eq_true, if_false, List.isEmpty_iff, hne]
    cases lastSession host lower events <;> rfl
  cases h : boundaries host.python lower events with
  | error exc =>
    refine .inl ⟨exc, ?_, ?_, ?_, ?_⟩
    · rw [_scope_events, if_pos rfl, _last_boundary_seq, h]
      rfl
    · rw [_session_slices, boundaries_error h 0]
      rfl
    · rw [_count_sessions, h]
      rfl
    · rw [hrun, lastSession, h]
      rfl
  | ok found =>
    obtain ⟨htests, hfound, -⟩ := boundaries_ok h
    obtain ⟨slices, last, hslices, hlast, hscope, hflatten, hcount⟩ := slices_ok hne hseq h
    have hany : events.any (isBoundary host.python lower) = true ↔ found ≠ [] := by
      rw [hfound, Ne, List.filter_eq_nil_iff, List.any_eq_true]
      simp
    refine .inr ⟨slices, last, hslices, hlast, hscope, htests, ?_, hcount, ?_⟩
    · rw [hflatten]
      by_cases hnil : found = []
      · rw [if_pos hnil, if_neg fun ha => hany.mp ha hnil]
      · rw [if_neg hnil, if_pos (hany.mpr hnil)]
    · rcases lastSession_ok hseq h with ⟨s, text, last', hs, hscope', hn⟩ | ⟨exc, hs, hcompact⟩
      · rw [hscope] at hscope'
        cases hscope'
        refine .inl ⟨_ok host session decoded [("text", .str text), ("session", .dict s)], ?_, hn⟩
        rw [hrun, hs]
        rfl
      · refine .inr ⟨exc, ?_, hcompact⟩
        rw [hrun, hs]
        rfl

end

def eventAt (seq : Int) (category name : String) : Dict :=
  [("event_sequence", .int seq), ("monotonic_ns", .int (seq * 1000000000)),
    ("category", .str category), ("event_name", .str name), ("payload", .list [])]

/-- an event that names an entity -/
def entityAt (seq : Int) (name id : String) : Dict :=
  [("event_sequence", .int seq), ("monotonic_ns", .int (seq * 1000000000)),
    ("category", .str "Net"), ("event_name", .str name),
    ("payload", .list [.dict [("name", .str "id"), ("type", .str "interned_string"),
      ("value", .str id)]])]

/-- an event of no session, then two sessions -/
def exampleEvents : List Dict :=
  [eventAt 1 "Net" "Rx", eventAt 2 "Session" "Begin", eventAt 3 "Session" "Begin",
    eventAt 4 "Net" "Rx"]

/-- a host whose decoder gives these events -/
def eventsHost (events : List Dict) : Host String := { exampleHost with
  read_session := fun _ _ => .ok [("ok", .bool true), ("events", .list (events.map .dict))] }

theorem boundaries_agree_example :
    ∃ slices last, _session_slices examplePython id exampleEvents = .ok slices
      ∧ slices.getLast? = some last
      ∧ _scope_events examplePython id exampleEvents { since_last_clear := true } = .ok last
      ∧ _count_sessions examplePython id exampleEvents = .ok slices.length := by
  have hseq : Numbered exampleEvents := by
    intro i e he
    match i with
    | 0 => cases he; rfl
    | 1 => cases he; rfl
    | 2 => cases he; rfl
    | 3 => cases he; rfl
    | _ + 4 => cases he
  rcases boundaries_agree (eventsHost exampleEvents) exampleFs id (examplePath "s.dtj") rfl rfl rfl
      (List.cons_ne_nil _ _) hseq with ⟨exc, h, -⟩ | ⟨slices, last, hslices, hlast, hscope, -, -, hcount, -⟩
  · cases h
  · exact ⟨slices, last, hslices, hlast, hscope, hcount⟩

end Dtj.Mcp
