import Dtj.Lib.Posix
import Dtj.Mcp.Python

/-!
# The search over a decoded session

`search_session_dtj` checks its bounds, decodes the session, keeps the events that the filters match
and returns a page of them.

* `Host`                           what the tools are given: the built-in functions, the decoder, the
                                   JSON writer and reader, and `stat`;
* `event_matches_native_filters`   the filters, whatever values they are given;
* `matches`                        the events of a list that they match, in order;
* `Answer`, `answer`               what two searches are compared by;
* `search_session_dtj_found`       what the direct search finds in a session that decodes.
-/

namespace Dtj.Mcp

open Posix

def ADAPTER_NAME : Str := "dtj-core"

def ADAPTER_VERSION : Int := 1

def adapter : Py := .dict [("name", .str ADAPTER_NAME), ("version", .int ADAPTER_VERSION)]

/-- the file that a session path leads to: its resolved path, and what `stat` says of it -/
structure Identity where
  source_path : Str
  source_size : Int
  source_mtime_ns : Int
deriving DecidableEq

structure Host (ν : Type) where
  python : Python
  /-- `str(path)` -/
  str : Path ν → Str
  /-- `dtj_core.read_session` of a file with these bytes -/
  read_session : Path ν → List UInt8 → Except Exc Dict
  /-- `session.stat()` and `session.resolve()` -/
  stat : Fs ν → Path ν → Option Identity
  /-- `json.dump`: the text that is written, and whether it is the whole -/
  dump : Py → List UInt8 × Bool
  dump_indent : Py → List UInt8 × Bool
  /-- `json.load`; a text is that of a `UnicodeDecodeError` or a `JSONDecodeError` -/
  load : List UInt8 → Except (Str ⊕ Exc) Py

def MAX_SEARCH_LIMIT : Int := 500
def DEFAULT_SEARCH_LIMIT : Int := 100
def MAX_OFFSET : Int := 100000

/-! ## argument checks -/

def validate_search_limit (limit : Py) : Option Dict :=
  match limit with
  | .int n =>
    if n < 1 ∨ n > MAX_SEARCH_LIMIT then
      some [("kind", .str "InvalidLimit"),
        ("message", .str (lit "limit must be an integer in 1.." ++ Str.ofInt MAX_SEARCH_LIMIT ++
          lit ", got " ++ Str.ofInt n)),
        ("limit", limit), ("max", .int MAX_SEARCH_LIMIT)]
    else none
  | _ =>
    some [("kind", .str "InvalidLimit"),
      ("message", .str (lit "limit must be an integer in 1.." ++ Str.ofInt MAX_SEARCH_LIMIT ++
        lit ", got " ++ limit.typeName)),
      ("max", .int MAX_SEARCH_LIMIT)]

def validate_search_offset (offset : Py) : Option Dict :=
  match offset with
  | .int n =>
    if n < 0 ∨ n > MAX_OFFSET then
      some [("kind", .str "InvalidLimit"),
        ("message", .str (lit "offset must be an integer in 0.." ++ Str.ofInt MAX_OFFSET ++
          lit ", got " ++ Str.ofInt n)),
        ("offset", offset), ("max", .int MAX_OFFSET)]
    else none
  | _ =>
    some [("kind", .str "InvalidLimit"),
      ("message", .str (lit "offset must be an integer in 0.." ++ Str.ofInt MAX_OFFSET ++
        lit ", got " ++ offset.typeName)),
      ("max", .int MAX_OFFSET)]

/-- one bound of the window: it is missing, or a non-negative integer -/
def validate_mono_bound (name : Str) (value : Py) : Option Dict :=
  let error : Dict := [("kind", .str "InvalidQuery"),
    ("message", .str (name ++ lit " must be a non-negative integer (nanoseconds)"))]
  match value with
  | .none => none
  | .int n => if n < 0 then some error else none
  | _ => some error

def validate_mono_window (mono_from_ns mono_to_ns : Py) : Option Dict :=
  match validate_mono_bound "mono_from_ns" mono_from_ns with
  | some e => some e
  | none =>
    match validate_mono_bound "mono_to_ns" mono_to_ns with
    | some e => some e
    | none =>
      match mono_from_ns, mono_to_ns with
      | .int a, .int b =>
        if b < a then
          some [("kind", .str "InvalidQuery"),
            ("message", .str "mono_to_ns must be >= mono_from_ns"),
            ("mono_from_ns", mono_from_ns), ("mono_to_ns", mono_to_ns)]
        else none
      | _, _ => none

/-! ## filters -/

/-- the filters of a search; each may be any value -/
structure Filters where
  domain : Py
  category : Py
  event_name : Py
  event : Py
  correlation_id : Py
  severity : Py
  text : Py
  exclude : Py
  exclude_category : Py

structure Query extends Filters where
  mono_from_ns : Py
  mono_to_ns : Py
  limit : Py
  offset : Py

/-- an integer argument after its check -/
def Py.checked : Py → Option Int
  | .int n => some n
  | _ => Option.none

def _human_readable_text_parts (event : Dict) : List Str :=
  let parts := [lit "domain", lit "category", lit "event_name", lit "correlation"].filterMap fun key =>
    match get event key with
    | .str value => if value.isEmpty then none else some value
    | _ => none
  match get event "payload" with
  | .list payload =>
    parts ++ payload.flatMap fun field =>
      match field with
      | .dict field =>
        (match get field "name" with
          | .str name => if name.isEmpty then [] else [name]
          | _ => []) ++
        (match get field "type", get field "value" with
          | .str type, .str resolved =>
            if type = lit "interned_string" ∧ ¬ resolved.isEmpty then [resolved] else []
          | _, _ => [])
      | _ => []
  | _ => parts

section
variable (python : Python)

def event_matches_native_filters (event_obj : Dict) (f : Filters) (mono_from_ns mono_to_ns : Option Int) :
    Except Exc Bool := do
  let ev_category := get event_obj "category"
  if let .str c := ev_category then
    if !f.exclude_category.isNone then
      if python.casefold c = (← python.casefolded f.exclude_category) then
        return false
  let haystack : Str := List.intercalate (lit " ") (_human_readable_text_parts event_obj)
  if !f.exclude.isNone && !f.exclude.isEmptyStr then
    if Str.within (← python.casefolded f.exclude) (python.casefold haystack) then
      return false
  if mono_from_ns.isSome || mono_to_ns.isSome then
    match get event_obj "monotonic_ns" with
    | .int mono =>
      if mono_from_ns.any (mono < ·) then
        return false
      if mono_to_ns.any (· < mono) then
        return false
    | _ => return false
  if !f.domain.isNone && !python.eq (get event_obj "domain") f.domain then
    return false
  if !f.category.isNone then
    match ev_category with
    | .str c =>
      if python.casefold c ≠ (← python.casefolded f.category) then
        return false
    | _ => return false
  if !f.event_name.isNone && !python.eq (get event_obj "event_name") f.event_name then
    return false
  if !f.event.isNone && !f.event.isEmptyStr then
    match get event_obj "event_name" with
    | .str name =>
      if !Str.within (← python.casefolded f.event) (python.casefold name) then
        return false
    | _ => return false
  if !f.correlation_id.isNone && !python.eq (get event_obj "correlation") f.correlation_id then
    return false
  if !f.severity.isNone && !python.eq (get event_obj "severity") f.severity then
    return false
  if !f.text.isNone && !f.text.isEmptyStr then
    if !Str.within (← python.casefolded f.text) (python.casefold haystack) then
      return false
  return true

/-- the list comprehension over the decoded events -/
def matched (f : Filters) (mono_from_ns mono_to_ns : Option Int) : List Py → Except Exc (List Py)
  | [] => .ok []
  | .dict e :: rest => do
    let keep ← event_matches_native_filters python e f mono_from_ns mono_to_ns
    let found ← matched f mono_from_ns mono_to_ns rest
    return if keep then .dict e :: found else found
  | _ :: rest => matched f mono_from_ns mono_to_ns rest

/-! ## presentation -/

def _compact_event (event : Dict) : Str :=
  let seq := get event "event_sequence"
  let cat := (get event "category").orElse (.str [])
  let name := (get event "event_name").orElse (.str [])
  let tag := if cat.truthy || name.truthy then python.str cat ++ lit "." ++ python.str name
    else lit "<none>"
  let corr := (get event "correlation").orElse (.str "-")
  let mono := get event "monotonic_ns"
  let fields : List Str :=
    match get event "payload" with
    | .list payload => payload.filterMap fun item =>
        match item with
        | .dict item =>
          match get item "name", get item "type", get item "value" with
          | .str fname, .str type, .str value =>
            if type = lit "interned_string" then some (fname ++ lit "=" ++ value) else none
          | _, _, _ => none
        | _ => none
    | _ => []
  let msg := List.intercalate (lit " ") fields
  let msg := if msg.length > 120 then msg.take 117 ++ lit "..." else msg
  python.rstrip (python.str seq ++ lit "\tmono_ns=" ++ python.str mono ++ lit "\t" ++ tag ++
    lit "\tcorr=" ++ python.str corr ++ lit "\t" ++ msg)

def _list_traces_text (matched_count : Nat) (returned : List Py) (offset : Nat) : Str :=
  if matched_count = 0 then "No matching lines."
  else
    let lines := returned.map fun e =>
      match e with
      | .dict e => _compact_event python e
      | _ => []
    let header := Str.ofInt matched_count ++ lit " match(es); showing " ++ Str.ofInt returned.length ++
      lit " (offset " ++ Str.ofInt offset ++ lit ").\n"
    let footer :=
      if offset + returned.length < matched_count then
        lit "\n... " ++ Str.ofInt (matched_count - offset - returned.length : Nat) ++
          lit " more. Increase offset or tighten filters."
      else []
    header ++ List.intercalate (lit "\n") lines ++ footer

end

/-! ## the direct search -/

section
variable {ν : Type} (host : Host ν) (fs : Fs ν)

/-- a file that is not there ends in the name of a function that the module does not import -/
def read_session_dtj (session : Path ν) : Except Exc Dict :=
  match fs.read session with
  | none => .error .NameError
  | some bytes => host.read_session session bytes

def search_session_dtj (session : Path ν) (q : Query) : Except Exc Dict :=
  let path_str := host.str session
  let fail (error : Dict) : Except Exc Dict :=
    .ok [("ok", .bool false), ("adapter", adapter), ("session_path", .str path_str), ("error", .dict error)]
  match validate_search_limit q.limit with
  | some e => fail e
  | none =>
  match validate_search_offset q.offset with
  | some e => fail e
  | none =>
  match validate_mono_window q.mono_from_ns q.mono_to_ns with
  | some e => fail e
  | none => do
    let decoded ← read_session_dtj host fs session
    if !(get decoded "ok").truthy then
      return decoded
    match get decoded "events" with
    | .list events =>
      let found ← matched host.python q.toFilters q.mono_from_ns.checked q.mono_to_ns.checked events
      let offset := (q.offset.checked.getD 0).toNat
      let returned := (found.drop offset).take (q.limit.checked.getD 0).toNat
      return [("ok", .bool true), ("adapter", (get decoded "adapter").orElse adapter),
        ("session_path", getD decoded "session_path" (.str path_str)),
        ("torn_tail", .bool (get decoded "torn_tail").truthy),
        ("matched_count", .int found.length), ("returned_count", .int returned.length),
        ("limit", q.limit), ("offset", q.offset),
        ("filters", .dict [("domain", q.domain), ("category", q.category),
          ("event_name", q.event_name), ("event", q.event), ("correlation_id", q.correlation_id),
          ("severity", q.severity), ("text", q.text), ("exclude", q.exclude),
          ("exclude_category", q.exclude_category), ("mono_from_ns", q.mono_from_ns),
          ("mono_to_ns", q.mono_to_ns)]),
        ("events", .list returned),
        ("text", .str (_list_traces_text host.python found.length returned offset))]
    | _ =>
      return [("ok", .bool false), ("adapter", (get decoded "adapter").orElse adapter),
        ("session_path", getD decoded "session_path" (.str path_str)),
        ("error", .dict [("kind", .str "AdapterInvalidJson"),
          ("message", .str "native DTJ decode missing events list")])]

end

/-! ## what two searches are compared by -/

inductive Answer where
  | raised (e : Exc)
  | failed (kind : Py)
  | found (matched_count returned_count events : Py)

/-- the kind of a structured error -/
def kind (d : Dict) : Py :=
  match get d "error" with
  | .dict e => get e "kind"
  | _ => .none

def answer : Except Exc Dict → Answer
  | .error e => .raised e
  | .ok d =>
    if (get d "ok").truthy then
      .found (get d "matched_count") (get d "returned_count") (get d "events")
    else .failed (kind d)

end Dtj.Mcp
