import Dtj.Mcp.Native

/-!
# Reading a session without the Rust extension

`session_to_projection` of `dtj_native.py`, `read_session` of `dtj_core.py`, and `read_session_dtj` of
`dtj_read.py`, on a host that answers for the paths.  `dtj_read.py` calls an `error_projection` that it
neither defines nor imports, and the checks of the path stand before the handlers of `read_session`.

* `Structured`               a dictionary with `ok`, and a kind and a message where it is not;
* `read_session_structured`  behind the checks everything that is raised is caught;
* `read_structured_iff`      **when a call returns a structured dictionary**.
-/

namespace Dtj.Mcp.Native

/-! ## the projection of a session -/

def ADAPTER : Py := .dict [("name", .str "dtj-python"), ("version", .int 1)]

def optional : Option Str → Py
  | none => .none
  | some s => .str s

def _json_float (bits : UInt64) : Py :=
  if bits &&& 0x7ff0000000000000 = 0x7ff0000000000000 then .none else .float bits

/-- `_json_float(float(value))` -/
def jsonFloat : Py → Raises Py
  | .float bits => .ok (_json_float bits)
  | _ => .error (.Other "float() argument")

def _field_to_json (d : Dictionary) (fld : Field) : Raises Dict := do
  let out (rest : Dict) : Dict := ("name_id", .int fld.name_id) ::
    ("name", optional (d.get_name .string fld.name_id)) :: ("type", .str fld.value.type_name) :: rest
  let vt := fld.value.type_name
  if vt = lit "bytes" then
    .ok (out [("hex", optional fld.value.hex)])
  else if vt = lit "interned_string" then
    match fld.value.id with
    | none => .ok (out [("id", .none), ("value", .none)])
    | some id => .ok (out [("id", .int id), ("value", optional (d.get_name .string id))])
  else if vt = lit "f32" ∨ vt = lit "f64" then do
    let value ← jsonFloat fld.value.value
    .ok (out [("value", value)])
  else if vt = lit "vec2_f32" then
    match fld.value.value with
    | .list [x, y] => do
      let value ← [x, y].mapM jsonFloat
      .ok (out [("value", .list value)])
    | _ => .error (.Other "cannot unpack")
  else if vt = lit "vec3_f32" then
    match fld.value.value with
    | .list [x, y, z] => do
      let value ← [x, y, z].mapM jsonFloat
      .ok (out [("value", .list value)])
    | _ => .error (.Other "cannot unpack")
  else .ok (out [("value", fld.value.value)])

/-- `SEVERITY_NAMES[severity]` -/
def severityName (severity : UInt8) : Raises Str :=
  if severity = 0 then .ok "trace"
  else if severity = 1 then .ok "debug"
  else if severity = 2 then .ok "info"
  else if severity = 3 then .ok "warn"
  else if severity = 4 then .ok "error"
  else if severity = 5 then .ok "fatal"
  else .error (.Other (nat severity.toNat))

/-- `DICT_KIND_NAMES[kind]` -/
def kindName : DictKind → Str
  | .domain => "domain"
  | .category => "category"
  | .eventName => "event_name"
  | .string => "string"

def event_to_json (d : Dictionary) (ev : EventRecord) : Raises Dict := do
  let corr := if ev.correlation_id ≠ 0 then optional (d.get_name .string ev.correlation_id) else .none
  let severity ← severityName ev.severity
  let payload ← ev.payload.mapM (_field_to_json d)
  .ok [("monotonic_ns", .int ev.monotonic_ns), ("event_sequence", .int ev.event_sequence),
    ("domain_id", .int ev.domain_id), ("domain", optional (d.get_name .domain ev.domain_id)),
    ("category_id", .int ev.category_id), ("category", optional (d.get_name .category ev.category_id)),
    ("event_name_id", .int ev.event_name_id),
    ("event_name", optional (d.get_name .eventName ev.event_name_id)),
    ("correlation_id", .int ev.correlation_id), ("correlation", corr),
    ("severity", .str severity), ("payload", .list (payload.map .dict))]

/-- `iter_entries`: the entries by kind and id -/
def Dictionary.iter_entries (d : Dictionary) : List ((DictKind × Nat) × Str) :=
  d.by_key.mergeSort fun a b =>
    a.1.1.toU8 < b.1.1.toU8 ∨ a.1.1.toU8 = b.1.1.toU8 ∧ a.1.2 ≤ b.1.2

def session_to_projection (session_path : Str) (reader : SessionReader) : Raises Dict := do
  let header := reader.header
  let events ← reader.events.mapM (event_to_json reader.dictionary)
  .ok [("ok", .bool true), ("adapter", ADAPTER), ("session_path", .str session_path),
    ("header", .dict [("format_version", .int header.format_version), ("flags", .int header.flags),
      ("session_id_hex", .str (_hex_bytes header.session_id)),
      ("start_utc_unix_ms", .int header.start_utc_unix_ms),
      ("mono_origin_ns", .int header.mono_origin_ns), ("producer_name", .str header.producer_name),
      ("producer_version", .str header.producer_version)]),
    ("chunks_committed", .int reader.chunks_committed), ("torn_tail", .bool reader.torn_tail),
    ("event_count", .int reader.events.length),
    ("dictionary", .list (reader.dictionary.iter_entries.map fun e =>
      .dict [("kind", .str (kindName e.1.1)), ("id", .int e.1.2), ("name", .str e.2)])),
    ("events", .list (events.map .dict))]

/-! ## `dtj_core.py` -/

def DtjError.to_error_dict (exc : DtjError) : Dict :=
  (lit "kind", .str exc.kind.name) ::
    (exc.fields.map (fun f => (f.1.name, .int f.2)) ++ [(lit "message", .str exc.message)])

/-- `error_projection` of a `DtjError` -/
def error_projection (path : Str) (exc : DtjError) : Dict :=
  [("ok", .bool false), ("adapter", ADAPTER), ("session_path", .str path),
    ("error", .dict exc.to_error_dict)]

/-- a host, as `pathlib` shows it -/
structure Host where
  /-- `str(Path(path).expanduser())` -/
  expanduser : Str → Except Exc Str
  is_file : Str → Except Exc Bool
  read_bytes : Str → Raises Bytes

section
variable (host : Host)

/-- the `try` of `read_session` -/
def decoded (path : Str) : Raises Dict := do
  let reader ← open_session (host.read_bytes path)
  session_to_projection path reader

def read_session (path : Str) : Except Exc Dict := do
  let path ← host.expanduser path
  if !(← host.is_file path) then
    .ok (error_projection path ⟨.Io, lit "session file not found: " ++ path, []⟩)
  else
    match decoded host path with
    | .ok d => .ok d
    | .error (.DtjError exc) => .ok (error_projection path exc)
    | .error (.OSError text) => .ok (error_projection path ⟨.Io, text, []⟩)
    | .error (.Other text) => .ok (error_projection path ⟨.MalformedRecord, lit "malformed: " ++ text, []⟩)

/-! ## `dtj_read.py` -/

def read_session_dtj (session_path : Str) : Except Exc Dict := do
  let path ← host.expanduser session_path
  if !(← host.is_file path) then
    -- `error_projection` is no name of this module
    .error .NameError
  else read_session host path

end

/-! ## what comes back -/

/-- a result with `ok`, or an error with its kind and a message -/
def Structured (d : Dict) : Prop :=
  get d "ok" = .bool true ∨ get d "ok" = .bool false ∧
    ∃ error, get d "error" = .dict error ∧
      ∃ kind : Kind, ∃ message, get error "kind" = .str kind.name ∧ get error "message" = .str message

theorem get_head (key : Str) (value : Py) (d : Dict) : get ((key, value) :: d) key = value := by
  simp [get, getD]

theorem get_tail {key other : Str} (h : key ≠ other) (value : Py) (d : Dict) :
    get ((other, value) :: d) key = get d key := by
  simp [get, getD, List.lookup_cons, beq_false_of_ne h]

theorem get_append {key : Str} {a b : Dict} (h : ∀ e ∈ a, e.1 ≠ key) : get (a ++ b) key = get b key := by
  induction a with
  | nil => rfl
  | cons e a ih =>
    have hne : key ≠ e.1 := (h e List.mem_cons_self).symm
    rw [List.cons_append, get_tail hne]
    exact ih fun x hx => h x (List.mem_cons_of_mem e hx)

theorem Key.name_ne_message (k : Key) : k.name ≠ lit "message" := by
  cases k <;> decide

theorem DtjError.get_kind (exc : DtjError) : get exc.to_error_dict "kind" = .str exc.kind.name :=
  get_head ..

theorem DtjError.get_message (exc : DtjError) : get exc.to_error_dict "message" = .str exc.message := by
  rw [DtjError.to_error_dict, get_tail (by decide), get_append, get_head]
  intro e he
  obtain ⟨f, _, rfl⟩ := List.mem_map.mp he
  exact f.1.name_ne_message

theorem structured_error (path : Str) (exc : DtjError) : Structured (error_projection path exc) := by
  refine .inr ⟨get_head .., exc.to_error_dict, ?_, exc.kind, exc.message, exc.get_kind, exc.get_message⟩
  rw [error_projection, get_tail (by decide), get_tail (by decide), get_tail (by decide), get_head]

theorem structured_projection {path : Str} {reader : SessionReader} {d : Dict}
    (h : session_to_projection path reader = .ok d) : Structured d := by
  obtain ⟨events, _, h⟩ := bind_eq_ok h
  cases h
  exact .inl (get_head ..)

section
variable (host : Host)

/-- **behind the checks of the path everything that is raised is caught** -/
theorem read_session_structured {path path' : Str} {found : Bool}
    (hpath : host.expanduser path = .ok path') (hfound : host.is_file path' = .ok found) :
    ∃ d, read_session host path = .ok d ∧ Structured d := by
  simp only [read_session, hpath, hfound, Checked.ok_bind]
  cases found with
  | false => exact ⟨_, rfl, structured_error ..⟩
  | true =>
    cases hdecoded : decoded host path' with
    | ok d =>
      obtain ⟨reader, _, hprojection⟩ := bind_eq_ok hdecoded
      exact ⟨d, rfl, structured_projection hprojection⟩
    | error e =>
      cases e with
      | DtjError exc => exact ⟨_, rfl, structured_error ..⟩
      | OSError text => exact ⟨_, rfl, structured_error ..⟩
      | Other text => exact ⟨_, rfl, structured_error ..⟩

/-- both checks of a path answer, and the first finds a file -/
def Found (session_path : Str) : Prop :=
  ∃ path, host.expanduser session_path = .ok path ∧ host.is_file path = .ok true ∧
    ∃ path' found, host.expanduser path = .ok path' ∧ host.is_file path' = .ok found

/-- **a call returns a structured dictionary exactly when both checks answer and the first finds a file** -/
theorem read_structured_iff (session_path : Str) :
    (∃ d, read_session_dtj host session_path = .ok d ∧ Structured d) ↔
      Found host session_path := by
  constructor
  · rintro ⟨d, h, _⟩
    obtain ⟨path, hpath, h⟩ := bind_eq_ok h
    obtain ⟨found, hfound, h⟩ := bind_eq_ok h
    cases found with
    | false => cases h
    | true =>
      obtain ⟨path', hpath', h⟩ := bind_eq_ok h
      obtain ⟨found', hfound', _⟩ := bind_eq_ok h
      exact ⟨path, hpath, hfound, path', found', hpath', hfound'⟩
  · rintro ⟨path, hpath, hfound, path', found', hpath', hfound'⟩
    simp only [read_session_dtj, hpath, hfound, Checked.ok_bind]
    exact read_session_structured host hpath' hfound'

/-- where the path is no file, the name that is not there is raised -/
theorem read_missing {session_path path : Str} (hpath : host.expanduser session_path = .ok path)
    (hfound : host.is_file path = .ok false) :
    read_session_dtj host session_path = .error .NameError := by
  simp only [read_session_dtj, hpath, hfound, Checked.ok_bind]
  rfl

end

/-- a host without files -/
def emptyHost : Host where
  expanduser path := .ok path
  is_file _ := .ok false
  read_bytes _ := .error (.OSError "No such file or directory")

/-- a path where nothing is -/
theorem missing_raises :
    ¬ ∃ d, read_session_dtj emptyHost "missing.dtj" = .ok d ∧ Structured d := by
  rw [read_missing emptyHost rfl rfl]
  rintro ⟨d, h, _⟩
  cases h

end Dtj.Mcp.Native
