import Dtj.Cli.Events
import Dtj.Lib.Decimals
import Dtj.Sdk.Values

/-!
# `dtj read-session`

`crates/dtj/src/bin/dtj.rs`, `success_json` and `error_json`: text that is put together piece by
piece, as code units.  How a float is shown is the standard library's, and a parameter.

* `successJson`, `errorJson`     the source;
* `sessionValue`, `errorValue`   what it says, as a JSON value;
* `denotes_escaped`              a string is escaped so that it is read back;
* `members_field` and so on      one rule for each kind of piece;
* `read_session_faithful`        **what is printed is that value, and nothing else**.
-/

namespace Dtj.Cli
open Checked Wire
open Sdk.TypeScript (Str units unitsOf units_nat unitsOf_ascii)

/-! ## the source -/

def ADAPTER_NAME : String := "dtj-cli"
def ADAPTER_VERSION : Nat := 1

/-- `char::is_control` -/
def isControl (c : Char) : Bool := c.toNat < 0x20 || (0x7F ≤ c.toNat && c.toNat ≤ 0x9F)

def hexDigit (n : Nat) : UInt16 := UInt16.ofNat (if n < 10 then 0x30 + n else 0x57 + n)

/-- `{:04x}` -/
def hex4 (n : Nat) : Str :=
  [hexDigit (n / 2^12 % 2^4), hexDigit (n / 2^8 % 2^4), hexDigit (n / 2^4 % 2^4), hexDigit (n % 2^4)]

def hexBytes (bytes : Bytes) : String :=
  String.ofList (bytes.flatMap fun b => [Nat.digitChar (b.toNat / 2^4), Nat.digitChar (b.toNat % 2^4)])

/-- an arm of `push_escaped` -/
def escapeChar (ch : Char) : Str :=
  if ch = '"' then units "\\\""
  else if ch = '\\' then units "\\\\"
  else if ch = '\n' then units "\\n"
  else if ch = '\r' then units "\\r"
  else if ch = '\t' then units "\\t"
  else if isControl ch then units "\\u" ++ hex4 ch.toNat
  else unitsOf ch

def pushEscaped (s : String) : Str := s.toList.flatMap escapeChar

def pushJsonString (s : String) : Str := units "\"" ++ pushEscaped s ++ units "\""

def pushStrFieldFirst (key value : String) : Str :=
  pushJsonString key ++ units ":" ++ units "\"" ++ pushEscaped value ++ units "\""

def pushStrField (key value : String) : Str := units "," ++ pushStrFieldFirst key value

def pushOptionalName (key : String) (name : Option String) : Str :=
  units "," ++ pushJsonString key ++ units ":" ++
    match name with
    | some v => units "\"" ++ pushEscaped v ++ units "\""
    | none => units "null"

def pushAdapter : Str :=
  units ",\"adapter\":\x7b" ++ pushStrFieldFirst "name" ADAPTER_NAME ++ units ",\"version\":" ++
    units (toString ADAPTER_VERSION) ++ units "\x7d"

/-- `v.is_finite()` -/
def F64.isFinite (v : F64) : Bool := v.bits.toNat / 2^52 % 2^11 ≠ 2^11 - 1

/-- `f64::from(v)` -/
def toF64 (v : F32) : F64 := ⟨Sdk.Go.widen v.bits⟩

/-- the pieces with commas between them: `i` of them are there already -/
def pushAll : Nat → List Str → Str
  | _, [] => []
  | i, text :: texts => (if i > 0 then units "," else []) ++ text ++ pushAll (i + 1) texts

def dictKindName : DictKind → String
  | .domain => "domain"
  | .category => "category"
  | .eventName => "event_name"
  | .string => "string"

/-- `sort_by_key(|(kind, id, _)| (*kind as u8, *id))` -/
def entryLe (a b : DictEntry) : Bool :=
  a.kind.toU8 < b.kind.toU8 || (a.kind.toU8 = b.kind.toU8 && a.id ≤ b.id)

def mapEntries (d : Dictionary) : List DictEntry := d.byKey.entries.map fun e => ⟨e.1.1, e.1.2, e.2⟩

def iterEntries (d : Dictionary) : List DictEntry := (mapEntries d).mergeSort entryLe

section
variable (display : F64 → String)

def pushF64 (v : F64) : Str :=
  if ¬ F64.isFinite v then units "null"
  else if '.' ∈ (display v).toList ∨ 'e' ∈ (display v).toList ∨ 'E' ∈ (display v).toList then units (display v)
  else units (display v) ++ units ".0"

def pushFieldJson (d : Dictionary) (nameId : UInt32) (value : Value) : Str :=
  units "\x7b" ++ units "\"name_id\":" ++ units (toString nameId.toNat) ++
    pushOptionalName "name" (d.getName .string nameId) ++
    (match value with
    | .bool v => pushStrField "type" "bool" ++ units ",\"value\":" ++ units (if v then "true" else "false")
    | .i32 v => pushStrField "type" "i32" ++ units ",\"value\":" ++ units (toString v.toInt)
    | .i64 v => pushStrField "type" "i64" ++ units ",\"value\":" ++ units (toString v.toInt)
    | .u32 v => pushStrField "type" "u32" ++ units ",\"value\":" ++ units (toString v.toNat)
    | .u64 v => pushStrField "type" "u64" ++ units ",\"value\":" ++ units (toString v.toNat)
    | .f32 v => pushStrField "type" "f32" ++ units ",\"value\":" ++ pushF64 display (toF64 v)
    | .f64 v => pushStrField "type" "f64" ++ units ",\"value\":" ++ pushF64 display v
    | .enum v => pushStrField "type" "enum" ++ units ",\"value\":" ++ units (toString v.toNat)
    | .vec2F32 x y =>
      pushStrField "type" "vec2_f32" ++ units ",\"value\":[" ++ pushF64 display (toF64 x) ++ units "," ++
        pushF64 display (toF64 y) ++ units "]"
    | .vec3F32 x y z =>
      pushStrField "type" "vec3_f32" ++ units ",\"value\":[" ++ pushF64 display (toF64 x) ++ units "," ++
        pushF64 display (toF64 y) ++ units "," ++ pushF64 display (toF64 z) ++ units "]"
    | .internedString id =>
      pushStrField "type" "interned_string" ++ units ",\"id\":" ++ units (toString id.toNat) ++
        pushOptionalName "value" (d.getName .string id)
    | .bytes bytes => pushStrField "type" "bytes" ++ pushStrField "hex" (hexBytes bytes)) ++
    units "\x7d"

/-- a round of the loop over the dictionary -/
def entryJson (e : DictEntry) : Str :=
  units "\x7b" ++ pushStrFieldFirst "kind" (dictKindName e.kind) ++ units ",\"id\":" ++
    units (toString e.id.toNat) ++ pushStrField "name" e.name ++ units "\x7d"

/-- a round of the loop over the events -/
def eventJson (d : Dictionary) (ev : EventRecord) : Str :=
  units "\x7b" ++ units "\"monotonic_ns\":" ++ units (toString ev.monotonicNs.toNat) ++
    units ",\"event_sequence\":" ++ units (toString ev.eventSequence.toNat) ++
    units ",\"domain_id\":" ++ units (toString ev.domainId.toNat) ++
    pushOptionalName "domain" (d.getName .domain ev.domainId) ++
    units ",\"category_id\":" ++ units (toString ev.categoryId.toNat) ++
    pushOptionalName "category" (d.getName .category ev.categoryId) ++
    units ",\"event_name_id\":" ++ units (toString ev.eventNameId.toNat) ++
    pushOptionalName "event_name" (d.getName .eventName ev.eventNameId) ++
    units ",\"correlation_id\":" ++ units (toString ev.correlationId.toNat) ++
    (if ev.correlationId = 0 then units ",\"correlation\":null"
    else pushOptionalName "correlation" (d.getName .string ev.correlationId)) ++
    pushStrField "severity" (severityName ev.severity) ++
    units ",\"payload\":[" ++
    pushAll 0 (ev.payload.fields.map fun field => pushFieldJson display d field.nameId field.value) ++ units "]\x7d"

def successJson (sessionPath : String) (reader : SessionReader) : Str :=
  units "\x7b\"ok\":true" ++ pushAdapter ++ pushStrField "session_path" sessionPath ++
    units ",\"header\":\x7b" ++ units "\"format_version\":" ++ units (toString reader.header.formatVersion.toNat) ++
    units ",\"flags\":" ++ units (toString reader.header.flags.toNat) ++
    pushStrField "session_id_hex" (hexBytes reader.header.sessionId.1) ++
    units ",\"start_utc_unix_ms\":" ++ units (toString reader.header.startUtcUnixMs.toInt) ++
    units ",\"mono_origin_ns\":" ++ units (toString reader.header.monoOriginNs.toNat) ++
    pushStrField "producer_name" reader.header.producerName ++
    pushStrField "producer_version" reader.header.producerVersion ++ units "\x7d" ++
    units ",\"chunks_committed\":" ++ units (toString reader.chunksCommitted.toNat) ++
    units ",\"torn_tail\":" ++ units (if reader.tornTail then "true" else "false") ++
    units ",\"event_count\":" ++ units (toString reader.events.length) ++
    units ",\"dictionary\":[" ++ pushAll 0 ((iterEntries reader.dictionary).map entryJson) ++ units "]" ++
    units ",\"events\":[" ++ pushAll 0 (reader.events.map fun ev => eventJson display reader.dictionary ev) ++
    units "]\x7d"

end

/-- `to_string` -/
def Error.display : Error → String
  | .io msg => "I/O error: " ++ msg
  | .invalidMagic => "invalid DTJ file magic"
  | .unsupportedVersion v => "unsupported DTJ format_version " ++ toString v.toNat
  | .invalidHeaderSize n => "invalid header_size " ++ toString n.toNat
  | .invalidEndian => "invalid endian_magic (expected LE 0x01020304)"
  | .invalidChunkMagic => "invalid chunk magic"
  | .checksumMismatch sequence => "checksum mismatch for chunk sequence " ++ toString sequence.toNat
  | .sequenceGap expected found =>
    "sequence gap: expected " ++ toString expected.toNat ++ ", found " ++ toString found.toNat
  | .payloadTooLarge len max => "payload_len " ++ toString len.toNat ++ " exceeds max " ++ toString max.toNat
  | .malformedRecord msg => "malformed record: " ++ msg
  | .unknownDictionaryId kind id =>
    "unknown dictionary id kind=" ++ toString kind.toNat ++ " id=" ++ toString id.toNat
  | .duplicateDictionaryId kind id =>
    "dictionary id conflict kind=" ++ toString kind.toNat ++ " id=" ++ toString id.toNat
  | .unknownTypeTag t =>
    "unknown typed payload tag 0x" ++
      String.ofList [(Nat.digitChar (t.toNat / 2^4)).toUpper, (Nat.digitChar (t.toNat % 2^4)).toUpper]
  | .invalidSeverity s => "invalid severity " ++ toString s.toNat
  | .limitExceeded msg => "limit exceeded: " ++ msg
  | .sessionClosed => "session already finished"

def errorJson (sessionPath : String) (err : Error) : Str :=
  units "\x7b\"ok\":false" ++ pushAdapter ++ pushStrField "session_path" sessionPath ++
    units ",\"error\":\x7b" ++
    (match err with
    | .checksumMismatch sequence =>
      pushStrFieldFirst "kind" "ChecksumMismatch" ++ units ",\"sequence\":" ++ units (toString sequence.toNat)
    | .sequenceGap expected found =>
      pushStrFieldFirst "kind" "SequenceGap" ++ units ",\"expected\":" ++ units (toString expected.toNat) ++
        units ",\"found\":" ++ units (toString found.toNat)
    | .payloadTooLarge len max =>
      pushStrFieldFirst "kind" "PayloadTooLarge" ++ units ",\"len\":" ++ units (toString len.toNat) ++
        units ",\"max\":" ++ units (toString max.toNat)
    | .unknownDictionaryId kind id =>
      pushStrFieldFirst "kind" "UnknownDictionaryId" ++ units ",\"dict_kind\":" ++ units (toString kind.toNat) ++
        units ",\"id\":" ++ units (toString id.toNat)
    | .duplicateDictionaryId kind id =>
      pushStrFieldFirst "kind" "DuplicateDictionaryId" ++ units ",\"dict_kind\":" ++ units (toString kind.toNat) ++
        units ",\"id\":" ++ units (toString id.toNat)
    | .unsupportedVersion v =>
      pushStrFieldFirst "kind" "UnsupportedVersion" ++ units ",\"format_version\":" ++ units (toString v.toNat)
    | .invalidHeaderSize n =>
      pushStrFieldFirst "kind" "InvalidHeaderSize" ++ units ",\"header_size\":" ++ units (toString n.toNat)
    | .unknownTypeTag t =>
      pushStrFieldFirst "kind" "UnknownTypeTag" ++ units ",\"tag\":" ++ units (toString t.toNat)
    | .invalidSeverity s =>
      pushStrFieldFirst "kind" "InvalidSeverity" ++ units ",\"severity\":" ++ units (toString s.toNat)
    | .io _ => pushStrFieldFirst "kind" "Io"
    | .invalidMagic => pushStrFieldFirst "kind" "InvalidMagic"
    | .invalidEndian => pushStrFieldFirst "kind" "InvalidEndian"
    | .invalidChunkMagic => pushStrFieldFirst "kind" "InvalidChunkMagic"
    | .malformedRecord _ => pushStrFieldFirst "kind" "MalformedRecord"
    | .limitExceeded _ => pushStrFieldFirst "kind" "LimitExceeded"
    | .sessionClosed => pushStrFieldFirst "kind" "SessionClosed") ++
    pushStrField "message" (Error.display err) ++ units "\x7d\x7d"

/-! ## what is said -/

def text (s : String) : Json.Value := .string (units s)

def number (n : Nat) : Json.Value := .number n

def nameValue (name : Option String) : Json.Value := (name.map text).getD .null

def adapterValue : Json.Value :=
  .object [(units "name", text ADAPTER_NAME), (units "version", number ADAPTER_VERSION)]

section
variable (decimals : F64 → ℚ)

/-- no number stands for a float that is not finite -/
def floatValue (v : F64) : Json.Value := if F64.isFinite v then .number (decimals v) else .null

/-- the members of a field behind its name -/
def typedMembers (d : Dictionary) : Value → List (Json.Text × Json.Value)
  | .bool v => [(units "type", text "bool"), (units "value", .bool v)]
  | .i32 v => [(units "type", text "i32"), (units "value", .number v.toInt)]
  | .i64 v => [(units "type", text "i64"), (units "value", .number v.toInt)]
  | .u32 v => [(units "type", text "u32"), (units "value", number v.toNat)]
  | .u64 v => [(units "type", text "u64"), (units "value", number v.toNat)]
  | .f32 v => [(units "type", text "f32"), (units "value", floatValue decimals (toF64 v))]
  | .f64 v => [(units "type", text "f64"), (units "value", floatValue decimals v)]
  | .enum v => [(units "type", text "enum"), (units "value", number v.toNat)]
  | .vec2F32 x y =>
    [(units "type", text "vec2_f32"),
     (units "value", .array [floatValue decimals (toF64 x), floatValue decimals (toF64 y)])]
  | .vec3F32 x y z =>
    [(units "type", text "vec3_f32"),
     (units "value", .array [floatValue decimals (toF64 x), floatValue decimals (toF64 y),
       floatValue decimals (toF64 z)])]
  | .internedString id =>
    [(units "type", text "interned_string"), (units "id", number id.toNat),
     (units "value", nameValue (d.getName .string id))]
  | .bytes bytes => [(units "type", text "bytes"), (units "hex", text (hexBytes bytes))]

def fieldValue (d : Dictionary) (field : Field) : Json.Value :=
  .object ((units "name_id", number field.nameId.toNat) ::
    (units "name", nameValue (d.getName .string field.nameId)) :: typedMembers decimals d field.value)

def entryValue (e : DictEntry) : Json.Value :=
  .object [(units "kind", text (dictKindName e.kind)), (units "id", number e.id.toNat), (units "name", text e.name)]

def eventValue (d : Dictionary) (ev : EventRecord) : Json.Value :=
  .object
    [(units "monotonic_ns", number ev.monotonicNs.toNat),
     (units "event_sequence", number ev.eventSequence.toNat),
     (units "domain_id", number ev.domainId.toNat),
     (units "domain", nameValue (d.getName .domain ev.domainId)),
     (units "category_id", number ev.categoryId.toNat),
     (units "category", nameValue (d.getName .category ev.categoryId)),
     (units "event_name_id", number ev.eventNameId.toNat),
     (units "event_name", nameValue (d.getName .eventName ev.eventNameId)),
     (units "correlation_id", number ev.correlationId.toNat),
     (units "correlation", if ev.correlationId = 0 then .null else nameValue (d.getName .string ev.correlationId)),
     (units "severity", text (severityName ev.severity)),
     (units "payload", .array (ev.payload.fields.map (fieldValue decimals d)))]

def headerValue (h : FileHeader) : Json.Value :=
  .object
    [(units "format_version", number h.formatVersion.toNat),
     (units "flags", number h.flags.toNat),
     (units "session_id_hex", text (hexBytes h.sessionId.1)),
     (units "start_utc_unix_ms", .number h.startUtcUnixMs.toInt),
     (units "mono_origin_ns", number h.monoOriginNs.toNat),
     (units "producer_name", text h.producerName),
     (units "producer_version", text h.producerVersion)]

def sessionValue (sessionPath : String) (reader : SessionReader) : Json.Value :=
  .object
    [(units "ok", .bool true),
     (units "adapter", adapterValue),
     (units "session_path", text sessionPath),
     (units "header", headerValue reader.header),
     (units "chunks_committed", number reader.chunksCommitted.toNat),
     (units "torn_tail", .bool reader.tornTail),
     (units "event_count", number reader.events.length),
     (units "dictionary", .array ((iterEntries reader.dictionary).map entryValue)),
     (units "events", .array (reader.events.map (eventValue decimals reader.dictionary)))]

end

/-- the name of an error, and what it holds -/
def errorMembers : Error → String × List (Json.Text × Json.Value)
  | .checksumMismatch sequence => ("ChecksumMismatch", [(units "sequence", number sequence.toNat)])
  | .sequenceGap expected found =>
    ("SequenceGap", [(units "expected", number expected.toNat), (units "found", number found.toNat)])
  | .payloadTooLarge len max => ("PayloadTooLarge", [(units "len", number len.toNat), (units "max", number max.toNat)])
  | .unknownDictionaryId kind id =>
    ("UnknownDictionaryId", [(units "dict_kind", number kind.toNat), (units "id", number id.toNat)])
  | .duplicateDictionaryId kind id =>
    ("DuplicateDictionaryId", [(units "dict_kind", number kind.toNat), (units "id", number id.toNat)])
  | .unsupportedVersion v => ("UnsupportedVersion", [(units "format_version", number v.toNat)])
  | .invalidHeaderSize n => ("InvalidHeaderSize", [(units "header_size", number n.toNat)])
  | .unknownTypeTag t => ("UnknownTypeTag", [(units "tag", number t.toNat)])
  | .invalidSeverity s => ("InvalidSeverity", [(units "severity", number s.toNat)])
  | .io _ => ("Io", [])
  | .invalidMagic => ("InvalidMagic", [])
  | .invalidEndian => ("InvalidEndian", [])
  | .invalidChunkMagic => ("InvalidChunkMagic", [])
  | .malformedRecord _ => ("MalformedRecord", [])
  | .limitExceeded _ => ("LimitExceeded", [])
  | .sessionClosed => ("SessionClosed", [])

def errorValue (sessionPath : String) (err : Error) : Json.Value :=
  .object
    [(units "ok", .bool false),
     (units "adapter", adapterValue),
     (units "session_path", text sessionPath),
     (units "error", .object ((units "kind", text (errorMembers err).1) ::
       ((errorMembers err).2 ++ [(units "message", text (Error.display err))])))]

/-! ## strings and numbers -/

theorem units_append (a b : String) : units (a ++ b) = units a ++ units b := by
  rw [units, String.toList_append, List.flatMap_append]
  rfl

theorem units_int (i : Int) : units (toString i) = Json.intText i := by
  show units (Int.repr i) = _
  rw [Int.repr_eq_if, Json.intText]
  split
  · exact units_nat _
  · rw [units_append]
    exact congrArg (0x2D :: ·) (units_nat _)

theorem hexDigit_read {n : Nat} (h : n < 16) : Json.hexDigit (hexDigit n) = some n := by
  revert n
  decide

theorem hex4_read {n : Nat} (h : n < 2^16) (more : Str) :
    ∃ a b c d, hex4 n ++ more = a :: b :: c :: d :: more ∧ Json.hex a b c d = some (UInt16.ofNat n) := by
  refine ⟨_, _, _, _, rfl, ?_⟩
  have hn : ((n / 2^12 % 2^4 * 16 + n / 2^8 % 2^4) * 16 + n / 2^4 % 2^4) * 16 + n % 2^4 = n := by omega
  rw [Json.hex, hexDigit_read (by omega), hexDigit_read (by omega), hexDigit_read (by omega), hexDigit_read (by omega)]
  simp only [Option.bind_eq_bind, Option.bind_some]
  rw [hn]
  rfl

theorem units_plain {c : Char} (hquote : c ≠ '"') (hback : c ≠ '\\') (hcontrol : isControl c = false) :
    ∀ u ∈ unitsOf c, u ≠ 0x22 ∧ u ≠ 0x5C ∧ ¬ u < 0x20 := by
  intro u hu
  have hnat : ∀ d : Char, c ≠ d → c.toNat ≠ d.toNat := fun d h h' => h (Char.toNat_inj.mp h')
  have hquote := hnat _ hquote
  have hback := hnat _ hback
  rw [isControl, Bool.or_eq_false_iff, decide_eq_false_iff_not] at hcontrol
  simp only [ne_eq, ← UInt16.toNat_inj, UInt16.lt_iff_toNat_lt]
  rw [unitsOf] at hu
  split at hu
  · rename_i hone
    cases List.mem_singleton.mp hu
    rw [(Sdk.TypeScript.alone hone).1]
    exact ⟨hquote, hback, hcontrol.1⟩
  · rename_i htwo
    obtain ⟨hhigh, -, hlow, -⟩ := Sdk.TypeScript.paired htwo
    rw [List.mem_cons, List.mem_singleton] at hu
    obtain rfl | rfl := hu
    · rw [hhigh]
      exact ⟨by show _ ≠ 34; omega, by show _ ≠ 92; omega, by show ¬ _ < 32; omega⟩
    · rw [hlow]
      exact ⟨by show _ ≠ 34; omega, by show _ ≠ 92; omega, by show ¬ _ < 32; omega⟩

theorem escapeChar_chars (c : Char) : Json.Chars (escapeChar c) (unitsOf c) := by
  unfold escapeChar
  split_ifs with hquote hback hnewline hreturn htab hcontrol
  · subst hquote
    exact .escape rfl .nil
  · subst hback
    exact .escape rfl .nil
  · subst hnewline
    exact .escape rfl .nil
  · subst hreturn
    exact .escape rfl .nil
  · subst htab
    exact .escape rfl .nil
  · have hlt : c.toNat < 2^16 := by
      rw [isControl, Bool.or_eq_true, Bool.and_eq_true, decide_eq_true_eq, decide_eq_true_eq, decide_eq_true_eq] at hcontrol
      omega
    obtain ⟨a, b, c', d, hfour, hv⟩ := hex4_read hlt []
    rw [List.append_nil] at hfour
    rw [hfour, unitsOf_ascii hlt]
    exact .hex hv .nil
  · exact Json.chars_self (units_plain hquote hback (Bool.eq_false_iff.mpr hcontrol))

/-- **a string is escaped so that it is read back** -/
theorem denotes_escaped (s : String) : Json.Denotes (Json.quoted (pushEscaped s)) (text s) := by
  refine Json.denotes_string ?_
  unfold pushEscaped units
  induction s.toList with
  | nil => exact .nil
  | cons c cs ih =>
    rw [List.flatMap_cons, List.flatMap_cons]
    exact (escapeChar_chars c).append ih

/-! ## the pieces -/

/-- a key that is written as it is -/
def Plain (key : String) : Prop :=
  pushEscaped key = units key ∧ ∀ u ∈ units key, u ≠ 0x22 ∧ u ≠ 0x5C ∧ ¬ u < 0x20

instance (key : String) : Decidable (Plain key) := @instDecidableAnd _ _ _ (List.decidableBAll _ _)

section
open Json (Begins Elements Members)
variable {t more rest : Str} {v w : Json.Value} {vs : List Json.Value} {ms ms' : List (Json.Text × Json.Value)}
  {piece key first : String}

theorem Plain.chars (h : Plain key) : Json.Chars (units key) (units key) := Json.chars_self h.2

theorem begins_escaped (s : String) : Begins (units "\"" ++ (pushEscaped s ++ (units "\"" ++ rest))) (text s) rest := by
  have hbegins : Begins (Json.quoted (pushEscaped s) ++ rest) (text s) rest := (denotes_escaped s).begins
  rwa [Json.quoted, List.cons_append, List.append_assoc] at hbegins

theorem begins_nat (n : Nat) : Begins (units (toString n) ++ rest) (number n) rest := by
  rw [units_nat]
  exact (Json.denotes_nat n).begins

theorem begins_int (i : Int) : Begins (units (toString i) ++ rest) (.number i) rest := by
  rw [units_int]
  exact (Json.denotes_int i).begins

theorem begins_word {word : String} {token : Json.Token} (h : Json.tokens (units word) = some [token])
    (hv : Json.Parses [token] v) : Begins (units word ++ rest) v rest := (Json.Denotes.of_tokens h hv).begins

theorem begins_null : Begins (units "null" ++ rest) .null rest :=
  begins_word (by decide) Json.parses_null

theorem begins_bool (b : Bool) : Begins (units (if b then "true" else "false") ++ rest) (.bool b) rest := by
  cases b with
  | false => exact begins_word (by decide) (Json.parses_bool false)
  | true => exact begins_word (by decide) (Json.parses_bool true)

theorem pushAll_eq (i : Nat) (ts : List Str) :
    pushAll i ts = if i > 0 then ts.flatMap (0x2C :: ·) else Json.commas ts := by
  induction ts generalizing i with
  | nil => split <;> rfl
  | cons t ts ih =>
    rw [pushAll, ih, if_pos (Nat.succ_pos i)]
    split
    · rfl
    · rw [Json.commas_cons]
      rfl

/-- what the loops write -/
theorem elements_all {α : Type} {items : List α} {f : α → Str} {g : α → Json.Value}
    (h : ∀ a ∈ items, Json.Denotes (f a) (g a)) : Elements (pushAll 0 (items.map f) ++ rest) (items.map g) rest := by
  refine ⟨items.map fun a => (f a, g a), ?_, ?_, ?_⟩
  · intro p hp
    obtain ⟨a, ha, rfl⟩ := List.mem_map.mp hp
    exact h a ha
  · rw [List.map_map]
    rfl
  · rw [pushAll_eq, if_neg (Nat.lt_irrefl 0), List.map_map]
    rfl

theorem members_field (hpiece : units piece = 0x2C :: (Json.quoted (units key) ++ [0x3A]) ∧ Plain key)
    (h : Begins t v more) (hmore : Members more ms rest) : Members (units piece ++ t) ((units key, v) :: ms) rest := by
  rw [hpiece.1, List.cons_append, List.append_assoc]
  exact .cons hpiece.2.chars h hmore

theorem members_array (hpiece : units piece = 0x2C :: (Json.quoted (units key) ++ [0x3A, 0x5B]) ∧ Plain key)
    (h : Elements t vs (0x5D :: more)) (hmore : Members more ms rest) :
    Members (units piece ++ t) ((units key, .array vs) :: ms) rest := by
  rw [hpiece.1, List.cons_append, List.append_assoc]
  exact .cons hpiece.2.chars h.array hmore

theorem members_object (hpiece : units piece = 0x2C :: (Json.quoted (units key) ++ [0x3A, 0x7B]) ∧ Plain key)
    (h : Begins (0x7B :: t) v more) (hmore : Members more ms rest) :
    Members (units piece ++ t) ((units key, v) :: ms) rest := by
  rw [hpiece.1, List.cons_append, List.append_assoc]
  exact .cons hpiece.2.chars h hmore

/-- the first member of an object -/
theorem begins_object (hpiece : units piece = Json.quoted (units key) ++ [0x3A] ∧ Plain key) (h : Begins t v more)
    (hmore : Members more ms (0x7D :: rest)) :
    Begins (0x7B :: (units piece ++ t)) (.object ((units key, v) :: ms)) rest := by
  rw [hpiece.1, List.append_assoc]
  exact Members.object hpiece.2.chars h hmore

theorem pushJsonString_eq (hkey : Plain key) : pushJsonString key = Json.quoted (units key) := by
  rw [pushJsonString, hkey.1]
  rfl

theorem begins_strField {value : String} (hkey : Plain key) (hmore : Members more ms (0x7D :: rest)) :
    Begins (0x7B :: (pushStrFieldFirst key value ++ more)) (.object ((units key, text value) :: ms)) rest := by
  rw [pushStrFieldFirst, pushJsonString_eq hkey]
  simp only [List.append_assoc]
  exact Members.object hkey.chars (begins_escaped value) hmore

theorem members_strField {value : String} (hkey : Plain key) (hmore : Members more ms rest) :
    Members (pushStrField key value ++ more) ((units key, text value) :: ms) rest := by
  rw [pushStrField, pushStrFieldFirst, pushJsonString_eq hkey]
  simp only [List.append_assoc]
  exact .cons hkey.chars (begins_escaped value) hmore

theorem members_optionalName {name : Option String} (hkey : Plain key) (hmore : Members more ms rest) :
    Members (pushOptionalName key name ++ more) ((units key, nameValue name) :: ms) rest := by
  unfold pushOptionalName
  rw [pushJsonString_eq hkey]
  simp only [List.append_assoc]
  refine .cons hkey.chars ?_ hmore
  cases name with
  | none => exact begins_null
  | some value =>
    simp only [List.append_assoc]
    exact begins_escaped value

theorem members_adapter (hmore : Members more ms rest) :
    Members (pushAdapter ++ more) ((units "adapter", adapterValue) :: ms) rest := by
  unfold pushAdapter
  simp only [List.append_assoc]
  refine members_object (by decide) (begins_strField (by decide) ?_) hmore
  exact members_field (by decide) (begins_nat _) .nil

/-- what both answers begin with -/
theorem begins_answer {ok : Bool} {word : String}
    (hok : units word = 0x7B :: (Json.quoted (units "ok") ++ 0x3A :: units (if ok then "true" else "false")))
    {sessionPath : String} (hmore : Members more ms (0x7D :: rest)) :
    Begins (units word ++ (pushAdapter ++ (pushStrField "session_path" sessionPath ++ more)))
      (.object ((units "ok", .bool ok) :: (units "adapter", adapterValue) ::
        (units "session_path", text sessionPath) :: ms)) rest := by
  have hkey : Plain "ok" := by decide
  rw [hok, List.cons_append, List.append_assoc]
  refine Members.object hkey.chars (begins_bool ok) (members_adapter ?_)
  exact members_strField (by decide) hmore

/-! ## errors -/

section
variable {kind : String} {n k : Nat} {key' piece' : String}

theorem begins_kind (hmore : Members more ms (0x7D :: rest)) :
    Begins (0x7B :: (pushStrFieldFirst "kind" kind ++ more)) (.object ((units "kind", text kind) :: ms)) rest :=
  begins_strField (by decide) hmore

/-- an error that holds one number -/
theorem begins_one (hpiece : units piece = 0x2C :: (Json.quoted (units key) ++ [0x3A]) ∧ Plain key)
    (hmore : Members more ms (0x7D :: rest)) :
    Begins (0x7B :: ((pushStrFieldFirst "kind" kind ++ (units piece ++ units (toString n))) ++ more))
      (.object ((units "kind", text kind) :: (units key, number n) :: ms)) rest := by
  simp only [List.append_assoc]
  exact begins_kind (members_field hpiece (begins_nat n) hmore)

/-- an error that holds two numbers -/
theorem begins_two (hpiece : units piece = 0x2C :: (Json.quoted (units key) ++ [0x3A]) ∧ Plain key)
    (hpiece' : units piece' = 0x2C :: (Json.quoted (units key') ++ [0x3A]) ∧ Plain key')
    (hmore : Members more ms (0x7D :: rest)) :
    Begins (0x7B :: ((pushStrFieldFirst "kind" kind ++ (units piece ++ (units (toString n) ++ (units piece' ++
        units (toString k))))) ++ more))
      (.object ((units "kind", text kind) :: (units key, number n) :: (units key', number k) :: ms)) rest := by
  simp only [List.append_assoc]
  exact begins_kind (members_field hpiece (begins_nat n) (members_field hpiece' (begins_nat k) hmore))

end

theorem denotes_error (sessionPath : String) (err : Error) :
    Json.Denotes (errorJson sessionPath err) (errorValue sessionPath err) := by
  unfold errorJson errorValue
  simp only [List.append_assoc]
  refine Begins.denotes (begins_answer (by decide) (members_object (by decide) ?_ .nil))
  have hmessage : Members (pushStrField "message" (Error.display err) ++ units "\x7d\x7d")
      [(units "message", text (Error.display err))] [0x7D, 0x7D] := by
    have hend : units "\x7d\x7d" = [0x7D, 0x7D] := by decide
    rw [hend]
    exact members_strField (by decide) .nil
  cases err with
  | io | invalidMagic | invalidEndian | invalidChunkMagic | malformedRecord | limitExceeded | sessionClosed =>
    exact begins_kind hmessage
  | checksumMismatch => exact begins_one (by decide) hmessage
  | unsupportedVersion => exact begins_one (by decide) hmessage
  | invalidHeaderSize => exact begins_one (by decide) hmessage
  | unknownTypeTag => exact begins_one (by decide) hmessage
  | invalidSeverity => exact begins_one (by decide) hmessage
  | sequenceGap => exact begins_two (by decide) (by decide) hmessage
  | payloadTooLarge => exact begins_two (by decide) (by decide) hmessage
  | unknownDictionaryId => exact begins_two (by decide) (by decide) hmessage
  | duplicateDictionaryId => exact begins_two (by decide) (by decide) hmessage

/-! ## floats -/

/-- the decimal is read as this float: no other one is nearer, and of two the one with the even mantissa -/
def ReadBack (q : ℚ) (v : F64) : Prop :=
  ∃ x, Ieee.value Ieee.double v.bits.toNat = .finite x ∧
    ∀ w y, Ieee.value Ieee.double w = .finite y → y ≠ x →
      |q - x| < |q - y| ∨ (|q - x| = |q - y| ∧ v.bits.toNat % 2 = 0)

def floats : Value → List F64
  | .f32 v => [toF64 v]
  | .f64 v => [v]
  | .vec2F32 x y => [toF64 x, toF64 y]
  | .vec3F32 x y z => [toF64 x, toF64 y, toF64 z]
  | _ => []

/-- the floats of a session -/
def sessionFloats (reader : SessionReader) : List F64 :=
  reader.events.flatMap fun ev => ev.payload.fields.flatMap fun field => floats field.value

/-- what is shown of a finite float is this decimal -/
def Shown (display : F64 → String) (decimals : F64 → ℚ) (v : F64) : Prop :=
  F64.isFinite v = true → Json.numeral (units (display v)) = some (decimals v)

theorem mem_units {s : String} {c : Char} (hc : c.toNat < 0xD800) (h : UInt16.ofNat c.toNat ∈ units s) :
    c ∈ s.toList := by
  obtain ⟨d, hd, hu⟩ := List.mem_flatMap.mp h
  have hn : (UInt16.ofNat c.toNat).toNat = c.toNat := by
    rw [UInt16.toNat_ofNat', Nat.mod_eq_of_lt (by omega)]
  rw [unitsOf] at hu
  split at hu
  · rename_i hone
    have heq := congrArg UInt16.toNat (List.mem_singleton.mp hu)
    rw [hn, (Sdk.TypeScript.alone hone).1] at heq
    rwa [Char.toNat_inj.mp heq]
  · rename_i htwo
    obtain ⟨hhigh, -, hlow, -⟩ := Sdk.TypeScript.paired htwo
    rw [List.mem_cons, List.mem_singleton] at hu
    obtain heq | heq := hu
    · have heq := congrArg UInt16.toNat heq
      omega
    · have heq := congrArg UInt16.toNat heq
      omega

section
variable {display : F64 → String} {decimals : F64 → ℚ}

theorem begins_f64 {f : F64} (h : Shown display decimals f) :
    Begins (pushF64 display f ++ rest) (floatValue decimals f) rest := by
  unfold pushF64 floatValue
  by_cases hfinite : F64.isFinite f = true
  · rw [if_neg (not_not_intro hfinite), if_pos hfinite]
    split
    · exact (Json.denotes_number (h hfinite)).begins
    · rename_i hplain
      rw [not_or, not_or] at hplain
      refine (Json.denotes_number (Json.numeral_point (h hfinite) ?_)).begins
      intro u hu
      refine ⟨?_, ?_, ?_⟩
      · rintro rfl
        exact hplain.1 (mem_units (c := '.') (by decide) hu)
      · rintro rfl
        exact hplain.2.1 (mem_units (c := 'e') (by decide) hu)
      · rintro rfl
        exact hplain.2.2 (mem_units (c := 'E') (by decide) hu)
  · rw [if_pos hfinite, if_neg hfinite]
    exact begins_null

theorem comma_eq : units "," = [0x2C] := by decide

theorem denotes_field (d : Dictionary) {field : Field} (h : ∀ v ∈ floats field.value, Shown display decimals v) :
    Json.Denotes (pushFieldJson display d field.nameId field.value) (fieldValue decimals d field) := by
  have hopen : units "\x7b" = [0x7B] := by decide
  have hclose : units "\x7d" = [0x7D] := by decide
  unfold pushFieldJson fieldValue
  rw [hopen, hclose]
  simp only [List.append_assoc, List.singleton_append]
  refine Begins.denotes (begins_object (by decide) (begins_nat _) (members_optionalName (by decide) ?_))
  cases hvalue : field.value with
  | bool v =>
    simp only [List.append_assoc]
    exact members_strField (by decide) (members_field (by decide) (begins_bool v) .nil)
  | i32 v =>
    simp only [List.append_assoc]
    exact members_strField (by decide) (members_field (by decide) (begins_int _) .nil)
  | i64 v =>
    simp only [List.append_assoc]
    exact members_strField (by decide) (members_field (by decide) (begins_int _) .nil)
  | u32 v =>
    simp only [List.append_assoc]
    exact members_strField (by decide) (members_field (by decide) (begins_nat _) .nil)
  | u64 v =>
    simp only [List.append_assoc]
    exact members_strField (by decide) (members_field (by decide) (begins_nat _) .nil)
  | enum v =>
    simp only [List.append_assoc]
    exact members_strField (by decide) (members_field (by decide) (begins_nat _) .nil)
  | f32 v =>
    simp only [List.append_assoc, hvalue, floats, List.forall_mem_singleton] at h ⊢
    exact members_strField (by decide) (members_field (by decide) (begins_f64 h) .nil)
  | f64 v =>
    simp only [List.append_assoc, hvalue, floats, List.forall_mem_singleton] at h ⊢
    exact members_strField (by decide) (members_field (by decide) (begins_f64 h) .nil)
  | vec2F32 x y =>
    simp only [List.append_assoc, hvalue, floats, List.forall_mem_cons] at h ⊢
    rw [comma_eq]
    refine members_strField (by decide) (members_array (by decide) ?_ .nil)
    exact .cons (begins_f64 h.1) (.one (begins_f64 h.2.1)) (List.cons_ne_nil _ _)
  | vec3F32 x y z =>
    simp only [List.append_assoc, hvalue, floats, List.forall_mem_cons] at h ⊢
    rw [comma_eq]
    refine members_strField (by decide) (members_array (by decide) ?_ .nil)
    exact .cons (begins_f64 h.1) (.cons (begins_f64 h.2.1) (.one (begins_f64 h.2.2.1)) (List.cons_ne_nil _ _))
      (List.cons_ne_nil _ _)
  | internedString id =>
    simp only [List.append_assoc]
    exact members_strField (by decide) (members_field (by decide) (begins_nat _)
      (members_optionalName (by decide) .nil))
  | bytes bytes =>
    simp only [List.append_assoc]
    exact members_strField (by decide) (members_strField (by decide) .nil)

/-! ## the session -/

theorem denotes_event (d : Dictionary) {ev : EventRecord}
    (h : ∀ field ∈ ev.payload.fields, ∀ v ∈ floats field.value, Shown display decimals v) :
    Json.Denotes (eventJson display d ev) (eventValue decimals d ev) := by
  have hopen : units "\x7b" = [0x7B] := by decide
  have hclose : units "]\x7d" = [0x5D, 0x7D] := by decide
  have hpayload : Members (units ",\"payload\":[" ++ (pushAll 0 (ev.payload.fields.map fun field =>
      pushFieldJson display d field.nameId field.value) ++ [0x5D, 0x7D]))
      [(units "payload", .array (ev.payload.fields.map (fieldValue decimals d)))] [0x7D] :=
    members_array (by decide) (elements_all fun field hfield => denotes_field d (h field hfield)) .nil
  have hseverity := @members_strField _ _ _ "severity" (severityName ev.severity) (by decide) hpayload
  unfold eventJson eventValue
  rw [hopen, hclose]
  simp only [List.append_assoc, List.singleton_append]
  refine Begins.denotes (begins_object (by decide) (begins_nat _) ?_)
  refine members_field (by decide) (begins_nat _) (members_field (by decide) (begins_nat _) ?_)
  refine members_optionalName (by decide) (members_field (by decide) (begins_nat _) ?_)
  refine members_optionalName (by decide) (members_field (by decide) (begins_nat _) ?_)
  refine members_optionalName (by decide) (members_field (by decide) (begins_nat _) ?_)
  split
  · have hnull : units ",\"correlation\":null" = units ",\"correlation\":" ++ units "null" := by decide
    rw [hnull, List.append_assoc]
    exact members_field (by decide) begins_null hseverity
  · exact members_optionalName (by decide) hseverity

theorem denotes_entry (e : DictEntry) : Json.Denotes (entryJson e) (entryValue e) := by
  have hopen : units "\x7b" = [0x7B] := by decide
  have hclose : units "\x7d" = [0x7D] := by decide
  unfold entryJson entryValue
  rw [hopen, hclose]
  simp only [List.append_assoc, List.singleton_append]
  refine Begins.denotes (begins_strField (by decide) ?_)
  exact members_field (by decide) (begins_nat _) (members_strField (by decide) .nil)

theorem members_header (h : FileHeader) (hmore : Members more ms rest) :
    Members (units ",\"header\":\x7b" ++ (units "\"format_version\":" ++ (units (toString h.formatVersion.toNat) ++
      (units ",\"flags\":" ++ (units (toString h.flags.toNat) ++ (pushStrField "session_id_hex" (hexBytes h.sessionId.1) ++
      (units ",\"start_utc_unix_ms\":" ++ (units (toString h.startUtcUnixMs.toInt) ++
      (units ",\"mono_origin_ns\":" ++ (units (toString h.monoOriginNs.toNat) ++
      (pushStrField "producer_name" h.producerName ++ (pushStrField "producer_version" h.producerVersion ++
      (units "\x7d" ++ more))))))))))))) ((units "header", headerValue h) :: ms) rest := by
  have hclose : units "\x7d" = [0x7D] := by decide
  rw [hclose]
  refine members_object (by decide) (begins_object (by decide) (begins_nat _) ?_) hmore
  refine members_field (by decide) (begins_nat _) (members_strField (by decide) ?_)
  refine members_field (by decide) (begins_int _) (members_field (by decide) (begins_nat _) ?_)
  exact members_strField (by decide) (members_strField (by decide) .nil)

theorem denotes_session (sessionPath : String) {reader : SessionReader}
    (h : ∀ v ∈ sessionFloats reader, Shown display decimals v) :
    Json.Denotes (successJson display sessionPath reader) (sessionValue decimals sessionPath reader) := by
  have hbracket : units "]" = [0x5D] := by decide
  have hclose : units "]\x7d" = [0x5D, 0x7D] := by decide
  have hevents : ∀ ev ∈ reader.events,
      Json.Denotes (eventJson display reader.dictionary ev) (eventValue decimals reader.dictionary ev) :=
    fun ev hev => denotes_event _ fun field hfield v hv =>
      h v (List.mem_flatMap.mpr ⟨ev, hev, List.mem_flatMap.mpr ⟨field, hfield, hv⟩⟩)
  unfold successJson sessionValue
  rw [hbracket, hclose]
  simp only [List.append_assoc]
  refine Begins.denotes (begins_answer (by decide) (members_header _ ?_))
  refine members_field (by decide) (begins_nat _) (members_field (by decide) (begins_bool _) ?_)
  refine members_field (by decide) (begins_nat _) ?_
  refine members_array (by decide) (elements_all fun e _ => denotes_entry e) ?_
  exact members_array (by decide) (elements_all hevents) .nil

end

end

/-- `a` stands before `b` -/
def Before (a b : DictEntry) : Prop := a.kind.toU8 < b.kind.toU8 ∨ (a.kind = b.kind ∧ a.id < b.id)

theorem entryLe_total (a b : DictEntry) : (entryLe a b || entryLe b a) = true := by
  simp only [entryLe, Bool.or_eq_true, Bool.and_eq_true, decide_eq_true_eq, UInt8.lt_iff_toNat_lt, ← UInt8.toNat_inj,
    UInt32.le_iff_toNat_le]
  omega

theorem entryLe_trans (a b c : DictEntry) (hab : entryLe a b = true) (hbc : entryLe b c = true) : entryLe a c = true := by
  simp only [entryLe, Bool.or_eq_true, Bool.and_eq_true, decide_eq_true_eq, UInt8.lt_iff_toNat_lt, ← UInt8.toNat_inj,
    UInt32.le_iff_toNat_le] at hab hbc ⊢
  omega

/-- **every entry of the dictionary is shown once**, by kind and id -/
theorem iterEntries_sorted (d : Dictionary) :
    (iterEntries d).Perm (mapEntries d) ∧ (iterEntries d).Pairwise Before := by
  have hperm : (iterEntries d).Perm (mapEntries d) := List.mergeSort_perm _ _
  refine ⟨hperm, ?_⟩
  have hkeys : (mapEntries d).Pairwise fun a b => (a.kind, a.id) ≠ (b.kind, b.id) := by
    rw [mapEntries, List.pairwise_map]
    exact List.pairwise_map.mp d.byKey.nodupKeys
  have hdistinct : (iterEntries d).Pairwise fun a b => (a.kind, a.id) ≠ (b.kind, b.id) :=
    (hperm.pairwise_iff fun h h' => h h'.symm).mpr hkeys
  refine (List.pairwise_mergeSort entryLe_trans entryLe_total _).imp₂ ?_ hdistinct
  intro a b hle hne
  rw [entryLe, Bool.or_eq_true, Bool.and_eq_true, decide_eq_true_eq, decide_eq_true_eq, decide_eq_true_eq] at hle
  obtain hlt | ⟨hkind, hid⟩ := hle
  · exact .inl hlt
  · have hsame : a.kind = b.kind := by
      have hread := DictKind.fromU8_toU8 a.kind
      rw [hkind, DictKind.fromU8_toU8, Except.ok.injEq] at hread
      exact hread.symm
    refine .inr ⟨hsame, UInt32.lt_of_le_of_ne hid ?_⟩
    intro heq
    exact hne (Prod.ext hsame heq)

/-- the exact value is read back -/
theorem ReadBack.exact {v : F64} {x : ℚ} (h : Ieee.value Ieee.double v.bits.toNat = .finite x) : ReadBack x v := by
  refine ⟨x, h, fun w y _ hne => .inl ?_⟩
  rw [sub_self, abs_zero, abs_pos, sub_ne_zero]
  exact hne.symm

/-- **what `dtj read-session` prints is one JSON value that says what the session, or the error, is** -/
theorem read_session_faithful (display : F64 → String) (sessionPath : String) (reader : SessionReader) (err : Error)
    (hdisplay : ∀ v ∈ sessionFloats reader, F64.isFinite v = true →
      ∃ q, Json.numeral (units (display v)) = some q ∧ ReadBack q v) :
    (∃ decimals : F64 → ℚ, (∀ v ∈ sessionFloats reader, F64.isFinite v = true → ReadBack (decimals v) v) ∧
      Json.parse (successJson display sessionPath reader) = some (sessionValue decimals sessionPath reader)) ∧
    (iterEntries reader.dictionary).Perm (mapEntries reader.dictionary) ∧
    (iterEntries reader.dictionary).Pairwise Before ∧
    Json.parse (errorJson sessionPath err) = some (errorValue sessionPath err) := by
  have hshown : ∀ v ∈ sessionFloats reader,
      Shown display (fun v => (Json.numeral (units (display v))).getD 0) v := by
    intro v hv hfinite
    obtain ⟨q, hq, -⟩ := hdisplay v hv hfinite
    simp only [hq, Option.getD_some]
  obtain ⟨hperm, hsorted⟩ := iterEntries_sorted reader.dictionary
  refine ⟨⟨_, ?_, (denotes_session sessionPath hshown).parse⟩, hperm, hsorted, (denotes_error sessionPath err).parse⟩
  intro v hv hfinite
  obtain ⟨q, hq, hread⟩ := hdisplay v hv hfinite
  rw [hq]
  exact hread

/-- a session with one event, which says 1.5 -/
def shownReader : SessionReader where
  header := { formatVersion := 1, flags := 0, sessionId := ⟨List.replicate 16 7, List.length_replicate⟩, startUtcUnixMs := 5,
              monoOriginNs := 3, producerName := "p", producerVersion := "1" }
  dictionary := .new
  events := [⟨1, 0, 1, 1, 1, 0, .info, ⟨[⟨1, .f64 ⟨0x3FF8000000000000⟩⟩]⟩⟩]
  chunksCommitted := 1
  tornTail := false

theorem read_session_example :
    ∃ decimals : F64 → ℚ, (∀ v ∈ sessionFloats shownReader, F64.isFinite v = true → ReadBack (decimals v) v) ∧
      Json.parse (successJson (fun _ => "1.5") "a\"b\n" shownReader) =
        some (sessionValue decimals "a\"b\n" shownReader) := by
  refine (read_session_faithful (fun _ => "1.5") "a\"b\n" shownReader .sessionClosed ?_).1
  intro v hv _
  have hv : v = ⟨0x3FF8000000000000⟩ := List.mem_singleton.mp hv
  have hvalue : Ieee.value Ieee.double v.bits.toNat = .finite (3/2) := by
    rw [hv]
    refine (@Ieee.value_parts Ieee.double 0 1023 (2^51) ?_ ?_ ?_).trans ?_
    · decide
    · decide
    · decide
    · rw [Ieee.worth, if_neg (by decide)]
      norm_num [Ieee.Format.significand, Ieee.double, Ieee.Format.lowest]
  exact ⟨3/2, by decide +kernel, .exact hvalue⟩

end Dtj.Cli
