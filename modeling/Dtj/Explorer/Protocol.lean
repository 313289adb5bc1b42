import Dtj.Explorer.Client
import Dtj.Lib.Json

/-!
# The explorer: what the binary prints

`packages/dtj-vscode/src/protocol.ts`: the envelope around an answer, and the checks of a result.

* `parseUiSessionStdout`    the envelope, or why there is none;
* `validateSummaryResult`, `validateEventsResult`, `validateEventDetailResult`   the checks;
* `parseOne_eq`             **the text that is left is one value, or nothing is**;
* `parse_none`              a text that is no JSON value has no envelope.
-/

namespace Dtj.Explorer
open Checked
open Sdk.TypeScript (Str units)

/-! ## values -/

/-- `value && typeof value === "object"` -/
def isObject : Json.Value → Bool
  | .array _ => true
  | .object _ => true
  | _ => false

/-- `value[key]`; of two members with one key the last one counts -/
def property (value : Json.Value) (key : String) : Option Json.Value :=
  match value with
  | .object ms => (ms.reverse.find? fun m => m.1 = units key).map Prod.snd
  | _ => none

def isText (value : Option Json.Value) (s : Str) : Bool :=
  match value with
  | some (.string t) => t = s
  | _ => false

/-- `JSON.parse` makes the float `n` of the decimal; `n` is small -/
def roundsTo (q : ℚ) (n : Nat) : Bool :=
  n - 2^n.log2 / 2^(if n = 2^n.log2 then 54 else 53) ≤ q && q ≤ n + (2 : ℚ)^n.log2 / 2^53

def isNumber (value : Option Json.Value) (n : Nat) : Bool :=
  match value with
  | some (.number q) => roundsTo q n
  | _ => false

/-! ## the envelope -/

def UI_PROTOCOL_VERSION : Nat := 1

def UiOperation.name : UiOperation → String
  | .hello => "hello"
  | .summary => "summary"
  | .events => "events"
  | .event => "event"

inductive UiEnvelope where
  | ok (operation : UiOperation) (result : Json.Value)
  | error (operation kind message : Str)

def protocolError {α : Type} (message : String) : Except ClientError α :=
  .error ⟨units "NativeProtocolError", units message⟩

/-- the first beginning of a text that is a JSON value, and its length -/
def firstValue (text : Str) : Option (Json.Value × Nat) :=
  (List.range' 1 text.length).findSome? fun i => (Json.parse (text.take i)).map fun v => (v, i)

/-- `JsonTailDecoder.parseOne` -/
def parseOne (text : Str) : Option Json.Value :=
  match Json.parse text with
  | some value => some value
  | none =>
    match firstValue text with
    | none => none
    | some (value, index) => if trim (text.drop index) ≠ [] then none else some value

/-- the end of `parseUiSessionStdout` -/
def envelopeOf (obj : Json.Value) (expectedOperation : UiOperation) : Except ClientError UiEnvelope :=
  if ¬ isObject obj then protocolError "invalid envelope"
  else if ¬ isNumber (property obj "protocol_version") UI_PROTOCOL_VERSION then
    .error ⟨units "NativeProtocolMismatch", units "unsupported protocol_version"⟩
  else
    match property obj "ok" with
    | some (.bool ok) =>
      if ¬ isText (property obj "operation") (units expectedOperation.name) then protocolError "operation mismatch"
      else if ok then
        match property obj "result" with
        | none => protocolError "missing result"
        | some result => .ok (.ok expectedOperation result)
      else
        match property obj "error" with
        | none => protocolError "missing error"
        | some err =>
          if ¬ isObject err then protocolError "missing error"
          else
            match property err "kind", property err "message" with
            | some (.string kind), some (.string message) =>
              .ok (.error (units expectedOperation.name) kind message)
            | _, _ => protocolError "invalid error shape"
    | _ => protocolError "missing ok"

def parseUiSessionStdout (stdout : Str) (expectedOperation : UiOperation) : Except ClientError UiEnvelope :=
  let trimmed := trim stdout
  if trimmed = [] then protocolError "empty stdout"
  else
    match parseOne trimmed with
    | none => protocolError "stdout is not exactly one JSON object"
    | some obj => envelopeOf obj expectedOperation

/-! ## the results -/

/-- `/^-?[1-9]\d*$/`, or zero, in the range of `i64` -/
def isCanonicalDecimalI64 (value : Str) : Bool :=
  let digits := if value.head? = some 0x2D then value.tail else value
  let most := if value.head? = some 0x2D then 2^63 else 2^63 - 1
  value = [0x30] || (isCanonicalDecimalU64 digits && digits ≠ [0x30] && Json.digits digits ≤ most)

def requireDecimalU64 (value : Option Json.Value) (field : String) : Except ClientError Str :=
  match value with
  | some (.number _) => protocolError s!"{field} must be a canonical decimal string, not a JSON number"
  | some (.string s) =>
    if isCanonicalDecimalU64 s then .ok s else protocolError s!"{field} must be a canonical unsigned decimal string"
  | _ => protocolError s!"{field} must be a canonical unsigned decimal string"

/-- the loops over the names of fields -/
def requireAll (r : Json.Value) : List String → Except ClientError Unit
  | [] => .ok ()
  | field :: fields => do
    let _ ← requireDecimalU64 (property r field) field
    requireAll r fields

/-- a field of the header is a string -/
def requireText (h : Json.Value) (field : String) : Except ClientError Str :=
  match property h field with
  | some (.number _) => protocolError s!"header.{field} must be a canonical decimal string, not a JSON number"
  | some (.string s) => .ok s
  | _ => protocolError s!"header.{field} must be a canonical decimal string"

/-- the counts that are there -/
def requireCounts (d : Json.Value) : List String → Except ClientError Unit
  | [] => .ok ()
  | field :: fields => do
    if (property d field).isSome then
      let _ ← requireDecimalU64 (property d field) s!"dictionary_counts.{field}"
      requireCounts d fields
    else requireCounts d fields

def validateSummaryResult (result : Json.Value) : Except ClientError Unit :=
  if ¬ isObject result then protocolError "invalid summary result"
  else do
    requireAll result ["event_count", "chunks_committed"]
    match property result "header" with
    | none => protocolError "missing summary header"
    | some header =>
      if ¬ isObject header then protocolError "missing summary header"
      else do
        let start ← requireText header "start_utc_unix_ms"
        let origin ← requireText header "mono_origin_ns"
        if ¬ isCanonicalDecimalI64 start then
          protocolError "header.start_utc_unix_ms must be a canonical i64 decimal string"
        else if ¬ isCanonicalDecimalU64 origin then
          protocolError "header.mono_origin_ns must be a canonical u64 decimal string"
        else
          match property result "dictionary_counts" with
          | none => .ok ()
          | some dict =>
            if isObject dict then requireCounts dict ["domain", "category", "event_name", "string"] else .ok ()

/-- the loop over the rows -/
def validateRows : List Json.Value → Except ClientError Unit
  | [] => .ok ()
  | row :: rows =>
    if ¬ isObject row then protocolError "invalid event row"
    else do
      requireAll row ["event_sequence", "monotonic_ns", "payload_field_count"]
      validateRows rows

def validateEventsResult (result : Json.Value) : Except ClientError Unit :=
  if ¬ isObject result then protocolError "invalid events result"
  else do
    requireAll result ["matched_count", "returned_count", "offset"]
    if ¬ (List.range' 1 EVENTS_PAGE_MAX).any (isNumber (property result "limit")) then
      protocolError "limit must be a number in 1..=256"
    else
      match property result "events" with
      | some (.array rows) => validateRows rows
      | _ => protocolError "events must be an array"

/-- the checks of a field of the payload by its type -/
def validateTyped (f : Json.Value) (type : Str) : Except ClientError Unit := do
  if type = units "i64" then
    match property f "value" with
    | some (.number _) => protocolError "i64 value must be a canonical decimal string, not a JSON number"
    | some (.string s) =>
      if isCanonicalDecimalI64 s then .ok () else protocolError "i64 value must be a canonical decimal string"
    | _ => protocolError "i64 value must be a canonical decimal string"
  else if type = units "u64" then
    let _ ← requireDecimalU64 (property f "value") "u64 value"
  else if type = units "enum" then
    let _ ← requireDecimalU64 (property f "value") "enum value"
  else if type = units "interned_string" then
    let _ ← requireDecimalU64 (property f "id") "interned_string.id"

/-- the loop over the payload -/
def validateFields : List Json.Value → Except ClientError Unit
  | [] => .ok ()
  | f :: fs =>
    if ¬ isObject f then protocolError "invalid payload field"
    else do
      let _ ← requireDecimalU64 (property f "name_id") "payload.name_id"
      match property f "type" with
      | some (.string type) => do
        validateTyped f type
        validateFields fs
      | _ => protocolError "payload.type required"

def validateEventDetailResult (result : Json.Value) : Except ClientError Unit :=
  if ¬ isObject result then protocolError "invalid event result"
  else
    match property result "event" with
    | none => protocolError "missing event"
    | some event =>
      if ¬ isObject event then protocolError "missing event"
      else do
        requireAll event ["event_sequence", "monotonic_ns"]
        requireAll event ["domain_id", "category_id", "event_name_id", "correlation_id"]
        match property event "payload" with
        | some (.array fields) => validateFields fields
        | _ => protocolError "payload must be an array"

/-! ## one value -/

theorem trim_ne_nil {t : Str} {u : UInt16} (hu : isSpace u = false) : trim (t ++ [u]) ≠ [] := by
  have hleft : ∃ t', (t ++ [u]).dropWhile isSpace = t' ++ [u] := by
    rw [List.dropWhile_append]
    split
    · exact ⟨[], List.dropWhile_cons_of_neg (ne_true_of_eq_false hu)⟩
    · exact ⟨_, rfl⟩
  obtain ⟨t', ht'⟩ := hleft
  rw [trim, ht', List.reverse_append, List.reverse_singleton, List.singleton_append,
    List.dropWhile_cons_of_neg (ne_true_of_eq_false hu), List.reverse_cons]
  exact List.append_ne_nil_of_right_ne_nil _ (List.cons_ne_nil _ _)

theorem trim_line {line : Str} {u v : UInt16} (hhead : line.head? = some u) (hlast : line.getLast? = some v)
    (hu : isSpace u = false) (hv : isSpace v = false) : trim (line ++ [0xA]) = line := by
  have hnewline : isSpace 0xA = true := by decide
  obtain ⟨rest, rfl⟩ := List.head?_eq_some_iff.mp hhead
  obtain ⟨front, hfront⟩ := List.getLast?_eq_some_iff.mp hlast
  rw [trim, List.cons_append, List.dropWhile_cons_of_neg (ne_true_of_eq_false hu), ← List.cons_append,
    List.reverse_append, List.reverse_singleton, List.singleton_append, List.dropWhile_cons_of_pos hnewline,
    hfront, List.reverse_append, List.reverse_singleton, List.singleton_append,
    List.dropWhile_cons_of_neg (ne_true_of_eq_false hv), List.reverse_cons, List.reverse_reverse]

/-- **what is left behind a beginning of the text is not blank** -/
theorem parseOne_eq {line : Str} {v : UInt16} (hlast : line.getLast? = some v) (hv : isSpace v = false) :
    parseOne line = Json.parse line := by
  obtain ⟨front, rfl⟩ := List.getLast?_eq_some_iff.mp hlast
  unfold parseOne
  cases hparse : Json.parse (front ++ [v]) with
  | some value => rfl
  | none =>
    dsimp only
    cases hfirst : firstValue (front ++ [v]) with
    | none => rfl
    | some found =>
      obtain ⟨i, hi, hfound⟩ := List.exists_of_findSome?_eq_some hfirst
      obtain ⟨value, hvalue, rfl⟩ := Option.map_eq_some_iff.mp hfound
      have hlt : i < (front ++ [v]).length := by
        by_contra hge
        rw [List.take_of_length_le (not_lt.mp hge), hparse] at hvalue
        cases hvalue
      rw [List.length_append, List.length_singleton, Nat.lt_succ_iff] at hlt
      dsimp only
      rw [List.drop_append_of_le_length hlt, if_pos (trim_ne_nil hv)]

section
variable {line : Str} {u v : UInt16} (hhead : line.head? = some u) (hlast : line.getLast? = some v)
  (hu : isSpace u = false) (hv : isSpace v = false) (operation : UiOperation)
include hhead hlast hu hv

/-- the line that is printed is no JSON value -/
theorem parse_none (h : Json.parse line = none) :
    parseUiSessionStdout (line ++ [0xA]) operation = protocolError "stdout is not exactly one JSON object" := by
  have hne : line ≠ [] := by
    rintro rfl
    cases hhead
  unfold parseUiSessionStdout
  dsimp only
  rw [trim_line hhead hlast hu hv, if_neg hne, parseOne_eq hlast hv, h]

/-- the line that is printed is a JSON value -/
theorem parse_some {value : Json.Value} (h : Json.parse line = some value) :
    parseUiSessionStdout (line ++ [0xA]) operation = envelopeOf value operation := by
  have hne : line ≠ [] := by
    rintro rfl
    cases hhead
  unfold parseUiSessionStdout
  dsimp only
  rw [trim_line hhead hlast hu hv, if_neg hne, parseOne_eq hlast hv, h]

end

theorem property_cons (m : Json.Text × Json.Value) (ms : List (Json.Text × Json.Value)) (key : String) :
    property (.object (m :: ms)) key = (property (.object ms) key).or (if m.1 = units key then some m.2 else none) := by
  unfold property
  dsimp only
  rw [List.reverse_cons, List.find?_append]
  cases ms.reverse.find? fun m => m.1 = units key with
  | some m' => rfl
  | none =>
    by_cases hm : m.1 = units key
    · simp [hm]
    · simp [hm]

theorem property_nil (key : String) : property (.object []) key = none := rfl

/-- an answer that failed -/
theorem envelopeOf_error {obj err : Json.Value} {operation : UiOperation} {kind message : Str}
    (hobject : isObject obj = true) (hversion : isNumber (property obj "protocol_version") UI_PROTOCOL_VERSION = true)
    (hok : property obj "ok" = some (.bool false))
    (hoperation : isText (property obj "operation") (units operation.name) = true)
    (herror : property obj "error" = some err) (hobject' : isObject err = true)
    (hkind : property err "kind" = some (.string kind)) (hmessage : property err "message" = some (.string message)) :
    envelopeOf obj operation = .ok (.error (units operation.name) kind message) := by
  unfold envelopeOf
  rw [if_neg (not_not_intro hobject), if_neg (not_not_intro hversion), hok]
  dsimp only
  rw [if_neg (not_not_intro hoperation), if_neg Bool.false_ne_true, herror]
  dsimp only
  rw [if_neg (not_not_intro hobject'), hkind, hmessage]

end Dtj.Explorer
