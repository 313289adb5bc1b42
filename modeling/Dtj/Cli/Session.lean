import Dtj.Cli.ReadSession
import Dtj.Explorer.Protocol

/-!
# `dtj ui-session`

`crates/dtj/src/bin/dtj.rs`: the lines that the commands of the explorer print, and what the explorer
makes of them (`Dtj.Explorer.Protocol`).  The texts of answers that succeed miss quotes and braces, and
the text of an error is not escaped.

* `uiSessionCommand`       the source;
* `Carried`                the line is accepted, and a result is the one of the session;
* `summary_rejected`, `page_rejected`, `event_rejected`   no answer that succeeds is JSON;
* `open_worded`            the errors of the reader are shown without quotes;
* `carried_iff`            **when the line is accepted**.
-/

namespace Dtj.Cli
open Checked Wire
open Sdk.TypeScript (Str units unitsOf units_nat)
open Explorer (EventsQuery ClientError UiOperation UiEnvelope buildSummaryArgv buildEventsArgv buildEventArgv
  parseUiSessionStdout validateSummaryResult validateEventsResult validateEventDetailResult property trim
  isCanonicalDecimalU64)

/-! ## the source -/

def uiHelloJson : Str :=
  units "\x7b\"ok\":true,\"operation\":\"hello\",\"protocol_version\":1,\"result\":\x7b\"capabilities\":[\"summary\",\"events\",\"event\"],\"limits\":\x7b\"events_page_default\":100,\"events_page_max\":256,\"stdout_max_bytes\":\"2097152\"\x7d,\"ui_protocol_version\":1\x7d\x7d"

def errorKind : Error → String
  | .io _ => "Io"
  | .invalidMagic => "InvalidMagic"
  | .unsupportedVersion _ => "UnsupportedVersion"
  | .invalidHeaderSize _ => "InvalidHeaderSize"
  | .invalidEndian => "InvalidEndian"
  | .invalidChunkMagic => "InvalidChunkMagic"
  | .checksumMismatch _ => "ChecksumMismatch"
  | .sequenceGap _ _ => "SequenceGap"
  | .payloadTooLarge _ _ => "PayloadTooLarge"
  | .malformedRecord _ => "MalformedRecord"
  | .unknownDictionaryId _ _ => "UnknownDictionaryId"
  | .duplicateDictionaryId _ _ => "DuplicateDictionaryId"
  | .unknownTypeTag _ => "UnknownTypeTag"
  | .invalidSeverity _ => "InvalidSeverity"
  | .limitExceeded _ => "LimitExceeded"
  | .sessionClosed => "SessionClosed"

/-- an answer that failed -/
def failureJson (kind message operation : String) : Str :=
  units "\x7b\"ok\":false,\"error\":\x7b\"kind\":\"" ++ units kind ++ units "\",\"message\":\"" ++ units message ++
    units "\"\x7d,\"operation\":\"" ++ units operation ++ units "\",\"protocol_version\":1\x7d"

def uiErrorJson (operation : String) (err : Error) : Str := failureJson (errorKind err) (Error.display err) operation

/-- the answer of `ui_summary_json` for a session -/
def summaryJson (reader : SessionReader) : Str :=
  units "\x7b\"ok\":true,\"operation\":\"summary\",\"protocol_version\":1,\"result\":\x7b\"header\":\x7b\"format_version\":" ++
    units (toString reader.header.formatVersion.toNat) ++
    units ",\"flags\":" ++ units (toString reader.header.flags.toNat) ++
    units "\",\"session_id_hex\":\"" ++ units (hexBytes reader.header.sessionId.1) ++
    units "\",\"start_utc_unix_ms\":\"" ++ units (toString reader.header.startUtcUnixMs.toInt) ++
    units "\",\"mono_origin_ns\":\"" ++ units (toString reader.header.monoOriginNs.toNat) ++
    units "\",\"producer_name\":\"" ++ pushEscaped reader.header.producerName ++
    units "\",\"producer_version\":\"" ++ pushEscaped reader.header.producerVersion ++
    units "\",\"chunks_committed\":\"" ++ units (toString reader.chunksCommitted.toNat) ++
    units "\",\"torn_tail\":" ++ units (if reader.tornTail then "true" else "false") ++
    units "\",\"event_count\":\"" ++ units (toString reader.events.length) ++ units "\x7d\x7d"

def uiSummaryJson (files : Str → Except Error Bytes) (sessionPath : Str) : Res Error Str :=
  match openPath files sessionPath with
  | .ok reader => .ok (summaryJson reader)
  | .error (.error err) => .ok (uiErrorJson "summary" err)
  | .error .panic => .error .panic
  | .error .diverge => .error .diverge

section
variable (display : F64 → String)

/-- a round of the loop over the events of a page -/
def pageEvent (d : Dictionary) (ev : EventRecord) : Str :=
  units "\x7b" ++
    units "\"monotonic_ns\":" ++ units (toString ev.monotonicNs.toNat) ++
    units ",\"event_sequence\":" ++ units (toString ev.eventSequence.toNat) ++
    units ",\"domain_id\":" ++ units (toString ev.domainId.toNat) ++ units "," ++
    units "\"category_id\":" ++ units (toString ev.categoryId.toNat) ++
    units ",\"event_name_id\":" ++ units (toString ev.eventNameId.toNat) ++
    units ",\"correlation_id\":" ++ units (toString ev.correlationId.toNat) ++ units "," ++
    units "\"severity\":\"" ++ units (severityName ev.severity) ++ units ",\"payload\":[" ++
    pushAll 0 (ev.payload.fields.map fun field => pushFieldJson display d field.nameId field.value) ++
    units "]\x7d"

def pageJson (reader : SessionReader) (events : List EventRecord) (total offset limit : Nat) : Str :=
  if offset ≥ total then
    units "\x7b\"ok\":true,\"operation\":\"events\",\"protocol_version\":1,\"result\":\x7b\"events\":[],\"total\":" ++
      units (toString total) ++ units ",\"offset\":" ++ units (toString offset) ++ units ",\"limit\":" ++
      units (toString limit) ++ units "\x7d,\""
  else
    units "\x7b\"ok\":true,\"operation\":\"events\",\"protocol_version\":1,\"result\":\x7b\"events\":[" ++
      pushAll 0 (events.map (pageEvent display reader.dictionary)) ++ units "],\"total\":" ++ units (toString total) ++
      units ",\"offset\":" ++ units (toString offset) ++ units ",\"limit\":" ++ units (toString limit) ++ units "\x7d"

def uiEventsCommand (checks : Bool) (files : Str → Except Error Bytes) (args : List Str) : Res Error Str := do
  match ← uiEventsAnswer checks files args with
  | .missingPath => return failureJson "InvalidArgument" "missing session path" "events"
  | .unreadable err => return uiErrorJson "events" err
  | .page reader events total offset limit => return pageJson display reader events total offset limit

/-- the variables of the loop over the arguments of `event` -/
structure EventArgs where
  path : Option Str
  sequence : Option UInt64

def eventArgs : List Str → EventArgs → EventArgs
  | [], a => a
  | arg :: args, a =>
    if arg = units "--sequence" then
      match args with
      | [] => a
      | v :: args => eventArgs args { a with sequence := some ((parseU64 v).getD 0) }
    else if arg.head? ≠ some 0x2D ∧ a.path = none then eventArgs args { a with path := some arg }
    else eventArgs args a

/-- the answer of `ui_event_command` for an event -/
def detailJson (d : Dictionary) (ev : EventRecord) : Str :=
  units "\x7b\"ok\":true,\"operation\":\"event\",\"protocol_version\":1,\"result\":\x7b\"event\":\x7b\"monotonic_ns\":" ++
    units (toString ev.monotonicNs.toNat) ++
    units "\",\"event_sequence\":\"" ++ units (toString ev.eventSequence.toNat) ++
    units "\",\"domain_id\":\"" ++ units (toString ev.domainId.toNat) ++
    units "\",\"category_id\":\"" ++ units (toString ev.categoryId.toNat) ++
    units "\",\"event_name_id\":\"" ++ units (toString ev.eventNameId.toNat) ++
    units "\",\"correlation_id\":\"" ++ units (toString ev.correlationId.toNat) ++
    units "\",\"severity\":\"" ++ units (severityName ev.severity) ++
    units "\",\"payload\":[" ++
    pushAll 0 (ev.payload.fields.map fun field => pushFieldJson display d field.nameId field.value) ++
    units "]\x7d\x7d\x7d"

def uiEventCommand (files : Str → Except Error Bytes) (args : List Str) : Res Error Str :=
  let a := eventArgs args ⟨none, none⟩
  match a.path, a.sequence with
  | none, _ => .ok (failureJson "InvalidArgument" "missing session path" "event")
  | some _, none => .ok (failureJson "InvalidArgument" "missing --sequence" "event")
  | some sessionPath, some seq =>
    match openPath files sessionPath with
    | .ok reader =>
      match reader.events.find? fun ev => ev.eventSequence = seq with
      | some ev => .ok (detailJson display reader.dictionary ev)
      | none => .ok (failureJson "EventNotFound" ("event " ++ toString seq.toNat ++ " not found") "event")
    | .error (.error err) => .ok (uiErrorJson "event" err)
    | .error .panic => .error .panic
    | .error .diverge => .error .diverge

/-- the line that is printed, if there is one; the arguments begin with `ui-session` -/
def uiSessionCommand (checks : Bool) (files : Str → Except Error Bytes) (argv : List Str) : Res Error (Option Str) := do
  match argv with
  | _ :: subcmd :: remaining =>
    if subcmd = units "hello" then return if remaining = [] then some uiHelloJson else none
    else if subcmd = units "summary" then
      match remaining with
      | [sessionPath] => return some (← uiSummaryJson files sessionPath)
      | _ => return none
    else if subcmd = units "events" then return some (← uiEventsCommand display checks files remaining)
    else if subcmd = units "event" then return some (← uiEventCommand display files remaining)
    else return none
  | _ => return none

end

/-! ## what is asked for -/

/-- a request of the explorer -/
inductive UiRequest where
  | summary
  | events (query : EventsQuery)
  | event (sequence : Str)

def UiRequest.operation : UiRequest → UiOperation
  | .summary => .summary
  | .events _ => .events
  | .event _ => .event

def UiRequest.argv (fsPath : Str) : UiRequest → Except ClientError (List Str)
  | .summary => .ok (buildSummaryArgv fsPath)
  | .events query => buildEventsArgv fsPath query
  | .event sequence => buildEventArgv fsPath sequence

def UiRequest.validate : UiRequest → Json.Value → Except ClientError Unit
  | .summary => validateSummaryResult
  | .events _ => validateEventsResult
  | .event _ => validateEventDetailResult

/-- a number, as a string of decimal digits -/
def Decimal (value : Option Json.Value) (i : Int) : Prop := value = some (text (toString i))

/-- the result has these numbers, by key -/
def Numbers (result : Json.Value) (numbers : List (String × Int)) : Prop :=
  ∀ n ∈ numbers, Decimal (property result n.1) n.2

/-- the result carries the values of the session -/
def UiRequest.Carries (reader : SessionReader) (result : Json.Value) : UiRequest → Prop
  | .summary => ∃ header, property result "header" = some header ∧
      Numbers result [("event_count", reader.events.length), ("chunks_committed", reader.chunksCommitted.toNat)] ∧
      Numbers header [("start_utc_unix_ms", reader.header.startUtcUnixMs.toInt),
        ("mono_origin_ns", reader.header.monoOriginNs.toNat)] ∧
      property header "session_id_hex" = some (text (hexBytes reader.header.sessionId.1)) ∧
      property header "producer_name" = some (text reader.header.producerName) ∧
      property header "producer_version" = some (text reader.header.producerVersion) ∧
      property result "torn_tail" = some (.bool reader.tornTail)
  | .events query => ∃ rows, property result "events" = some (.array rows) ∧
      List.Forall₂ (fun row ev => Numbers row [("event_sequence", ev.eventSequence.toNat),
        ("monotonic_ns", ev.monotonicNs.toNat), ("payload_field_count", ev.payload.fields.length)])
        rows (wanted reader query)
  | .event sequence => ∃ ev event, ev ∈ reader.events ∧ ev.eventSequence.toNat = decimal (trim sequence) ∧
      property result "event" = some event ∧
      Numbers event [("event_sequence", ev.eventSequence.toNat), ("monotonic_ns", ev.monotonicNs.toNat),
        ("domain_id", ev.domainId.toNat), ("category_id", ev.categoryId.toNat),
        ("event_name_id", ev.eventNameId.toNat), ("correlation_id", ev.correlationId.toNat)]

/-- **the line is accepted, and a result passes its check and carries the values of the session** -/
def Carried (display : F64 → String) (checks : Bool) (files : Str → Except Error Bytes) (fsPath : Str)
    (request : UiRequest) (argv : List Str) : Prop :=
  ∃ line envelope, uiSessionCommand display checks files argv = .ok (some line) ∧
    parseUiSessionStdout (line ++ [0xA]) request.operation = .ok envelope ∧
    ∀ result, envelope = .ok request.operation result →
      request.validate result = .ok () ∧
        ∀ reader, openPath files fsPath = .ok reader → request.Carries reader result

/-! ## answers that succeed -/

section
variable {piece more : Str}

/-- a number that ends before the next piece -/
theorem tokens_nat_none (n : Nat) (hpiece : piece.head?.map Json.isNumeric = some false)
    (hmore : Json.tokens (piece ++ more) = none) : Json.tokens (units (toString n) ++ (piece ++ more)) = none := by
  rw [units_nat]
  refine (Json.denotes_nat n).append_none ?_ hmore
  cases piece with
  | nil => cases hpiece
  | cons u piece => exact Option.some.inj hpiece

/-- a quote that closes nothing opens a string of one comma, and a letter follows -/
theorem tokens_slip (hpiece : piece.take 3 = Json.quoted [0x2C] ∧
    ((piece.drop 3).head?.any fun u => decide (Json.Stray u)) = true) : Json.tokens (piece ++ more) = none := by
  obtain ⟨hquoted, hletter⟩ := hpiece
  rw [← List.take_append_drop 3 piece, hquoted, List.append_assoc]
  cases hrest : piece.drop 3 with
  | nil =>
    rw [hrest] at hletter
    cases hletter
  | cons u rest =>
    rw [hrest] at hletter
    exact Json.tokens_append_none (by decide +kernel) (Json.tokens_stray (of_decide_eq_true hletter) _)

theorem head_append {a b : Str} {u : UInt16} (h : a.head? = some u) : (a ++ b).head? = some u := by
  rw [List.head?_append, h]
  rfl

theorem last_append {a b : Str} {u : UInt16} (h : b.getLast? = some u) : (a ++ b).getLast? = some u := by
  rw [List.getLast?_append, h]
  rfl

theorem space_brace : Explorer.isSpace 0x7B = false ∧ Explorer.isSpace 0x7D = false ∧ Explorer.isSpace 0x22 = false := by
  decide

/-- **no summary is JSON** -/
theorem summary_rejected (reader : SessionReader) (operation : UiOperation) :
    parseUiSessionStdout (summaryJson reader ++ [0xA]) operation
      = Explorer.protocolError "stdout is not exactly one JSON object" := by
  have hhead : (summaryJson reader).head? = some 0x7B := by
    unfold summaryJson
    simp only [List.append_assoc]
    exact head_append (by decide)
  have hlast : (summaryJson reader).getLast? = some 0x7D := last_append (by decide)
  refine Explorer.parse_none hhead hlast space_brace.1 space_brace.2.1 operation (Json.parse_eq_none ?_)
  unfold summaryJson
  simp only [List.append_assoc]
  refine Json.tokens_append_none (by decide +kernel) (tokens_nat_none _ (by decide) ?_)
  exact Json.tokens_append_none (by decide +kernel) (tokens_nat_none _ (by decide) (tokens_slip (by decide)))

/-- **no event is JSON** -/
theorem event_rejected (display : F64 → String) (d : Dictionary) (ev : EventRecord) (operation : UiOperation) :
    parseUiSessionStdout (detailJson display d ev ++ [0xA]) operation
      = Explorer.protocolError "stdout is not exactly one JSON object" := by
  have hhead : (detailJson display d ev).head? = some 0x7B := by
    unfold detailJson
    simp only [List.append_assoc]
    exact head_append (by decide)
  have hlast : (detailJson display d ev).getLast? = some 0x7D := last_append (by decide)
  refine Explorer.parse_none hhead hlast space_brace.1 space_brace.2.1 operation (Json.parse_eq_none ?_)
  unfold detailJson
  simp only [List.append_assoc]
  exact Json.tokens_append_none (by decide +kernel) (tokens_nat_none _ (by decide) (tokens_slip (by decide)))

/-- the quote behind the severity is missing -/
theorem pageEvent_none (display : F64 → String) (d : Dictionary) (ev : EventRecord) :
    Json.tokens (pageEvent display d ev ++ more) = none := by
  have hseverity : ∀ severity, (Json.tokens (units "\"severity\":\"" ++ (units (severityName severity) ++ units ",\""))).isSome = true ∧
      (units "\"severity\":\"" ++ (units (severityName severity) ++ units ",\"")).getLast?.any Json.isNumeric = false := by
    intro severity
    cases severity <;> decide +kernel
  have hcut : units ",\"payload\":[" = units ",\"" ++ units "payload\":[" := by decide
  have hpayload : ∀ rest, Json.tokens (units "payload\":[" ++ rest) = none := fun rest => by
    have hletter : units "payload\":[" = 0x70 :: units "ayload\":[" := by decide
    rw [hletter]
    exact Json.tokens_stray (by decide) _
  unfold pageEvent
  simp only [List.append_assoc]
  refine Json.tokens_append_none (by decide +kernel) (Json.tokens_append_none (by decide +kernel) ?_)
  refine tokens_nat_none _ (by decide) (Json.tokens_append_none (by decide +kernel) ?_)
  refine tokens_nat_none _ (by decide) (Json.tokens_append_none (by decide +kernel) ?_)
  refine tokens_nat_none _ (by decide) (Json.tokens_append_none (by decide +kernel) ?_)
  refine Json.tokens_append_none (by decide +kernel) (tokens_nat_none _ (by decide) ?_)
  refine Json.tokens_append_none (by decide +kernel) (tokens_nat_none _ (by decide) ?_)
  refine Json.tokens_append_none (by decide +kernel) (tokens_nat_none _ (by decide) ?_)
  refine Json.tokens_append_none (by decide +kernel) ?_
  rw [hcut, List.append_assoc, ← List.append_assoc (units (severityName ev.severity)), ← List.append_assoc]
  exact Json.tokens_append_none (hseverity ev.severity) (hpayload _)

/-- **no page is JSON** -/
theorem page_rejected (display : F64 → String) (reader : SessionReader) {events : List EventRecord}
    {total offset limit : Nat} (h : offset < total → events ≠ []) (operation : UiOperation) :
    parseUiSessionStdout (pageJson display reader events total offset limit ++ [0xA]) operation
      = Explorer.protocolError "stdout is not exactly one JSON object" := by
  unfold pageJson
  split
  · refine Explorer.parse_none (u := 0x7B) (v := 0x22) ?_ (last_append (by decide)) space_brace.1
      space_brace.2.2 operation (Json.parse_eq_none ?_)
    · simp only [List.append_assoc]
      exact head_append (by decide)
    · simp only [List.append_assoc]
      refine Json.tokens_append_none (by decide +kernel) (tokens_nat_none _ (by decide) ?_)
      refine Json.tokens_append_none (by decide +kernel) (tokens_nat_none _ (by decide) ?_)
      refine Json.tokens_append_none (by decide +kernel) ?_
      have hend := @tokens_nat_none (units "\x7d,\"") [] limit (by decide) (by decide +kernel)
      rwa [List.append_nil] at hend
  · rename_i hlt
    refine Explorer.parse_none (u := 0x7B) (v := 0x7D) ?_ (last_append (by decide)) space_brace.1
      space_brace.2.1 operation (Json.parse_eq_none ?_)
    · simp only [List.append_assoc]
      exact head_append (by decide)
    · simp only [List.append_assoc]
      cases events with
      | nil => exact absurd rfl (h (not_le.mp hlt))
      | cons ev events =>
        rw [List.map_cons, pushAll, if_neg (Nat.lt_irrefl 0), List.nil_append, List.append_assoc]
        exact Json.tokens_append_none (by decide +kernel) (pageEvent_none display _ ev)

end

/-! ## the texts of errors -/

theorem Plain.append {a b : String} (ha : Plain a) (hb : Plain b) : Plain (a ++ b) := by
  refine ⟨?_, ?_⟩
  · rw [pushEscaped, String.toList_append, List.flatMap_append, units_append]
    exact congrArg₂ (· ++ ·) ha.1 hb.1
  · rw [units_append, List.forall_mem_append]
    exact ⟨ha.2, hb.2⟩

theorem plain_of {s : String} (h : ∀ c ∈ s.toList, c ≠ '"' ∧ c ≠ '\\' ∧ isControl c = false) : Plain s := by
  have hescape : ∀ c ∈ s.toList, escapeChar c = unitsOf c := by
    intro c hc
    obtain ⟨hquote, hback, hcontrol⟩ := h c hc
    have hne : ∀ d : Char, isControl d = true → c ≠ d := by
      rintro d hd rfl
      rw [hcontrol] at hd
      cases hd
    unfold escapeChar
    rw [if_neg hquote, if_neg hback, if_neg (hne '\n' rfl), if_neg (hne '\r' rfl), if_neg (hne '\t' rfl),
      if_neg (ne_true_of_eq_false hcontrol)]
  refine ⟨List.flatMap_congr hescape, ?_⟩
  intro u hu
  obtain ⟨c, hc, hu⟩ := List.mem_flatMap.mp hu
  obtain ⟨hquote, hback, hcontrol⟩ := h c hc
  exact units_plain hquote hback hcontrol u hu

theorem plain_nat (n : Nat) : Plain (toString n) := by
  refine plain_of ?_
  show ∀ c ∈ (Nat.repr n).toList, _
  rw [Nat.toList_repr]
  intro c hc
  have hdigit := Nat.isDigit_of_mem_toDigits (by decide) (by decide) hc
  rw [Char.isDigit, Bool.and_eq_true, decide_eq_true_eq, decide_eq_true_eq] at hdigit
  have hlow : 48 ≤ c.toNat := hdigit.1
  have hhigh : c.toNat ≤ 57 := hdigit.2
  refine ⟨?_, ?_, ?_⟩
  · rintro rfl
    revert hlow
    decide
  · rintro rfl
    revert hhigh
    decide
  · rw [isControl, Bool.or_eq_false_iff, Bool.and_eq_false_iff, decide_eq_false_iff_not, decide_eq_false_iff_not,
      decide_eq_false_iff_not]
    omega

/-- what an error says in words needs no escape -/
def Worded : Error → Prop
  | .io msg => Plain msg
  | .malformedRecord msg => Plain msg
  | .limitExceeded msg => Plain msg
  | _ => True

theorem plain_tag (t : UInt8) :
    Plain (String.ofList [(Nat.digitChar (t.toNat / 2^4)).toUpper, (Nat.digitChar (t.toNat % 2^4)).toUpper]) := by
  have hlt := t.toNat_lt
  have hdigits : ∀ n < 16, (Nat.digitChar n).toUpper ≠ '"' ∧ (Nat.digitChar n).toUpper ≠ '\\' ∧
      isControl (Nat.digitChar n).toUpper = false := by decide
  refine plain_of ?_
  rw [String.toList_ofList, List.forall_mem_cons, List.forall_mem_singleton]
  exact ⟨hdigits _ (by omega), hdigits _ (by omega)⟩

theorem Worded.display {err : Error} (h : Worded err) : Plain (Error.display err) := by
  cases err with
  | io msg => exact Plain.append (by decide) h
  | malformedRecord msg => exact Plain.append (by decide) h
  | limitExceeded msg => exact Plain.append (by decide) h
  | invalidMagic => exact (by decide : Plain "invalid DTJ file magic")
  | invalidEndian => exact (by decide : Plain "invalid endian_magic (expected LE 0x01020304)")
  | invalidChunkMagic => exact (by decide : Plain "invalid chunk magic")
  | sessionClosed => exact (by decide : Plain "session already finished")
  | unsupportedVersion v => exact Plain.append (by decide) (plain_nat _)
  | invalidHeaderSize n => exact Plain.append (by decide) (plain_nat _)
  | checksumMismatch sequence => exact Plain.append (by decide) (plain_nat _)
  | invalidSeverity s => exact Plain.append (by decide) (plain_nat _)
  | unknownTypeTag t => exact Plain.append (by decide) (plain_tag t)
  | sequenceGap expected found =>
    exact ((Plain.append (by decide) (plain_nat _)).append (by decide)).append (plain_nat _)
  | payloadTooLarge len max =>
    exact ((Plain.append (by decide) (plain_nat _)).append (by decide)).append (plain_nat _)
  | unknownDictionaryId kind id =>
    exact ((Plain.append (by decide) (plain_nat _)).append (by decide)).append (plain_nat _)
  | duplicateDictionaryId kind id =>
    exact ((Plain.append (by decide) (plain_nat _)).append (by decide)).append (plain_nat _)

theorem worded_malformed {msg : String} (h : Plain msg) : Worded (.malformedRecord msg) := h

theorem worded_limit {msg : String} (h : Plain msg) : Worded (.limitExceeded msg) := h

/-- every failure is in words that need no escape -/
def Fails {α : Type} (x : Except Error α) : Prop := ∀ err, x = .error err → Worded err

theorem fails_error {α : Type} {err : Error} (h : Worded err) : Fails (.error err : Except Error α) := by
  intro err' heq
  cases heq
  exact h

theorem fails_ok {α : Type} {a : α} : Fails (.ok a : Except Error α) := by
  intro err h
  cases h

theorem Fails.map {α β : Type} {x : Except Error α} (h : Fails x) (f : α → β) : Fails (x.map f) := by
  cases x with
  | error err => exact fails_error (h err rfl)
  | ok a => exact fails_ok

theorem Fails.bind {α β : Type} {x : Except Error α} {f : α → Except Error β} (h : Fails x) (hf : ∀ a, Fails (f a)) :
    Fails (x >>= f) := by
  cases x with
  | error err => exact fails_error (h err rfl)
  | ok a => exact hf a

theorem fails_times {α : Type} {p : Parser Error α} (h : ∀ s, Fails (p s)) (n : Nat) (s : Bytes) :
    Fails (times p n s) := by
  induction n generalizing s with
  | zero => exact fails_ok
  | succ n ih =>
    unfold times
    have hp := h s
    cases hps : p s with
    | error err => exact fails_error (hp err hps)
    | ok x =>
      obtain ⟨a, s'⟩ := x
      have hrest := ih s'
      dsimp only
      cases htimes : times p n s' with
      | error err => exact fails_error (hrest err htimes)
      | ok y => exact fails_ok

theorem fails_whole {α : Type} {p : Parser Error α} {junk : Nat → Error} {s : Bytes} (h : Fails (p s))
    (hjunk : ∀ n, Worded (junk n)) : Fails (whole p junk s) := by
  unfold whole
  cases hps : p s with
  | error err => exact fails_error (h err hps)
  | ok x =>
    obtain ⟨a, r⟩ := x
    dsimp only
    split
    · exact fails_ok
    · exact fails_error (hjunk _)

theorem fails_list {α : Type} {p : Parser Error α} {max : UInt32} {short tooMany : Error} {junk : Nat → Error}
    (h : ∀ s, Fails (p s)) (hshort : Worded short) (hmany : Worded tooMany) (hjunk : ∀ n, Worded (junk n)) (s : Bytes) :
    Fails (listOf max short tooMany junk p s) := by
  unfold listOf
  split
  · exact fails_error hshort
  split
  · exact fails_error hmany
  · exact fails_whole (fails_times h _ _) hjunk

theorem fails_fixed {n : Nat} {msg : String} (hmsg : Plain msg) (mk : Bytes → Value) (s : Bytes) :
    Fails (takeFixed n msg mk s) := by
  unfold takeFixed
  split
  · exact fails_error (worded_malformed hmsg)
  · exact fails_ok

theorem fails_ite {α : Type} {c : Prop} [Decidable c] {p q : Parser Error α} (hp : ∀ s, Fails (p s))
    (hq : ∀ s, Fails (q s)) (s : Bytes) : Fails ((if c then p else q) s) := by
  split
  · exact hp s
  · exact hq s

theorem fails_bytes (s : Bytes) : Fails (bytesP s) := by
  unfold bytesP
  split
  · exact fails_error (worded_malformed (by decide))
  split
  · exact fails_error (worded_limit (by decide))
  split
  · exact fails_error (worded_malformed (by decide))
  · exact fails_ok

theorem fails_value (tag : UInt8) (s : Bytes) : Fails (valueP tag s) := by
  unfold valueP
  refine fails_ite (fails_fixed (by decide) _) (fails_ite (fails_fixed (by decide) _) ?_) s
  refine fails_ite (fails_fixed (by decide) _) (fails_ite (fails_fixed (by decide) _) ?_)
  refine fails_ite (fails_fixed (by decide) _) (fails_ite (fails_fixed (by decide) _) ?_)
  refine fails_ite (fails_fixed (by decide) _) (fails_ite (fails_fixed (by decide) _) ?_)
  refine fails_ite (fails_fixed (by decide) _) (fails_ite (fails_fixed (by decide) _) ?_)
  refine fails_ite (fails_fixed (by decide) _) (fails_ite fails_bytes ?_)
  exact fun _ => fails_error trivial

theorem plain_trailing {a : String} (ha : Plain a) (n : Nat) : Plain (a ++ toString n ++ " trailing bytes") :=
  (ha.append (plain_nat n)).append (by decide)

theorem fails_field (s : Bytes) : Fails (fieldP s) := by
  unfold fieldP
  split
  · exact fails_error (worded_malformed (by decide))
  have hvalue := fails_value (s.getD 4 0) (s.drop 6)
  cases hv : valueP (s.getD 4 0) (s.drop 6) with
  | error err => exact fails_error (hvalue err hv)
  | ok x => exact fails_ok

theorem fails_payload (s : Bytes) : Fails (payloadOf s) := by
  unfold payloadOf
  split
  · exact fails_error (worded_malformed (by decide))
  · refine Fails.map (fails_whole (fails_times fails_field _ _) fun n => ?_) _
    exact worded_malformed (plain_trailing (a := "payload has ") (by decide) n)

theorem fails_event (s : Bytes) : Fails (eventP s) := by
  unfold eventP
  split
  · exact fails_error (worded_malformed (by decide))
  cases hseverity : Severity.fromU8 (s.getD 32 0) with
  | error err =>
    unfold Severity.fromU8 at hseverity
    split_ifs at hseverity
    cases hseverity
    exact fails_error trivial
  | ok severity =>
    dsimp only
    split
    · exact fails_error (worded_limit (by decide))
    split
    · exact fails_error (worded_malformed (by decide))
    have hpayload := fails_payload ((s.drop 40).take (leAt s 36 4))
    cases hp : payloadOf ((s.drop 40).take (leAt s 36 4)) with
    | error err => exact fails_error (hpayload err hp)
    | ok payload => exact fails_ok

theorem fails_entry (s : Bytes) : Fails (entryP s) := by
  unfold entryP
  split
  · exact fails_error (worded_malformed (by decide))
  cases hkind : DictKind.fromU8 (s.getD 0 0) with
  | error err =>
    unfold DictKind.fromU8 at hkind
    split_ifs at hkind
    cases hkind
    exact fails_error (worded_malformed (Plain.append (a := "unknown dict kind ") (by decide) (plain_nat _)))
  | ok kind =>
    dsimp only
    split
    · exact fails_error (worded_malformed (by decide))
    split
    · exact fails_error (worded_malformed (by decide))
    split
    · exact fails_error (worded_malformed (by decide))
    · exact fails_ok

theorem fails_events (s : Bytes) : Fails (eventsOf s) := by
  refine fails_list fails_event ?_ ?_ (fun n => ?_) s
  · exact worded_malformed (by decide)
  · exact worded_limit (by decide)
  · exact worded_malformed (plain_trailing (a := "event chunk has ") (by decide) n)

theorem fails_entries (s : Bytes) : Fails (entriesOf s) := by
  refine fails_list fails_entry ?_ ?_ (fun n => ?_) s
  · exact worded_malformed (by decide)
  · exact worded_limit (by decide)
  · exact worded_malformed (plain_trailing (a := "dictionary chunk has ") (by decide) n)

theorem fails_insertAll (d : Dictionary) (es : List DictEntry) : Fails (d.insertAll es) := by
  induction es generalizing d with
  | nil => exact fails_ok
  | cons e es ih =>
    unfold Dictionary.insertAll
    cases hinsert : d.insert e with
    | error err =>
      unfold Dictionary.insert at hinsert
      split_ifs at hinsert
      · cases hinsert
        exact fails_error (worded_malformed (by decide))
      · cases hinsert
        exact fails_error (worded_limit (by decide))
      · cases hinsert
        exact fails_error trivial
    | ok d' => exact ih d'

theorem fails_checkAll (d : Dictionary) (n : Nat) (evs : List EventRecord) : Fails (checkAll d n evs) := by
  induction evs generalizing n with
  | nil => exact fails_ok
  | cons ev evs ih =>
    unfold checkAll
    split
    · exact fails_error trivial
    cases hrefs : validateEventRefs d ev with
    | error err =>
      have href := requireRefs_error hrefs
      refine fails_error ?_
      cases err with
      | unknownDictionaryId => exact trivial
      | sessionClosed => exact trivial
      | _ => cases href
    | ok u => exact ih (n + 1)

theorem fails_readChunk (v : View) (s : Bytes) : Fails (readChunk v s) := by
  have habsorb : ∀ ty payload, Fails (absorb v ty payload) := by
    intro ty payload
    unfold absorb
    split
    · exact (fails_entries payload).bind fun entries => (fails_insertAll _ entries).bind fun d => fails_ok
    split
    · exact (fails_events payload).bind fun decoded => (fails_checkAll _ _ decoded).bind fun _ => fails_ok
    · exact fails_ok
  have haccept : ∀ h payload checksum, Fails (accept v h payload checksum) := by
    intro h payload checksum
    unfold accept
    split
    · exact fails_error trivial
    split
    · exact fails_error trivial
    · exact habsorb _ _
  unfold readChunk
  split
  · exact fails_ok
  split
  · split
    · exact fails_error trivial
    · exact fails_ok
  split
  · exact fails_ok
  split
  · exact fails_error trivial
  split
  · exact fails_ok
  have hchunk := haccept (headerAt s) (windowAt s 24 (leAt s 16 4)) (UInt32.ofNat (leAt s (24 + leAt s 16 4) 4))
  cases hacc : accept v (headerAt s) (windowAt s 24 (leAt s 16 4)) (UInt32.ofNat (leAt s (24 + leAt s 16 4) 4)) with
  | error err => exact fails_error (hchunk err hacc)
  | ok v' => exact fails_ok

theorem fails_walk (v : View) (s : Bytes) : Fails (walk v s) := by
  refine walk_induction (P := fun v s => Fails (walk v s)) ?_ ?_ ?_ v s
  · intro v s err h
    rw [walk_error h]
    exact fails_error (fails_readChunk v s err h)
  · intro v s torn h
    rw [walk_done h]
    exact fails_ok
  · intro v s v' r h ih
    rw [walk_next h]
    exact ih

/-- **no error of the reader needs an escape** -/
theorem open_worded {data : Bytes} (hdata : data.length < 2^64) {err : Error}
    (h : SessionReader.open data = .error (.error err)) : Worded err := by
  have hopen : SessionReader.open data = fail err := h
  rw [open_eq hdata, lift_eq_fail] at hopen
  have hheader : Fails (headerOf (data.take 128)) := by
    unfold headerOf
    split_ifs
    · exact fails_error (worded_malformed (by decide))
    · exact fails_error trivial
    · exact fails_error trivial
    · exact fails_error trivial
    · exact fails_error trivial
    · exact fails_ok
  have hwalk := fails_walk .empty (data.drop 128)
  unfold openOf at hopen
  split at hopen
  · cases hopen
    exact (by decide : Plain "failed to fill whole buffer")
  cases hh : headerOf (data.take 128) with
  | error err' =>
    rw [hh] at hopen
    cases hopen
    exact hheader err hh
  | ok header =>
    rw [hh] at hopen
    dsimp only at hopen
    cases hw : walk .empty (data.drop 128) with
    | error err' =>
      rw [hw] at hopen
      cases hopen
      exact hwalk err hw
    | ok x =>
      rw [hw] at hopen
      cases hopen

/-! ## answers that failed -/

section
open Json (Begins Members)
variable {more : Str}

theorem begins_plain {s : String} (h : Plain s) : Begins (0x22 :: (units s ++ 0x22 :: more)) (text s) more := by
  have hbegins : Begins (Json.quoted (units s) ++ more) (text s) more := (Json.denotes_string h.chars).begins
  rwa [Json.quoted, List.cons_append, List.append_assoc] at hbegins

/-- what an answer that failed says -/
def failureValue (kind message operation : String) : Json.Value :=
  .object [(units "ok", .bool false),
    (units "error", .object [(units "kind", text kind), (units "message", text message)]),
    (units "operation", text operation), (units "protocol_version", number 1)]

theorem denotes_failure {kind message operation : String} (hkind : Plain kind) (hmessage : Plain message)
    (hoperation : Plain operation) :
    Json.Denotes (failureJson kind message operation) (failureValue kind message operation) := by
  have hopen : units "\x7b\"ok\":false,\"error\":\x7b\"kind\":\"" = 0x7B :: (Json.quoted (units "ok") ++ 0x3A ::
      (units "false" ++ 0x2C :: (Json.quoted (units "error") ++ 0x3A :: 0x7B :: (Json.quoted (units "kind") ++ [0x3A, 0x22])))) := by
    decide
  have hmiddle : units "\",\"message\":\"" = 0x22 :: 0x2C :: (Json.quoted (units "message") ++ [0x3A, 0x22]) := by
    decide
  have hclose : units "\"\x7d,\"operation\":\"" = 0x22 :: 0x7D :: 0x2C :: (Json.quoted (units "operation") ++ [0x3A, 0x22]) := by
    decide
  have hend : units "\",\"protocol_version\":1\x7d" = 0x22 :: 0x2C :: (Json.quoted (units "protocol_version") ++ 0x3A ::
      (units (toString 1) ++ [0x7D])) := by
    decide
  unfold failureJson failureValue
  rw [hopen, hmiddle, hclose, hend]
  simp only [List.append_assoc, List.cons_append, List.nil_append]
  have hkey : ∀ key ∈ ["ok", "error", "kind", "message", "operation", "protocol_version"],
      Json.Chars (units key) (units key) := by
    have hplain : ∀ key ∈ ["ok", "error", "kind", "message", "operation", "protocol_version"], Plain key := by decide
    exact fun key hmem => (hplain key hmem).chars
  exact Begins.denotes (Members.object (hkey _ (by decide)) (begins_bool false)
    (.cons (hkey _ (by decide)) (Members.object (hkey _ (by decide)) (begins_plain hkind)
        (.cons (hkey _ (by decide)) (begins_plain hmessage) .nil))
      (.cons (hkey _ (by decide)) (begins_plain hoperation) (.cons (hkey _ (by decide)) (begins_nat 1) .nil))))

end

/-- **an answer that failed is accepted**, as long as its texts need no escape -/
theorem failure_accepted {kind message : String} (hkind : Plain kind) (hmessage : Plain message)
    (operation : UiOperation) :
    parseUiSessionStdout (failureJson kind message operation.name ++ [0xA]) operation
      = .ok (.error (units operation.name) (units kind) (units message)) := by
  have hoperation : Plain operation.name := by cases operation <;> decide
  have hhead : (failureJson kind message operation.name).head? = some 0x7B := by
    unfold failureJson
    simp only [List.append_assoc]
    exact head_append (by decide)
  have hlast : (failureJson kind message operation.name).getLast? = some 0x7D := last_append (by decide)
  rw [Explorer.parse_some hhead hlast space_brace.1 space_brace.2.1 operation
    (denotes_failure hkind hmessage hoperation).parse]
  have herror : property (failureValue kind message operation.name) "error"
      = some (.object [(units "kind", text kind), (units "message", text message)]) := by
    simp [failureValue, Explorer.property_cons, Explorer.property_nil, units, unitsOf]
  refine Explorer.envelopeOf_error rfl ?_ ?_ ?_ herror rfl ?_ ?_
  · have hone : property (failureValue kind message operation.name) "protocol_version" = some (number 1) := by
      simp [failureValue, Explorer.property_cons, Explorer.property_nil, units, unitsOf]
    rw [hone]
    decide +kernel
  · simp [failureValue, Explorer.property_cons, Explorer.property_nil, units, unitsOf]
  · have hname : property (failureValue kind message operation.name) "operation" = some (text operation.name) := by
      simp [failureValue, Explorer.property_cons, Explorer.property_nil, units, unitsOf]
    rw [hname]
    exact decide_eq_true rfl
  · simp [Explorer.property_cons, Explorer.property_nil, units, unitsOf, text]
  · simp [Explorer.property_cons, Explorer.property_nil, units, unitsOf, text]

/-! ## when the line is accepted -/

section
variable {display : F64 → String} {checks : Bool} {files : Str → Except Error Bytes} {fsPath : Str}

theorem command_summary (u sessionPath : Str) :
    uiSessionCommand display checks files [u, units "summary", sessionPath] = some <$> uiSummaryJson files sessionPath := by
  have hhello : units "summary" ≠ units "hello" := by decide
  unfold uiSessionCommand
  dsimp only
  rw [if_neg hhello, if_pos rfl]
  cases uiSummaryJson files sessionPath <;> rfl

theorem command_events (u : Str) (remaining : List Str) :
    uiSessionCommand display checks files (u :: units "events" :: remaining)
      = some <$> uiEventsCommand display checks files remaining := by
  have hhello : units "events" ≠ units "hello" := by decide
  have hsummary : units "events" ≠ units "summary" := by decide
  unfold uiSessionCommand
  dsimp only
  rw [if_neg hhello, if_neg hsummary, if_pos rfl]
  cases uiEventsCommand display checks files remaining <;> rfl

theorem command_event (u : Str) (remaining : List Str) :
    uiSessionCommand display checks files (u :: units "event" :: remaining)
      = some <$> uiEventCommand display files remaining := by
  have hhello : units "event" ≠ units "hello" := by decide
  have hsummary : units "event" ≠ units "summary" := by decide
  have hevents : units "event" ≠ units "events" := by decide
  unfold uiSessionCommand
  dsimp only
  rw [if_neg hhello, if_neg hsummary, if_neg hevents, if_pos rfl]
  cases uiEventCommand display files remaining <;> rfl

/-- the number that the command looks for -/
def readSequence (sequence : Str) : Nat := if decimal (trim sequence) < 2^64 then decimal (trim sequence) else 0

theorem readSequence_lt (sequence : Str) : readSequence sequence < 2^64 := by
  unfold readSequence
  split
  · assumption
  · decide

theorem read_event {sequence : Str} {argv : List Str} (hpath : fsPath.head? ≠ some 0x2D)
    (h : buildEventArgv fsPath sequence = .ok argv) :
    argv = [units "ui-session", units "event", fsPath, units "--sequence", trim sequence] ∧
      eventArgs [fsPath, units "--sequence", trim sequence] ⟨none, none⟩
        = ⟨some fsPath, some (UInt64.ofNat (readSequence sequence))⟩ := by
  unfold buildEventArgv at h
  by_cases hcanonical : isCanonicalDecimalU64 (trim sequence) = true
  · rw [if_neg (not_not_intro hcanonical)] at h
    obtain ⟨hne, hdigits⟩ := canonical_digits hcanonical
    have hflag : (units "--sequence").head? = some 0x2D := by decide
    have hnot : fsPath ≠ units "--sequence" := fun h => hpath (h ▸ hflag)
    refine ⟨(Except.ok.inj h).symm, ?_⟩
    rw [eventArgs.eq_def]
    dsimp only
    rw [if_neg hnot, if_pos ⟨hpath, rfl⟩, eventArgs.eq_def]
    dsimp only
    rw [if_pos rfl, parseU64_digits hne hdigits, readSequence, eventArgs]
    split <;> rfl
  · rw [if_pos hcanonical] at h
    cases h

/-- a file is read, or the error is in words that need no escape -/
theorem openPath_cases (hos : ∀ path err, files path = .error err → Worded err)
    (hsize : ∀ path data, files path = .ok data → data.length < 2^63) :
    (∃ reader, openPath files fsPath = .ok reader ∧ reader.events.length < 2^63 ∧
        ∀ ev ∈ reader.events, 1 ≤ ev.eventSequence.toNat) ∨
      ∃ err, openPath files fsPath = .error (.error err) ∧ Worded err := by
  unfold openPath
  cases hfile : files fsPath with
  | error err => exact .inr ⟨err, rfl, hos fsPath err hfile⟩
  | ok data =>
    have hlt := hsize fsPath data hfile
    rw [lift_ok, ok_bind]
    cases hopen : SessionReader.open data with
    | ok reader =>
      have hformed := open_wellFormed (by omega) hopen
      refine .inl ⟨reader, rfl, ?_, fun ev hev => ?_⟩
      · have hlength := events_length (data.drop 128)
        rw [← hformed.events, List.length_drop] at hlength
        omega
      · obtain ⟨i, hi⟩ := List.mem_iff_getElem?.mp hev
        rw [hformed.sequence i ev hi]
        exact Nat.le_add_left 1 i
    | error abort =>
      cases abort with
      | error err => exact .inr ⟨err, rfl, open_worded (by omega) hopen⟩
      | panic =>
        rw [open_eq (by omega)] at hopen
        exact absurd hopen (lift_ne_panic _)
      | diverge =>
        rw [open_eq (by omega)] at hopen
        exact absurd hopen (lift_ne_diverge _)

theorem command_of_events {query : EventsQuery} {argv : List Str} (hargv : buildEventsArgv fsPath query = .ok argv) :
    argv = units "ui-session" :: units "events" :: argv.drop 2 := by
  obtain ⟨-, -, -, rfl⟩ := buildEventsArgv_ok hargv
  rfl

/-- a file that is not readable -/
theorem command_unreadable {request : UiRequest} {argv : List Str} {err : Error} (hpath : fsPath.head? ≠ some 0x2D)
    (hargv : request.argv fsPath = .ok argv) (hopen : openPath files fsPath = .error (.error err)) :
    uiSessionCommand display checks files argv = .ok (some (uiErrorJson request.operation.name err)) := by
  cases request with
  | summary =>
    cases hargv
    rw [buildSummaryArgv, command_summary, uiSummaryJson, hopen]
    rfl
  | events query =>
    have hcommand := command_of_events hargv
    rw [hcommand, command_events, uiEventsCommand, uiEventsAnswer, read_events hpath hargv]
    dsimp only
    rw [hopen]
    rfl
  | event sequence =>
    obtain ⟨rfl, hread⟩ := read_event hpath hargv
    rw [command_event, uiEventCommand, hread]
    dsimp only
    rw [hopen]
    rfl

/-- a page of a session -/
theorem answer_page {query : EventsQuery} {argv : List Str} {reader : SessionReader} {answer : EventsAnswer}
    (hpath : fsPath.head? ≠ some 0x2D) (hargv : buildEventsArgv fsPath query = .ok argv)
    (hopen : openPath files fsPath = .ok reader) (hsmall : reader.events.length < 2^63)
    (h : uiEventsAnswer checks files (argv.drop 2) = .ok answer) :
    ∃ events total offset limit, answer = .page reader events total offset limit ∧ (offset < total → events ≠ []) := by
  obtain ⟨-, hmin, hmax, -⟩ := buildEventsArgv_ok hargv
  obtain ⟨hlimit, hlimit'⟩ := readLimit_bounds hmin hmax
  rw [uiEventsAnswer_eq hpath hargv hopen] at h
  obtain ⟨stop, hstop, h⟩ := bind_eq_ok.mp h
  by_cases hbeyond : readOffset query ≥ reader.events.length
  · rw [if_pos hbeyond] at h
    cases h
    exact ⟨_, _, _, _, rfl, fun hlt => absurd hlt (not_lt.mpr hbeyond)⟩
  · rw [if_neg hbeyond] at h
    obtain ⟨events, hevents, h⟩ := bind_eq_ok.mp h
    cases h
    refine ⟨_, _, _, _, rfl, fun _ => ?_⟩
    have hsum : stop = readOffset query + readLimit query := by
      unfold addUsize at hstop
      split at hstop
      · rw [add64_eq (by omega)] at hstop
        exact (Except.ok.inj hstop).symm
      · rw [Nat.mod_eq_of_lt (by omega)] at hstop
        exact (Except.ok.inj hstop).symm
    rintro rfl
    unfold slice at hevents
    split at hevents
    · have hnone := congrArg List.length (Except.ok.inj hevents)
      rw [List.length_take, List.length_drop, List.length_nil] at hnone
      omega
    · cases hevents

section
variable {request : UiRequest} {argv : List Str} {line : Str}

theorem not_carried {error : ClientError} (hline : uiSessionCommand display checks files argv = .ok (some line))
    (hparse : parseUiSessionStdout (line ++ [0xA]) request.operation = .error error) :
    ¬ Carried display checks files fsPath request argv := by
  rintro ⟨line', envelope, hline', hparse', -⟩
  rw [hline, Except.ok.injEq, Option.some.injEq] at hline'
  subst hline'
  rw [hparse] at hparse'
  cases hparse'

theorem carried_failure {operation kind message : Str}
    (hline : uiSessionCommand display checks files argv = .ok (some line))
    (hparse : parseUiSessionStdout (line ++ [0xA]) request.operation = .ok (.error operation kind message)) :
    Carried display checks files fsPath request argv :=
  ⟨line, _, hline, hparse, fun _ h => by cases h⟩

/-- no page is carried -/
theorem events_not_carried {query : EventsQuery} {reader : SessionReader} (hpath : fsPath.head? ≠ some 0x2D)
    (hargv : buildEventsArgv fsPath query = .ok argv) (hopen : openPath files fsPath = .ok reader)
    (hsmall : reader.events.length < 2^63) : ¬ Carried display checks files fsPath (.events query) argv := by
  rintro ⟨line, envelope, hline, hparse, -⟩
  rw [command_of_events hargv, command_events, uiEventsCommand] at hline
  cases hanswer : uiEventsAnswer checks files (argv.drop 2) with
  | error abort =>
    rw [hanswer] at hline
    cases hline
  | ok answer =>
    obtain ⟨events, total, offset, limit, rfl, hevents⟩ := answer_page hpath hargv hopen hsmall hanswer
    rw [hanswer] at hline
    cases hline
    rw [page_rejected display reader hevents] at hparse
    cases hparse

/-- an event is carried when it is not there -/
theorem event_carried_iff {sequence : Str} {reader : SessionReader} (hpath : fsPath.head? ≠ some 0x2D)
    (hargv : buildEventArgv fsPath sequence = .ok argv) (hopen : openPath files fsPath = .ok reader)
    (hfirst : ∀ ev ∈ reader.events, 1 ≤ ev.eventSequence.toNat) :
    Carried display checks files fsPath (.event sequence) argv ↔
      ∀ ev ∈ reader.events, ev.eventSequence.toNat ≠ decimal (trim sequence) := by
  obtain ⟨rfl, hread⟩ := read_event hpath hargv
  have hcommand : ∀ found, (reader.events.find? fun ev => ev.eventSequence = UInt64.ofNat (readSequence sequence)) = found →
      uiSessionCommand display checks files [units "ui-session", units "event", fsPath, units "--sequence", trim sequence]
        = .ok (some (found.elim (failureJson "EventNotFound"
            ("event " ++ toString (UInt64.ofNat (readSequence sequence)).toNat ++ " not found") "event")
            (detailJson display reader.dictionary))) := by
    intro found hfound
    rw [command_event, uiEventCommand, hread]
    dsimp only
    rw [hopen]
    dsimp only
    rw [hfound]
    cases found <;> rfl
  have hmeans : ∀ ev ∈ reader.events, ev.eventSequence = UInt64.ofNat (readSequence sequence) ↔
      ev.eventSequence.toNat = decimal (trim sequence) := by
    intro ev hev
    have hlt := ev.eventSequence.toNat_lt
    have hpos := hfirst ev hev
    rw [← UInt64.toNat_inj, UInt64.toNat_ofNat', Nat.mod_eq_of_lt (readSequence_lt sequence), readSequence]
    split
    · rfl
    · omega
  cases hfound : reader.events.find? fun ev => ev.eventSequence = UInt64.ofNat (readSequence sequence) with
  | none =>
    refine iff_of_true (carried_failure (hcommand _ hfound) (failure_accepted (by decide) ?_ .event)) ?_
    · exact (Plain.append (by decide) (plain_nat _)).append (by decide)
    · intro ev hev heq
      have hnone := List.find?_eq_none.mp hfound ev hev
      rw [decide_eq_true_eq] at hnone
      exact hnone ((hmeans ev hev).mpr heq)
  | some ev =>
    have hmem := List.mem_of_find?_eq_some hfound
    have hseq := List.find?_some hfound
    rw [decide_eq_true_eq] at hseq
    refine iff_of_false (not_carried (hcommand _ hfound) (event_rejected display _ ev .event)) ?_
    intro hall
    exact hall ev hmem ((hmeans ev hmem).mp hseq)

/-- **the line is accepted exactly when the file is not readable, or the event is not there** -/
theorem carried_iff (hpath : fsPath.head? ≠ some 0x2D)
    (hargv : request.argv fsPath = .ok argv) (hos : ∀ path err, files path = .error err → Worded err)
    (hsize : ∀ path data, files path = .ok data → data.length < 2^63) :
    Carried display checks files fsPath request argv ↔ (∃ err, openPath files fsPath = .error (.error err)) ∨
      ∃ sequence reader, request = .event sequence ∧ openPath files fsPath = .ok reader ∧
        ∀ ev ∈ reader.events, ev.eventSequence.toNat ≠ decimal (trim sequence) := by
  have hread := @openPath_cases files fsPath hos hsize
  obtain ⟨reader, hopen, hsmall, hfirst⟩ | ⟨err, hopen, hworded⟩ := hread
  · rw [hopen, or_iff_right (by rintro ⟨err, h⟩; cases h)]
    cases request with
    | summary =>
      cases hargv
      have hline : uiSessionCommand display checks files (buildSummaryArgv fsPath) = .ok (some (summaryJson reader)) := by
        rw [buildSummaryArgv, command_summary, uiSummaryJson, hopen]
        rfl
      refine iff_of_false (not_carried hline (summary_rejected reader .summary)) ?_
      rintro ⟨sequence, reader', h, -⟩
      cases h
    | events query =>
      refine iff_of_false (events_not_carried hpath hargv hopen hsmall) ?_
      rintro ⟨sequence, reader', h, -⟩
      cases h
    | event sequence =>
      rw [event_carried_iff hpath hargv hopen hfirst]
      constructor
      · intro h
        exact ⟨sequence, reader, rfl, rfl, h⟩
      · rintro ⟨sequence', reader', h, h', hall⟩
        cases h
        cases h'
        exact hall
  · refine iff_of_true ?_ (.inl ⟨err, hopen⟩)
    refine carried_failure (command_unreadable hpath hargv hopen) (failure_accepted ?_ hworded.display request.operation)
    cases err <;> (dsimp only [errorKind]; decide)

end

end

/-- a file that is not there -/
def missingFile : Str → Except Error Bytes := fun _ => .error (.io "No such file or directory (os error 2)")

/-- the error of a file that is not there is accepted -/
theorem carried_example :
    Carried (fun _ => "1.5") true missingFile (units "/s.dtj") .summary (buildSummaryArgv (units "/s.dtj")) := by
  refine (carried_iff (by decide) rfl ?_ ?_).mpr (.inl ⟨_, rfl⟩)
  · intro path err h
    cases h
    exact (by decide : Plain "No such file or directory (os error 2)")
  · intro path data h
    cases h

/-- the summary of a session is not -/
theorem summary_not_carried : ¬ Carried (fun _ => "1.5") true (fun _ => .ok journalBytes) journalPath .summary
    (buildSummaryArgv journalPath) := by
  obtain ⟨reader, hopen, -⟩ := journalBytes_wellFormed
  have hline : uiSessionCommand (fun _ => "1.5") true (fun _ => .ok journalBytes) (buildSummaryArgv journalPath)
      = .ok (some (summaryJson reader)) := by
    have hopened : openPath (fun _ => .ok journalBytes) journalPath = .ok reader := by
      rw [openPath, lift_ok, ok_bind, hopen]
    rw [buildSummaryArgv, command_summary, uiSummaryJson, hopened]
    rfl
  exact not_carried hline (summary_rejected reader .summary)

end Dtj.Cli
