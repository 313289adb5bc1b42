import Dtj.Sdk.Requests

/-!
# The explorer: requests to the binary, and its answers

`packages/dtj-vscode`: the arguments of `dtj ui-session` (`protocol.ts`), one request
(`uiSessionClient.ts`), what the webview shows (`messages.ts`), and how errors are shown
(`nativeErrors.ts`).

* `buildEventsArgv`, `buildEventArgv`   the arguments of a request, or why there is none;
* `UiSessionClient.run`                 what comes of a process that has ended;
* `ExplorerUiState`                     the state that the webview shows;
* `mapBrowseOpError_failed`             an error that is mapped is shown.
-/

namespace Dtj.Explorer
open Sdk.TypeScript (Str units units_nat)

/-! ## arguments -/

structure EventFilters where
  domain : Option Str
  category : Option Str
  eventName : Option Str
  severity : Option Str
  correlation : Option Str
deriving DecidableEq

structure EventsQuery where
  offset : Str
  limit : Nat
  filters : EventFilters
deriving DecidableEq

structure ClientError where
  kind : Str
  message : Str
deriving DecidableEq

def EVENTS_PAGE_DEFAULT : Nat := 100
def EVENTS_PAGE_MAX : Nat := 256
def FILTER_MAX_CHARS : Nat := 256
def DEFAULT_TRACEQL_QUERY : Str := units "FROM events LIMIT 100"

def SEVERITIES : List Str :=
  [units "trace", units "debug", units "info", units "warn", units "error", units "fatal"]

/-- `/^(0|[1-9]\d*)$/` -/
def isCanonicalDecimalU64 : Str → Bool
  | [] => false
  | [0x30] => true
  | u :: rest => (0x31 ≤ u && u ≤ 0x39) && rest.all fun v => 0x30 ≤ v && v ≤ 0x39

/-- white space and line terminators -/
def isSpace (u : UInt16) : Bool :=
  u ∈ [0x9, 0xA, 0xB, 0xC, 0xD, 0x20, 0xA0, 0x1680, 0x2028, 0x2029, 0x202F, 0x205F, 0x3000, 0xFEFF] ||
    (0x2000 ≤ u && u ≤ 0x200A)

def trim (s : Str) : Str := ((s.dropWhile isSpace).reverse.dropWhile isSpace).reverse

def invalid (message : String) : Except ClientError α :=
  .error ⟨units "InvalidArgument", units message⟩

def buildHelloArgv : List Str := [units "ui-session", units "hello"]

def buildSummaryArgv (fsPath : Str) : List Str := [units "ui-session", units "summary", fsPath]

/-- a filter that is missing or empty adds nothing -/
def pushFilter (flag : String) : Option Str → Except ClientError (List Str)
  | none => .ok []
  | some value =>
    if value = [] then .ok []
    else if value.length > FILTER_MAX_CHARS then invalid s!"{flag} exceeds max length"
    else if 0 ∈ value then invalid s!"{flag} contains NUL"
    else .ok [units flag, value]

def pushSeverity : Option Str → Except ClientError (List Str)
  | none => .ok []
  | some severity =>
    if severity = [] then .ok []
    else if severity ∉ SEVERITIES then invalid "severity must be an exact severity name"
    else .ok [units "--severity", severity]

def buildEventsArgv (fsPath : Str) (query : EventsQuery) : Except ClientError (List Str) := do
  if ¬ isCanonicalDecimalU64 query.offset then
    invalid "offset must be a canonical unsigned decimal string"
  else if query.limit < 1 ∨ query.limit > EVENTS_PAGE_MAX then
    invalid "limit must be in 1..=256"
  else
    let domain ← pushFilter "--domain" query.filters.domain
    let category ← pushFilter "--category" query.filters.category
    let eventName ← pushFilter "--event-name" query.filters.eventName
    let correlation ← pushFilter "--correlation" query.filters.correlation
    let severity ← pushSeverity query.filters.severity
    return [units "ui-session", units "events", fsPath, units "--offset", query.offset,
      units "--limit", units (toString query.limit)] ++ domain ++ category ++ eventName ++
      correlation ++ severity

def buildEventArgv (fsPath sequence : Str) : Except ClientError (List Str) :=
  if ¬ isCanonicalDecimalU64 (trim sequence) then
    invalid "sequence must be an unsigned decimal integer string"
  else .ok [units "ui-session", units "event", fsPath, units "--sequence", trim sequence]

/-- the text of a number is a decimal -/
theorem canonical_nat (n : Nat) : isCanonicalDecimalU64 (units (toString n)) = true := by
  have hne := Json.natText_ne_nil n
  have hdigits := Json.natText_digits n
  have hhead : (Json.natText n).head? = some 0x30 → Json.natText n = [0x30] := Json.natText_head
  rw [units_nat]
  generalize Json.natText n = text at hne hdigits hhead
  cases text with
  | nil => exact absurd rfl hne
  | cons u rest =>
    rw [List.forall_mem_cons] at hdigits
    by_cases hu : u = 0x30
    · rw [hhead (congrArg some hu)]
      rfl
    · have hdigit := hdigits.1
      rw [Json.isDigit, Bool.and_eq_true, decide_eq_true_eq, decide_eq_true_eq] at hdigit
      have hpos : 0x31 ≤ u := by
        rw [UInt16.le_iff_toNat_le] at hdigit ⊢
        have hne' : u.toNat ≠ (0x30 : UInt16).toNat := fun h => hu (UInt16.toNat_inj.mp h)
        have hlow : (0x30 : UInt16).toNat ≤ u.toNat := hdigit.1
        rw [show (0x30 : UInt16).toNat = 48 from rfl] at hlow hne'
        rw [show (0x31 : UInt16).toNat = 49 from rfl]
        omega
      unfold isCanonicalDecimalU64
      split
      · rename_i heq
        cases heq
      · rfl
      · rename_i v more _ heq
        cases heq
        rw [Bool.and_eq_true, Bool.and_eq_true, decide_eq_true_eq, decide_eq_true_eq, List.all_eq_true]
        exact ⟨⟨hpos, hdigit.2⟩, hdigits.2⟩

/-! ## one request -/

inductive UiOperation where
  | hello
  | summary
  | events
  | event
deriving DecidableEq

/-- a process that has ended; nothing reads its standard error -/
structure ProcessRunResult where
  stdout : Str
  exitCode : Option Int
  killed : Bool
  timedOut : Bool
  stdoutTruncated : Bool

/-- what becomes of the promise of a runner -/
inductive Outcome where
  | rejected
  | resolved (proc : ProcessRunResult)

/-- what the explorer does with texts and with the values of an answer: `parseUiSessionStdout`
followed by the check of the result, `torn_tail` of a result, and the query language of the bar,
whose limits are in range -/
structure Host (V : Type) where
  decode : UiOperation → Str → Except ClientError V
  tornTail : V → Bool
  parseTraceqlSubset : Str → Except Str (EventFilters × Nat)
  formatTraceqlSubset : EventFilters → Nat → Str
  limit_range : ∀ text filters limit, parseTraceqlSubset text = .ok (filters, limit) →
    1 ≤ limit ∧ limit ≤ EVENTS_PAGE_MAX

section
variable {V : Type}

/-- the end of `run`, on a signal that is aborted or not -/
def UiSessionClient.run (host : Host V) (operation : UiOperation) (aborted : Bool) :
    Outcome → Except ClientError V
  | .rejected => .error ⟨units "NativeReaderUnavailable", units "failed to spawn dtj binary"⟩
  | .resolved proc =>
    if aborted then .error ⟨units "NativeCancelled", units "request cancelled"⟩
    else if proc.timedOut then .error ⟨units "NativeTimeout", units "native process timed out"⟩
    else if proc.stdoutTruncated then
      .error ⟨units "ResponseTooLarge", units "stdout exceeded host cap"⟩
    else if proc.exitCode ≠ some 0 ∧ proc.exitCode ≠ some 2 ∧ proc.exitCode ≠ none ∧
        ¬ proc.killed then
      .error ⟨units "NativeProtocolError", units "unexpected native exit code"⟩
    else host.decode operation proc.stdout

/-- a value comes from what the process printed -/
theorem run_ok {host : Host V} {operation : UiOperation} {aborted : Bool} {outcome : Outcome}
    {v : V} (h : UiSessionClient.run host operation aborted outcome = .ok v) :
    ∃ proc, outcome = .resolved proc ∧ host.decode operation proc.stdout = .ok v := by
  cases outcome with
  | rejected => cases h
  | resolved proc =>
    refine ⟨proc, rfl, ?_⟩
    simp only [UiSessionClient.run] at h
    split at h
    · cases h
    split at h
    · cases h
    split at h
    · cases h
    split at h
    · cases h
    exact h

end

/-! ## what the webview shows -/

inductive Phase where
  | loading
  | ready
  | nativeReaderUnavailable
  | workspaceUntrusted
  | unsupportedDocument
  | nativeProtocolMismatch
  | nativeTimeout
  | nativeProtocolError
  | readerError
  | stale
deriving DecidableEq

inductive ExplorerBusy where
  | events
  | event
  | reload
deriving DecidableEq

/-- the events of an answer; `issued` is not in the source: it says which step of the run sent the
request -/
structure Page (V : Type) where
  value : V
  issued : Nat

structure ExplorerUiState (V : Type) where
  phase : Phase
  message : Option Str
  errorKind : Option Str
  stale : Bool
  tornTail : Bool
  busy : Option ExplorerBusy
  summary : Option V
  events : Option (Page V)
  detail : Option V
  filters : EventFilters
  offset : Str
  limit : Nat
  selectedSequence : Option Str
  queryText : Str

/-- `stale ? "stale" : "ready"` -/
def browsing (stale : Bool) : Phase := if stale then .stale else .ready

def formatNativeError (error : ClientError) : Str :=
  let orElse (text : Str) := if error.message = [] then text else error.message
  if error.kind = units "NativeTimeout" then units "dtj timed out — try a smaller LIMIT or Refresh"
  else if error.kind = units "ResponseTooLarge" then
    units "Response too large for host cap — reduce LIMIT"
  else if error.kind = units "NativeCancelled" then units "Request cancelled"
  else if error.kind = units "NativeProtocolMismatch" then orElse (units "ui-session protocol mismatch")
  else if error.kind = units "NativeReaderUnavailable" then orElse (units "dtj binary unavailable")
  else orElse error.kind

def SOFT_WHEN_BROWSING : List Str :=
  [units "NativeTimeout", units "ResponseTooLarge", units "NativeCancelled",
    units "NativeProtocolError", units "NativeProtocolMismatch"]

def readerKinds : List Str :=
  [units "ChecksumMismatch", units "SequenceGap", units "UnknownDictionaryId",
    units "DuplicateDictionaryId", units "UnsupportedVersion", units "InvalidMagic",
    units "InvalidEndian", units "InvalidChunkMagic", units "InvalidHeaderSize",
    units "MalformedRecord", units "UnknownTypeTag", units "InvalidSeverity",
    units "PayloadTooLarge", units "LimitExceeded", units "Io"]

section
variable {V : Type}

def mapClientError (error : ClientError) (base : ExplorerUiState V) : ExplorerUiState V :=
  let phase : Phase :=
    if error.kind = units "NativeProtocolMismatch" then .nativeProtocolMismatch
    else if error.kind = units "NativeTimeout" then .nativeTimeout
    else if error.kind = units "NativeReaderUnavailable" then .nativeReaderUnavailable
    else .nativeProtocolError
  { base with
    busy := none
    phase
    errorKind := some error.kind
    message := some (formatNativeError error)
    events := none
    detail := none
    summary := none }

def mapReaderOrNativeError (error : ClientError) (base : ExplorerUiState V) : ExplorerUiState V :=
  if error.kind ∈ readerKinds then
    { base with
      busy := none
      phase := .readerError
      errorKind := some error.kind
      message := some error.message
      events := none
      detail := none }
  else mapClientError error base

def mapBrowseOpError (error : ClientError) (base : ExplorerUiState V) : ExplorerUiState V :=
  if base.summary.isSome ∧ error.kind ∈ SOFT_WHEN_BROWSING then
    { base with
      busy := none
      phase := browsing base.stale
      errorKind := some error.kind
      message := some (formatNativeError error) }
  else if base.summary.isSome ∧ error.kind = units "EventNotFound" then
    { base with
      busy := none
      phase := browsing base.stale
      errorKind := some error.kind
      message := some error.message
      detail := none }
  else mapReaderOrNativeError error base

/-- the state that an error leads to shows the error and no events that were not shown before -/
structure Failed (error : ClientError) (base state : ExplorerUiState V) : Prop where
  shown : state.errorKind = some error.kind
  events : state.events = base.events ∨ state.events = none
  detail : state.detail = base.detail ∨ state.detail = none
  query : state.offset = base.offset ∧ state.limit = base.limit ∧ state.filters = base.filters
  selected : state.selectedSequence = base.selectedSequence
  stale : state.stale = base.stale

variable (error : ClientError) (base : ExplorerUiState V)

theorem mapClientError_failed : Failed error base (mapClientError error base) :=
  ⟨rfl, .inr rfl, .inr rfl, ⟨rfl, rfl, rfl⟩, rfl, rfl⟩

theorem mapReaderOrNativeError_failed : Failed error base (mapReaderOrNativeError error base) := by
  unfold mapReaderOrNativeError
  split
  · exact ⟨rfl, .inr rfl, .inr rfl, ⟨rfl, rfl, rfl⟩, rfl, rfl⟩
  · exact mapClientError_failed error base

/-- **an error of a request is shown** -/
theorem mapBrowseOpError_failed : Failed error base (mapBrowseOpError error base) := by
  unfold mapBrowseOpError
  split
  · exact ⟨rfl, .inl rfl, .inl rfl, ⟨rfl, rfl, rfl⟩, rfl, rfl⟩
  split
  · exact ⟨rfl, .inl rfl, .inr rfl, ⟨rfl, rfl, rfl⟩, rfl, rfl⟩
  · exact mapReaderOrNativeError_failed error base

end

end Dtj.Explorer
