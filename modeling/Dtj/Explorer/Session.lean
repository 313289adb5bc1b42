import Dtj.Explorer.Client
import Dtj.Lib.Trace

/-!
# The explorer: one document

`packages/dtj-vscode`, `sessionEditorProvider.ts`: reloads, queries and selections of one document.
Each sends a request and waits; meanwhile other messages come, the file changes, and the answers of
earlier requests arrive.

* `DocumentSession`, `Request`       the document, and what it waits for;
* `reload`, `runQuery`, `loadEvents`, `selectEvent`, `markStale`   what happens when they start;
* `resumed`                          what happens when a request is answered;
* `step`                             one turn of the event loop;
* `Waits`                            **at most one request is current**: the others are superseded;
* `Waits.send`, `Waits.settle`       how a request becomes current, and how it is settled.
-/

namespace Dtj.Explorer
open Sdk.TypeScript (Str units)

/-! ## the document -/

/-- where an operation waits for its answer -/
inductive Stage where
  | reloadHello
  | reloadSummary
  | reloadEvents
  | loadEvents
  | selectEvent
deriving DecidableEq

def Stage.operation : Stage → UiOperation
  | .reloadHello => .hello
  | .reloadSummary => .summary
  | .reloadEvents => .events
  | .loadEvents => .events
  | .selectEvent => .event

/-- a request that is not answered: the client that sent it, the generation of its operation, and
whether its signal is aborted; no process runs if its arguments are refused -/
structure Request where
  client : Nat
  generation : Nat
  stage : Stage
  args : Except ClientError (List Str)
  aborted : Bool
  issued : Nat

/-- a document; `saving` counts the reloads that wait for `persistNav` at their end, and `time` the
steps of the run -/
structure DocumentSession (V : Type) where
  fsPath : Str
  client : Option Nat
  clients : Nat
  state : ExplorerUiState V
  generation : Nat
  watcher : Bool
  requests : List Request
  saving : Nat
  time : Nat

section
variable {V : Type}

/-- a document that is opened with what was persisted of it -/
def opened (fsPath : Str) (filters : EventFilters) (offset : Str) (selectedSequence : Option Str)
    (queryText : Str) : DocumentSession V where
  fsPath
  client := none
  clients := 0
  state :=
    { phase := .loading
      message := none
      errorKind := none
      stale := false
      tornTail := false
      busy := none
      summary := none
      events := none
      detail := none
      filters
      offset
      limit := EVENTS_PAGE_DEFAULT
      selectedSequence
      queryText }
  generation := 0
  watcher := false
  requests := []
  saving := 0
  time := 0

/-- the arguments for the query in a state -/
def ExplorerUiState.query (fsPath : Str) (state : ExplorerUiState V) :
    Except ClientError (List Str) :=
  buildEventsArgv fsPath ⟨state.offset, state.limit, state.filters⟩

/-- `cancel` of a client: of the requests that it has sent, only the last can be active -/
def abort (client : Nat) (r : Request) : Request :=
  if r.client = client then { r with aborted := true } else r

/-- what a request gives: nothing is run if its arguments are refused -/
def Request.answer (host : Host V) (r : Request) (outcome : Outcome) : Except ClientError V :=
  match r.args with
  | .error e => .error e
  | .ok _ => UiSessionClient.run host r.stage.operation r.aborted outcome

namespace DocumentSession
variable (s : DocumentSession V)

/-- `run`, which cancels the active request of the client; it is not reached if the arguments of the
request are refused -/
def send (client : Nat) (stage : Stage) (args : Except ClientError (List Str)) :
    DocumentSession V :=
  { s with
    requests := (if args.isOk then s.requests.map (abort client) else s.requests) ++
      [⟨client, s.generation, stage, args, false, s.time⟩] }

/-- what a reload finds before it starts a client: whether the workspace is trusted, and whether the
document and the binary are accepted -/
structure Checks where
  isTrusted : Bool
  validation : Except ClientError Str
  binary : Except ClientError Unit

def reload (checks : Checks) : DocumentSession V :=
  let s := { s with
    generation := s.generation + 1
    requests := match s.client with
      | none => s.requests
      | some client => s.requests.map (abort client)
    client := none
    state := { s.state with
      phase := .loading
      busy := some .reload
      message := some (units "Loading session…")
      errorKind := none
      detail := none
      events := none
      summary := none
      stale := false
      tornTail := false } }
  if ¬ checks.isTrusted then
    { s with
      state := { s.state with
        busy := none
        phase := .workspaceUntrusted
        message := some (units "Workspace Trust is required to run the local dtj binary") } }
  else
    match checks.validation with
    | .error e =>
      { s with
        state := { s.state with
          busy := none
          phase := .unsupportedDocument
          message := some e.message
          errorKind := some e.kind } }
    | .ok fsPath =>
      let s := { s with fsPath }
      match checks.binary with
      | .error e =>
        { s with
          state := { s.state with
            busy := none
            phase := .nativeReaderUnavailable
            message := some e.message
            errorKind := some e.kind } }
      | .ok () =>
        { s with
          client := some s.clients
          clients := s.clients + 1 }.send s.clients .reloadHello (.ok buildHelloArgv)

def loadEvents (host : Host V) (offset : Str) (limit : Nat) (filters : EventFilters)
    (queryText : Option Str) : DocumentSession V :=
  match s.client with
  | none => s
  | some client =>
    let s := { s with
      generation := s.generation + 1
      state := { s.state with
        filters
        offset
        limit
        queryText := queryText.getD (host.formatTraceqlSubset filters limit)
        busy := some .events
        errorKind := none
        message := none } }
    s.send client .loadEvents (s.state.query s.fsPath)

def runQuery (host : Host V) (text : Str) : DocumentSession V :=
  match s.client with
  | none => s
  | some _ =>
    let s := { s with
      state := { s.state with
        queryText := text } }
    match host.parseTraceqlSubset text with
    | .error message =>
      { s with
        state := { s.state with
          busy := none
          errorKind := some (units "TraceqlSubsetError")
          message := some message
          events := none
          detail := none
          selectedSequence := none
          phase := if s.state.summary.isSome then browsing s.state.stale else s.state.phase } }
    | .ok (filters, limit) => s.loadEvents host (units "0") limit filters (some text)

def selectEvent (sequence : Str) : DocumentSession V :=
  match s.client with
  | none => s
  | some client =>
    let s := { s with
      generation := s.generation + 1
      state := { s.state with
        busy := some .event
        selectedSequence := some sequence
        errorKind := none
        message := none } }
    s.send client .selectEvent (buildEventArgv s.fsPath sequence)

/-- the callback of the watcher -/
def markStale : DocumentSession V :=
  { s with
    state := { s.state with
      stale := true
      phase := if s.state.phase = .ready ∨ s.state.phase = .stale then .stale else s.state.phase } }

/-- a reload after its summary: the query of the bar, if it can be parsed, or the last one -/
def summarized (host : Host V) (r : Request) (summary : V) : DocumentSession V :=
  let limit := if s.state.limit = 0 then EVENTS_PAGE_DEFAULT else s.state.limit
  let text := if s.state.queryText = [] then DEFAULT_TRACEQL_QUERY else s.state.queryText
  let state := { s.state with
    summary := some summary
    tornTail := host.tornTail summary }
  match host.parseTraceqlSubset text with
  | .ok (filters, limit) =>
    let s := { s with
      state := { state with
        filters
        limit } }
    s.send r.client .reloadEvents (s.state.query s.fsPath)
  | .error _ =>
    { s with state }.send r.client .reloadEvents
      (buildEventsArgv s.fsPath ⟨s.state.offset, limit, s.state.filters⟩)

/-- an operation goes on, unless another has started in the meantime -/
def resumed (host : Host V) (r : Request) (result : Except ClientError V) : DocumentSession V :=
  if r.generation ≠ s.generation then s
  else
    match r.stage, result with
    | .reloadHello, .error e => { s with state := mapClientError e s.state }
    | .reloadHello, .ok _ => s.send r.client .reloadSummary (.ok (buildSummaryArgv s.fsPath))
    | .reloadSummary, .error e => { s with state := mapReaderOrNativeError e s.state }
    | .reloadSummary, .ok summary => s.summarized host r summary
    | .reloadEvents, .error e =>
      { s with
        state := mapReaderOrNativeError e { s.state with
          events := none
          detail := none } }
    | .reloadEvents, .ok events =>
      { s with
        state := { s.state with
          busy := none
          phase := .ready
          message := none
          errorKind := none
          events := some ⟨events, r.issued⟩
          stale := false }
        watcher := true
        saving := s.saving + 1 }
    | .loadEvents, .error e =>
      { s with
        state := mapBrowseOpError e { s.state with
          events := none
          detail := none } }
    | .loadEvents, .ok events =>
      { s with
        state := { s.state with
          busy := none
          phase := browsing s.state.stale
          events := some ⟨events, r.issued⟩
          tornTail := host.tornTail events
          errorKind := none
          message := none
          detail := none
          selectedSequence := none } }
    | .selectEvent, .error e =>
      { s with
        state := mapBrowseOpError e { s.state with
          detail := none } }
    | .selectEvent, .ok detail =>
      { s with
        state := { s.state with
          busy := none
          detail := some detail
          errorKind := none
          message := none
          phase := browsing s.state.stale } }

/-- the end of a reload: the selected event is loaded again -/
def reselect : DocumentSession V :=
  match s.state.selectedSequence with
  | none => s
  | some sequence => if sequence = [] then s else s.selectEvent sequence

end DocumentSession

/-! ## turns of the event loop -/

/-- a message of the webview or a command, a change of the file, the answer of the request `i` or
the end of a `persistNav`; the query file that is open may also be saved -/
inductive Action where
  | refresh (checks : DocumentSession.Checks)
  | runQuery (text : Str)
  | loadEvents (offset : Str) (limit : Nat) (filters : EventFilters)
  | selectEvent (sequence : Str)
  | saved (text : Str)
  | changed
  | answered (i : Nat) (outcome : Outcome)
  | persisted

/-- a filter of a message that `normalizeFilters` lets through -/
def normal (filter : Option Str) : Bool :=
  filter.all fun value => value ≠ [] && value.length ≤ FILTER_MAX_CHARS && 0 ∉ value

/-- the messages that `parseWebviewMessage` lets through -/
def acceptsEvents (offset : Str) (limit : Nat) (filters : EventFilters) : Bool :=
  isCanonicalDecimalU64 offset && (1 ≤ limit && limit ≤ EVENTS_PAGE_MAX) &&
    [filters.domain, filters.category, filters.eventName, filters.severity,
      filters.correlation].all normal

/-- a turn; there is none if the action is not possible -/
def turn (host : Host V) (s : DocumentSession V) : Action → Option (DocumentSession V)
  | .refresh checks => some (s.reload checks)
  | .runQuery text => some (s.runQuery host text)
  | .loadEvents offset limit filters =>
    if acceptsEvents offset limit filters then some (s.loadEvents host offset limit filters none)
    else none
  | .selectEvent sequence =>
    if isCanonicalDecimalU64 sequence then some (s.selectEvent sequence) else none
  | .saved text =>
    some { s with
      state := { s.state with
        queryText := text } }
  | .changed => if s.watcher then some s.markStale else none
  | .answered i outcome =>
    s.requests[i]?.map fun r =>
      { s with requests := s.requests.eraseIdx i }.resumed host r (r.answer host outcome)
  | .persisted =>
    if s.saving = 0 then none else some { s with saving := s.saving - 1 }.reselect

def step (host : Host V) (s : DocumentSession V) (a : Action) : Option (DocumentSession V) :=
  (turn host s a).map fun s' => { s' with time := s.time + 1 }

/-! ## the current request -/

/-- `o` is the request of this generation; all others are superseded -/
structure Waits (requests : List Request) (generation : Nat) (o : Option Request) : Prop where
  le : ∀ r ∈ requests, r.generation ≤ generation
  nodup : (requests.map (·.generation)).Nodup
  current : ∀ r ∈ requests, r.generation = generation → o = some r
  mem : ∀ r, o = some r → r ∈ requests ∧ r.generation = generation

section
variable {requests : List Request} {generation : Nat} {o : Option Request}

theorem waits_nil : Waits [] generation none where
  le := by
    intro r hr
    cases hr
  nodup := List.nodup_nil
  current := by
    intro r hr
    cases hr
  mem := by
    intro r hr
    cases hr

/-- an operation starts: whatever was current is superseded -/
theorem Waits.next (h : Waits requests generation o) : Waits requests (generation + 1) none where
  le := fun r hr => Nat.le_succ_of_le (h.le r hr)
  nodup := h.nodup
  current := by
    intro r hr hgen
    have hle := h.le r hr
    omega
  mem := by
    intro r hr
    cases hr

theorem generation_abort (client : Nat) (requests : List Request) :
    (requests.map (abort client)).map (·.generation) = requests.map (·.generation) := by
  rw [List.map_map]
  refine List.map_congr_left fun r _ => ?_
  show (abort client r).generation = r.generation
  unfold abort
  split <;> rfl

theorem Waits.abort (h : Waits requests generation none) (client : Nat) :
    Waits (requests.map (abort client)) generation none := by
  have hmem : ∀ r ∈ requests.map (Explorer.abort client),
      ∃ r' ∈ requests, r'.generation = r.generation := by
    intro r hr
    rw [← List.mem_map, ← generation_abort client requests]
    exact List.mem_map_of_mem hr
  refine ⟨fun r hr => ?_, ?_, fun r hr hgen => ?_, fun r hr => ?_⟩
  · obtain ⟨r', hr', hgen⟩ := hmem r hr
    rw [← hgen]
    exact h.le r' hr'
  · rw [generation_abort]
    exact h.nodup
  · obtain ⟨r', hr', hgen'⟩ := hmem r hr
    have hnone := h.current r' hr' (hgen'.trans hgen)
    cases hnone
  · cases hr

/-- a reload starts, and disposes of the client -/
theorem Waits.disposed (h : Waits requests generation o) (client : Option Nat) :
    Waits (match client with
      | none => requests
      | some client => requests.map (Explorer.abort client)) (generation + 1) none := by
  cases client with
  | none => exact h.next
  | some client => exact h.next.abort client

/-- **a request is sent**: it is the current one -/
theorem Waits.send {V : Type} {s : DocumentSession V} (h : Waits s.requests s.generation none)
    (client : Nat) (stage : Stage) (args : Except ClientError (List Str)) :
    Waits (s.send client stage args).requests (s.send client stage args).generation
      (some ⟨client, s.generation, stage, args, false, s.time⟩) := by
  have hold : Waits (if args.isOk then s.requests.map (Explorer.abort client) else s.requests)
      s.generation none := by
    split
    · exact h.abort client
    · exact h
  have hlt : ∀ r ∈ (if args.isOk then s.requests.map (Explorer.abort client) else s.requests),
      r.generation ≠ s.generation := by
    intro r hr hgen
    cases hold.current r hr hgen
  refine ⟨fun r hr => ?_, ?_, fun r hr hgen => ?_, fun r hr => ?_⟩
  · obtain hr | hr := List.mem_append.mp hr
    · exact hold.le r hr
    · rw [List.mem_singleton.mp hr]
      exact le_refl s.generation
  · refine (List.map_append ▸ List.nodup_append.mpr ⟨hold.nodup, List.nodup_singleton _, ?_⟩)
    intro g hg g' hg'
    obtain ⟨r, hr, rfl⟩ := List.mem_map.mp hg
    rw [List.mem_singleton.mp hg']
    exact hlt r hr
  · obtain hr | hr := List.mem_append.mp hr
    · exact absurd hgen (hlt r hr)
    · rw [List.mem_singleton.mp hr]
  · cases hr
    exact ⟨List.mem_append_right _ (List.mem_singleton.mpr rfl), rfl⟩

/-- **a request is answered**: if it is the current one, none is left -/
theorem Waits.settle (h : Waits requests generation o) {i : Nat} {r : Request}
    (hr : requests[i]? = some r) : Waits (requests.eraseIdx i) generation
      (if r.generation = generation then none else o) := by
  obtain ⟨hi, hget⟩ := List.getElem?_eq_some_iff.mp hr
  have hsplit : requests = requests.take i ++ r :: requests.drop (i + 1) := by
    rw [← hget, ← List.drop_eq_getElem_cons hi, List.take_append_drop]
  have herase : requests.eraseIdx i = requests.take i ++ requests.drop (i + 1) :=
    List.eraseIdx_eq_take_drop_succ _ _
  have hsub : ∀ r' ∈ requests.eraseIdx i, r' ∈ requests := fun r' hr' =>
    List.mem_of_mem_eraseIdx hr'
  have hnodup := h.nodup
  rw [hsplit, List.map_append, List.map_cons, List.nodup_middle] at hnodup
  obtain ⟨hnew, hrest⟩ := List.nodup_cons.mp hnodup
  rw [← List.map_append, ← herase] at hnew hrest
  have hother : ∀ r' ∈ requests.eraseIdx i, r'.generation ≠ r.generation := fun r' hr' hgen =>
    hnew (hgen ▸ List.mem_map_of_mem hr')
  refine ⟨fun r' hr' => h.le r' (hsub r' hr'), hrest, fun r' hr' hgen => ?_, fun r' hr' => ?_⟩
  · rw [if_neg fun heq => hother r' hr' (hgen.trans heq.symm)]
    exact h.current r' (hsub r' hr') hgen
  · split at hr'
    · cases hr'
    · rename_i hne
      obtain ⟨hmem, hgen⟩ := h.mem r' hr'
      refine ⟨?_, hgen⟩
      rw [hsplit] at hmem
      rw [herase]
      obtain hmem | hmem := List.mem_append.mp hmem
      · exact List.mem_append_left _ hmem
      obtain rfl | hmem := List.mem_cons.mp hmem
      · exact absurd hgen hne
      · exact List.mem_append_right _ hmem

end

end

end Dtj.Explorer
