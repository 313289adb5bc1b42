import Dtj.Explorer.Session

/-!
# The explorer: what is shown belongs to its query, and no change of the file is forgotten

Whatever is sent, answered and changed, in whatever order: the generation of a document says which
answer counts, but an operation that starts while another one waits leaves what that one has begun.

* `Answer`            a value that the binary may print for some arguments;
* `Consistent`        **what is shown is the answer to the query that is shown**;
* `Holds`             what is true of the state while a request is current, stage by stage;
* `turn_invariant`, `consistent_of_run`   orderly runs show what belongs together;
* `late_notices`, `change_kept`       a change stays marked, if no reload waits for its events.
-/

namespace Dtj.Explorer
open Sdk.TypeScript (Str units)

section
variable {V : Type} (host : Host V) (prints : List Str → Str → Prop)

/-- a value of an answer that the binary gives for these arguments; `prints` says what it may print -/
def Answer (operation : UiOperation) (args : Except ClientError (List Str)) (v : V) : Prop :=
  ∃ arguments stdout, args = .ok arguments ∧ prints arguments stdout ∧
    host.decode operation stdout = .ok v

/-- the events are shown that belong to the query of the state -/
structure Shown (fsPath : Str) (state : ExplorerUiState V) : Prop where
  summary : state.summary.isSome = true
  events : ∃ page, state.events = some page ∧
    Answer host prints .events (state.query fsPath) page.value

/-- the detail belongs to the sequence that is selected -/
def Detailed (fsPath : Str) (state : ExplorerUiState V) : Prop :=
  ∀ v, state.detail = some v → ∃ sequence, state.selectedSequence = some sequence ∧
    Answer host prints .event (buildEventArgv fsPath sequence) v

/-- **what is shown is the answer to the query that is shown** -/
def DocumentSession.Consistent (s : DocumentSession V) : Prop :=
  s.requests = [] → s.state.phase = .ready ∨ s.state.phase = .stale → s.state.errorKind = none →
    Shown host prints s.fsPath s.state ∧ Detailed host prints s.fsPath s.state

/-- what the binary prints is possible, if it runs -/
def Genuine (s : DocumentSession V) : Action → Prop
  | .answered i (.resolved proc) => ∀ r args, s.requests[i]? = some r → r.args = .ok args →
    prints args proc.stdout
  | _ => True

/-! ## orderly runs -/

namespace DocumentSession
variable (s : DocumentSession V)

/-- an operation waits at this stage, and no other has started since -/
def Waiting (stage : Stage) : Prop :=
  ∃ r ∈ s.requests, r.generation = s.generation ∧ r.stage = stage

/-- there are a summary and events, and no reload and no query waits for others -/
structure Settled : Prop where
  summary : s.state.summary.isSome = true
  events : s.state.events.isSome = true
  waiting : ∀ stage, s.Waiting stage → stage = .selectEvent

end DocumentSession

/-- an event is selected when events are shown and no others are asked for, events are asked for
when there is a summary, and no query is refused while the detail of an event is waited for -/
def Orderly (s : DocumentSession V) (a : Action) : Prop :=
  s.client = none ∨
  match a with
  | .selectEvent _ => s.Settled
  | .persisted => s.state.selectedSequence = none ∨ s.state.selectedSequence = some [] ∨ s.Settled
  | .loadEvents _ _ _ => s.state.summary.isSome = true
  | .runQuery text =>
    if (host.parseTraceqlSubset text).isOk then s.state.summary.isSome = true
    else ¬ s.Waiting .selectEvent
  | _ => True

/-- what is true of the state while the request `o` is current -/
inductive Holds (fsPath : Str) (state : ExplorerUiState V) : Option Request → Prop
  | idle (hevents : ∀ page, state.events = some page →
        Answer host prints .events (state.query fsPath) page.value)
      (hbrowsing : state.phase = .ready ∨ state.phase = .stale → state.errorKind = none →
        state.summary.isSome = true ∧ state.events.isSome = true)
      (hdetail : Detailed host prints fsPath state) : Holds fsPath state none
  | loading {r} (hr : r.stage = .reloadHello ∨ r.stage = .reloadSummary)
      (hevents : state.events = none) (hdetail : state.detail = none) :
      Holds fsPath state (some r)
  | reloading {r} (hr : r.stage = .reloadEvents) (hargs : r.args = state.query fsPath)
      (hsummary : state.summary.isSome = true) (hdetail : state.detail = none) :
      Holds fsPath state (some r)
  | asking {r} (hr : r.stage = .loadEvents) (hargs : r.args = state.query fsPath)
      (hsummary : state.summary.isSome = true) : Holds fsPath state (some r)
  | selecting {r sequence} (hr : r.stage = .selectEvent)
      (hargs : r.args = buildEventArgv fsPath sequence)
      (hselected : state.selectedSequence = some sequence)
      (hshown : Shown host prints fsPath state) : Holds fsPath state (some r)

/-- **the invariant of orderly runs** -/
structure Invariant (s : DocumentSession V) : Prop where
  limit : 0 < s.state.limit
  current : ∃ o, Waits s.requests s.generation o ∧ Holds host prints s.fsPath s.state o

variable {host prints} {s : DocumentSession V}

/-- in every state of the invariant in which no request is left, what is shown belongs together -/
theorem Invariant.consistent (h : Invariant host prints s) : s.Consistent host prints := by
  intro hnone hphase herror
  obtain ⟨o, hw, ho⟩ := h.current
  cases ho with
  | idle hevents hbrowsing hdetail =>
    obtain ⟨hsummary, hsome⟩ := hbrowsing hphase herror
    obtain ⟨page, hpage⟩ := Option.isSome_iff_exists.mp hsome
    exact ⟨⟨hsummary, page, hpage, hevents page hpage⟩, hdetail⟩
  | loading | reloading | asking | selecting =>
    have hmem := (hw.mem _ rfl).1
    rw [hnone] at hmem
    cases hmem

theorem opened_invariant {fsPath : Str} {filters : EventFilters} {offset : Str}
    {selectedSequence : Option Str} {queryText : Str} :
    Invariant host prints (opened fsPath filters offset selectedSequence queryText) := by
  refine ⟨Nat.zero_lt_succ 99, none, waits_nil, .idle ?_ ?_ ?_⟩
  · intro page h
    cases h
  · rintro (h | h) <;> cases h
  · intro v h
    cases h

/-- an error that is shown, on a state without events -/
theorem holds_failed {e : ClientError} {fsPath : Str} {base state : ExplorerUiState V}
    (h : Failed e base state) (hevents : ∀ page, base.events = some page →
      Answer host prints .events (base.query fsPath) page.value) (hdetail : base.detail = none) :
    Holds host prints fsPath state none := by
  have hquery : state.query fsPath = base.query fsPath := by
    rw [ExplorerUiState.query, ExplorerUiState.query, h.query.1, h.query.2.1, h.query.2.2]
  refine .idle (fun page hpage => ?_) (fun _ herror => ?_) (fun v hv => ?_)
  · obtain heq | heq := h.events
    · rw [hquery]
      exact hevents page (heq ▸ hpage)
    · rw [heq] at hpage
      cases hpage
  · rw [h.shown] at herror
    cases herror
  · obtain heq | heq := h.detail
    · rw [heq, hdetail] at hv
      cases hv
    · rw [heq] at hv
      cases hv

/-- nothing depends on the text of the bar -/
theorem Holds.saved {fsPath : Str} {state : ExplorerUiState V} {o : Option Request}
    (h : Holds host prints fsPath state o) (text : Str) :
    Holds host prints fsPath { state with queryText := text } o := by
  cases h with
  | idle hevents hbrowsing hdetail => exact .idle hevents hbrowsing hdetail
  | loading hr hevents hdetail => exact .loading hr hevents hdetail
  | reloading hr hargs hsummary hdetail => exact .reloading hr hargs hsummary hdetail
  | asking hr hargs hsummary => exact .asking hr hargs hsummary
  | selecting hr hargs hselected hshown =>
    exact .selecting hr hargs hselected ⟨hshown.summary, hshown.events⟩

/-- a change of the file marks a phase that it leaves -/
theorem Holds.changed {fsPath : Str} {state : ExplorerUiState V} {o : Option Request}
    (h : Holds host prints fsPath state o) : Holds host prints fsPath { state with
      stale := true
      phase := if state.phase = .ready ∨ state.phase = .stale then .stale else state.phase } o := by
  cases h with
  | idle hevents hbrowsing hdetail =>
    refine .idle hevents (fun hphase herror => ?_) hdetail
    dsimp only at hphase
    split at hphase
    · exact hbrowsing ‹_› herror
    · exact absurd hphase ‹_›
  | loading hr hevents hdetail => exact .loading hr hevents hdetail
  | reloading hr hargs hsummary hdetail => exact .reloading hr hargs hsummary hdetail
  | asking hr hargs hsummary => exact .asking hr hargs hsummary
  | selecting hr hargs hselected hshown =>
    exact .selecting hr hargs hselected ⟨hshown.summary, hshown.events⟩

theorem reload_invariant {checks : DocumentSession.Checks} (h : Invariant host prints s) :
    Invariant host prints (s.reload checks) := by
  obtain ⟨o, hw, _⟩ := h.current
  have hnext := hw.disposed s.client
  have hfail {fsPath : Str} {state : ExplorerUiState V} (phase : Phase)
      (hevents : state.events = none) (hdetail : state.detail = none) (hphase : state.phase = phase)
      (hother : ¬ (phase = .ready ∨ phase = .stale)) : Holds host prints fsPath state none := by
    refine .idle (fun page hpage => ?_) (fun h => absurd (hphase ▸ h) hother) (fun v hv => ?_)
    · rw [hevents] at hpage
      cases hpage
    · rw [hdetail] at hv
      cases hv
  unfold DocumentSession.reload
  dsimp only
  split
  · exact ⟨h.limit, none, hnext, hfail .workspaceUntrusted rfl rfl rfl (by decide)⟩
  split
  · exact ⟨h.limit, none, hnext, hfail .unsupportedDocument rfl rfl rfl (by decide)⟩
  split
  · exact ⟨h.limit, none, hnext, hfail .nativeReaderUnavailable rfl rfl rfl (by decide)⟩
  · exact ⟨h.limit, _, Waits.send hnext _ _ _, .loading (.inl rfl) rfl rfl⟩

theorem loadEvents_invariant {offset : Str} {limit : Nat} {filters : EventFilters}
    {queryText : Option Str} (h : Invariant host prints s) (hlimit : 0 < limit)
    (hsummary : s.client = none ∨ s.state.summary.isSome = true) :
    Invariant host prints (s.loadEvents host offset limit filters queryText) := by
  obtain ⟨o, hw, _⟩ := h.current
  unfold DocumentSession.loadEvents
  cases hc : s.client with
  | none => exact h
  | some client =>
    have hsome : s.state.summary.isSome = true := by
      obtain h' | h' := hsummary
      · rw [hc] at h'
        cases h'
      · exact h'
    exact ⟨hlimit, _, Waits.send hw.next _ _ _, .asking rfl rfl hsome⟩

theorem runQuery_invariant {text : Str} (h : Invariant host prints s)
    (horderly : Orderly host s (.runQuery text)) :
    Invariant host prints (s.runQuery host text) := by
  unfold DocumentSession.runQuery
  cases hc : s.client with
  | none => exact h
  | some client =>
    have hquery := horderly.resolve_left (by rw [hc]; exact Option.some_ne_none client)
    dsimp only at hquery ⊢
    cases hp : host.parseTraceqlSubset text with
    | ok parsed =>
      obtain ⟨filters, limit⟩ := parsed
      rw [hp] at hquery
      obtain ⟨o, hw, ho⟩ := h.current
      exact loadEvents_invariant (s := { s with
        client := some client
        state := { s.state with
          queryText := text } }) ⟨h.limit, o, hw, ho.saved text⟩ (host.limit_range _ _ _ hp).1
        (.inr hquery)
    | error message =>
      rw [hp] at hquery
      obtain ⟨o, hw, ho⟩ := h.current
      refine ⟨h.limit, o, hw, ?_⟩
      cases ho with
      | idle h1 h2 h3 =>
        refine .idle (fun page hpage => ?_) (fun _ herror => ?_) (fun v hv => ?_)
        · cases hpage
        · cases herror
        · cases hv
      | loading h1 => exact .loading h1 rfl rfl
      | reloading h1 h2 h3 => exact .reloading h1 h2 h3 rfl
      | asking h1 h2 h3 => exact .asking h1 h2 h3
      | selecting h1 =>
        obtain ⟨hmem, hgen⟩ := hw.mem _ rfl
        exact absurd ⟨_, hmem, hgen, h1⟩ hquery

theorem selectEvent_invariant {sequence : Str} (h : Invariant host prints s)
    (hsettled : s.client = none ∨ s.Settled) : Invariant host prints (s.selectEvent sequence) := by
  obtain ⟨o, hw, ho⟩ := h.current
  unfold DocumentSession.selectEvent
  cases hc : s.client with
  | none => exact h
  | some client =>
    have hs := hsettled.resolve_left (by rw [hc]; exact Option.some_ne_none client)
    have hshown : Shown host prints s.fsPath s.state := by
      have hno {r : Request} {stage : Stage} (hr : r.stage = stage) (hne : stage ≠ .selectEvent)
          (ho : o = some r) : False := by
        obtain ⟨hmem, hgen⟩ := hw.mem r ho
        exact hne (hs.waiting stage ⟨r, hmem, hgen, hr⟩)
      cases ho with
      | idle hevents =>
        obtain ⟨page, hpage⟩ := Option.isSome_iff_exists.mp hs.events
        exact ⟨hs.summary, page, hpage, hevents page hpage⟩
      | loading hr =>
        obtain hr | hr := hr
        · exact (hno hr (by decide) rfl).elim
        · exact (hno hr (by decide) rfl).elim
      | reloading hr => exact (hno hr (by decide) rfl).elim
      | asking hr => exact (hno hr (by decide) rfl).elim
      | selecting _ _ _ hshown => exact hshown
    exact ⟨h.limit, _, Waits.send hw.next _ _ _,
      .selecting rfl rfl rfl ⟨hshown.summary, hshown.events⟩⟩

/-- what a request that was sent with these arguments gives -/
theorem answer_ok {r : Request} {i : Nat} {outcome : Outcome} {v : V}
    (hr : s.requests[i]? = some r) (hgenuine : Genuine prints s (.answered i outcome))
    (h : r.answer host outcome = .ok v) :
    Answer host prints r.stage.operation r.args v := by
  unfold Request.answer at h
  cases hargs : r.args with
  | error e =>
    rw [hargs] at h
    cases h
  | ok args =>
    rw [hargs] at h
    obtain ⟨proc, rfl, hdecode⟩ := run_ok h
    exact ⟨args, proc.stdout, rfl, hgenuine r args hr hargs, hdecode⟩

/-- **the current request is answered**, and none is left -/
theorem resumed_invariant {r : Request} {result : Except ClientError V}
    (hlimit : 0 < s.state.limit) (hgen : r.generation = s.generation)
    (hw : Waits s.requests s.generation none) (ho : Holds host prints s.fsPath s.state (some r))
    (hanswer : ∀ v, result = .ok v → Answer host prints r.stage.operation r.args v) :
    Invariant host prints (s.resumed host r result) := by
  unfold DocumentSession.resumed
  rw [if_neg (not_not.mpr hgen)]
  cases ho with
  | loading hr hevents hdetail =>
    have hnone : ∀ page, s.state.events = some page →
        Answer host prints .events (s.state.query s.fsPath) page.value := by
      intro page hpage
      rw [hevents] at hpage
      cases hpage
    obtain hr | hr := hr
    · rw [hr]
      cases result with
      | error e =>
        have hfailed := mapClientError_failed e s.state
        exact ⟨hfailed.query.2.1 ▸ hlimit, none, hw, holds_failed hfailed hnone hdetail⟩
      | ok v => exact ⟨hlimit, _, hw.send _ _ _, .loading (.inr rfl) hevents hdetail⟩
    · rw [hr]
      cases result with
      | error e =>
        have hfailed := mapReaderOrNativeError_failed e s.state
        exact ⟨hfailed.query.2.1 ▸ hlimit, none, hw, holds_failed hfailed hnone hdetail⟩
      | ok summary =>
        dsimp only
        unfold DocumentSession.summarized
        dsimp only
        split
        · rename_i filters limit hp
          refine ⟨(host.limit_range _ _ _ hp).1, _, Waits.send hw _ _ _, ?_⟩
          exact .reloading rfl rfl rfl hdetail
        · refine ⟨hlimit, _, Waits.send hw _ _ _, .reloading rfl ?_ rfl hdetail⟩
          rw [if_neg (Nat.pos_iff_ne_zero.mp hlimit)]
          rfl
  | reloading hr hargs hsummary hdetail =>
    rw [hr] at hanswer ⊢
    cases result with
    | error e =>
      have hfailed := mapReaderOrNativeError_failed e { s.state with
        events := none
        detail := none }
      refine ⟨hfailed.query.2.1 ▸ hlimit, none, hw, holds_failed hfailed (fun page hpage => ?_) rfl⟩
      cases hpage
    | ok events =>
      refine ⟨hlimit, none, hw, .idle (fun page hpage => ?_) (fun _ _ => ⟨hsummary, rfl⟩)
        (fun v hv => ?_)⟩
      · cases hpage
        rw [hargs] at hanswer
        exact hanswer events rfl
      · have hv' : s.state.detail = some v := hv
        rw [hdetail] at hv'
        cases hv'
  | asking hr hargs hsummary =>
    rw [hr] at hanswer ⊢
    cases result with
    | error e =>
      have hfailed := mapBrowseOpError_failed e { s.state with
        events := none
        detail := none }
      refine ⟨hfailed.query.2.1 ▸ hlimit, none, hw, holds_failed hfailed (fun page hpage => ?_) rfl⟩
      cases hpage
    | ok events =>
      refine ⟨hlimit, none, hw, .idle (fun page hpage => ?_) (fun _ _ => ⟨hsummary, rfl⟩)
        (fun v hv => ?_)⟩
      · cases hpage
        rw [hargs] at hanswer
        exact hanswer events rfl
      · cases hv
  | selecting hr hargs hselected hshown =>
    rw [hr] at hanswer ⊢
    obtain ⟨page, hpage, hpageAnswer⟩ := hshown.events
    cases result with
    | error e =>
      have hfailed := mapBrowseOpError_failed e { s.state with
        detail := none }
      refine ⟨hfailed.query.2.1 ▸ hlimit, none, hw, holds_failed hfailed (fun page' hpage' => ?_) rfl⟩
      cases hpage.symm.trans hpage'
      exact hpageAnswer
    | ok detail =>
      refine ⟨hlimit, none, hw, .idle (fun page' hpage' => ?_)
        (fun _ _ => ⟨hshown.summary, ?_⟩) (fun v hv => ?_)⟩
      · cases hpage.symm.trans hpage'
        exact hpageAnswer
      · show s.state.events.isSome = true
        rw [hpage]
        rfl
      · cases hv
        rw [hargs] at hanswer
        exact ⟨_, hselected, hanswer detail rfl⟩

/-- **one turn of an orderly run** -/
theorem turn_invariant {s' : DocumentSession V} {a : Action} (h : Invariant host prints s)
    (hgenuine : Genuine prints s a) (horderly : Orderly host s a) (hturn : turn host s a = some s') :
    Invariant host prints s' := by
  obtain ⟨o, hw, ho⟩ := h.current
  cases a with
  | refresh checks =>
    cases hturn
    exact reload_invariant h
  | runQuery text =>
    cases hturn
    exact runQuery_invariant h horderly
  | loadEvents offset limit filters =>
    obtain ⟨haccepts, hs'⟩ := Option.ite_none_right_eq_some.mp hturn
    cases hs'
    refine loadEvents_invariant h ?_ horderly
    simp only [acceptsEvents, Bool.and_eq_true, decide_eq_true_eq] at haccepts
    exact haccepts.1.2.1
  | selectEvent sequence =>
    obtain ⟨_, hs'⟩ := Option.ite_none_right_eq_some.mp hturn
    cases hs'
    exact selectEvent_invariant h horderly
  | saved text =>
    cases hturn
    exact ⟨h.limit, o, hw, ho.saved text⟩
  | changed =>
    obtain ⟨_, hs'⟩ := Option.ite_none_right_eq_some.mp hturn
    cases hs'
    exact ⟨h.limit, o, hw, ho.changed⟩
  | answered i outcome =>
    obtain ⟨r, hr, rfl⟩ := Option.map_eq_some_iff.mp hturn
    have hsettle := hw.settle hr
    by_cases hgen : r.generation = s.generation
    · cases hw.current r (List.mem_of_getElem? hr) hgen
      rw [if_pos hgen] at hsettle
      refine resumed_invariant h.limit hgen hsettle ho fun v hv => ?_
      exact answer_ok hr hgenuine hv
    · rw [if_neg hgen] at hsettle
      unfold DocumentSession.resumed
      rw [if_pos hgen]
      exact ⟨h.limit, o, hsettle, ho⟩
  | persisted =>
    obtain ⟨_, hs'⟩ := Option.ite_none_left_eq_some.mp hturn
    cases hs'
    unfold DocumentSession.reselect
    dsimp only
    split
    · exact ⟨h.limit, o, hw, ho⟩
    rename_i sequence hselected
    split
    · exact ⟨h.limit, o, hw, ho⟩
    · rename_i hne
      refine selectEvent_invariant ⟨h.limit, o, hw, ho⟩ ?_
      obtain hc | hnone | hempty | hsettled := horderly
      · exact .inl hc
      · rw [hselected] at hnone
        cases hnone
      · rw [hselected] at hempty
        exact absurd (Option.some.inj hempty) hne
      · exact .inr ⟨hsettled.summary, hsettled.events, hsettled.waiting⟩

/-- **orderly runs show what belongs together**: in every state of the run in which no request is
in flight -/
theorem consistent_of_run {fsPath : Str} {filters : EventFilters} {offset : Str}
    {selectedSequence : Option Str} {queryText : Str} {as : List Action}
    (h : Trace (step host) (fun s a => Genuine prints s a ∧ Orderly host s a)
      (opened fsPath filters offset selectedSequence queryText) as s) :
    s.Consistent host prints := by
  refine (h.invariant (fun s a s' hs hok _ hstep => ?_) opened_invariant).consistent
  obtain ⟨s₁, hturn, rfl⟩ := Option.map_eq_some_iff.mp hstep
  obtain ⟨hlimit, hcurrent⟩ := turn_invariant hs hok.1 hok.2 hturn
  exact ⟨hlimit, hcurrent⟩

end

/-! ## runs on a small journal -/

section

def noFilters : EventFilters := ⟨none, none, none, none, none⟩
def onlyNet : EventFilters := ⟨some (units "net"), none, none, none, none⟩

/-- a journal with two events, of which one is in the domain `net` -/
def exampleStdout (args : List Str) : Str :=
  if units "hello" ∈ args then units "hello"
  else if units "summary" ∈ args then units "two events"
  else if units "event" ∈ args then units "the first event"
  else if units "--domain" ∈ args then units "one event"
  else units "both events"

def examplePrints (args : List Str) (stdout : Str) : Prop := stdout = exampleStdout args

def exampleHost : Host Str where
  decode _ stdout :=
    if stdout = [] then .error ⟨units "NativeProtocolError", units "empty stdout"⟩ else .ok stdout
  tornTail _ := false
  parseTraceqlSubset text :=
    if text = DEFAULT_TRACEQL_QUERY then .ok (noFilters, 100) else .error (units "expected FROM")
  formatTraceqlSubset filters limit :=
    units "FROM events" ++ (match filters.domain with
      | none => []
      | some domain => units " WHERE domain = \"" ++ domain ++ units "\"") ++
      units s!" LIMIT {limit}"
  limit_range := by
    intro text filters limit h
    split at h
    · cases h
      decide
    · cases h

def printed (text : String) : Outcome := .resolved ⟨units text, some 0, false, false, false⟩

def exampleOpened : DocumentSession Str :=
  opened (units "/tmp/a.dtj") noFilters (units "0") none DEFAULT_TRACEQL_QUERY

/-- what is printed belongs to the arguments -/
def genuine (s : DocumentSession Str) : Action → Bool
  | .answered i (.resolved proc) =>
    s.requests[i]?.all fun r => r.args.toOption.all fun args => proc.stdout = exampleStdout args
  | _ => true

theorem genuine_iff {s : DocumentSession Str} {a : Action} (h : genuine s a = true) :
    Genuine examplePrints s a := by
  unfold Genuine
  split
  · intro r args hr hargs
    simp only [genuine, hr, hargs, Except.toOption, Option.all_some, decide_eq_true_eq] at h
    exact h
  · trivial

/-- what can be seen of a document, and what the binary prints for its query -/
structure Look where
  waiting : Nat
  phase : Phase
  errorKind : Option Str
  stale : Bool
  events : Option Str
  asked : Option Str
deriving DecidableEq

def look (s : DocumentSession Str) : Look :=
  ⟨s.requests.length, s.state.phase, s.state.errorKind, s.state.stale, s.state.events.map (·.value),
    (s.state.query s.fsPath).toOption.map exampleStdout⟩

/-- the document is read for the first time, or again -/
def loads : List Action :=
  [.refresh ⟨true, .ok (units "/tmp/a.dtj"), .ok ()⟩, .answered 0 (printed "hello"),
    .answered 0 (printed "two events"), .answered 0 (printed "both events")]

/-- the orderly actions of the runs below -/
def orderly (s : DocumentSession Str) : Action → Bool
  | .selectEvent _ => s.state.summary.isSome && s.state.events.isSome &&
    s.requests.all fun r => r.generation ≠ s.generation || r.stage = .selectEvent
  | .loadEvents _ _ _ => s.state.summary.isSome
  | .persisted => s.state.selectedSequence = none
  | .runQuery _ => false
  | _ => true

theorem orderly_iff {s : DocumentSession Str} {a : Action} (h : orderly s a = true) :
    Orderly exampleHost s a := by
  refine .inr ?_
  cases a with
  | refresh | saved | changed | answered => trivial
  | runQuery => cases h
  | loadEvents => exact h
  | persisted => exact .inl (of_decide_eq_true h)
  | selectEvent =>
    simp only [orderly, Bool.and_eq_true, List.all_eq_true, Bool.or_eq_true, decide_eq_true_eq] at h
    refine ⟨h.1.1, h.1.2, ?_⟩
    rintro stage ⟨r, hr, hgen, rfl⟩
    obtain hne | hstage := h.2 r hr
    · exact absurd hgen hne
    · exact hstage

theorem consistent_of_run_example : ∃ s : DocumentSession Str,
    look s = ⟨0, .ready, none, false, some (units "one event"), some (units "one event")⟩ ∧
      s.Consistent exampleHost examplePrints := by
  have hrun : (play (step exampleHost) (fun s a => genuine s a && orderly s a) exampleOpened (loads ++
      [.persisted, .selectEvent (units "1"), .answered 0 (printed "the first event"),
        .loadEvents (units "0") 100 onlyNet, .answered 0 (printed "one event")])).map look
      = some ⟨0, .ready, none, false, some (units "one event"), some (units "one event")⟩ := by
    decide
  obtain ⟨s, hs, hlook⟩ := Option.map_eq_some_iff.mp hrun
  refine ⟨s, hlook, consistent_of_run (Trace.of_play (fun s a h => ?_) hs)⟩
  obtain ⟨hgenuine, horderly⟩ := (Bool.and_eq_true _ _).mp h
  exact ⟨genuine_iff hgenuine, orderly_iff horderly⟩

/-- an event is selected while the events of another query are awaited: the bar shows that query,
and the list shows the events of the old one -/
theorem selected_too_early : ∃ (as : List Action) (s : DocumentSession Str),
    Trace (step exampleHost) (Genuine examplePrints) exampleOpened as s ∧
      ¬ s.Consistent exampleHost examplePrints := by
  have hrun : (play (step exampleHost) genuine exampleOpened (loads ++
      [.loadEvents (units "0") 100 onlyNet, .selectEvent (units "1"),
        .answered 1 (printed "the first event"), .answered 0 .rejected])).map look
      = some ⟨0, .ready, none, false, some (units "both events"), some (units "one event")⟩ := by
    decide
  obtain ⟨s, hs, hlook⟩ := Option.map_eq_some_iff.mp hrun
  obtain ⟨hrequests, hphase, herror, _, hevents, hquery⟩ := Look.mk.inj hlook
  refine ⟨_, s, Trace.of_play (fun _ _ => genuine_iff) hs, fun h => ?_⟩
  obtain ⟨_, page, hpage, args, stdout, hargs, hprints, hdecode⟩ :=
    (h (List.length_eq_zero_iff.mp hrequests) (.inl hphase) herror).1
  rw [hpage] at hevents
  rw [hargs] at hquery
  have hstdout : stdout = units "one event" := hprints.trans (Option.some.inj hquery)
  rw [hstdout] at hdecode
  have hvalue : page.value = units "one event" := (Except.ok.inj hdecode).symm
  exact absurd (hvalue.symm.trans (Option.some.inj hevents)) (by decide)

end

/-! ## changes of the file -/

section
variable {V : Type} {host : Host V}

def Stage.reload (stage : Stage) : Prop :=
  stage = .reloadHello ∨ stage = .reloadSummary ∨ stage = .reloadEvents

/-- what a turn at this time does to the events, to the mark and to the current request -/
inductive Effect (before : ExplorerUiState V) (time : Nat) (o : Option Request) (a : Action)
    (after : ExplorerUiState V) : Option Request → Prop
  | kept (hevents : after.events = before.events ∨ after.events = none)
      (hstale : after.stale = before.stale ∨ after.stale = true) : Effect before time o a after o
  | started {o' checks} (ha : a = .refresh checks) (hevents : after.events = none)
      (ho' : ∀ r, o' = some r → r.stage = .reloadHello) : Effect before time o a after o'
  | sent {r} (hstage : r.stage = .loadEvents ∨ r.stage = .selectEvent) (hissued : r.issued = time)
      (hevents : after.events = before.events) (hstale : after.stale = before.stale) :
      Effect before time o a after (some r)
  | advanced {r r'} (ho : o = some r) (hstage : r.stage.reload) (hstage' : r'.stage.reload)
      (hissued : r'.issued = time) (hevents : after.events = before.events)
      (hstale : after.stale = before.stale) : Effect before time o a after (some r')
  | settled (hevents : after.events = before.events ∨ after.events = none)
      (hstale : after.stale = before.stale) : Effect before time o a after none
  | shown {r v} (ho : o = some r) (hevents : after.events = some ⟨v, r.issued⟩)
      (hstale : r.stage = .loadEvents ∧ after.stale = before.stale ∨ r.stage = .reloadEvents) :
      Effect before time o a after none

variable {s s' : DocumentSession V} {o : Option Request} {a : Action}

theorem reload_effect (checks : DocumentSession.Checks)
    (hw : Waits s.requests s.generation o) :
    ∃ o', Waits (s.reload checks).requests (s.reload checks).generation o' ∧
      (s.reload checks).state.events = none ∧ ∀ r, o' = some r → r.stage = .reloadHello := by
  have hnext := hw.disposed s.client
  have hno : ∀ r : Request, none = some r → r.stage = .reloadHello := by
    intro r hr
    cases hr
  unfold DocumentSession.reload
  dsimp only
  split
  · exact ⟨none, hnext, rfl, hno⟩
  split
  · exact ⟨none, hnext, rfl, hno⟩
  split
  · exact ⟨none, hnext, rfl, hno⟩
  · refine ⟨_, Waits.send hnext _ _ _, rfl, fun r hr => ?_⟩
    cases hr
    rfl

theorem loadEvents_effect {offset : Str} {limit : Nat} {filters : EventFilters}
    {queryText : Option Str} (hw : Waits s.requests s.generation o) :
    ∃ o', Waits (s.loadEvents host offset limit filters queryText).requests
        (s.loadEvents host offset limit filters queryText).generation o' ∧
      Effect s.state s.time o a (s.loadEvents host offset limit filters queryText).state o' := by
  unfold DocumentSession.loadEvents
  split
  · exact ⟨o, hw, .kept (.inl rfl) (.inl rfl)⟩
  · exact ⟨_, Waits.send hw.next _ _ _, .sent (.inl rfl) rfl rfl rfl⟩

theorem selectEvent_effect {sequence : Str} (hw : Waits s.requests s.generation o) :
    ∃ o', Waits (s.selectEvent sequence).requests (s.selectEvent sequence).generation o' ∧
      Effect s.state s.time o a (s.selectEvent sequence).state o' := by
  unfold DocumentSession.selectEvent
  split
  · exact ⟨o, hw, .kept (.inl rfl) (.inl rfl)⟩
  · exact ⟨_, Waits.send hw.next _ _ _, .sent (.inr rfl) rfl rfl rfl⟩

theorem resumed_effect {r : Request} {result : Except ClientError V}
    (hgen : r.generation = s.generation) (hw : Waits s.requests s.generation none) :
    ∃ o', Waits (s.resumed host r result).requests (s.resumed host r result).generation o' ∧
      Effect s.state s.time (some r) a (s.resumed host r result).state o' := by
  have hfailed {e : ClientError} {base state : ExplorerUiState V} (h : Failed e base state)
      (hevents : base.events = s.state.events ∨ base.events = none)
      (hstale : base.stale = s.state.stale) : Effect s.state s.time (some r) a state none := by
    refine .settled ?_ (h.stale.trans hstale)
    obtain heq | heq := h.events
    · exact heq ▸ hevents
    · exact .inr heq
  unfold DocumentSession.resumed
  rw [if_neg (not_not.mpr hgen)]
  cases hstage : r.stage with
  | reloadHello =>
    cases result with
    | error e => exact ⟨none, hw, hfailed (mapClientError_failed e s.state) (.inl rfl) rfl⟩
    | ok v =>
      exact ⟨_, hw.send _ _ _, .advanced rfl (.inl hstage) (.inr (.inl rfl)) rfl rfl rfl⟩
  | reloadSummary =>
    cases result with
    | error e => exact ⟨none, hw, hfailed (mapReaderOrNativeError_failed e s.state) (.inl rfl) rfl⟩
    | ok summary =>
      dsimp only
      unfold DocumentSession.summarized
      dsimp only
      split
      · exact ⟨_, Waits.send hw _ _ _,
          .advanced rfl (.inr (.inl hstage)) (.inr (.inr rfl)) rfl rfl rfl⟩
      · exact ⟨_, Waits.send hw _ _ _,
          .advanced rfl (.inr (.inl hstage)) (.inr (.inr rfl)) rfl rfl rfl⟩
  | reloadEvents =>
    cases result with
    | error e => exact ⟨none, hw, hfailed (mapReaderOrNativeError_failed e _) (.inr rfl) rfl⟩
    | ok events => exact ⟨none, hw, .shown rfl rfl (.inr hstage)⟩
  | loadEvents =>
    cases result with
    | error e => exact ⟨none, hw, hfailed (mapBrowseOpError_failed e _) (.inr rfl) rfl⟩
    | ok events => exact ⟨none, hw, .shown rfl rfl (.inl ⟨hstage, rfl⟩)⟩
  | selectEvent =>
    cases result with
    | error e => exact ⟨none, hw, hfailed (mapBrowseOpError_failed e _) (.inl rfl) rfl⟩
    | ok detail => exact ⟨none, hw, .settled (.inl rfl) rfl⟩

/-- **what a turn does** -/
theorem turn_effect (hw : Waits s.requests s.generation o) (hturn : turn host s a = some s') :
    ∃ o', Waits s'.requests s'.generation o' ∧ Effect s.state s.time o a s'.state o' := by
  cases a with
  | refresh checks =>
    cases hturn
    obtain ⟨o', hw', hevents, ho'⟩ := reload_effect checks hw
    exact ⟨o', hw', .started rfl hevents ho'⟩
  | runQuery text =>
    cases hturn
    unfold DocumentSession.runQuery
    split
    · exact ⟨o, hw, .kept (.inl rfl) (.inl rfl)⟩
    dsimp only
    split
    · exact ⟨o, hw, .kept (.inr rfl) (.inl rfl)⟩
    · unfold DocumentSession.loadEvents
      split
      · exact ⟨o, hw, .kept (.inl rfl) (.inl rfl)⟩
      · exact ⟨_, Waits.send hw.next _ _ _, .sent (.inl rfl) rfl rfl rfl⟩
  | loadEvents offset limit filters =>
    obtain ⟨_, hs'⟩ := Option.ite_none_right_eq_some.mp hturn
    cases hs'
    exact loadEvents_effect hw
  | selectEvent sequence =>
    obtain ⟨_, hs'⟩ := Option.ite_none_right_eq_some.mp hturn
    cases hs'
    exact selectEvent_effect hw
  | saved text =>
    cases hturn
    exact ⟨o, hw, .kept (.inl rfl) (.inl rfl)⟩
  | changed =>
    obtain ⟨_, hs'⟩ := Option.ite_none_right_eq_some.mp hturn
    cases hs'
    exact ⟨o, hw, .kept (.inl rfl) (.inr rfl)⟩
  | answered i outcome =>
    obtain ⟨r, hr, rfl⟩ := Option.map_eq_some_iff.mp hturn
    have hsettle := hw.settle hr
    by_cases hgen : r.generation = s.generation
    · cases hw.current r (List.mem_of_getElem? hr) hgen
      rw [if_pos hgen] at hsettle
      exact resumed_effect hgen hsettle
    · rw [if_neg hgen] at hsettle
      unfold DocumentSession.resumed
      rw [if_pos hgen]
      exact ⟨o, hsettle, .kept (.inl rfl) (.inl rfl)⟩
  | persisted =>
    obtain ⟨_, hs'⟩ := Option.ite_none_left_eq_some.mp hturn
    cases hs'
    unfold DocumentSession.reselect
    dsimp only
    split
    · exact ⟨o, hw, .kept (.inl rfl) (.inl rfl)⟩
    split
    · exact ⟨o, hw, .kept (.inl rfl) (.inl rfl)⟩
    · exact selectEvent_effect hw

theorem Stage.not_reload {stage : Stage} (h : stage = .loadEvents ∨ stage = .selectEvent) :
    ¬ stage.reload := by
  obtain rfl | rfl := h
  · rintro (h | h | h) <;> cases h
  · rintro (h | h | h) <;> cases h

/-- while a reload waits, no events are shown -/
def Bare (state : ExplorerUiState V) (o : Option Request) : Prop :=
  ∀ r, o = some r → r.stage.reload → state.events = none

/-- a change was noticed at the time `n`: the state is marked, or its events were asked for later -/
structure Noticed (n : Nat) (state : ExplorerUiState V) (o : Option Request) : Prop where
  pages : state.stale = false → ∀ page, state.events = some page → n < page.issued
  asked : state.stale = false → ∀ r, o = some r → r.stage = .loadEvents → n < r.issued
  reloads : ∀ r, o = some r → r.stage = .reloadEvents → n < r.issued

/-- the mark stays: no reload waits -/
structure Marked (state : ExplorerUiState V) (o : Option Request) : Prop where
  stale : state.stale = true
  waits : ∀ r, o = some r → ¬ r.stage.reload

section
variable {before after : ExplorerUiState V} {time n : Nat} {o' : Option Request}

theorem Bare.effect (h : Bare before o) (he : Effect before time o a after o') : Bare after o' := by
  intro r hr hreload
  cases he with
  | kept hevents =>
    obtain heq | heq := hevents
    · rw [heq]
      exact h r hr hreload
    · exact heq
  | started _ hevents => exact hevents
  | sent hstage =>
    cases hr
    exact absurd hreload (Stage.not_reload hstage)
  | advanced ho hstage _ _ hevents =>
    rw [hevents]
    exact h _ ho hstage
  | settled => cases hr
  | shown => cases hr

theorem Noticed.effect (h : Noticed n before o) (hn : n < time)
    (he : Effect before time o a after o') : Noticed n after o' := by
  have hkept (hevents : after.events = before.events ∨ after.events = none)
      (hopen : before.stale = false) : ∀ page, after.events = some page → n < page.issued := by
    intro page hpage
    obtain heq | heq := hevents
    · exact h.pages hopen page (heq ▸ hpage)
    · rw [heq] at hpage
      cases hpage
  cases he with
  | kept hevents hstale =>
    have hbefore : after.stale = false → before.stale = false := by
      intro hopen
      obtain heq | heq := hstale
      · exact heq ▸ hopen
      · rw [heq] at hopen
        cases hopen
    exact ⟨fun hopen => hkept hevents (hbefore hopen), fun hopen => h.asked (hbefore hopen),
      h.reloads⟩
  | started _ hevents ho' =>
    refine ⟨fun _ page hpage => ?_, fun _ r hr hstage => ?_, fun r hr hstage => ?_⟩
    · rw [hevents] at hpage
      cases hpage
    · rw [ho' r hr] at hstage
      cases hstage
    · rw [ho' r hr] at hstage
      cases hstage
  | sent _ hissued hevents hstale =>
    refine ⟨fun hopen => hkept (.inl hevents) (hstale ▸ hopen), fun _ r hr _ => ?_,
      fun r hr _ => ?_⟩
    · cases hr
      exact hissued ▸ hn
    · cases hr
      exact hissued ▸ hn
  | advanced _ _ _ hissued hevents hstale =>
    refine ⟨fun hopen => hkept (.inl hevents) (hstale ▸ hopen), fun _ r hr _ => ?_,
      fun r hr _ => ?_⟩
    · cases hr
      exact hissued ▸ hn
    · cases hr
      exact hissued ▸ hn
  | settled hevents hstale =>
    refine ⟨fun hopen => hkept hevents (hstale ▸ hopen), fun _ r hr => ?_, fun r hr => ?_⟩
    · cases hr
    · cases hr
  | shown ho hevents hstale =>
    refine ⟨fun hopen page hpage => ?_, fun _ r hr => ?_, fun r hr => ?_⟩
    · cases hevents.symm.trans hpage
      obtain ⟨hstage, heq⟩ | hstage := hstale
      · exact h.asked (heq ▸ hopen) _ ho hstage
      · exact h.reloads _ ho hstage
    · cases hr
    · cases hr

theorem Marked.effect (h : Marked before o) (ha : ∀ checks, a ≠ .refresh checks)
    (he : Effect before time o a after o') : Marked after o' := by
  cases he with
  | kept _ hstale =>
    refine ⟨?_, h.waits⟩
    obtain heq | heq := hstale
    · exact heq.trans h.stale
    · exact heq
  | started ha' => exact absurd ha' (ha _)
  | sent hstage _ _ hstale =>
    refine ⟨hstale.trans h.stale, fun r hr => ?_⟩
    cases hr
    exact Stage.not_reload hstage
  | advanced ho hstage => exact absurd hstage (h.waits _ ho)
  | settled _ hstale =>
    refine ⟨hstale.trans h.stale, fun r hr => ?_⟩
    cases hr
  | shown ho _ hstale =>
    obtain ⟨_, heq⟩ | hstage := hstale
    · refine ⟨heq.trans h.stale, fun r hr => ?_⟩
      cases hr
    · exact absurd (.inr (.inr hstage)) (h.waits _ ho)

end

/-- what holds of the state and of the current request -/
def Current (P : ExplorerUiState V → Option Request → Prop) (s : DocumentSession V) : Prop :=
  ∃ o, Waits s.requests s.generation o ∧ P s.state o

/-- what the effects of turns keep, every step keeps -/
theorem current_step {P : ExplorerUiState V → Option Request → Prop} (h : Current P s)
    (hstep : step host s a = some s')
    (hkeep : ∀ o state o', P s.state o → Effect s.state s.time o a state o' → P state o') :
    Current P s' ∧ s'.time = s.time + 1 := by
  obtain ⟨o, hw, ho⟩ := h
  obtain ⟨s₁, hturn, rfl⟩ := Option.map_eq_some_iff.mp hstep
  obtain ⟨o', hw', he⟩ := turn_effect hw hturn
  exact ⟨⟨o', hw', hkeep o s₁.state o' ho he⟩, rfl⟩

/-- **a change of the file is not forgotten**: from a change on, the state is marked until the next
reload starts, if the events that it shows at some time in between were asked for before the change;
unless a reload was waiting for its events when the file changed -/
theorem change_kept {fsPath : Str} {filters : EventFilters} {offset : Str}
    {selectedSequence : Option Str} {queryText : Str} {as bs cs : List Action}
    {s₁ s₂ s₃ s₄ : DocumentSession V} {page : Page V}
    (h : Trace (step host) (fun _ _ => True)
      (opened fsPath filters offset selectedSequence queryText) as s₁)
    (hquiet : ¬ s₁.Waiting .reloadEvents) (hchange : step host s₁ .changed = some s₂)
    (hb : Trace (step host) (fun _ _ => True) s₂ bs s₃)
    (hc : Trace (step host) (fun _ _ => True) s₃ cs s₄)
    (hnext : ∀ checks, .refresh checks ∉ cs) (hpage : s₃.state.events = some page)
    (hissued : page.issued < s₁.time) : s₄.state.stale = true := by
  have hopened : Current Bare
      (opened fsPath filters offset selectedSequence queryText : DocumentSession V) := by
    refine ⟨none, waits_nil, fun r hr => ?_⟩
    cases hr
  have hbare₁ : Current Bare s₁ := h.invariant
    (fun s a s' hs _ _ hstep => (current_step hs hstep fun _ _ _ ho he => ho.effect he).1) hopened
  -- the change
  have hnoticed₂ : Current (fun state o => Bare state o ∧ Noticed s₁.time state o) s₂ ∧
      s₁.time < s₂.time := by
    obtain ⟨⟨o, hw, ho⟩, htime⟩ := current_step hbare₁ hchange fun _ _ _ ho he => ho.effect he
    have hstale : s₂.state.stale = true ∧ s₂.requests = s₁.requests ∧
        s₂.generation = s₁.generation := by
      obtain ⟨s', hturn, rfl⟩ := Option.map_eq_some_iff.mp hchange
      obtain ⟨_, hs'⟩ := Option.ite_none_right_eq_some.mp hturn
      cases hs'
      exact ⟨rfl, rfl, rfl⟩
    have hmarked : ¬ s₂.state.stale = false := by
      rw [hstale.1]
      exact Bool.noConfusion
    refine ⟨⟨o, hw, ho, fun h => absurd h hmarked, fun h => absurd h hmarked, fun r hr hstage => ?_⟩,
      by omega⟩
    obtain ⟨hmem, hgen⟩ := hw.mem r hr
    exact absurd ⟨r, hstale.2.1 ▸ hmem, hgen.trans hstale.2.2, hstage⟩ hquiet
  -- until the events are shown
  obtain ⟨⟨o, hw, hbare, hnoticed⟩, _⟩ := hb.invariant
    (P := fun s => Current (fun state o => Bare state o ∧ Noticed s₁.time state o) s ∧
      s₁.time < s.time)
    (fun s a s' hs _ _ hstep => by
      obtain ⟨hcurrent, htime⟩ := current_step hs.1 hstep fun _ _ _ ho he =>
        ⟨ho.1.effect he, ho.2.effect hs.2 he⟩
      exact ⟨hcurrent, by omega⟩) hnoticed₂
  have hmarked₃ : Current Marked s₃ := by
    refine ⟨o, hw, ?_, fun r hr hreload => ?_⟩
    · cases hstale : s₃.state.stale with
      | true => rfl
      | false =>
        have hlt := hnoticed.pages hstale page hpage
        omega
    · rw [hbare r hr hreload] at hpage
      cases hpage
  -- and from then on
  obtain ⟨_, _, hmarked⟩ := hc.invariant (fun s a s' hs _ ha hstep =>
    (current_step hs hstep fun _ _ _ ho he => ho.effect (fun checks heq =>
      hnext checks (heq ▸ ha)) he).1) hmarked₃
  exact hmarked.stale

/-- a change that comes while a reload waits for its events is erased when they arrive -/
theorem change_erased {i : Nat} {r : Request} {outcome : Outcome} {v : V}
    (hr : s.requests[i]? = some r) (hgen : r.generation = s.generation)
    (hstage : r.stage = .reloadEvents) (hv : r.answer host outcome = .ok v)
    (hwatcher : s.watcher = true) :
    ∃ s₁ s₂, step host s .changed = some s₁ ∧ step host s₁ (.answered i outcome) = some s₂ ∧
      s₂.state.events = some ⟨v, r.issued⟩ ∧ s₂.state.stale = false := by
  have hresumed (t : DocumentSession V) (ht : t.generation = s.generation) :
      (t.resumed host r (.ok v)).state.events = some ⟨v, r.issued⟩ ∧
        (t.resumed host r (.ok v)).state.stale = false := by
    unfold DocumentSession.resumed
    rw [if_neg (not_not.mpr (hgen.trans ht.symm)), hstage]
    exact ⟨rfl, rfl⟩
  have hchange : step host s .changed = some { s.markStale with time := s.time + 1 } := by
    rw [step, turn, if_pos hwatcher]
    rfl
  have hanswer : step host { s.markStale with time := s.time + 1 } (.answered i outcome)
      = some { { s.markStale with
          requests := s.requests.eraseIdx i
          time := s.time + 1 }.resumed host r (.ok v) with
        time := s.time + 1 + 1 } := by
    rw [step, turn]
    show (s.requests[i]?.map _).map _ = _
    rw [hr, ← hv]
    rfl
  have hshown := hresumed { s.markStale with
    requests := s.requests.eraseIdx i
    time := s.time + 1 } rfl
  exact ⟨_, _, hchange, hanswer, hshown.1, hshown.2⟩

end

section

/-- a run, a change of the file, and a run after it; the times of the change and of the request whose
events are shown -/
def around (as bs : List Action) : Option (Look × Look × Nat × Option Nat) :=
  (play (step exampleHost) genuine exampleOpened as).bind fun s₁ =>
    (step exampleHost s₁ .changed).bind fun s₂ =>
      (play (step exampleHost) genuine s₂ bs).map fun s₃ =>
        (look s₁, look s₃, s₁.time, s₃.state.events.map (·.issued))

theorem around_some {as bs : List Action} {l l' : Look} {time : Nat} {issued : Option Nat}
    (h : around as bs = some (l, l', time, issued)) : ∃ s₁ s₂ s₃ : DocumentSession Str,
      Trace (step exampleHost) (Genuine examplePrints) exampleOpened as s₁ ∧
        step exampleHost s₁ .changed = some s₂ ∧
        Trace (step exampleHost) (Genuine examplePrints) s₂ bs s₃ ∧
        look s₁ = l ∧ look s₃ = l' ∧ s₁.time = time ∧ s₃.state.events.map (·.issued) = issued := by
  obtain ⟨s₁, hs₁, h₁⟩ := Option.bind_eq_some_iff.mp h
  obtain ⟨s₂, hs₂, h₂⟩ := Option.bind_eq_some_iff.mp h₁
  obtain ⟨s₃, hs₃, h₃⟩ := Option.map_eq_some_iff.mp h₂
  cases h₃
  exact ⟨s₁, s₂, s₃, Trace.of_play (fun _ _ => genuine_iff) hs₁, hs₂,
    Trace.of_play (fun _ _ => genuine_iff) hs₃, rfl, rfl, rfl, rfl⟩

/-- the file changes, and then an event is selected: the state stays marked -/
theorem change_kept_example : ∃ s : DocumentSession Str,
    (look s).events = some (units "both events") ∧ s.state.stale = true := by
  have hrun : around loads [.selectEvent (units "1"), .answered 0 (printed "the first event")]
      = some (⟨0, .ready, none, false, some (units "both events"), some (units "both events")⟩,
        ⟨0, .stale, none, true, some (units "both events"), some (units "both events")⟩,
        4, some 2) := by
    decide
  obtain ⟨s₁, s₂, s₃, h₁, hchange, h₂, hlook₁, hlook₃, htime, hissued⟩ := around_some hrun
  obtain ⟨page, hpage, hpageIssued⟩ := Option.map_eq_some_iff.mp hissued
  have hquiet : ¬ s₁.Waiting .reloadEvents := by
    rintro ⟨r, hr, _⟩
    rw [List.length_eq_zero_iff.mp (congrArg Look.waiting hlook₁)] at hr
    cases hr
  refine ⟨s₃, congrArg Look.events hlook₃, ?_⟩
  exact change_kept (h₁.mono fun _ _ _ => trivial) hquiet hchange (h₂.mono fun _ _ _ => trivial)
    (.nil s₃) (fun _ => List.not_mem_nil) hpage (by omega)

/-- the file changes while a reload waits for its events, and the change is forgotten -/
theorem change_forgotten : ∃ (as bs : List Action) (s₁ s₂ s₃ : DocumentSession Str) (page : Page Str),
    Trace (step exampleHost) (Genuine examplePrints) exampleOpened as s₁ ∧
      step exampleHost s₁ .changed = some s₂ ∧
      Trace (step exampleHost) (Genuine examplePrints) s₂ bs s₃ ∧
      (∀ checks, .refresh checks ∉ bs) ∧ s₃.state.events = some page ∧ page.issued < s₁.time ∧
      s₃.state.stale = false := by
  have hrun : around (loads ++ loads.dropLast) [.answered 0 (printed "both events")]
      = some (⟨1, .loading, none, false, none, some (units "both events")⟩,
        ⟨0, .ready, none, false, some (units "both events"), some (units "both events")⟩,
        7, some 6) := by
    decide
  obtain ⟨s₁, s₂, s₃, h₁, hchange, h₂, _, hlook₃, htime, hissued⟩ := around_some hrun
  obtain ⟨page, hpage, hpageIssued⟩ := Option.map_eq_some_iff.mp hissued
  refine ⟨_, _, s₁, s₂, s₃, page, h₁, hchange, h₂, fun checks h => ?_, hpage, by omega,
    congrArg Look.stale hlook₃⟩
  cases List.mem_singleton.mp h

end

end Dtj.Explorer
