import Dtj.Agent.Proto

/-!
# The agent: one connection

`handle_client` of `crates/dtj/src/bin/dtj-agent.rs`.  The client's bytes are all that it will ever
send; writes to the socket succeed.  A writer that leaves the state is dropped, and writes the
buffer of its file.

* `AgentState`, `Config`    the state of a connection;
* `handle`                  the arms of the `match` on the opcode, up to the frame that answers;
* `readFrame`, `round`, `handleClient`   the loop over the bytes of the socket;
* `Handled`, `handle_cases` **everything that a request can do**.
-/

namespace Dtj.Agent
open Wire Checked SessionWriter

/-- the parameters of `handle_client` -/
structure Config where
  flushEveryEvent : Bool
  maxEventsPerChunk : UInt32
  maxFileSizeMb : UInt64
  sessionTtlHours : UInt64
  maxSessions : UInt32
  socketPermissions : UInt32
  sessionPrefix : String
  maxPendingBytes : UInt64

structure AgentState where
  writer : Option SessionWriter
  helloDone : Bool
  sessionOpened : Bool
  config : Config

def AgentState.new (config : Config) : AgentState := ⟨none, false, false, config⟩

/-- what is answered with an Error frame: the connection goes on, or `handle_client` returns -/
inductive Refusal where
  | again (text : Bytes)
  | close (text : Bytes)

/-- an arm of the `match`, up to its `write_frame` -/
abbrev Handler (α : Type) := Prog (AgentState × Disk) Refusal α

def refuse {α : Type} (text : String) : Handler α := throw (.error (.again (utf8 text)))

/-! ## errors in the text of an Error frame -/

def escapeDebug (c : Char) : List Char :=
  if c = Char.ofNat 0x22 ∨ c = Char.ofNat 0x5C then [Char.ofNat 0x5C, c] else [c]

/-- `{:?}` of a text -/
def quoted (s : String) : String :=
  String.ofList (Char.ofNat 0x22 :: s.toList.flatMap escapeDebug ++ [Char.ofNat 0x22])

/-- `{:?}` of an error -/
def debug : Error → String
  | .io msg => s!"Io({quoted msg})"
  | .invalidMagic => "InvalidMagic"
  | .unsupportedVersion v => s!"UnsupportedVersion({v})"
  | .invalidHeaderSize n => s!"InvalidHeaderSize({n})"
  | .invalidEndian => "InvalidEndian"
  | .invalidChunkMagic => "InvalidChunkMagic"
  | .checksumMismatch sequence => s!"ChecksumMismatch \x7b sequence: {sequence} \x7d"
  | .sequenceGap expected found => s!"SequenceGap \x7b expected: {expected}, found: {found} \x7d"
  | .payloadTooLarge len max => s!"PayloadTooLarge \x7b len: {len}, max: {max} \x7d"
  | .malformedRecord msg => s!"MalformedRecord({quoted msg})"
  | .unknownDictionaryId kind id => s!"UnknownDictionaryId \x7b kind: {kind}, id: {id} \x7d"
  | .duplicateDictionaryId kind id => s!"DuplicateDictionaryId \x7b kind: {kind}, id: {id} \x7d"
  | .unknownTypeTag t => s!"UnknownTypeTag({t})"
  | .invalidSeverity s => s!"InvalidSeverity({s})"
  | .limitExceeded msg => s!"LimitExceeded({quoted msg})"
  | .sessionClosed => "SessionClosed"

/-! ## the arms -/

/-- a check of the body of a request -/
def parsed {α : Type} (r : Res String α) : Handler α := fun s =>
  match r with
  | .ok a => .ok a s
  | .error (.error text) => .error (.error (.again (utf8 text))) s
  | .error .panic => .error .panic s
  | .error .diverge => .error .diverge s

/-- `match writer.call() { Ok(a) => ok(a), Err(e) => Error frame }` on `st.writer` -/
def callWriter {α : Type} (writer : SessionWriter) (p : WriterM α) (ok : α → Reply)
    (bad : String) : Handler Reply := fun (st, d) =>
  match p.run (writer, d) with
  | .ok a (w, d) => .ok (ok a) ({ st with writer := some w }, d)
  | .error (.error e) (w, d) =>
    .error (.error (.again (utf8 (bad ++ debug e)))) ({ st with writer := some w }, d)
  | .error .panic (w, d) => .error .panic ({ st with writer := some w }, d)
  | .error .diverge (w, d) => .error .diverge ({ st with writer := some w }, d)

/-- the same on a writer that was taken out of the state, and is dropped after the call -/
def callTaken {α : Type} (writer : SessionWriter) (p : WriterM α) (ok : α → Reply)
    (bad : String) : Handler Reply := fun (st, d) =>
  match p.run (writer, d) with
  | .ok a (w, d) => .ok (ok a) ({ st with writer := none }, w.dropped d)
  | .error (.error e) (w, d) =>
    .error (.error (.again (utf8 (bad ++ debug e)))) ({ st with writer := none }, w.dropped d)
  | .error .panic (w, d) => .error .panic ({ st with writer := none }, w.dropped d)
  | .error .diverge (w, d) => .error .diverge ({ st with writer := none }, w.dropped d)

/-- an error of the call is only logged -/
def logged (p : WriterM Unit) : WriterM Unit := fun s =>
  match p.run s with
  | .error (.error _) s => .ok () s
  | r => r

def hello (body : Bytes) : Handler Reply := do
  if body.length < 4 then refuse "Hello expects 4 bytes"
  else
    let ver ← Prog.of (slice body 0 4 >>= fromLe 4)
    if UInt32.ofNat ver ≠ protocolVersion then
      throw (.error (.again (utf8 "unsupported protocol version " ++ le 4 ver)))
    else
      modify fun (st, d) => ({ st with helloDone := true }, d)
      return ⟨.helloOk, le 4 protocolVersion.toNat⟩

def intern (body : Bytes) : Handler Reply := do
  let (st, _) ← get
  if ¬ st.helloDone ∨ ¬ st.sessionOpened then refuse "Intern requires Hello and OpenSession"
  else
    let (dictKind, name) ← parsed (parseIntern body)
    match st.writer with
    | none => refuse "no open session"
    | some writer =>
      match kindOf dictKind with
      | none => refuse "unknown dictionary kind"
      | some kind =>
        callWriter writer (SessionWriter.intern kind name) (fun id => ⟨.internOk, le 4 id.toNat⟩)
          "intern failed: "

/-- `data_dir.join(file_name)` -/
def joinPath (dataDir fileName : String) : String := dataDir ++ "/" ++ fileName

/-- `st.writer = Some(writer)`, which drops the writer that was there -/
def setWriter (writer : SessionWriter) : Handler Unit := fun (st, d) =>
  let d := match st.writer with
    | some old => old.dropped d
    | none => d
  .ok () ({ st with writer := some writer, sessionOpened := true }, d)

/-- the end of `OpenSession`: the directory, the file, the writer -/
def openFile (dataDir : String) (req : OpenRequest) (header : FileHeader) : Handler Reply :=
  fun (st, d) =>
  match Disk.createDirAll.run d with
  | .error (.error e) d =>
    .error (.error (.close (utf8 ("cannot create data dir: " ++ debug e)))) (st, d)
  | .error .panic d => .error .panic (st, d)
  | .error .diverge d => .error .diverge (st, d)
  | .ok _ d =>
    match (SessionWriter.create (joinPath dataDir req.fileName) header).run d with
    | .error (.error e) d =>
      .error (.error (.again (utf8 ("create session failed: " ++ debug e)))) (st, d)
    | .error .panic d => .error .panic (st, d)
    | .error .diverge d => .error .diverge (st, d)
    | .ok writer d => ((fun _ => (⟨.openSessionOk, []⟩ : Reply)) <$> setWriter writer).run (st, d)

def OpenRequest.header (req : OpenRequest) : Except Error FileHeader :=
  FileHeader.create req.sessionId req.startUtcUnixMs req.monoOriginNs req.producerName
    req.producerVersion

def openSession (dataDir : String) (body : Bytes) : Handler Reply := do
  let (st, _) ← get
  if ¬ st.helloDone then refuse "Hello required first"
  else
    let req ← parsed (parseOpen body)
    match req.header with
    | .error e => refuse ("OpenSession: invalid header: " ++ debug e)
    | .ok header => openFile dataDir req header

/-- `append_event`, and `flush_chunk` after it if every event is to be flushed -/
def appendFlush (flushEvery : Bool) (evt : AppendEvent) : WriterM UInt64 := do
  let seq ← SessionWriter.appendEvent evt
  if flushEvery then
    logged flushChunk
    return seq
  else return seq

def appendEvent (body : Bytes) : Handler Reply := do
  let (st, _) ← get
  if ¬ st.helloDone ∨ ¬ st.sessionOpened then refuse "Hello and OpenSession required first"
  else
    let evt ← parsed (parseAppend body)
    match st.writer with
    | none => refuse "no open session"
    | some writer =>
      callWriter writer (appendFlush st.config.flushEveryEvent evt)
        (fun seq => ⟨.appendEventOk, le 8 seq.toNat⟩) "append_event failed: "

def finishSession : Handler Reply := do
  let (st, _) ← get
  match st.writer with
  | none => refuse "no open session"
  | some writer =>
    callTaken writer SessionWriter.finish (fun _ => ⟨.finishSessionOk, []⟩) "finish failed: "

def flush : Handler Reply := do
  let (st, _) ← get
  match st.writer with
  | none => refuse "no open session"
  | some writer => callWriter writer flushChunk (fun _ => ⟨.flushOk, []⟩) "flush failed: "

def handle (dataDir : String) : Bytes → Handler Reply
  | [] => refuse "empty frame"
  | opcode :: body =>
    if opcode = Cmd.hello.toU8 then hello body
    else if opcode = Cmd.intern.toU8 then intern body
    else if opcode = Cmd.openSession.toU8 then openSession dataDir body
    else if opcode = Cmd.appendEvent.toU8 then appendEvent body
    else if opcode = Cmd.finishSession.toU8 then finishSession
    else if opcode = Cmd.ping.toU8 then return ⟨.pong, []⟩
    else if opcode = Cmd.flush.toU8 then flush
    else refuse "unknown command"

/-! ## the connection -/

/-- the state, what the client still sends, and the frames that were sent to it -/
structure Conn where
  state : AgentState
  disk : Disk
  input : Bytes
  output : List Reply

/-- `handle_client` returned an I/O error -/
structure Halt where
  msg : String

def readFrame : Prog Conn Halt (Option Bytes) := fun c =>
  if c.input.length < 4 then .ok none { c with input := [] }
  else
    let len := leAt c.input 0 4
    let rest := c.input.drop 4
    if len > maxFrameSize then .error (.error ⟨"frame too large"⟩) { c with input := rest }
    else if rest.length < len then
      .error (.error ⟨"failed to fill whole buffer"⟩) { c with input := [] }
    else .ok (some (rest.take len)) { c with input := rest.drop len }

/-- `write_frame` after an arm of the `match` -/
def answer (h : Handler Reply) : Prog Conn Halt Unit := fun c =>
  match h.run (c.state, c.disk) with
  | .ok r (st, d) => .ok () { c with state := st, disk := d, output := c.output ++ [r] }
  | .error (.error (.again text)) (st, d) =>
    .ok () { c with state := st, disk := d, output := c.output ++ [⟨.error, text⟩] }
  | .error (.error (.close text)) (st, d) =>
    .error (.error ⟨"cannot create data dir"⟩)
      { c with state := st, disk := d, output := c.output ++ [⟨.error, text⟩] }
  | .error .panic (st, d) => .error .panic { c with state := st, disk := d }
  | .error .diverge (st, d) => .error .diverge { c with state := st, disk := d }

def round (dataDir : String) : Prog Conn Halt Bool := do
  match ← readFrame with
  | none => return false
  | some frame =>
    answer (handle dataDir frame)
    return true

def handleClient (dataDir : String) : Prog Conn Halt Unit := fun c =>
  (loop (round dataDir) (c.input.length + 1)).run c

/-- the state of `handle_client` is dropped -/
def AgentState.dropped (st : AgentState) (d : Disk) : Disk :=
  match st.writer with
  | some w => w.dropped d
  | none => d

/-! ## everything that a request can do -/

/-- how an arm of the `match` may end -/
abbrev Outcome := EStateM.Result (Abort Refusal) (AgentState × Disk) Reply

def internReply (id : UInt32) : Reply := ⟨.internOk, le 4 id.toNat⟩
def appendReply (seq : UInt64) : Reply := ⟨.appendEventOk, le 8 seq.toNat⟩
def flushReply (_ : Unit) : Reply := ⟨.flushOk, []⟩
def finishReply (_ : Unit) : Reply := ⟨.finishSessionOk, []⟩

/-- a request was refused before it touched anything, or it is one of the seven commands, with
what was checked before the call -/
inductive Handled (dataDir : String) (frame : Bytes) (st : AgentState) (d : Disk) :
    Outcome → Prop
  | refused {text} : Handled dataDir frame st d (.error (.error (.again text)) (st, d))
  | hello {body} (hf : frame = Cmd.hello.toU8 :: body) : Handled dataDir frame st d
      (.ok ⟨.helloOk, le 4 protocolVersion.toNat⟩ ({ st with helloDone := true }, d))
  | ping {body} (hf : frame = Cmd.ping.toU8 :: body) :
      Handled dataDir frame st d (.ok ⟨.pong, []⟩ (st, d))
  | intern {body dictKind kind name w} (hf : frame = Cmd.intern.toU8 :: body)
      (hst : st.helloDone = true ∧ st.sessionOpened = true) (hw : st.writer = some w)
      (hp : internOf body = .ok (dictKind, name)) (hk : kindOf dictKind = some kind) :
      Handled dataDir frame st d
        ((callWriter w (SessionWriter.intern kind name) internReply "intern failed: ").run (st, d))
  | openSession {body req header} (hf : frame = Cmd.openSession.toU8 :: body)
      (hst : st.helloDone = true) (hp : parseOpen body = .ok req) (hh : req.header = .ok header) :
      Handled dataDir frame st d ((openFile dataDir req header).run (st, d))
  | appendEvent {body ev w} (hf : frame = Cmd.appendEvent.toU8 :: body)
      (hst : st.helloDone = true ∧ st.sessionOpened = true) (hw : st.writer = some w)
      (hp : appendOf body = .ok ev) :
      Handled dataDir frame st d ((callWriter w (appendFlush st.config.flushEveryEvent ev)
        appendReply "append_event failed: ").run (st, d))
  | finishSession {body w} (hf : frame = Cmd.finishSession.toU8 :: body)
      (hw : st.writer = some w) : Handled dataDir frame st d
        ((callTaken w SessionWriter.finish finishReply "finish failed: ").run (st, d))
  | flush {body w} (hf : frame = Cmd.flush.toU8 :: body) (hw : st.writer = some w) :
      Handled dataDir frame st d
        ((callWriter w flushChunk flushReply "flush failed: ").run (st, d))

section
variable {dataDir : String} {body : Bytes} {st : AgentState} {d : Disk}

theorem parsed_run {α β : Type} (x : Except String α) (f : α → Handler β) :
    (parsed (lift x) >>= f).run (st, d) = match x with
      | .ok a => (f a).run (st, d)
      | .error text => .error (.error (.again (utf8 text))) (st, d) := by
  rw [EStateM.run_bind]
  cases x <;> rfl

theorem hello_cases : Handled dataDir (Cmd.hello.toU8 :: body) st d ((hello body).run (st, d)) := by
  unfold hello
  by_cases h : body.length < 4
  · rw [if_pos h]
    exact .refused
  have hver : (slice body 0 4 >>= fromLe 4 : Res Refusal Nat) = .ok (leAt body 0 4) :=
    slice_fromLe rfl (by omega)
  rw [if_neg h, hver]
  simp only [EStateM.run_bind, Prog.of_ok, run_ite]
  by_cases hv : UInt32.ofNat (leAt body 0 4) ≠ protocolVersion
  · rw [if_pos hv]
    exact .refused
  · rw [if_neg hv]
    exact .hello rfl

theorem intern_cases :
    Handled dataDir (Cmd.intern.toU8 :: body) st d ((intern body).run (st, d)) := by
  unfold intern
  simp only [EStateM.run_bind, EStateM.run_get, run_ite]
  by_cases hst : ¬ st.helloDone ∨ ¬ st.sessionOpened
  · rw [if_pos hst]
    exact .refused
  rw [if_neg hst, parseIntern_eq, ← EStateM.run_bind, parsed_run]
  cases hp : internOf body with
  | error text => exact .refused
  | ok x =>
    obtain ⟨dictKind, name⟩ := x
    dsimp only
    cases hw : st.writer with
    | none => exact .refused
    | some w =>
      dsimp only
      cases hk : kindOf dictKind with
      | none => exact .refused
      | some kind => exact .intern rfl (by simpa [not_or] using hst) hw hp hk

theorem openSession_cases (hbody : body.length < 2^63) :
    Handled dataDir (Cmd.openSession.toU8 :: body) st d ((openSession dataDir body).run (st, d)) := by
  unfold openSession
  simp only [EStateM.run_bind, EStateM.run_get, run_ite]
  by_cases hst : ¬ st.helloDone
  · rw [if_pos hst]
    exact .refused
  rw [if_neg hst]
  have hsafe := parseOpen_total hbody
  cases hp : parseOpen body with
  | error a =>
    rw [hp] at hsafe
    cases a with
    | error text => exact .refused
    | panic => exact absurd hsafe id
    | diverge => exact absurd hsafe id
  | ok req =>
    rw [show (parsed (.ok req : Res String OpenRequest)).run (st, d) = .ok req (st, d) from rfl]
    dsimp only
    cases hh : req.header with
    | error e => exact .refused
    | ok header => exact .openSession rfl (by simpa using hst) hp hh

theorem appendEvent_cases (hbody : body.length < 2^63) :
    Handled dataDir (Cmd.appendEvent.toU8 :: body) st d ((appendEvent body).run (st, d)) := by
  unfold appendEvent
  simp only [EStateM.run_bind, EStateM.run_get, run_ite]
  by_cases hst : ¬ st.helloDone ∨ ¬ st.sessionOpened
  · rw [if_pos hst]
    exact .refused
  rw [if_neg hst, parseAppend_eq hbody, ← EStateM.run_bind, parsed_run]
  cases hp : appendOf body with
  | error text => exact .refused
  | ok ev =>
    dsimp only
    cases hw : st.writer with
    | none => exact .refused
    | some w => exact .appendEvent rfl (by simpa [not_or] using hst) hw hp

theorem finishSession_cases :
    Handled dataDir (Cmd.finishSession.toU8 :: body) st d (finishSession.run (st, d)) := by
  unfold finishSession
  simp only [EStateM.run_bind, EStateM.run_get]
  cases hw : st.writer with
  | none => exact .refused
  | some w => exact .finishSession rfl hw

theorem flush_cases : Handled dataDir (Cmd.flush.toU8 :: body) st d (flush.run (st, d)) := by
  unfold flush
  simp only [EStateM.run_bind, EStateM.run_get]
  cases hw : st.writer with
  | none => exact .refused
  | some w => exact .flush rfl hw

/-- **everything that a request can do** -/
theorem handle_cases {frame : Bytes} (hframe : frame.length < 2^63) :
    Handled dataDir frame st d ((handle dataDir frame).run (st, d)) := by
  cases frame with
  | nil => exact .refused
  | cons opcode body =>
    rw [List.length_cons] at hframe
    simp only [handle]
    by_cases h1 : opcode = Cmd.hello.toU8
    · rw [if_pos h1, h1]
      exact hello_cases
    by_cases h2 : opcode = Cmd.intern.toU8
    · rw [if_neg h1, if_pos h2, h2]
      exact intern_cases
    by_cases h3 : opcode = Cmd.openSession.toU8
    · rw [if_neg h1, if_neg h2, if_pos h3, h3]
      exact openSession_cases (by omega)
    by_cases h4 : opcode = Cmd.appendEvent.toU8
    · rw [if_neg h1, if_neg h2, if_neg h3, if_pos h4, h4]
      exact appendEvent_cases (by omega)
    by_cases h5 : opcode = Cmd.finishSession.toU8
    · rw [if_neg h1, if_neg h2, if_neg h3, if_neg h4, if_pos h5, h5]
      exact finishSession_cases
    by_cases h6 : opcode = Cmd.ping.toU8
    · rw [if_neg h1, if_neg h2, if_neg h3, if_neg h4, if_neg h5, if_pos h6, h6]
      exact .ping rfl
    by_cases h7 : opcode = Cmd.flush.toU8
    · rw [if_neg h1, if_neg h2, if_neg h3, if_neg h4, if_neg h5, if_neg h6, if_pos h7, h7]
      exact flush_cases
    · rw [if_neg h1, if_neg h2, if_neg h3, if_neg h4, if_neg h5, if_neg h6, if_neg h7]
      exact .refused

end

end Dtj.Agent
