import Dtj.Sdk.Requests

/-!
# The Go SDK: a session with an agent that sends any bytes

`packages/dtj-go`: `Open`, `OpenStrict`, `Emit` and `Close` of `client.go` and `discovery.go`, on a
connection whose other end is no `dtj-agent` that can be trusted: it sends what it likes, or
nothing.

* `findAgent`, `startAgent`, `handshake`, `openStrict`, `openTrace`   how a session is opened;
* `readFrame`, `getOrIntern`, `emit`, `close`                         its calls;
* `readFrame_read`            how one frame is read;
* `Incoming.Stuck`, `Sound`   the bytes that lead to a panic or to a wait, and the sessions without;
* `emit_sound`, `close_sound` **the calls of a sound session return**;
* `emit_drains`               on a stuck connection, `Emit` comes nearer to the frame that is not read;
* `openStrict_iff`, `usable_iff`   **when a session is opened, and when it is usable**.
-/

namespace Dtj.Sdk.Go.Raw
open Wire Checked Agent

/-! ## the connection -/

/-- what the other end sends from here on: some bytes, and then it closes its end or is silent; or
one byte after the other, for ever -/
inductive Incoming where
  | bytes (bs : Bytes) (ends : Bool)
  | endless (byte : Nat → UInt8)

namespace Incoming

/-- `n` bytes come -/
def has (n : Nat) : Incoming → Bool
  | bytes bs _ => n ≤ bs.length
  | endless _ => true

def take (n : Nat) : Incoming → Bytes
  | bytes bs _ => bs.take n
  | endless byte => (List.range n).map byte

def drop (n : Nat) : Incoming → Incoming
  | bytes bs ends => bytes (bs.drop n) ends
  | endless byte => endless fun i => byte (n + i)

def ends : Incoming → Bool
  | bytes _ ends => ends
  | endless _ => false

end Incoming

/-- a connection, and which of the next writes fail -/
structure Conn where
  incoming : Incoming
  refuses : List Bool

abbrev Net (α : Type) := Prog Conn GoError α

/-- `io.ReadFull`: it waits for `n` bytes, unless the connection has ended -/
def readFull (what : String) (n : Nat) : Net Bytes := fun c =>
  if c.incoming.has n then
    .ok (c.incoming.take n) { c with incoming := c.incoming.drop n }
  else if c.incoming.ends then
    let eof := if c.incoming.has 1 then "unexpected EOF" else "EOF"
    .error (.error (.connectionError (utf8 (what ++ eof)))) { c with incoming := .bytes [] true }
  else .error .diverge c

/-- `payload[0]` is out of range if the length is 0 -/
def readFrame : Net (UInt8 × Bytes) := do
  let length := leNat (← readFull "failed to read frame length: " 4)
  if length > maxFrameSize then
    throw (.error (.protocolError 0 (utf8 s!"frame too large: {length}")))
  else
    let payload ← readFull "failed to read frame payload: " length
    return (← Prog.of (idx payload 0), ← Prog.of (slice payload 1 payload.length))

def writeFrame (what : String) (_frame : Bytes) : Net Unit := fun c =>
  match c.refuses with
  | [] => .ok () c
  | refused :: refuses =>
    if refused then
      .error (.error (.connectionError (utf8 (what ++ "write: broken pipe")))) { c with refuses }
    else .ok () { c with refuses }

section
variable {σ α : Type}

def pass (x : Except GoError α) : Prog σ GoError α := Prog.of (lift x)

/-- the checks of a reply -/
def expect (resp : Resp) (what : String) (reply : UInt8 × Bytes) : Except GoError Bytes :=
  if reply.1 = Resp.error.toU8 then .error (.protocolError reply.1 reply.2)
  else if reply.1 ≠ resp.toU8 then
    .error (.protocolError reply.1 (utf8 ("expected " ++ what)))
  else .ok reply.2

end

/-! ## the calls of a session -/

/-- a session; `conn` is nil for one that is disabled or closed -/
structure Session where
  conn : Option Conn
  closed : Bool
  cache : DictKind → Bytes → Option UInt32

abbrev Call (α : Type) := Prog Session GoError α

section
variable {α : Type}

/-- a method of a nil connection panics -/
def onConn (p : Net α) : Call α := fun s =>
  match s.conn with
  | none => .error .panic s
  | some c =>
    match p.run c with
    | .ok a c => .ok a { s with conn := some c }
    | .error e c => .error e { s with conn := some c }

def Session.remember (kind : DictKind) (name : Bytes) (id : UInt32) (s : Session) : Session :=
  { s with cache := fun k n => if k = kind ∧ n = name then some id else s.cache k n }

/-- one request, and its reply -/
def request (resp : Resp) (what : String) (frame : Except GoError Bytes) : Call Bytes := do
  let frame ← pass frame
  onConn (writeFrame "failed to write frame: " frame)
  pass (expect resp what (← onConn readFrame))

def getOrIntern (kind : DictKind) (name : Bytes) : Call UInt32 := do
  match (← get).cache kind name with
  | some id => return id
  | none =>
    let body ← request .internOk "InternOk" (encodeIntern kind.toU8 name)
    let id ← pass (decodeInternOk body)
    modify (Session.remember kind name id)
    return id

/-- a string is interned, everything else is encoded -/
def internValue : GoValue → Call (UInt8 × Bytes)
  | .string s => do return (0x0B, le 4 (← getOrIntern .string s).toNat)
  | value => pass (encodeValue value)

def internCorrelation (name : Bytes) : Call UInt32 :=
  if name = [] then pure 0 else getOrIntern .string name

/-- `Emit`, when `elapsed` nanoseconds have passed since the start of the session -/
def emit (event : Event) (elapsed : UInt64) : Call Unit := do
  if (← get).closed then return ()
  else if event.severity > 4 then
    throw (.error (.valueError (utf8 s!"invalid severity: {event.severity}")))
  else
    let domainId ← getOrIntern .domain event.domain
    let categoryId ← getOrIntern .category event.category
    let eventNameId ← getOrIntern .eventName event.name
    let correlationId ← internCorrelation event.correlation
    let fieldNameId ← getOrIntern .string event.fieldName
    let (typeTag, valueBody) ← internValue event.value
    let body ← request .appendEventOk "AppendEventOk" (encodeAppendEvent ⟨elapsed, domainId,
      categoryId, eventNameId, correlationId, event.severity, fieldNameId, typeTag, valueBody⟩)
    let _ ← pass (decodeAppendEventOk body)
    return ()

/-- a call whose error is dropped -/
def ignored (p : Call α) : Call Unit := fun s =>
  match p.run s with
  | .ok _ s => .ok () s
  | .error (.error _) s => .ok () s
  | .error e s => .error e s

def close : Call Unit := do
  if (← get).closed then return ()
  else
    modify fun s => { s with closed := true }
    match (← get).conn with
    | none => return ()
    | some _ =>
      match encodeFinishSession with
      | .ok frame =>
        ignored (onConn (writeFrame "" frame))
        ignored (onConn readFrame)
      | .error _ => pure ()
      modify fun s => { s with conn := none }

end

def perform : Method → Call Unit
  | .emit event elapsed => emit event elapsed
  | .close => close

/-- a call on the pointer that `Open` returned: the mutex of a nil session is none -/
def invoke (m : Method) : Prog (Option Session) GoError Unit := fun p =>
  match p with
  | none => .error .panic none
  | some s =>
    match (perform m).run s with
    | .ok _ s => .ok () (some s)
    | .error e s => .error e (some s)

/-- which writes of the next call fail -/
def Session.refusing (refuses : List Bool) (s : Session) : Session :=
  { s with conn := s.conn.map fun c => { c with refuses } }

/-- one call after the other, each with the writes that fail in it; none if one does not return -/
def calls : List (Method × List Bool) → Option Session → Option (Option Session)
  | [], p => some p
  | (m, refuses) :: ms, p =>
    match (invoke m).run (p.map (Session.refusing refuses)) with
    | .ok _ p => calls ms p
    | .error (.error _) p => calls ms p
    | .error _ _ => none

/-- **any calls return, with nil or with an error** -/
def Usable (p : Option Session) : Prop := ∀ ms, (calls ms p).isSome = true

/-! ## opening -/

structure Config where
  producerName : Bytes
  producerVersion : Bytes
  agentPath : Bytes
  socketPath : Bytes
  sessionFileName : Bytes
  enabled : Option Bool

/-- where an agent can be found; a file is executable or not, if it is there -/
structure Files where
  stat : Bytes → Option Bool
  env : Bytes
  lookPath : Option Bytes

/-- what `OpenStrict` gets from the system: the files that its two searches see, and the results of
its calls, or the texts of their errors -/
structure Host where
  first : Files
  second : Files
  mkdirTemp : Except Bytes Bytes
  mkdirAll : Except Bytes Unit
  start : Except Bytes Unit
  connect : Except Bytes Conn
  random : Except Bytes SessionId
  unixMilli : Int64
  unixNano : UInt64

def findAgent (agentPath : Bytes) (files : Files) : Except GoError Bytes :=
  if agentPath ≠ [] then
    match files.stat agentPath with
    | none =>
      .error (.agentNotFoundError (utf8 "specified agent_path not found: " ++ agentPath))
    | some executable =>
      if executable then .ok agentPath
      else .error (.agentNotFoundError
        (utf8 "specified agent_path not executable: " ++ agentPath))
  else if files.env ≠ [] ∧ files.stat files.env = some true then .ok files.env
  else .ok (files.lookPath.getD [])

/-- the path of the socket -/
def startAgent (cfg : Config) (host : Host) : Except GoError Bytes := do
  if cfg.socketPath ≠ [] then return cfg.socketPath
  let agentBinary ← findAgent cfg.agentPath host.second
  if agentBinary = [] then
    throw (.agentNotFoundError (utf8 ("dtj-agent not found. Install dtj-agent or set " ++
      "DTJ_AGENT_PATH. Tracing disabled.")))
  let failed (what : String) (e : Bytes) : GoError := .connectionError (utf8 what ++ e)
  let tempDir ← host.mkdirTemp.mapError (failed "failed to create temp dir: ")
  host.mkdirAll.mapError (failed "failed to create data dir: ")
  host.start.mapError (failed "failed to start dtj-agent: ")
  return tempDir ++ utf8 "/agent.sock"

def connectWithRetry (socketPath : Bytes) (host : Host) : Except GoError Conn :=
  host.connect.mapError fun e =>
    .connectionError (utf8 "failed to connect to agent at " ++ socketPath ++ utf8 ": " ++ e)

def encodeHello : Except GoError Bytes := encodeFrame Cmd.hello.toU8 (le 4 protocolVersion.toNat)

def decodeHelloOk (body : Bytes) : Except GoError UInt32 :=
  if body.length ≠ 4 then .error (.protocolError 0 (utf8 "HelloOk body must be 4 bytes"))
  else .ok (UInt32.ofNat (leAt body 0 4))

def newOpenSessionMetadata (fileName producerName producerVersion : Bytes) (host : Host) :
    Except GoError OpenSessionMetadata := do
  if producerName.length > 32 then throw (.valueError (utf8 "producer_name must be <= 32 bytes"))
  if producerVersion.length > 16 then
    throw (.valueError (utf8 "producer_version must be <= 16 bytes"))
  let sessionId ← host.random.mapError fun e =>
    .protocolError 0 (utf8 "failed to generate session ID: " ++ e)
  return ⟨fileName, sessionId, host.unixMilli, host.unixNano, producerName, producerVersion⟩

/-- the name of the file, by default -/
def fileName (cfg : Config) (host : Host) : Bytes :=
  if cfg.sessionFileName = [] then utf8 s!"session-{host.unixMilli.toInt}.dtj"
  else cfg.sessionFileName

def handshake (cfg : Config) (host : Host) : Net Unit := do
  writeFrame "" (← pass encodeHello)
  let body ← pass (expect .helloOk "HelloOk" (← readFrame))
  let version ← pass (decodeHelloOk body)
  if version ≠ protocolVersion then
    throw (.error (.protocolError 0
      (utf8 s!"protocol version mismatch: {version} != {protocolVersion}")))
  else
    let metadata ← pass (newOpenSessionMetadata (fileName cfg host) cfg.producerName
      cfg.producerVersion host)
    writeFrame "" (← pass (encodeOpenSession metadata))
    let _ ← pass (expect .openSessionOk "OpenSessionOk" (← readFrame))
    return ()

/-- a disabled session -/
def newNoOpSession : Session := ⟨none, true, fun _ _ => none⟩

/-- the session, or the error beside a nil session -/
def openStrict (cfg : Config) (host : Host) : Res GoError Session := do
  if cfg.enabled = some false then return newNoOpSession
  else
    let agentBinary ← lift (findAgent cfg.agentPath host.first)
    if agentBinary = [] then return newNoOpSession
    else
      let socketPath ← lift (startAgent cfg host)
      let conn ← lift (connectWithRetry socketPath host)
      match (handshake cfg host).run conn with
      | .ok _ conn => return ⟨some conn, false, fun _ _ => none⟩
      | .error e _ => .error e

/-- `Open`: `sess, _ := OpenStrict(cfg)` -/
def openTrace (cfg : Config) (host : Host) : Res GoError (Option Session) :=
  if cfg.enabled = some false then return some newNoOpSession
  else
    match openStrict cfg host with
    | .ok sess => return some sess
    | .error (.error _) => return none
    | .error e => .error e

/-! ## one frame -/

namespace Incoming
variable {inc : Incoming} {m n : Nat}

theorem take_length (h : inc.has n = true) : (inc.take n).length = n := by
  cases inc with
  | bytes bs ends => exact List.length_take_of_le (of_decide_eq_true h)
  | endless byte => exact (List.length_map ..).trans List.length_range

theorem has_drop (h : inc.has n = true) : (inc.drop n).has m = inc.has (n + m) := by
  cases inc with
  | bytes bs ends =>
    have hn : n ≤ bs.length := of_decide_eq_true h
    have hlen : (bs.drop n).length = bs.length - n := List.length_drop
    exact decide_eq_decide.mpr (by omega)
  | endless byte => rfl

theorem ends_drop : (inc.drop n).ends = inc.ends := by
  cases inc <;> rfl

theorem drop_drop : (inc.drop n).drop m = inc.drop (n + m) := by
  cases inc with
  | bytes bs ends => exact congrArg (bytes · ends) List.drop_drop
  | endless byte =>
    refine congrArg endless (funext fun i => ?_)
    rw [Nat.add_assoc]

theorem take_add : inc.take (n + m) = inc.take n ++ (inc.drop n).take m := by
  cases inc with
  | bytes bs ends => exact List.take_add
  | endless byte =>
    show (List.range (n + m)).map byte = _
    rw [List.range_add, List.map_append, List.map_map]
    rfl

theorem has_mono (h : inc.has m = true) (hn : n ≤ m) : inc.has n = true := by
  cases inc with
  | bytes bs ends => exact decide_eq_true (hn.trans (of_decide_eq_true h))
  | endless byte => rfl

/-- the declared length of the next frame -/
def len (inc : Incoming) : Nat := leNat (inc.take 4)

/-- the next frame does not come whole -/
def Cut (inc : Incoming) : Prop :=
  inc.has 4 = false ∨ inc.has (4 + inc.len) = false ∧ inc.len ≤ maxFrameSize

/-- the next frame comes, and it can be read -/
structure Whole (inc : Incoming) : Prop where
  all : inc.has (4 + inc.len) = true
  filled : inc.len ≠ 0
  small : inc.len ≤ maxFrameSize

theorem Whole.has4 (h : inc.Whole) : inc.has 4 = true := has_mono h.all (by omega)

theorem Whole.not_cut (h : inc.Whole) : ¬ inc.Cut := by
  rintro (h4 | ⟨hall, _⟩)
  · rw [h.has4] at h4
    cases h4
  · rw [h.all] at hall
    cases hall

theorem Cut.not_empty (h : inc.Cut) (h4 : inc.has 4 = true) : inc.len ≠ 0 := by
  intro h0
  obtain h | ⟨h, _⟩ := h
  · rw [h4] at h
    cases h
  · rw [h0, h4] at h
    cases h

theorem Cut.not_large (h : inc.Cut) (h4 : inc.has 4 = true) : inc.len ≤ maxFrameSize := by
  obtain h | ⟨_, h⟩ := h
  · rw [h4] at h
    cases h
  · exact h

/-- the next frame, if it has these bytes -/
theorem len_take {body : Bytes} (h : inc.take (4 + body.length) = frameBytes body)
    (hlen : body.length ≤ maxFrameSize) :
    inc.has (4 + body.length) = true ∧ inc.len = body.length := by
  have hmax : maxFrameSize = 1048576 := rfl
  have hfl : (frameBytes body).length = 4 + body.length := by
    rw [frameBytes, List.length_append, le_length]
  have hhas : inc.has (4 + body.length) = true := by
    cases inc with
    | bytes bs ends =>
      have hle := congrArg List.length h
      rw [hfl] at hle
      refine decide_eq_true ?_
      rw [← hle]
      exact List.length_take_le' _ _
    | endless byte => rfl
  have h4 : inc.take 4 = le 4 body.length := by
    rw [take_add, frameBytes] at h
    refine (List.append_inj h ?_).1
    rw [le_length]
    exact take_length (has_mono hhas (by omega))
  refine ⟨hhas, ?_⟩
  rw [len, h4, leNat_le _ _ (by omega)]

end Incoming

/-- the connection after `n` bytes -/
def Conn.skip (n : Nat) (c : Conn) : Conn := { c with incoming := c.incoming.drop n }

section
variable {c : Conn}

/-- what `ReadFrame` leads to -/
inductive Read (c : Conn) : EStateM.Result (Abort GoError) Conn (UInt8 × Bytes) → Prop
  | silent (hends : c.incoming.ends = false) (h : c.incoming.Cut) (c' : Conn) :
      Read c (.error .diverge c')
  | ended (hends : c.incoming.ends = true) (h : c.incoming.Cut) (e : GoError) :
      Read c (.error (.error e) { c with incoming := .bytes [] true })
  | empty (h4 : c.incoming.has 4 = true) (h0 : c.incoming.len = 0) (c' : Conn) :
      Read c (.error .panic c')
  | large (h4 : c.incoming.has 4 = true) (hmax : c.incoming.len > maxFrameSize) (e : GoError) :
      Read c (.error (.error e) (c.skip 4))
  | frame {opcode body} (h : c.incoming.Whole)
      (hbody : c.incoming.take (4 + c.incoming.len) = frameBytes (opcode :: body)) :
      Read c (.ok (opcode, body) (c.skip (4 + c.incoming.len)))

theorem readFull_all {what : String} {n : Nat} (h : c.incoming.has n = true) :
    (readFull what n).run c = .ok (c.incoming.take n) (c.skip n) := if_pos h

theorem readFull_ended {what : String} {n : Nat} (h : c.incoming.has n = false)
    (he : c.incoming.ends = true) :
    ∃ e, (readFull what n).run c = .error (.error e) { c with incoming := .bytes [] true } := by
  refine ⟨.connectionError (utf8 (what ++ if c.incoming.has 1 then "unexpected EOF" else "EOF")), ?_⟩
  show (if c.incoming.has n = true then _ else if c.incoming.ends = true then _ else _) = _
  rw [if_neg (ne_true_of_eq_false h), if_pos he]

theorem readFull_silent {what : String} {n : Nat} (h : c.incoming.has n = false)
    (he : c.incoming.ends = false) : (readFull what n).run c = .error .diverge c := by
  show (if c.incoming.has n = true then _ else if c.incoming.ends = true then _ else _) = _
  rw [if_neg (ne_true_of_eq_false h), if_neg (ne_true_of_eq_false he)]

/-- **one frame**: it is read whole, or refused, or it is empty, or the call waits for ever -/
theorem readFrame_read (c : Conn) : Read c (readFrame.run c) := by
  rw [readFrame, EStateM.run_bind]
  cases h4 : c.incoming.has 4 with
  | false =>
    cases he : c.incoming.ends with
    | false =>
      rw [readFull_silent h4 he]
      exact .silent he (.inl h4) c
    | true =>
      obtain ⟨e, hr⟩ := @readFull_ended c "failed to read frame length: " 4 h4 he
      rw [hr]
      exact .ended he (.inl h4) e
  | true =>
  rw [readFull_all h4]
  dsimp only
  rw [show leNat (c.incoming.take 4) = c.incoming.len from rfl, run_ite]
  by_cases hmax : c.incoming.len > maxFrameSize
  · rw [if_pos hmax]
    exact .large h4 hmax _
  rw [if_neg hmax, EStateM.run_bind]
  have hrest : (c.skip 4).incoming.has c.incoming.len = c.incoming.has (4 + c.incoming.len) :=
    Incoming.has_drop h4
  cases hall : c.incoming.has (4 + c.incoming.len) with
  | false =>
    cases he : c.incoming.ends with
    | false =>
      rw [readFull_silent (hrest.trans hall) (Incoming.ends_drop.trans he)]
      exact .silent he (.inr ⟨hall, not_lt.mp hmax⟩) _
    | true =>
      obtain ⟨e, hr⟩ := @readFull_ended (c.skip 4) "failed to read frame payload: " _
        (hrest.trans hall) (Incoming.ends_drop.trans he)
      rw [hr]
      exact .ended he (.inr ⟨hall, not_lt.mp hmax⟩) e
  | true =>
  rw [readFull_all (hrest.trans hall)]
  dsimp only
  have hlen : ((c.skip 4).incoming.take c.incoming.len).length = c.incoming.len :=
    Incoming.take_length (hrest.trans hall)
  have hskip : (c.skip 4).skip c.incoming.len = c.skip (4 + c.incoming.len) :=
    congrArg (Conn.mk · c.refuses) Incoming.drop_drop
  have htake : c.incoming.take (4 + c.incoming.len)
      = c.incoming.take 4 ++ (c.skip 4).incoming.take c.incoming.len := Incoming.take_add
  cases hpayload : (c.skip 4).incoming.take c.incoming.len with
  | nil =>
    rw [hpayload] at hlen
    rw [EStateM.run_bind]
    exact .empty h4 hlen.symm _
  | cons opcode body =>
    rw [hpayload] at hlen htake
    have hslice : (slice (opcode :: body) 1 (opcode :: body).length : Res GoError Bytes)
        = .ok body := by
      rw [slice_eq (by rw [List.length_cons]; omega) (le_refl _)]
      show Except.ok (body.take _) = _
      rw [List.length_cons, Nat.add_sub_cancel, List.take_length]
    rw [EStateM.run_bind, idx_getD (by rw [List.length_cons]; omega), Prog.of_ok]
    dsimp only
    rw [EStateM.run_bind, hslice, Prog.of_ok, hskip]
    refine .frame ⟨hall, ?_, not_lt.mp hmax⟩ ?_
    · rw [← hlen]
      exact Nat.succ_ne_zero _
    · have hop : (opcode :: body).getD 0 0 = opcode := rfl
      rw [htake, hop, frameBytes, hlen]
      congr 1
      have hle := le_leNat (c.incoming.take 4)
      rw [Incoming.take_length h4] at hle
      exact hle.symm

/-! ## what a connection needs -/

/-- the frames, as they are read, lead to one that is declared to be empty, or to one that never
comes, after `n` others; the bytes of a frame that is too large are read as frames, too -/
inductive Incoming.Stuck : Nat → Incoming → Prop
  | silent {inc} (hends : inc.ends = false) (h : inc.Cut) : Stuck 0 inc
  | empty {inc} (h4 : inc.has 4 = true) (h0 : inc.len = 0) : Stuck 0 inc
  | large {n inc} (h4 : inc.has 4 = true) (hmax : inc.len > maxFrameSize)
      (h : Stuck n (inc.drop 4)) : Stuck (n + 1) inc
  | frame {n inc} (hw : inc.Whole) (h : Stuck n (inc.drop (4 + inc.len))) : Stuck (n + 1) inc

/-- **every frame comes and has an opcode, or the other end closes the connection** -/
def Conn.Sound (c : Conn) : Prop := ∀ n, ¬ c.incoming.Stuck n

theorem not_stuck_ended {n : Nat} : ¬ Incoming.Stuck n (.bytes [] true) := by
  intro h
  cases h with
  | silent hends => cases hends
  | empty h4 => cases h4
  | large h4 => cases h4
  | frame hw => exact absurd hw.has4 Bool.false_ne_true

/-- silence is met in the end -/
theorem stuck_silent (bs : Bytes) : ∃ n, Incoming.Stuck n (.bytes bs false) := by
  induction hlen : bs.length using Nat.strong_induction_on generalizing bs with
  | _ k ih =>
    subst hlen
    generalize hinc : Incoming.bytes bs false = inc
    have hdrop (m : Nat) (h0 : 0 < m) (hm : inc.has m = true) : ∃ n, (inc.drop m).Stuck n := by
      subst hinc
      have hle : m ≤ bs.length := of_decide_eq_true hm
      refine ih (bs.drop m).length ?_ _ rfl
      rw [List.length_drop]
      omega
    have hends : inc.ends = false := by rw [← hinc]; rfl
    cases h4 : inc.has 4 with
    | false => exact ⟨0, .silent hends (.inl h4)⟩
    | true =>
    by_cases hmax : inc.len > maxFrameSize
    · obtain ⟨n, hn⟩ := hdrop 4 (by omega) h4
      exact ⟨n + 1, .large h4 hmax hn⟩
    by_cases h0 : inc.len = 0
    · exact ⟨0, .empty h4 h0⟩
    cases hall : inc.has (4 + inc.len) with
    | false => exact ⟨0, .silent hends (.inr ⟨hall, not_lt.mp hmax⟩)⟩
    | true =>
      obtain ⟨n, hn⟩ := hdrop (4 + inc.len) (by omega) hall
      exact ⟨n + 1, .frame ⟨hall, h0, not_lt.mp hmax⟩ hn⟩

/-- **a frame of a sound connection**: the call returns, and the connection stays sound -/
theorem readFrame_sound (h : c.Sound) : Ends True Conn.Sound (readFrame.run c) := by
  have hread := readFrame_read c
  generalize readFrame.run c = r at hread
  cases hread with
  | silent hends hcut => exact absurd (.silent hends hcut) (h 0)
  | ended => exact fun n => not_stuck_ended
  | empty h4 h0 => exact absurd (.empty h4 h0) (h 0)
  | large h4 hmax => exact fun n hn => h (n + 1) (.large h4 hmax hn)
  | frame hw => exact fun n hn => h (n + 1) (.frame hw hn)

theorem writeFrame_sound {what : String} {frame : Bytes} (h : c.Sound) :
    Ends True Conn.Sound ((writeFrame what frame).run c) := by
  show Ends True Conn.Sound (match c.refuses with | [] => _ | refused :: refuses => _)
  cases hr : c.refuses with
  | nil => exact h
  | cons refused refuses =>
    cases refused with
    | true => exact h
    | false => exact h

end

/-! ## the calls of a sound session -/

/-- an open session has a connection, and it is sound -/
structure Session.Sound (s : Session) : Prop where
  conn : ∀ c, s.conn = some c → c.Sound
  live : s.closed = false → s.conn.isSome = true

section
variable {s : Session} {α : Type}

/-- a session whose connection is sound -/
def Session.Live (s : Session) : Prop := s.Sound ∧ s.conn.isSome = true

theorem onConn_sound {p : Net α} (h : s.Live) (hp : ∀ c, c.Sound → Ends True Conn.Sound (p.run c)) :
    Ends True (fun s' => s'.Live ∧ s'.closed = s.closed) ((onConn p).run s) := by
  obtain ⟨c, hconn⟩ := Option.isSome_iff_exists.mp h.2
  have hpc := hp c (h.1.conn c hconn)
  have hafter : ∀ c', Conn.Sound c' → Session.Live { s with conn := some c' } := by
    intro c' hc'
    refine ⟨⟨fun c'' hs => ?_, fun _ => rfl⟩, rfl⟩
    cases hs
    exact hc'
  rw [show (onConn p).run s = onConn p s from rfl, onConn, hconn]
  dsimp only
  cases hr : p.run c with
  | ok a c' =>
    rw [hr] at hpc
    exact ⟨hafter c' hpc, rfl⟩
  | error e c' =>
    rw [hr] at hpc
    cases e with
    | error e => exact ⟨hafter c' hpc, rfl⟩
    | panic => exact absurd trivial hpc.2
    | diverge => exact absurd trivial hpc.2

theorem write_live {what : String} {frame : Bytes} (h : s.Live) :
    Ends True (fun s' => s'.Live ∧ s'.closed = s.closed) ((onConn (writeFrame what frame)).run s) :=
  onConn_sound h fun _ hc => writeFrame_sound hc

theorem read_live (h : s.Live) :
    Ends True (fun s' => s'.Live ∧ s'.closed = s.closed) ((onConn readFrame).run s) :=
  onConn_sound h fun _ hc => readFrame_sound hc

theorem pass_live {x : Except GoError α} (h : s.Live) :
    Ends True Session.Live ((pass x : Call α).run s) := by
  cases x <;> exact h

theorem request_live {resp : Resp} {what : String} {frame : Except GoError Bytes} (h : s.Live) :
    Ends True Session.Live ((request resp what frame).run s) := by
  refine (pass_live h).bind (fun _ h => h) fun bytes s₁ _ h₁ => ?_
  refine (write_live h₁).bind (fun _ h => h.1) fun _ s₂ _ h₂ => ?_
  refine (read_live h₂.1).bind (fun _ h => h.1) fun reply s₃ _ h₃ => ?_
  exact pass_live h₃.1

theorem getOrIntern_live {kind : DictKind} {name : Bytes} (h : s.Live) :
    Ends True Session.Live ((getOrIntern kind name).run s) := by
  rw [getOrIntern, EStateM.run_bind]
  simp only [EStateM.run_get]
  cases s.cache kind name with
  | some id => exact h
  | none =>
    refine (request_live h).bind (fun _ h => h) fun body s₁ _ h₁ => ?_
    refine (pass_live h₁).bind (fun _ h => h) fun id s₂ _ h₂ => ?_
    exact ⟨⟨h₂.1.conn, h₂.1.live⟩, h₂.2⟩

theorem internValue_live {value : GoValue} (h : s.Live) :
    Ends True Session.Live ((internValue value).run s) := by
  unfold internValue
  split
  · exact (getOrIntern_live h).bind (fun _ h => h) fun id s₁ _ h₁ => h₁
  · exact pass_live h

theorem internCorrelation_live {name : Bytes} (h : s.Live) :
    Ends True Session.Live ((internCorrelation name).run s) := by
  unfold internCorrelation
  split
  · exact h
  · exact getOrIntern_live h

/-- **`Emit` of a sound session returns** -/
theorem emit_sound {event : Event} {elapsed : UInt64} (h : s.Sound) :
    Ends True Session.Sound ((emit event elapsed).run s) := by
  rw [emit, EStateM.run_bind]
  simp only [EStateM.run_get, run_ite]
  by_cases hclosed : s.closed = true
  · rw [if_pos hclosed]
    exact h
  rw [if_neg hclosed]
  split
  · exact h
  refine Ends.mono ?_ id fun _ (h : Session.Live _) => h.1
  refine (getOrIntern_live ⟨h, h.live (Bool.eq_false_iff.mpr hclosed)⟩).bind (fun _ h => h)
    fun _ s₁ _ h₁ => ?_
  refine (getOrIntern_live h₁).bind (fun _ h => h) fun _ s₂ _ h₂ => ?_
  refine (getOrIntern_live h₂).bind (fun _ h => h) fun _ s₃ _ h₃ => ?_
  refine (internCorrelation_live h₃).bind (fun _ h => h) fun _ s₄ _ h₄ => ?_
  refine (getOrIntern_live h₄).bind (fun _ h => h) fun _ s₅ _ h₅ => ?_
  refine (internValue_live h₅).bind (fun _ h => h) fun ⟨typeTag, valueBody⟩ s₆ _ h₆ => ?_
  refine (request_live h₆).bind (fun _ h => h) fun body s₇ _ h₇ => ?_
  exact (pass_live h₇).bind (fun _ h => h) fun _ s₈ _ h₈ => h₈

theorem ignored_ends {p : Call α} {Q : Session → Prop} (h : Ends True Q (p.run s)) :
    Ends True Q ((ignored p).run s) := by
  rw [show (ignored p).run s = ignored p s from rfl, ignored]
  cases hr : p.run s with
  | ok a s' =>
    rw [hr] at h
    exact h
  | error e s' =>
    rw [hr] at h
    cases e with
    | error e => exact h
    | panic => exact absurd trivial h.2
    | diverge => exact absurd trivial h.2

/-- **`Close` of a sound session returns** -/
theorem close_sound (h : s.Sound) : Ends True Session.Sound (close.run s) := by
  rw [close, EStateM.run_bind]
  simp only [EStateM.run_get, run_ite]
  by_cases hclosed : s.closed = true
  · rw [if_pos hclosed]
    exact h
  rw [if_neg hclosed]
  have hopen := h.live (Bool.eq_false_iff.mpr hclosed)
  obtain ⟨c, hconn⟩ := Option.isSome_iff_exists.mp hopen
  have hlive : Session.Live { s with closed := true } :=
    ⟨⟨h.conn, fun hopen => by cases hopen⟩, hopen⟩
  have hlast : ∀ s' : Session, s'.closed = true → Session.Sound { s' with conn := none } := by
    intro s' hc'
    refine ⟨fun c hc => ?_, fun hopen => ?_⟩
    · cases hc
    · rw [hc'] at hopen
      cases hopen
  show Ends True Session.Sound ((match s.conn with | none => _ | some _ => _ : Call Unit).run _)
  rw [hconn]
  refine (ignored_ends (write_live hlive)).bind (fun _ h => h.1.1) fun _ s₁ _ h₁ => ?_
  refine (ignored_ends (read_live h₁.1)).bind (fun _ h => h.1.1) fun _ s₂ _ h₂ => ?_
  exact hlast s₂ (h₂.2.trans h₁.2)

theorem refusing_sound (h : s.Sound) (refuses : List Bool) : (s.refusing refuses).Sound := by
  constructor
  · intro c hc
    obtain ⟨c', hc', rfl⟩ := Option.map_eq_some_iff.mp hc
    exact h.conn c' hc'
  · intro hopen
    rw [Session.refusing, Option.isSome_map]
    exact h.live hopen

theorem invoke_sound (h : s.Sound) (m : Method) :
    Ends True (fun p => ∃ s', p = some s' ∧ s'.Sound) ((invoke m).run (some s)) := by
  have hm : Ends True Session.Sound ((perform m).run s) := by
    cases m with
    | emit event elapsed => exact emit_sound h
    | close => exact close_sound h
  show Ends True _ (invoke m (some s))
  unfold invoke
  dsimp only
  cases hr : (perform m).run s with
  | ok _ s' =>
    rw [hr] at hm
    exact ⟨s', rfl, hm⟩
  | error e s' =>
    rw [hr] at hm
    cases e with
    | error e => exact ⟨s', rfl, hm⟩
    | panic => exact absurd trivial hm.2
    | diverge => exact absurd trivial hm.2

/-- **the calls of a sound session return** -/
theorem usable_of_sound (h : s.Sound) : Usable (some s) := by
  intro ms
  induction ms generalizing s with
  | nil => rfl
  | cons call ms ih =>
    obtain ⟨m, refuses⟩ := call
    have hm := invoke_sound (refusing_sound h refuses) m
    rw [calls, Option.map_some]
    cases hr : (invoke m).run (some (s.refusing refuses)) with
    | ok _ p =>
      rw [hr] at hm
      obtain ⟨s', rfl, hs'⟩ := hm
      exact ih hs'
    | error e p =>
      rw [hr] at hm
      cases e with
      | error e =>
        obtain ⟨s', rfl, hs'⟩ := hm
        exact ih hs'
      | panic => exact absurd trivial hm.2
      | diverge => exact absurd trivial hm.2

end

/-! ## a stuck connection -/

/-- an open session whose connection is stuck after `n` frames -/
structure Session.Stuck (n : Nat) (s : Session) : Prop where
  opened : s.closed = false
  conn : ∃ c, s.conn = some c ∧ c.refuses = [] ∧ c.incoming.Stuck n

/-- the call does not return; or there are, when it returns, at least `i` frames less before the one
that cannot be read, or `j` if it returns an error -/
def Drains {α : Type} (i j n : Nat) : EStateM.Result (Abort GoError) Session α → Prop
  | .ok _ s => ∃ m, m + i ≤ n ∧ s.Stuck m
  | .error (.error _) s => ∃ m, m + j ≤ n ∧ s.Stuck m
  | .error _ _ => True

section
variable {i j n : Nat} {s : Session} {α β : Type}

theorem Drains.bind {x : Call α} {f : α → Call β} {p q k l : Nat} (hx : Drains i j n (x.run s))
    (hk : k ≤ i + p) (hl : l ≤ j ∧ l ≤ i + q)
    (hf : ∀ a s' m, x.run s = .ok a s' → s'.Stuck m → Drains p q m ((f a).run s')) :
    Drains k l n ((x >>= f).run s) := by
  rw [EStateM.run_bind]
  cases hr : x.run s with
  | ok a s' =>
    rw [hr] at hx
    obtain ⟨m, hm, hs'⟩ := hx
    dsimp only
    have hfa := hf a s' m hr hs'
    cases hra : (f a).run s' with
    | ok b s'' =>
      rw [hra] at hfa
      obtain ⟨m', hm', hs''⟩ := hfa
      exact ⟨m', by omega, hs''⟩
    | error e s'' =>
      rw [hra] at hfa
      cases e with
      | error e =>
        obtain ⟨m', hm', hs''⟩ := hfa
        exact ⟨m', by omega, hs''⟩
      | panic => trivial
      | diverge => trivial
  | error e s' =>
    rw [hr] at hx
    cases e with
    | error e =>
      obtain ⟨m, hm, hs'⟩ := hx
      exact ⟨m, by omega, hs'⟩
    | panic => trivial
    | diverge => trivial

theorem pure_drains (a : α) (h : s.Stuck n) : Drains 0 j n ((pure a : Call α).run s) :=
  ⟨n, le_refl n, h⟩

theorem pass_drains (x : Except GoError α) (h : s.Stuck n) :
    Drains 0 0 n ((pass x : Call α).run s) := by
  cases x with
  | ok a => exact ⟨n, le_refl n, h⟩
  | error e => exact ⟨n, le_refl n, h⟩

theorem write_drains {what : String} {frame : Bytes} (h : s.Stuck n) :
    Drains 0 j n ((onConn (writeFrame what frame)).run s) := by
  obtain ⟨c, hconn, hrefuses, hstuck⟩ := h.conn
  have hw : (writeFrame what frame).run c = .ok () c := by
    rw [show (writeFrame what frame).run c = writeFrame what frame c from rfl, writeFrame, hrefuses]
  rw [show (onConn (writeFrame what frame)).run s = onConn (writeFrame what frame) s from rfl,
    onConn, hconn]
  dsimp only
  rw [hw]
  exact ⟨n, le_refl n, h.opened, c, rfl, hrefuses, hstuck⟩

/-- **a read on a stuck connection** does not return, or it takes a frame -/
theorem read_drains (h : s.Stuck n) : Drains 1 1 n ((onConn readFrame).run s) := by
  obtain ⟨c, hconn, hrefuses, hstuck⟩ := h.conn
  rw [show (onConn readFrame).run s = onConn readFrame s from rfl, onConn, hconn]
  dsimp only
  have hread := readFrame_read c
  generalize readFrame.run c = r at hread
  cases hread with
  | silent => trivial
  | ended hends hcut =>
    cases hstuck with
    | silent hends' =>
      rw [hends] at hends'
      cases hends'
    | empty h4 h0 => exact absurd h0 (hcut.not_empty h4)
    | large h4 hmax => exact absurd (hcut.not_large h4) (not_le.mpr hmax)
    | frame hw => exact absurd hcut hw.not_cut
  | empty => trivial
  | large h4 hmax =>
    cases hstuck with
    | silent _ hcut => exact absurd (hcut.not_large h4) (not_le.mpr hmax)
    | empty _ h0 =>
      rw [h0] at hmax
      exact absurd hmax (Nat.not_lt_zero _)
    | large _ _ hnext => exact ⟨_, le_refl _, h.opened, _, rfl, hrefuses, hnext⟩
    | frame hw => exact absurd hw.small (not_le.mpr hmax)
  | frame hw =>
    cases hstuck with
    | silent _ hcut => exact absurd hcut hw.not_cut
    | empty _ h0 => exact absurd h0 hw.filled
    | large _ hmax => exact absurd hw.small (not_le.mpr hmax)
    | frame _ hnext => exact ⟨_, le_refl _, h.opened, _, rfl, hrefuses, hnext⟩

theorem request_drains {resp : Resp} {what : String} {frame : Bytes} (h : s.Stuck n) :
    Drains 1 1 n ((request resp what (.ok frame)).run s) := by
  refine (write_drains (s := s) (j := 1) h).bind (p := 1) (q := 1) (by omega) (by omega)
    fun _ s₁ m _ h₁ => ?_
  refine (read_drains h₁).bind (p := 0) (q := 0) (by omega) (by omega) fun reply s₂ m' _ h₂ => ?_
  exact pass_drains _ h₂

theorem getOrIntern_drains {kind : DictKind} {name frame : Bytes} (h : s.Stuck n)
    (hframe : encodeIntern kind.toU8 name = .ok frame) :
    Drains 0 1 n ((getOrIntern kind name).run s) := by
  rw [getOrIntern, EStateM.run_bind]
  simp only [EStateM.run_get]
  cases s.cache kind name with
  | some id => exact ⟨n, le_refl n, h⟩
  | none =>
    rw [hframe]
    refine (request_drains h).bind (p := 0) (q := 0) (by omega) (by omega) fun body s₁ m _ h₁ => ?_
    refine (pass_drains _ h₁).bind (p := 0) (q := 0) (by omega) (by omega) fun id s₂ m' _ h₂ => ?_
    obtain ⟨hopened, c, hconn⟩ := h₂
    exact ⟨m', le_refl m', hopened, c, hconn⟩

/-- **`Emit` on a stuck connection** does not return, or it takes a frame -/
theorem emit_drains (elapsed : UInt64) (h : s.Stuck n) :
    Drains 1 1 n ((emit exampleEvent elapsed).run s) := by
  rw [emit, EStateM.run_bind]
  simp only [EStateM.run_get, run_ite]
  rw [if_neg (ne_true_of_eq_false h.opened), if_neg (by decide)]
  have hnext (kind : DictKind) (name : Bytes) (hname : name.length ≤ 1024) (s' : Session) (m : Nat)
      (h' : s'.Stuck m) : Drains 0 1 m ((getOrIntern kind name).run s') := by
    have hframe : encodeIntern kind.toU8 name
        = .ok (frameBytes (Cmd.intern.toU8 :: kind.toU8 :: (le 2 name.length ++ name))) := by
      have hmax : maxFrameSize = 1048576 := rfl
      rw [encodeIntern, if_neg (by omega), encodeFrame, if_neg]
      simp only [List.length_cons, List.length_append, le_length]
      omega
    exact getOrIntern_drains h' hframe
  refine (hnext .domain _ (by decide) s n h).bind (p := 1) (q := 1) (by omega) (by omega)
    fun domainId s₁ m₁ _ h₁ => ?_
  refine (hnext .category _ (by decide) s₁ m₁ h₁).bind (p := 1) (q := 1) (by omega) (by omega)
    fun categoryId s₂ m₂ _ h₂ => ?_
  refine (hnext .eventName _ (by decide) s₂ m₂ h₂).bind (p := 1) (q := 1) (by omega) (by omega)
    fun eventNameId s₃ m₃ _ h₃ => ?_
  refine (pure_drains (j := 1) 0 h₃).bind (p := 1) (q := 1) (by omega) (by omega)
    fun correlationId s₄ m₄ _ h₄ => ?_
  refine (hnext .string _ (by decide) s₄ m₄ h₄).bind (p := 1) (q := 1) (by omega) (by omega)
    fun fieldNameId s₅ m₅ _ h₅ => ?_
  refine (pure_drains (j := 1) (0x03, le 8 7) h₅).bind (p := 1) (q := 1) (by omega) (by omega)
    fun value s₆ m₆ hvalue h₆ => ?_
  cases hvalue
  refine Drains.bind (i := 1) (j := 1) (p := 0) (q := 0) ?_ (by omega) (by omega)
    fun body s₇ m₇ _ h₇ => ?_
  · have hmax : maxFrameSize = 1048576 := rfl
    have hframe (a : Appended) (ha : a.valueBody.length = 8) :
        encodeAppendEvent a = .ok (frameBytes (Cmd.appendEvent.toU8 :: a.request.tail)) := by
      rw [encodeAppendEvent, encodeFrame, if_neg]
      simp only [Appended.request, List.tail_cons, List.length_append, List.length_cons, le_length,
        ha, List.length_nil]
      omega
    rw [hframe _ (le_length _ _)]
    exact request_drains h₆
  refine (pass_drains _ h₇).bind (p := 0) (q := 0) (by omega) (by omega)
    fun _ s₈ m₈ _ h₈ => ?_
  exact pure_drains () h₈

theorem Session.Stuck.refusing (h : s.Stuck n) : (s.refusing []).Stuck n := by
  obtain ⟨hopen, c, hconn, hrefuses, hstuck⟩ := h
  exact ⟨hopen, { c with refuses := [] }, congrArg (Option.map _) hconn, rfl, hstuck⟩

/-- **the calls of a stuck session** do not all return -/
theorem not_usable (h : (s.refusing []).Stuck n) : ¬ Usable (some s) := by
  have hcalls : ∀ k n (s : Session), (s.refusing []).Stuck n → n < k →
      calls (List.replicate k (.emit exampleEvent 0, [])) (some s) = none := by
    intro k
    induction k with
    | zero =>
      intro n s _ hn
      cases hn
    | succ k ih =>
      intro n s hs hn
      have hemit := emit_drains 0 hs
      rw [List.replicate_succ, calls, Option.map_some]
      rw [show (invoke (.emit exampleEvent 0)).run (some (s.refusing []))
        = invoke (.emit exampleEvent 0) (some (s.refusing [])) from rfl]
      unfold invoke
      dsimp only [perform]
      cases hr : (emit exampleEvent 0).run (s.refusing []) with
      | ok a s' =>
        rw [hr] at hemit
        obtain ⟨m, hm, hs'⟩ := hemit
        exact ih m s' hs'.refusing (by omega)
      | error e s' =>
        rw [hr] at hemit
        cases e with
        | error e =>
          obtain ⟨m, hm, hs'⟩ := hemit
          exact ih m s' hs'.refusing (by omega)
        | panic => rfl
        | diverge => rfl
  intro husable
  have hall := husable (List.replicate (n + 1) (.emit exampleEvent 0, []))
  rw [hcalls (n + 1) n s h (Nat.lt_succ_self n)] at hall
  cases hall

/-- **when the calls of an open session return** -/
theorem usable_iff_sound {c : Conn} {cache : DictKind → Bytes → Option UInt32} :
    Usable (some ⟨some c, false, cache⟩) ↔ c.Sound := by
  constructor
  · intro h n hstuck
    exact not_usable ⟨rfl, { c with refuses := [] }, rfl, rfl, hstuck⟩ h
  · intro h
    refine usable_of_sound ⟨fun c' hc' => ?_, fun _ => rfl⟩
    cases hc'
    exact h

end

/-! ## opening a session -/

/-- an agent is found: the one that the program names, or else that of the environment, or that of
the path -/
def Files.Found (agentPath : Bytes) (files : Files) : Prop :=
  if agentPath ≠ [] then files.stat agentPath = some true
  else files.env ≠ [] ∧ files.stat files.env = some true ∨ ∃ path ≠ [], files.lookPath = some path

/-- the program names no agent, and there is none elsewhere -/
structure Files.None (agentPath : Bytes) (files : Files) : Prop where
  unnamed : agentPath = []
  env : files.env = [] ∨ files.stat files.env ≠ some true
  path : ∀ path, files.lookPath = some path → path = []

section
variable {agentPath : Bytes} {files : Files} {cfg : Config} {host : Host}

theorem findAgent_named (h : agentPath ≠ []) {binary : Bytes} :
    findAgent agentPath files = .ok binary ↔ files.stat agentPath = some true ∧ binary = agentPath := by
  rw [findAgent, if_pos h]
  cases files.stat agentPath with
  | none => simp
  | some executable => cases executable <;> simp [eq_comm]

theorem findAgent_some : (∃ binary ≠ [], findAgent agentPath files = .ok binary)
    ↔ files.Found agentPath := by
  unfold Files.Found
  split
  · rename_i hnamed
    simp only [findAgent_named hnamed]
    constructor
    · rintro ⟨_, _, hstat, _⟩
      exact hstat
    · intro hstat
      exact ⟨agentPath, hnamed, hstat, rfl⟩
  · rename_i hnamed
    rw [findAgent, if_neg hnamed]
    split
    · rename_i henv
      exact ⟨fun _ => .inl henv, fun _ => ⟨files.env, henv.1, rfl⟩⟩
    · rename_i henv
      constructor
      · rintro ⟨binary, h0, hpath⟩
        cases hl : files.lookPath with
        | none =>
          rw [hl] at hpath
          cases hpath
          exact absurd rfl h0
        | some path =>
          rw [hl] at hpath
          cases hpath
          exact .inr ⟨_, h0, rfl⟩
      · rintro (h | ⟨path, h0, hl⟩)
        · exact absurd h henv
        · rw [hl]
          exact ⟨path, h0, rfl⟩

theorem findAgent_none : findAgent agentPath files = .ok [] ↔ files.None agentPath := by
  by_cases hnamed : agentPath ≠ []
  · rw [findAgent_named hnamed]
    constructor
    · rintro ⟨_, h⟩
      exact absurd h.symm hnamed
    · intro h
      exact absurd h.unnamed hnamed
  rw [findAgent, if_neg hnamed]
  split
  · rename_i henv
    constructor
    · intro h
      exact absurd (Except.ok.inj h) henv.1
    · intro h
      obtain h' | h' := h.env
      · exact absurd h' henv.1
      · exact absurd henv.2 h'
  · rename_i henv
    have henv' : files.env = [] ∨ files.stat files.env ≠ some true := by
      rw [not_and_or, not_not] at henv
      exact henv
    constructor
    · intro h
      refine ⟨not_not.mp hnamed, henv', fun path hpath => ?_⟩
      rw [hpath] at h
      exact Except.ok.inj h
    · intro h
      cases hl : files.lookPath with
      | none => rfl
      | some path => exact congrArg Except.ok (h.path path hl)

/-- a socket is given, or an agent is started -/
def Started (cfg : Config) (host : Host) : Prop :=
  cfg.socketPath ≠ [] ∨ host.second.Found cfg.agentPath ∧ (∃ dir, host.mkdirTemp = .ok dir) ∧
    host.mkdirAll = .ok () ∧ host.start = .ok ()

theorem startAgent_iff : (∃ socket, startAgent cfg host = .ok socket) ↔ Started cfg host := by
  unfold Started
  by_cases hsocket : cfg.socketPath ≠ []
  · refine ⟨fun _ => .inl hsocket, fun _ => ⟨cfg.socketPath, ?_⟩⟩
    rw [startAgent, if_pos hsocket]
    rfl
  rw [startAgent, if_neg hsocket, or_iff_right hsocket, ← findAgent_some]
  have hno {e : GoError} : ¬ ∃ socket : Bytes, Except.error e = Except.ok socket := by
    rintro ⟨_, h⟩
    cases h
  cases hfind : findAgent cfg.agentPath host.second with
  | error e =>
    refine ⟨fun h => absurd h hno, ?_⟩
    rintro ⟨⟨_, _, h⟩, _⟩
    cases h
  | ok binary =>
  simp only [ok_bind]
  by_cases h0 : binary = []
  · rw [if_pos h0]
    refine ⟨fun h => absurd h hno, ?_⟩
    rintro ⟨⟨_, h1, h⟩, _⟩
    cases h
    exact absurd h0 h1
  rw [if_neg h0]
  cases host.mkdirTemp with
  | error e =>
    refine ⟨fun h => absurd h hno, ?_⟩
    rintro ⟨_, ⟨_, h⟩, _⟩
    cases h
  | ok dir =>
  cases host.mkdirAll with
  | error e =>
    refine ⟨fun h => absurd h hno, ?_⟩
    rintro ⟨_, _, h, _⟩
    cases h
  | ok _ =>
  cases host.start with
  | error e =>
    refine ⟨fun h => absurd h hno, ?_⟩
    rintro ⟨_, _, _, h⟩
    cases h
  | ok _ => exact ⟨fun _ => ⟨⟨binary, h0, rfl⟩, ⟨dir, rfl⟩, rfl, rfl⟩, fun _ => ⟨_, rfl⟩⟩

end

/-- the handshake on a connection: both requests are sent, the second fits into a frame, and the
other end acknowledges both -/
structure Shakes (cfg : Config) (host : Host) (c c' : Conn) : Prop where
  written : true ∉ c.refuses.take 2
  hello : c.incoming.take 9 = frameBytes (Resp.helloOk.toU8 :: le 4 protocolVersion.toNat)
  name : cfg.producerName.length ≤ 32
  version : cfg.producerVersion.length ≤ 16
  random : ∃ id, host.random = .ok id
  fits : 39 + (fileName cfg host).length + cfg.producerName.length + cfg.producerVersion.length
    ≤ maxFrameSize
  acknowledged : ∃ body, body.length < maxFrameSize ∧
    (c.incoming.drop 9).take (5 + body.length) = frameBytes (Resp.openSessionOk.toU8 :: body) ∧
    c' = ⟨c.incoming.drop (9 + (5 + body.length)), c.refuses.drop 2⟩

/-- **when a session is opened**, and which -/
inductive Opens (cfg : Config) (host : Host) : Session → Prop
  | disabled (h : cfg.enabled = some false) : Opens cfg host newNoOpSession
  | absent (h : cfg.enabled ≠ some false) (hnone : host.first.None cfg.agentPath) :
      Opens cfg host newNoOpSession
  | opened {c c'} (h : cfg.enabled ≠ some false) (hfound : host.first.Found cfg.agentPath)
      (hstart : Started cfg host) (hconn : host.connect = .ok c) (hs : Shakes cfg host c c') :
      Opens cfg host ⟨some c', false, fun _ _ => none⟩

section
variable {cfg : Config} {host : Host} {c c' : Conn} {s : Session} {α : Type}

theorem writeFrame_iff {what : String} {frame : Bytes} :
    (writeFrame what frame).run c = .ok () c'
      ↔ true ∉ c.refuses.take 1 ∧ c' = { c with refuses := c.refuses.drop 1 } := by
  obtain ⟨incoming, refuses⟩ := c
  rw [show (writeFrame what frame).run ⟨incoming, refuses⟩ = writeFrame what frame ⟨incoming, refuses⟩
    from rfl]
  cases refuses with
  | nil => simp [writeFrame, eq_comm]
  | cons refused refuses => cases refused <;> simp [writeFrame, eq_comm]

theorem readFrame_iff {opcode : UInt8} {body : Bytes} :
    readFrame.run c = .ok (opcode, body) c' ↔ body.length < maxFrameSize ∧
      c.incoming.take (5 + body.length) = frameBytes (opcode :: body) ∧
      c' = c.skip (5 + body.length) := by
  have hread := readFrame_read c
  have hlen (op : UInt8) (bs : Bytes) : (frameBytes (op :: bs)).length = 5 + bs.length := by
    rw [frameBytes, List.length_append, le_length, List.length_cons]
    omega
  constructor
  · intro h
    rw [h] at hread
    cases hread with
    | frame hw hbody =>
      have htake := Incoming.take_length hw.all
      rw [hbody, hlen] at htake
      have hsmall := hw.small
      rw [htake]
      exact ⟨by omega, hbody, rfl⟩
  · rintro ⟨hsmall, htake, rfl⟩
    have htake' : c.incoming.take (4 + (opcode :: body).length) = frameBytes (opcode :: body) := by
      rw [← htake, List.length_cons]
      congr 1
      omega
    obtain ⟨hall, hdeclared⟩ := Incoming.len_take htake' hsmall
    rw [← hdeclared] at hall htake'
    rw [List.length_cons] at hdeclared
    have hw : c.incoming.Whole := ⟨hall, by omega, by omega⟩
    generalize readFrame.run c = r at hread
    cases hread with
    | silent _ hcut => exact absurd hcut hw.not_cut
    | ended _ hcut => exact absurd hcut hw.not_cut
    | empty _ h0 => exact absurd h0 hw.filled
    | large _ hmax => exact absurd hw.small (not_le.mpr hmax)
    | frame _ hbody =>
      cases frameBytes_inj (hbody.symm.trans htake')
      rw [hdeclared]
      congr 2
      omega

theorem pass_iff {x : Except GoError α} {a : α} {σ : Type} {t t' : σ} :
    (pass x : Prog σ GoError α).run t = .ok a t' ↔ x = .ok a ∧ t' = t := by
  cases x with
  | ok b => simp [pass, eq_comm]
  | error e => simp [pass]

theorem expect_iff {resp : Resp} (hresp : resp ≠ .error) {what : String} {reply : UInt8 × Bytes}
    {body : Bytes} : expect resp what reply = .ok body ↔ reply = (resp.toU8, body) := by
  obtain ⟨opcode, body'⟩ := reply
  unfold expect
  dsimp only
  split
  · rename_i herror
    constructor
    · intro h
      cases h
    · intro h
      cases h
      exact absurd (toU8_inj herror) hresp
  · split
    · rename_i hne
      constructor
      · intro h
        cases h
      · intro h
        cases h
        exact absurd rfl hne
    · rename_i heq
      rw [not_not.mp heq]
      simp

theorem encodeOpenSession_iff {m : OpenSessionMetadata} :
    (∃ frame, encodeOpenSession m = .ok frame) ↔
      39 + m.fileName.length + m.producerName.length + m.producerVersion.length ≤ maxFrameSize := by
  have hid := m.sessionId.2
  rw [encodeOpenSession, encodeFrame]
  simp only [List.length_append, le_length, hid]
  split
  · rename_i hlarge
    constructor
    · rintro ⟨_, h⟩
      cases h
    · intro h
      omega
  · rename_i hsmall
    exact ⟨fun _ => by omega, fun _ => ⟨_, rfl⟩⟩

/-- `HelloOk` of the version of this SDK -/
theorem hello_iff {body : Bytes} : decodeHelloOk body = .ok protocolVersion
    ↔ body = le 4 protocolVersion.toNat := by
  unfold decodeHelloOk
  split
  · rename_i hlen
    constructor
    · intro h
      cases h
    · intro h
      rw [h] at hlen
      exact absurd (le_length 4 _) hlen
  · rename_i hlen
    constructor
    · intro h
      have hle := le_leNat body
      rw [not_not.mp hlen] at hle
      have hv : (UInt32.ofNat (leAt body 0 4)).toNat = protocolVersion.toNat :=
        congrArg UInt32.toNat (Except.ok.inj h)
      rw [toNat_leAt4, leAt, List.drop_zero, List.take_of_length_le (not_not.mp hlen).le] at hv
      rw [← hv, hle]
    · rintro rfl
      rfl

theorem newMetadata_iff {name : Bytes} :
    (∃ m, newOpenSessionMetadata name cfg.producerName cfg.producerVersion host = .ok m ∧
      ∃ frame, encodeOpenSession m = .ok frame) ↔
    cfg.producerName.length ≤ 32 ∧ cfg.producerVersion.length ≤ 16 ∧ (∃ id, host.random = .ok id) ∧
      39 + name.length + cfg.producerName.length + cfg.producerVersion.length ≤ maxFrameSize := by
  rw [newOpenSessionMetadata]
  by_cases hname : cfg.producerName.length > 32
  · rw [if_pos hname]
    constructor
    · rintro ⟨_, h, _⟩
      cases h
    · intro h
      exact absurd h.1 (not_le.mpr hname)
  rw [if_neg hname]
  by_cases hversion : cfg.producerVersion.length > 16
  · rw [if_pos hversion]
    constructor
    · rintro ⟨_, h, _⟩
      cases h
    · intro h
      exact absurd h.2.1 (not_le.mpr hversion)
  rw [if_neg hversion]
  cases host.random with
  | error e =>
    constructor
    · rintro ⟨_, h, _⟩
      cases h
    · rintro ⟨_, _, ⟨_, h⟩, _⟩
      cases h
  | ok id =>
    constructor
    · rintro ⟨m, h, hm⟩
      cases h
      exact ⟨not_lt.mp hname, not_lt.mp hversion, ⟨id, rfl⟩, encodeOpenSession_iff.mp hm⟩
    · rintro ⟨_, _, _, hfits⟩
      exact ⟨_, rfl, encodeOpenSession_iff.mpr hfits⟩

theorem handshake_iff : (handshake cfg host).run c = .ok () c' ↔ Shakes cfg host c c' := by
  have hhello : encodeHello = .ok (frameBytes (Cmd.hello.toU8 :: le 4 protocolVersion.toNat)) := rfl
  have hrefuses : true ∉ c.refuses.take 1 ∧ true ∉ (c.refuses.drop 1).take 1
      ↔ true ∉ c.refuses.take 2 := by
    rw [show 2 = 1 + 1 from rfl, List.take_add, List.mem_append, not_or]
  constructor
  · intro h
    obtain ⟨_, _, h1, g1⟩ := run_bind_ok.mp h
    obtain ⟨_, rfl⟩ := pass_iff.mp h1
    obtain ⟨_, _, h2, g2⟩ := run_bind_ok.mp g1
    obtain ⟨hw1, rfl⟩ := writeFrame_iff.mp h2
    obtain ⟨⟨op, body⟩, _, h3, g3⟩ := run_bind_ok.mp g2
    obtain ⟨hsmall, htake, rfl⟩ := readFrame_iff.mp h3
    obtain ⟨_, _, h4, g4⟩ := run_bind_ok.mp g3
    obtain ⟨hreply, rfl⟩ := pass_iff.mp h4
    cases (expect_iff (by decide)).mp hreply
    obtain ⟨version, _, h5, g5⟩ := run_bind_ok.mp g4
    obtain ⟨hversion, rfl⟩ := pass_iff.mp h5
    rw [run_ite] at g5
    by_cases hv : version ≠ protocolVersion
    · rw [if_pos hv] at g5
      cases g5
    rw [if_neg hv] at g5
    cases not_not.mp hv
    cases hello_iff.mp hversion
    obtain ⟨metadata, _, h6, g6⟩ := run_bind_ok.mp g5
    obtain ⟨hmetadata, rfl⟩ := pass_iff.mp h6
    obtain ⟨frame, _, h7, g7⟩ := run_bind_ok.mp g6
    obtain ⟨hframe, rfl⟩ := pass_iff.mp h7
    obtain ⟨_, _, h8, g8⟩ := run_bind_ok.mp g7
    obtain ⟨hw2, rfl⟩ := writeFrame_iff.mp h8
    obtain ⟨⟨op, body⟩, _, h9, g9⟩ := run_bind_ok.mp g8
    obtain ⟨hsmall', htake', rfl⟩ := readFrame_iff.mp h9
    obtain ⟨_, _, h10, g10⟩ := run_bind_ok.mp g9
    obtain ⟨hreply', rfl⟩ := pass_iff.mp h10
    cases (expect_iff (by decide)).mp hreply'
    cases g10
    obtain ⟨hn, hpv, hrandom, hfits⟩ := newMetadata_iff.mp ⟨metadata, hmetadata, frame, hframe⟩
    refine ⟨hrefuses.mp ⟨hw1, hw2⟩, htake, hn, hpv, hrandom, hfits, body, hsmall', htake', ?_⟩
    simp only [Conn.skip, Incoming.drop_drop, List.drop_drop]
    rfl
  · rintro ⟨hwritten, hhelloOk, hname, hversion, hrandom, hfits, body, hsmall, htake, rfl⟩
    obtain ⟨hw1, hw2⟩ := hrefuses.mpr hwritten
    obtain ⟨metadata, hmetadata, frame, hframe⟩ :=
      newMetadata_iff.mpr ⟨hname, hversion, hrandom, hfits⟩
    refine run_bind_ok.mpr ⟨_, _, pass_iff.mpr ⟨hhello, rfl⟩, ?_⟩
    refine run_bind_ok.mpr ⟨_, _, writeFrame_iff.mpr ⟨hw1, rfl⟩, ?_⟩
    refine run_bind_ok.mpr ⟨(Resp.helloOk.toU8, le 4 protocolVersion.toNat), _,
      readFrame_iff.mpr ⟨by decide, hhelloOk, rfl⟩, ?_⟩
    refine run_bind_ok.mpr ⟨_, _, pass_iff.mpr ⟨(expect_iff (by decide)).mpr rfl, rfl⟩, ?_⟩
    refine run_bind_ok.mpr ⟨_, _, pass_iff.mpr ⟨hello_iff.mpr rfl, rfl⟩, ?_⟩
    rw [run_ite, if_neg (not_not.mpr rfl)]
    refine run_bind_ok.mpr ⟨_, _, pass_iff.mpr ⟨hmetadata, rfl⟩, ?_⟩
    refine run_bind_ok.mpr ⟨_, _, pass_iff.mpr ⟨hframe, rfl⟩, ?_⟩
    refine run_bind_ok.mpr ⟨_, _, writeFrame_iff.mpr ⟨hw2, rfl⟩, ?_⟩
    refine run_bind_ok.mpr ⟨_, _, readFrame_iff.mpr ⟨hsmall, htake, rfl⟩, ?_⟩
    refine run_bind_ok.mpr ⟨_, _, pass_iff.mpr ⟨(expect_iff (by decide)).mpr rfl, rfl⟩, ?_⟩
    simp only [Conn.skip, Incoming.drop_drop, List.drop_drop]
    rfl

/-- **a session is opened** with no error on these conditions -/
theorem openStrict_iff : openStrict cfg host = .ok s ↔ Opens cfg host s := by
  unfold openStrict
  by_cases henabled : cfg.enabled = some false
  · rw [if_pos henabled]
    constructor
    · intro h
      cases h
      exact .disabled henabled
    · intro h
      cases h with
      | disabled => rfl
      | absent => rfl
      | opened h => exact absurd henabled h
  rw [if_neg henabled]
  constructor
  · intro h
    obtain ⟨binary, hfind, h1⟩ := bind_eq_ok.mp h
    rw [lift_eq_ok] at hfind
    by_cases h0 : binary = []
    · rw [if_pos h0] at h1
      cases h1
      rw [h0] at hfind
      exact .absent henabled (findAgent_none.mp hfind)
    rw [if_neg h0] at h1
    obtain ⟨socket, hstart, h2⟩ := bind_eq_ok.mp h1
    obtain ⟨conn, hconn, h3⟩ := bind_eq_ok.mp h2
    cases hshake : (handshake cfg host).run conn with
    | error e conn' =>
      rw [hshake] at h3
      cases h3
    | ok a conn' =>
      rw [hshake] at h3
      cases h3
      refine .opened henabled (findAgent_some.mp ⟨binary, h0, hfind⟩)
        (startAgent_iff.mp ⟨socket, lift_eq_ok.mp hstart⟩) ?_ (handshake_iff.mp hshake)
      rw [lift_eq_ok, connectWithRetry] at hconn
      cases hc : host.connect with
      | error e =>
        rw [hc] at hconn
        cases hconn
      | ok c =>
        rw [hc] at hconn
        cases hconn
        rfl
  · intro h
    cases h with
    | disabled h => exact absurd h henabled
    | absent _ hnone =>
      rw [findAgent_none.mpr hnone]
      rfl
    | opened _ hfound hstart hconn hs =>
      obtain ⟨binary, h0, hfind⟩ := findAgent_some.mpr hfound
      obtain ⟨socket, hsocket⟩ := startAgent_iff.mpr hstart
      rw [hfind, lift_ok, ok_bind, if_neg h0, hsocket, lift_ok, ok_bind, connectWithRetry, hconn]
      simp only [Except.mapError, lift_ok, ok_bind, handshake_iff.mpr hs]
      rfl

/-- **when `Open` gives a session whose calls return** -/
theorem usable_iff : (∃ p, openTrace cfg host = .ok p ∧ Usable p)
    ↔ ∃ s, Opens cfg host s ∧ s.Sound := by
  have hnil : ¬ Usable none := fun h => absurd (h [(.close, [])]) Bool.false_ne_true
  have hnoOp : newNoOpSession.Sound := by
    constructor
    · intro c hc
      cases hc
    · intro h
      cases h
  by_cases henabled : cfg.enabled = some false
  · rw [openTrace, if_pos henabled]
    exact ⟨fun _ => ⟨_, .disabled henabled, hnoOp⟩,
      fun _ => ⟨_, rfl, usable_of_sound hnoOp⟩⟩
  rw [openTrace, if_neg henabled]
  constructor
  · rintro ⟨p, hp, husable⟩
    cases hs : openStrict cfg host with
    | error e =>
      rw [hs] at hp
      cases e with
      | error e =>
        cases hp
        exact absurd husable hnil
      | panic => cases hp
      | diverge => cases hp
    | ok s =>
      rw [hs] at hp
      cases hp
      have ho := openStrict_iff.mp hs
      refine ⟨s, ho, ?_⟩
      cases ho with
      | disabled => exact hnoOp
      | absent => exact hnoOp
      | opened =>
        refine ⟨fun c hc => ?_, fun _ => rfl⟩
        cases hc
        exact usable_iff_sound.mp husable
  · rintro ⟨s, ho, hs⟩
    rw [openStrict_iff.mpr ho]
    exact ⟨some s, rfl, usable_of_sound hs⟩

/-- an agent is installed, but nobody listens on the socket -/
def nobodyListens : Host :=
  ⟨⟨fun _ => some true, [], none⟩, ⟨fun _ => some true, [], none⟩, .error [], .error [], .error [],
    .error (utf8 "connection refused"), .error [], 0, 0⟩

/-- `Open` gives a nil session then, and `Close` on it panics -/
theorem nil_session :
    openTrace ⟨utf8 "myapp", utf8 "1.0", utf8 "/opt/dtj-agent", utf8 "/run/dtj.sock", [], none⟩
      nobodyListens = .ok none ∧ ¬ Usable none := by
  refine ⟨rfl, fun h => ?_⟩
  exact absurd (h [(.close, [])]) Bool.false_ne_true

/-- an agent that declares an empty frame: the next `Emit` panics -/
example : ((emit exampleEvent 7).run
    ⟨some ⟨.bytes [0, 0, 0, 0] true, []⟩, false, fun _ _ => none⟩ matches .error .panic _) := by
  decide +kernel

end

end Dtj.Sdk.Go.Raw
