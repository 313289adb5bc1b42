import Dtj.Sdk.Client
import Dtj.Lib.Interleave

/-!
# The TypeScript SDK: calls that await

`packages/dtj-typescript/src`: `protocol.ts` and `TraceSession` of `client.ts`.  A call goes on until
it awaits the promise of a reply; every `data` event of the socket goes to all promises that are not
settled yet.

* `encode`, `encodeValue`, `encodeIntern`, `encodeAppendEvent`   what is sent;
* `write`, `readFrame`, `getOrIntern`, `emit`, `close`           the calls, in actions on the session;
* `Reader.onData`, `occur`      the listeners, and what happens at the socket;
* `Orderly`                     requests are written while no reply is awaited;
* `write_safe`, `getOrIntern_safe`, `emit_safe`   **what a call may count on among orderly others**;
* `orderly_matched`             orderly calls are paired with their own replies, and no byte is lost;
* `crossed_replies`             two calls that are started together get the reply to the first one.
-/

namespace Dtj.Sdk.TypeScript
open Wire Checked Agent Conc Code

/-- UTF-16 code units, lone surrogates among them -/
abbrev Str := List UInt16

instance : LawfulBEq Str := inferInstance

/-- `errors.ts`, and what JavaScript throws itself -/
inductive TsError where
  | protocolError (msg : String)
  | connectionError (msg : String)
  | valueError (msg : String)
  | sessionError (msg : String)
  | error (msg : String)
  | typeError (msg : String)
deriving DecidableEq

inductive Severity where
  | debug | info | warn | error | fatal
deriving DecidableEq

/-- the value of a field; numbers are their bits -/
inductive TsValue where
  | boolean (b : Bool)
  | bigint (v : Int)
  | number (bits : UInt64)
  | string (s : Str)
  | uint8Array (bs : Bytes)
  | other (typeof : String)

structure Event where
  domain : Str
  category : Str
  name : Str
  severity : Severity
  fieldName : Str
  value : TsValue
  correlation : Option Str

/-! ## protocol.ts -/

def isHigh (u : UInt16) : Bool := 0xD800 ≤ u ∧ u < 0xDC00

def isLow (u : UInt16) : Bool := 0xDC00 ≤ u ∧ u < 0xE000

/-- `new TextEncoder().encode(s)`: a lone surrogate becomes U+FFFD -/
def encode : Str → Bytes
  | [] => []
  | [u] => String.utf8EncodeChar (if isHigh u ∨ isLow u then '\uFFFD' else Char.ofNat u.toNat)
  | u :: v :: rest =>
    if isHigh u ∧ isLow v then
      String.utf8EncodeChar (Char.ofNat (0x10000 + u.toNat % 2^10 * 2^10 + v.toNat % 2^10)) ++
        encode rest
    else String.utf8EncodeChar (if isHigh u ∨ isLow u then '\uFFFD' else Char.ofNat u.toNat) ++
      encode (v :: rest)

def encodeFrame (opcode : UInt8) (body : Bytes) : Except TsError Bytes :=
  let length := 1 + body.length
  if length > maxFrameSize then
    .error (.protocolError s!"Frame too large: {length} > {maxFrameSize}")
  else .ok (frameBytes (opcode :: body))

def decodeFrame (data : Bytes) : Except TsError (UInt8 × Bytes) :=
  if data.length < 5 then .error (.protocolError "Frame too short")
  else
    let length := leAt data 0 4
    if length > maxFrameSize then .error (.protocolError s!"Frame too large: {length}")
    else if data.length < 4 + length then .error (.protocolError "Frame truncated")
    else .ok (data.getD 4 0, (data.drop 5).take (length - 1))

def encodeIntern (kind : DictKind) (name : Str) : Except TsError Bytes :=
  let nameBytes := encode name
  if nameBytes.length > 1024 then .error (.error "name too long (max 1024 bytes)")
  else encodeFrame Cmd.intern.toU8 (kind.toU8 :: (le 2 nameBytes.length ++ nameBytes))

def decodeInternOk (body : Bytes) : Except TsError UInt32 :=
  if body.length ≠ 4 then .error (.protocolError "InternOk body must be 4 bytes")
  else .ok (UInt32.ofNat (leAt body 0 4))

/-- `Number.isFinite` -/
def isFinite (bits : UInt64) : Bool := bits.toNat / 2^52 % 2^11 ≠ 2047

/-- `BigInt(value)`, for a finite number with `Number.isInteger` -/
def integer (bits : UInt64) : Option Int :=
  let exp := bits.toNat / 2^52 % 2^11
  let mant := bits.toNat % 2^52 + (if exp = 0 then 0 else 2^52)
  let sign : Int := if bits.toNat / 2^63 = 1 then -1 else 1
  if 1075 ≤ exp then some (sign * (mant * 2^(exp - 1075) : Nat))
  else if mant % 2^(1075 - max exp 1) = 0 then some (sign * (mant / 2^(1075 - max exp 1) : Nat))
  else none

/-- a number that is not finite, as a text -/
def showNumber (bits : UInt64) : String :=
  if bits.toNat % 2^52 ≠ 0 then "NaN"
  else if bits.toNat / 2^63 = 1 then "-Infinity"
  else "Infinity"

def encodeValue : TsValue → Except TsError (UInt8 × Bytes)
  | .boolean b => .ok (0x01, [if b then 1 else 0])
  | .bigint v => .ok (0x03, le 8 (v % 2^64).toNat)
  | .number bits =>
    if !isFinite bits then
      .error (.valueError s!"Non-finite number not supported: {showNumber bits}")
    else
      match integer bits with
      | some v =>
        if -(2^63) ≤ v ∧ v ≤ 2^63 - 1 then .ok (0x03, le 8 (v % 2^64).toNat)
        else .ok (0x07, le 8 bits.toNat)
      | none => .ok (0x07, le 8 bits.toNat)
  | .string _ => .error (.valueError
    "String values must be interned via dictionary (use fieldName for string values)")
  | .uint8Array bs => .ok (0x0C, le 4 bs.length ++ bs)
  | .other typeof => .error (.valueError s!"Unsupported value type: {typeof}")

def encodeAppendEvent (a : Appended) : Except TsError Bytes :=
  encodeFrame Cmd.appendEvent.toU8 a.request.tail

def decodeAppendEventOk (body : Bytes) : Except TsError UInt64 :=
  if body.length ≠ 8 then .error (.protocolError "AppendEventOk body must be 8 bytes")
  else .ok (UInt64.ofNat (leAt body 0 8))

def encodeFinishSession : Except TsError Bytes := encodeFrame Cmd.finishSession.toU8 []

/-- `new TextDecoder().decode(body)`, which skips a byte order mark -/
def decodeError (body : Bytes) : String :=
  fromUtf8Lossy (if body.take 3 = [0xEF, 0xBB, 0xBF] then body.drop 3 else body)

def severityFromString : Severity → UInt8
  | .debug => 0
  | .info => 1
  | .warn => 2
  | .error => 3
  | .fatal => 4

/-! ## client.ts -/

/-- a promise of `readFrame` that is not settled, and the bytes that its listener has combined -/
structure Reader where
  id : Nat
  got : Bytes
deriving DecidableEq

/-- a session; beside the promises stand the requests, in the order of their promises, and the bytes
that no promise was settled with -/
structure Session (S : Server) extends Client S Str where
  socket : Bool
  readers : List Reader
  results : List (Nat × Except TsError Bytes)
  requests : List (Nat × Bytes)
  lost : Bytes

def Session.opened (S : Server) : Session S := ⟨.start S Str, true, [], [], [], []⟩

abbrev Call (S : Server) (α : Type) := ExceptT TsError (Code (Session S)) α

section
variable {S : Server} {α : Type}

/-- `onData` of one promise -/
def Session.onData (chunk : Bytes) (s : Session S) (reader : Reader) : Session S :=
  let combined := reader.got ++ chunk
  let wait := { s with readers := s.readers ++ [{ reader with got := combined }] }
  let settle (x : Except TsError Bytes) (rest : Bytes) :=
    { s with results := s.results ++ [(reader.id, x)], lost := s.lost ++ rest }
  if combined.length < 4 then wait
  else
    let expectedLength := leAt combined 0 4
    if expectedLength > 1048576 then
      settle (.error (.protocolError s!"Frame too large: {expectedLength}")) (combined.drop 4)
    else if combined.length ≥ 4 + expectedLength then
      settle (.ok (combined.take (4 + expectedLength))) (combined.drop (4 + expectedLength))
    else wait

/-- a `data` event with the next `k` bytes; without a listener they are lost -/
def Session.data (k : Nat) (s : Session S) : Session S :=
  let chunk := s.link.unread.take k
  s.readers.foldl (Session.onData chunk)
    { s with
      link := { s.link with unread := s.link.unread.drop k }
      readers := []
      lost := s.lost ++ (if s.readers = [] then chunk else []) }

/-- all promises are rejected -/
def Session.reject (e : TsError) (s : Session S) : Session S :=
  { s with readers := [], results := s.results ++ s.readers.map fun x => (x.id, .error e) }

/-- what happens at the socket -/
inductive SocketEvent where
  | data (k : Nat)
  | error (message : String)
  | close

/-- the bytes come before the end of the connection -/
def occur : SocketEvent → Session S → Option (Session S)
  | .data k, s => if 0 < k ∧ s.link.unread ≠ [] then some (s.data k) else none
  | .error message, s =>
    if s.link.closed ∧ s.link.unread = [] then
      some (s.reject (.connectionError s!"Socket error: {message}"))
    else none
  | .close, s =>
    if s.link.closed ∧ s.link.unread = [] then
      some (s.reject (.connectionError "Socket closed unexpectedly"))
    else none

/-- `this.socket.destroy(); this.socket = null` -/
def Session.destroy (s : Session S) : Session S :=
  { s.reject (.connectionError "Socket closed unexpectedly") with
    socket := false, link := { s.link with unread := [] }, lost := s.lost ++ s.link.unread }

/-- the frame is written, and there is a new promise -/
def Session.written (i : Nat) (frame : Bytes) (s : Session S) : Session S :=
  { s with
    link := if s.link.closed then s.link else s.link.send i frame
    readers := s.readers ++ [⟨s.requests.length, []⟩]
    requests := s.requests ++ [(i, frame)] }

/-- `this.socket.write(frame)`, and the promise of `readFrame` gets its listeners -/
def write (i : Nat) (frame : Bytes) : Call S Nat := ExceptT.mk <| atom fun s =>
  if s.socket then some (.ok s.requests.length, s.written i frame)
  else some (.error (.typeError "Cannot read properties of null (reading 'write')"), s)

/-- `await TraceSession.readFrame(this.socket)` -/
def readFrame (id : Nat) : Call S Bytes := ExceptT.mk <| atom fun s =>
  (s.results.lookup id).map fun x => (x, s)

/-- the checks of a reply: `what` was sent, and `ok` is expected -/
def expect (resp : Resp) (what ok : String) (reply : UInt8 × Bytes) : Call S Bytes :=
  if reply.1 = Resp.error.toU8 then
    throw (.protocolError s!"{what} failed: {decodeError reply.2}")
  else if reply.1 ≠ resp.toU8 then
    throw (.protocolError s!"Expected {ok}, got 0x{String.ofList (Nat.toDigits 16 reply.1.toNat)}")
  else pure reply.2

/-- the call `i` gets or interns a name, in the cache of its kind -/
def getOrIntern (i : Nat) (kind : DictKind) (name : Str) : Call S UInt32 := do
  let s ← state
  match s.cache kind name with
  | some id => return id
  | none =>
    if !s.socket then throw (.sessionError "Session not connected")
    else
      let response ← readFrame (← write i (← checked (encodeIntern kind name)))
      let body ← expect .internOk "Intern" "InternOk" (← checked (decodeFrame response))
      let id ← checked (decodeInternOk body)
      change fun s => { s with toClient := s.remember kind name id }
      return id

/-- `emit`, when `monotonicNs` have passed since the start of the session -/
def emit (i : Nat) (event : Event) (monotonicNs : UInt64) : Call S Unit := do
  let s ← state
  if s.closed then throw (.sessionError "Session already closed")
  else if !s.socket then throw (.sessionError "Session not connected")
  else
    let domainId ← getOrIntern i .domain event.domain
    let categoryId ← getOrIntern i .category event.category
    let eventNameId ← getOrIntern i .eventName event.name
    let correlationId ← getOrIntern i .string (event.correlation.getD [])
    let fieldNameId ← getOrIntern i .string event.fieldName
    let (typeTag, valueBody) ← checked (encodeValue event.value)
    let frame ← checked (encodeAppendEvent ⟨monotonicNs, domainId, categoryId, eventNameId,
      correlationId, severityFromString event.severity, fieldNameId, typeTag, valueBody⟩)
    let response ← readFrame (← write i frame)
    let body ← expect .appendEventOk "AppendEvent" "AppendEventOk" (← checked (decodeFrame response))
    let _ ← checked (decodeAppendEventOk body)
    return ()

/-- `try ... catch`, with a warning on the console -/
def warned (p : Call S Unit) : Call S Unit := ExceptT.mk do
  let _ ← p.run
  return .ok ()

def close (i : Nat) : Call S Unit := do
  if (← state).closed then return ()
  else
    change fun s => { s with toClient := { s.toClient with closed := true } }
    if (← state).socket then
      warned do
        let response ← readFrame (← write i (← checked encodeFinishSession))
        let _ ← checked (decodeFrame response)
        return ()
      change Session.destroy
    else return ()

/-- a method that the program calls -/
inductive Method where
  | emit (event : Event) (monotonicNs : UInt64)
  | close

/-- the code of the call `i` -/
def body (i : Nat) : Method → Code (Session S) (Except TsError Unit)
  | .emit event monotonicNs => (emit i event monotonicNs).run
  | .close => (close i).run

end

/-! ## what is sent and read -/

theorem encodeFrame_ok {opcode : UInt8} {body bytes : Bytes}
    (h : encodeFrame opcode body = .ok bytes) :
    bytes = frameBytes (opcode :: body) ∧ (opcode :: body).length ≤ maxFrameSize := by
  simp only [encodeFrame] at h
  split at h
  · cases h
  · rename_i hlen
    cases h
    refine ⟨rfl, ?_⟩
    rw [List.length_cons]
    omega

theorem encodeIntern_ok {kind : DictKind} {name : Str} {bytes : Bytes}
    (h : encodeIntern kind name = .ok bytes) :
    bytes = frameBytes (internRequest kind (encode name)) ∧
      (internRequest kind (encode name)).length ≤ maxFrameSize := by
  simp only [encodeIntern] at h
  split at h
  · cases h
  · exact encodeFrame_ok h

/-- the bytes of `AppendEvent` -/
theorem encodeAppendEvent_ok {a : Appended} {bytes : Bytes} (h : encodeAppendEvent a = .ok bytes) :
    bytes = frameBytes a.request ∧ a.request.length ≤ maxFrameSize := encodeFrame_ok h

theorem decodeInternOk_ok {body : Bytes} {id : UInt32} (h : decodeInternOk body = .ok id) :
    body.length = 4 ∧ UInt32.ofNat (leAt body 0 4) = id := by
  unfold decodeInternOk at h
  split at h
  · cases h
  · rename_i hlen
    cases h
    exact ⟨not_not.mp hlen, rfl⟩

theorem decodeAppendEventOk_ok {body : Bytes} {seq : UInt64}
    (h : decodeAppendEventOk body = .ok seq) :
    body.length = 8 ∧ UInt64.ofNat (leAt body 0 8) = seq := by
  unfold decodeAppendEventOk at h
  split at h
  · cases h
  · rename_i hlen
    cases h
    exact ⟨not_not.mp hlen, rfl⟩

/-- the frame of a reply is decoded to the reply -/
theorem decodeFrame_reply {r : Reply} (hfit : 1 + r.body.length ≤ maxFrameSize) :
    decodeFrame r.bytes = .ok (r.resp.toU8, r.body) := by
  unfold decodeFrame
  rw [if_neg (by rw [reply_length]; omega)]
  simp only [reply_head r hfit]
  rw [if_neg (by omega), if_neg (by rw [reply_length]; omega), reply_opcode, reply_body,
    show 1 + r.body.length - 1 = r.body.length by omega, List.take_length]

/-! ## orderly calls -/

section
variable {S : Server} {α : Type} {i n : Nat} {s s' : Session S}

/-- no reply is awaited, or under way -/
structure Session.Idle (s : Session S) : Prop where
  readers : s.readers = []
  quiet : s.link.Quiet

/-- **a request is written, and the socket is destroyed, while no reply is awaited** -/
def Orderly (s s' : Session S) : Prop :=
  s.Idle ∨ s'.requests = s.requests ∧ s'.socket = s.socket

/-- the `r`th promise is the one for the reply in the bytes -/
def Session.Answers (s : Session S) (r : Nat) (bytes : Bytes) : Prop :=
  ∃ i frame reply, s.requests[r]? = some (i, frameBytes frame) ∧
    s.link.log[r]? = some ⟨i, ⟨frame, reply⟩⟩ ∧ bytes = reply.bytes

/-- the promises that are not settled: none, that of a reply that is coming, or one for which
nothing comes -/
inductive Awaits (s : Session S) : Prop
  | none (readers : s.readers = []) (unread : s.link.unread = [])
  | reply {r : Nat} {got bytes : Bytes} (readers : s.readers = [⟨r, got⟩])
      (answers : s.Answers r bytes) (bytes : got ++ s.link.unread = bytes)
  | never {r : Nat} (readers : s.readers = [⟨r, []⟩]) (unread : s.link.unread = [])

/-- what holds among orderly calls -/
structure Inv (s : Session S) : Prop where
  right : s.Right (some ∘ encode)
  own : ∀ r bytes, (r, .ok bytes) ∈ s.results → s.Answers r bytes
  lost : s.lost = []
  input : s.link.input = []
  fits : ∀ x ∈ s.link.log, 1 + x.exchange.reply.body.length ≤ maxFrameSize
  paired : s.link.closed = false → s.link.log.length = s.requests.length
  awaits : Awaits s
  gone : s.socket = false → s.readers = []

/-- what the call `i` may count on: the others append their own requests -/
structure Goes (i : Nat) (s s' : Session S) : Prop where
  log : ∃ new, s'.link.log = s.link.log ++ new ∧ ∀ x ∈ new, x.caller ≠ i
  requests : ∃ new, s'.requests = s.requests ++ new

theorem Goes.same (hlog : s'.link.log = s.link.log) (hreqs : s'.requests = s.requests) :
    Goes i s s' :=
  ⟨⟨[], hlog.trans (List.append_nil _).symm, fun x hx => (by cases hx)⟩,
    ⟨[], hreqs.trans (List.append_nil _).symm⟩⟩

theorem Goes.trans (i : Nat) (s s' s'' : Session S) (h : Goes i s s') (h' : Goes i s' s'') :
    Goes i s s'' := by
  obtain ⟨⟨new, hlog, hnew⟩, reqs, hreqs⟩ := h
  obtain ⟨⟨new', hlog', hnew'⟩, reqs', hreqs'⟩ := h'
  refine ⟨⟨new ++ new', ?_, fun x hx => ?_⟩, reqs ++ reqs', ?_⟩
  · rw [hlog', hlog, List.append_assoc]
  · rcases List.mem_append.mp hx with hx | hx
    · exact hnew x hx
    · exact hnew' x hx
  · rw [hreqs', hreqs, List.append_assoc]

/-- the contract between the calls of one session -/
def contract (S : Server) : Contract (Session S) where
  inv := Inv
  rely := Goes
  start i s := ∀ x ∈ s.link.log, x.caller ≠ i
  refl := fun i s => .same rfl rfl
  trans := Goes.trans
  fresh := by
    intro i s s' h hs x hx
    obtain ⟨⟨new, hlog, hnew⟩, -⟩ := hs
    rw [hlog] at hx
    rcases List.mem_append.mp hx with hx | hx
    · exact h x hx
    · exact hnew x hx

theorem getElem?_more {β : Type} {l : List β} {r : Nat} {x : β} (h : l[r]? = some x)
    (more : List β) : (l ++ more)[r]? = some x := by
  obtain ⟨hr, -⟩ := List.getElem?_eq_some_iff.mp h
  rw [List.getElem?_append_left hr, h]

theorem Session.Answers.more {r : Nat} {bytes : Bytes} (h : s.Answers r bytes)
    {log : List Entry} {reqs : List (Nat × Bytes)} (hlog : s'.link.log = s.link.log ++ log)
    (hreqs : s'.requests = s.requests ++ reqs) : s'.Answers r bytes := by
  obtain ⟨i, frame, reply, hreq, hans, hbytes⟩ := h
  refine ⟨i, frame, reply, ?_, ?_, hbytes⟩
  · rw [hreqs]
    exact getElem?_more hreq reqs
  · rw [hlog]
    exact getElem?_more hans log

/-- nobody is awaited: the session is idle -/
theorem Inv.idle (h : Inv s) (hr : s.readers = []) : s.Idle := by
  refine ⟨hr, h.input, ?_⟩
  cases h.awaits with
  | none _ hun => exact hun
  | reply hreaders =>
    rw [hr] at hreaders
    cases hreaders
  | never hreaders =>
    rw [hr] at hreaders
    cases hreaders

/-! ### the socket -/

/-- the listener of the one promise: it waits for the rest of its reply, or it is settled with all
of it -/
theorem onData_reply (s : Session S) {r : Nat} {got chunk rest : Bytes} {reply : Reply}
    (hbytes : got ++ chunk ++ rest = reply.bytes) (hfit : 1 + reply.body.length ≤ maxFrameSize) :
    (rest ≠ [] ∧ s.onData chunk ⟨r, got⟩ = { s with readers := s.readers ++ [⟨r, got ++ chunk⟩] }) ∨
      rest = [] ∧ s.onData chunk ⟨r, got⟩ =
        { s with results := s.results ++ [(r, .ok reply.bytes)], lost := s.lost ++ [] } := by
  have hmax : maxFrameSize = 1048576 := rfl
  have hlen := congrArg List.length hbytes
  rw [List.length_append, reply_length] at hlen
  have hmore : (got ++ chunk).length < 5 + reply.body.length → rest ≠ [] := by
    rintro hlt rfl
    rw [List.length_nil] at hlen
    omega
  simp only [Session.onData]
  by_cases hshort : (got ++ chunk).length < 4
  · exact .inl ⟨hmore (by omega), if_pos hshort⟩
  · have hhead : leAt (got ++ chunk) 0 4 = 1 + reply.body.length := by
      rw [← reply_head reply hfit, ← hbytes, leAt_append_left rest (by omega)]
    rw [if_neg hshort, hhead, if_neg (by omega)]
    by_cases hall : (got ++ chunk).length ≥ 4 + (1 + reply.body.length)
    · have hrest : rest = [] := List.eq_nil_of_length_eq_zero (by omega)
      rw [hrest, List.append_nil] at hbytes
      rw [if_pos hall, List.take_of_length_le (by omega), List.drop_eq_nil_of_le (by omega), hbytes]
      exact .inr ⟨hrest, rfl⟩
    · exact .inl ⟨hmore (by omega), if_neg hall⟩

/-- listeners do not touch the connection -/
theorem onData_same (chunk : Bytes) (readers : List Reader) (s : Session S) :
    (readers.foldl (Session.onData chunk) s).link = s.link ∧
      (readers.foldl (Session.onData chunk) s).requests = s.requests := by
  induction readers generalizing s with
  | nil => exact ⟨rfl, rfl⟩
  | cons x readers ih =>
    have hone : (s.onData chunk x).link = s.link ∧ (s.onData chunk x).requests = s.requests := by
      simp only [Session.onData]
      split_ifs <;> exact ⟨rfl, rfl⟩
    obtain ⟨hlink, hreqs⟩ := ih (s.onData chunk x)
    exact ⟨hlink.trans hone.1, hreqs.trans hone.2⟩

/-- the requests and the history stay as they are -/
theorem Session.Answers.same {r : Nat} {bytes : Bytes} (h : s.Answers r bytes)
    (hlog : s'.link.log = s.link.log) (hreqs : s'.requests = s.requests) : s'.Answers r bytes :=
  h.more (hlog.trans (List.append_nil _).symm) (hreqs.trans (List.append_nil _).symm)

theorem Inv.data (h : Inv s) {k : Nat} (hun : s.link.unread ≠ []) : Inv (s.data k) := by
  cases h.awaits with
  | none _ hnone => exact absurd hnone hun
  | never _ hnone => exact absurd hnone hun
  | @reply r got bytes hreaders hans hbytes =>
    obtain ⟨i, frame, reply, hreq, hlog, rfl⟩ := hans
    have hans' : s.Answers r reply.bytes := ⟨i, frame, reply, hreq, hlog, rfl⟩
    have hfit := h.fits _ (List.mem_of_getElem? hlog)
    have hparts : got ++ s.link.unread.take k ++ s.link.unread.drop k = reply.bytes := by
      rw [List.append_assoc, List.take_append_drop, hbytes]
    have hlost : s.lost ++ (if s.readers = [] then s.link.unread.take k else []) = [] := by
      rw [h.lost, hreaders]
      rfl
    have hdata : s.data k = Session.onData (s.link.unread.take k) { s with
        link := { s.link with unread := s.link.unread.drop k }
        readers := []
        lost := [] } ⟨r, got⟩ := by
      simp only [Session.data, hlost]
      rw [hreaders]
      rfl
    rcases onData_reply _ hparts hfit with ⟨-, hwait⟩ | ⟨hrest, hsettle⟩
    · rw [hdata, hwait]
      exact { h with
        right := h.right
        lost := rfl
        awaits := .reply rfl hans' hparts
        gone := fun hs => absurd (h.gone hs) (by rw [hreaders]; exact List.cons_ne_nil _ _) }
    · rw [hdata, hsettle]
      exact { h with
        right := h.right
        own := by
          intro r' bytes' hr
          rcases List.mem_append.mp hr with hr | hr
          · exact h.own r' bytes' hr
          · cases List.mem_singleton.mp hr
            exact hans'
        lost := rfl
        awaits := .none rfl hrest
        gone := fun _ => rfl }

theorem Inv.reject (h : Inv s) (hun : s.link.unread = []) (e : TsError) : Inv (s.reject e) :=
  { h with
    right := h.right
    own := by
      intro r bytes hr
      rcases List.mem_append.mp hr with hr | hr
      · exact h.own r bytes hr
      · obtain ⟨x, -, hx⟩ := List.mem_map.mp hr
        cases hx
    awaits := .none rfl hun
    gone := fun _ => rfl }

/-- **what happens at the socket** -/
theorem occur_inv {e : SocketEvent} (h : Inv s) (ho : occur e s = some s') :
    Inv s' ∧ ∀ i, Goes i s s' := by
  cases e with
  | data k =>
    simp only [occur] at ho
    split at ho
    · rename_i hk
      cases ho
      exact ⟨h.data hk.2, fun i => .same (by rw [Session.data, (onData_same _ _ _).1])
        (onData_same _ _ _).2⟩
    · cases ho
  | error message =>
    simp only [occur] at ho
    split at ho
    · rename_i hc
      cases ho
      exact ⟨h.reject hc.2 _, fun i => .same rfl rfl⟩
    · cases ho
  | close =>
    simp only [occur] at ho
    split at ho
    · rename_i hc
      cases ho
      exact ⟨h.reject hc.2 _, fun i => .same rfl rfl⟩
    · cases ho

/-- the session is closed, or a name is remembered -/
theorem Inv.client (h : Inv s) {c : Client S Str} (hlink : c.link = s.link)
    (hr : c.Right (some ∘ encode)) : Inv { s with toClient := c } := by
  obtain ⟨link, closed, cache⟩ := c
  cases hlink
  exact { h with
    right := hr
    own := fun r bytes hm => h.own r bytes hm
    awaits := by
      cases h.awaits with
      | none hreaders hun => exact .none hreaders hun
      | reply hreaders hans hbytes => exact .reply hreaders hans hbytes
      | never hreaders hun => exact .never hreaders hun
    gone := h.gone }

/-- the socket is destroyed while the session is idle -/
theorem Inv.destroy (h : Inv s) (hidle : s.Idle) : Inv s.destroy := by
  have hr := h.reject hidle.quiet.unread (.connectionError "Socket closed unexpectedly")
  exact { hr with
    right := h.right
    own := fun r bytes hm => hr.own r bytes hm
    lost := by
      show s.lost ++ s.link.unread = []
      rw [h.lost, hidle.quiet.unread]
      rfl
    awaits := .none rfl rfl
    gone := fun _ => rfl }

/-! ### one request -/

/-- a request of the call `i` is written while the session is idle -/
theorem Inv.written {frame : Bytes} (h : Inv s) (hidle : s.Idle) (hlen : frame.length ≤ maxFrameSize)
    (hsocket : s.socket = true) : Inv (s.written i (frameBytes frame)) ∧
      ∃ new, (s.written i (frameBytes frame)).link.log = s.link.log ++ new ∧
        (new = [] ∨ ∃ r, new = [⟨i, ⟨frame, r⟩⟩]) := by
  have hgone : ∀ {p : Prop}, s.socket = false → p := fun hs => by
    rw [hsocket] at hs
    cases hs
  have hnever : ∀ link : Link S, link.log = s.link.log → link.Quiet → link.closed = true →
      Inv { s with
        link := link
        readers := s.readers ++ [⟨s.requests.length, []⟩]
        requests := s.requests ++ [(i, frameBytes frame)] } := by
    intro link hlog hq hc
    exact {
      right := h.right.more (by rw [hlog]; exact List.Subset.refl _)
      own := fun r bytes hm => (h.own r bytes hm).more (hlog.trans (List.append_nil _).symm) rfl
      lost := h.lost
      input := hq.input
      fits := by
        rw [hlog]
        exact h.fits
      paired := fun ho => by
        rw [hc] at ho
        cases ho
      awaits := .never (by rw [hidle.readers]; rfl) hq.unread
      gone := hgone }
  unfold Session.written
  by_cases hc : s.link.closed = true
  · rw [if_pos hc]
    exact ⟨hnever s.link rfl hidle.quiet hc, [], (List.append_nil _).symm, .inl rfl⟩
  rw [if_neg hc]
  have hopen := Bool.eq_false_iff.mpr hc
  cases hsent : s.link.send i (frameBytes frame) with
  | mk server closed input unread log =>
  have hcases := Link.send_cases (i := i) hidle.quiet hopen hlen
  rw [hsent] at hcases
  cases hcases with
  | ended ha =>
    exact ⟨hnever _ rfl ⟨rfl, rfl⟩ rfl, [], (List.append_nil _).symm, .inl rfl⟩
  | @answered _ r ha =>
    refine ⟨?_, [⟨i, ⟨frame, r⟩⟩], rfl, .inr ⟨r, rfl⟩⟩
    have hpaired := h.paired hopen
    exact {
      right := h.right.more (List.subset_append_left _ _)
      own := fun r' bytes hm => (h.own r' bytes hm).more rfl rfl
      lost := h.lost
      input := rfl
      fits := by
        intro x hx
        rcases List.mem_append.mp hx with hx | hx
        · exact h.fits x hx
        · rw [List.mem_singleton.mp hx]
          exact S.fits ha
      paired := fun _ => by
        show (s.link.log ++ _).length = (s.requests ++ _).length
        rw [List.length_append, List.length_append, hpaired]
        rfl
      awaits := by
        refine @Awaits.reply S _ s.requests.length [] r.bytes (by rw [hidle.readers]; rfl)
          ⟨i, frame, r, List.getElem?_concat_length, ?_, rfl⟩ rfl
        show (s.link.log ++ _)[_]? = _
        rw [← hpaired]
        exact List.getElem?_concat_length
      gone := hgone }

/-- what the call `i` knows: it has sent at most `n` events -/
structure Knows (i n : Nat) (s : Session S) : Prop where
  inv : Inv s
  sent : (appends s.link.log i).length ≤ n

theorem Goes.subset (h : Goes i s s') : s.link.log ⊆ s'.link.log := by
  obtain ⟨⟨new, hlog, -⟩, -⟩ := h
  rw [hlog]
  exact List.subset_append_left _ _

theorem Goes.appends (h : Goes i s s') : appends s'.link.log i = appends s.link.log i := by
  obtain ⟨⟨new, hlog, hnew⟩, -⟩ := h
  rw [hlog, appends_append, appends_none fun x hx => .inl (hnew x hx), List.append_nil]

theorem Knows.leads (h : Knows i n s) (hs : (contract S).Leads i s s') : Knows i n s' := by
  refine ⟨hs.inv, ?_⟩
  rw [hs.rely.appends]
  exact h.sent

variable {Q : Except TsError α → Session S → Prop}

theorem write_safe {frame : Bytes} {m : Nat} {k : Nat → Call S α} (h : Knows i n s)
    (hlen : frame.length ≤ maxFrameSize) (hm : ∀ r, (appends [⟨i, ⟨frame, r⟩⟩] i).length ≤ m)
    (hok : ∀ r s', Knows i (n + m) s' → s.link.log ⊆ s'.link.log →
      s'.requests[r]? = some (i, frameBytes frame) → (k r).run.Safe (contract S) Orderly i Q s')
    (herr : ∀ e s', Q (.error e) s') :
    (write i (frameBytes frame) >>= k).run.Safe (contract S) Orderly i Q s := by
  refine atom_safe fun s₁ h₁ x s₂ hx hC => ?_
  have hk := h.leads h₁
  by_cases hsocket : s₁.socket = true
  · rw [if_pos hsocket] at hx
    cases hx
    have hidle : s₁.Idle := by
      rcases hC with hidle | ⟨hreqs, -⟩
      · exact hidle
      · exact absurd (congrArg List.length hreqs) (by simp [Session.written])
    obtain ⟨hinv, new, hlog, hnew⟩ := hk.inv.written hidle hlen hsocket
    refine ⟨⟨hinv, fun j hj => ⟨⟨new, hlog, fun x hx => ?_⟩, ⟨_, rfl⟩⟩⟩, ?_⟩
    · rcases hnew with rfl | ⟨r, rfl⟩
      · cases hx
      · rw [List.mem_singleton.mp hx]
        exact Ne.symm hj
    · refine hok _ _ ⟨hinv, ?_⟩ ?_ List.getElem?_concat_length
      · rw [hlog, appends_append, List.length_append]
        rcases hnew with rfl | ⟨r, rfl⟩
        · exact le_trans hk.sent (Nat.le_add_right n m)
        · exact Nat.add_le_add hk.sent (hm r)
      · rw [hlog]
        exact List.Subset.trans h₁.rely.subset (List.subset_append_left _ _)
  · rw [if_neg hsocket] at hx
    cases hx
    exact ⟨⟨hk.inv, fun j _ => .same rfl rfl⟩, fun s₃ _ => herr _ s₃⟩

/-- a promise that is kept brings the reply to its own request -/
theorem readFrame_safe {frame : Bytes} {r : Nat} {k : Bytes → Call S α} (h : Knows i n s)
    (hreq : s.requests[r]? = some (i, frameBytes frame))
    (hok : ∀ (reply : Reply) s', Knows i n s' → s.link.log ⊆ s'.link.log →
      ⟨i, ⟨frame, reply⟩⟩ ∈ s'.link.log → 1 + reply.body.length ≤ maxFrameSize →
      (k reply.bytes).run.Safe (contract S) Orderly i Q s')
    (herr : ∀ e s', Q (.error e) s') :
    (readFrame r >>= k).run.Safe (contract S) Orderly i Q s := by
  refine atom_safe fun s₁ h₁ x s₂ hx _ => ?_
  obtain ⟨y, hlook, hy⟩ := Option.map_eq_some_iff.mp hx
  cases hy
  have hk := h.leads h₁
  refine ⟨⟨hk.inv, fun j _ => .same rfl rfl⟩, ?_⟩
  cases x with
  | error e => exact fun s₃ _ => herr e s₃
  | ok bytes =>
    obtain ⟨l₁, l₂, hl, -⟩ := List.lookup_eq_some_iff.mp hlook
    have hmem : (r, .ok bytes) ∈ s₁.results := by
      rw [hl]
      exact List.mem_append_right _ (List.mem_cons_self ..)
    obtain ⟨j, frame', reply, hreq', hans, rfl⟩ := hk.inv.own r bytes hmem
    obtain ⟨-, reqs, hreqs⟩ := h₁.rely
    have hsame : s₁.requests[r]? = some (i, frameBytes frame) := by
      rw [hreqs]
      exact getElem?_more hreq reqs
    obtain ⟨rfl, hframe⟩ := Prod.mk.inj (Option.some.inj (hreq'.symm.trans hsame))
    cases frameBytes_inj hframe
    have hlog := List.mem_of_getElem? hans
    exact hok reply s₁ hk h₁.rely.subset hlog (hk.inv.fits _ hlog)

/-- **one request**: its own reply is decoded -/
theorem request_safe {frame : Bytes} {m : Nat} {k : UInt8 × Bytes → Call S α} (h : Knows i n s)
    (hlen : frame.length ≤ maxFrameSize) (hm : ∀ r, (appends [⟨i, ⟨frame, r⟩⟩] i).length ≤ m)
    (hok : ∀ (reply : Reply) s', Knows i (n + m) s' → s.link.log ⊆ s'.link.log →
      ⟨i, ⟨frame, reply⟩⟩ ∈ s'.link.log →
      (k (reply.resp.toU8, reply.body)).run.Safe (contract S) Orderly i Q s')
    (herr : ∀ e s', Q (.error e) s') :
    (write i (frameBytes frame) >>= fun id => readFrame id >>= fun response =>
      checked (decodeFrame response) >>= k).run.Safe (contract S) Orderly i Q s := by
  refine write_safe h hlen hm (fun r s₁ h₁ l₁ hreq => ?_) herr
  refine readFrame_safe h₁ hreq (fun reply s₂ h₂ l₂ hlog hfit => ?_) herr
  rw [decodeFrame_reply hfit]
  exact hok reply s₂ h₂ (List.Subset.trans l₁ l₂) hlog

theorem expect_safe {resp : Resp} {what ok : String} {r : Reply} {k : Bytes → Call S α}
    (hok : r.resp = resp → (k r.body).run.Safe (contract S) Orderly i Q s)
    (herr : ∀ e s', Q (.error e) s') :
    (expect resp what ok (r.resp.toU8, r.body) >>= k).run.Safe (contract S) Orderly i Q s := by
  unfold expect
  by_cases he : r.resp.toU8 = Resp.error.toU8
  · rw [if_pos he]
    exact fun s' _ => herr _ s'
  rw [if_neg he]
  by_cases hr : r.resp.toU8 ≠ resp.toU8
  · rw [if_pos hr]
    exact fun s' _ => herr _ s'
  · rw [if_neg hr]
    exact hok (toU8_inj (not_not.mp hr))

/-! ### the methods -/

theorem getOrIntern_safe {kind : DictKind} {name : Str} {k : UInt32 → Call S α} (h : Knows i n s)
    (hok : ∀ id s', Knows i n s' → s.link.log ⊆ s'.link.log →
      Named s'.link.log kind (encode name) id → (k id).run.Safe (contract S) Orderly i Q s')
    (herr : ∀ e s', Q (.error e) s') :
    (getOrIntern i kind name >>= k).run.Safe (contract S) Orderly i Q s := by
  unfold getOrIntern
  rw [bind_assoc]
  refine state_safe fun s₁ hs₁ => ?_
  have h₁ := h.leads hs₁
  have l₁ := hs₁.rely.subset
  cases hc : s₁.cache kind name with
  | some id =>
    obtain ⟨bytes, he, hn⟩ := h₁.inv.right kind name id hc
    cases he
    exact hok id s₁ h₁ l₁ hn
  | none =>
  dsimp only
  by_cases hsocket : (!s₁.socket) = true
  · rw [if_pos hsocket]
    exact fun s' _ => herr _ s'
  rw [if_neg hsocket]
  simp only [bind_assoc]
  refine checked_safe (fun bytes hb => ?_) fun e _ s' _ => herr e s'
  obtain ⟨rfl, hlen⟩ := encodeIntern_ok hb
  refine request_safe (m := 0) h₁ hlen (fun r => ?_) (fun reply s₂ h₂ l₂ hlog => ?_) herr
  · rw [appends_none fun x hx => .inr (by rw [List.mem_singleton.mp hx]; exact isAppend_intern ..)]
    exact le_refl _
  refine expect_safe (fun hresp => ?_) herr
  refine checked_safe (fun id hid => ?_) fun e _ s' _ => herr e s'
  obtain ⟨hlen4, rfl⟩ := decodeInternOk_ok hid
  have hnamed : Named s₂.link.log kind (encode name) (UInt32.ofNat (leAt reply.body 0 4)) :=
    ⟨_, hlog, by rw [← internReply_of hlen4, ← hresp]⟩
  refine change_safe fun s₃ hs₃ _ => ?_
  have h₃ := h₂.leads hs₃
  have hnamed₃ := hnamed.mono hs₃.rely.subset
  have hinv := h₃.inv.client (c := s₃.remember kind name _) rfl
    (h₃.inv.right.remember rfl hnamed₃)
  refine ⟨⟨hinv, fun j _ => .same rfl rfl⟩, hok _ _ ⟨hinv, h₃.sent⟩ ?_ hnamed₃⟩
  exact List.Subset.trans l₁ (List.Subset.trans l₂ hs₃.rely.subset)

/-- the value of an event; there is none if it cannot be encoded -/
def content (value : TsValue) : Option Content :=
  (encodeValue value).toOption.map fun x => .plain x.1 x.2

/-- what the caller of `emit` says; an event without a correlation has an empty one -/
def Event.said (e : Event) : Option Said := (content e.value).map fun value =>
  ⟨encode e.domain, encode e.category, encode e.name, severityFromString e.severity,
    encode e.fieldName, value, some (encode (e.correlation.getD []))⟩

/-- an `emit` that resolves was acknowledged -/
def Told (i : Nat) (m : Method) (x : Except TsError Unit) (s : Session S) : Prop :=
  ∀ e monotonicNs, m = .emit e monotonicNs → x = .ok () →
    ∃ said seq, e.said = some said ∧ Recorded s.link.log i said seq

/-- **`emit`** -/
theorem emit_safe {e : Event} {monotonicNs : UInt64} (h : Knows i 0 s) :
    (emit i e monotonicNs).run.Safe (contract S) Orderly i (Told i (.emit e monotonicNs)) s := by
  have herr : ∀ (err : TsError) (s' : Session S), Told i (.emit e monotonicNs) (.error err) s' :=
    fun err s' e' now' _ hx => by cases hx
  unfold emit
  refine state_safe fun s₀ hs₀ => ?_
  have h₀ := h.leads hs₀
  by_cases hclosed : s₀.closed = true
  · rw [if_pos hclosed]
    exact fun s' _ => herr _ s'
  rw [if_neg hclosed]
  by_cases hsocket : (!s₀.socket) = true
  · rw [if_pos hsocket]
    exact fun s' _ => herr _ s'
  rw [if_neg hsocket]
  refine getOrIntern_safe h₀ (fun domainId s₁ h₁ _ hd => ?_) herr
  refine getOrIntern_safe h₁ (fun categoryId s₂ h₂ l₂ hc => ?_) herr
  refine getOrIntern_safe h₂ (fun eventNameId s₃ h₃ l₃ hn => ?_) herr
  refine getOrIntern_safe h₃ (fun correlationId s₄ h₄ l₄ hcorr => ?_) herr
  refine getOrIntern_safe h₄ (fun fieldNameId s₅ h₅ l₅ hf => ?_) herr
  refine checked_safe (fun x hx => ?_) fun err _ s' _ => herr err s'
  refine checked_safe (fun bytes hb => ?_) fun err _ s' _ => herr err s'
  obtain ⟨rfl, hlen⟩ := encodeAppendEvent_ok hb
  refine request_safe (m := 1) h₅ hlen (fun r => ?_) (fun reply s₆ h₆ l₆ hlog => ?_) herr
  · rw [appends_self]
    exact le_refl _
  refine expect_safe (fun hresp => ?_) herr
  refine checked_safe (fun seq hseq => ?_) fun err _ s' _ => herr err s'
  intro s' hs' e' now' he _
  cases he
  -- what was interned is still named in the history that the request was sent to
  have l₅' := List.Subset.trans l₆ hs'.rely.subset
  have l₄' := List.Subset.trans l₅ l₅'
  have l₃' := List.Subset.trans l₄ l₄'
  have l₂' := List.Subset.trans l₃ l₃'
  refine ⟨⟨encode e.domain, encode e.category, encode e.name, severityFromString e.severity,
    encode e.fieldName, .plain x.1 x.2, some (encode (e.correlation.getD []))⟩, seq, ?_,
    ⟨monotonicNs, domainId, categoryId, eventNameId, correlationId, severityFromString e.severity,
      fieldNameId, x.1, x.2⟩, ?_, {
      domain := hd.mono (List.Subset.trans l₂ l₂')
      category := hc.mono l₂'
      name := hn.mono l₃'
      severity := rfl
      fieldName := hf.mono l₅'
      value := ⟨rfl, rfl⟩
      correlation := hcorr.mono l₄' }⟩
  · rw [Event.said, content, hx]
    rfl
  · have hreply : reply = appendReply seq := by
      obtain ⟨hlen8, hs8⟩ := decodeAppendEventOk_ok hseq
      rw [← hs8, ← appendReply_of hlen8, ← hresp]
    rw [hreply] at hlog
    exact sent_once (h₆.leads hs').sent (hs'.rely.subset hlog)

theorem warned_safe {p : Call S Unit} (h : p.run.Safe (contract S) Orderly i (fun _ _ => True) s)
    (hs : Inv s) {k : Unit → Call S α} (hk : ∀ s', Inv s' → (k ()).run.Safe (contract S) Orderly i Q s') :
    (warned p >>= k).run.Safe (contract S) Orderly i Q s := by
  refine Safe.bind_except (Q := fun x _ => x = .ok ()) ?_ hs ?_ ?_
  · exact h.bind hs fun x s' _ _ => safe_pure fun _ _ => rfl
  · rintro ⟨⟩ s' hs' -
    exact hk s' hs'
  · intro e s' _ hx
    cases hx

/-- **`close`** -/
theorem close_safe (h : Knows i 0 s) :
    (close i).run.Safe (contract S) Orderly i (fun _ _ => True) s := by
  unfold close
  refine state_safe fun s₀ hs₀ => ?_
  have h₀ := h.leads hs₀
  by_cases hclosed : s₀.closed = true
  · rw [if_pos hclosed]
    exact fun s' _ => trivial
  rw [if_neg hclosed]
  refine change_safe fun s₁ hs₁ _ => ?_
  have h₁ := h₀.leads hs₁
  have hinv := h₁.inv.client (c := { s₁.toClient with closed := true }) rfl h₁.inv.right
  refine ⟨⟨hinv, fun j _ => .same rfl rfl⟩, state_safe fun s₂ hs₂ => ?_⟩
  have h₂ : Knows i 0 s₂ := Knows.leads ⟨hinv, h₁.sent⟩ hs₂
  by_cases hsocket : s₂.socket = true
  · rw [if_pos hsocket]
    refine warned_safe ?_ h₂.inv fun s₃ h₃ => ?_
    · refine checked_safe (fun bytes hb => ?_) fun err _ s' _ => trivial
      obtain ⟨rfl, hlen⟩ := encodeFrame_ok hb
      refine request_safe (m := 0) h₂ hlen (fun r => ?_) (fun reply s₃ h₃ _ _ => ?_)
        fun err s' => trivial
      · rw [appends_none fun x hx => .inr (by rw [List.mem_singleton.mp hx]; rfl)]
        exact le_refl _
      · exact fun s' _ => trivial
    · refine safe_atom fun s₄ hs₄ x s₅ hstep hC => ?_
      cases hstep
      have hidle : s₄.Idle := by
        rcases hC with hidle | ⟨-, hsame⟩
        · exact hidle
        · exact hs₄.inv.idle (hs₄.inv.gone hsame.symm)
      exact ⟨⟨hs₄.inv.destroy hidle, fun j _ => .same rfl rfl⟩, fun s' _ => trivial⟩
  · rw [if_neg hsocket]
    exact fun s' _ => trivial

/-- **One call** among orderly others -/
theorem body_safe {m : Method} (h : Inv s) (hnew : ∀ x ∈ s.link.log, x.caller ≠ i) :
    (body i m).Safe (contract S) Orderly i (Told i m) s := by
  have hk : Knows i 0 s := by
    refine ⟨h, ?_⟩
    rw [appends_none fun x hx => .inl (hnew x hx)]
    exact le_refl _
  cases m with
  | emit e monotonicNs => exact emit_safe hk
  | close =>
    refine (close_safe hk).mono fun x s' _ e monotonicNs he => ?_
    cases he

theorem opened_inv (S : Server) : Inv (Session.opened S) where
  right := Client.start_right
  own := fun r bytes hm => by cases hm
  lost := rfl
  input := rfl
  fits := fun x hx => by cases hx
  paired := fun _ => rfl
  awaits := .none rfl rfl
  gone := fun _ => rfl

/-- every settled request has its own reply, every cached id is the one of the agent, and no byte
was lost -/
structure Matched (s : Session S) : Prop where
  own : ∀ r bytes, (r, .ok bytes) ∈ s.results → s.Answers r bytes
  right : s.Right (some ∘ encode)
  lost : s.lost = []

/-- **Emits and closes in any interleaving, with the replies in any pieces**: as long as they are
orderly, every request is paired with its own reply, and an `emit` that resolves was acknowledged
once, with what its caller said -/
theorem orderly_matched {g : Tasks (Session S) Method (Except TsError Unit)}
    (h : Happens body occur Orderly (.opened S) g) : Matched g.state ∧
      ∀ i e monotonicNs, g.calls[i]? = some (.emit e monotonicNs, .done (.ok ())) →
        ∃ said seq, e.said = some said ∧ Recorded g.state.link.log i said seq := by
  have hg : Together (contract S) Orderly Told g := by
    refine h.safe (opened_inv S) (fun i x hx => ?_) (fun i m s hs hnew => body_safe hs hnew)
      fun e s s' hs ho => occur_inv hs ho
    cases hx
  have hinv : Inv g.state := hg.inv
  exact ⟨⟨hinv.own, hinv.right, hinv.lost⟩,
    fun i e monotonicNs hc => hg.result hc e monotonicNs rfl rfl⟩

end

/-! ## two calls that are started together -/

def ascii (s : String) : Str := s.toList.map fun c => UInt16.ofNat c.toNat

def exampleEvent (domain : String) : Event :=
  ⟨ascii domain, ascii "rx", ascii "frame", .info, ascii "len", .bigint 7, some (ascii "c")⟩

/-- an `emit` has resolved -/
def resolved {S : Server} : Method × Code (Session S) (Except TsError Unit) → Bool
  | (.emit _ _, .done (.ok _)) => true
  | _ => false

theorem resolved_iff {S : Server} {x : Method × Code (Session S) (Except TsError Unit)}
    (h : resolved x = true) : ∃ e monotonicNs, x = (.emit e monotonicNs, .done (.ok ())) := by
  unfold resolved at h
  split at h
  · exact ⟨_, _, rfl⟩
  · cases h

instance {S : Server} (s s' : Session S) : Decidable (Orderly s s') :=
  decidable_of_iff ((s.readers = [] ∧ s.link.input = [] ∧ s.link.unread = []) ∨
    s'.requests = s.requests ∧ s'.socket = s.socket) <| by
    refine or_congr ⟨fun h => ⟨h.1, h.2.1, h.2.2⟩, fun h => ?_⟩ Iff.rfl
    exact ⟨h.readers, h.quiet.input, h.quiet.unread⟩

/-- the call goes on for `n` actions -/
def acts (i n : Nat) : List (Move Method SocketEvent) := List.replicate n (.act i)

/-- the reply to the first request comes in two pieces -/
def emitMoves : List (Move Method SocketEvent) :=
  .call (.emit (exampleEvent "net") 7) :: acts 0 3 ++ [.env (.data 3), .env (.data 100)] ++
    (List.replicate 4 (acts 0 4 ++ [.env (.data 100)])).flatten ++ acts 0 3 ++
    [.env (.data 100)] ++ acts 0 1

theorem orderly_matched_example : ∃ (g : Tasks (Session exampleAgent) Method (Except TsError Unit))
    (said : Said) (seq : UInt64), Matched g.state ∧ Recorded g.state.link.log 0 said seq := by
  have hrun : ((Tasks.play body occur (fun s s' => decide (Orderly s s')) emitMoves
      (.start (.opened exampleAgent))).map fun g => g.calls.map resolved) = some [true] := by
    decide +kernel
  obtain ⟨g, hg, hres⟩ := Option.map_eq_some_iff.mp hrun
  have hhappens := Tasks.play_happens (fun s s' => of_decide_eq_true) .start hg
  obtain ⟨x, hx⟩ : ∃ x, g.calls = [x] := List.length_eq_one_iff.mp <| by
    rw [← List.length_map (f := resolved), hres]
    rfl
  rw [hx] at hres
  obtain ⟨e, monotonicNs, rfl⟩ := resolved_iff (List.head_eq_of_cons_eq hres)
  obtain ⟨hmatched, hrec⟩ := orderly_matched hhappens
  obtain ⟨said, seq, -, hsaid⟩ := hrec 0 e monotonicNs (by rw [hx]; rfl)
  exact ⟨g, said, seq, hmatched, hsaid⟩

/-- both requests are written before the first reply is there, and the two replies come in one
piece -/
def crossedMoves : List (Move Method SocketEvent) :=
  [.call (.emit (exampleEvent "net") 7), .call (.emit (exampleEvent "disk") 8)] ++ acts 0 3 ++
    acts 1 3 ++ [.env (.data 100)] ++ acts 0 2 ++ acts 1 2

/-- **Two calls that are started together get the reply to the first one**: the domain of the second
event has the id of the first one's -/
theorem crossed_replies : ∃ g : Tasks (Session exampleAgent) Method (Except TsError Unit),
    Happens body occur (fun _ _ => True) (.opened exampleAgent) g ∧ ¬ Matched g.state := by
  have hrun : ((Tasks.play body occur (fun _ _ => true) crossedMoves
      (.start (.opened exampleAgent))).map fun g => (g.state.cache .domain (ascii "disk"),
        decide (Named g.state.link.log .domain (encode (ascii "disk")) 1))) =
      some (some 1, false) := by decide +kernel
  obtain ⟨g, hg, hres⟩ := Option.map_eq_some_iff.mp hrun
  obtain ⟨hcached, hnamed⟩ := Prod.mk.inj hres
  refine ⟨g, Tasks.play_happens (fun _ _ _ => trivial) .start hg, fun hmatched => ?_⟩
  obtain ⟨bytes, he, hn⟩ := hmatched.right .domain (ascii "disk") 1 hcached
  cases he
  exact of_decide_eq_false hnamed hn

end Dtj.Sdk.TypeScript
