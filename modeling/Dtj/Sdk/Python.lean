import Dtj.Sdk.Client
import Dtj.Lib.Code

/-!
# The Python SDK: a session whose socket may time out

`packages/dtj-python/src/dtj_sdk`: `protocol.py` and `TraceSession` of `client.py`.  Every `recv`
may raise `TimeoutError` although the bytes arrive later; a caller may go on after the exception.

* `encodeUtf8`, `encodeValue`, `encodeIntern`, `encodeAppendEvent`   what is sent;
* `recv`, `readFrame`, `intern`, `emit`, `close`                     the calls;
* `request_keeps`, `intern_keeps`, `emit_keeps`   **what they leave when they start in step**;
* `Calls`              calls one after the other, whatever they raise;
* `in_step_matched`    a session whose calls all start in step pairs replies with their requests;
* `Calls.inStep`       the calls start in step until one of them has raised a timeout;
* `stale_reply`        a call after a timeout caches the id of another name.
-/

namespace Dtj.Sdk.Python
open Wire Checked Agent Conc Code

/-- code points, lone surrogates among them -/
abbrev Str := List UInt32

def str (s : String) : Str := s.toList.map fun c => c.val

/-- a text to show; a surrogate becomes a NUL -/
def text (s : Str) : String := String.ofList (s.map fun c => Char.ofNat c.toNat)

/-- an exception that a call raises -/
inductive PyError where
  | protocolError (msg : String)
  | connectionError (msg : String)
  | valueError (msg : String)
  | sessionError (msg : String)
  | builtinValueError (msg : String)
  | unicodeEncodeError
  | timeoutError
  | brokenPipeError
deriving DecidableEq

/-- the value of a field; floats are their bits -/
inductive PyValue where
  | bool (b : Bool)
  | int (v : Int)
  | float (bits : UInt64)
  | str (s : Str)
  | bytes (bs : Bytes)
  | other (type : String)

structure Event where
  domain : Str
  category : Str
  name : Str
  severity : Str
  fieldName : Str
  value : PyValue
  correlation : Option Str

/-! ## protocol.py -/

def utf8Point (c : UInt32) : Option Bytes :=
  let n := c.toNat
  if n < 0x80 then some [UInt8.ofNat n]
  else if n < 0x800 then some [UInt8.ofNat (0xC0 + n / 2^6), UInt8.ofNat (0x80 + n % 2^6)]
  else if 0xD800 ≤ n ∧ n < 0xE000 then none
  else if n < 0x10000 then
    some [UInt8.ofNat (0xE0 + n / 2^12), UInt8.ofNat (0x80 + n / 2^6 % 2^6),
      UInt8.ofNat (0x80 + n % 2^6)]
  else some [UInt8.ofNat (0xF0 + n / 2^18), UInt8.ofNat (0x80 + n / 2^12 % 2^6),
    UInt8.ofNat (0x80 + n / 2^6 % 2^6), UInt8.ofNat (0x80 + n % 2^6)]

/-- `s.encode("utf-8")`; a surrogate cannot be encoded -/
def encodeUtf8 : Str → Option Bytes
  | [] => some []
  | c :: cs =>
    match utf8Point c, encodeUtf8 cs with
    | some b, some bs => some (b ++ bs)
    | _, _ => none

def encodeFrame (opcode : UInt8) (body : Bytes) : Except PyError Bytes :=
  let length := 1 + body.length
  if length > maxFrameSize then
    .error (.protocolError s!"Frame too large: {length} > {maxFrameSize}")
  else .ok (frameBytes (opcode :: body))

def decodeFrame (data : Bytes) : Except PyError (UInt8 × Bytes) :=
  if data.length < 5 then .error (.protocolError "Frame too short")
  else
    let length := leAt data 0 4
    if length > maxFrameSize then .error (.protocolError s!"Frame too large: {length}")
    else if data.length < 4 + length then .error (.protocolError "Frame truncated")
    else .ok (data.getD 4 0, (data.drop 5).take (length - 1))

def encodeIntern (kind : DictKind) (name : Str) : Except PyError Bytes :=
  match encodeUtf8 name with
  | none => .error .unicodeEncodeError
  | some nameBytes =>
    if nameBytes.length > 1024 then
      .error (.builtinValueError "name too long (max 1024 bytes)")
    else encodeFrame Cmd.intern.toU8 (kind.toU8 :: (le 2 nameBytes.length ++ nameBytes))

def decodeInternOk (body : Bytes) : Except PyError UInt32 :=
  if body.length ≠ 4 then .error (.protocolError "InternOk body must be 4 bytes")
  else .ok (UInt32.ofNat (leAt body 0 4))

def encodeAppendEvent (a : Appended) : Except PyError Bytes :=
  encodeFrame Cmd.appendEvent.toU8 a.request.tail

def decodeAppendEventOk (body : Bytes) : Except PyError UInt64 :=
  if body.length ≠ 8 then .error (.protocolError "AppendEventOk body must be 8 bytes")
  else .ok (UInt64.ofNat (leAt body 0 8))

def encodeFinishSession : Except PyError Bytes := encodeFrame Cmd.finishSession.toU8 []

def decodeError (body : Bytes) : String := fromUtf8Lossy body

/-- `SEVERITY_MAP` -/
def severityMap : List (Str × UInt8) :=
  [(str "trace", 0), (str "debug", 1), (str "info", 2), (str "warn", 3), (str "error", 4),
    (str "fatal", 5)]

/-- `s.lower()`, as far as the names of severities can tell -/
def lower (s : Str) : Str := s.map fun c => if 0x41 ≤ c ∧ c ≤ 0x5A then c + 0x20 else c

def encodeValue : PyValue → Except PyError (UInt8 × Bytes)
  | .bool b => .ok (0x01, [if b then 1 else 0])
  | .int v =>
    if -(2^63) ≤ v ∧ v < 2^63 then .ok (0x03, le 8 (v % 2^64).toNat)
    else if 0 ≤ v ∧ v < 2^64 then .ok (0x05, le 8 v.toNat)
    else .error (.valueError s!"Integer out of range: {v}")
  | .float bits => .ok (0x07, le 8 bits.toNat)
  | .str _ =>
    .error (.valueError "Strings must be interned first; use field_name_id from intern")
  | .bytes bs =>
    if bs.length > 2^32 - 1 then .error (.valueError "Bytes too long")
    else .ok (0x0C, le 4 bs.length ++ bs)
  | .other type => .error (.valueError s!"Unsupported value type: {type}")

/-! ## client.py -/

/-- a session, and what its next `recv`s will do: 0 for a timeout, `n` for at most `n` bytes -/
structure Session (S : Server) extends Client S Str where
  schedule : List Nat

def Session.opened (S : Server) (schedule : List Nat) : Session S := ⟨.start S Str, schedule⟩

abbrev Call (S : Server) (α : Type) := ExceptT PyError (Code (Session S)) α

section
variable {S : Server} {α : Type}

/-- bytes are taken from the socket -/
def Session.take (s : Session S) (n : Nat) (schedule : List Nat) : Session S :=
  { s with link := { s.link with unread := s.link.unread.drop n }, schedule := schedule }

/-- `sock.recv(n)`: a closed connection gives no bytes, and one that is silent a timeout; without a
schedule all bytes arrive at once -/
def recv (n : Nat) : Call S Bytes := ExceptT.mk <| atom fun s =>
  let k := s.schedule.headD n
  if s.link.unread = [] ∧ s.link.closed then some (.ok [], s.take 0 s.schedule.tail)
  else if s.link.unread = [] ∨ k = 0 then some (.error .timeoutError, s.take 0 s.schedule.tail)
  else some (.ok (s.link.unread.take (min k n)), s.take (min k n) s.schedule.tail)

/-- `while len(buf) < n`; as each chunk has a byte, `n` rounds are enough -/
def recvAll (n : Nat) : Nat → Bytes → Call S Bytes
  | 0, buf => return buf
  | rounds + 1, buf =>
    if buf.length < n then do
      let chunk ← recv (n - buf.length)
      if chunk = [] then throw (.connectionError "Socket closed unexpectedly")
      else recvAll n rounds (buf ++ chunk)
    else return buf

def readFrame : Call S Bytes := do
  let lenBuf ← recvAll 4 4 []
  let length := leNat lenBuf
  if length > 1048576 then throw (.protocolError s!"Frame too large: {length}")
  else return lenBuf ++ (← recvAll length length [])

def sendall (i : Nat) (frame : Bytes) : Call S Unit := ExceptT.mk <| atom fun s =>
  if s.link.closed then some (.error .brokenPipeError, s)
  else some (.ok (), { s with link := s.link.send i frame })

/-- the checks of a reply: `what` was sent, and `ok` is expected -/
def expect (resp : Resp) (what ok : String) (reply : UInt8 × Bytes) : Call S Bytes :=
  if reply.1 = Resp.error.toU8 then
    throw (.protocolError s!"{what} failed: {decodeError reply.2}")
  else if reply.1 ≠ resp.toU8 then
    throw (.protocolError s!"Expected {ok}, got 0x{String.ofList (Nat.toDigits 16 reply.1.toNat)}")
  else pure reply.2

/-- the call `i` interns a name, using the cache -/
def intern (i : Nat) (kind : DictKind) (name : Str) : Call S UInt32 := do
  match (← state).cache kind name with
  | some id => return id
  | none =>
    sendall i (← checked (encodeIntern kind name))
    let reply ← checked (decodeFrame (← readFrame))
    let body ← expect .internOk "Intern" "InternOk" reply
    let id ← checked (decodeInternOk body)
    change fun s => { s with toClient := s.remember kind name id }
    return id

/-- `self._get_or_intern_string(correlation) if correlation else 0` -/
def internCorrelation (i : Nat) : Option Str → Call S UInt32
  | none | some [] => pure 0
  | some name => intern i .string name

/-- a string is interned, everything else is encoded -/
def internValue (i : Nat) : PyValue → Call S (UInt8 × Bytes)
  | .str s => do return (0x0B, le 4 (← intern i .string s).toNat)
  | value => checked (encodeValue value)

/-- `emit`, at the time `now` of the monotonic clock -/
def emit (i : Nat) (event : Event) (now : UInt64) : Call S UInt64 := do
  if (← state).closed then throw (.sessionError "Session already closed")
  else
    match severityMap.lookup (lower event.severity) with
    | none => throw (.valueError (s!"Invalid severity: {text event.severity}. Must be one of " ++
        "['trace', 'debug', 'info', 'warn', 'error', 'fatal']"))
    | some severity =>
      let domainId ← intern i .domain event.domain
      let categoryId ← intern i .category event.category
      let eventNameId ← intern i .eventName event.name
      let correlationId ← internCorrelation i event.correlation
      let fieldNameId ← intern i .string event.fieldName
      let (typeTag, valueBody) ← internValue i event.value
      sendall i (← checked (encodeAppendEvent ⟨now, domainId, categoryId, eventNameId,
        correlationId, severity, fieldNameId, typeTag, valueBody⟩))
      let reply ← checked (decodeFrame (← readFrame))
      let body ← expect .appendEventOk "AppendEvent" "AppendEventOk" reply
      checked (decodeAppendEventOk body)

/-- `try: ... except Exception: pass` -/
def swallowed (p : Call S Unit) : Call S Unit := ExceptT.mk do
  let _ ← p.run
  return .ok ()

def close (i : Nat) : Call S Unit := do
  if (← state).closed then return ()
  else
    change fun s => { s with toClient := { s.toClient with closed := true } }
    swallowed do
      sendall i (← checked encodeFinishSession)
      let _ ← checked (decodeFrame (← readFrame))
      return ()

/-- a method that the program calls -/
inductive Method where
  | emit (event : Event) (now : UInt64)
  | close

/-- what `emit` returns, and nothing for `close` -/
abbrev Result := Except PyError (Option UInt64)

/-- the code of the call `i` -/
def body (i : Nat) : Method → Code (Session S) Result
  | .emit event now => (emit i event now).run >>= fun x => pure (x.map some)
  | .close => (close i).run >>= fun x => pure (x.map fun _ => none)

end

/-! ## what the calls do -/

theorem encodeFrame_ok {opcode : UInt8} {body bytes : Bytes}
    (h : encodeFrame opcode body = .ok bytes) :
    bytes = frameBytes (opcode :: body) ∧ (opcode :: body).length ≤ maxFrameSize := by
  simp only [encodeFrame] at h
  split at h
  · cases h
  · rename_i hlen
    cases h
    refine ⟨rfl, ?_⟩
    rw [List.length_cons]
    omega

theorem encodeIntern_ok {kind : DictKind} {name : Str} {bytes : Bytes}
    (h : encodeIntern kind name = .ok bytes) : ∃ nameBytes, encodeUtf8 name = some nameBytes ∧
      bytes = frameBytes (internRequest kind nameBytes) ∧
      (internRequest kind nameBytes).length ≤ maxFrameSize := by
  unfold encodeIntern at h
  split at h
  · cases h
  · rename_i nameBytes hn
    split at h
    · cases h
    · exact ⟨nameBytes, hn, encodeFrame_ok h⟩

/-- the bytes of `AppendEvent` -/
theorem encodeAppendEvent_ok {a : Appended} {bytes : Bytes} (h : encodeAppendEvent a = .ok bytes) :
    bytes = frameBytes a.request ∧ a.request.length ≤ maxFrameSize := encodeFrame_ok h

theorem decodeInternOk_ok {body : Bytes} {id : UInt32} (h : decodeInternOk body = .ok id) :
    body.length = 4 ∧ UInt32.ofNat (leAt body 0 4) = id := by
  unfold decodeInternOk at h
  split at h
  · cases h
  · rename_i hlen
    cases h
    exact ⟨not_not.mp hlen, rfl⟩

theorem decodeAppendEventOk_ok {body : Bytes} {seq : UInt64}
    (h : decodeAppendEventOk body = .ok seq) :
    body.length = 8 ∧ UInt64.ofNat (leAt body 0 8) = seq := by
  unfold decodeAppendEventOk at h
  split at h
  · cases h
  · rename_i hlen
    cases h
    exact ⟨not_not.mp hlen, rfl⟩

/-- the frame of a reply is decoded to the reply -/
theorem decodeFrame_reply {r : Reply} (hfit : 1 + r.body.length ≤ maxFrameSize) :
    decodeFrame (le 4 (1 + r.body.length) ++ (r.resp.toU8 :: r.body)) = .ok (r.resp.toU8, r.body) := by
  have hmax : maxFrameSize = 1048576 := rfl
  have hlen : (le 4 (1 + r.body.length) ++ (r.resp.toU8 :: r.body)).length = 5 + r.body.length := by
    rw [List.length_append, le_length, List.length_cons]
    omega
  have hle : leAt (le 4 (1 + r.body.length) ++ (r.resp.toU8 :: r.body)) 0 4 = 1 + r.body.length :=
    leAt_head 4 _ _ (by omega)
  have hop : (le 4 (1 + r.body.length) ++ (r.resp.toU8 :: r.body)).getD 4 0 = r.resp.toU8 := by
    rw [List.getD_eq_getElem?_getD, List.getElem?_append_right (by rw [le_length]), le_length]
    rfl
  have hdrop : (le 4 (1 + r.body.length) ++ (r.resp.toU8 :: r.body)).drop 5 = r.body := by
    rw [show 5 = (le 4 (1 + r.body.length)).length + 1 by rw [le_length], List.drop_append]
    rfl
  unfold decodeFrame
  rw [if_neg (by omega)]
  simp only [hle]
  rw [if_neg (by omega), if_neg (by omega), hop, hdrop, Nat.add_sub_cancel_left, List.take_length]

section
variable {S : Server} {α : Type} {i : Nat} {s s' : Session S} {I : Session S → Prop}
  {Q : Except PyError α → Session S → Prop}

/-- one `recv` while bytes are there: some of them, or a timeout -/
theorem recv_keeps {n : Nat} {k : Bytes → Call S α} (hn : 0 < n) (hun : s.link.unread ≠ [])
    (hI : ∀ j sched, I (s.take j sched))
    (hok : ∀ j sched, 0 < j → j ≤ n → (k (s.link.unread.take j)).run.Keeps I Q (s.take j sched))
    (herr : ∀ sched, Q (.error .timeoutError) (s.take 0 sched)) :
    (recv n >>= k).run.Keeps I Q s := by
  refine Keeps.bind_except (keeps_atom (Q := fun x s' =>
    (x = .error .timeoutError ∧ ∃ sched, s' = s.take 0 sched) ∨ ∃ j sched, 0 < j ∧ j ≤ n ∧
      x = .ok (s.link.unread.take j) ∧ s' = s.take j sched) ?_) ?_ ?_
  · intro x s' hx
    rw [if_neg (fun h => hun h.1)] at hx
    split at hx
    · cases hx
      exact ⟨hI _ _, .inl ⟨rfl, _, rfl⟩⟩
    · rename_i hk
      cases hx
      have hpos : s.schedule.headD n ≠ 0 := fun h => hk (.inr h)
      exact ⟨hI _ _, .inr ⟨_, _, by omega, min_le_right _ _, rfl, rfl⟩⟩
  · rintro a s' (⟨hx, -⟩ | ⟨j, sched, hj, hjn, hx, rfl⟩)
    · cases hx
    · cases hx
      exact hok j sched hj hjn
  · rintro e s' (⟨hx, sched, rfl⟩ | ⟨j, sched, -, -, hx, -⟩)
    · cases hx
      exact herr sched
    · cases hx

/-- `n` bytes are there: they are read, or the call times out somewhere in them -/
theorem recvAll_keeps {n rounds : Nat} {buf : Bytes} {k : Bytes → Call S α} (hbuf : buf.length ≤ n)
    (hrounds : n - buf.length ≤ rounds) (hun : n - buf.length ≤ s.link.unread.length)
    (hI : ∀ j sched, I (s.take j sched))
    (hok : ∀ sched, (k (buf ++ s.link.unread.take (n - buf.length))).run.Keeps I Q
      (s.take (n - buf.length) sched))
    (herr : ∀ j sched, Q (.error .timeoutError) (s.take j sched)) (hs : s = s.take 0 s.schedule) :
    (recvAll n rounds buf >>= k).run.Keeps I Q s := by
  induction rounds generalizing s buf with
  | zero =>
    have h0 : n - buf.length = 0 := by omega
    have hdone := hok s.schedule
    rw [h0, List.take_zero, List.append_nil, ← hs] at hdone
    exact hdone
  | succ rounds ih =>
    rw [recvAll]
    by_cases hlt : buf.length < n
    · rw [if_pos hlt, bind_assoc]
      refine recv_keeps (by omega) (fun h => ?_) hI (fun j sched hj hjn => ?_) fun sched => herr 0 sched
      · rw [h] at hun
        simp only [List.length_nil] at hun
        omega
      have hlen : (s.link.unread.take j).length = j := List.length_take_of_le (by omega)
      rw [if_neg (fun h => by rw [h] at hlen; exact absurd hlen (by simp; omega))]
      -- the rest of the bytes, counted from where they are now
      have htake : ∀ j' sched', (s.take j sched).take j' sched' = s.take (j + j') sched' := by
        intro j' sched'
        simp only [Session.take, List.drop_drop]
      have hrest : n - (buf ++ s.link.unread.take j).length = n - buf.length - j := by
        rw [List.length_append, hlen]
        omega
      refine ih ?_ ?_ ?_ (fun j' sched' => ?_) (fun sched' => ?_) (fun j' sched' => ?_) rfl
      · rw [List.length_append, hlen]
        omega
      · omega
      · rw [hrest]
        show _ ≤ (s.link.unread.drop j).length
        rw [List.length_drop]
        omega
      · rw [htake]
        exact hI _ _
      · rw [htake, hrest, show j + (n - buf.length - j) = n - buf.length by omega]
        have happ : buf ++ s.link.unread.take j ++ (s.take j sched).link.unread.take (n - buf.length - j)
            = buf ++ s.link.unread.take (n - buf.length) := by
          show buf ++ s.link.unread.take j ++ (s.link.unread.drop j).take (n - buf.length - j) = _
          rw [List.append_assoc, ← List.take_add, show j + (n - buf.length - j) = n - buf.length by omega]
        rw [happ]
        exact hok sched'
      · rw [htake]
        exact herr _ _
    · rw [if_neg hlt]
      have h0 : n - buf.length = 0 := by omega
      have hdone := hok s.schedule
      rw [h0, List.take_zero, List.append_nil, ← hs] at hdone
      exact hdone

theorem recvExactly_keeps {n : Nat} {k : Bytes → Call S α} (hun : n ≤ s.link.unread.length)
    (hI : ∀ j sched, I (s.take j sched))
    (hok : ∀ sched, (k (s.link.unread.take n)).run.Keeps I Q (s.take n sched))
    (herr : ∀ j sched, Q (.error .timeoutError) (s.take j sched)) (hs : s = s.take 0 s.schedule) :
    (recvAll n n [] >>= k).run.Keeps I Q s :=
  recvAll_keeps (show ([] : Bytes).length ≤ n from Nat.zero_le n) (le_refl n) hun hI hok herr hs

/-- the connection has ended, and there are no bytes left -/
theorem recvAll_ended {n rounds : Nat} {k : Bytes → Call S α} (hn : 0 < n) (hrounds : 0 < rounds)
    (hun : s.link.unread = []) (hc : s.link.closed = true) (hI : ∀ sched, I (s.take 0 sched))
    (herr : ∀ e sched, Q (.error e) (s.take 0 sched)) : (recvAll n rounds [] >>= k).run.Keeps I Q s := by
  obtain ⟨rounds, rfl⟩ := Nat.exists_eq_succ_of_ne_zero (Nat.ne_of_gt hrounds)
  rw [recvAll, if_pos (show ([] : Bytes).length < n from hn), bind_assoc]
  refine Keeps.bind_except (keeps_atom (Q := fun x s' => x = .ok [] ∧
    ∃ sched, s' = s.take 0 sched) ?_) ?_ ?_
  · intro x s' hx
    rw [if_pos ⟨hun, hc⟩] at hx
    cases hx
    exact ⟨hI _, rfl, _, rfl⟩
  · rintro a s' ⟨hx, sched, rfl⟩
    cases hx
    rw [if_pos rfl]
    exact herr _ sched
  · rintro e s' ⟨hx, -⟩
    cases hx

/-- the frame of a reply is read, or the call times out somewhere in it -/
theorem readFrame_keeps {r : Reply} {k : Bytes → Call S α} (hun : s.link.unread = r.bytes)
    (hfit : 1 + r.body.length ≤ maxFrameSize) (hI : ∀ j sched, I (s.take j sched))
    (hok : ∀ sched, (k (le 4 (1 + r.body.length) ++ (r.resp.toU8 :: r.body))).run.Keeps I Q
      { s with link := { s.link with unread := [] }, schedule := sched })
    (herr : ∀ j sched, Q (.error .timeoutError) (s.take j sched)) (hs : s = s.take 0 s.schedule) :
    (readFrame >>= k).run.Keeps I Q s := by
  have hmax : maxFrameSize = 1048576 := rfl
  have hbytes : r.bytes = le 4 (1 + r.body.length) ++ (r.resp.toU8 :: r.body) := by
    rw [Reply.bytes, List.append_assoc]
    rfl
  have htake : s.link.unread.take 4 = le 4 (1 + r.body.length) := by
    rw [hun, hbytes, List.take_left' (le_length 4 _)]
  have hdrop : s.link.unread.drop 4 = r.resp.toU8 :: r.body := by
    rw [hun, hbytes, List.drop_left' (le_length 4 _)]
  have hlen : leNat (le 4 (1 + r.body.length)) = 1 + r.body.length := leNat_le 4 _ (by omega)
  have hdone : (r.resp.toU8 :: r.body).length = 1 + r.body.length := by
    rw [List.length_cons, Nat.add_comm]
  have hagain : ∀ sched j sched', (s.take 4 sched).take j sched' = s.take (4 + j) sched' := by
    intro sched j sched'
    simp only [Session.take, List.drop_drop]
  unfold readFrame
  rw [bind_assoc]
  refine recvExactly_keeps ?_ hI (fun sched => ?_) herr hs
  · rw [hun, hbytes, List.length_append, le_length]
    exact Nat.le_add_right _ _
  rw [htake, hlen, if_neg (by omega), bind_assoc]
  refine recvExactly_keeps ?_ (fun j sched' => ?_) (fun sched' => ?_) (fun j sched' => ?_) rfl
  · show _ ≤ (s.link.unread.drop 4).length
    rw [hdrop, hdone]
  · rw [hagain]
    exact hI _ _
  · have hun' : (s.take 4 sched).link.unread = r.resp.toU8 :: r.body := hdrop
    have hnil : s.link.unread.drop (4 + (r.resp.toU8 :: r.body).length) = [] := by
      rw [← List.drop_drop, hdrop, List.drop_length]
    have hend := hok sched'
    rw [hun', ← hdone, List.take_length, hagain, Session.take, hnil]
    rw [← hdone] at hend
    exact hend
  · rw [hagain]
    exact herr _ _

/-- **one request**, written while nothing is under way: its own reply is decoded, or the call
raises -/
theorem request_keeps {frame : Bytes} {k : UInt8 × Bytes → Call S α} (hq : s.link.Quiet)
    (hlen : frame.length ≤ maxFrameSize)
    (hI : ∀ (link : Link S) sched more, link.log = s.link.log ++ more →
      (∀ x ∈ more, ∃ r, x = ⟨i, ⟨frame, r⟩⟩) → I { s with link := link, schedule := sched })
    (hok : ∀ (link : Link S) sched r, link.Quiet → link.log = s.link.log ++ [⟨i, ⟨frame, r⟩⟩] →
      (k (r.resp.toU8, r.body)).run.Keeps I Q { s with link := link, schedule := sched })
    (herr : ∀ (link : Link S) sched e more, link.log = s.link.log ++ more →
      (∀ x ∈ more, ∃ r, x = ⟨i, ⟨frame, r⟩⟩) → (e ≠ .timeoutError → link.Quiet) →
      Q (.error e) { s with link := link, schedule := sched }) :
    (sendall i (frameBytes frame) >>= fun _ => readFrame >>= fun data =>
      checked (decodeFrame data) >>= k).run.Keeps I Q s := by
  have hnone : s.link.log = s.link.log ++ [] := (List.append_nil _).symm
  refine Keeps.bind_except (keeps_atom (Q := fun x s' =>
    (s' = s ∧ ∃ e, x = .error e) ∨ (s.link.closed = false ∧ x = .ok () ∧
      s' = { s with link := s.link.send i (frameBytes frame) })) ?_) ?_ ?_
  · intro x s' hx
    by_cases hc : s.link.closed = true
    · rw [if_pos hc] at hx
      cases hx
      exact ⟨hI s.link s.schedule [] hnone (fun x hx => by cases hx), .inl ⟨rfl, _, rfl⟩⟩
    · rw [if_neg hc] at hx
      cases hx
      have hc' := Bool.eq_false_iff.mpr hc
      refine ⟨?_, .inr ⟨hc', rfl, rfl⟩⟩
      have hcases := Link.send_cases (i := i) hq hc' hlen
      generalize s.link.send i (frameBytes frame) = link at hcases
      cases hcases with
      | answered ha => exact hI _ s.schedule _ rfl fun x hx => ⟨_, List.mem_singleton.mp hx⟩
      | ended ha => exact hI _ s.schedule [] hnone fun x hx => by cases hx
  · rintro a s' (⟨-, e, hx⟩ | ⟨hc, -, rfl⟩)
    · cases hx
    have hcases := Link.send_cases (i := i) hq hc hlen
    generalize s.link.send i (frameBytes frame) = link at hcases
    cases hcases with
    | @answered srv r ha =>
      have hone : ∀ x ∈ [(⟨i, ⟨frame, r⟩⟩ : Entry)], ∃ r, x = ⟨i, ⟨frame, r⟩⟩ :=
        fun x hx => ⟨r, List.mem_singleton.mp hx⟩
      refine readFrame_keeps rfl (S.fits ha) (fun j sched => hI _ sched _ rfl hone) (fun sched => ?_)
        (fun j sched => herr _ sched _ _ rfl hone fun hne => absurd rfl hne) rfl
      rw [decodeFrame_reply (S.fits ha)]
      exact hok ⟨srv, false, [], [], _⟩ sched r ⟨rfl, rfl⟩ rfl
    | ended ha =>
      unfold readFrame
      rw [bind_assoc]
      refine recvAll_ended (by decide) (by decide) rfl rfl (fun sched => ?_) fun e sched => ?_
      · exact hI _ sched [] hnone fun x hx => by cases hx
      · exact herr _ sched e [] hnone (fun x hx => by cases hx) fun _ => ⟨rfl, rfl⟩
  · rintro e s' (⟨rfl, e', hx⟩ | ⟨-, hx, -⟩)
    · cases hx
      exact herr s'.link s'.schedule e [] hnone (fun x hx => by cases hx) fun _ => hq
    · cases hx

end

/-! ### the methods -/

/-- the value of an event; there is none if it cannot be encoded -/
def content : PyValue → Option Content
  | .str s => (encodeUtf8 s).map .text
  | value => (encodeValue value).toOption.map fun x => .plain x.1 x.2

/-- the correlation of an event, if it has one -/
def given : Option Str → Option (Option Bytes)
  | none | some [] => some none
  | some name => (encodeUtf8 name).map some

/-- what the caller of `emit` says -/
def Event.said (e : Event) : Option Said := do
  let domain ← encodeUtf8 e.domain
  let category ← encodeUtf8 e.category
  let name ← encodeUtf8 e.name
  let severity ← severityMap.lookup (lower e.severity)
  let fieldName ← encodeUtf8 e.fieldName
  let value ← content e.value
  let correlation ← given e.correlation
  return ⟨domain, category, name, severity, fieldName, value, correlation⟩

section
variable {S : Server} {α : Type} {i : Nat} {c₀ : Client S Str} {s s' : Session S}
  {Q : Except PyError α → Session S → Prop}

/-- the call `i`, which found the session `c₀`, is under way -/
abbrev Under (i : Nat) (c₀ : Client S Str) (s : Session S) : Prop :=
  Steady encodeUtf8 i c₀ s.toClient

/-- the call has interned names so far -/
abbrev Names (i : Nat) (c₀ : Client S Str) (s : Session S) : Prop :=
  Interned encodeUtf8 i c₀ s.toClient

/-- a call raises; unless it was a timeout, nothing is under way -/
structure Raised (i : Nat) (c₀ : Client S Str) (e : PyError) (s : Session S) : Prop where
  under : Under i c₀ s
  quiet : e ≠ .timeoutError → s.link.Quiet

theorem Names.raised (h : Names i c₀ s) (e : PyError) : Raised i c₀ e s :=
  ⟨h.later.steady, fun _ => h.quiet⟩

theorem expect_keeps {I : Session S → Prop} {resp : Resp} {what ok : String} {r : Reply}
    {k : Bytes → Call S α} (hok : r.resp = resp → (k r.body).run.Keeps I Q s)
    (herr : ∀ e, Q (.error e) s) :
    (expect resp what ok (r.resp.toU8, r.body) >>= k).run.Keeps I Q s := by
  unfold expect
  by_cases he : r.resp.toU8 = Resp.error.toU8
  · rw [if_pos he]
    exact herr _
  rw [if_neg he]
  by_cases hr : r.resp.toU8 ≠ resp.toU8
  · rw [if_pos hr]
    exact herr _
  · rw [if_neg hr]
    exact hok (toU8_inj (not_not.mp hr))

theorem intern_keeps {kind : DictKind} {name : Str} {k : UInt32 → Call S α} (h : Names i c₀ s)
    (hok : ∀ id bytes s', Names i c₀ s' → s.link.log ⊆ s'.link.log → encodeUtf8 name = some bytes →
      Named s'.link.log kind bytes id → (k id).run.Keeps (Under i c₀) Q s')
    (herr : ∀ e s', Raised i c₀ e s' → Q (.error e) s') :
    (intern i kind name >>= k).run.Keeps (Under i c₀) Q s := by
  unfold intern
  rw [bind_assoc]
  refine state_keeps h.later.steady ?_
  cases hc : s.cache kind name with
  | some id =>
    obtain ⟨bytes, he, hn⟩ := h.later.right kind name id hc
    exact hok id bytes s h (List.Subset.refl _) he hn
  | none =>
    simp only [bind_assoc]
    refine checked_keeps (fun bytes hb => ?_) fun e _ => herr e s (h.raised e)
    obtain ⟨nameBytes, he, rfl, hlen⟩ := encodeIntern_ok hb
    refine request_keeps h.quiet hlen (fun link sched more hl hm => h.later.sent hl hm)
      (fun link sched r hq hl => ?_)
      fun link sched e more hl hm hq => herr e _ ⟨h.later.sent hl hm, hq⟩
    have hnext : Names i c₀ { s with link := link, schedule := sched } := h.answered hq hl
    refine expect_keeps (fun hr => ?_) fun e => herr e _ (hnext.raised e)
    refine checked_keeps (fun id hid => ?_) fun e _ => herr e _ (hnext.raised e)
    obtain ⟨hlen4, rfl⟩ := decodeInternOk_ok hid
    have hnamed : Named link.log kind nameBytes (UInt32.ofNat (leAt r.body 0 4)) := by
      rw [hl]
      exact named_last hr rfl hlen4
    have hdone : Interned encodeUtf8 i c₀
        (Client.remember kind name _ { s.toClient with link := link }) := hnext.remember he hnamed
    refine change_keeps hdone.later.steady (hok _ nameBytes _ hdone ?_ he hnamed)
    show s.link.log ⊆ link.log
    rw [hl]
    exact List.subset_append_left _ _

theorem internValue_keeps {value : PyValue} {k : UInt8 × Bytes → Call S α} (h : Names i c₀ s)
    (hok : ∀ x c s', Names i c₀ s' → s.link.log ⊆ s'.link.log → content value = some c →
      Holds s'.link.log x.1 x.2 c → (k x).run.Keeps (Under i c₀) Q s')
    (herr : ∀ e s', Raised i c₀ e s' → Q (.error e) s') :
    (internValue i value >>= k).run.Keeps (Under i c₀) Q s := by
  by_cases hv : ∃ t, value = .str t
  · obtain ⟨t, rfl⟩ := hv
    unfold internValue
    rw [bind_assoc]
    refine intern_keeps h (fun id bytes s' h' hl he hn => ?_) herr
    refine hok _ (.text bytes) s' h' hl ?_ ⟨id, hn, rfl, rfl⟩
    rw [content, he]
    rfl
  · have hi : internValue i value = (checked (encodeValue value) : Call S (UInt8 × Bytes)) := by
      cases value <;> first | rfl | exact absurd ⟨_, rfl⟩ hv
    have hc : content value = (encodeValue value).toOption.map fun x => .plain x.1 x.2 := by
      cases value <;> first | rfl | exact absurd ⟨_, rfl⟩ hv
    rw [hi]
    refine checked_keeps (fun x hx => ?_) fun e _ => herr e s (h.raised e)
    exact hok x (.plain x.1 x.2) s h (List.Subset.refl _) (by rw [hc, hx]; rfl) ⟨rfl, rfl⟩

theorem internCorrelation_keeps {name : Option Str} {k : UInt32 → Call S α} (h : Names i c₀ s)
    (hok : ∀ id c s', Names i c₀ s' → s.link.log ⊆ s'.link.log → given name = some c →
      Correlated s'.link.log id c → (k id).run.Keeps (Under i c₀) Q s')
    (herr : ∀ e s', Raised i c₀ e s' → Q (.error e) s') :
    (internCorrelation i name >>= k).run.Keeps (Under i c₀) Q s := by
  match name with
  | none => exact hok 0 none s h (List.Subset.refl _) rfl rfl
  | some [] => exact hok 0 none s h (List.Subset.refl _) rfl rfl
  | some (c :: cs) =>
    refine intern_keeps h (fun id bytes s' h' hl he hn => ?_) herr
    refine hok id (some bytes) s' h' hl ?_ hn
    show (encodeUtf8 (c :: cs)).map some = _
    rw [he]
    rfl

/-- what `emit` leaves: an exception, or the acknowledgement of its event -/
def Emitted (i : Nat) (e : Event) (c₀ : Client S Str) (x : Except PyError UInt64) (s : Session S) :
    Prop :=
  match x with
  | .error err => Raised i c₀ err s
  | .ok seq => Under i c₀ s ∧ s.link.Quiet ∧
    ∃ said, e.said = some said ∧ Recorded s.link.log i said seq

/-- **`emit` on a session in step**: what returns was acknowledged, under the number that it returns -/
theorem emit_keeps {e : Event} {now : UInt64} (hr : s.Right encodeUtf8) (hq : s.link.Quiet)
    (hnew : appends s.link.log i = []) :
    (emit i e now).run.Keeps (Under i s.toClient) (Emitted i e s.toClient) s := by
  have herr : ∀ (err : PyError) (s' : Session S), Raised i s.toClient err s' →
      Emitted i e s.toClient (.error err) s' := fun err s' h => h
  have h₀ : Names i s.toClient s := .start hr hq
  unfold emit
  refine state_keeps h₀.later.steady ?_
  by_cases hclosed : s.closed = true
  · rw [if_pos hclosed]
    exact herr _ s (h₀.raised _)
  rw [if_neg hclosed]
  cases hsev : severityMap.lookup (lower e.severity) with
  | none => exact herr _ s (h₀.raised _)
  | some severity =>
  dsimp only
  refine intern_keeps h₀ (fun domainId domain s₁ h₁ _ ed hd => ?_) herr
  refine intern_keeps h₁ (fun categoryId category s₂ h₂ l₂ ec hc => ?_) herr
  refine intern_keeps h₂ (fun eventNameId name s₃ h₃ l₃ en hn => ?_) herr
  refine internCorrelation_keeps h₃ (fun correlationId correlation s₄ h₄ l₄ er hcorr => ?_) herr
  refine intern_keeps h₄ (fun fieldNameId fieldName s₅ h₅ l₅ ef hf => ?_) herr
  refine internValue_keeps h₅ (fun x value s₆ h₆ l₆ ev hv => ?_) herr
  -- what was interned is still named in the history that the request is sent to
  have l₄₆ := List.Subset.trans l₅ l₆
  have l₃₆ := List.Subset.trans l₄ l₄₆
  have l₂₆ := List.Subset.trans l₃ l₃₆
  have l₁₆ := List.Subset.trans l₂ l₂₆
  refine checked_keeps (fun bytes hb => ?_) fun err _ => herr err s₆ (h₆.raised err)
  obtain ⟨rfl, hlen⟩ := encodeAppendEvent_ok hb
  refine request_keeps h₆.quiet hlen (fun link sched more hl hm => h₆.later.sent hl hm)
    (fun link sched r hq' hl => ?_)
    fun link sched err more hl hm hq' => herr err _ ⟨h₆.later.sent hl hm, hq'⟩
  have hbrings := h₆.sent hq' hl
  refine expect_keeps (fun hresp => ?_) fun err => herr err _ ⟨hbrings.steady, fun _ => hq'⟩
  cases hseq : decodeAppendEventOk r.body with
  | error err => exact herr err _ ⟨hbrings.steady, fun _ => hq'⟩
  | ok seq =>
  refine ⟨hbrings.steady, hq', ⟨domain, category, name, severity, fieldName, value, correlation⟩,
    ?_, ?_⟩
  · rw [Event.said, ed, ec, en, hsev, ef, ev, er]
    rfl
  have hreply : r = appendReply seq := by
    obtain ⟨hlen8, hs8⟩ := decodeAppendEventOk_ok hseq
    rw [← hs8, ← appendReply_of hlen8, ← hresp]
  show Recorded link.log i _ _
  rw [hl, hreply]
  exact h₆.recorded hnew {
    domain := hd.mono l₁₆
    category := hc.mono l₂₆
    name := hn.mono l₃₆
    severity := rfl
    fieldName := hf.mono l₆
    value := hv
    correlation := hcorr.mono l₄₆ }

/-- **`close`** -/
theorem close_keeps (hr : s.Right encodeUtf8) (hq : s.closed = false → s.link.Quiet) :
    (close i).run.Keeps (Under i s.toClient)
      (fun _ s' => Under i s.toClient s' ∧ s'.closed = true) s := by
  have h₀ : Under i s.toClient s := .refl hr
  unfold close
  refine state_keeps h₀ ?_
  by_cases hc : s.closed = true
  · rw [if_pos hc]
    exact ⟨h₀, hc⟩
  rw [if_neg hc]
  have h₁ : Under i s.toClient { s with toClient := { s.toClient with closed := true } } :=
    ⟨hr, h₀.log⟩
  refine change_keeps h₁ ?_
  refine Keeps.bind (Q := fun _ s' => Under i s.toClient s' ∧ s'.closed = true) ?_ fun x s' h => h
  refine request_keeps (hq (Bool.eq_false_iff.mpr hc)) (show finishRequest.length ≤ maxFrameSize by decide)
    (fun link sched more hl hm => h₁.sent hl hm) (fun link sched r hq' hl => ?_)
    fun link sched err more hl hm _ => ⟨h₁.sent hl hm, rfl⟩
  exact ⟨h₁.sent hl fun x hx => ⟨r, List.mem_singleton.mp hx⟩, rfl⟩

/-- `emit` on a closed session raises, and talks to nobody -/
theorem emit_closed {e : Event} {now : UInt64} (hr : s.Right encodeUtf8) (hc : s.closed = true) :
    (emit i e now).run.Keeps (Under i s.toClient) (fun x s' => s' = s ∧ ∃ err, x = .error err) s := by
  unfold emit
  refine state_keeps (.refl hr) ?_
  rw [if_pos hc]
  exact ⟨rfl, _, rfl⟩

end

/-! ## calls one after the other -/

section
variable {S : Server} {schedule : List Nat}

/-- the program calls one method after the other, each on a session with `C`; an exception does not
stop it -/
inductive Calls (C : Session S → Prop) (s₀ : Session S) : List (Method × Result) → Session S → Prop
  | nil : Calls C s₀ [] s₀
  | call {xs : List (Method × Result)} {s s' : Session S} {m : Method} {x : Result}
      (h : Calls C s₀ xs s) (hC : C s) (hrun : (body xs.length m).run s = some (x, s')) :
      Calls C s₀ (xs ++ [(m, x)]) s'

/-- the results of the calls, and the session after them -/
def play (ok : Session S → Bool) :
    List Method → List (Method × Result) → Session S → Option (List (Method × Result) × Session S)
  | [], xs, s => some (xs, s)
  | m :: ms, xs, s =>
    if ok s then
      match (body xs.length m).run s with
      | some (x, s') => play ok ms (xs ++ [(m, x)]) s'
      | none => none
    else none

theorem play_calls {C : Session S → Prop} {ok : Session S → Bool} {s₀ s s' : Session S}
    {ms : List Method} {xs xs' : List (Method × Result)} (hC : ∀ s, ok s = true → C s)
    (h : Calls C s₀ xs s) (hp : play ok ms xs s = some (xs', s')) : Calls C s₀ xs' s' := by
  induction ms generalizing xs s with
  | nil =>
    cases hp
    exact h
  | cons m ms ih =>
    rw [play] at hp
    split at hp
    · rename_i hok
      split at hp
      · rename_i x s₁ hrun
        exact ih (h.call (hC s hok) hrun) hp
      · cases hp
    · cases hp

/-- the session after the calls `xs` -/
structure Paired (xs : List (Method × Result)) (s : Session S) : Prop where
  right : s.Right encodeUtf8
  told : ∀ i e now seq, xs[i]? = some (.emit e now, .ok (some seq)) →
    ∃ said, e.said = some said ∧ Recorded s.link.log i said seq
  callers : ∀ x ∈ s.link.log, x.caller < xs.length

/-- what one more call leaves -/
theorem Paired.next {xs : List (Method × Result)} {s s' : Session S} {m : Method} {x : Result}
    (h : Paired xs s) (hs : Under xs.length s.toClient s')
    (ht : ∀ e now seq, m = .emit e now → x = .ok (some seq) →
      ∃ said, e.said = some said ∧ Recorded s'.link.log xs.length said seq) :
    Paired (xs ++ [(m, x)]) s' where
  right := hs.right
  told := by
    intro i e now seq hi
    rcases Nat.lt_trichotomy i xs.length with hlt | rfl | hgt
    · rw [List.getElem?_append_left hlt] at hi
      obtain ⟨said, hsaid, hrec⟩ := h.told i e now seq hi
      exact ⟨said, hsaid, Steady.recorded hs hrec (Nat.ne_of_lt hlt)⟩
    · rw [List.getElem?_concat_length] at hi
      cases hi
      exact ht e now seq rfl rfl
    · rw [List.getElem?_eq_none (by rw [List.length_append, List.length_singleton]; omega)] at hi
      cases hi
  callers := by
    obtain ⟨-, new, hlog, hnew⟩ := hs
    intro y hy
    rw [List.length_append, List.length_singleton]
    rw [hlog] at hy
    rcases List.mem_append.mp hy with hy | hy
    · exact Nat.lt_succ_of_lt (h.callers y hy)
    · rw [(hnew y hy).1]
      exact Nat.lt_succ_self _

/-- nothing is under way when a call starts on the open session -/
def InStep (s : Session S) : Prop := s.closed = false → s.link.Quiet

/-- what a call leaves that starts in step -/
structure Leaves (i : Nat) (m : Method) (c₀ : Client S Str) (x : Result) (s : Session S) : Prop where
  under : Under i c₀ s
  told : ∀ e now seq, m = .emit e now → x = .ok (some seq) →
    ∃ said, e.said = some said ∧ Recorded s.link.log i said seq
  inStep : x ≠ .error .timeoutError → InStep s

/-- **One call** -/
theorem body_keeps {i : Nat} {m : Method} {s : Session S} (hr : s.Right encodeUtf8) (hq : InStep s)
    (hnew : appends s.link.log i = []) :
    (body i m).Keeps (Under i s.toClient) (Leaves i m s.toClient) s := by
  cases m with
  | emit e now =>
    by_cases hc : s.closed = true
    · refine (emit_closed hr hc).bind ?_
      rintro x s' ⟨rfl, err, rfl⟩
      refine ⟨.refl hr, fun e' now' seq _ hx => (by cases hx), fun _ ho => ?_⟩
      rw [hc] at ho
      cases ho
    · refine (emit_keeps hr (hq (Bool.eq_false_iff.mpr hc)) hnew).bind fun x s' hx => ?_
      cases x with
      | error err =>
        refine ⟨hx.under, fun e' now' seq _ hx => (by cases hx), fun hne _ => hx.quiet fun he => ?_⟩
        exact hne (by rw [he]; rfl)
      | ok seq =>
        refine ⟨hx.1, fun e' now' seq' he hseq => ?_, fun _ _ => hx.2.1⟩
        cases he
        cases hseq
        exact hx.2.2
  | close =>
    refine (close_keeps hr hq).bind fun x s' hx => ?_
    refine ⟨hx.1, fun e now seq he => (by cases he), fun _ ho => ?_⟩
    rw [hx.2] at ho
    cases ho

theorem Calls.paired {xs : List (Method × Result)} {s : Session S}
    (h : Calls InStep (.opened S schedule) xs s) : Paired xs s := by
  induction h with
  | nil =>
    refine ⟨Client.start_right, fun i e now seq hi => ?_, fun x hx => ?_⟩
    · rw [List.getElem?_nil] at hi
      cases hi
    · cases hx
  | @call xs s s' m x h hC hrun ih =>
    have hnone : appends s.link.log xs.length = [] :=
      appends_none fun y hy => .inl (Nat.ne_of_lt (ih.callers y hy))
    have hleaves := (body_keeps ih.right hC hnone).of_run hrun
    exact ih.next hleaves.under hleaves.told

/-- **Calls that start in step**: the cached ids are those of the agent, and what `emit` returns is
the acknowledgement of its own event -/
theorem in_step_matched {xs : List (Method × Result)} {s : Session S}
    (h : Calls InStep (.opened S schedule) xs s) :
    s.Right encodeUtf8 ∧ ∀ i e now seq, xs[i]? = some (.emit e now, .ok (some seq)) →
      ∃ said, e.said = some said ∧ Recorded s.link.log i said seq :=
  ⟨h.paired.right, h.paired.told⟩

/-- as long as no call has raised a timeout, the calls start in step -/
theorem Calls.inStep {xs : List (Method × Result)} {s : Session S}
    (h : Calls (fun _ => True) (.opened S schedule) xs s)
    (hxs : ∀ x ∈ xs, x.2 ≠ .error .timeoutError) :
    Calls InStep (.opened S schedule) xs s ∧ InStep s := by
  induction h with
  | nil => exact ⟨.nil, fun _ => Link.start_quiet S⟩
  | @call xs s s' m x h _ hrun ih =>
    obtain ⟨hcalls, hstep⟩ := ih fun y hy => hxs y (List.mem_append_left _ hy)
    have hp := hcalls.paired
    have hnone : appends s.link.log xs.length = [] :=
      appends_none fun y hy => .inl (Nat.ne_of_lt (hp.callers y hy))
    have hleaves := (body_keeps hp.right hstep hnone).of_run hrun
    refine ⟨hcalls.call hstep hrun, hleaves.inStep ?_⟩
    exact hxs (m, x) (List.mem_append_right _ (List.mem_singleton_self _))

/-! ## a call after a timeout -/

/-- nothing is under way, or the session is closed -/
def inStep (s : Session S) : Bool :=
  s.closed || (decide (s.link.input = []) && decide (s.link.unread = []))

theorem inStep_of {s : Session S} (h : inStep s = true) : InStep s := by
  intro hc
  rw [inStep, hc, Bool.false_or, Bool.and_eq_true] at h
  exact ⟨of_decide_eq_true h.1, of_decide_eq_true h.2⟩

/-- an `emit` has returned this number -/
def returned (seq : UInt64) : Method × Result → Bool
  | (.emit _ _, .ok (some n)) => n == seq
  | _ => false

theorem returned_iff {seq : UInt64} {x : Method × Result} (h : returned seq x = true) :
    ∃ e now, x = (.emit e now, .ok (some seq)) := by
  unfold returned at h
  split at h
  · rename_i e now n
    cases eq_of_beq h
    exact ⟨e, now, rfl⟩
  · cases h

def exampleEvent (domain : String) : Event :=
  ⟨str domain, str "rx", str "frame", str "Info", str "len", .int 7, none⟩

theorem in_step_example : ∃ (s : Session exampleAgent) (said : Said),
    s.Right encodeUtf8 ∧ Recorded s.link.log 0 said 1 := by
  -- the bytes of the replies come one by one at first
  have hrun : ((play inStep [.emit (exampleEvent "net") 7] []
      (Session.opened exampleAgent [1, 1, 1, 1, 3])).map fun x => x.1.map (returned 1)) =
      some [true] := by decide +kernel
  obtain ⟨⟨xs, s⟩, hp, hx⟩ := Option.map_eq_some_iff.mp hrun
  have hcalls := play_calls (fun _ => inStep_of) .nil hp
  obtain ⟨x, rfl⟩ : ∃ x, xs = [x] := List.length_eq_one_iff.mp <| by
    rw [← List.length_map (f := returned 1), hx]
    rfl
  obtain ⟨e, now, rfl⟩ := returned_iff (List.head_eq_of_cons_eq hx)
  obtain ⟨hright, hrec⟩ := in_step_matched hcalls
  obtain ⟨said, -, hsaid⟩ := hrec 0 e now 1 rfl
  exact ⟨s, said, hright, hsaid⟩

/-- **a call after a timeout reads the reply to the call before it**: the first `recv` times out,
and the domain of the second event gets the id of the first one's -/
theorem stale_reply : ∃ xs, ∃ s : Session exampleAgent,
    Calls (fun _ => True) (.opened exampleAgent [0]) xs s ∧ ¬ s.Right encodeUtf8 := by
  have hrun : ((play (fun _ => true) [.emit (exampleEvent "net") 7, .emit (exampleEvent "disk") 8] []
      (Session.opened exampleAgent [0])).map fun x =>
        (x.2.cache .domain (str "disk"), decide (Named x.2.link.log .domain (utf8 "disk") 1))) =
      some (some 1, false) := by decide +kernel
  obtain ⟨⟨xs, s⟩, hp, hx⟩ := Option.map_eq_some_iff.mp hrun
  obtain ⟨hcached, hnamed⟩ := Prod.mk.inj hx
  refine ⟨xs, s, play_calls (fun _ _ => trivial) .nil hp, fun hright => ?_⟩
  obtain ⟨bytes, he, hn⟩ := hright .domain (str "disk") 1 hcached
  have hb : encodeUtf8 (str "disk") = some (utf8 "disk") := by decide +kernel
  cases hb.symm.trans he
  exact of_decide_eq_false hnamed hn

end

end Dtj.Sdk.Python
