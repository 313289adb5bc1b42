import Dtj.Sdk.Client
import Dtj.Lib.Mutex

/-!
# The Go SDK: calls of many goroutines on one session

`packages/dtj-go`: `client.go`, `protocol.go` and the frames of `discovery.go`.  `Emit` and `Close`
hold the mutex of the session from their first line to their last.

* `encodeValue`, `encodeIntern`, `encodeAppendEvent`   what is sent;
* `readFrame`, `getOrIntern`, `emit`, `close`          the calls, in actions on the session;
* `request_keeps`, `getOrIntern_keeps`, `emit_keeps`   **what they bring back to the lock**;
* `emit_acknowledged`   a nil of an `Emit` that found the session open is an acknowledgement;
* `emit_unrecorded`     an `Emit` behind a `Close` returns nil, and nothing is recorded.
-/

namespace Dtj.Sdk.Go
open Wire Checked Agent Conc Code

/-- `errors.go`; texts are bytes, as in Go -/
inductive GoError where
  | protocolError (opcode : UInt8) (msg : Bytes)
  | connectionError (msg : Bytes)
  | valueError (msg : Bytes)
  | agentNotFoundError (msg : Bytes)
deriving DecidableEq

/-- what the `any` of a field value can be: `int` stands for the signed and `uint` for the unsigned
integers, floats are their bits -/
inductive GoValue where
  | bool (b : Bool)
  | int (v : Int64)
  | uint (v : UInt64)
  | float32 (bits : UInt32)
  | float64 (bits : UInt64)
  | string (s : Bytes)
  | bytes (bs : Bytes)
  | other (type : String)

structure Event where
  domain : Bytes
  category : Bytes
  name : Bytes
  severity : UInt8
  fieldName : Bytes
  value : GoValue
  correlation : Bytes

/-- the bits of `float64(v)` for the bits of a `float32`; a NaN becomes quiet -/
def widen (bits : UInt32) : UInt64 :=
  let b := bits.toNat
  let sign := b / 2^31 * 2^63
  let exp := b / 2^23 % 2^8
  let mant := b % 2^23
  UInt64.ofNat <|
    if exp = 255 then
      sign + 2047 * 2^52 + (if mant = 0 then 0 else (mant % 2^22 + 2^22) * 2^29)
    else if exp = 0 then
      if mant = 0 then sign
      else sign + (874 + mant.log2) * 2^52 + (mant * 2^(52 - mant.log2)) % 2^52
    else sign + (exp + 896) * 2^52 + mant * 2^29

/-! ## protocol.go -/

def encodeFrame (opcode : UInt8) (body : Bytes) : Except GoError Bytes :=
  let length := 1 + body.length
  if length > maxFrameSize then
    .error (.protocolError opcode (utf8 s!"frame too large: {length} > {maxFrameSize}"))
  else .ok (frameBytes (opcode :: body))

def encodeIntern (kind : UInt8) (name : Bytes) : Except GoError Bytes :=
  if name.length > 1024 then .error (.valueError (utf8 "name too long (max 1024 bytes)"))
  else encodeFrame Cmd.intern.toU8 (kind :: (le 2 name.length ++ name))

def decodeInternOk (body : Bytes) : Except GoError UInt32 :=
  if body.length ≠ 4 then .error (.protocolError 0 (utf8 "InternOk body must be 4 bytes"))
  else .ok (UInt32.ofNat (leAt body 0 4))

def encodeAppendEvent (a : Appended) : Except GoError Bytes :=
  encodeFrame Cmd.appendEvent.toU8 a.request.tail

def decodeAppendEventOk (body : Bytes) : Except GoError UInt64 :=
  if body.length ≠ 8 then .error (.protocolError 0 (utf8 "AppendEventOk body must be 8 bytes"))
  else .ok (UInt64.ofNat (leAt body 0 8))

def encodeFinishSession : Except GoError Bytes := encodeFrame Cmd.finishSession.toU8 []

def encodeValue : GoValue → Except GoError (UInt8 × Bytes)
  | .bool b => .ok (0x01, [if b then 1 else 0])
  | .int v => .ok (0x03, le 8 v.toUInt64.toNat)
  | .uint v => .ok (0x05, le 8 v.toNat)
  | .float32 bits => .ok (0x07, le 8 (widen bits).toNat)
  | .float64 bits => .ok (0x07, le 8 bits.toNat)
  | .string _ =>
    .error (.valueError (utf8 "strings must be interned first; use field_name_id from intern"))
  | .bytes bs =>
    if bs.length > 2^32 - 1 then .error (.valueError (utf8 "bytes too long"))
    else .ok (0x0C, le 4 bs.length ++ bs)
  | .other type => .error (.valueError (utf8 ("unsupported value type: " ++ type)))

/-! ## client.go -/

structure Session (S : Server) extends Client S Bytes where
  connected : Bool

/-- the session of `OpenStrict` -/
def Session.opened (S : Server) : Session S := ⟨.start S Bytes, true⟩

/-- a call, which returns an error or panics -/
abbrev Call (S : Server) (α : Type) := ExceptT (Abort GoError) (Code (Session S)) α

section
variable {S : Server} {α : Type}

def pass (x : Except GoError α) : Call S α := checked (x.mapError .error)

/-- `io.ReadFull`: it waits for `n` bytes, unless the connection has ended -/
def readFull (what : String) (n : Nat) : Call S Bytes := ExceptT.mk <| atom fun s =>
  if n ≤ s.link.unread.length then
    some (.ok (s.link.unread.take n),
      { s with link := { s.link with unread := s.link.unread.drop n } })
  else if s.link.closed then
    let eof := if s.link.unread = [] then "EOF" else "unexpected EOF"
    some (.error (.error (.connectionError (utf8 (what ++ eof)))),
      { s with link := { s.link with unread := [] } })
  else none

def readFrame : Call S (UInt8 × Bytes) := do
  let length := leNat (← readFull "failed to read frame length: " 4)
  if length > maxFrameSize then
    throw (.error (.protocolError 0 (utf8 s!"frame too large: {length}")))
  else
    match ← readFull "failed to read frame payload: " length with
    | [] => throw .panic
    | opcode :: body => return (opcode, body)

def writeFrame (i : Nat) (frame : Bytes) : Call S Unit := ExceptT.mk <| atom fun s =>
  if s.link.closed then
    some (.error (.error (.connectionError (utf8 "failed to write frame: write: broken pipe"))), s)
  else some (.ok (), { s with link := s.link.send i frame })

/-- the checks of a reply -/
def expect (resp : Resp) (what : String) (reply : UInt8 × Bytes) : Call S Bytes :=
  if reply.1 = Resp.error.toU8 then throw (.error (.protocolError reply.1 reply.2))
  else if reply.1 ≠ resp.toU8 then
    throw (.error (.protocolError reply.1 (utf8 ("expected " ++ what))))
  else pure reply.2

/-- the call `i` gets or interns a name -/
def getOrIntern (i : Nat) (kind : DictKind) (name : Bytes) : Call S UInt32 := do
  match (← state).cache kind name with
  | some id => return id
  | none =>
    writeFrame i (← pass (encodeIntern kind.toU8 name))
    let body ← expect .internOk "InternOk" (← readFrame)
    let id ← pass (decodeInternOk body)
    change fun s => { s with toClient := s.remember kind name id }
    return id

/-- a string is interned, everything else is encoded -/
def internValue (i : Nat) : GoValue → Call S (UInt8 × Bytes)
  | .string s => do return (0x0B, le 4 (← getOrIntern i .string s).toNat)
  | value => pass (encodeValue value)

/-- the empty string stands for no correlation -/
def internCorrelation (i : Nat) (name : Bytes) : Call S UInt32 :=
  if name = [] then pure 0 else getOrIntern i .string name

/-- `Emit`, when `elapsed` nanoseconds have passed since the start of the session -/
def emit (i : Nat) (event : Event) (elapsed : UInt64) : Call S Unit := do
  if (← state).closed then return ()
  else if event.severity > 4 then
    throw (.error (.valueError (utf8 s!"invalid severity: {event.severity}")))
  else
    let domainId ← getOrIntern i .domain event.domain
    let categoryId ← getOrIntern i .category event.category
    let eventNameId ← getOrIntern i .eventName event.name
    let correlationId ← internCorrelation i event.correlation
    let fieldNameId ← getOrIntern i .string event.fieldName
    let (typeTag, valueBody) ← internValue i event.value
    writeFrame i (← pass (encodeAppendEvent ⟨elapsed, domainId, categoryId, eventNameId,
      correlationId, event.severity, fieldNameId, typeTag, valueBody⟩))
    let body ← expect .appendEventOk "AppendEventOk" (← readFrame)
    let _ ← pass (decodeAppendEventOk body)
    return ()

/-- a call whose error is dropped -/
def ignored (p : Call S α) : Call S Unit := ExceptT.mk do
  match ← p.run with
  | .error .panic => return .error .panic
  | _ => return .ok ()

def close (i : Nat) : Call S Unit := do
  if (← state).closed then return ()
  else
    change fun s => { s with closed := true }
    if (← state).connected then
      match encodeFinishSession with
      | .ok frame =>
        ignored (writeFrame i frame)
        ignored readFrame
      | .error _ => pure ()
      change fun s => { s with connected := false }
    else return ()

/-- a method that a goroutine calls -/
inductive Method where
  | emit (event : Event) (elapsed : UInt64)
  | close

/-- the code of the call `i` -/
def body (i : Nat) : Method → Code (Session S) (Except (Abort GoError) Unit)
  | .emit event elapsed => (emit i event elapsed).run
  | .close => (close i).run

end

/-! ## what the calls do -/

section
variable {S : Server} {α : Type} {i : Nat} {s s' : Session S}

/-- the frames that are sent -/
theorem encodeFrame_ok {opcode : UInt8} {body bytes : Bytes}
    (h : encodeFrame opcode body = .ok bytes) :
    bytes = frameBytes (opcode :: body) ∧ (opcode :: body).length ≤ maxFrameSize := by
  simp only [encodeFrame] at h
  split at h
  · cases h
  · rename_i hlen
    cases h
    refine ⟨rfl, ?_⟩
    rw [List.length_cons]
    omega

theorem encodeIntern_ok {kind : DictKind} {name bytes : Bytes}
    (h : encodeIntern kind.toU8 name = .ok bytes) : bytes = frameBytes (internRequest kind name) ∧
      (internRequest kind name).length ≤ maxFrameSize := by
  unfold encodeIntern at h
  split at h
  · cases h
  · exact encodeFrame_ok h

theorem decodeInternOk_ok {body : Bytes} {id : UInt32} (h : decodeInternOk body = .ok id) :
    body.length = 4 ∧ UInt32.ofNat (leAt body 0 4) = id := by
  unfold decodeInternOk at h
  split at h
  · cases h
  · rename_i hlen
    cases h
    exact ⟨not_not.mp hlen, rfl⟩

theorem decodeAppendEventOk_ok {body : Bytes} {seq : UInt64}
    (h : decodeAppendEventOk body = .ok seq) :
    body.length = 8 ∧ UInt64.ofNat (leAt body 0 8) = seq := by
  unfold decodeAppendEventOk at h
  split at h
  · cases h
  · rename_i hlen
    cases h
    exact ⟨not_not.mp hlen, rfl⟩

/-! ### one request -/

variable {I : Session S → Prop} {Q : Except (Abort GoError) α → Session S → Prop}

theorem pass_keeps {β : Type} {x : Except GoError β} {k : β → Call S α}
    (hok : ∀ b, x = .ok b → (k b).run.Keeps I Q s)
    (herr : ∀ e, x = .error e → Q (.error (.error e)) s) : (pass x >>= k).run.Keeps I Q s := by
  cases x with
  | ok b => exact hok b rfl
  | error e => exact herr e rfl

/-- the bytes are there -/
theorem readFull_keeps {what : String} {n : Nat} {k : Bytes → Call S α}
    (hn : n ≤ s.link.unread.length)
    (hI : I { s with link := { s.link with unread := s.link.unread.drop n } })
    (h : (k (s.link.unread.take n)).run.Keeps I Q
      { s with link := { s.link with unread := s.link.unread.drop n } }) :
    (readFull what n >>= k).run.Keeps I Q s := by
  refine Keeps.bind_except (keeps_atom (Q := fun x s' => x = .ok (s.link.unread.take n) ∧
    s' = { s with link := { s.link with unread := s.link.unread.drop n } }) ?_) ?_ ?_
  · intro x s' hx
    rw [if_pos hn] at hx
    cases hx
    exact ⟨hI, rfl, rfl⟩
  · rintro a s' ⟨hx, rfl⟩
    cases hx
    exact h
  · rintro e s' ⟨hx, -⟩
    cases hx

/-- the connection has ended, and there are no bytes left -/
theorem readFull_ended {what : String} {n : Nat} {k : Bytes → Call S α} (hn : 0 < n)
    (hun : s.link.unread = []) (hc : s.link.closed = true) (hI : I s)
    (h : ∀ e, Q (.error (.error e)) s) : (readFull what n >>= k).run.Keeps I Q s := by
  have hs : { s with link := { s.link with unread := [] } } = s := by
    rw [← hun]
  refine Keeps.bind_except (keeps_atom (Q := fun x s' => (∃ e, x = .error (.error e)) ∧
    s' = s) ?_) ?_ ?_
  · intro x s' hx
    rw [if_neg (by rw [hun]; exact not_le.mpr hn), if_pos hc] at hx
    cases hx
    rw [hs]
    exact ⟨hI, ⟨_, rfl⟩, rfl⟩
  · rintro a s' ⟨⟨e, hx⟩, -⟩
    cases hx
  · rintro e s' ⟨⟨e', hx⟩, rfl⟩
    cases hx
    exact h e'

/-- the frame of a reply is read, and nothing else -/
theorem readFrame_keeps {r : Reply} {k : UInt8 × Bytes → Call S α} (hun : s.link.unread = r.bytes)
    (hfit : 1 + r.body.length ≤ maxFrameSize)
    (hI : ∀ unread, I { s with link := { s.link with unread := unread } })
    (h : (k (r.resp.toU8, r.body)).run.Keeps I Q { s with link := { s.link with unread := [] } }) :
    (readFrame >>= k).run.Keeps I Q s := by
  have hmax : maxFrameSize = 1048576 := rfl
  have hbytes : r.bytes = le 4 (1 + r.body.length) ++ (r.resp.toU8 :: r.body) := by
    rw [Reply.bytes, List.append_assoc]
    rfl
  have htake : s.link.unread.take 4 = le 4 (1 + r.body.length) := by
    rw [hun, hbytes, List.take_left' (le_length 4 _)]
  have hdrop : s.link.unread.drop 4 = r.resp.toU8 :: r.body := by
    rw [hun, hbytes, List.drop_left' (le_length 4 _)]
  have hlen : leNat (le 4 (1 + r.body.length)) = 1 + r.body.length := leNat_le 4 _ (by omega)
  have hdone : (r.resp.toU8 :: r.body).length = 1 + r.body.length := by
    rw [List.length_cons, Nat.add_comm]
  unfold readFrame
  rw [bind_assoc]
  refine readFull_keeps (by rw [hun, hbytes, List.length_append, le_length]; omega) (hI _) ?_
  rw [htake, hlen, if_neg (by omega), bind_assoc, hdrop]
  refine readFull_keeps (by show _ ≤ (r.resp.toU8 :: r.body).length; omega) ?_ ?_
  · exact hI _
  · have htaken : (r.resp.toU8 :: r.body).take (1 + r.body.length) = r.resp.toU8 :: r.body := by
      rw [← hdone, List.take_length]
    have hrest : (r.resp.toU8 :: r.body).drop (1 + r.body.length) = [] := by
      rw [← hdone, List.drop_length]
    dsimp only
    rw [htaken, hrest]
    exact h

/-- **one request**, written while nothing is under way: its own reply is read, or the connection
has ended -/
theorem request_keeps {frame : Bytes} {k : UInt8 × Bytes → Call S α} (hq : s.link.Quiet)
    (hlen : frame.length ≤ maxFrameSize)
    (hI : ∀ (link : Link S) more, link.log = s.link.log ++ more →
      (∀ x ∈ more, ∃ r, x = ⟨i, ⟨frame, r⟩⟩) → I { s with link := link })
    (hok : ∀ (link : Link S) r, link.Quiet → link.log = s.link.log ++ [⟨i, ⟨frame, r⟩⟩] →
      (k (r.resp.toU8, r.body)).run.Keeps I Q { s with link := link })
    (herr : ∀ (link : Link S) e, link.Quiet → link.log = s.link.log →
      Q (.error (.error e)) { s with link := link }) :
    (writeFrame i (frameBytes frame) >>= fun _ => readFrame >>= k).run.Keeps I Q s := by
  refine Keeps.bind_except (keeps_atom (Q := fun x s' =>
    (s' = s ∧ ∃ e, x = .error (.error e)) ∨ (s.link.closed = false ∧ x = .ok () ∧
      s' = { s with link := s.link.send i (frameBytes frame) })) ?_) ?_ ?_
  · intro x s' hx
    by_cases hc : s.link.closed = true
    · rw [if_pos hc] at hx
      cases hx
      refine ⟨?_, .inl ⟨rfl, _, rfl⟩⟩
      exact hI s.link [] (List.append_nil _).symm fun x hx => by cases hx
    · rw [if_neg hc] at hx
      cases hx
      have hc' := Bool.eq_false_iff.mpr hc
      refine ⟨?_, .inr ⟨hc', rfl, rfl⟩⟩
      cases hsent : s.link.send i (frameBytes frame) with
      | mk server closed input unread log =>
        have hcases := Link.send_cases (i := i) hq hc' hlen
        rw [hsent] at hcases
        cases hcases with
        | answered ha =>
          exact hI _ _ rfl fun x hx => ⟨_, List.mem_singleton.mp hx⟩
        | ended ha => exact hI _ [] (List.append_nil _).symm fun x hx => by cases hx
  · rintro a s' (⟨-, e, hx⟩ | ⟨hc, -, rfl⟩)
    · cases hx
    have hcases := Link.send_cases (i := i) hq hc hlen
    generalize s.link.send i (frameBytes frame) = link at hcases
    cases hcases with
    | @answered srv r ha =>
      refine readFrame_keeps rfl (S.fits ha) (fun unread => ?_) ?_
      · exact hI _ _ rfl fun x hx => ⟨_, List.mem_singleton.mp hx⟩
      · exact hok _ r ⟨rfl, rfl⟩ rfl
    | ended ha =>
      unfold readFrame
      rw [bind_assoc]
      refine readFull_ended (by decide) rfl rfl ?_ fun e => ?_
      · exact hI _ [] (List.append_nil _).symm fun x hx => by cases hx
      · exact herr _ e ⟨rfl, rfl⟩ rfl
  · rintro e s' (⟨rfl, e', hx⟩ | ⟨-, hx, -⟩)
    · cases hx
      exact herr s'.link e' hq rfl
    · cases hx

end

/-! ### the methods -/

/-- the value of an event; there is none if it cannot be encoded -/
def content : GoValue → Option Content
  | .string s => some (.text s)
  | value => (encodeValue value).toOption.map fun x => .plain x.1 x.2

/-- the correlation of an event, if it has one -/
def given (name : Bytes) : Option Bytes := if name = [] then none else some name

/-- what the caller of `Emit` says -/
def Event.said (e : Event) : Option Said := (content e.value).map fun value =>
  ⟨e.domain, e.category, e.name, e.severity, e.fieldName, value, given e.correlation⟩

section
variable {S : Server} {α : Type} {i : Nat} {c₀ : Client S Bytes} {s s' : Session S}
  {Q : Except (Abort GoError) α → Session S → Prop}

/-- the call `i`, which found the session `c₀`, is under way -/
abbrev Under (i : Nat) (c₀ : Client S Bytes) (s : Session S) : Prop := Steady some i c₀ s.toClient

/-- the call has interned names so far -/
abbrev Names (i : Nat) (c₀ : Client S Bytes) (s : Session S) : Prop := Interned some i c₀ s.toClient

theorem expect_keeps {I : Session S → Prop} {resp : Resp} {what : String} {r : Reply}
    {k : Bytes → Call S α} (hok : r.resp = resp → (k r.body).run.Keeps I Q s)
    (herr : ∀ e, Q (.error (.error e)) s) :
    (expect resp what (r.resp.toU8, r.body) >>= k).run.Keeps I Q s := by
  unfold expect
  by_cases he : r.resp.toU8 = Resp.error.toU8
  · rw [if_pos he]
    exact herr _
  rw [if_neg he]
  by_cases hr : r.resp.toU8 ≠ resp.toU8
  · rw [if_pos hr]
    exact herr _
  · rw [if_neg hr]
    exact hok (toU8_inj (not_not.mp hr))

theorem getOrIntern_keeps {kind : DictKind} {name : Bytes} {k : UInt32 → Call S α}
    (h : Names i c₀ s)
    (hok : ∀ id s', Names i c₀ s' → s.link.log ⊆ s'.link.log → Named s'.link.log kind name id →
      (k id).run.Keeps (Under i c₀) Q s')
    (herr : ∀ e s', Names i c₀ s' → Q (.error (.error e)) s') :
    (getOrIntern i kind name >>= k).run.Keeps (Under i c₀) Q s := by
  unfold getOrIntern
  rw [bind_assoc]
  refine state_keeps h.later.steady ?_
  cases hc : s.cache kind name with
  | some id =>
    obtain ⟨bytes, hb, hn⟩ := h.later.right kind name id hc
    cases hb
    exact hok id s h (List.Subset.refl _) hn
  | none =>
    simp only [bind_assoc]
    refine pass_keeps (fun bytes hb => ?_) fun e _ => herr e s h
    obtain ⟨rfl, hlen⟩ := encodeIntern_ok hb
    refine request_keeps h.quiet hlen (fun link more hl hm => h.later.sent hl hm) (fun link r hq hl => ?_)
      fun link e hq hl => herr e _ ⟨h.later.same hl, hq⟩
    have hnext : Names i c₀ { s with link := link } := h.answered hq hl
    refine expect_keeps (fun hr => ?_) fun e => herr e _ hnext
    refine pass_keeps (fun id hid => ?_) fun e _ => herr e _ hnext
    obtain ⟨hlen4, rfl⟩ := decodeInternOk_ok hid
    have hnamed : Named link.log kind name (UInt32.ofNat (leAt r.body 0 4)) := by
      rw [hl]
      exact named_last hr rfl hlen4
    have hdone : Interned some i c₀ (Client.remember kind name _ { s.toClient with link := link }) :=
      hnext.remember rfl hnamed
    refine change_keeps hdone.later.steady (hok _ _ hdone ?_ hnamed)
    show s.link.log ⊆ link.log
    rw [hl]
    exact List.subset_append_left _ _

theorem internValue_keeps {value : GoValue} {k : UInt8 × Bytes → Call S α} (h : Names i c₀ s)
    (hok : ∀ x c s', Names i c₀ s' → s.link.log ⊆ s'.link.log → content value = some c →
      Holds s'.link.log x.1 x.2 c → (k x).run.Keeps (Under i c₀) Q s')
    (herr : ∀ e s', Names i c₀ s' → Q (.error (.error e)) s') :
    (internValue i value >>= k).run.Keeps (Under i c₀) Q s := by
  by_cases hv : ∃ t, value = .string t
  · obtain ⟨t, rfl⟩ := hv
    unfold internValue
    rw [bind_assoc]
    exact getOrIntern_keeps h (fun id s' h' hl hn => hok _ (.text t) s' h' hl rfl ⟨id, hn, rfl, rfl⟩)
      herr
  · have hi : internValue i value = (pass (encodeValue value) : Call S (UInt8 × Bytes)) := by
      cases value <;> first | rfl | exact absurd ⟨_, rfl⟩ hv
    have hc : content value = (encodeValue value).toOption.map fun x => .plain x.1 x.2 := by
      cases value <;> first | rfl | exact absurd ⟨_, rfl⟩ hv
    rw [hi]
    refine pass_keeps (fun x hx => ?_) fun e _ => herr e s h
    exact hok x (.plain x.1 x.2) s h (List.Subset.refl _) (by rw [hc, hx]; rfl) ⟨rfl, rfl⟩

theorem internCorrelation_keeps {name : Bytes} {k : UInt32 → Call S α} (h : Names i c₀ s)
    (hok : ∀ id s', Names i c₀ s' → s.link.log ⊆ s'.link.log →
      Correlated s'.link.log id (given name) → (k id).run.Keeps (Under i c₀) Q s')
    (herr : ∀ e s', Names i c₀ s' → Q (.error (.error e)) s') :
    (internCorrelation i name >>= k).run.Keeps (Under i c₀) Q s := by
  unfold internCorrelation
  unfold given at hok
  by_cases hn : name = []
  · rw [if_pos hn] at hok ⊢
    exact hok 0 s h (List.Subset.refl _) rfl
  · rw [if_neg hn] at hok ⊢
    exact getOrIntern_keeps h hok herr

/-- the bytes of `AppendEvent` -/
theorem encodeAppendEvent_ok {a : Appended} {bytes : Bytes} (h : encodeAppendEvent a = .ok bytes) :
    bytes = frameBytes a.request ∧ a.request.length ≤ maxFrameSize := encodeFrame_ok h

/-- **`Emit` on an open session**: what returns nil was acknowledged -/
theorem emit_keeps {e : Event} {elapsed : UInt64} (hr : s.Right some) (hq : s.link.Quiet)
    (hopen : s.closed = false) (hnew : appends s.link.log i = []) :
    (emit i e elapsed).run.Keeps (Under i s.toClient) (fun x s' => Brings some i s.toClient s'.toClient ∧
      (x = .ok () → ∃ said seq, e.said = some said ∧ Recorded s'.link.log i said seq)) s := by
  have herr : ∀ (err : GoError) (s' : Session S), Names i s.toClient s' →
      Brings some i s.toClient s'.toClient ∧
      ((Except.error (.error err) : Except (Abort GoError) Unit) = .ok () →
        ∃ said seq, e.said = some said ∧ Recorded s'.link.log i said seq) :=
    fun err s' h => ⟨h.brings, fun hx => by cases hx⟩
  have h₀ : Names i s.toClient s := .start hr hq
  unfold emit
  refine state_keeps h₀.later.steady ?_
  rw [hopen]
  by_cases hs : e.severity > 4
  · rw [if_neg Bool.false_ne_true, if_pos hs]
    exact herr _ s h₀
  rw [if_neg Bool.false_ne_true, if_neg hs]
  refine getOrIntern_keeps h₀ (fun domainId s₁ h₁ _ hd => ?_) herr
  refine getOrIntern_keeps h₁ (fun categoryId s₂ h₂ l₂ hc => ?_) herr
  refine getOrIntern_keeps h₂ (fun eventNameId s₃ h₃ l₃ hn => ?_) herr
  refine internCorrelation_keeps h₃ (fun correlationId s₄ h₄ l₄ hcorr => ?_) herr
  refine getOrIntern_keeps h₄ (fun fieldNameId s₅ h₅ l₅ hf => ?_) herr
  refine internValue_keeps h₅ (fun x c s₆ h₆ l₆ hcont hv => ?_) herr
  -- what was interned is still named in the history that the request is sent to
  have l₄₆ := List.Subset.trans l₅ l₆
  have l₃₆ := List.Subset.trans l₄ l₄₆
  have l₂₆ := List.Subset.trans l₃ l₃₆
  have l₁₆ := List.Subset.trans l₂ l₂₆
  refine pass_keeps (fun bytes hb => ?_) fun err _ => herr err s₆ h₆
  obtain ⟨rfl, hlen⟩ := encodeAppendEvent_ok hb
  refine request_keeps h₆.quiet hlen (fun link more hl hm => h₆.later.sent hl hm)
    (fun link r hq' hl => ?_) fun link err hq' hl => herr err _ ⟨h₆.later.same hl, hq'⟩
  have hbrings := h₆.sent hq' hl
  refine expect_keeps (fun hresp => ?_) fun err => ⟨hbrings, fun hx => by cases hx⟩
  refine pass_keeps (fun seq hseq => ?_) fun err _ => ⟨hbrings, fun hx => by cases hx⟩
  refine ⟨hbrings, fun _ => ⟨⟨e.domain, e.category, e.name, e.severity, e.fieldName, c,
    given e.correlation⟩, seq, ?_, ?_⟩⟩
  · rw [Event.said, hcont]
    rfl
  have hreply : r = appendReply seq := by
    obtain ⟨hlen8, hs8⟩ := decodeAppendEventOk_ok hseq
    rw [← hs8, ← appendReply_of hlen8, ← hresp]
  show Recorded link.log i _ _
  rw [hl, hreply]
  exact h₆.recorded hnew {
    domain := hd.mono l₁₆
    category := hc.mono l₂₆
    name := hn.mono l₃₆
    severity := rfl
    fieldName := hf.mono l₆
    value := hv
    correlation := hcorr.mono l₄₆ }

end

section
variable {S : Server} {i : Nat} {c₀ : Client S Bytes} {s s' : Session S}

/-- `Emit` on a session that is closed: nil, and nothing is sent -/
theorem emit_closed {I : Session S → Prop} {e : Event} {elapsed : UInt64} (hc : s.closed = true)
    (hI : I s) : (emit i e elapsed).run.Keeps I (fun x s' => x = .ok () ∧ s' = s) s := by
  unfold emit
  refine state_keeps hI ?_
  rw [if_pos hc]
  exact ⟨rfl, rfl⟩

theorem ignored_keeps {α : Type} {p : Call S α} {k : Unit → Call S Unit} {I : Session S → Prop}
    {Q : Except (Abort GoError) Unit → Session S → Prop} {P : Session S → Prop}
    (h : p.run.Keeps I (fun x s => x ≠ .error .panic ∧ P s) s)
    (hk : ∀ s, P s → (k ()).run.Keeps I Q s) : (ignored p >>= k).run.Keeps I Q s := by
  refine Keeps.bind_except (Q := fun x s => x = .ok () ∧ P s) ?_ ?_ ?_
  · refine h.bind fun x s hx => ?_
    obtain ⟨hne, hP⟩ := hx
    split
    · exact absurd rfl hne
    · exact ⟨rfl, hP⟩
  · rintro ⟨⟩ s ⟨-, hP⟩
    exact hk s hP
  · rintro e s ⟨hx, -⟩
    cases hx

/-- the request of `Close` is under way, or the connection has ended -/
def Closing (i : Nat) (c₀ : Client S Bytes) (s : Session S) : Prop :=
  Brings some i c₀ s.toClient ∧ s.link.closed = true ∨
    Under i c₀ s ∧ s.link.input = [] ∧ ∃ r : Reply, s.link.unread = r.bytes ∧
      1 + r.body.length ≤ maxFrameSize

theorem writeFinish_keeps (h : Brings some i c₀ s.toClient) :
    (writeFrame i (frameBytes finishRequest) : Call S Unit).run.Keeps (Under i c₀)
      (fun x s => x ≠ .error .panic ∧ Closing i c₀ s) s := by
  refine keeps_atom fun x s' hx => ?_
  by_cases hc : s.link.closed = true
  · rw [if_pos hc] at hx
    cases hx
    exact ⟨h.steady, (by intro he; cases he), .inl ⟨h, hc⟩⟩
  rw [if_neg hc] at hx
  cases hx
  have hcases := Link.send_cases (i := i) h.quiet (Bool.eq_false_iff.mpr hc)
    (show finishRequest.length ≤ maxFrameSize by decide)
  generalize s.link.send i (frameBytes finishRequest) = link at hcases
  cases hcases with
  | @answered srv r ha =>
    have hs : Under i c₀ { s with link := ⟨srv, false, [], r.bytes,
        s.link.log ++ [⟨i, ⟨finishRequest, r⟩⟩]⟩ } := h.steady.sent rfl fun y hy =>
      ⟨r, List.mem_singleton.mp hy⟩
    exact ⟨hs, (by intro he; cases he), .inr ⟨hs, rfl, r, rfl, S.fits ha⟩⟩
  | ended ha =>
    have hs : Under i c₀ { s with link := ⟨s.link.server, true, [], [], s.link.log⟩ } :=
      h.steady.same rfl
    exact ⟨hs, (by intro he; cases he), .inl ⟨⟨hs, rfl, rfl⟩, rfl⟩⟩

theorem readFinish_keeps (h : Closing i c₀ s) :
    (readFrame : Call S (UInt8 × Bytes)).run.Keeps (Under i c₀)
      (fun x s => x ≠ .error .panic ∧ Brings some i c₀ s.toClient) s := by
  rcases h with ⟨hb, hc⟩ | ⟨hs, hin, r, hun, hfit⟩
  · rw [readFrame]
    exact readFull_ended (by decide) hb.quiet.unread hc hb.steady fun e =>
      ⟨(by intro he; cases he), hb⟩
  · rw [← bind_pure readFrame]
    refine readFrame_keeps hun hfit (fun unread => hs.same rfl) ?_
    exact ⟨(by intro he; cases he), hs.same rfl, hin, rfl⟩

/-- **`Close`** -/
theorem close_keeps (hr : s.Right some) (hq : s.link.Quiet) :
    (close i).run.Keeps (Under i s.toClient) (fun _ s' => Brings some i s.toClient s'.toClient) s := by
  have h₀ : Under i s.toClient s := .refl hr
  unfold close
  refine state_keeps h₀ ?_
  by_cases hc : s.closed = true
  · rw [if_pos hc]
    exact ⟨h₀, hq⟩
  rw [if_neg hc]
  have h₁ : Brings some i s.toClient { s.toClient with closed := true } := ⟨⟨hr, h₀.log⟩, hq⟩
  refine change_keeps h₁.steady (state_keeps h₁.steady ?_)
  by_cases hconn : s.connected = true
  · rw [if_pos hconn]
    refine ignored_keeps (writeFinish_keeps h₁) fun s₂ h₂ => ?_
    refine ignored_keeps (readFinish_keeps h₂) fun s₃ h₃ => ?_
    exact keeps_atom fun x s' hx => by
      cases hx
      exact ⟨h₃.steady, h₃⟩
  · rw [if_neg hconn]
    exact h₁

end

/-! ## any number of goroutines -/

section
variable {S : Server}

/-- the result of a method -/
abbrev Result := Except (Abort GoError) Unit

/-- a nil of an `Emit` means that its event was recorded -/
def Told (c : Method) (x : Result) (i : Nat) (s : Session S) : Prop :=
  ∀ e elapsed, c = .emit e elapsed → x = .ok () →
    ∃ said seq, e.said = some said ∧ Recorded s.link.log i said seq

/-- the session while a call is inside, after the calls `xs` -/
structure Mid (xs : List (Returned Method Result)) (s : Session S) : Prop where
  right : s.Right some
  told : ∀ x ∈ xs, Told x.call x.result x.caller s

/-- the session while its lock is free -/
structure Free (xs : List (Returned Method Result)) (s : Session S) : Prop where
  mid : Mid xs s
  quiet : s.link.Quiet
  callers : ∀ x ∈ s.link.log, ∃ y ∈ xs, y.caller = x.caller

theorem Mid.steady {xs : List (Returned Method Result)} {s s' : Session S} {i : Nat} (h : Mid xs s)
    (hi : ∀ x ∈ xs, x.caller ≠ i) (hs : Under i s.toClient s') : Mid xs s' := by
  refine ⟨hs.right, fun x hx e elapsed hc hres => ?_⟩
  obtain ⟨said, seq, hsaid, hrec⟩ := h.told x hx e elapsed hc hres
  exact ⟨said, seq, hsaid, Steady.recorded hs hrec (hi x hx)⟩

/-- the next call is back -/
theorem Free.next {xs : List (Returned Method Result)} {s s' : Session S} {i : Nat} {c : Method}
    {x : Result} (h : Free xs s) (hi : ∀ x ∈ xs, x.caller ≠ i)
    (hb : Brings some i s.toClient s'.toClient) (ht : Told c x i s') :
    Free (xs ++ [⟨i, c, x⟩]) s' where
  mid := by
    refine ⟨hb.steady.right, fun y hy => ?_⟩
    rcases List.mem_append.mp hy with hy | hy
    · exact (h.mid.steady hi hb.steady).told y hy
    · rw [List.mem_singleton.mp hy]
      exact ht
  quiet := hb.quiet
  callers := by
    obtain ⟨-, new, hlog, hnew⟩ := hb.steady
    intro y hy
    rw [hlog] at hy
    rcases List.mem_append.mp hy with hy | hy
    · obtain ⟨z, hz, hzy⟩ := h.callers y hy
      exact ⟨z, List.mem_append_left _ hz, hzy⟩
    · exact ⟨⟨i, c, x⟩, List.mem_append_right _ (List.mem_singleton_self _), (hnew y hy).1.symm⟩

/-- an `Emit` takes the lock while the session is open -/
def Orderly (s : Session S) : Method → Bool
  | .emit _ _ => !s.closed
  | .close => true

/-- **One goroutine**: what its call brings back when nobody disturbs it -/
theorem body_keeps {xs : List (Returned Method Result)} {s : Session S} {i : Nat} {c : Method}
    (h : Free xs s) (hc : Orderly s c = true) (hi : ∀ x ∈ xs, x.caller ≠ i) :
    (body i c).Keeps (Mid xs) (fun x s => Free (xs ++ [⟨i, c, x⟩]) s) s := by
  have hnone : appends s.link.log i = [] := by
    refine appends_none fun x hx => .inl fun hxi => ?_
    obtain ⟨y, hy, hyx⟩ := h.callers x hx
    exact hi y hy (hyx.trans hxi)
  cases c with
  | emit e elapsed =>
    have hopen : s.closed = false := by
      rw [← Bool.not_eq_true']
      exact hc
    refine (emit_keeps h.mid.right h.quiet hopen hnone).mono (fun s' hs => h.mid.steady hi hs) ?_
    intro x s' hx
    refine h.next hi hx.1 fun e' elapsed' he hok => ?_
    cases he
    exact hx.2 hok
  | close =>
    refine (close_keeps h.mid.right h.quiet).mono (fun s' hs => h.mid.steady hi hs) ?_
    intro x s' hx
    exact h.next hi hx fun e elapsed he => by cases he

/-- **Emits and Closes in any interleaving**: as long as every `Emit` takes the lock while the
session is open, the cached ids are those of the agent, and a nil of an `Emit` means that its event
was acknowledged once, with what its caller said -/
theorem emit_acknowledged {g : Threads (Session S) Method Result}
    (h : Reached body (fun s c => Orderly s c = true) (.opened S) g) :
    g.state.Right some ∧ ∀ i e elapsed, g.callers[i]? = some (.back (.emit e elapsed) (.ok ())) →
      ∃ said seq, e.said = some said ∧ Recorded g.state.link.log i said seq := by
  have hstart : Free [] (Session.opened S) := by
    refine ⟨⟨Client.start_right, fun x hx => (by cases hx)⟩, Link.start_quiet S, ?_⟩
    intro x hx
    cases hx
  obtain ⟨xs, hg⟩ := reached_guarded h hstart (fun _ _ h => h.mid)
    fun xs s i c hs hc hi => body_keeps hs hc hi
  have hmid := hg.now fun _ _ h => h.mid
  refine ⟨hmid.right, fun i e elapsed hb => ?_⟩
  have hx := (hg.back ⟨i, .emit e elapsed, .ok ()⟩).mpr hb
  exact hmid.told _ hx e elapsed rfl rfl

end

/-! ## a Close before an Emit -/

/-- a thread is back from an `Emit` with nil -/
def told : Caller (Session exampleAgent) Method Result → Bool
  | .back (.emit _ _) (.ok _) => true
  | _ => false

theorem told_iff {x : Caller (Session exampleAgent) Method Result} (h : told x = true) :
    ∃ e elapsed, x = .back (.emit e elapsed) (.ok ()) := by
  unfold told at h
  split at h
  · exact ⟨_, _, rfl⟩
  · cases h

def exampleEvent : Event :=
  ⟨utf8 "net", utf8 "rx", utf8 "frame", 1, utf8 "len", .int 7, []⟩

/-- one goroutine calls Emit -/
def emitTurns : List (Turn Method) :=
  [.call (.emit exampleEvent 7), .lock 0] ++ List.replicate 24 (.act 0) ++ [.unlock 0]

theorem emit_acknowledged_example : ∃ (g : Threads (Session exampleAgent) Method Result) (said : Said)
    (seq : UInt64), g.state.Right some ∧ Recorded g.state.link.log 0 said seq := by
  have hrun : ((play body Orderly (.start (.opened exampleAgent)) emitTurns).map fun g =>
      (g.callers.map told)) = some [true] := by decide +kernel
  obtain ⟨g, hg, htold⟩ := Option.map_eq_some_iff.mp hrun
  have hreached := play_reached hg .start
  obtain ⟨x, hx⟩ : ∃ x, g.callers = [x] := List.length_eq_one_iff.mp <| by
    rw [← List.length_map (f := told), htold]
    rfl
  rw [hx] at htold
  obtain ⟨e, elapsed, rfl⟩ := told_iff (List.head_eq_of_cons_eq htold)
  obtain ⟨hright, hrec⟩ := emit_acknowledged hreached
  obtain ⟨said, seq, -, hsaid⟩ := hrec 0 e elapsed (by rw [hx]; rfl)
  exact ⟨g, said, seq, hright, hsaid⟩

/-- the session is closed by another goroutine first -/
def closeTurns : List (Turn Method) :=
  [.call .close, .call (.emit exampleEvent 7), .lock 0] ++ List.replicate 7 (.act 0) ++
    [.unlock 0, .lock 1, .act 1, .unlock 1]

/-- **an `Emit` behind a `Close` returns nil, and its event is not recorded** -/
theorem emit_unrecorded : ∃ (g : Threads (Session exampleAgent) Method Result) (e : Event)
    (elapsed : UInt64), Reached body (fun _ _ => True) (.opened exampleAgent) g ∧
      g.callers[1]? = some (.back (.emit e elapsed) (.ok ())) ∧
      ∀ said seq, ¬ Recorded g.state.link.log 1 said seq := by
  have hrun : ((play body (fun _ _ => true) (.start (.opened exampleAgent)) closeTurns).map fun g =>
      (g.callers.map told, appends g.state.link.log 1)) = some ([false, true], []) := by
    decide +kernel
  obtain ⟨g, hg, hres⟩ := Option.map_eq_some_iff.mp hrun
  obtain ⟨htold, hnone⟩ := Prod.mk.inj hres
  have hreached : Reached body (fun _ _ => True) (.opened exampleAgent) g := by
    have := play_reached hg .start
    simpa only [implies_true] using this
  obtain ⟨x, y, hxy⟩ : ∃ x y, g.callers = [x, y] := List.length_eq_two.mp <| by
    rw [← List.length_map (f := told), htold]
    rfl
  rw [hxy] at htold
  obtain ⟨e, elapsed, rfl⟩ := told_iff (List.head_eq_of_cons_eq (List.tail_eq_of_cons_eq htold))
  refine ⟨g, e, elapsed, hreached, by rw [hxy]; rfl, fun said seq hrec => ?_⟩
  obtain ⟨a, ha, -⟩ := hrec
  rw [hnone] at ha
  cases ha

end Dtj.Sdk.Go
