import Dtj.Sdk.History

/-!
# The Rust SDK: a session, and what its journal says

`packages/dtj-rust/src`: `protocol.rs`, `types.rs`, and `Session` of `client.rs`.  A session is used
by one caller at a time; every request waits for its reply.

* `Severity.asU8`, `Value.encode`, `writeFrame`, `writeIntern`, `writeAppendEvent`   what is sent;
* `readFrame`, `intern`, `emit`, `close`     the calls;
* `request_ok`, `intern_ok`, `emit_ok`, `close_ok`   **what a call does that succeeds**;
* `Emitted`        events that were all emitted with success;
* `emitted_read`   the journal has them all, with every severity one level lower;
* `faithful_iff`   so it says what the caller passed only if nothing was emitted.
-/

namespace Dtj.Sdk.Rust
open Wire Checked Agent

/-- the errors of a session -/
inductive Error where
  | frameTooLarge
  | ioError
  | protocol
  | sessionClosed
deriving DecidableEq

inductive Severity where
  | debug | info | warn | error | fatal
deriving DecidableEq

/-- `self as u8` -/
def Severity.asU8 : Severity → UInt8
  | .debug => 0
  | .info => 1
  | .warn => 2
  | .error => 3
  | .fatal => 4

/-- the value of a field; floats are their bits -/
inductive Value where
  | bool (b : Bool)
  | int (i : Int64)
  | uint (u : UInt64)
  | f32 (bits : UInt32)
  | f64 (bits : UInt64)
  | string (s : String)
  | bytes (bs : Bytes)

structure Event where
  domain : String
  category : String
  name : String
  severity : Severity
  fieldName : String
  value : Value
  correlation : Option String

/-! ## types.rs -/

def Value.typeTag : Value → UInt8
  | .bool _ => 0x01
  | .int _ => 0x03
  | .uint _ => 0x05
  | .f32 _ => 0x06
  | .f64 _ => 0x07
  | .string _ => 0x0B
  | .bytes _ => 0x0C

def Value.encode : Value → Bytes
  | .bool b => [if b then 1 else 0]
  | .int i => le 8 i.toUInt64.toNat
  | .uint u => le 8 u.toNat
  | .f32 bits => le 4 bits.toNat
  | .f64 bits => le 8 bits.toNat
  | .string s => utf8 s
  | .bytes bs => le 4 (UInt32.ofNat bs.length).toNat ++ bs

/-! ## protocol.rs -/

/-- a session; one that is not disabled has a stream -/
structure Session (S : Server) extends Client S String where
  disabled : Bool

def Session.opened (S : Server) : Session S := ⟨.start S String, false⟩

abbrev Call (S : Server) (α : Type) := Prog (Session S) Error α

section
variable {S : Server} {α : Type}

/-- the length is a u32 -/
def writeFrame (i : Nat) (opcode : UInt8) (payload : Bytes) : Call S Unit := do
  let len ← Prog.of (incr32 (UInt32.ofNat payload.length))
  let s ← get
  if s.link.closed then throw (.error .ioError)
  else set { s with link := s.link.send i (le 4 len.toNat ++ opcode :: payload) }

/-- `read_exact`: it waits for `n` bytes, unless the connection has ended -/
def readExact (n : Nat) : Call S Bytes := fun s =>
  if n ≤ s.link.unread.length then
    .ok (s.link.unread.take n) { s with link := { s.link with unread := s.link.unread.drop n } }
  else if s.link.closed then
    .error (.error .ioError) { s with link := { s.link with unread := [] } }
  else .error .diverge s

def readFrame : Call S (UInt8 × Bytes) := do
  let len := leNat (← readExact 4)
  if len = 0 ∨ len > 1024 * 1024 then throw (.error .frameTooLarge)
  else
    let frame ← readExact len
    return (frame.getD 0 0, frame.drop 1)

def writeIntern (i : Nat) (kind : UInt8) (name : String) : Call S Unit :=
  let nameBytes := utf8 name
  writeFrame i Cmd.intern.toU8
    (kind :: (le 2 (UInt16.ofNat nameBytes.length).toNat ++ nameBytes))

def readInternOk : Call S UInt32 := do
  let (opcode, payload) ← readFrame
  if opcode ≠ Resp.internOk.toU8 then throw (.error .protocol)
  else if payload.length ≠ 4 then throw (.error .protocol)
  else return UInt32.ofNat (leAt payload 0 4)

def writeAppendEvent (i : Nat) (frame : Appended) : Call S Unit :=
  writeFrame i Cmd.appendEvent.toU8 frame.request.tail

def readAppendEventOk : Call S UInt64 := do
  let (opcode, payload) ← readFrame
  if opcode ≠ Resp.appendEventOk.toU8 then throw (.error .protocol)
  else if payload.length ≠ 8 then throw (.error .protocol)
  else return UInt64.ofNat (leAt payload 0 8)

def writeFinishSession (i : Nat) : Call S Unit := writeFrame i Cmd.finishSession.toU8 []

/-- true for FinishSessionOk, false for an Error frame -/
def readFinishSessionOkOrError : Call S Bool := do
  let (opcode, payload) ← readFrame
  if opcode = Resp.finishSessionOk.toU8 ∧ payload = [] then return true
  else if opcode = Resp.error.toU8 then return false
  else throw (.error .protocol)

/-! ## client.rs -/

def intern (i : Nat) (kind : DictKind) (value : String) : Call S UInt32 := do
  let s ← get
  match s.cache kind value with
  | some id => return id
  | none =>
    writeIntern i kind.toU8 value
    let id ← readInternOk
    modify fun s => { s with toClient := s.remember kind value id }
    return id

/-- a string is interned, everything else is encoded -/
def internValue (i : Nat) (value : Value) : Call S (UInt8 × Bytes) :=
  match value with
  | .string s => do return (0x0B, le 4 (← intern i .string s).toNat)
  | other => return (other.typeTag, other.encode)

def internCorrelation (i : Nat) : Option String → Call S UInt32
  | some corr => intern i .string corr
  | none => return 0

/-- `emit`, as the call `i` of the session -/
def emit (i : Nat) (e : Event) : Call S Unit := do
  let s ← get
  if s.disabled then return ()
  else if s.closed then throw (.error .sessionClosed)
  else
    let domainId ← intern i .domain e.domain
    let categoryId ← intern i .category e.category
    let eventNameId ← intern i .eventName e.name
    let fieldNameId ← intern i .string e.fieldName
    let (typeTag, valueBody) ← internValue i e.value
    let correlationId ← internCorrelation i e.correlation
    writeAppendEvent i ⟨0, domainId, categoryId, eventNameId, correlationId, e.severity.asU8,
      fieldNameId, typeTag, valueBody⟩
    let _ ← readAppendEventOk
    return ()

def Session.markClosed (s : Session S) : Session S :=
  { s with toClient := { s.toClient with closed := true } }

/-- `stream.shutdown(Shutdown::Both)` -/
def Session.shutdown (s : Session S) : Session S :=
  { s with link := { s.link with closed := true } }

/-- `close`, as the call `i` of the session -/
def close (i : Nat) : Call S Unit := do
  let s ← get
  if s.closed then return ()
  else if s.disabled then modify Session.markClosed
  else
    writeFinishSession i
    fun s => match readFinishSessionOkOrError.run s with
      | .ok true s => .ok () s.shutdown.markClosed
      | .ok false s => .error (.error .protocol) s.markClosed
      | .error (.error e) s => .error (.error e) s.markClosed
      | .error .panic s => .error .panic s
      | .error .diverge s => .error .diverge s

end

/-! ## a request that succeeds -/

section
variable {S : Server} {i : Nat} {s s' : Session S}

/-- a frame that is written, as long as its length is a u32 -/
theorem writeFrame_ok {opcode : UInt8} {payload : Bytes} (hlen : payload.length + 1 < 2^32)
    (h : (writeFrame i opcode payload).run s = .ok () s') : s.link.closed = false ∧
      s' = { s with link := s.link.send i (frameBytes (opcode :: payload)) } := by
  have hincr : (incr32 (UInt32.ofNat payload.length) : Res Error UInt32)
      = .ok (UInt32.ofNat (payload.length + 1)) := by
    rw [incr32_eq]
    · rw [UInt32.ofNat_add]
      rfl
    · rw [UInt32.toNat_ofNat']
      omega
  have hbytes : le 4 (UInt32.ofNat (payload.length + 1)).toNat ++ opcode :: payload
      = frameBytes (opcode :: payload) := by
    rw [UInt32.toNat_ofNat', Nat.mod_eq_of_lt hlen, frameBytes, List.length_cons]
  unfold writeFrame at h
  obtain ⟨len, s₁, hl, h⟩ := run_bind_ok.mp h
  rw [hincr, Prog.of_ok] at hl
  cases hl
  simp only [EStateM.run_bind, EStateM.run_get, run_ite, hbytes] at h
  split at h
  · cases h
  · rename_i hc
    cases h
    exact ⟨Bool.eq_false_iff.mpr hc, rfl⟩

/-- the bytes are there -/
theorem readExact_run {n : Nat} (h : n ≤ s.link.unread.length) : (readExact n).run s =
    .ok (s.link.unread.take n) { s with link := { s.link with unread := s.link.unread.drop n } } :=
  if_pos h

/-- the frame of a reply is read, and nothing else -/
theorem readFrame_reply {r : Reply} (hun : s.link.unread = r.bytes)
    (hfit : 1 + r.body.length ≤ maxFrameSize) : readFrame.run s =
      .ok (r.resp.toU8, r.body) { s with link := { s.link with unread := [] } } := by
  have hmax : maxFrameSize = 1048576 := rfl
  have htake : r.bytes.take 4 = le 4 (1 + r.body.length) := by
    rw [reply_bytes, List.take_left' (le_length 4 _)]
  have hdrop : r.bytes.drop 4 = r.resp.toU8 :: r.body := by
    rw [reply_bytes, List.drop_left' (le_length 4 _)]
  have hdone : (r.resp.toU8 :: r.body).length = 1 + r.body.length := by
    rw [List.length_cons, Nat.add_comm]
  have h4 : (readExact 4).run s = .ok (le 4 (1 + r.body.length))
      { s with link := { s.link with unread := r.resp.toU8 :: r.body } } := by
    rw [readExact_run (by rw [hun, reply_length]; omega), hun, htake, hdrop]
  have hall : (readExact (1 + r.body.length)).run
      { s with link := { s.link with unread := r.resp.toU8 :: r.body } }
      = .ok (r.resp.toU8 :: r.body) { s with link := { s.link with unread := [] } } := by
    rw [readExact_run (le_of_eq hdone.symm)]
    dsimp only
    rw [← hdone, List.take_length, List.drop_length]
  rw [readFrame, EStateM.run_bind, h4]
  dsimp only
  rw [leNat_le 4 _ (by omega), run_ite, if_neg (by omega), EStateM.run_bind, hall]
  rfl

/-- there are no bytes, and none will come -/
theorem readFrame_ended (hun : s.link.unread = []) (hc : s.link.closed = true) {x : UInt8 × Bytes} :
    readFrame.run s ≠ .ok x s' := by
  intro h
  obtain ⟨bytes, s₁, h4, -⟩ := run_bind_ok.mp h
  simp only [readExact, EStateM.run] at h4
  rw [if_neg (by rw [hun]; decide), if_pos hc] at h4
  cases h4

/-- the agent does not read a frame that is too large -/
theorem send_large {frame : Bytes} {l : Link S} (hq : l.Quiet) (hc : l.closed = false)
    (hlen : frame.length < 2^32) (hmax : maxFrameSize < frame.length) :
    (l.send i (frameBytes frame)).closed = true ∧ (l.send i (frameBytes frame)).unread = [] := by
  have hfl : (frameBytes frame).length = 4 + frame.length := by
    rw [frameBytes, List.length_append, le_length]
  have hle : leAt (frameBytes frame) 0 4 = frame.length := leAt_head 4 _ _ (by omega)
  rw [Link.send, hq.input, List.nil_append, List.length_nil, Nat.zero_add, hfl,
    show 4 + frame.length = 3 + frame.length + 1 by omega, Link.serve]
  rw [if_neg (by rw [hc, hfl]; simp), hle, if_pos hmax]
  exact ⟨rfl, hq.unread⟩

/-- **one request that succeeds**: its own reply is read -/
theorem request_ok {opcode : UInt8} {payload : Bytes} {x : UInt8 × Bytes} {s₁ : Session S}
    (hq : s.link.Quiet) (hlen : payload.length + 1 < 2^32)
    (hw : (writeFrame i opcode payload).run s = .ok () s₁) (hr : readFrame.run s₁ = .ok x s') :
    ∃ link r, S.answer s.link.server (opcode :: payload) = some (link.server, r) ∧ link.Quiet ∧
      link.log = s.link.log ++ [⟨i, ⟨opcode :: payload, r⟩⟩] ∧ x = (r.resp.toU8, r.body) ∧
      s' = { s with link := link } ∧ (opcode :: payload).length ≤ maxFrameSize := by
  obtain ⟨hc, rfl⟩ := writeFrame_ok hlen hw
  by_cases hmax : (opcode :: payload).length ≤ maxFrameSize
  · have hcases := Link.send_cases (i := i) hq hc hmax
    generalize s.link.send i (frameBytes (opcode :: payload)) = link at hr hcases
    cases hcases with
    | ended ha => exact absurd hr (readFrame_ended rfl rfl)
    | @answered srv r ha =>
      rw [readFrame_reply rfl (S.fits ha)] at hr
      cases hr
      exact ⟨_, r, ha, ⟨rfl, rfl⟩, rfl, rfl, rfl, hmax⟩
  · obtain ⟨hclosed, hun⟩ := send_large (i := i) hq hc (by rw [List.length_cons]; exact hlen)
      (not_le.mp hmax)
    exact absurd hr (readFrame_ended hun hclosed)

end

/-! ## the calls that succeed -/

/-- the value of an event, in UTF-8 or encoded -/
def content : Value → Content
  | .string s => .text (utf8 s)
  | value => .plain value.typeTag value.encode

/-- what the caller of `emit` says -/
def Event.said (e : Event) : Said :=
  ⟨utf8 e.domain, utf8 e.category, utf8 e.name, e.severity.asU8, utf8 e.fieldName, content e.value,
    e.correlation.map utf8⟩

/-- the length of a name fits into its request -/
abbrev Short (name : String) : Prop := (utf8 name).length < 2^16

/-- the lengths of the value fit into their requests -/
def Value.Short : Value → Prop
  | .string s => Rust.Short s
  | .bytes bs => bs.length < 2^31
  | _ => True

/-- **the lengths of the event fit into their requests** -/
structure Event.Short (e : Event) : Prop where
  domain : Rust.Short e.domain
  category : Rust.Short e.category
  name : Rust.Short e.name
  fieldName : Rust.Short e.fieldName
  value : e.value.Short
  correlation : ∀ c, e.correlation = some c → Rust.Short c

section
variable {dataDir : String} {st : AgentState} {d : Disk} {i : Nat}
  {s s' s'' : Session (.agent dataDir st d)}

/-- an open session, of which every request has succeeded so far -/
structure Good (s : Session (.agent dataDir st d)) : Prop where
  right : s.Right (fun name => some (utf8 name))
  quiet : s.link.Quiet
  traced : ∃ st' d', Traced s.link st' d'
  talk : ∀ x ∈ s.link.log, Talk x.exchange
  enabled : s.disabled = false
  opened : s.closed = false

/-- at most `n` names were interned -/
structure Interns (n : Nat) (s s' : Session (.agent dataDir st d)) : Prop where
  good : Good s'
  log : ∃ new, s'.link.log = s.link.log ++ new ∧ new.length ≤ n ∧
    ∀ x ∈ new, isAppend x.exchange = false

theorem Interns.subset {n : Nat} (h : Interns n s s') : s.link.log ⊆ s'.link.log := by
  obtain ⟨new, hlog, -⟩ := h.log
  rw [hlog]
  exact List.subset_append_left _ _

theorem Interns.trans {n m : Nat} (h : Interns n s s') (h' : Interns m s' s'') :
    Interns (n + m) s s'' := by
  obtain ⟨new, hlog, hlen, hnew⟩ := h.log
  obtain ⟨new', hlog', hlen', hnew'⟩ := h'.log
  refine ⟨h'.good, new ++ new', ?_, ?_, fun x hx => ?_⟩
  · rw [hlog', hlog, List.append_assoc]
  · rw [List.length_append]
    omega
  · rcases List.mem_append.mp hx with hx | hx
    · exact hnew x hx
    · exact hnew' x hx

theorem Interns.refl (h : Good s) : Interns 0 s s :=
  ⟨h, [], (List.append_nil _).symm, le_refl _, fun x hx => by cases hx⟩

theorem Interns.mono {n m : Nat} (h : Interns n s s') (hnm : n ≤ m) : Interns m s s' := by
  obtain ⟨new, hlog, hlen, hnew⟩ := h.log
  exact ⟨h.good, new, hlog, hlen.trans hnm, hnew⟩

/-- one more request has succeeded -/
theorem Good.answered (h : Good s) {link : Link (.agent dataDir st d)} {frame : Bytes} {r : Reply}
    (ha : (Server.agent dataDir st d).answer s.link.server frame = some (link.server, r))
    (hq : link.Quiet) (hlog : link.log = s.link.log ++ [⟨i, ⟨frame, r⟩⟩])
    (hlen : frame.length ≤ maxFrameSize) (htalk : Talk ⟨frame, r⟩) :
    Good { s with link := link } := by
  have hr : r.resp ≠ .error := by
    cases htalk <;> exact fun he => by cases he
  obtain ⟨st₁, d₁, ht⟩ := h.traced
  refine ⟨h.right.more ?_, hq, ht.answered ha hlog hlen hr, ?_, h.enabled, h.opened⟩
  · rw [hlog]
    exact List.subset_append_left _ _
  · intro x hx
    rw [show ({ s with link := link } : Session _).link.log = _ from hlog] at hx
    rcases List.mem_append.mp hx with hx | hx
    · exact h.talk x hx
    · rw [List.mem_singleton.mp hx]
      exact htalk

/-- **a name that is interned with success** -/
theorem intern_ok {kind : DictKind} {value : String} {id : UInt32} (hg : Good s)
    (hlen : Short value) (h : (intern i kind value).run s = .ok id s') :
    Interns 1 s s' ∧ Named s'.link.log kind (utf8 value) id := by
  unfold intern at h
  simp only [EStateM.run_bind, EStateM.run_get] at h
  cases hc : s.cache kind value with
  | some id' =>
    rw [hc] at h
    cases h
    obtain ⟨bytes, he, hn⟩ := hg.right kind value id hc
    cases he
    exact ⟨(Interns.refl hg).mono (Nat.zero_le 1), hn⟩
  | none =>
    rw [hc] at h
    have hlen16 : (UInt16.ofNat (utf8 value).length).toNat = (utf8 value).length := by
      rw [UInt16.toNat_ofNat', Nat.mod_eq_of_lt hlen]
    have hsize : (kind.toU8 :: (le 2 (utf8 value).length ++ utf8 value)).length + 1 < 2^32 := by
      rw [List.length_cons, List.length_append, le_length]
      have : (utf8 value).length < 2^16 := hlen
      omega
    obtain ⟨⟨⟩, s₁, hw, h⟩ := run_bind_ok.mp h
    rw [writeIntern, hlen16] at hw
    obtain ⟨id', s₂, hread, h⟩ := run_bind_ok.mp h
    obtain ⟨x, s₃, hframe, hread⟩ := run_bind_ok.mp hread
    obtain ⟨link, r, ha, hq, hlog, rfl, rfl, hmax⟩ := request_ok hg.quiet hsize hw hframe
    simp only [run_ite] at hread
    split at hread
    · cases hread
    rename_i hresp
    split at hread
    · cases hread
    rename_i hlen4
    cases hread
    cases h
    have hreply : r = internReply (UInt32.ofNat (leAt r.body 0 4)) := by
      rw [← internReply_of (not_not.mp hlen4), ← toU8_inj (not_not.mp hresp)]
    have hgood := hg.answered ha hq hlog hmax (by rw [hreply]; exact .intern kind (utf8 value) _)
    have hnamed : Named link.log kind (utf8 value) (UInt32.ofNat (leAt r.body 0 4)) := by
      rw [hlog]
      exact named_last (toU8_inj (not_not.mp hresp)) rfl (not_not.mp hlen4)
    refine ⟨⟨⟨hgood.right.remember rfl hnamed, hgood.quiet, hgood.traced, hgood.talk, hgood.enabled,
      hgood.opened⟩, _, hlog, le_refl _, fun x hx => ?_⟩, hnamed⟩
    rw [List.mem_singleton.mp hx]
    rfl

theorem internValue_ok {value : Value} {x : UInt8 × Bytes} (hg : Good s) (hv : value.Short)
    (h : (internValue i value).run s = .ok x s') : Interns 1 s s' ∧
      Holds s'.link.log x.1 x.2 (content value) ∧ x.2.length < 2^31 + 2^31 - 64 := by
  by_cases ht : ∃ t, value = .string t
  · obtain ⟨t, rfl⟩ := ht
    obtain ⟨id, s₁, hi, h⟩ := run_bind_ok.mp h
    cases h
    obtain ⟨hint, hn⟩ := intern_ok hg hv hi
    exact ⟨hint, ⟨id, hn, rfl, rfl⟩, by rw [le_length]; norm_num⟩
  · have hrun : internValue i value =
        (pure (value.typeTag, value.encode) : Call (.agent dataDir st d) (UInt8 × Bytes)) := by
      cases value <;> first | rfl | exact absurd ⟨_, rfl⟩ ht
    have hc : content value = .plain value.typeTag value.encode := by
      cases value <;> first | rfl | exact absurd ⟨_, rfl⟩ ht
    rw [hrun] at h
    cases h
    refine ⟨(Interns.refl hg).mono (Nat.zero_le 1), ?_, ?_⟩
    · rw [hc]
      exact ⟨rfl, rfl⟩
    · cases value with
      | bytes bs =>
        have hbs : bs.length < 2^31 := hv
        show (le 4 _ ++ bs).length < _
        rw [List.length_append, le_length]
        omega
      | string t => exact absurd ⟨t, rfl⟩ ht
      | bool b => exact (by norm_num : 1 < 2^31 + 2^31 - 64)
      | f32 bits => exact (by rw [Value.encode, le_length]; norm_num)
      | int v => exact (by rw [Value.encode, le_length]; norm_num)
      | uint v => exact (by rw [Value.encode, le_length]; norm_num)
      | f64 bits => exact (by rw [Value.encode, le_length]; norm_num)

theorem internCorrelation_ok {correlation : Option String} {id : UInt32} (hg : Good s)
    (hc : ∀ c, correlation = some c → Short c)
    (h : (internCorrelation i correlation).run s = .ok id s') :
    Interns 1 s s' ∧ Correlated s'.link.log id (correlation.map utf8) := by
  cases correlation with
  | none =>
    cases h
    exact ⟨(Interns.refl hg).mono (Nat.zero_le 1), rfl⟩
  | some c => exact intern_ok hg (hc c rfl) h

/-- the request has the event, in the ids that the agent assigned -/
def Wrote (log : List Entry) (e : Event) (x : Exchange) : Prop :=
  ∃ a seq, x = ⟨a.request, appendReply seq⟩ ∧ Means log e.said a

/-- **an event that is emitted with success** -/
theorem emit_ok {e : Event} (hg : Good s) (he : e.Short) (h : (emit i e).run s = .ok () s') :
    Good s' ∧ ∃ names x, s'.link.log = s.link.log ++ (names ++ [⟨i, x⟩]) ∧ names.length ≤ 6 ∧
      (∀ y ∈ names, isAppend y.exchange = false) ∧ Wrote s'.link.log e x := by
  obtain ⟨_, _, hget, h⟩ := run_bind_ok.mp h
  cases hget
  rw [run_ite, if_neg (by rw [hg.enabled]; exact Bool.false_ne_true), run_ite,
    if_neg (by rw [hg.opened]; exact Bool.false_ne_true)] at h
  obtain ⟨domainId, s₁, h₁, h⟩ := run_bind_ok.mp h
  obtain ⟨i₁, hd⟩ := intern_ok hg he.domain h₁
  obtain ⟨categoryId, s₂, h₂, h⟩ := run_bind_ok.mp h
  obtain ⟨i₂, hc⟩ := intern_ok i₁.good he.category h₂
  obtain ⟨eventNameId, s₃, h₃, h⟩ := run_bind_ok.mp h
  obtain ⟨i₃, hn⟩ := intern_ok i₂.good he.name h₃
  obtain ⟨fieldNameId, s₄, h₄, h⟩ := run_bind_ok.mp h
  obtain ⟨i₄, hf⟩ := intern_ok i₃.good he.fieldName h₄
  obtain ⟨⟨typeTag, valueBody⟩, s₅, h₅, h⟩ := run_bind_ok.mp h
  obtain ⟨i₅, hv, hsize⟩ := internValue_ok i₄.good he.value h₅
  obtain ⟨correlationId, s₆, h₆, h⟩ := run_bind_ok.mp h
  obtain ⟨i₆, hcorr⟩ := internCorrelation_ok i₅.good he.correlation h₆
  obtain ⟨⟨⟩, s₇, hw, h⟩ := run_bind_ok.mp h
  obtain ⟨seq, s₈, hread, h⟩ := run_bind_ok.mp h
  cases h
  obtain ⟨y, s₉, hframe, hread⟩ := run_bind_ok.mp hread
  obtain ⟨a, ha⟩ : ∃ a : Appended, a = ⟨0, domainId, categoryId, eventNameId, correlationId,
    e.severity.asU8, fieldNameId, typeTag, valueBody⟩ := ⟨_, rfl⟩
  have hlen : a.request.tail.length + 1 < 2^32 := by
    rw [List.length_tail, a.request_length, ha]
    have hbody : valueBody.length < 2^31 + 2^31 - 64 := hsize
    show 36 + valueBody.length - 1 + 1 < 2^32
    omega
  rw [← ha] at hw
  obtain ⟨link, r, hans, hq, hlog, rfl, rfl, hmax⟩ := request_ok i₆.good.quiet hlen hw hframe
  simp only [run_ite] at hread
  split at hread
  · cases hread
  rename_i hresp
  split at hread
  · cases hread
  rename_i hlen8
  cases hread
  have hreply : r = appendReply (UInt64.ofNat (leAt r.body 0 8)) := by
    rw [← appendReply_of (not_not.mp hlen8), ← toU8_inj (not_not.mp hresp)]
  have hgood := i₆.good.answered hans hq hlog hmax (by rw [hreply]; exact .append a _)
  obtain ⟨names, hnames, hcount, hplain⟩ :=
    ((((i₁.trans i₂).trans i₃).trans i₄).trans i₅ |>.trans i₆).log
  refine ⟨hgood, names, ⟨a.request, r⟩, ?_, hcount, hplain, a, _, by rw [← hreply], ?_⟩
  · show link.log = _
    rw [hlog, hnames, List.append_assoc]
    rfl
  -- what was interned is still named in the history that the request is sent to
  have l₆ : s₆.link.log ⊆ link.log := by
    rw [hlog]
    exact List.subset_append_left _ _
  have l₅ := List.Subset.trans i₆.subset l₆
  have l₄ := List.Subset.trans i₅.subset l₅
  have l₃ := List.Subset.trans i₄.subset l₄
  have l₂ := List.Subset.trans i₃.subset l₃
  have l₁ := List.Subset.trans i₂.subset l₂
  rw [ha]
  exact {
    domain := hd.mono l₁
    category := hc.mono l₂
    name := hn.mono l₃
    severity := rfl
    fieldName := hf.mono l₄
    value := hv.mono l₅
    correlation := hcorr.mono l₆ }

/-- **a session that is closed with success**: the agent has answered `FinishSessionOk` -/
theorem close_ok (hg : Good s) (h : (close i).run s = .ok () s') :
    s'.link.log = s.link.log ++ [⟨i, ⟨finishRequest, finishReply ()⟩⟩] ∧
      ∃ st' d', Traced s'.link st' d' := by
  obtain ⟨_, _, hget, h⟩ := run_bind_ok.mp h
  cases hget
  rw [run_ite, if_neg (by rw [hg.opened]; exact Bool.false_ne_true), run_ite,
    if_neg (by rw [hg.enabled]; exact Bool.false_ne_true)] at h
  obtain ⟨⟨⟩, s₁, hw, h⟩ := run_bind_ok.mp h
  simp only [EStateM.run] at h
  split at h
  · rename_i s₂ hread
    cases h
    obtain ⟨x, s₃, hframe, hread⟩ := run_bind_ok.mp hread
    obtain ⟨link, r, ha, hq, hlog, rfl, rfl, hmax⟩ := request_ok hg.quiet (by decide) hw hframe
    simp only [run_ite] at hread
    split at hread
    · rename_i hok
      cases hread
      have hreply : r = finishReply () := by
        obtain ⟨resp, body⟩ := r
        cases toU8_inj hok.1
        cases hok.2
        rfl
      rw [hreply] at hlog ha
      have hgood := hg.answered ha hq hlog hmax .finish
      obtain ⟨st', d', ht⟩ := hgood.traced
      exact ⟨hlog, st', d', ht.server, ht.run, ht.fits⟩
    · split at hread
      · cases hread
      · cases hread
  · cases h
  · cases h
  · cases h
  · cases h

/-! ## a run of successful emits -/

/-- the events were emitted one after the other, all with success -/
inductive Emitted : List Event → Session (.agent dataDir st d) → Prop
  | nil : Emitted [] (.opened _)
  | emit {es : List Event} {s s' : Session (.agent dataDir st d)} {e : Event} (h : Emitted es s)
      (hrun : (emit es.length e).run s = .ok () s') : Emitted (es ++ [e]) s'

/-- what the history has of the events -/
structure Sent (es : List Event) (s : Session (.agent dataDir st d)) : Prop where
  good : Good s
  writes : List.Forall₂ (Wrote s.link.log) es ((s.link.log.map Entry.exchange).filter isAppend)
  count : s.link.log.length ≤ 7 * es.length

theorem Wrote.mono {log log' : List Entry} {e : Event} {x : Exchange} (h : Wrote log e x)
    (hl : log ⊆ log') : Wrote log' e x := by
  obtain ⟨a, seq, hx, hm⟩ := h
  exact ⟨a, seq, hx, hm.mono hl⟩

theorem Emitted.sent {es : List Event} (h : Emitted es s) (hs : ∀ e ∈ es, e.Short) : Sent es s := by
  induction h with
  | nil =>
    refine ⟨⟨Client.start_right, Link.start_quiet _, ⟨st, d, start_traced⟩, fun x hx => ?_, rfl, rfl⟩,
      .nil, le_refl _⟩
    cases hx
  | @emit es s s' e _ hrun ih =>
    have hsent := ih fun x hx => hs x (List.mem_append_left _ hx)
    obtain ⟨hgood, names, x, hlog, hcount, hplain, hx⟩ :=
      emit_ok hsent.good (hs e (List.mem_append_right _ (List.mem_singleton_self e))) hrun
    have hap : isAppend x = true := by
      obtain ⟨a, seq, rfl, -⟩ := hx
      rfl
    have hnone : (names.map Entry.exchange).filter isAppend = [] := by
      rw [List.filter_eq_nil_iff]
      intro y hy hyp
      obtain ⟨z, hz, rfl⟩ := List.mem_map.mp hy
      rw [hplain z hz] at hyp
      cases hyp
    refine ⟨hgood, ?_, ?_⟩
    · have hlist : (s'.link.log.map Entry.exchange).filter isAppend
          = (s.link.log.map Entry.exchange).filter isAppend ++ [x] := by
        rw [hlog, List.map_append, List.map_append, List.filter_append, List.filter_append, hnone]
        show _ ++ ([] ++ [x].filter isAppend) = _
        rw [List.filter_cons_of_pos hap]
        rfl
      rw [hlist]
      refine List.rel_append (hsent.writes.imp fun _ _ hw => hw.mono ?_) (.cons hx .nil)
      rw [hlog]
      exact List.subset_append_left _ _
    · have hc := hsent.count
      rw [hlog, List.length_append, List.length_append, List.length_append, List.length_singleton,
        List.length_singleton]
      omega

end

/-! ## what the reader gives -/

/-- the level that a reader shows for the code of a severity -/
def Severity.stored : Severity → Dtj.Severity
  | .debug => .trace
  | .info => .debug
  | .warn => .info
  | .error => .warn
  | .fatal => .error

/-- the level of the same name -/
def Severity.named : Severity → Dtj.Severity
  | .debug => .debug
  | .info => .info
  | .warn => .warn
  | .error => .error
  | .fatal => .fatal

theorem fromU8_asU8 (s : Severity) : Dtj.Severity.fromU8 s.asU8 = .ok s.stored := by
  cases s <;> rfl

theorem stored_ne_named (s : Severity) : s.stored ≠ s.named := by
  cases s <;> exact fun h => by cases h

/-- the value that was read is the one that was passed -/
def ValueRead (rd : SessionReader) : Value → Dtj.Value → Prop
  | .bool b, v => v = .bool b
  | .int i, v => v = .i64 i
  | .uint u, v => v = .u64 u
  | .f32 bits, v => v = .f32 ⟨bits⟩
  | .f64 bits, v => v = .f64 ⟨bits⟩
  | .string s, v => ∃ id, v = .internedString id ∧ rd.dictionary.getName .string id = some s
  | .bytes bs, v => v = .bytes bs

/-- **an event of the journal is the one that was passed**, its severity apart -/
structure Read (rd : SessionReader) (e : Event) (r : EventRecord) : Prop where
  domain : rd.dictionary.getName .domain r.domainId = some e.domain
  category : rd.dictionary.getName .category r.categoryId = some e.category
  name : rd.dictionary.getName .eventName r.eventNameId = some e.name
  field : ∃ f, r.payload.fields = [f] ∧ rd.dictionary.getName .string f.nameId = some e.fieldName ∧
    ValueRead rd e.value f.value
  correlation : match e.correlation with
    | some c => rd.dictionary.getName .string r.correlationId = some c
    | none => r.correlationId = 0

theorem valueOf_plain {value : Value} {v : Dtj.Value} (hs : ∀ t, value ≠ .string t)
    (hl : value.Short) (h : valueOf value.typeTag value.encode = .ok v) (rd : SessionReader) :
    ValueRead rd value v := by
  have h8 : ∀ n : UInt64, UInt64.ofNat (leAt (le 8 n.toNat) 0 8) = n := fun n => by
    simpa using uint64_le n []
  have h4 : ∀ n : UInt32, UInt32.ofNat (leAt (le 4 n.toNat) 0 4) = n := fun n => by
    simpa using uint32_le n []
  cases value with
  | string t => exact absurd rfl (hs t)
  | bool b =>
    cases b
    · cases h
      rfl
    · cases h
      rfl
  | int i =>
    have hv : valueOf 0x03 (le 8 i.toUInt64.toNat) = .ok (.i64 i) := by
      simp only [valueOf, fixedOf, le_length, h8]
      rfl
    cases hv.symm.trans h
    rfl
  | uint u =>
    have hv : valueOf 0x05 (le 8 u.toNat) = .ok (.u64 u) := by
      simp only [valueOf, fixedOf, le_length, h8]
      rfl
    cases hv.symm.trans h
    rfl
  | f32 bits =>
    have hv : valueOf 0x06 (le 4 bits.toNat) = .ok (.f32 ⟨bits⟩) := by
      simp only [valueOf, fixedOf, le_length, f32At, h4]
      rfl
    cases hv.symm.trans h
    rfl
  | f64 bits =>
    have hv : valueOf 0x07 (le 8 bits.toNat) = .ok (.f64 ⟨bits⟩) := by
      simp only [valueOf, fixedOf, le_length, h8]
      rfl
    cases hv.symm.trans h
    rfl
  | bytes bs =>
    have hlt : bs.length < 2^31 := hl
    have hn : (UInt32.ofNat bs.length).toNat = bs.length := by
      rw [UInt32.toNat_ofNat']
      omega
    have hle : leAt (le 4 bs.length ++ bs) 0 4 = bs.length := leAt_head 4 _ _ (by omega)
    have hv : valueOf 0x0C (le 4 bs.length ++ bs) = .ok (.bytes bs) := by
      rw [show valueOf 0x0C (le 4 bs.length ++ bs) = bytesOf (le 4 bs.length ++ bs) by simp [valueOf],
        bytesOf, hle, List.length_append, le_length, if_neg (by omega), if_neg (by omega),
        List.drop_left' (le_length 4 _), List.take_length]
    rw [Value.encode, hn] at h
    cases hv.symm.trans h
    rfl

/-! ## the journal of a session -/

section
variable {dataDir : String} {st : AgentState} {d : Disk} {s s' : Session (.agent dataDir st d)}
  {req : OpenRequest} {header : FileHeader} {es : List Event}

/-- the file of a journal, as the agent has left it -/
def journal (s : Session (.agent dataDir st d)) (path : String) : Option Bytes :=
  s.link.server.bind fun s => s.2.files path

/-- the record of an event in the journal -/
theorem Wrote.read {l : Link (.agent dataDir st d)} {st' : AgentState} {d' : Disk} {e : Event}
    {x : Exchange} {rd : SessionReader} (h : Wrote l.log e x) (ht : Traced l st' d')
    (hx : x ∈ l.log.map Entry.exchange) (he : e.Short)
    (hrd : ∀ n ∈ (l.log.map Entry.exchange).filterMap Exchange.named,
      rd.dictionary.getName n.kind n.id = some n.name) :
    ∃ r, x.acked = some r ∧ Read rd e r ∧ r.severity = e.severity.stored := by
  obtain ⟨a, seq, rfl, hm⟩ := h
  obtain ⟨severity, value, hs, hv, hack⟩ := ht.acked hx
  have hname : ∀ {kind : DictKind} {name : String} {id : UInt32}, Named l.log kind (utf8 name) id →
      Short name → rd.dictionary.getName kind id = some name :=
    fun hn hlen => hrd _ (ht.named hn hlen)
  refine ⟨_, hack, ?_, ?_⟩
  · refine ⟨hname hm.domain he.domain, hname hm.category he.category, hname hm.name he.name,
      ⟨_, rfl, hname hm.fieldName he.fieldName, ?_⟩, ?_⟩
    · by_cases ht : ∃ t, e.value = .string t
      · obtain ⟨t, ht⟩ := ht
        have hh : Holds l.log a.typeTag a.valueBody (content e.value) := hm.value
        have hlen : e.value.Short := he.value
        rw [ht] at hh hlen ⊢
        obtain ⟨id, hn, htag, hbody⟩ := hh
        refine ⟨id, ?_, hname hn hlen⟩
        have h4 : UInt32.ofNat (leAt (le 4 id.toNat) 0 4) = id := by
          simpa using uint32_le id []
        have hval : valueOf 0x0B (le 4 id.toNat) = .ok (.internedString id) := by
          simp only [valueOf, fixedOf, le_length, h4]
          rfl
        rw [htag, hbody, hval] at hv
        cases hv
        rfl
      · have hh : Holds l.log a.typeTag a.valueBody (content e.value) := hm.value
        have hc : content e.value = .plain e.value.typeTag e.value.encode := by
          cases hev : e.value <;> first | rfl | exact absurd ⟨_, hev⟩ ht
        rw [hc] at hh
        rw [hh.1, hh.2] at hv
        exact valueOf_plain (fun t h => ht ⟨t, h⟩) he.value hv rd
    · have hcorr : Correlated l.log a.correlationId (e.correlation.map utf8) := hm.correlation
      cases hc : e.correlation with
      | none =>
        rw [hc] at hcorr
        exact hcorr
      | some c =>
        rw [hc] at hcorr
        exact hname hcorr (he.correlation c hc)
  · have hsev : a.severity = e.severity.asU8 := hm.severity
    rw [hsev, fromU8_asU8] at hs
    cases hs
    rfl

/-- what is found for every element -/
theorem forall₂_filterMap {α β γ : Type} {P : α → β → Prop} {Q : α → γ → Prop} {f : β → Option γ}
    {xs : List α} {ys : List β} (h : List.Forall₂ P xs ys)
    (hf : ∀ x ∈ xs, ∀ y ∈ ys, P x y → ∃ z, f y = some z ∧ Q x z) :
    List.Forall₂ Q xs (ys.filterMap f) := by
  induction h with
  | nil => exact .nil
  | @cons x y xs ys hxy _ ih =>
    obtain ⟨z, hz, hq⟩ := hf x (List.mem_cons_self ..) y (List.mem_cons_self ..) hxy
    rw [List.filterMap_cons_some hz]
    exact .cons hq <| ih fun x' hx' y' hy' =>
      hf x' (List.mem_cons_of_mem _ hx') y' (List.mem_cons_of_mem _ hy')

/-- only events are acknowledged as events -/
theorem filterMap_acked {xs : List Exchange} (h : ∀ x ∈ xs, Talk x) :
    xs.filterMap Exchange.acked = (xs.filter isAppend).filterMap Exchange.acked := by
  induction xs with
  | nil => rfl
  | cons x xs ih =>
    have ih := ih fun y hy => h y (List.mem_cons_of_mem _ hy)
    by_cases hx : isAppend x = true
    · rw [List.filter_cons_of_pos hx, List.filterMap_cons, List.filterMap_cons, ih]
    · have hnone : x.acked = none := by
        cases h x (List.mem_cons_self ..) with
        | intern kind name id => rfl
        | append a seq => exact absurd rfl hx
        | finish => rfl
      rw [List.filter_cons_of_neg hx, List.filterMap_cons_none hnone, ih]

/-- **The journal has every event, with its names, its value and its correlation, in their order;
its severity is one level lower** -/
theorem emitted_read (ho : Opened dataDir req header st d) (he : Emitted es s)
    (hc : (close es.length).run s = .ok () s') (hs : ∀ e ∈ es, e.Short)
    (hn : 7 * es.length + 1 < 2^32) :
    ∃ file rd, journal s' (joinPath dataDir req.fileName) = some file ∧
      SessionReader.open file = .ok rd ∧ rd.tornTail = false ∧
      List.Forall₂ (fun e r => Read rd e r ∧ r.severity = e.severity.stored) es rd.events := by
  have hsent := he.sent hs
  obtain ⟨st₁, d₁, ht⟩ := hsent.good.traced
  obtain ⟨hlog, st', d', ht'⟩ := close_ok hsent.good hc
  have hmap : s'.link.log.map Entry.exchange
      = s.link.log.map Entry.exchange ++ [⟨finishRequest, finishReply ()⟩] := by
    rw [hlog, List.map_append]
    rfl
  have hrun := ht'.run
  have hfits := ht'.fits
  rw [hmap] at hrun hfits
  have htalk : ∀ x ∈ s.link.log.map Entry.exchange, Talk x := fun x hx => by
    obtain ⟨y, hy, rfl⟩ := List.mem_map.mp hx
    exact hsent.good.talk y hy
  have hcount := hsent.count
  obtain ⟨file, rd, hfile, hread, htorn, hevents, hnames⟩ := finished_read ho hrun hfits rfl
    (fun x hx => (htalk x hx).resp_ne) (fun x hx => by
      rcases List.mem_append.mp hx with hx | hx
      · exact (htalk x hx).elsewhere _
      · rw [List.mem_singleton.mp hx]
        exact Talk.finish.elsewhere _) (by rw [List.length_map]; omega)
  refine ⟨file, rd, ?_, hread, htorn, ?_⟩
  · rw [journal, ht'.server]
    exact hfile
  · rw [hevents, filterMap_acked htalk]
    refine forall₂_filterMap hsent.writes fun e hem x hx hw => ?_
    exact hw.read ht (List.mem_of_mem_filter hx) (hs e hem) hnames

/-- the journal says what the caller passed -/
def Faithful (es : List Event) (file : Option Bytes) : Prop :=
  ∃ bytes rd, file = some bytes ∧ SessionReader.open bytes = .ok rd ∧
    List.Forall₂ (fun e r => Read rd e r ∧ r.severity = e.severity.named) es rd.events

/-- what a reader can give is short -/
theorem Read.short {rd : SessionReader} {cs : List Chunk} {e : Event} {r : EventRecord}
    (h : Read rd e r) (hw : WellFormed rd cs) (hr : r ∈ rd.events) : e.Short := by
  have hname : ∀ {kind : DictKind} {id : UInt32} {name : String},
      rd.dictionary.getName kind id = some name → Short name := by
    intro kind id name hn
    have hlen := (hw.ids _ ((hw.names kind id name).mp hn)).2
    exact lt_of_le_of_lt hlen (by norm_num)
  obtain ⟨f, hf, hfn, hv⟩ := h.field
  refine ⟨hname h.domain, hname h.category, hname h.name, hname hfn, ?_, fun c hc => ?_⟩
  · cases hval : e.value with
    | string t =>
      rw [hval] at hv
      obtain ⟨id, -, hn⟩ := hv
      exact hname hn
    | bytes bs =>
      rw [hval] at hv
      have hlen := (hw.payloads r hr).2.2 f (by rw [hf]; exact List.mem_singleton_self f)
      rw [show f.value = .bytes bs from hv] at hlen
      exact lt_of_le_of_lt hlen (by norm_num)
    | _ => trivial
  · have hcorr := h.correlation
    rw [hc] at hcorr
    exact hname hcorr

/-- **The journal of a session says what the caller passed only if nothing was emitted**: every
severity is stored one level lower -/
theorem faithful_iff (ho : Opened dataDir req header st d) (he : Emitted es s)
    (hc : (close es.length).run s = .ok () s') (hn : 7 * es.length + 1 < 2^32)
    (hfile : ∀ bytes, journal s' (joinPath dataDir req.fileName) = some bytes →
      bytes.length < 2^64) :
    Faithful es (journal s' (joinPath dataDir req.fileName)) ↔ es = [] := by
  constructor
  · rintro ⟨bytes, rd, hbytes, hread, hall⟩
    have hw := open_wellFormed (hfile bytes hbytes) hread
    have hshort : ∀ e ∈ es, e.Short := by
      intro e hem
      obtain ⟨k, hk, rfl⟩ := List.mem_iff_getElem.mp hem
      have hlen := hall.length_eq
      exact (hall.get hk (hlen ▸ hk)).1.short hw (List.getElem_mem (hlen ▸ hk))
    obtain ⟨bytes', rd', hbytes', hread', -, hall'⟩ := emitted_read ho he hc hshort hn
    cases hbytes.symm.trans hbytes'
    cases hread.symm.trans hread'
    generalize rd.events = evs at hall hall'
    cases hall with
    | nil => rfl
    | cons h _ =>
      cases hall' with
      | cons h' _ => exact absurd (h'.2.symm.trans h.2) (stored_ne_named _)
  · rintro rfl
    obtain ⟨bytes, rd, hbytes, hread, -, hall⟩ :=
      emitted_read ho he hc (fun e hem => by cases hem) hn
    cases hev : rd.events with
    | nil => exact ⟨bytes, rd, hbytes, hread, by rw [hev]; exact .nil⟩
    | cons r rs =>
      rw [hev] at hall
      cases hall

end

/-! ## two examples -/

/-- the file of the journal of `exampleAgent` -/
def exampleFile (s : Session exampleAgent) : Option Bytes := journal s (joinPath "d" "s")

/-- a session in which nothing is emitted -/
theorem faithful_none : ∃ s' bytes, (close 0).run (.opened exampleAgent) = .ok () s' ∧
    exampleFile s' = some bytes ∧ (Faithful [] (exampleFile s') ↔ ([] : List Event) = []) := by
  obtain ⟨req, header, hname, ho⟩ := example_opened
  have hrun : ((succeeded ((close 0).run (.opened exampleAgent))).bind fun x =>
      (exampleFile x.2).map List.length) = some 128 := by decide +kernel
  obtain ⟨⟨⟨⟩, s'⟩, hs, hfile⟩ := Option.bind_eq_some_iff.mp hrun
  obtain ⟨bytes, hbytes, hlen⟩ := Option.map_eq_some_iff.mp hfile
  refine ⟨s', bytes, succeeded_some hs, hbytes, ?_⟩
  have hiff := faithful_iff ho .nil (succeeded_some hs) (by decide) fun bytes' hb => by
    rw [hname] at hb
    cases hbytes.symm.trans hb
    rw [hlen]
    decide
  rw [hname] at hiff
  exact hiff

/-- an event with the U64 value 7 -/
def exampleEvent : Event := ⟨"net", "rx", "frame", .info, "raw", .uint 7, none⟩

/-- **An event of the level `Info` is read as one of the level `Debug`** -/
theorem severity_lowered : ∃ s s', (emit 0 exampleEvent).run (.opened exampleAgent) = .ok () s ∧
    (close 1).run s = .ok () s' ∧ ¬ Faithful [exampleEvent] (exampleFile s') := by
  obtain ⟨req, header, hname, ho⟩ := example_opened
  have hrun : (succeeded ((emit 0 exampleEvent >>= fun _ => close 1).run
      (.opened exampleAgent))).isSome := by decide +kernel
  obtain ⟨⟨⟨⟩, s'⟩, hs⟩ := Option.isSome_iff_exists.mp hrun
  obtain ⟨⟨⟩, s, hemit, hclose⟩ := run_bind_ok.mp (succeeded_some hs)
  have hshort : exampleEvent.Short := by
    refine ⟨?_, ?_, ?_, ?_, trivial, fun c hc => by cases hc⟩ <;> decide +kernel
  refine ⟨s, s', hemit, hclose, ?_⟩
  rintro ⟨bytes, rd, hbytes, hread, hall⟩
  obtain ⟨bytes', rd', hbytes', hread', -, hall'⟩ := emitted_read ho (.emit .nil hemit) hclose
    (fun e he => by rwa [List.mem_singleton.mp he]) (by decide)
  rw [hname] at hbytes'
  cases hbytes.symm.trans hbytes'
  cases hread.symm.trans hread'
  generalize rd.events = evs at hall hall'
  cases hall with
  | cons h _ =>
    cases hall' with
    | cons h' _ => exact stored_ne_named _ (h'.2.symm.trans h.2)

end Dtj.Sdk.Rust
