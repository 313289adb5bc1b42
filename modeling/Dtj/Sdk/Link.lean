import Dtj.Agent.Sessions

/-!
# A client and its agent: the bytes between them

The clients of the four SDKs send frames and read the bytes of the replies.  The agent answers the
requests that have arrived whole, each once and in their order; when the bytes of a reply arrive
is up to the client's network, so they are kept as `unread` until a client has read them.

* `Server`, `Link`        an agent, and a connection to it with the history of what it answered;
* `Link.send`             bytes are written: the frames that are now all there are answered;
* `Link.Quiet`            nothing is under way; `Link.send_cases`: what one request leads to then;
* `Named`, `Means`, `Recorded`   what the history says about a name, and about an event;
* `Server.agent`          `handle_client` as a `Server`.
-/

namespace Dtj.Sdk
open Wire Checked Agent

/-- **An agent as its clients see it**: a request is answered with a reply that fits into a frame,
or the connection ends -/
structure Server where
  State : Type
  start : State
  answer : State → Bytes → Option (State × Reply)
  fits : ∀ {s frame s' r}, answer s frame = some (s', r) → 1 + r.body.length ≤ maxFrameSize

/-- a request that was answered, and the call of the client that made it -/
structure Entry where
  caller : Nat
  exchange : Exchange
deriving DecidableEq

structure Link (S : Server) where
  server : S.State
  closed : Bool
  input : Bytes
  unread : Bytes
  log : List Entry

namespace Link
variable {S : Server}

def start (S : Server) : Link S := ⟨S.start, false, [], [], []⟩

/-- the agent has read a request -/
def answer (i : Nat) (frame : Bytes) (l : Link S) : Link S :=
  match S.answer l.server frame with
  | some (s, r) =>
    { l with server := s, unread := l.unread ++ r.bytes, log := l.log ++ [⟨i, ⟨frame, r⟩⟩] }
  | none => { l with closed := true }

/-- the agent reads the frames that are all there -/
def serve (i : Nat) : Nat → Link S → Link S
  | 0, l => l
  | n + 1, l =>
    if l.closed ∨ l.input.length < 4 then l
    else if leAt l.input 0 4 > maxFrameSize then { l with closed := true }
    else if l.input.length < 4 + leAt l.input 0 4 then l
    else serve i n <| answer i ((l.input.drop 4).take (leAt l.input 0 4))
      { l with input := l.input.drop (4 + leAt l.input 0 4) }

/-- the call `i` writes bytes -/
def send (i : Nat) (bytes : Bytes) (l : Link S) : Link S :=
  serve i (l.input.length + bytes.length) { l with input := l.input ++ bytes }

/-- nothing is under way, in neither direction -/
structure Quiet (l : Link S) : Prop where
  input : l.input = []
  unread : l.unread = []

theorem start_quiet (S : Server) : (start S).Quiet := ⟨rfl, rfl⟩

/-- what one request leads to while nothing is under way -/
inductive Sent (i : Nat) (frame : Bytes) (l : Link S) : Link S → Prop
  | answered {s r} (ha : S.answer l.server frame = some (s, r)) :
      Sent i frame l ⟨s, false, [], r.bytes, l.log ++ [⟨i, ⟨frame, r⟩⟩]⟩
  | ended (ha : S.answer l.server frame = none) : Sent i frame l ⟨l.server, true, [], [], l.log⟩

theorem serve_stopped {i n : Nat} {l : Link S} (h : l.closed = true ∨ l.input = []) :
    serve i n l = l := by
  cases n with
  | zero => rfl
  | succ n =>
    rw [serve, if_pos]
    rcases h with h | h
    · exact .inl h
    · exact .inr (by rw [h]; decide)

theorem send_cases {i : Nat} {frame : Bytes} {l : Link S} (hq : l.Quiet) (hc : l.closed = false)
    (hlen : frame.length ≤ maxFrameSize) : Sent i frame l (l.send i (frameBytes frame)) := by
  obtain ⟨server, closed, input, unread, log⟩ := l
  obtain ⟨hin, hun⟩ := hq
  cases hin
  cases hun
  cases hc
  have hmax : maxFrameSize = 1048576 := rfl
  have hfl : (frameBytes frame).length = 4 + frame.length := by
    rw [frameBytes, List.length_append, le_length]
  have hle : leAt (frameBytes frame) 0 4 = frame.length := leAt_head 4 _ _ (by omega)
  have htake : ((frameBytes frame).drop 4).take frame.length = frame := by
    rw [frameBytes, List.drop_left' (le_length 4 _), List.take_length]
  have hdrop : (frameBytes frame).drop (4 + frame.length) = [] :=
    List.drop_eq_nil_of_le (by rw [hfl])
  have hsend : send i (frameBytes frame) (⟨server, false, [], [], log⟩ : Link S)
      = serve i (3 + frame.length) (answer i frame ⟨server, false, [], [], log⟩) := by
    show serve i (0 + (frameBytes frame).length) ⟨server, false, frameBytes frame, [], log⟩ = _
    rw [hfl, show 0 + (4 + frame.length) = 3 + frame.length + 1 by omega, serve]
    rw [if_neg (by rw [hfl]; simp), hle, if_neg (by omega), if_neg (by rw [hfl]; omega), htake, hdrop]
  rw [hsend]
  cases ha : S.answer server frame with
  | none =>
    have hstop : answer i frame (⟨server, false, [], [], log⟩ : Link S)
        = ⟨server, true, [], [], log⟩ := by
      unfold answer
      rw [ha]
    rw [hstop, serve_stopped (.inl rfl)]
    exact .ended ha
  | some x =>
    obtain ⟨s, r⟩ := x
    have hstop : answer i frame (⟨server, false, [], [], log⟩ : Link S)
        = ⟨s, false, [], r.bytes, log ++ [⟨i, ⟨frame, r⟩⟩]⟩ := by
      unfold answer
      rw [ha]
      rfl
    rw [hstop, serve_stopped (.inr rfl)]
    exact .answered ha

end Link

/-! ## the bytes of frames -/

theorem frameBytes_inj {a b : Bytes} (h : frameBytes a = frameBytes b) : a = b := by
  have hd := congrArg (List.drop 4) h
  rwa [frameBytes, frameBytes, List.drop_left' (le_length 4 _), List.drop_left' (le_length 4 _)] at hd

section
variable (r : Reply)

theorem reply_bytes : r.bytes = le 4 (1 + r.body.length) ++ (r.resp.toU8 :: r.body) := by
  rw [Reply.bytes, List.append_assoc]
  rfl

theorem reply_length : r.bytes.length = 5 + r.body.length := by
  rw [reply_bytes, List.length_append, le_length, List.length_cons]
  omega

theorem reply_opcode : r.bytes.getD 4 0 = r.resp.toU8 := by
  rw [reply_bytes, List.getD_eq_getElem?_getD, List.getElem?_append_right (by rw [le_length]),
    le_length]
  rfl

theorem reply_body : r.bytes.drop 5 = r.body := by
  rw [reply_bytes, show 5 = (le 4 (1 + r.body.length)).length + 1 by rw [le_length],
    List.drop_append]
  rfl

theorem reply_head (h : 1 + r.body.length ≤ maxFrameSize) : leAt r.bytes 0 4 = 1 + r.body.length := by
  have hmax : maxFrameSize = 1048576 := rfl
  rw [reply_bytes]
  exact leAt_head 4 _ _ (by omega)

end

/-- replies are told apart by their opcodes -/
theorem toU8_inj {a b : Resp} (h : a.toU8 = b.toU8) : a = b := by
  cases a <;> cases b <;> first | rfl | exact absurd h (by decide)

/-! ## what the history says -/

/-- `Intern`, as all SDKs encode it -/
def internRequest (kind : DictKind) (name : Bytes) : Bytes :=
  Cmd.intern.toU8 :: kind.toU8 :: (le 2 name.length ++ name)

/-- the parts of `AppendEvent` with one field -/
structure Appended where
  monotonicNs : UInt64
  domainId : UInt32
  categoryId : UInt32
  eventNameId : UInt32
  correlationId : UInt32
  severity : UInt8
  fieldNameId : UInt32
  typeTag : UInt8
  valueBody : Bytes
deriving DecidableEq

/-- `AppendEvent`, as all SDKs encode it -/
def Appended.request (a : Appended) : Bytes :=
  Cmd.appendEvent.toU8 :: (le 8 a.monotonicNs.toNat ++ le 4 a.domainId.toNat ++
    le 4 a.categoryId.toNat ++ le 4 a.eventNameId.toNat ++ le 4 a.correlationId.toNat ++
    [a.severity] ++ le 2 1 ++ le 4 a.fieldNameId.toNat ++ [a.typeTag, 0, 0, 0] ++ a.valueBody)

theorem Appended.request_length (a : Appended) : a.request.length = 36 + a.valueBody.length := by
  simp only [Appended.request, List.length_append, le_length, List.length_cons, List.length_nil]
  omega

def finishRequest : Bytes := [Cmd.finishSession.toU8]

/-- the value of a field, in UTF-8 or encoded with its type tag -/
inductive Content where
  | text (s : Bytes)
  | plain (tag : UInt8) (body : Bytes)
deriving DecidableEq

/-- **what a caller says with an event**, its names in UTF-8 -/
structure Said where
  domain : Bytes
  category : Bytes
  name : Bytes
  severity : UInt8
  fieldName : Bytes
  value : Content
  correlation : Option Bytes
deriving DecidableEq

/-- the agent has assigned the id to the name -/
def Named (log : List Entry) (kind : DictKind) (name : Bytes) (id : UInt32) : Prop :=
  ∃ x ∈ log, x.exchange = ⟨internRequest kind name, internReply id⟩

/-- a value, in the ids that the agent assigned -/
def Holds (log : List Entry) (tag : UInt8) (body : Bytes) : Content → Prop
  | .text s => ∃ id, Named log .string s id ∧ tag = 0x0B ∧ body = le 4 id.toNat
  | .plain tag' body' => tag = tag' ∧ body = body'

/-- a correlation, whose id is 0 if there is none -/
def Correlated (log : List Entry) (id : UInt32) : Option Bytes → Prop
  | some name => Named log .string name id
  | none => id = 0

/-- the request says what the caller said, in the ids that the agent assigned -/
structure Means (log : List Entry) (e : Said) (a : Appended) : Prop where
  domain : Named log .domain e.domain a.domainId
  category : Named log .category e.category a.categoryId
  name : Named log .eventName e.name a.eventNameId
  severity : a.severity = e.severity
  fieldName : Named log .string e.fieldName a.fieldNameId
  value : Holds log a.typeTag a.valueBody e.value
  correlation : Correlated log a.correlationId e.correlation

/-- the request is an `AppendEvent` -/
def isAppend (x : Exchange) : Bool := x.frame.head? == some Cmd.appendEvent.toU8

/-- the events that a call has sent -/
def appends (log : List Entry) (i : Nat) : List Exchange :=
  (log.filter fun x => x.caller = i ∧ isAppend x.exchange).map Entry.exchange

/-- **the event of the call was acknowledged, exactly once, with what its caller said** -/
def Recorded (log : List Entry) (i : Nat) (e : Said) (seq : UInt64) : Prop :=
  ∃ a, appends log i = [⟨a.request, appendReply seq⟩] ∧ Means log e a

section
variable {log log' : List Entry} {i : Nat}

theorem Named.mono {kind : DictKind} {name : Bytes} {id : UInt32} (h : Named log kind name id)
    (hl : log ⊆ log') : Named log' kind name id := by
  obtain ⟨x, hx, he⟩ := h
  exact ⟨x, hl hx, he⟩

theorem Holds.mono {tag : UInt8} {body : Bytes} {c : Content} (h : Holds log tag body c)
    (hl : log ⊆ log') : Holds log' tag body c := by
  cases c with
  | text s =>
    obtain ⟨id, hn, hv⟩ := h
    exact ⟨id, hn.mono hl, hv⟩
  | plain tag' body' => exact h

theorem Correlated.mono {id : UInt32} {c : Option Bytes} (h : Correlated log id c)
    (hl : log ⊆ log') : Correlated log' id c := by
  cases c with
  | some name => exact Named.mono h hl
  | none => exact h

theorem Means.mono {e : Said} {a : Appended} (h : Means log e a) (hl : log ⊆ log') :
    Means log' e a where
  domain := h.domain.mono hl
  category := h.category.mono hl
  name := h.name.mono hl
  severity := h.severity
  fieldName := h.fieldName.mono hl
  value := h.value.mono hl
  correlation := h.correlation.mono hl

theorem appends_append (log log' : List Entry) (i : Nat) :
    appends (log ++ log') i = appends log i ++ appends log' i := by
  rw [appends, List.filter_append, List.map_append]
  rfl

/-- other calls, and requests that are no events -/
theorem appends_none (h : ∀ x ∈ log, x.caller ≠ i ∨ isAppend x.exchange = false) :
    appends log i = [] := by
  rw [appends, List.map_eq_nil_iff, List.filter_eq_nil_iff]
  intro x hx hf
  obtain ⟨hi, hap⟩ := of_decide_eq_true hf
  rcases h x hx with hn | hn
  · exact hn hi
  · rw [hn] at hap
    cases hap

theorem appends_self (i : Nat) (a : Appended) (r : Reply) :
    appends [⟨i, ⟨a.request, r⟩⟩] i = [⟨a.request, r⟩] := by
  unfold appends
  rw [List.filter_cons_of_pos (by simp; rfl)]
  rfl

/-- a call that has sent one event at most has sent the one that was answered -/
theorem sent_once {a : Appended} {r : Reply} (h : (appends log i).length ≤ 1)
    (hm : ⟨i, ⟨a.request, r⟩⟩ ∈ log) : appends log i = [⟨a.request, r⟩] := by
  have hmem : (⟨a.request, r⟩ : Exchange) ∈ appends log i :=
    List.mem_map.mpr ⟨_, List.mem_filter.mpr ⟨hm, by simp; rfl⟩, rfl⟩
  obtain ⟨x, hx⟩ := List.length_eq_one_iff.mp (Nat.le_antisymm h (List.length_pos_of_mem hmem))
  rw [hx] at hmem ⊢
  rw [List.mem_singleton.mp hmem]

/-- what a call has recorded stays recorded while other calls go on -/
theorem Recorded.mono {e : Said} {seq : UInt64} (h : Recorded log i e seq) {more : List Entry}
    (hm : ∀ x ∈ more, x.caller ≠ i) : Recorded (log ++ more) i e seq := by
  obtain ⟨a, ha, hmeans⟩ := h
  refine ⟨a, ?_, hmeans.mono (List.subset_append_left _ _)⟩
  rw [appends_append, ha, appends_none fun x hx => .inl (hm x hx), List.append_nil]

instance (log : List Entry) (kind : DictKind) (name : Bytes) (id : UInt32) :
    Decidable (Named log kind name id) :=
  inferInstanceAs (Decidable (∃ x ∈ log, x.exchange = ⟨internRequest kind name, internReply id⟩))

theorem isAppend_intern (kind : DictKind) (name : Bytes) (r : Reply) :
    isAppend ⟨internRequest kind name, r⟩ = false := rfl

end

/-! ## the agent of the repository -/

/-- an answer that no client takes for a frame is taken for the end of the connection -/
def fitting {α : Type} (s : α) (r : Reply) : Option (α × Reply) :=
  if 1 + r.body.length ≤ maxFrameSize then some (s, r) else none

theorem fitting_some {α : Type} {s s' : α} {r r' : Reply} (h : fitting s r = some (s', r')) :
    s' = s ∧ r' = r ∧ 1 + r.body.length ≤ maxFrameSize := by
  unfold fitting at h
  split at h
  · rename_i hlen
    cases h
    exact ⟨rfl, rfl, hlen⟩
  · cases h

/-- `handle_client`, until it returns -/
def Server.agent (dataDir : String) (st : AgentState) (d : Disk) : Server where
  State := Option (AgentState × Disk)
  start := some (st, d)
  answer
    | none, _ => none
    | some s, frame =>
      match (handle dataDir frame).run s with
      | .ok r s => fitting (some s) r
      | .error (.error (.again text)) s => fitting (some s) ⟨.error, text⟩
      | .error (.error (.close text)) _ => fitting none ⟨.error, text⟩
      | .error _ _ => none
  fits := by
    intro s frame s' r h
    have hfit : ∀ {t : Option (AgentState × Disk)} {q : Reply}, fitting t q = some (s', r) →
        1 + r.body.length ≤ maxFrameSize := by
      intro t q hq
      obtain ⟨-, rfl, hlen⟩ := fitting_some hq
      exact hlen
    cases s with
    | none => cases h
    | some s =>
      dsimp only at h
      split at h
      · exact hfit h
      · exact hfit h
      · exact hfit h
      · cases h

/-- an agent that has opened a session, on a disk without files -/
def exampleAgent : Server :=
  let opened := serve "d" [helloFrame, openFrame "s"] (.new .default) exampleDisk
  .agent "d" opened.state opened.disk

end Dtj.Sdk
