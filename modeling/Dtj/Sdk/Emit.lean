import Dtj.Core.Mixed
import Dtj.Journal.Atomic
import Dtj.Lib.Settle
import Dtj.Lib.Text
import Dtj.Sdk.Values

/-!
# The TypeScript SDK: events that are accepted

`TraceSession.emit` in a session whose calls are made one after the other, with `handle_client` at
the other end of the socket.  Replies come in any pieces, and an agent that has returned closes the
connection.

* `request_settles`     one request: its reply, or the end of the connection;
* `Live`                the session and the writer of its agent: what is cached is known there;
* `getOrIntern_settles`, `emit_settles`   **how the calls end**;
* `Accepts`, `emits_accepted_iff`         the events that are accepted.
-/

namespace Dtj.Sdk.TypeScript
open Wire Checked Agent Conc Code

/-! ## one request -/

section
variable {S : Server} {α : Type} {i : Nat} {s s' : Session S}

/-- no reply is awaited, and promises that were settled are those of requests -/
structure Calm (s : Session S) : Prop extends s.Idle where
  ids : ∀ x ∈ s.results, x.1 < s.requests.length

/-- the session after a request: only the connection has changed -/
structure Heard (s : Session S) (link : Link S) (s' : Session S) : Prop where
  calm : Calm s'
  client : s'.toClient = { s.toClient with link := link }
  socket : s'.socket = s.socket

/-- a promise of the session `s` is the only one, and it is not settled -/
structure Pending (id : Nat) (got : Bytes) (s : Session S) : Prop where
  readers : s.readers = [⟨id, got⟩]
  last : id < s.requests.length
  fresh : ∀ x ∈ s.results, x.1 < id
  input : s.link.input = []

theorem Pending.lookup {id : Nat} {got : Bytes} (h : Pending id got s) : s.results.lookup id = none := by
  rw [List.lookup_eq_none_iff]
  intro x hx
  exact bne_iff_ne.mpr (Nat.ne_of_gt (h.fresh x hx))

/-- the promise is settled -/
theorem Pending.settled {id : Nat} {got : Bytes} (h : Pending id got s) (x : Except TsError Bytes) :
    (s.results ++ [(id, x)]).lookup id = some x ∧
      ∀ y ∈ s.results ++ [(id, x)], y.1 < s.requests.length := by
  constructor
  · rw [List.lookup_append, h.lookup, Option.none_or, List.lookup_cons_self]
  · intro y hy
    rcases List.mem_append.mp hy with hy | hy
    · exact (h.fresh y hy).trans h.last
    · rw [List.mem_singleton.mp hy]
      exact h.last

variable {Q : Except TsError α → Session S → Prop}

/-- **the reply comes in any pieces** -/
theorem readFrame_settles {id : Nat} {reply : Reply} {k : Bytes → Call S α} (n : Nat) {s : Session S}
    {got : Bytes} (hn : s.link.unread.length ≤ n) (h : Pending id got s) (hopen : s.link.closed = false)
    (hun : s.link.unread ≠ []) (hbytes : got ++ s.link.unread = reply.bytes)
    (hfit : 1 + reply.body.length ≤ maxFrameSize)
    (hok : ∀ s', Heard s { s.link with unread := [] } s' → (k reply.bytes).run.Settles occur Q s') :
    (readFrame id >>= k).run.Settles occur Q s := by
  induction n generalizing s got with
  | zero => exact absurd (List.eq_nil_of_length_eq_zero (Nat.le_zero.mp hn)) hun
  | succ n ih =>
  have hwait : (s.results.lookup id).map (fun x => (x, s)) = none := by
    rw [h.lookup]
    rfl
  refine atom_waits hwait ⟨.data 1, s.data 1, if_pos ⟨Nat.one_pos, hun⟩⟩ fun e s₁ he => ?_
  have hends : ∀ e' : TsError, ¬ (if s.link.closed = true ∧ s.link.unread = [] then
      some (s.reject e') else none) = some s₁ := by
    intro e' he'
    rw [if_neg (fun hc => hun hc.2)] at he'
    cases he'
  cases e with
  | error message => exact absurd he (hends _)
  | close => exact absurd he (hends _)
  | data m =>
  simp only [occur] at he
  split at he
  swap
  · cases he
  rename_i hm
  cases he
  have hparts : got ++ s.link.unread.take m ++ s.link.unread.drop m = reply.bytes := by
    rw [List.append_assoc, List.take_append_drop, hbytes]
  have hdata : s.data m = Session.onData (s.link.unread.take m) { s with
      link := { s.link with unread := s.link.unread.drop m }
      readers := []
      lost := s.lost ++ [] } ⟨id, got⟩ := by
    simp only [Session.data, h.readers]
    rfl
  have hlen : (s.link.unread.drop m).length < s.link.unread.length := by
    have hpos := List.length_pos_of_ne_nil hun
    rw [List.length_drop]
    omega
  rcases onData_reply _ hparts hfit with ⟨hrest, hpiece⟩ | ⟨hrest, hwhole⟩
  · rw [hdata, hpiece]
    refine ih (s := { s with
      link := { s.link with unread := s.link.unread.drop m }
      readers := [] ++ [⟨id, got ++ s.link.unread.take m⟩]
      lost := s.lost ++ [] }) (by show (s.link.unread.drop m).length ≤ n; omega)
      ⟨rfl, h.last, h.fresh, h.input⟩ hopen hrest hparts fun s' hs' => ?_
    exact hok s' ⟨hs'.calm, hs'.client, hs'.socket⟩
  · rw [hdata, hwhole]
    obtain ⟨hlook, hids⟩ := h.settled (.ok reply.bytes)
    refine atom_settles (congrArg (Option.map _) hlook) (hok _ ⟨⟨⟨rfl, h.input, hrest⟩, hids⟩, ?_, rfl⟩)
    show (⟨{ s.link with unread := s.link.unread.drop m }, s.closed, s.cache⟩ : Client S Str) = _
    rw [hrest]

/-- the connection has ended: the promise is rejected -/
theorem readFrame_rejected {id : Nat} {k : Bytes → Call S α} (h : Pending id [] s)
    (hclosed : s.link.closed = true) (hun : s.link.unread = [])
    (herr : ∀ e s', Heard s s.link s' → Q (.error e) s') :
    (readFrame id >>= k).run.Settles occur Q s := by
  have hwait : (s.results.lookup id).map (fun x => (x, s)) = none := by
    rw [h.lookup]
    rfl
  have hreject : ∀ e : TsError, (readFrame id >>= k).run.Settles occur Q (s.reject e) := by
    intro e
    obtain ⟨hlook, hids⟩ := h.settled (.error e)
    have hresults : (s.reject e).results = s.results ++ [(id, .error e)] := by
      rw [Session.reject, h.readers]
      rfl
    refine atom_settles_error (e := e) (by rw [hresults, hlook]; rfl) ?_
    refine herr e _ ⟨⟨⟨rfl, h.input, hun⟩, ?_⟩, rfl, rfl⟩
    rw [hresults]
    exact hids
  refine atom_waits hwait ⟨.close, _, if_pos ⟨hclosed, hun⟩⟩ fun e s₁ he => ?_
  cases e with
  | data m =>
    simp only [occur] at he
    rw [if_neg (fun hm => hm.2 hun)] at he
    cases he
  | error message =>
    simp only [occur] at he
    rw [if_pos ⟨hclosed, hun⟩] at he
    cases he
    exact hreject _
  | close =>
    simp only [occur] at he
    rw [if_pos ⟨hclosed, hun⟩] at he
    cases he
    exact hreject _

/-- **one request of a call that is alone** -/
theorem request_settles {frame : Bytes} {k : UInt8 × Bytes → Call S α} (h : Calm s)
    (hopen : s.link.closed = false) (hsocket : s.socket = true) (hlen : frame.length ≤ maxFrameSize)
    (hok : ∀ st r s', S.answer s.link.server frame = some (st, r) →
      Heard s ⟨st, false, [], [], s.link.log ++ [⟨i, ⟨frame, r⟩⟩]⟩ s' →
      (k (r.resp.toU8, r.body)).run.Settles occur Q s')
    (hend : ∀ e s', S.answer s.link.server frame = none →
      Heard s ⟨s.link.server, true, [], [], s.link.log⟩ s' → Q (.error e) s') :
    (write i (frameBytes frame) >>= fun id => readFrame id >>= fun response =>
      checked (decodeFrame response) >>= k).run.Settles occur Q s := by
  have hfresh : ∀ link : Link S, link.input = [] → Pending s.requests.length [] { s with
      link := link
      readers := s.readers ++ [⟨s.requests.length, []⟩]
      requests := s.requests ++ [(i, frameBytes frame)] } := fun link hin =>
    ⟨by rw [h.readers]; rfl, by simp, h.ids, hin⟩
  refine atom_settles (by rw [if_pos hsocket]) ?_
  rw [Session.written, if_neg (by rw [hopen]; exact Bool.false_ne_true)]
  have hcases := Link.send_cases (i := i) h.quiet hopen hlen
  generalize s.link.send i (frameBytes frame) = link at hcases
  cases hcases with
  | @answered st r ha =>
    have hfit := S.fits ha
    have hne : r.bytes ≠ [] := by
      intro h0
      have hlen0 := reply_length r
      rw [h0, List.length_nil] at hlen0
      omega
    refine readFrame_settles _ (le_refl _) (hfresh _ rfl) rfl hne rfl hfit fun s' hs' => ?_
    rw [decodeFrame_reply hfit]
    exact hok st r s' ha ⟨hs'.calm, hs'.client, hs'.socket⟩
  | ended ha =>
    exact readFrame_rejected (hfresh _ rfl) rfl rfl fun e s' hs' =>
      hend e s' ha ⟨hs'.calm, hs'.client, hs'.socket⟩

end

/-! ## what the agent answers -/

/-- a name as a text -/
def text (name : Str) : String := String.ofList (chars name)

theorem utf8_text (name : Str) : utf8 (text name) = encode name := (encode_eq name).symm

theorem text_ne {name : Str} (h : name ≠ []) : text name ≠ "" := by
  intro h0
  refine h (chars_eq_nil ?_)
  have hnil := congrArg String.toList h0
  rwa [text, String.toList_ofList] at hnil

/-- what the writer knew is known, and its session goes on -/
structure Since (w w' : SessionWriter) : Prop where
  going : w'.finished = false
  idOf : ∀ kind name id, w.dictionary.idOf kind name = some id → w'.dictionary.idOf kind name = some id

theorem Since.refl {w : SessionWriter} (h : w.finished = false) : Since w w := ⟨h, fun _ _ _ hid => hid⟩

section
variable {w w' : SessionWriter} {d d' : Disk}

theorem intern_since (ho : w.finished = false) (kind : DictKind) (name : String) :
    Since w (stateOf ((SessionWriter.intern kind name).run (w, d))).1 := by
  have hkept := (Dictionary.intern_idOf w.dictionary kind name).1
  rw [intern_run ho]
  cases hr : (Dictionary.intern kind name).run w.dictionary with
  | error a dict =>
    rw [hr] at hkept
    exact ⟨ho, hkept⟩
  | ok x dict =>
    obtain ⟨id, newly⟩ := x
    rw [hr] at hkept
    cases newly <;> exact ⟨ho, hkept⟩

theorem intern_gives (ho : w.finished = false) {kind : DictKind} {name : String} {id : UInt32}
    (h : (SessionWriter.intern kind name).run (w, d) = .ok id (w', d')) :
    w'.dictionary.idOf kind name = some id := by
  have hgives := (Dictionary.intern_idOf w.dictionary kind name).2
  rw [intern_run ho] at h
  cases hr : (Dictionary.intern kind name).run w.dictionary with
  | error a dict =>
    rw [hr] at h
    cases h
  | ok x dict =>
    obtain ⟨id', newly⟩ := x
    rw [hr] at h
    cases newly <;> cases h <;> exact hgives _ _ _ hr

theorem intern_again (ho : w.finished = false) {kind : DictKind} {name : String} {id : UInt32}
    (hid : w.dictionary.idOf kind name = some id) (hlen : (utf8 name).length ≤ 1024) :
    (SessionWriter.intern kind name).run (w, d) = .ok id (w, d) := by
  rw [intern_run ho, Dictionary.intern_known hid hlen]
  rfl

theorem append_since (ho : w.finished = false) (flushEvery : Bool) (ev : AppendEvent) :
    Since w (stateOf ((appendFlush flushEvery ev).run (w, d))).1 := by
  have hflush : Spares (fun w : SessionWriter => (w.dictionary, w.finished)) (logged SessionWriter.flushChunk) := by
    intro w d
    have hleaves := @Aside.flush _ (fun w : SessionWriter => (w.dictionary, w.finished))
      (fun _ _ _ _ _ => rfl) w d
    show (fun w : SessionWriter => (w.dictionary, w.finished)) (stateOf (logged SessionWriter.flushChunk (w, d))).1 = _
    rw [← hleaves]
    unfold logged
    split
    · rename_i hr
      rw [hr]
      rfl
    · rfl
  have hall : Spares (fun w : SessionWriter => (w.dictionary, w.finished)) (appendFlush flushEvery ev) := by
    refine (append_spares ev).bind fun seq => ?_
    cases flushEvery with
    | true => exact hflush.bind fun _ => spares_pure _
    | false => exact spares_pure _
  obtain ⟨hdict, hfin⟩ := Prod.mk.inj (hall w d)
  exact ⟨hfin.trans ho, fun kind name id h => by rw [hdict]; exact h⟩

end

section
variable {dataDir : String} {st₀ st : AgentState} {d₀ d : Disk} {w : SessionWriter} {config : Config}

/-- the agent has a session open, with that writer -/
structure Writes (config : Config) (st : AgentState) (w : SessionWriter) : Prop where
  opened : st.helloDone = true ∧ st.sessionOpened = true
  writer : st.writer = some w
  config : st.config = config
  going : w.finished = false

/-- a request that is a call of the writer -/
structure Called {α : Type} (st : AgentState) (ok : α → Reply) (bad : String)
    (ran : EStateM.Result (Abort Error) (SessionWriter × Disk) α)
    (answer : Option (Option (AgentState × Disk) × Reply)) : Prop where
  taken : ∀ a w d, ran = .ok a (w, d) → answer = fitting (some ({ st with writer := some w }, d)) (ok a)
  refused : ∀ e w d, ran = .error (.error e) (w, d) →
    answer = fitting (some ({ st with writer := some w }, d)) ⟨.error, utf8 (bad ++ debug e)⟩
  ended : ∀ a s, ran = .error a s → (∀ e, a ≠ .error e) → answer = none

theorem answer_called {α : Type} {frame : Bytes} {p : WriterM α} {ok : α → Reply} {bad : String}
    (h : (handle dataDir frame).run (st, d) = (callWriter w p ok bad).run (st, d)) :
    Called st ok bad (p.run (w, d)) ((Server.agent dataDir st₀ d₀).answer (some (st, d)) frame) := by
  unfold callWriter EStateM.run at h
  constructor
  · intro a w' d' hr
    unfold EStateM.run at hr
    simp only [hr] at h
    simp only [Server.agent, EStateM.run, h]
  · intro e w' d' hr
    unfold EStateM.run at hr
    simp only [hr] at h
    simp only [Server.agent, EStateM.run, h]
  · intro a s hr hne
    unfold EStateM.run at hr
    cases a with
    | error e => exact absurd rfl (hne e)
    | panic =>
      simp only [hr] at h
      simp only [Server.agent, EStateM.run, h]
    | diverge =>
      simp only [hr] at h
      simp only [Server.agent, EStateM.run, h]

theorem answer_refused {frame text : Bytes}
    (h : (handle dataDir frame).run (st, d) = .error (.error (.again text)) (st, d)) :
    (Server.agent dataDir st₀ d₀).answer (some (st, d)) frame = fitting (some (st, d)) ⟨.error, text⟩ := by
  simp only [Server.agent, h]

/-- **what a request of a call does**: the writer takes it, it is refused, or the agent returns -/
inductive Answers {α : Type} (config : Config) (w : SessionWriter) (d : Disk) (p : WriterM α) (ok : α → Reply) :
    Option (Option (AgentState × Disk) × Reply) → Prop
  | taken {a : α} {st' : AgentState} {w' : SessionWriter} {d' : Disk} (hrun : p.run (w, d) = .ok a (w', d'))
      (hw : Writes config st' w') (hs : Since w w') :
      Answers config w d p ok (some (some (st', d'), ok a))
  | refused {st' : AgentState} {w' : SessionWriter} {d' : Disk} {text : Bytes} (hrun : ∀ a s, p.run (w, d) ≠ .ok a s)
      (hw : Writes config st' w') (hs : Since w w') :
      Answers config w d p ok (some (some (st', d'), ⟨.error, text⟩))
  | ended (hrun : ∀ a s, p.run (w, d) ≠ .ok a s) : Answers config w d p ok none

theorem Writes.answers {α : Type} (hw : Writes config st w) {frame : Bytes} {p : WriterM α} {ok : α → Reply}
    {bad : String} (h : (handle dataDir frame).run (st, d) = (callWriter w p ok bad).run (st, d))
    (hs : Since w (stateOf (p.run (w, d))).1) (hok : ∀ a, 1 + (ok a).body.length ≤ maxFrameSize) :
    Answers config w d p ok ((Server.agent dataDir st₀ d₀).answer (some (st, d)) frame) := by
  have hcalled := @answer_called dataDir st₀ st d₀ d w α frame p ok bad h
  cases hr : p.run (w, d) with
  | ok a s =>
    obtain ⟨w', d'⟩ := s
    rw [hr] at hs
    rw [hcalled.taken a w' d' hr, fitting, if_pos (hok a)]
    exact .taken hr ⟨hw.opened, rfl, hw.config, hs.going⟩ hs
  | error a s =>
    obtain ⟨w', d'⟩ := s
    rw [hr] at hs
    have hno : ∀ a s, p.run (w, d) ≠ .ok a s := by
      intro a' s' hrun
      rw [hr] at hrun
      cases hrun
    cases a with
    | error e =>
      rw [hcalled.refused e w' d' hr]
      unfold fitting
      split
      · exact .refused hno ⟨hw.opened, rfl, hw.config, hs.going⟩ hs
      · exact .ended hno
    | panic =>
      rw [hcalled.ended _ _ hr fun e he => by cases he]
      exact .ended hno
    | diverge =>
      rw [hcalled.ended _ _ hr fun e he => by cases he]
      exact .ended hno

/-- **`Intern`**: an empty name is refused -/
theorem Writes.intern (hw : Writes config st w) {kind : DictKind} {name : Str}
    (hlen : (encode name).length ≤ 1024) :
    (name ≠ [] → Answers config w d (SessionWriter.intern kind (text name)) internReply
      ((Server.agent dataDir st₀ d₀).answer (some (st, d)) (internRequest kind (encode name)))) ∧
    (name = [] → ∃ text, (Server.agent dataDir st₀ d₀).answer (some (st, d))
      (internRequest kind (encode name)) = fitting (some (st, d)) ⟨.error, text⟩) := by
  have hbody : (handle dataDir (internRequest kind (encode name))).run (st, d)
      = (Agent.intern (internBody kind.toU8 (encode name))).run (st, d) := rfl
  have hmod : (encode name).length % 2^16 = (encode name).length := Nat.mod_eq_of_lt (by omega)
  obtain ⟨hcall, hno⟩ := @intern_past (internBody kind.toU8 (encode name)) st d w hw.opened hw.writer
  constructor
  · intro hne
    have hparse : parseIntern (internBody kind.toU8 (encode name)) = .ok (kind.toU8, text name) := by
      rw [intern_accepted, utf8_text, hmod, List.take_length]
      exact ⟨rfl, text_ne hne, hlen, rfl, rfl⟩
    refine hw.answers (hbody.trans (hcall _ _ kind hparse (kindOf_toU8 kind)))
      (intern_since hw.going kind _) fun id => ?_
    rw [internReply, le_length]
    decide
  · rintro rfl
    have hrefused : ¬ internPast (internBody kind.toU8 (encode ([] : Str))) := by
      rintro ⟨k, name, kind', hp, -⟩
      rw [intern_accepted] at hp
      obtain ⟨-, hne, -, hzero, -⟩ := hp
      exact hne (utf8_eq_nil.mp (List.eq_nil_of_length_eq_zero hzero))
    obtain ⟨text, htext⟩ := hno hrefused
    exact ⟨text, answer_refused (hbody.trans htext)⟩

/-- **`AppendEvent`** -/
theorem Writes.append (hw : Writes config st w) {a : Appended} (hlen : a.request.length ≤ maxFrameSize)
    {ev : AppendEvent} (hev : parseAppend a.request.tail = .ok ev) :
    Answers config w d (appendFlush config.flushEveryEvent ev) appendReply
      ((Server.agent dataDir st₀ d₀).answer (some (st, d)) a.request) := by
  have hmax : maxFrameSize = 1048576 := rfl
  have htail : a.request.tail.length < 2^63 := by
    rw [List.length_tail]
    omega
  have hbody : (handle dataDir a.request).run (st, d) = (appendEvent a.request.tail).run (st, d) := rfl
  have hrun := hbody.trans ((append_past htail hw.opened hw.writer).1 ev hev)
  rw [hw.config] at hrun
  refine hw.answers hrun (append_since hw.going _ ev) fun seq => ?_
  rw [appendReply, le_length]
  decide

end

/-! ## the session and its agent -/

section
variable {dataDir : String} {st₀ st' : AgentState} {d₀ d d' : Disk} {w w' : SessionWriter}
  {config : Config} {i : Nat} {s s' : Session (.agent dataDir st₀ d₀)}

/-- the writer has the name under the id -/
structure Known (w : SessionWriter) (kind : DictKind) (name : Str) (id : UInt32) : Prop where
  nonempty : name ≠ []
  length : (encode name).length ≤ 1024
  idOf : w.dictionary.idOf kind (text name) = some id

theorem Known.since {kind : DictKind} {name : Str} {id : UInt32} (h : Known w kind name id)
    (hs : Since w w') : Known w' kind name id := ⟨h.nonempty, h.length, hs.idOf _ _ _ h.idOf⟩

/-- **an open session between two requests**, and the writer of its agent -/
structure Live (config : Config) (w : SessionWriter) (d : Disk) (s : Session (.agent dataDir st₀ d₀)) :
    Prop where
  calm : Calm s
  connected : s.link.closed = false
  socket : s.socket = true
  going : s.closed = false
  server : ∃ st, s.link.server = some (st, d) ∧ Writes config st w
  right : s.Right (some ∘ encode)
  known : ∀ kind name id, s.cache kind name = some id → Known w kind name id

/-- the agent has returned, or the session goes on -/
def Alive (config : Config) (i : Nat) (s : Session (.agent dataDir st₀ d₀)) : Prop :=
  s.link.closed = false → (∀ x ∈ s.link.log, x.caller ≤ i) ∧ ∃ w d, Live config w d s

theorem Heard.link {link : Link (.agent dataDir st₀ d₀)} (h : Heard s link s') : s'.link = link :=
  congrArg Client.link h.client

theorem Heard.cache {link : Link (.agent dataDir st₀ d₀)} (h : Heard s link s') : s'.cache = s.cache := by
  rw [h.client]

/-- a request was answered -/
theorem Live.heard (h : Live config w d s) {more : List Entry}
    (hh : Heard s ⟨some (st', d'), false, [], [], s.link.log ++ more⟩ s') (hw : Writes config st' w')
    (hs : Since w w') : Live config w' d' s' where
  calm := hh.calm
  connected := by rw [hh.link]
  socket := hh.socket.trans h.socket
  going := by
    rw [hh.client]
    exact h.going
  server := ⟨st', by rw [hh.link], hw⟩
  right := by
    rw [hh.client]
    exact h.right.more (List.subset_append_left _ _)
  known := fun kind name id hid => by
    rw [hh.cache] at hid
    exact (h.known kind name id hid).since hs

theorem alive_ended {link : Link (.agent dataDir st₀ d₀)} (h : Heard s link s') (hc : link.closed = true) :
    Alive config i s' := by
  intro ho
  rw [h.link, hc] at ho
  cases ho

/-- the requests of a call, and what was there before -/
theorem within {c₀ c : Client (.agent dataDir st₀ d₀) Str} (h : Interned (some ∘ encode) i c₀ c)
    (hc : ∀ x ∈ c₀.link.log, x.caller ≤ i) : ∀ x ∈ c.link.log, x.caller ≤ i := by
  obtain ⟨new, hlog, hnew⟩ := h.later.log
  intro x hx
  rw [hlog] at hx
  rcases List.mem_append.mp hx with hx | hx
  · exact hc x hx
  · exact le_of_eq (hnew x hx).1

/-- the last request was refused -/
theorem Live.alive (h : Live config w d s) {x : Exchange} (hlog : ∀ x ∈ s.link.log, x.caller ≤ i)
    (hh : Heard s ⟨some (st', d'), false, [], [], s.link.log ++ [⟨i, x⟩]⟩ s') (hw : Writes config st' w')
    (hs : Since w w') : Alive config i s' := by
  intro _
  refine ⟨fun y hy => ?_, w', d', h.heard hh hw hs⟩
  rw [hh.link] at hy
  rcases List.mem_append.mp hy with hy | hy
  · exact hlog y hy
  · rw [List.mem_singleton.mp hy]

theorem expect_refused {S : Server} {β : Type} {s : Session S} {Q : Except TsError β → Session S → Prop}
    {resp : Resp} {what ok : String} {body : Bytes} {k : Bytes → Call S β}
    (h : ∀ e, Q (.error e) s) :
    (expect resp what ok (Resp.error.toU8, body) >>= k).run.Settles occur Q s := by
  unfold expect
  rw [if_pos rfl]
  exact .done (h _)

theorem expect_taken {S : Server} {resp : Resp} (hresp : resp ≠ .error) {what ok : String} {body : Bytes} :
    (expect resp what ok (resp.toU8, body) : Call S Bytes) = pure body := by
  unfold expect
  rw [if_neg (fun he => hresp (toU8_inj he)), if_neg (not_not.mpr rfl)]

theorem encodeIntern_short {kind : DictKind} {name : Str} (hlen : (encode name).length ≤ 1024) :
    encodeIntern kind name = .ok (frameBytes (internRequest kind (encode name))) := by
  have hmax : maxFrameSize = 1048576 := rfl
  rw [encodeIntern, if_neg (by omega), encodeFrame, if_neg]
  · rfl
  · simp only [List.length_cons, List.length_append, le_length]
    omega

theorem internRequest_length (kind : DictKind) (name : Bytes) :
    (internRequest kind name).length = 4 + name.length := by
  simp only [internRequest, List.length_cons, List.length_append, le_length]
  omega

variable {α : Type} {Q : Except TsError α → Session (.agent dataDir st₀ d₀) → Prop}

/-- a name is cached -/
theorem Live.remember (h : Live config w d s) {kind : DictKind} {name : Str} {id : UInt32}
    (hk : Known w kind name id) (hn : Named s.link.log kind (encode name) id) :
    Live config w d { s with toClient := s.remember kind name id } where
  calm := ⟨⟨h.calm.readers, h.calm.quiet⟩, h.calm.ids⟩
  connected := h.connected
  socket := h.socket
  going := h.going
  server := h.server
  right := h.right.remember rfl hn
  known := fun kind' name' id' hid => by
    change (if kind' = kind ∧ name' = name then some id else s.cache kind' name') = some id' at hid
    split at hid
    · rename_i hsame
      cases hid
      rw [hsame.1, hsame.2]
      exact hk
    · exact h.known kind' name' id' hid

theorem decodeInternOk_reply (id : UInt32) : decodeInternOk (internReply id).body = .ok id := by
  rw [decodeInternOk, internReply, if_neg (by rw [le_length]; decide)]
  congr 1
  have h := uint32_le id []
  rwa [List.append_nil] at h

/-- **a name that is cached, interned or refused**: the call ends as the writer of the agent says -/
theorem getOrIntern_settles {c₀ : Client (.agent dataDir st₀ d₀) Str} {kind : DictKind} {name : Str}
    {k : UInt32 → Call (.agent dataDir st₀ d₀) α} (h : Live config w d s)
    (hi : Interned (some ∘ encode) i c₀ s.toClient) (hc₀ : ∀ x ∈ c₀.link.log, x.caller ≤ i)
    (hok : ∀ id w' d' s', Known w' kind name id →
      (SessionWriter.intern kind (text name)).run (w, d) = .ok id (w', d') → Live config w' d' s' →
      Interned (some ∘ encode) i c₀ s'.toClient → s.link.log ⊆ s'.link.log →
      Named s'.link.log kind (encode name) id → (k id).run.Settles occur Q s')
    (herr : ∀ e s', Alive config i s' → (name ≠ [] → (encode name).length ≤ 1024 →
      ∀ id t, (SessionWriter.intern kind (text name)).run (w, d) ≠ .ok id t) → Q (.error e) s') :
    (getOrIntern i kind name >>= k).run.Settles occur Q s := by
  have halive : Alive config i s := fun _ => ⟨within hi hc₀, w, d, h⟩
  obtain ⟨st, hserver, hw⟩ := h.server
  unfold getOrIntern
  rw [bind_assoc]
  refine state_settles ?_
  cases hc : s.cache kind name with
  | some id =>
    obtain ⟨bytes, he, hn⟩ := h.right kind name id hc
    cases he
    have hknown := h.known kind name id hc
    exact hok id w d s hknown (intern_again hw.going hknown.idOf (by rw [utf8_text]; exact hknown.length))
      h hi (List.Subset.refl _) hn
  | none =>
  dsimp only
  rw [if_neg (by rw [h.socket]; decide)]
  simp only [bind_assoc]
  by_cases hlen : (encode name).length ≤ 1024
  swap
  · refine checked_settles (fun bytes hb => ?_) fun e _ => herr e s halive fun _ hshort => absurd hshort hlen
    rw [encodeIntern, if_pos (by omega)] at hb
    cases hb
  rw [encodeIntern_short hlen]
  refine checked_settles (fun bytes hb => ?_) fun e he => by cases he
  cases hb
  have hmax : maxFrameSize = 1048576 := rfl
  obtain ⟨hcall, hempty⟩ := @Writes.intern dataDir st₀ st d₀ d w config hw kind name hlen
  rw [← hserver] at hcall hempty
  refine request_settles h.calm h.connected h.socket (by rw [internRequest_length]; omega)
    (fun st' r s' ha hh => ?_) fun e s' ha hh => ?_
  · by_cases hne : name = []
    · obtain ⟨text, htext⟩ := hempty hne
      rw [htext] at ha
      obtain ⟨rfl, rfl, -⟩ := fitting_some ha
      rw [hserver] at hh
      exact expect_refused fun e => herr e s' (h.alive (within hi hc₀) hh hw (.refl hw.going))
        fun hne' => absurd hne hne'
    · have hans := hcall hne
      rw [ha] at hans
      generalize hx : some (st', r) = x at hans
      cases hans with
      | ended => cases hx
      | refused hrun hw' hs =>
        cases hx
        exact expect_refused fun e => herr e s' (h.alive (within hi hc₀) hh hw' hs)
          fun _ _ => hrun
      | @taken id st₁ w₁ d₁ hrun hw' hs =>
        cases hx
        have hlive := h.heard hh hw' hs
        have hknown : Known w₁ kind name id :=
          ⟨hne, hlen, intern_gives hw.going hrun⟩
        have hnamed : Named s'.link.log kind (encode name) id := by
          rw [hh.link]
          exact ⟨_, List.mem_append_right _ (List.mem_singleton_self _), rfl⟩
        have hi' : Interned (some ∘ encode) i c₀ s'.toClient := by
          rw [hh.client]
          exact hi.answered ⟨rfl, rfl⟩ rfl
        rw [show (internReply id).resp = .internOk from rfl, expect_taken (by decide), pure_bind,
          decodeInternOk_reply]
        refine checked_settles (fun id' he => ?_) fun e he => by cases he
        cases he
        refine change_settles ?_
        rw [pure_bind]
        refine hok id w₁ d₁ _ hknown hrun (hlive.remember hknown hnamed) (hi'.remember rfl hnamed) ?_ hnamed
        show s.link.log ⊆ s'.link.log
        rw [hh.link]
        exact List.subset_append_left _ _
  · refine herr e s' (alive_ended hh rfl) fun hne _ id t hrun => ?_
    have hans := hcall hne
    rw [ha] at hans
    cases hans with
    | ended hno => exact hno id t hrun

end

/-! ## the values of the core -/

/-- the severity of the core with the same number -/
def Severity.core : Severity → Dtj.Severity
  | .debug => .trace
  | .info => .debug
  | .warn => .info
  | .error => .warn
  | .fatal => .error

/-- a value of the core; there is none for a string, and for a number that is not finite -/
def TsValue.core : TsValue → Option Value
  | .boolean b => some (.bool b)
  | .bigint v => some (.i64 (Int64.ofInt v))
  | .number bits =>
    if isFinite bits then
      match integer bits with
      | some v =>
        if -(2^63) ≤ v ∧ v ≤ 2^63 - 1 then some (.i64 (Int64.ofInt v)) else some (.f64 ⟨bits⟩)
      | none => some (.f64 ⟨bits⟩)
    else none
  | .string _ => none
  | .uint8Array bs => some (.bytes bs)
  | .other _ => none

theorem Severity.core_number (severity : Severity) :
    Severity.fromU8 (severityFromString severity) = .ok severity.core := by
  cases severity <;> rfl

/-- `encodeValue` is the encoding of the core -/
theorem encodeValue_core (x : TsValue) :
    (encodeValue x).toOption = x.core.map fun v => (v.tag, v.raw) := by
  have hint : ∀ n : Int, some ((0x03 : UInt8), le 8 (n % 2^64).toNat)
      = (some (Value.i64 (Int64.ofInt n))).map fun v => (v.tag, v.raw) := by
    intro n
    rw [i64_bytes]
    rfl
  cases x with
  | boolean b => rfl
  | bigint n => exact hint n
  | number bits =>
    rw [encodeValue, TsValue.core]
    cases isFinite bits with
    | false => rfl
    | true =>
      cases integer bits with
      | none => rfl
      | some n =>
        dsimp only
        by_cases hrange : -(2^63) ≤ n ∧ n ≤ 2^63 - 1
        · rw [if_pos hrange, if_pos hrange]
          exact hint n
        · rw [if_neg hrange, if_neg hrange]
          rfl
  | string s => rfl
  | uint8Array bs => rfl
  | other typeof => rfl

/-- **the agent reads the value of the core** -/
theorem core_valueOf {x : TsValue} {v : Value} (h : x.core = some v) (hlen : v.raw.length < 2^32) :
    valueOf v.tag v.raw = .ok v := by
  by_cases hfit : v.Fits
  · exact valueOf_raw hfit
  · cases v with
    | bytes bs =>
      rw [Value.raw, List.length_append, le_length] at hlen
      exact bytes_value (by omega)
    | _ => exact absurd (Nat.zero_le _) hfit

/-! ## the events that are accepted -/

/-- a name that the interface allows -/
def Nameable (name : Str) : Prop := name ≠ [] ∧ (encode name).length ≤ 1024

/-- a value that the interface allows -/
def TsValue.Allowed : TsValue → Prop
  | .bigint v => -(2^63) ≤ v ∧ v < 2^63
  | .uint8Array bs => bs.length ≤ 4096
  | .other _ => False
  | _ => True

/-- a `TraceEvent`, with or without a correlation -/
structure Allowed (e : Event) : Prop where
  domain : Nameable e.domain
  category : Nameable e.category
  name : Nameable e.name
  fieldName : Nameable e.fieldName
  value : e.value.Allowed
  correlation : ∀ c, e.correlation = some c → Nameable c

def TsValue.meant : TsValue → Option Content
  | .string s => some (.text (encode s))
  | value => content value

/-- what is to be recorded: a string as a text, and no correlation if there is none -/
def Event.meant (e : Event) : Option Said := e.value.meant.map fun value =>
  ⟨encode e.domain, encode e.category, encode e.name, severityFromString e.severity,
    encode e.fieldName, value, e.correlation.map encode⟩

/-- the event and its names, in the writer of the agent -/
def taking (flushEvery : Bool) (e : Event) (correlation : Str) (value : Value) (monotonicNs : UInt64) :
    WriterM UInt64 := do
  let domainId ← SessionWriter.intern .domain (text e.domain)
  let categoryId ← SessionWriter.intern .category (text e.category)
  let eventNameId ← SessionWriter.intern .eventName (text e.name)
  let correlationId ← SessionWriter.intern .string (text correlation)
  let fieldNameId ← SessionWriter.intern .string (text e.fieldName)
  appendFlush flushEvery ⟨monotonicNs, domainId, categoryId, eventNameId, correlationId,
    e.severity.core, ⟨[⟨fieldNameId, value⟩]⟩⟩

/-- the call succeeds -/
def Takes {α : Type} (p : WriterM α) (w : SessionWriter) (d : Disk) : Prop :=
  ∃ a s, p.run (w, d) = .ok a s

/-- **there is a correlation, the value is not a string and not an infinite number, and the writer takes
the event** -/
def Accepts (config : Config) (w : SessionWriter) (d : Disk) (e : Event) (monotonicNs : UInt64) : Prop :=
  ∃ correlation value, e.correlation = some correlation ∧ e.value.core = some value ∧
    Takes (taking config.flushEveryEvent e correlation value monotonicNs) w d

section
variable {α β : Type} {w w' : SessionWriter} {d d' : Disk} {p : WriterM α} {f : α → WriterM β}

theorem takes_next {a : α} (h : p.run (w, d) = .ok a (w', d')) :
    Takes (p >>= f) w d ↔ Takes (f a) w' d' := by
  rw [Takes, Takes, EStateM.run_bind, h]

theorem takes_not (h : ∀ a s, p.run (w, d) ≠ .ok a s) : ¬ Takes (p >>= f) w d := by
  rintro ⟨b, s, hrun⟩
  obtain ⟨a, s₁, hp, -⟩ := run_bind_ok.mp hrun
  exact h a s₁ hp

end

theorem core_length {x : TsValue} {v : Value} (h : x.core = some v) (ha : x.Allowed) :
    v.raw.length ≤ 4100 := by
  have hint : ∀ n : Int64, (Value.i64 n).raw.length = 8 := fun n => le_length ..
  have hdouble : ∀ bits, (Value.f64 ⟨bits⟩).raw.length = 8 := fun bits => le_length ..
  cases x with
  | boolean b =>
    cases h
    cases b <;> decide
  | bigint n =>
    cases h
    rw [hint]
    decide
  | number bits =>
    rw [TsValue.core] at h
    split at h
    · split at h
      · split at h
        · cases h
          rw [hint]
          decide
        · cases h
          rw [hdouble]
          decide
      · cases h
        rw [hdouble]
        decide
    · cases h
  | string s => cases h
  | uint8Array bs =>
    cases h
    have hbs : bs.length ≤ 4096 := ha
    rw [Value.raw, List.length_append, le_length]
    omega
  | other typeof => cases h

section
variable {dataDir : String} {st₀ : AgentState} {d₀ d : Disk} {w : SessionWriter} {config : Config}
  {i : Nat} {s : Session (.agent dataDir st₀ d₀)} {e : Event} {monotonicNs : UInt64}

/-- how an `emit` ends: an event that the interface allows is recorded or refused -/
def Ends (config : Config) (i : Nat) (w : SessionWriter) (d : Disk) (e : Event) (monotonicNs : UInt64)
    (x : Except TsError Unit) (s : Session (.agent dataDir st₀ d₀)) : Prop :=
  Alive config i s ∧ (Allowed e →
    (Accepts config w d e monotonicNs → x = .ok () ∧
      ∃ said seq, e.meant = some said ∧ Recorded s.link.log i said seq) ∧
    (¬ Accepts config w d e monotonicNs → ∃ err, x = .error err))

/-- the event itself, when its names have ids -/
theorem append_settles {c₀ : Client (.agent dataDir st₀ d₀) Str} {a : Appended} {value : Value}
    {said : Said} {Q : Except TsError Unit → Session (.agent dataDir st₀ d₀) → Prop}
    (h : Live config w d s) (hi : Interned (some ∘ encode) i c₀ s.toClient)
    (hc₀ : ∀ x ∈ c₀.link.log, x.caller < i) (hm : Means s.link.log said a)
    (hlen : a.request.length ≤ maxFrameSize) {severity : Dtj.Severity}
    (hs : Severity.fromU8 a.severity = .ok severity) (hv : valueOf a.typeTag a.valueBody = .ok value)
    (hok : ∀ s' seq, Alive config i s' →
      Takes (appendFlush config.flushEveryEvent (a.event severity value)) w d →
      Recorded s'.link.log i said seq → Q (.ok ()) s')
    (herr : ∀ err s', Alive config i s' →
      ¬ Takes (appendFlush config.flushEveryEvent (a.event severity value)) w d → Q (.error err) s') :
    (write i (frameBytes a.request) >>= fun id => readFrame id >>= fun response =>
      checked (decodeFrame response) >>= fun reply =>
      expect .appendEventOk "AppendEvent" "AppendEventOk" reply >>= fun body =>
      checked (decodeAppendEventOk body) >>= fun _ => pure ()).run.Settles occur Q s := by
  have hmax : maxFrameSize = 1048576 := rfl
  have hlog := within hi fun x hx => le_of_lt (hc₀ x hx)
  obtain ⟨st, hserver, hw⟩ := h.server
  have hparse : parseAppend a.request.tail = .ok (a.event severity value) :=
    (parseAppend_request (by rw [List.length_tail]; omega)).mpr ⟨severity, value, hs, hv, rfl⟩
  have hcall := @Writes.append dataDir st₀ st d₀ d w config hw a hlen _ hparse
  rw [← hserver] at hcall
  refine request_settles h.calm h.connected h.socket hlen (fun st' r s' ha hh => ?_) fun err s' ha hh => ?_
  · rw [ha] at hcall
    generalize hx : some (st', r) = x at hcall
    cases hcall with
    | ended => cases hx
    | refused hrun hw' hs' =>
      cases hx
      exact expect_refused fun err => herr err s' (h.alive hlog hh hw' hs') fun ⟨b, t, ht⟩ => hrun b t ht
    | @taken seq st₁ w₁ d₁ hrun hw' hs' =>
      cases hx
      have hdecode : decodeAppendEventOk (appendReply seq).body = .ok seq := by
        have hle := uint64_le seq []
        rw [List.append_nil] at hle
        rw [decodeAppendEventOk, appendReply, if_neg (by rw [le_length]; decide), hle]
      rw [show (appendReply seq).resp = .appendEventOk from rfl, expect_taken (by decide), pure_bind, hdecode]
      refine .done (hok s' seq (h.alive hlog hh hw' hs') ⟨seq, _, hrun⟩ ?_)
      rw [hh.link]
      exact hi.recorded (appends_none fun x hx => .inl (Nat.ne_of_lt (hc₀ x hx))) hm
  · rw [ha] at hcall
    cases hcall with
    | ended hrun => exact herr err s' (alive_ended hh rfl) fun ⟨b, t, ht⟩ => hrun b t ht

/-- **how an `emit` ends** -/
theorem emit_settles (h : Live config w d s) (hfresh : ∀ x ∈ s.link.log, x.caller < i) :
    (emit i e monotonicNs).run.Settles occur (Ends config i w d e monotonicNs) s := by
  have herr : ∀ err (s' : Session (.agent dataDir st₀ d₀)), Alive config i s' →
      (Allowed e → ¬ Accepts config w d e monotonicNs) →
      Ends config i w d e monotonicNs (.error err) s' := fun err s' ha hno =>
    ⟨ha, fun hp => ⟨fun hacc => absurd hacc (hno hp), fun _ => ⟨err, rfl⟩⟩⟩
  have hi₀ : Interned (some ∘ encode) i s.toClient s.toClient := .start h.right h.calm.quiet
  have hc₀ : ∀ x ∈ s.toClient.link.log, x.caller ≤ i := fun x hx => le_of_lt (hfresh x hx)
  unfold emit
  refine state_settles ?_
  rw [if_neg (by rw [h.going]; decide), if_neg (by rw [h.socket]; decide)]
  refine getOrIntern_settles h hi₀ hc₀ (fun domainId w₁ d₁ s₁ _ r₁ h₁ hi₁ _ hd => ?_)
    fun err s' ha hno => herr err s' ha ?_
  swap
  · rintro hp ⟨c, v, -, -, htakes⟩
    exact takes_not (hno hp.domain.1 hp.domain.2) htakes
  refine getOrIntern_settles h₁ hi₁ hc₀ (fun categoryId w₂ d₂ s₂ _ r₂ h₂ hi₂ l₂ hcat => ?_)
    fun err s' ha hno => herr err s' ha ?_
  swap
  · rintro hp ⟨c, v, -, -, htakes⟩
    exact takes_not (hno hp.category.1 hp.category.2) ((takes_next r₁).mp htakes)
  refine getOrIntern_settles h₂ hi₂ hc₀ (fun eventNameId w₃ d₃ s₃ _ r₃ h₃ hi₃ l₃ hname => ?_)
    fun err s' ha hno => herr err s' ha ?_
  swap
  · rintro hp ⟨c, v, -, -, htakes⟩
    exact takes_not (hno hp.name.1 hp.name.2) ((takes_next r₂).mp ((takes_next r₁).mp htakes))
  have t₃ : ∀ c v, Takes (taking config.flushEveryEvent e c v monotonicNs) w d ↔ _ := fun c v =>
    (takes_next r₁).trans ((takes_next r₂).trans (takes_next r₃))
  refine getOrIntern_settles h₃ hi₃ hc₀ (fun correlationId w₄ d₄ s₄ hk₄ r₄ h₄ hi₄ l₄ hcorr => ?_)
    fun err s' ha hno => herr err s' ha ?_
  swap
  · rintro hp ⟨c, v, hc, -, htakes⟩
    have hcname := hp.correlation c hc
    rw [hc] at hno
    exact takes_not (hno hcname.1 hcname.2) ((t₃ c v).mp htakes)
  -- a name that the agent has taken is not empty
  obtain ⟨c, hc⟩ : ∃ c, e.correlation = some c := by
    cases hc : e.correlation with
    | some c => exact ⟨c, rfl⟩
    | none =>
      rw [hc] at hk₄
      exact absurd rfl hk₄.nonempty
  rw [hc] at r₄ hcorr
  refine getOrIntern_settles h₄ hi₄ hc₀ (fun fieldNameId w₅ d₅ s₅ _ r₅ h₅ hi₅ l₅ hf => ?_)
    fun err s' ha hno => herr err s' ha ?_
  swap
  · rintro hp ⟨c', v, hc', -, htakes⟩
    cases hc.symm.trans hc'
    exact takes_not (hno hp.fieldName.1 hp.fieldName.2) ((takes_next r₄).mp ((t₃ c v).mp htakes))
  have halive : Alive config i s₅ := fun _ => ⟨within hi₅ hc₀, w₅, d₅, h₅⟩
  have hcore := encodeValue_core e.value
  refine checked_settles (fun x hx => ?_) fun err hx => herr err s₅ halive ?_
  swap
  · rintro hp ⟨c', v, -, hv, -⟩
    rw [hx, hv] at hcore
    cases hcore
  rw [hx] at hcore
  obtain ⟨v, hv, hvx⟩ := Option.map_eq_some_iff.mp hcore.symm
  cases hvx
  have hmax : maxFrameSize = 1048576 := rfl
  refine checked_settles (fun bytes hb => ?_) fun err hb => herr err s₅ halive ?_
  swap
  · rintro hp -
    have hshort := core_length hv hp.value
    rw [encodeAppendEvent, encodeFrame, if_neg] at hb
    · cases hb
    · rw [List.length_tail, Appended.request_length]
      dsimp only
      omega
  obtain ⟨rfl, hlen⟩ := encodeAppendEvent_ok hb
  have hraw : v.raw.length < 2^32 := by
    rw [Appended.request_length] at hlen
    dsimp only at hlen
    omega
  have l₃₅ := List.Subset.trans l₄ l₅
  have l₂₅ := List.Subset.trans l₃ l₃₅
  have hall := (t₃ c v).trans ((takes_next r₄).trans (takes_next r₅))
  have haccepts : Accepts config w d e monotonicNs ↔ Takes (appendFlush config.flushEveryEvent ⟨monotonicNs,
      domainId, categoryId, eventNameId, correlationId, e.severity.core, ⟨[⟨fieldNameId, v⟩]⟩⟩) w₅ d₅ := by
    constructor
    · rintro ⟨c', v', hc', hv', ht⟩
      cases hc.symm.trans hc'
      cases hv.symm.trans hv'
      exact hall.mp ht
    · exact fun ht => ⟨c, v, hc, hv, hall.mpr ht⟩
  have hmeant : e.meant = some ⟨encode e.domain, encode e.category, encode e.name,
      severityFromString e.severity, encode e.fieldName, .plain v.tag v.raw, some (encode c)⟩ := by
    have hcontent : content e.value = some (.plain v.tag v.raw) := by
      rw [content, hx]
      rfl
    have hvalue : e.value.meant = some (.plain v.tag v.raw) := by
      cases he : e.value with
      | string t =>
        rw [he] at hx
        cases hx
      | _ => rw [← hcontent, he]; rfl
    rw [Event.meant, hvalue, hc]
    rfl
  have hmeans : Means s₅.link.log ⟨encode e.domain, encode e.category, encode e.name,
      severityFromString e.severity, encode e.fieldName, .plain v.tag v.raw, some (encode c)⟩
      ⟨monotonicNs, domainId, categoryId, eventNameId, correlationId, severityFromString e.severity,
        fieldNameId, v.tag, v.raw⟩ := {
    domain := hd.mono (List.Subset.trans l₂ l₂₅)
    category := hcat.mono l₂₅
    name := hname.mono l₃₅
    severity := rfl
    fieldName := hf
    value := ⟨rfl, rfl⟩
    correlation := hcorr.mono l₅ }
  refine append_settles h₅ hi₅ hfresh hmeans hlen e.severity.core_number (core_valueOf hv hraw)
    (fun s' seq ha ht hrec => ⟨ha, fun _ => ⟨fun _ => ⟨rfl, _, seq, hmeant, hrec⟩, fun hno => ?_⟩⟩)
    fun err s' ha hno => herr err s' ha fun _ hacc => hno (haccepts.mp hacc)
  exact absurd (haccepts.mpr ht) hno

end

/-! ## events one after the other -/

/-- **`n` events were emitted, one after the other**, each with the agent still there; what they were,
and how they ended, does not matter -/
inductive Used (dataDir : String) (st₀ : AgentState) (d₀ : Disk) :
    Nat → Session (.agent dataDir st₀ d₀) → Prop
  | opened : Used dataDir st₀ d₀ 0 (.opened _)
  | emit {n : Nat} {s s' : Session (.agent dataDir st₀ d₀)} {e : Event} {monotonicNs : UInt64}
      {x : Except TsError Unit} (h : Used dataDir st₀ d₀ n s) (connected : s.link.closed = false)
      (ends : (emit n e monotonicNs).run.Reaches occur x s' s) : Used dataDir st₀ d₀ (n + 1) s'

section
variable {dataDir : String} {st₀ : AgentState} {d₀ d : Disk} {w w₀ : SessionWriter} {config : Config}
  {n : Nat} {s : Session (.agent dataDir st₀ d₀)} {e : Event} {monotonicNs : UInt64}

theorem opened_live (hw : Writes config st₀ w₀) :
    Live config w₀ d₀ (.opened (.agent dataDir st₀ d₀)) where
  calm := ⟨⟨rfl, Link.start_quiet _⟩, fun x hx => by cases hx⟩
  connected := rfl
  socket := rfl
  going := rfl
  server := ⟨st₀, rfl, hw⟩
  right := Client.start_right
  known := fun kind name id hid => by cases hid

theorem Used.live (hw : Writes config st₀ w₀) (h : Used dataDir st₀ d₀ n s)
    (connected : s.link.closed = false) :
    (∀ x ∈ s.link.log, x.caller < n) ∧ ∃ w d, Live config w d s := by
  induction h with
  | opened => exact ⟨fun x hx => (by cases hx), w₀, d₀, opened_live hw⟩
  | emit h hc ends ih =>
    obtain ⟨hfresh, w, d, hlive⟩ := ih hc
    obtain ⟨hcallers, hlive'⟩ := ((emit_settles hlive hfresh).reaches ends).1 connected
    exact ⟨fun x hx => Nat.lt_succ_of_le (hcallers x hx), hlive'⟩

/-- the event is recorded, whatever the environment does -/
def Recordable (n : Nat) (e : Event) (monotonicNs : UInt64) (s : Session (.agent dataDir st₀ d₀)) : Prop :=
  (emit n e monotonicNs).run.Settles occur (fun x s' => x = .ok () ∧
    ∃ said seq, e.meant = some said ∧ Recorded s'.link.log n said seq) s

theorem recordable_iff (h : Live config w d s) (hfresh : ∀ x ∈ s.link.log, x.caller < n)
    (ha : Allowed e) : Recordable n e monotonicNs s ↔ Accepts config w d e monotonicNs := by
  have hends := @emit_settles dataDir st₀ d₀ d w config n s e monotonicNs h hfresh
  constructor
  · intro hrec
    obtain ⟨x, s', -, ⟨hx, -⟩, -, hdone⟩ := hrec.both hends
    by_contra hno
    obtain ⟨err, herr⟩ := (hdone ha).2 hno
    rw [hx] at herr
    cases herr
  · exact fun hacc => hends.mono fun x s' hx => (hx.2 ha).1 hacc

/-- **Which events `emit` accepts**: those with a correlation, whose value is neither a string nor an
infinite number, as long as the writer of the agent takes them -/
theorem emits_accepted_iff (hw : Writes config st₀ w₀) (h : Used dataDir st₀ d₀ n s)
    (connected : s.link.closed = false) (ha : Allowed e) :
    ∃ st w d, s.link.server = some (st, d) ∧ st.writer = some w ∧
      (Recordable n e monotonicNs s ↔ Accepts config w d e monotonicNs) := by
  obtain ⟨hfresh, w, d, hlive⟩ := h.live hw connected
  obtain ⟨st, hserver, hst⟩ := hlive.server
  exact ⟨st, w, d, hserver, hst.writer, recordable_iff hlive hfresh ha⟩

end

/-! ## an event without a correlation -/

instance (name : Str) : Decidable (Nameable name) := inferInstanceAs (Decidable (_ ∧ _))

theorem example_writes : ∃ config w, Writes config
    (serve "d" [helloFrame, openFrame "s"] (.new .default) exampleDisk).state w := by
  have hwriter : ((serve "d" [helloFrame, openFrame "s"] (.new .default) exampleDisk).state.writer.map
      SessionWriter.finished) = some false := by decide +kernel
  obtain ⟨w, hw, hgoing⟩ := Option.map_eq_some_iff.mp hwriter
  exact ⟨_, w, by decide +kernel, hw, rfl, hgoing⟩

theorem example_allowed {correlation : Option Str} (h : ∀ c, correlation = some c → Nameable c) :
    Allowed { exampleEvent "net" with correlation := correlation } := by
  have hnames : ∀ name ∈ ["net", "rx", "frame", "len"], Nameable (ascii name) := by decide
  exact {
    domain := hnames "net" (by decide)
    category := hnames "rx" (by decide)
    name := hnames "frame" (by decide)
    fieldName := hnames "len" (by decide)
    value := by show -(2^63) ≤ (7 : Int) ∧ (7 : Int) < 2^63; decide
    correlation := h }

/-- the first event of a session -/
theorem emits_accepted_first : ∃ config st w d, (Session.opened exampleAgent).link.server = some (st, d) ∧
    st.writer = some w ∧ (Recordable 0 (exampleEvent "net") 7 (.opened exampleAgent) ↔
      Accepts config w d (exampleEvent "net") 7) := by
  obtain ⟨config, w, hw⟩ := example_writes
  refine ⟨config, emits_accepted_iff hw .opened rfl (example_allowed fun c hc => ?_)⟩
  cases hc
  decide

/-- its event without the correlation is refused by the agent, for which the name is empty -/
theorem uncorrelated_refused : Allowed { exampleEvent "net" with correlation := none } ∧
    ¬ Recordable 0 { exampleEvent "net" with correlation := none } 7 (.opened exampleAgent) := by
  obtain ⟨config, w, hw⟩ := example_writes
  have ha : Allowed { exampleEvent "net" with correlation := none } :=
    example_allowed fun c hc => by cases hc
  refine ⟨ha, fun hrec => ?_⟩
  obtain ⟨c, -, hc, -⟩ := (recordable_iff (opened_live hw) (fun x hx => by cases hx) ha).mp hrec
  cases hc

end Dtj.Sdk.TypeScript
