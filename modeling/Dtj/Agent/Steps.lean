import Dtj.Agent.Replies

/-!
# What a request did

A request and its response say which call was made on the writer, and how it ended.

* `Replied`            a response tells how a call ended;
* `Did`, `step_did`    **what a request did to the writer and to the disk**, by its response;
* `opening`, `appending`, `interning`   what the agent reads in a request, `Exchange.acked` and
  `named` what a client reads in a response;
* `Effect`, `handle_effect`   **what a request can do to the files**, whatever fails.
-/

namespace Dtj.Agent
open Wire Checked SessionWriter

/-- the response to a call of the writer that ended with `w` and `d` -/
inductive Replied {α : Type} (ok : α → Reply) (w : SessionWriter) (d : Disk) :
    EStateM.Result (Abort Error) (SessionWriter × Disk) α → Reply → Prop
  | ok {a} : Replied ok w d (.ok a (w, d)) (ok a)
  | refused {e text} : Replied ok w d (.error (.error e) (w, d)) ⟨.error, text⟩

theorem callWriter_ok {α : Type} {w : SessionWriter} {p : WriterM α} {ok : α → Reply} {bad : String}
    {st st' : AgentState} {d d' : Disk} {r : Reply}
    (h : (callWriter w p ok bad).run (st, d) = .ok r (st', d')) :
    ∃ w', st' = { st with writer := some w' } ∧ Replied ok w' d' (p.run (w, d)) r := by
  simp only [callWriter, EStateM.run] at h ⊢
  cases hr : p (w, d) with
  | ok a s =>
    rw [hr] at h
    cases h
    exact ⟨s.1, rfl, .ok⟩
  | error a s =>
    rw [hr] at h
    cases a <;> cases h

theorem callWriter_again {α : Type} {w : SessionWriter} {p : WriterM α} {ok : α → Reply}
    {bad : String} {st st' : AgentState} {d d' : Disk} {text : Bytes}
    (h : (callWriter w p ok bad).run (st, d) = .error (.error (.again text)) (st', d')) :
    ∃ w', st' = { st with writer := some w' } ∧
      Replied ok w' d' (p.run (w, d)) ⟨.error, text⟩ := by
  simp only [callWriter, EStateM.run] at h ⊢
  cases hr : p (w, d) with
  | ok a s =>
    rw [hr] at h
    cases h
  | error a s =>
    rw [hr] at h
    cases a with
    | error e =>
      cases h
      exact ⟨s.1, rfl, .refused⟩
    | panic => cases h
    | diverge => cases h

theorem callTaken_ok {α : Type} {w : SessionWriter} {p : WriterM α} {ok : α → Reply} {bad : String}
    {st st' : AgentState} {d d' : Disk} {r : Reply}
    (h : (callTaken w p ok bad).run (st, d) = .ok r (st', d')) :
    ∃ w' d₁, st' = { st with writer := none } ∧ d' = w'.dropped d₁ ∧
      Replied ok w' d₁ (p.run (w, d)) r := by
  simp only [callTaken, EStateM.run] at h ⊢
  cases hr : p (w, d) with
  | ok a s =>
    rw [hr] at h
    cases h
    exact ⟨s.1, s.2, rfl, rfl, .ok⟩
  | error a s =>
    rw [hr] at h
    cases a <;> cases h

theorem callTaken_again {α : Type} {w : SessionWriter} {p : WriterM α} {ok : α → Reply}
    {bad : String} {st st' : AgentState} {d d' : Disk} {text : Bytes}
    (h : (callTaken w p ok bad).run (st, d) = .error (.error (.again text)) (st', d')) :
    ∃ w' d₁, st' = { st with writer := none } ∧ d' = w'.dropped d₁ ∧
      Replied ok w' d₁ (p.run (w, d)) ⟨.error, text⟩ := by
  simp only [callTaken, EStateM.run] at h ⊢
  cases hr : p (w, d) with
  | ok a s =>
    rw [hr] at h
    cases h
  | error a s =>
    rw [hr] at h
    cases a with
    | error e =>
      cases h
      exact ⟨s.1, s.2, rfl, rfl, .refused⟩
    | panic => cases h
    | diverge => cases h

/-! ## what the two sides read -/

/-- the file and the header that an `OpenSession` asks for -/
def opening (frame : Bytes) : Option (OpenRequest × FileHeader) :=
  match frame with
  | [] => none
  | opcode :: body =>
    if opcode = Cmd.openSession.toU8 then
      match parseOpen body with
      | .ok req => match req.header with
        | .ok header => some (req, header)
        | .error _ => none
      | .error _ => none
    else none

/-- the event that an `AppendEvent` asks for -/
def appending (frame : Bytes) : Option AppendEvent :=
  match frame with
  | [] => none
  | opcode :: body =>
    if opcode = Cmd.appendEvent.toU8 then (appendOf body).toOption else none

/-- the name that an `Intern` asks for -/
def interning (frame : Bytes) : Option (DictKind × String) :=
  match frame with
  | [] => none
  | opcode :: body =>
    if opcode = Cmd.intern.toU8 then
      match internOf body with
      | .ok (dictKind, name) => (kindOf dictKind).map fun kind => (kind, name)
      | .error _ => none
    else none

theorem opening_eq {frame body : Bytes} {req : OpenRequest} {header : FileHeader}
    (hf : frame = Cmd.openSession.toU8 :: body) (hp : parseOpen body = .ok req)
    (hh : req.header = .ok header) : opening frame = some (req, header) := by
  simp only [opening, hf, if_true, hp, hh]

theorem appending_eq {frame body : Bytes} {ev : AppendEvent}
    (hf : frame = Cmd.appendEvent.toU8 :: body) (hp : appendOf body = .ok ev) :
    appending frame = some ev := by
  simp only [appending, hf, if_true, hp]
  rfl

theorem interning_eq {frame body : Bytes} {dictKind : UInt8} {kind : DictKind}
    {name : String} (hf : frame = Cmd.intern.toU8 :: body)
    (hp : internOf body = .ok (dictKind, name)) (hk : kindOf dictKind = some kind) :
    interning frame = some (kind, name) := by
  simp only [interning, hf, if_true, hp, hk]
  rfl

theorem appending_opcode {frame : Bytes} (h : appending frame ≠ none) :
    ∃ body, frame = Cmd.appendEvent.toU8 :: body := by
  unfold appending at h
  split at h
  · exact absurd rfl h
  · split at h
    · rename_i body ho
      exact ⟨body, by rw [ho]⟩
    · exact absurd rfl h

theorem interning_opcode {frame : Bytes} (h : interning frame ≠ none) :
    ∃ body, frame = Cmd.intern.toU8 :: body := by
  unfold interning at h
  split at h
  · exact absurd rfl h
  · split at h
    · rename_i body ho
      exact ⟨body, by rw [ho]⟩
    · exact absurd rfl h

/-- the event that was acknowledged, with its sequence number -/
def Exchange.acked (x : Exchange) : Option EventRecord :=
  if x.reply.resp = .appendEventOk then
    (appending x.frame).map fun ev => ev.record (UInt64.ofNat (leAt x.reply.body 0 8))
  else none

/-- the name that was acknowledged, with its id -/
def Exchange.named (x : Exchange) : Option DictEntry :=
  if x.reply.resp = .internOk then
    (interning x.frame).map fun n => ⟨n.1, UInt32.ofNat (leAt x.reply.body 0 4), n.2⟩
  else none

/-! ## what a request did -/

/-- **what a request did to the writer and to the disk** -/
inductive Did (dataDir : String) (st : AgentState) (d : Disk) :
    Exchange → AgentState → Disk → Prop
  | still {x st'} (hw : st'.writer = st.writer) (hc : st'.config = st.config)
      (hr : x.reply.resp = .error ∨ x.reply.resp = .helloOk ∨ x.reply.resp = .pong) :
      Did dataDir st d x st' d
  | intern {x w w' d' kind name} (hw : st.writer = some w) (hx : interning x.frame = some (kind, name))
      (hrun : Replied internReply w' d' ((SessionWriter.intern kind name).run (w, d)) x.reply) :
      Did dataDir st d x { st with writer := some w' } d'
  | append {x w w' d' ev} (hw : st.writer = some w) (hx : appending x.frame = some ev)
      (hrun : Replied appendReply w' d' ((appendFlush st.config.flushEveryEvent ev).run (w, d))
        x.reply) : Did dataDir st d x { st with writer := some w' } d'
  | flush {x w w' d'} (hw : st.writer = some w)
      (hrun : Replied flushReply w' d' (flushChunk.run (w, d)) x.reply)
      (hx : ∃ body, x.frame = Cmd.flush.toU8 :: body) :
      Did dataDir st d x { st with writer := some w' } d'
  | finish {x w w' d'} (hw : st.writer = some w)
      (hrun : Replied finishReply w' d' (SessionWriter.finish.run (w, d)) x.reply)
      (hx : ∃ body, x.frame = Cmd.finishSession.toU8 :: body) :
      Did dataDir st d x { st with writer := none } (w'.dropped d')
  | opened {x req header w d'} (hx : opening x.frame = some (req, header))
      (hr : x.reply = ⟨.openSessionOk, []⟩)
      (hrun : (SessionWriter.create (joinPath dataDir req.fileName) header).run d.tick.2 = .ok w d') :
      Did dataDir st d x { st with writer := some w, sessionOpened := true } (st.dropped d')
  | notOpened {x req header e d'} (hx : opening x.frame = some (req, header))
      (hr : x.reply.resp = .error)
      (hrun : (SessionWriter.create (joinPath dataDir req.fileName) header).run d.tick.2
        = .error (.error e) d') : Did dataDir st d x st d'

/-- how an accepted `OpenSession` may end -/
theorem openFile_did {dataDir : String} {st : AgentState} {d : Disk} {req : OpenRequest}
    {header : FileHeader} (hd : d.HasDir) :
    (∃ w d', (SessionWriter.create (joinPath dataDir req.fileName) header).run d.tick.2 = .ok w d' ∧
      (openFile dataDir req header).run (st, d) = .ok ⟨.openSessionOk, []⟩
        ({ st with writer := some w, sessionOpened := true }, st.dropped d')) ∨
    (∃ e d' text, (SessionWriter.create (joinPath dataDir req.fileName) header).run d.tick.2
        = .error (.error e) d' ∧
      (openFile dataDir req header).run (st, d) = .error (.error (.again text)) (st, d')) ∨
    ∃ s, (openFile dataDir req header).run (st, d) = .error .panic s ∨
      (openFile dataDir req header).run (st, d) = .error .diverge s := by
  have hdir : Disk.createDirAll d = .ok () d.tick.2 := by
    simp only [Disk.createDirAll, hd d.clock]
  simp only [openFile, EStateM.run, hdir]
  cases hc : (SessionWriter.create (joinPath dataDir req.fileName) header) d.tick.2 with
  | ok w d' => exact .inl ⟨w, d', rfl, rfl⟩
  | error a d' =>
    cases a with
    | error e => exact .inr (.inl ⟨e, d', _, rfl, rfl⟩)
    | panic => exact .inr (.inr ⟨_, .inl rfl⟩)
    | diverge => exact .inr (.inr ⟨_, .inr rfl⟩)

theorem step_did {dataDir : String} {st st' : AgentState} {d d' : Disk} {x : Exchange}
    (h : Step dataDir st d x st' d') (hx : x.frame.length < 2^63) (hd : d.HasDir) :
    Did dataDir st d x st' d' := by
  cases h with
  | @done frame r _ _ hr hb =>
    have hcases := @handle_cases dataDir st d frame hx
    rw [hr] at hcases
    generalize hq : (EStateM.Result.ok r (st', d') : Outcome) = q at hcases
    cases hcases with
    | refused => cases hq
    | hello hf => cases hq; exact .still rfl rfl (.inr (.inl rfl))
    | ping hf => cases hq; exact .still rfl rfl (.inr (.inr rfl))
    | intern hf hst hw hp hk =>
      obtain ⟨w', rfl, hrun⟩ := callWriter_ok hq.symm
      exact .intern hw (interning_eq hf hp hk) hrun
    | @openSession body req header hf hst hp hh =>
      rcases @openFile_did dataDir st d req header hd with ⟨w, d₁, hc, ho⟩ | ⟨e, d₁, text, hc, ho⟩ |
        ⟨s, ho | ho⟩
      · rw [ho] at hq
        cases hq
        exact .opened (opening_eq hf hp hh) rfl hc
      · rw [ho] at hq; cases hq
      · rw [ho] at hq; cases hq
      · rw [ho] at hq; cases hq
    | appendEvent hf hst hw hp =>
      obtain ⟨w', rfl, hrun⟩ := callWriter_ok hq.symm
      exact .append hw (appending_eq hf hp) hrun
    | finishSession hf hw =>
      obtain ⟨w', d₁, rfl, rfl, hrun⟩ := callTaken_ok hq.symm
      exact .finish hw hrun ⟨_, hf⟩
    | flush hf hw =>
      obtain ⟨w', rfl, hrun⟩ := callWriter_ok hq.symm
      exact .flush hw hrun ⟨_, hf⟩
  | @refused frame text _ _ hr =>
    have hcases := @handle_cases dataDir st d frame hx
    rw [hr] at hcases
    generalize hq : (EStateM.Result.error (.error (.again text)) (st', d') : Outcome) = q at hcases
    cases hcases with
    | refused => cases hq; exact .still rfl rfl (.inl rfl)
    | hello hf => cases hq
    | ping hf => cases hq
    | intern hf hst hw hp hk =>
      obtain ⟨w', rfl, hrun⟩ := callWriter_again hq.symm
      exact .intern hw (interning_eq hf hp hk) hrun
    | @openSession body req header hf hst hp hh =>
      rcases @openFile_did dataDir st d req header hd with ⟨w, d₁, hc, ho⟩ | ⟨e, d₁, text', hc, ho⟩ |
        ⟨s, ho | ho⟩
      · rw [ho] at hq; cases hq
      · rw [ho] at hq
        cases hq
        exact .notOpened (opening_eq hf hp hh) rfl hc
      · rw [ho] at hq; cases hq
      · rw [ho] at hq; cases hq
    | appendEvent hf hst hw hp =>
      obtain ⟨w', rfl, hrun⟩ := callWriter_again hq.symm
      exact .append hw (appending_eq hf hp) hrun
    | finishSession hf hw =>
      obtain ⟨w', d₁, rfl, rfl, hrun⟩ := callTaken_again hq.symm
      exact .finish hw hrun ⟨_, hf⟩
    | flush hf hw =>
      obtain ⟨w', rfl, hrun⟩ := callWriter_again hq.symm
      exact .flush hw hrun ⟨_, hf⟩

/-! ## what a request can do to the files -/

/-- **what a request can do to the files**, with whatever faults -/
inductive Effect (dataDir : String) (frame : Bytes) (st : AgentState) (d : Disk) :
    AgentState × Disk → Prop
  | same {st' d'} (hw : st'.writer = st.writer) (hd : d' = d ∨ d' = d.tick.2) :
      Effect dataDir frame st d (st', d')
  | moved {w w' st' d'} (hw : st.writer = some w) (hw' : st'.writer = some w')
      (h : BufWriter.Onward (w.file, d) (w'.file, d')) : Effect dataDir frame st d (st', d')
  | ended {w f st' d'} (hw : st.writer = some w) (hw' : st'.writer = none)
      (h : BufWriter.Onward (w.file, d) (f, d')) : Effect dataDir frame st d (st', d')
  | opened {req header w st' d'} (hx : opening frame = some (req, header))
      (hw' : st'.writer = some w)
      (hrun : (SessionWriter.create (joinPath dataDir req.fileName) header).run d.tick.2 = .ok w d')
      (hst : st.helloDone = true) : Effect dataDir frame st d (st', st.dropped d')
  | notOpened {req header a st' d'} (hx : opening frame = some (req, header))
      (hw' : st'.writer = st.writer)
      (hrun : (SessionWriter.create (joinPath dataDir req.fileName) header).run d.tick.2
        = .error a d') (hst : st.helloDone = true) : Effect dataDir frame st d (st', d')

section
variable {dataDir : String} {frame : Bytes} {st : AgentState} {d : Disk}

theorem callWriter_effect {α : Type} {w : SessionWriter} {p : WriterM α} {ok : α → Reply}
    {bad : String} {room : Prop} {c e i : Nat} (hw : st.writer = some w)
    (hp : Ends room (Moves c e i (w, d)) (p.run (w, d))) :
    Effect dataDir frame st d (stateOf ((callWriter w p ok bad).run (st, d))) := by
  have hleft := hp.left
  simp only [callWriter, EStateM.run]
  simp only [EStateM.run] at hleft
  cases hr : p (w, d) with
  | ok a s =>
    rw [hr] at hleft
    exact .moved hw rfl hleft.1.file
  | error a s =>
    rw [hr] at hleft
    cases a <;> exact .moved hw rfl hleft.1.file

theorem callTaken_effect {α : Type} {w : SessionWriter} {p : WriterM α} {ok : α → Reply}
    {bad : String} {room : Prop} {c e i : Nat} (hw : st.writer = some w)
    (hp : Ends room (Onward c e i (w, d)) (p.run (w, d))) :
    Effect dataDir frame st d (stateOf ((callTaken w p ok bad).run (st, d))) := by
  have hleft := hp.left
  -- the writer is dropped after the call
  have drop : ∀ {s : SessionWriter × Disk}, Onward c e i (w, d) s →
      Effect dataDir frame st d ({ st with writer := none }, s.1.dropped s.2) := by
    intro s hs
    obtain ⟨f, hf⟩ := BufWriter.dropped_onward s.1.file s.2
    exact .ended hw rfl (hs.file.trans hf)
  simp only [callTaken, EStateM.run]
  simp only [EStateM.run] at hleft
  cases hr : p (w, d) with
  | ok a s =>
    rw [hr] at hleft
    exact drop hleft
  | error a s =>
    rw [hr] at hleft
    cases a <;> exact drop hleft

theorem openFile_effect {req : OpenRequest} {header : FileHeader}
    (hx : opening frame = some (req, header)) (hst : st.helloDone = true) :
    Effect dataDir frame st d (stateOf ((openFile dataDir req header).run (st, d))) := by
  simp only [openFile, EStateM.run]
  cases hdir : d.dirFaults d.clock with
  | some msg =>
    simp only [Disk.createDirAll, hdir]
    exact .same rfl (.inr rfl)
  | none =>
    simp only [Disk.createDirAll, hdir]
    cases hc : (SessionWriter.create (joinPath dataDir req.fileName) header) d.tick.2 with
    | ok w d' => exact .opened hx rfl hc hst
    | error a d' => cases a <;> exact .notOpened hx rfl hc hst

/-- **a request touches the file of its writer, or the one that it opens** -/
theorem handle_effect (hframe : frame.length < 2^63) :
    Effect dataDir frame st d (stateOf ((handle dataDir frame).run (st, d))) := by
  have hcases := @handle_cases dataDir st d frame hframe
  generalize (handle dataDir frame).run (st, d) = r at hcases ⊢
  cases hcases with
  | refused => exact .same rfl (.inl rfl)
  | hello hf => exact .same rfl (.inl rfl)
  | ping hf => exact .same rfl (.inl rfl)
  | intern hf hst hw hp hk => exact callWriter_effect hw (intern_moves _ _ _)
  | openSession hf hst hp hh => exact openFile_effect (opening_eq hf hp hh) hst
  | appendEvent hf hst hw hp => exact callWriter_effect hw (appendFlush_moves _ _ _)
  | finishSession hf hw => exact callTaken_effect hw (finish_onward _)
  | flush hf hw => exact callWriter_effect hw (flushChunk_moves _)

theorem step_effect {st' : AgentState} {d' : Disk} {x : Exchange} (h : Step dataDir st d x st' d')
    (hx : x.frame.length < 2^63) : Effect dataDir x.frame st d (st', d') := by
  cases h with
  | @done frame r _ _ hr hb =>
    have heff := @handle_effect dataDir frame st d hx
    rw [hr] at heff
    exact heff
  | @refused frame text _ _ hr =>
    have heff := @handle_effect dataDir frame st d hx
    rw [hr] at heff
    exact heff

end

end Dtj.Agent
