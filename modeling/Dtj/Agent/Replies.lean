import Dtj.Agent.Serve
import Dtj.Journal.Calls
import Dtj.Journal.Session

/-!
# One response for each request

* `Counts n st d`        after `n` requests the counters of the writer have room;
* `handle_answers`       a request neither panics nor closes the connection, and is answered with
  its own opcode or with an Error frame;
* `Step`, `Run`          a request with its response, and requests one after the other;
* `handleClient_replies`  **every request gets one response, in the order of the requests**.
-/

namespace Dtj.Agent
open Wire Checked SessionWriter

/-- the counters of a writer after `n` requests -/
structure Counted (n : Nat) (w : SessionWriter) : Prop where
  opened : w.finished = false
  chunks : w.nextChunkSeq.toNat ≤ 4 * n
  events : w.nextEventSeq.toNat ≤ n
  names : ∀ kind, (w.dictionary.next kind).toNat ≤ n

/-- the data directory can be created, and the counters of the writer have room -/
structure Counts (n : Nat) (st : AgentState) (d : Disk) : Prop where
  dir : d.HasDir
  writer : ∀ w, st.writer = some w → Counted n w

theorem Counted.mono {n n' : Nat} {w : SessionWriter} (h : Counted n w) (hn : n ≤ n') :
    Counted n' w where
  opened := h.opened
  chunks := by have := h.chunks; omega
  events := h.events.trans hn
  names kind := (h.names kind).trans hn

theorem Counts.mono {n n' : Nat} {st : AgentState} {d : Disk} (h : Counts n st d) (hn : n ≤ n') :
    Counts n' st d := ⟨h.dir, fun w hw => (h.writer w hw).mono hn⟩

/-- a call counts on by what one request may take -/
theorem Counted.moves {n : Nat} {w : SessionWriter} {d : Disk} {s : SessionWriter × Disk}
    (h : Counted n w) (hm : Moves 4 1 1 (w, d) s) : Counted (n + 1) s.1 where
  opened := hm.2.trans h.opened
  chunks := by
    have := hm.1.chunks
    have := h.chunks
    dsimp only at *
    omega
  events := hm.1.events.trans (Nat.add_le_add_right h.events 1)
  names kind := (hm.1.names kind).trans (Nat.add_le_add_right (h.names kind) 1)

theorem counted_fresh {n : Nat} (f : BufWriter) (header : FileHeader) :
    Counted (n + 1) (fresh f header) where
  opened := rfl
  chunks := by
    show (1 : UInt64).toNat ≤ _
    rw [show (1 : UInt64).toNat = 1 from rfl]
    omega
  events := by
    show (1 : UInt64).toNat ≤ _
    rw [show (1 : UInt64).toNat = 1 from rfl]
    omega
  names kind := by
    show (1 : UInt32).toNat ≤ _
    rw [show (1 : UInt32).toNat = 1 from rfl]
    omega

/-- the response belongs to the request: its opcode is that of the request, with bit 0x80 set -/
def Belongs (frame : Bytes) (r : Reply) : Prop :=
  ∃ opcode body, frame = opcode :: body ∧ r.resp.toU8 = opcode ||| 0x80

/-- how a request may end: with a response that belongs to it or with an Error frame, the
connection goes on -/
def Answers (n : Nat) (frame : Bytes) : Outcome → Prop
  | .ok r (st, d) => Belongs frame r ∧ Counts n st d
  | .error (.error (.again _)) (st, d) => Counts n st d
  | _ => False

section
variable {dataDir : String} {frame : Bytes} {st : AgentState} {d : Disk} {n : Nat}

/-- a call on the writer of the connection -/
theorem callWriter_answers {α : Type} {w : SessionWriter} {p : WriterM α} {ok : α → Reply}
    {bad : String} (hc : Counts n st d) (hw : st.writer = some w)
    (hp : Ends True (Moves 4 1 1 (w, d)) (p.run (w, d))) (hok : ∀ a, Belongs frame (ok a)) :
    Answers (n + 1) frame ((callWriter w p ok bad).run (st, d)) := by
  have left : ∀ {s : SessionWriter × Disk}, Moves 4 1 1 (w, d) s →
      Counts (n + 1) { st with writer := some s.1 } s.2 := by
    intro s hm
    refine ⟨hm.1.file.touches.hasDir hc.dir, fun w' hw' => ?_⟩
    cases hw'
    exact (hc.writer w hw).moves hm
  simp only [callWriter, EStateM.run]
  simp only [EStateM.run] at hp
  cases hr : p (w, d) with
  | ok a s =>
    rw [hr] at hp
    exact ⟨hok a, left hp⟩
  | error a s =>
    rw [hr] at hp
    cases a with
    | error e => exact left hp
    | panic => exact absurd trivial hp.2
    | diverge => exact absurd trivial hp.2

/-- a call on a writer that is dropped after it -/
theorem callTaken_answers {α : Type} {w : SessionWriter} {p : WriterM α} {ok : α → Reply}
    {bad : String} (hc : Counts n st d) (hp : Ends True (Onward 4 1 1 (w, d)) (p.run (w, d)))
    (hok : ∀ a, Belongs frame (ok a)) :
    Answers (n + 1) frame ((callTaken w p ok bad).run (st, d)) := by
  have left : ∀ {s : SessionWriter × Disk}, Onward 4 1 1 (w, d) s →
      Counts (n + 1) { st with writer := none } (s.1.dropped s.2) := by
    intro s hm
    obtain ⟨_, hdrop⟩ := BufWriter.dropped_onward s.1.file s.2
    exact ⟨hdrop.touches.hasDir (hm.file.touches.hasDir hc.dir), fun w' hw' => by cases hw'⟩
  simp only [callTaken, EStateM.run]
  simp only [EStateM.run] at hp
  cases hr : p (w, d) with
  | ok a s =>
    rw [hr] at hp
    exact ⟨hok a, left hp⟩
  | error a s =>
    rw [hr] at hp
    cases a with
    | error e => exact left hp
    | panic => exact absurd trivial hp.2
    | diverge => exact absurd trivial hp.2

/-- an error that is only logged -/
theorem logged_moves {c e i : Nat} {room : Prop} {p : WriterM Unit} {s : SessionWriter × Disk}
    (hp : Ends room (Moves c e i s) (p.run s)) : Ends room (Moves c e i s) ((logged p).run s) := by
  simp only [logged, EStateM.run]
  simp only [EStateM.run] at hp
  cases hr : p s with
  | ok u t =>
    rw [hr] at hp
    exact hp
  | error a t =>
    rw [hr] at hp
    cases a with
    | error e => exact hp
    | panic => exact hp
    | diverge => exact hp

theorem appendFlush_moves (flushEvery : Bool) (ev : AppendEvent) (s : SessionWriter × Disk) :
    Ends (s.1.nextChunkSeq.toNat + 4 < 2^64 ∧ s.1.nextEventSeq.toNat + 1 < 2^64) (Moves 4 1 0 s)
      ((appendFlush flushEvery ev).run s) := by
  have weaken : ∀ {c : Nat} {t : SessionWriter × Disk}, c ≤ 4 → Moves c 1 0 s t → Moves 4 1 0 s t :=
    fun hc h => h.mono hc (le_refl _) (le_refl _)
  unfold appendFlush
  refine ((appendEvent_moves ev s).mono (by omega) fun _ h => h).bind (fun _ => weaken (by omega))
    fun seq s₁ _ h₁ => ?_
  cases flushEvery with
  | false => exact weaken (by omega) h₁
  | true =>
    have hs₁ := h₁.1.chunks
    exact ((logged_moves (flushChunk_moves s₁)).mono (by omega) fun _ h => h₁.trans h).bind
      (fun _ => weaken (le_refl _)) fun _ s₂ _ h₂ => weaken (le_refl _) h₂

/-- an accepted `OpenSession`: the directory is there, and the file may fail -/
theorem openFile_answers {req : OpenRequest} {header : FileHeader} (hc : Counts n st d)
    (hh : req.header = .ok header) (hok : Belongs frame ⟨.openSessionOk, []⟩) :
    Answers (n + 1) frame ((openFile dataDir req header).run (st, d)) := by
  have hdir : Disk.createDirAll.run d = .ok () d.tick.2 := by
    simp only [Disk.createDirAll, EStateM.run, hc.dir d.clock]
  obtain ⟨hdr, he⟩ := FileHeader.encode_create hh
  have hcases := @create_cases (joinPath dataDir req.fileName) _ _ he d.tick.2
  simp only [EStateM.run] at hdir hcases
  simp only [openFile, EStateM.run, hdir]
  generalize (SessionWriter.create (joinPath dataDir req.fileName) header) d.tick.2 = r at hcases ⊢
  have htick : d.tick.2.HasDir := hc.dir
  cases hcases with
  | failed ht hrel =>
    exact ⟨ht.hasDir htick, fun w hw => (hc.writer w hw).mono (Nat.le_succ n)⟩
  | @ok f d' hp ht hf hbuf =>
    dsimp only
    have hd' := ht.hasDir htick
    refine ⟨hok, ?_, ?_⟩
    · cases hw : st.writer with
      | none => exact hd'
      | some old =>
        obtain ⟨_, hdrop⟩ := BufWriter.dropped_onward old.file d'
        exact hdrop.touches.hasDir hd'
    · intro w hw
      cases hw
      exact counted_fresh f header

/-- **a request is answered, and the connection goes on** -/
theorem handle_answers (hc : Counts n st d) (hn : n + 1 < 2^32) (hframe : frame.length < 2^63) :
    Answers (n + 1) frame ((handle dataDir frame).run (st, d)) := by
  have hcases := @handle_cases dataDir st d frame hframe
  have next : Counts (n + 1) st d := hc.mono (Nat.le_succ n)
  generalize (handle dataDir frame).run (st, d) = r at hcases ⊢
  cases hcases with
  | refused => exact next
  | hello hf => exact ⟨⟨_, _, hf, rfl⟩, next.dir, next.writer⟩
  | ping hf => exact ⟨⟨_, _, hf, rfl⟩, next⟩
  | @intern body dictKind kind name w hf hst hw hp hk =>
    have hnames := (hc.writer w hw).names kind
    refine callWriter_answers hc hw ?_ fun _ => ⟨_, _, hf, rfl⟩
    exact (intern_moves kind name (w, d)).mono (fun _ => by dsimp only; omega) fun _ h =>
      h.mono (Nat.zero_le _) (Nat.zero_le _) (le_refl _)
  | openSession hf hst hp hh => exact openFile_answers hc hh ⟨_, _, hf, rfl⟩
  | @appendEvent body ev w hf hst hw hp =>
    have hchunks := (hc.writer w hw).chunks
    have hevents := (hc.writer w hw).events
    refine callWriter_answers hc hw ?_ fun _ => ⟨_, _, hf, rfl⟩
    exact (appendFlush_moves _ ev (w, d)).mono (fun _ => by dsimp only; omega) fun _ h =>
      h.mono (le_refl _) (le_refl _) (Nat.zero_le _)
  | @finishSession body w hf hw =>
    have hchunks := (hc.writer w hw).chunks
    refine callTaken_answers hc ?_ fun _ => ⟨_, _, hf, rfl⟩
    exact (finish_onward (w, d)).mono (fun _ => by dsimp only; omega) fun _ h =>
      h.mono (by omega) (Nat.zero_le _) (Nat.zero_le _)
  | @flush body w hf hw =>
    have hchunks := (hc.writer w hw).chunks
    refine callWriter_answers hc hw ?_ fun _ => ⟨_, _, hf, rfl⟩
    exact (flushChunk_moves (w, d)).mono (fun _ => by dsimp only; omega) fun _ h =>
      h.mono (by omega) (Nat.zero_le _) (Nat.zero_le _)

end

/-! ## the run over the requests -/

/-- a request and its response: the response belongs to a request that succeeded, and is an Error
frame for one that was refused -/
inductive Step (dataDir : String) (st : AgentState) (d : Disk) :
    Exchange → AgentState → Disk → Prop
  | done {frame r st' d'} (hr : (handle dataDir frame).run (st, d) = .ok r (st', d'))
      (hb : Belongs frame r) : Step dataDir st d ⟨frame, r⟩ st' d'
  | refused {frame text st' d'}
      (hr : (handle dataDir frame).run (st, d) = .error (.error (.again text)) (st', d')) :
      Step dataDir st d ⟨frame, ⟨.error, text⟩⟩ st' d'

/-- **requests and their responses**, from one state of the connection to another -/
inductive Run (dataDir : String) : AgentState → Disk → List Exchange → AgentState → Disk → Prop
  | nil {st d} : Run dataDir st d [] st d
  | cons {st d x xs st₁ d₁ st' d'} (h : Step dataDir st d x st₁ d₁)
      (hrest : Run dataDir st₁ d₁ xs st' d') : Run dataDir st d (x :: xs) st' d'

/-- a run is one of its first part, and then one of the rest -/
theorem Run.split {dataDir : String} {xs ys : List Exchange} {st st' : AgentState} {d d' : Disk}
    (h : Run dataDir st d (xs ++ ys) st' d') :
    ∃ st₁ d₁, Run dataDir st d xs st₁ d₁ ∧ Run dataDir st₁ d₁ ys st' d' := by
  induction xs generalizing st d with
  | nil => exact ⟨st, d, .nil, h⟩
  | cons x xs ih =>
    cases h with
    | cons hx hrest =>
      obtain ⟨st₁, d₁, h₁, h₂⟩ := ih hrest
      exact ⟨st₁, d₁, .cons hx h₁, h₂⟩

theorem serve_run {dataDir : String} {frames : List Bytes} {n : Nat} {st : AgentState} {d : Disk}
    (hc : Counts n st d) (hn : n + frames.length < 2^32)
    (hframes : ∀ frame ∈ frames, frame.length < 2^63) :
    (serve dataDir frames st d).ending = .going ∧
      (serve dataDir frames st d).exchanges.map Exchange.frame = frames ∧
      Run dataDir st d (serve dataDir frames st d).exchanges (serve dataDir frames st d).state
        (serve dataDir frames st d).disk := by
  induction frames generalizing n st d with
  | nil => exact ⟨rfl, rfl, .nil⟩
  | cons frame frames ih =>
    rw [List.length_cons] at hn
    have hans := @handle_answers dataDir frame st d n hc (by omega)
      (hframes frame (List.mem_cons_self ..))
    -- the requests that follow, from what this one leaves
    have next : ∀ {r : Reply} {st' : AgentState} {d' : Disk}, Counts (n + 1) st' d' →
        Step dataDir st d ⟨frame, r⟩ st' d' →
        ((serve dataDir frames st' d').cons ⟨frame, r⟩).ending = .going ∧
        ((serve dataDir frames st' d').cons ⟨frame, r⟩).exchanges.map Exchange.frame
          = frame :: frames ∧
        Run dataDir st d ((serve dataDir frames st' d').cons ⟨frame, r⟩).exchanges
          ((serve dataDir frames st' d').cons ⟨frame, r⟩).state
          ((serve dataDir frames st' d').cons ⟨frame, r⟩).disk := by
      intro r st' d' hc' hstep
      obtain ⟨hend, hmap, hrun⟩ := ih hc' (by omega) fun f hf => hframes f (List.mem_cons_of_mem _ hf)
      exact ⟨hend, congrArg (List.cons frame) hmap, .cons hstep hrun⟩
    rw [serve]
    cases hr : (handle dataDir frame).run (st, d) with
    | ok r s =>
      rw [hr] at hans
      exact next hans.2 (.done hr hans.1)
    | error a s =>
      rw [hr] at hans
      cases a with
      | error e =>
        cases e with
        | again text => exact next hans (.refused hr)
        | close text => exact absurd hans id
      | panic => exact absurd hans id
      | diverge => exact absurd hans id

theorem counts_new (config : Config) {d : Disk} (hd : d.HasDir) :
    Counts 0 (AgentState.new config) d := ⟨hd, fun w hw => by cases hw⟩

/-- a connection whose requests were all answered: the exchanges, and what was returned -/
structure Complete (dataDir : String) (c c' : Conn) (xs : List Exchange)
    (r : EStateM.Result (Abort Halt) Conn Unit) : Prop where
  returned : r = match (requests c.input).2 with
    | .eof => .ok () c'
    | .tooLarge => .error (.error ⟨"frame too large"⟩) c'
    | .cut => .error (.error ⟨"failed to fill whole buffer"⟩) c'
  run : Run dataDir c.state c.disk xs c'.state c'.disk
  requests : xs.map Exchange.frame = (requests c.input).1
  responses : c'.output = c.output ++ xs.map Exchange.reply

/-- the exchanges of a connection are those of the run over its requests -/
theorem complete_serve {dataDir : String} {config : Config} {d : Disk} {input : Bytes}
    (hd : d.HasDir) (hn : (requests input).1.length < 2^32) :
    ∃ c', Complete dataDir ⟨.new config, d, input, []⟩ c'
        (serve dataDir (requests input).1 (.new config) d).exchanges
        ((handleClient dataDir).run ⟨.new config, d, input, []⟩) ∧
      c'.state = (serve dataDir (requests input).1 (.new config) d).state ∧
      c'.disk = (serve dataDir (requests input).1 (.new config) d).disk := by
  have hmax : maxFrameSize < 2^63 := by decide
  obtain ⟨hend, hmap, hrun⟩ := @serve_run dataDir (requests input).1 0 (.new config) d
    (counts_new config hd) (by omega) fun frame hf => (requests_length hf).trans_lt hmax
  obtain ⟨c', hres, hst, hdisk, hout⟩ := (handleClient_answered ⟨.new config, d, input, []⟩).ended
  refine ⟨c', ⟨?_, ?_, hmap, hout⟩, hst, hdisk⟩
  · rw [hres, hend]
    cases (requests input).2 <;> rfl
  · rw [hst, hdisk]
    exact hrun

/-- **every request of a connection gets one response, whatever the client sends and whatever the
files do**, up to the end of its bytes or a frame that is too large -/
theorem handleClient_replies {dataDir : String} {config : Config} {d : Disk} {input : Bytes}
    (hd : d.HasDir) (hn : (requests input).1.length < 2^32) :
    ∃ c' xs, Complete dataDir ⟨.new config, d, input, []⟩ c' xs
      ((handleClient dataDir).run ⟨.new config, d, input, []⟩) := by
  obtain ⟨c', hc, -⟩ := @complete_serve dataDir config d input hd hn
  exact ⟨c', _, hc⟩

/-- the options of the agent when none is given -/
def Config.default : Config where
  flushEveryEvent := false
  maxEventsPerChunk := 65535
  maxFileSizeMb := 0
  sessionTtlHours := 0
  maxSessions := 0
  socketPermissions := 0x180
  sessionPrefix := "session"
  maxPendingBytes := 0

/-- an empty frame, and a Ping that follows it -/
def pingInput : Bytes := [[], [Cmd.ping.toU8]].flatMap frameBytes

theorem ping_replies : ∃ c' xs, Complete "data" ⟨.new .default, exampleDisk, pingInput, []⟩ c' xs
    ((handleClient "data").run ⟨.new .default, exampleDisk, pingInput, []⟩) :=
  handleClient_replies (fun _ => rfl) <| by
    rw [pingInput, requests_frames (by decide)]
    decide

end Dtj.Agent
