import Dtj.Journal.Ops

/-!
# A session of the writer, cut off anywhere

* `create_cases`        what `create` may end with;
* `Op`, `runOps`        calls of the writer in any order, up to an I/O error or a panic;
* `Record.call`         what the answers to the calls say that the writer has taken;
* `runOps_record`       **the chunks of the file, and the pending items, are what was taken**;
* `session_cut`      **every prefix of the file is read back as the chunks inside it**.
-/

namespace Dtj
open Wire Checked SessionWriter

/-! ## the start of a session -/

/-- what `create` may end with, for a header that is encoded as `hdr` -/
inductive Created (path : String) (header : FileHeader) (hdr : Bytes) (d : Disk) :
    EStateM.Result (Abort Error) Disk SessionWriter → Prop
  | ok {f d'} (hp : f.path = path) (ht : Disk.Touches path d d') (hf : f.Holds d' hdr)
      (hbuf : f.buf = []) : Created path header hdr d (.ok (fresh f header) d')
  | failed {m d'} (ht : Disk.Touches path d d') (hrel : ¬ d.Reliable) :
      Created path header hdr d (.error (.error (.io m)) d')

/-- the header of a new file is written and flushed, or the disk failed -/
theorem writeHeader_cases {header : FileHeader} {hdr : Bytes} (he : header.encode = .ok hdr)
    {f : BufWriter} {d : Disk} (hf : f.Holds d []) :
    ∃ f' d' c, f'.path = f.path ∧ Disk.Touches f.path d d' ∧ f'.Holds d' c ∧
      (((writeHeader header).run (f, d) = .ok () (f', d') ∧ c = hdr ∧ f'.buf = []) ∨
        ∃ m, (writeHeader header).run (f, d) = .error (.error (.io m)) (f', d') ∧ ¬ d.Reliable) := by
  unfold writeHeader
  rw [he]
  simp only [Prog.of_ok, EStateM.run_bind]
  obtain ⟨f₁, d₁, hp₁, ht₁, ⟨hrun, hf₁⟩ | ⟨m, k, hrun, hrel, hf₁⟩⟩ := BufWriter.writeAll_spec hf hdr
  · rw [hrun]
    obtain ⟨f₂, d₂, hf₂, hp₂, ht₂, ⟨hrun₂, hbuf⟩ | ⟨m, hrun₂, hrel⟩⟩ := BufWriter.flushBuf_spec hf₁
    · exact ⟨f₂, d₂, _, hp₂.trans hp₁, ht₁.trans (hp₁ ▸ ht₂), hf₂, .inl ⟨hrun₂, rfl, hbuf⟩⟩
    · exact ⟨f₂, d₂, _, hp₂.trans hp₁, ht₁.trans (hp₁ ▸ ht₂), hf₂,
        .inr ⟨m, hrun₂, fun hr => hrel (ht₁.reliable hr)⟩⟩
  · rw [hrun]
    exact ⟨f₁, d₁, _, hp₁, ht₁, hf₁, .inr ⟨m, rfl, hrel⟩⟩

theorem create_cases {path : String} {header : FileHeader} {hdr : Bytes}
    (he : header.encode = .ok hdr) (d : Disk) :
    Created path header hdr d ((SessionWriter.create path header).run d) := by
  have hcreate : (BufWriter.create path).run d = match d.faults d.clock with
      | some ft => .error (.error (.io ft.msg)) d.tick.2
      | none => .ok ⟨path, 0, []⟩ (d.tick.2.put path []) := by
    simp only [BufWriter.create, EStateM.run_bind]
    cases hft : d.faults d.clock <;> simp only [EStateM.run, Disk.create, Disk.tick, hft]
    rfl
  rw [SessionWriter.create, openNew, EStateM.run_bind, hcreate]
  cases hft : d.faults d.clock with
  | some ft => exact .failed ⟨fun _ _ => rfl, rfl, rfl⟩ fun hr => by rw [hr] at hft; cases hft
  | none =>
    have ht₁ := Disk.touches_put path [] d
    have hf₁ : (⟨path, 0, []⟩ : BufWriter).Holds (d.tick.2.put path []) [] :=
      ⟨[], Disk.put_files _ _ _, rfl, rfl⟩
    obtain ⟨f₂, d₂, c, hp₂, ht₂, hf₂, hend⟩ := writeHeader_cases he hf₁
    simp only [onNew_run]
    rcases hend with ⟨hrun₂, rfl, hbuf⟩ | ⟨m, hrun₂, hrel⟩
    · rw [hrun₂]
      exact .ok hp₂ (ht₁.trans ht₂) hf₂ hbuf
    · rw [hrun₂]
      obtain ⟨_, _, _, _, ht₃⟩ := BufWriter.dropped_spec hf₂
      rw [hp₂] at ht₃
      exact .failed (ht₁.trans (ht₂.trans ht₃)) fun hr => hrel (ht₁.reliable hr)

/-- a writer was created, so the header was encoded -/
theorem create_encode {path : String} {header : FileHeader} {d₀ d : Disk} {w : SessionWriter}
    (hc : (SessionWriter.create path header).run d₀ = .ok w d) : ∃ hdr, header.encode = .ok hdr := by
  cases he : header.encode with
  | ok hdr => exact ⟨hdr, rfl⟩
  | error e =>
    have hw : ∀ s, (writeHeader header).run s = .error e s := by
      intro s
      simp only [writeHeader, he, EStateM.run_bind]
      rfl
    rw [SessionWriter.create, openNew, EStateM.run_bind] at hc
    cases hb : (BufWriter.create path).run d₀ with
    | error a s => rw [hb] at hc; cases hc
    | ok f d₁ =>
      rw [hb] at hc
      simp only [onNew_run, hw] at hc
      cases hc

/-- a new writer has taken nothing -/
theorem fresh_records {f : BufWriter} {d : Disk} {hdr : Bytes} (header : FileHeader)
    (hf : f.Holds d hdr) : Records hdr [] (fresh f header) d [] [] := by
  refine ⟨⟨.empty, ?_⟩, rfl, rfl⟩
  refine ⟨?_, rfl, (fun b hb => by cases hb), rfl, rfl, ⟨_, rfl, .refl _⟩, numbered_nil _,
    (fun ev hev => by cases hev)⟩
  show f.Holds d (hdr ++ [])
  rwa [List.append_nil]

/-! ## calls in any order -/

/-- a call of the writer.  `finish` takes the writer, so that it is the last call of a program;
here any call may follow it, and is refused -/
inductive Op where
  | intern (kind : DictKind) (name : String)
  | append (ev : AppendEvent)
  | flush
  | finish
deriving DecidableEq

inductive Answer where
  | id (id : UInt32)
  | seq (n : UInt64)
  | done

def Op.exec : Op → WriterM Answer
  | .intern kind name => Answer.id <$> SessionWriter.intern kind name
  | .append ev => Answer.seq <$> appendEvent ev
  | .flush => (fun _ => Answer.done) <$> flushChunk
  | .finish => (fun _ => Answer.done) <$> SessionWriter.finish

/-- a call and how it ended -/
abbrev Call := Op × Except (Abort Error) Answer

/-- the calls that were made, what they left, and whether an I/O error or a panic was the last -/
structure Session where
  calls : List Call
  writer : SessionWriter
  disk : Disk
  stopped : Bool

def Session.cons (c : Call) (s : Session) : Session := { s with calls := c :: s.calls }

/-- the calls one after the other; an error that is not of the disk does not end the session -/
def runOps : List Op → SessionWriter → Disk → Session
  | [], w, d => ⟨[], w, d, false⟩
  | op :: ops, w, d =>
    match op.exec.run (w, d) with
    | .ok a (w, d) => (runOps ops w d).cons (op, .ok a)
    | .error e (w, d) =>
      if stops e then ⟨[(op, .error e)], w, d, true⟩ else (runOps ops w d).cons (op, .error e)

/-- the file that is left: the writer is dropped, or the process is gone -/
inductive Last where
  | drop
  | crash

def Session.close (s : Session) : Last → Disk
  | .drop => s.writer.dropped s.disk
  | .crash => s.disk

/-! ## what the answers say -/

/-- the names, each once, and the events that a writer has taken -/
structure Record where
  entries : List DictEntry
  events : List EventRecord

/-- the event was taken: only its references and the end of the session keep it out -/
def taken : Except (Abort Error) Answer → Bool
  | .error (.error e) => !e.isRef
  | _ => true

def Record.call (r : Record) : Call → Record
  | (.intern kind name, .ok (.id id)) => { r with entries := addEntry r.entries ⟨kind, id, name⟩ }
  | (.append ev, res) =>
    if taken res then
      { r with events := r.events ++ [ev.record (UInt64.ofNat (r.events.length + 1))] }
    else r
  | _ => r

/-- the record of a whole session -/
def recordOf (cs : List Call) : Record := cs.foldl Record.call ⟨[], []⟩

def outcome {α : Type} : EStateM.Result (Abort Error) (SessionWriter × Disk) α →
    Except (Abort Error) α
  | .ok a _ => .ok a
  | .error e _ => .error e

variable {hdr : Bytes} {bs : List Batch} {w : SessionWriter} {d : Disk} {r : Record}

/-- a call on a writer that is finished -/
theorem exec_closed (ho : w.finished = true) (op : Op) :
    op.exec.run (w, d) = .error (.error .sessionClosed) (w, d) := by
  have hopen : ensureOpen.run (w, d) = .error (.error .sessionClosed) (w, d) := by
    simp only [ensureOpen, EStateM.run_bind, EStateM.run_get, ho]
    rfl
  cases op with
  | intern kind name =>
    rw [Op.exec, run_map, SessionWriter.intern, EStateM.run_bind, hopen]
    rfl
  | append ev =>
    rw [Op.exec, run_map, appendEvent, EStateM.run_bind, hopen]
    rfl
  | flush =>
    rw [Op.exec, run_map, flushChunk, EStateM.run_bind, hopen]
    rfl
  | finish =>
    rw [Op.exec, run_map, SessionWriter.finish, EStateM.run_bind]
    simp only [EStateM.run_get, ho, if_true]
    rfl

/-- the batches that a call writes if it succeeds -/
def Op.batches (w : SessionWriter) : Op → List Batch
  | .intern _ _ => []
  | .append ev => appendBatches w ev
  | .flush => dictBatch w ++ eventBatch w
  | .finish => dictBatch w ++ eventBatch w

/-- an event that is not refused for its references is taken -/
theorem taken_append {ev : AppendEvent}
    (h : ∀ e s, (appendEvent ev).run (w, d) = .error (.error e) s → e.isRef = false) :
    taken (outcome (mapResult Answer.seq ((appendEvent ev).run (w, d)))) = true := by
  cases hres : (appendEvent ev).run (w, d) with
  | ok a s => rfl
  | error a s =>
    cases a with
    | error e =>
      show (!e.isRef) = true
      rw [h e s hres]
      rfl
    | panic => rfl
    | diverge => rfl

/-- **a call leaves the chunks and pending items of what it says that it took** -/
theorem exec_record (h : Records hdr bs w d r.entries r.events) (op : Op) :
    After hdr (bs ++ op.batches w) w d (r.call (op, outcome (op.exec.run (w, d)))).entries
      (r.call (op, outcome (op.exec.run (w, d)))).events (op.exec.run (w, d)) := by
  cases ho : w.finished with
  | true =>
    rw [exec_closed ho op]
    have hr : r.call (op, .error (.error .sessionClosed)) = r := by
      cases op <;> rfl
    show After hdr _ w d (r.call (op, .error (.error .sessionClosed))).entries
      (r.call (op, .error (.error .sessionClosed))).events _
    rw [hr]
    exact h.after_error (fun e => by cases e) fun e he => by cases he; rfl
  | false =>
    cases op with
    | intern kind name =>
      rw [Op.exec, run_map]
      rw [show Op.batches w (.intern kind name) = [] from rfl, List.append_nil]
      rcases intern_record h ho kind name with ⟨id, s, hrun, ha⟩ | ⟨a, s, hrun, ha⟩
      · have hm := ha.map rfl Answer.id
        rw [hrun] at hm ⊢
        exact hm
      · have hm := ha.map rfl Answer.id
        rw [hrun] at hm ⊢
        exact hm
    | append ev =>
      rw [Op.exec, run_map]
      rcases appendEvent_record h ho ev with ⟨e, he, hrun⟩ | hrun | ⟨ha, -, href⟩
      · have hr : r.call (.append ev, .error (.error e)) = r := by
          simp only [Record.call, taken, he, Bool.not_true, Bool.false_eq_true, if_false]
        rw [hrun]
        show After hdr _ w d (r.call (.append ev, .error (.error e))).entries
          (r.call (.append ev, .error (.error e))).events _
        rw [hr]
        exact h.after_error (fun e => by cases e) fun e' he' => by
          cases he'
          exact Error.isIo_of_isRef he
      · rw [hrun]
        obtain ⟨v, hk⟩ := h.keeps
        refine .stopped rfl hk.cut ?_ ?_ rfl (.refl _ _) fun hne => absurd rfl hne
        · show _ <+: r.entries
          rw [← h.entries]
          exact List.prefix_append _ _
        · show _ <+: r.events ++ [_]
          rw [← h.events, List.append_assoc]
          exact List.prefix_append _ _
      · have ht := taken_append href
        rw [Record.call, if_pos ht]
        exact ha.map rfl _
    | flush =>
      rw [Op.exec, run_map]
      rw [Op.batches, ← List.append_assoc]
      exact (flushChunk_record h ho).map rfl _
    | finish =>
      rw [Op.exec, run_map]
      rw [Op.batches, ← List.append_assoc]
      exact (finish_record h ho).map rfl _

/-! ## the whole session -/

/-- what a session leaves, when its calls say that `r` was taken -/
structure Ran (hdr : Bytes) (path : String) (d : Disk) (r : Record) (s : Session) : Prop where
  touches : Disk.Touches path d s.disk
  path : s.writer.file.path = path
  record : s.stopped = false → ∃ bs, Records hdr bs s.writer s.disk r.entries r.events
  stopped : s.stopped = true → ∃ bs, Cut hdr bs s.writer s.disk ∧
    bs.flatMap Batch.entries <+: r.entries ∧ bs.flatMap Batch.evs <+: r.events
  reliable : d.Reliable → s.stopped = true → ∃ op, (op, .error .panic) ∈ s.calls

/-- **the run of any calls**, by induction on them -/
theorem runOps_record (h : Records hdr bs w d r.entries r.events) (ops : List Op) :
    Ran hdr w.file.path d ((runOps ops w d).calls.foldl Record.call r) (runOps ops w d) := by
  induction ops generalizing bs w d r with
  | nil => exact ⟨.refl _ _, rfl, fun _ => ⟨bs, h⟩, fun hs => (by cases hs), fun _ hs => by cases hs⟩
  | cons op ops ih =>
    have hstep := exec_record h op
    -- the rest of the run, from a writer that has kept its record
    have rest : ∀ {w' : SessionWriter} {d' : Disk} {bs' : List Batch} {res : Except (Abort Error) Answer},
        Records hdr bs' w' d' (r.call (op, res)).entries (r.call (op, res)).events →
        w'.file.path = w.file.path → Disk.Touches w.file.path d d' →
        Ran hdr w.file.path d (((runOps ops w' d').cons (op, res)).calls.foldl Record.call r)
          ((runOps ops w' d').cons (op, res)) := by
      intro w' d' bs' res hr hp ht
      have hran := ih hr
      rw [hp] at hran
      refine ⟨ht.trans hran.touches, hran.path, hran.record, hran.stopped, fun hd hs => ?_⟩
      obtain ⟨op', hop'⟩ := hran.reliable (ht.reliable hd) hs
      exact ⟨op', List.mem_cons_of_mem _ hop'⟩
    rw [runOps]
    generalize op.exec.run (w, d) = res at hstep ⊢
    cases hstep with
    | ok hr hp ht => exact rest hr hp ht
    | @refused e w' d' bs' he hr hp ht =>
      have hs : stops (.error e) = false := he
      simp only [hs, Bool.false_eq_true, if_false]
      exact rest hr hp ht
    | @stopped a w' d' bs' ha hc hes hevs hp ht hrel =>
      simp only [ha, if_true]
      refine ⟨ht, hp, fun hs => (by cases hs), fun _ => ⟨bs', hc, hes, hevs⟩, fun hd _ => ?_⟩
      by_cases hne : a = .panic
      · exact ⟨op, by rw [hne]; exact List.mem_cons_self ..⟩
      · exact absurd hd (hrel hne)

/-! ## every prefix of the file -/

/-- what a journal whose chunks hold the batches `bs` is read as -/
structure Shows (bs : List Batch) (r : SessionReader) : Prop where
  events : r.events = bs.flatMap Batch.evs
  names : ∀ kind id name, r.dictionary.getName kind id = some name
    ↔ ⟨kind, id, name⟩ ∈ bs.flatMap Batch.entries
  chunks : r.chunksCommitted.toNat = bs.length

theorem replay_shows {v : View} (hv : replay .empty bs = .ok v) (hlen : bs.length < 2^64)
    (header : FileHeader) (torn : Bool) :
    Shows bs ⟨header, v.dictionary, v.events, UInt64.ofNat v.chunks, torn⟩ := by
  obtain ⟨hd, he, hc⟩ := replay_ok hv
  refine ⟨he, fun kind id name => ⟨fun hn => ?_, fun hn => Dictionary.insertAll_mem hd hn⟩, ?_⟩
  · exact (Dictionary.insertAll_getName hd hn).resolve_left (by simp [View.empty])
  · show (UInt64.ofNat v.chunks).toNat = _
    rw [hc, UInt64.toNat_ofNat', show View.empty.chunks = 0 from rfl, Nat.zero_add,
      Nat.mod_eq_of_lt hlen]

/-- a header and a part of a layout, as they are read -/
theorem open_layout_take {header : FileHeader} (he : header.encode = .ok hdr) {v : View}
    (hv : replay .empty bs = .ok v) (hbs : ∀ b ∈ bs, b.Committable) (hlen : bs.length < 2^64)
    (hmax : ∀ b ∈ bs, b.payload.length ≤ 16777216) {n : Nat} (hn : n ≤ boundary bs bs.length)
    (h64 : 128 + n < 2^64) :
    ∃ r, SessionReader.open (hdr ++ (layout 1 bs).take n) = .ok r ∧
      Shows (bs.take (wholeChunks bs n)) r ∧
      (r.tornTail = true ↔ ¬ ∃ j ≤ bs.length, n = boundary bs j) := by
  have hhdr := (FileHeader.encode_ok he).1
  obtain ⟨header', hh, -⟩ := FileHeader.headerOf_encode he
  obtain ⟨v', hv', hw⟩ := walk_take hv (fun b hb => ⟨hbs b hb, hmax b hb⟩)
    (by show 0 + _ < _; omega) n hn
  have hlen' : (hdr ++ (layout 1 bs).take n).length = 128 + n := by
    rw [List.length_append, List.length_take, layout_length, hhdr]
    omega
  have hopen : openOf (hdr ++ (layout 1 bs).take n) = .ok ⟨header', v'.dictionary, v'.events,
      UInt64.ofNat v'.chunks, decide (boundary bs (wholeChunks bs n) < n)⟩ := by
    have hw' : walk .empty ((layout 1 bs).take n)
        = .ok (v', decide (boundary bs (wholeChunks bs n) < n)) := hw
    unfold openOf
    rw [if_neg (by omega), List.take_left' hhdr, List.drop_left' hhdr, hh, hw']
  have hread : SessionReader.open (hdr ++ (layout 1 bs).take n) = .ok ⟨header', v'.dictionary,
      v'.events, UInt64.ofNat v'.chunks, decide (boundary bs (wholeChunks bs n) < n)⟩ := by
    rw [open_eq (by omega), hopen]
    rfl
  refine ⟨_, hread, replay_shows hv' ?_ header' _, ?_⟩
  · rw [List.length_take]
    omega
  · rw [decide_eq_true_eq]
    exact boundary_lt_iff bs n

/-- **a writer that is synced has a file that shows all that it has taken** -/
theorem Records.read {es : List DictEntry} {evs : List EventRecord} {header : FileHeader}
    (h : Records hdr bs w d es evs) (hs : Synced w) (he : header.encode = .ok hdr)
    (hmax : ∀ b ∈ bs, b.payload.length ≤ 16777216) (h64 : 128 + boundary bs bs.length < 2^64) :
    ∃ file r, d.files w.file.path = some file ∧ SessionReader.open file = .ok r ∧
      r.tornTail = false ∧ r.events = evs ∧
      ∀ kind id name, r.dictionary.getName kind id = some name ↔ ⟨kind, id, name⟩ ∈ es := by
  obtain ⟨v, hk⟩ := h.keeps
  obtain ⟨f, hf, -, hc⟩ := hk.holds.file
  rw [hs.buf, List.append_nil] at hc
  obtain ⟨r, hr, hshows, htorn⟩ := open_layout_take he hk.replayed (fun b hb => (hk.batches b hb).1)
    hk.cut.small hmax (le_refl _) h64
  have htake : hdr ++ (layout 1 bs).take (boundary bs bs.length) = f := by
    rw [hc, ← layout_length 1 bs, List.take_length]
  rw [htake] at hr
  rw [wholeChunks_boundary bs _ (le_refl _), List.take_length] at hshows
  have hes := h.entries
  have hevs := h.events
  rw [hs.pendingDict, List.append_nil] at hes
  rw [hs.pendingEvents, List.append_nil] at hevs
  refine ⟨f, r, hf, hr, ?_, hshows.events.trans hevs, fun kind id name => ?_⟩
  · rw [← Bool.not_eq_true, htorn, not_not]
    exact ⟨bs.length, le_refl _, rfl⟩
  · rw [← hes]
    exact hshows.names kind id name

/-- **the file that a session leaves**: `bs` are its chunks, the last of them perhaps in part -/
structure Written (hdr : Bytes) (s : Session) (last : Last) (d : Disk) (bs : List Batch)
    (file : Bytes) : Prop where
  part : file <+: hdr ++ layout 1 bs
  whole : last = .drop → d.Reliable → s.stopped = false → file = hdr ++ layout 1 bs
  entries : bs.flatMap Batch.entries <+: (recordOf s.calls).entries
  events : bs.flatMap Batch.evs <+: (recordOf s.calls).events
  /-- what is in no chunk is pending -/
  pending : s.stopped = false →
    bs.flatMap Batch.entries ++ s.writer.pendingDict = (recordOf s.calls).entries ∧
    bs.flatMap Batch.evs ++ s.writer.pendingEvents = (recordOf s.calls).events

/-- the file after the writer is dropped, or left alone -/
theorem close_file {s : Session} {c : Bytes} (h : s.writer.file.Holds s.disk c) (last : Last) :
    ∃ file, (s.close last).files s.writer.file.path = some file ∧ file <+: c ∧
      (last = .drop → s.disk.Reliable → file = c) := by
  cases last with
  | drop =>
    obtain ⟨f, hf, hpre, hall, -⟩ := BufWriter.dropped_spec h
    exact ⟨f, hf, hpre, fun _ hr => hall hr⟩
  | crash =>
    obtain ⟨f, hf, hpre⟩ := h.file_part
    exact ⟨f, hf, hpre, fun h => by cases h⟩

/-- **the file of a session**, and the chunks that its writer has made -/
theorem session_written {path : String} {header : FileHeader} {d₀ d : Disk} {w : SessionWriter}
    (hc : (SessionWriter.create path header).run d₀ = .ok w d) (ops : List Op) (last : Last) :
    ∃ hdr bs file, header.encode = .ok hdr ∧
      ((runOps ops w d).close last).files path = some file ∧
      Written hdr (runOps ops w d) last d₀ bs file ∧
      Cut hdr bs (runOps ops w d).writer (runOps ops w d).disk := by
  obtain ⟨hdr, he⟩ := create_encode hc
  have hcreate := @create_cases path header hdr he d₀
  rw [hc] at hcreate
  cases hcreate with
  | @ok f _ hp ht hf hbuf =>
    have hran := @runOps_record _ _ _ _ ⟨[], []⟩ (fresh_records header hf) ops
    have hpath : (fresh f header).file.path = path := hp
    rw [hpath] at hran
    have hreliable : d₀.Reliable → (runOps ops (fresh f header) d).disk.Reliable :=
      fun hr => hran.touches.reliable (ht.reliable hr)
    -- the chunks, and the bytes that were written of them
    obtain ⟨bs, c, hholds, hcut, hwritten⟩ : ∃ bs c,
        (runOps ops (fresh f header) d).writer.file.Holds (runOps ops (fresh f header) d).disk c ∧
        Cut hdr bs (runOps ops (fresh f header) d).writer (runOps ops (fresh f header) d).disk ∧
        ∀ file, file <+: c → (last = .drop → (runOps ops (fresh f header) d).disk.Reliable →
          file = c) → Written hdr (runOps ops (fresh f header) d) last d₀ bs file := by
      cases hs : (runOps ops (fresh f header) d).stopped with
      | false =>
        obtain ⟨bs, hr⟩ := hran.record hs
        obtain ⟨v, hk⟩ := hr.keeps
        refine ⟨bs, _, hk.holds, hk.cut, fun file hfile hall => ⟨hfile, ?_, ?_, ?_, ?_⟩⟩
        · exact fun hl hd _ => hall hl (hreliable hd)
        · exact ⟨_, hr.entries⟩
        · exact ⟨_, hr.events⟩
        · exact fun _ => ⟨hr.entries, hr.events⟩
      | true =>
        obtain ⟨bs, hcut, hes, hevs⟩ := hran.stopped hs
        obtain ⟨c, hholds, hc⟩ := hcut.holds
        refine ⟨bs, c, hholds, hcut, fun file hfile _ => ⟨hfile.trans hc, ?_, hes, hevs, ?_⟩⟩
        · exact fun _ _ h => by rw [hs] at h; cases h
        · exact fun h => by rw [hs] at h; cases h
    obtain ⟨file, hfile, hpre, hall⟩ := close_file hholds last
    rw [hran.path] at hfile
    exact ⟨hdr, bs, file, he, hfile, hwritten file hpre hall, hcut⟩

/-- **Every prefix of the file of a session is read back as the chunks that lie wholly inside
it**: whatever calls were made, in whatever order, and however the session ended -/
theorem session_cut {path : String} {header : FileHeader} {d₀ d : Disk} {w : SessionWriter}
    (hc : (SessionWriter.create path header).run d₀ = .ok w d) (ops : List Op) (last : Last) :
    ∃ hdr bs file, header.encode = .ok hdr ∧
      ((runOps ops w d).close last).files path = some file ∧
      Written hdr (runOps ops w d) last d₀ bs file ∧
      ((∀ b ∈ bs, b.payload.length ≤ maxChunkPayload.toNat) →
        ∀ cut : UInt64, 128 ≤ cut.toNat → cut.toNat ≤ file.length →
          ∃ r, SessionReader.open (file.take cut.toNat) = .ok r ∧
            Shows (bs.take (wholeChunks bs (cut.toNat - 128))) r ∧
            (r.tornTail = true ↔ ¬ ∃ j ≤ bs.length, cut.toNat = 128 + boundary bs j)) := by
  obtain ⟨hdr, bs, file, he, hfile, hw, hcut⟩ := session_written hc ops last
  have hhdr := (FileHeader.encode_ok he).1
  refine ⟨hdr, bs, file, he, hfile, hw, fun hmax cut h128 hlen => ?_⟩
  obtain ⟨v, hv⟩ := hcut.replayed
  have hprefix : file.take cut.toNat = hdr ++ (layout 1 bs).take (cut.toNat - 128) := by
    obtain ⟨rest, hrest⟩ := hw.part
    rw [← List.take_append_of_le_length hlen, hrest, List.take_append, hhdr,
      List.take_of_length_le (by omega)]
  have hbound : cut.toNat - 128 ≤ boundary bs bs.length := by
    have := hw.part.length_le
    rw [List.length_append, layout_length, hhdr] at this
    omega
  have hcut64 := cut.toNat_lt
  obtain ⟨r, hr, hshows, htorn⟩ := open_layout_take he hv (fun b hb => (hcut.batches b hb).1)
    hcut.small hmax hbound (by omega)
  refine ⟨r, hprefix ▸ hr, hshows, htorn.trans (not_congr ?_)⟩
  constructor
  · rintro ⟨j, hj, h⟩
    exact ⟨j, hj, by omega⟩
  · rintro ⟨j, hj, h⟩
    exact ⟨j, hj, by omega⟩

/-! ## a session of one event -/

def exampleDisk : Disk := ⟨fun _ => none, 0, fun _ => none, fun _ => none⟩

theorem exampleDisk_reliable : exampleDisk.Reliable := fun _ => rfl

/-- a new writer, and the disk with its file -/
def exampleStart : SessionWriter × Disk :=
  match (SessionWriter.create "s" journalHeader).run exampleDisk with
  | .ok w d => (w, d)
  | .error _ d => (fresh ⟨"s", 0, []⟩ journalHeader, d)

theorem exampleStart_run : (SessionWriter.create "s" journalHeader).run exampleDisk
    = .ok exampleStart.1 exampleStart.2 := by
  obtain ⟨hdr, he⟩ : ∃ hdr, journalHeader.encode = .ok hdr :=
    @FileHeader.encode_create journalHeader.sessionId 0 0 "" "" journalHeader rfl
  have h := @create_cases "s" journalHeader hdr he exampleDisk
  unfold exampleStart
  generalize (SessionWriter.create "s" journalHeader).run exampleDisk = r at h
  cases h with
  | ok hp ht hf hbuf => rfl
  | failed ht hrel => exact absurd exampleDisk_reliable hrel

/-- an event with one BYTES value of `n` zeros -/
def bytesEvent (n : Nat) : AppendEvent :=
  ⟨0, 1, 1, 1, 0, .info, ⟨[⟨1, .bytes (List.replicate n 0)⟩]⟩⟩

def exampleOps (n : Nat) : List Op :=
  [.intern .domain "net", .intern .category "rx", .intern .eventName "frame", .intern .string "raw",
    .append (bytesEvent n)]

set_option maxRecDepth 20000 in
/-- the file of a session of one event, cut off anywhere -/
theorem session_cut_one : ∃ hdr bs file, journalHeader.encode = .ok hdr ∧
    ((runOps (exampleOps 7 ++ [.flush]) exampleStart.1 exampleStart.2).close .drop).files "s"
      = some file ∧
    Written hdr (runOps (exampleOps 7 ++ [.flush]) exampleStart.1 exampleStart.2) .drop exampleDisk
      bs file ∧
    ((∀ b ∈ bs, b.payload.length ≤ maxChunkPayload.toNat) →
      ∀ cut : UInt64, 128 ≤ cut.toNat → cut.toNat ≤ file.length →
        ∃ r, SessionReader.open (file.take cut.toNat) = .ok r ∧
          Shows (bs.take (wholeChunks bs (cut.toNat - 128))) r ∧
          (r.tornTail = true ↔ ¬ ∃ j ≤ bs.length, cut.toNat = 128 + boundary bs j)) :=
  session_cut exampleStart_run (exampleOps 7 ++ [.flush]) .drop

end Dtj
