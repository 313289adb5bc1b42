import Dtj.Agent.Directory
import Dtj.Journal.Agree

/-!
# Connections that do not disturb each other

Agents that share a data directory on a disk that works.  A connection reads and writes the files that
it opens, and no others; so what else goes on in the directory makes no difference to it.

* `handle_alike`   a request is answered alike on two disks that agree on the files of its connection;
* `Host.reply`, `Host.replies`   what a connection is answered;
* `Opens`          the files that a connection opens;
* `isolated`       **a connection is answered, and leaves its journals, as if it were alone**.
-/

namespace Dtj.Agent
open Wire Checked SessionWriter

variable {P : String → Prop} {d₀ e₀ d e : Disk} {dataDir : String} {frame : Bytes}
  {s t : AgentState × Disk}

/-- the session that is open is at a path of `P` -/
def AgentState.Own (P : String → Prop) (st : AgentState) : Prop :=
  ∀ w, st.writer = some w → SessionWriter.Own P w

theorem refuse_alike {α : Type} (text : String) (h : Side (AgentState.Own P) P d₀ e₀ s t) :
    Alike (Side (AgentState.Own P) P d₀ e₀) ((refuse text : Handler α).run s) ((refuse text : Handler α).run t) :=
  .error _ h

theorem parsed_alike {α : Type} (r : Res String α) (h : Side (AgentState.Own P) P d₀ e₀ s t) :
    Alike (Side (AgentState.Own P) P d₀ e₀) ((parsed r).run s) ((parsed r).run t) := by
  unfold parsed
  cases r with
  | ok a => exact .ok a h
  | error e => cases e <;> exact .error _ h

/-- a call on a writer alike on both sides, whatever it is called on -/
def CallAlike {α : Type} (P : String → Prop) (d₀ e₀ : Disk) (p : WriterM α) : Prop :=
  ∀ s t, Side (SessionWriter.Own P) P d₀ e₀ s t → Alike (Side (SessionWriter.Own P) P d₀ e₀) (p.run s) (p.run t)

section
variable {α : Type} {p : WriterM α} {w : SessionWriter}

theorem callWriter_alike (hp : CallAlike P d₀ e₀ p) (hw : SessionWriter.Own P w) (ok : α → Reply) (bad : String)
    (h : Side (AgentState.Own P) P d₀ e₀ s t) :
    Alike (Side (AgentState.Own P) P d₀ e₀) ((callWriter w p ok bad).run s) ((callWriter w p ok bad).run t) := by
  obtain ⟨st, d⟩ := s
  obtain ⟨st', e⟩ := t
  obtain ⟨rfl, -, hd⟩ := h
  have halike := hp (w, d) (w, e) ⟨rfl, hw, hd⟩
  have own : ∀ w', SessionWriter.Own P w' → AgentState.Own P { st with writer := some w' } := by
    intro w' hw' w'' heq
    cases heq
    exact hw'
  simp only [callWriter, EStateM.run] at halike ⊢
  generalize p (w, d) = r at halike
  generalize p (w, e) = r' at halike
  cases halike with
  | @ok a s t h =>
    obtain ⟨w', d'⟩ := s
    obtain ⟨w'', e'⟩ := t
    obtain ⟨rfl, hown, hd⟩ := h
    exact .ok _ ⟨rfl, own _ hown, hd⟩
  | @error a s t h =>
    obtain ⟨w', d'⟩ := s
    obtain ⟨w'', e'⟩ := t
    obtain ⟨rfl, hown, hd⟩ := h
    cases a <;> exact .error _ ⟨rfl, own _ hown, hd⟩

theorem callTaken_alike (hp : CallAlike P d₀ e₀ p) (hw : SessionWriter.Own P w) (ok : α → Reply) (bad : String)
    (h : Side (AgentState.Own P) P d₀ e₀ s t) :
    Alike (Side (AgentState.Own P) P d₀ e₀) ((callTaken w p ok bad).run s) ((callTaken w p ok bad).run t) := by
  obtain ⟨st, d⟩ := s
  obtain ⟨st', e⟩ := t
  obtain ⟨rfl, -, hd⟩ := h
  have halike := hp (w, d) (w, e) ⟨rfl, hw, hd⟩
  have own : AgentState.Own P { st with writer := none } := fun w' hw' => by cases hw'
  -- the writer is dropped after the call
  have dropped : ∀ {w' : SessionWriter} {d' e' : Disk}, SessionWriter.Own P w' → Agree P d₀ e₀ d' e' →
      Agree P d₀ e₀ (w'.dropped d') (w'.dropped e') := by
    intro w' d' e' hown hd
    exact @dropped_alike P d₀ e₀ (w'.file, d') (w'.file, e') ⟨rfl, hown, hd⟩
  simp only [callTaken, EStateM.run] at halike ⊢
  generalize p (w, d) = r at halike
  generalize p (w, e) = r' at halike
  cases halike with
  | @ok a s t h =>
    obtain ⟨w', d'⟩ := s
    obtain ⟨w'', e'⟩ := t
    obtain ⟨rfl, hown, hd⟩ := h
    exact .ok _ ⟨rfl, own, dropped hown hd⟩
  | @error a s t h =>
    obtain ⟨w', d'⟩ := s
    obtain ⟨w'', e'⟩ := t
    obtain ⟨rfl, hown, hd⟩ := h
    cases a <;> exact .error _ ⟨rfl, own, dropped hown hd⟩

theorem logged_alike {p : WriterM Unit} (hp : CallAlike P d₀ e₀ p) : CallAlike P d₀ e₀ (logged p) := by
  intro s t h
  have halike := hp s t h
  simp only [logged, EStateM.run] at halike ⊢
  generalize p s = r at halike
  generalize p t = r' at halike
  cases halike with
  | ok a h => exact .ok a h
  | error a h =>
    cases a with
    | error e => exact .ok () h
    | panic => exact .error _ h
    | diverge => exact .error _ h

theorem appendFlush_alike (flushEvery : Bool) (ev : AppendEvent) : CallAlike P d₀ e₀ (appendFlush flushEvery ev) := by
  intro s t h
  refine .bind (appendEvent_alike ev h) fun seq s t h => ?_
  refine .ite _ (.bind (logged_alike (fun _ _ => flushChunk_alike) s t h) fun _ s t h => .ok _ h) (.ok _ h)

end

theorem setWriter_alike {w : SessionWriter} (hw : SessionWriter.Own P w) (h : Side (AgentState.Own P) P d₀ e₀ s t) :
    Alike (Side (AgentState.Own P) P d₀ e₀) ((setWriter w).run s) ((setWriter w).run t) := by
  obtain ⟨st, d⟩ := s
  obtain ⟨st', e⟩ := t
  obtain ⟨rfl, hown, hd⟩ := h
  have own : AgentState.Own P { st with writer := some w, sessionOpened := true } := by
    rintro w' hw'
    cases hw'
    exact hw
  simp only [setWriter, EStateM.run]
  cases hst : st.writer with
  | none => exact .ok () ⟨rfl, own, hd⟩
  | some old => exact .ok () ⟨rfl, own, @dropped_alike P d₀ e₀ (old.file, d) (old.file, e) ⟨rfl, hown old hst, hd⟩⟩

theorem openFile_alike {req : OpenRequest} {header : FileHeader} (hp : P (joinPath dataDir req.fileName))
    (h : Side (AgentState.Own P) P d₀ e₀ s t) :
    Alike (Side (AgentState.Own P) P d₀ e₀) ((openFile dataDir req header).run s)
      ((openFile dataDir req header).run t) := by
  obtain ⟨st, d⟩ := s
  obtain ⟨st', e⟩ := t
  obtain ⟨rfl, hown, hd⟩ := h
  have hdir := hd.createDirAll
  simp only [openFile, EStateM.run] at hdir ⊢
  generalize Disk.createDirAll d = r at hdir
  generalize Disk.createDirAll e = r' at hdir
  cases hdir with
  | error a hd => cases a <;> exact .error _ ⟨rfl, hown, hd⟩
  | @ok _ d' e' hd =>
    have hcreate := create_alike hp header hd
    simp only [EStateM.run] at hcreate ⊢
    generalize SessionWriter.create (joinPath dataDir req.fileName) header d' = r at hcreate
    generalize SessionWriter.create (joinPath dataDir req.fileName) header e' = r' at hcreate
    cases hcreate with
    | error hd =>
      rename_i a _ _
      cases a <;> exact .error _ ⟨rfl, hown, hd⟩
    | ok hw hd => exact .map _ (setWriter_alike hw ⟨rfl, hown, hd⟩)

theorem hello_alike (body : Bytes) (h : Side (AgentState.Own P) P d₀ e₀ s t) :
    Alike (Side (AgentState.Own P) P d₀ e₀) ((hello body).run s) ((hello body).run t) := by
  refine .ite _ (refuse_alike _ h) (.bind (.of _ h) fun ver s t h => .ite _ (.error _ h) ?_)
  obtain ⟨st, d⟩ := s
  obtain ⟨st', e⟩ := t
  obtain ⟨rfl, hown, hd⟩ := h
  exact .ok _ ⟨rfl, hown, hd⟩

theorem intern_alike (body : Bytes) (h : Side (AgentState.Own P) P d₀ e₀ s t) :
    Alike (Side (AgentState.Own P) P d₀ e₀) ((intern body).run s) ((intern body).run t) := by
  refine h.get fun st d e h => ?_
  have hown := h.own
  refine .ite _ (refuse_alike _ h) (.bind (parsed_alike _ h) fun request s t h => ?_)
  dsimp only
  cases hw : st.writer with
  | none => exact refuse_alike _ h
  | some writer =>
    cases kindOf request.1 with
    | none => exact refuse_alike _ h
    | some kind =>
      exact callWriter_alike (fun s t h => SessionWriter.intern_alike kind request.2 h) (hown writer hw) _ _ h

theorem openSession_alike {body : Bytes} (hopen : ∀ req header, parseOpen body = .ok req → req.header = .ok header →
      P (joinPath dataDir req.fileName)) (h : Side (AgentState.Own P) P d₀ e₀ s t) :
    Alike (Side (AgentState.Own P) P d₀ e₀) ((openSession dataDir body).run s) ((openSession dataDir body).run t) := by
  refine h.get fun st d e h => ?_
  refine .ite _ (refuse_alike _ h) ?_
  cases hreq : parseOpen body with
  | error a => cases a <;> exact .error _ h
  | ok req =>
    have hparsed : ∀ s : AgentState × Disk, (parsed (.ok req) : Handler OpenRequest).run s = .ok req s := fun _ => rfl
    rw [EStateM.run_bind, EStateM.run_bind, hparsed, hparsed]
    dsimp only
    cases hheader : req.header with
    | error a => exact refuse_alike _ h
    | ok header => exact openFile_alike (hopen req header hreq hheader) h

theorem appendEvent_alike (body : Bytes) (h : Side (AgentState.Own P) P d₀ e₀ s t) :
    Alike (Side (AgentState.Own P) P d₀ e₀) ((appendEvent body).run s) ((appendEvent body).run t) := by
  refine h.get fun st d e h => ?_
  have hown := h.own
  refine .ite _ (refuse_alike _ h) (.bind (parsed_alike _ h) fun ev s t h => ?_)
  cases hw : st.writer with
  | none => exact refuse_alike _ h
  | some writer => exact callWriter_alike (appendFlush_alike _ ev) (hown writer hw) _ _ h

theorem finishSession_alike (h : Side (AgentState.Own P) P d₀ e₀ s t) :
    Alike (Side (AgentState.Own P) P d₀ e₀) (finishSession.run s) (finishSession.run t) := by
  refine h.get fun st d e h => ?_
  have hown := h.own
  dsimp only
  cases hw : st.writer with
  | none => exact refuse_alike _ h
  | some writer => exact callTaken_alike (fun _ _ => finish_alike) (hown writer hw) _ _ h

theorem flush_alike (h : Side (AgentState.Own P) P d₀ e₀ s t) :
    Alike (Side (AgentState.Own P) P d₀ e₀) (flush.run s) (flush.run t) := by
  refine h.get fun st d e h => ?_
  have hown := h.own
  dsimp only
  cases hw : st.writer with
  | none => exact refuse_alike _ h
  | some writer => exact callWriter_alike (fun _ _ => flushChunk_alike) (hown writer hw) _ _ h

/-- **a request is answered alike** on two disks that agree on the files of its connection -/
theorem handle_alike (hopen : ∀ req header, opening frame = some (req, header) → P (joinPath dataDir req.fileName))
    (h : Side (AgentState.Own P) P d₀ e₀ s t) :
    Alike (Side (AgentState.Own P) P d₀ e₀) ((handle dataDir frame).run s) ((handle dataDir frame).run t) := by
  cases frame with
  | nil => exact refuse_alike _ h
  | cons opcode body =>
    refine .ite _ (hello_alike body h) (.ite _ (intern_alike body h) ?_)
    by_cases hcmd : opcode = Cmd.openSession.toU8
    · rw [if_pos hcmd]
      refine openSession_alike (fun req header hreq hheader => hopen req header ?_) h
      rw [opening, if_pos hcmd, hreq]
      dsimp only
      rw [hheader]
    rw [if_neg hcmd]
    refine .ite _ (appendEvent_alike body h) (.ite _ (finishSession_alike h) (.ite _ (.ok _ h) ?_))
    exact .ite _ (flush_alike h) (refuse_alike _ h)

/-! ## the host -/

theorem dropped_agree {st : AgentState} (hown : AgentState.Own P st) (h : Agree P d₀ e₀ d e) :
    Agree P d₀ e₀ (st.dropped d) (st.dropped e) := by
  unfold AgentState.dropped
  cases hw : st.writer with
  | none => exact h
  | some w => exact @dropped_alike P d₀ e₀ (w.file, d) (w.file, e) ⟨rfl, hown w hw, h⟩

/-- the connection that an action is of -/
def Act.conn : Act → Nat
  | .connect i _ => i
  | .request i _ => i
  | .close i => i

/-- the actions of one connection -/
def ofConn (i : Nat) (acts : List Act) : List Act := acts.filter fun a => a.conn = i

theorem ofConn_same {i : Nat} {a : Act} (h : a.conn = i) (acts : List Act) : ofConn i (a :: acts) = a :: ofConn i acts :=
  List.filter_cons_of_pos (decide_eq_true h)

theorem ofConn_other {i : Nat} {a : Act} (h : a.conn ≠ i) (acts : List Act) : ofConn i (a :: acts) = ofConn i acts :=
  List.filter_cons_of_neg (ne_true_of_eq_false (decide_eq_false h))

/-- the frame that is sent back; there is none when the connection ends without one -/
def Host.reply (dataDir : String) (h : Host) : Act → Option Reply
  | .connect _ _ => none
  | .close _ => none
  | .request i frame =>
    match h.conns i with
    | none => none
    | some st =>
      if frame.length > maxFrameSize then none
      else match (handle dataDir frame).run (st, h.disk) with
      | .ok r _ => some r
      | .error (.error (.again text)) _ => some ⟨.error, text⟩
      | .error (.error (.close text)) _ => some ⟨.error, text⟩
      | .error _ _ => none

/-- what is sent back on the actions of one connection -/
def Host.replies (dataDir : String) (i : Nat) : Host → List Act → List (Option Reply)
  | _, [] => []
  | h, a :: acts =>
    if a.conn = i then h.reply dataDir a :: Host.replies dataDir i (h.step dataDir a) acts
    else Host.replies dataDir i (h.step dataDir a) acts

/-- the file that an action opens -/
def Act.opened (dataDir : String) : Act → Option (Nat × String)
  | .request i frame => (opening frame).map fun x => (i, joinPath dataDir x.1.fileName)
  | .connect _ _ => none
  | .close _ => none

/-- a request of the connection opens the file -/
def Opens (dataDir : String) (acts : List Act) (i : Nat) (path : String) : Prop :=
  (i, path) ∈ acts.filterMap (Act.opened dataDir)

theorem opens_mem {dataDir : String} {acts : List Act} {a : Act} {i : Nat} {path : String} (ha : a ∈ acts)
    (h : Opens dataDir [a] i path) : Opens dataDir acts i path := by
  obtain ⟨b, hb, hopened⟩ := List.mem_filterMap.mp h
  rw [List.mem_singleton.mp hb] at hopened
  exact List.mem_filterMap.mpr ⟨a, ha, hopened⟩

section
variable {h g : Host} {i : Nat} {a : Act}

theorem Host.set_same (h : Host) (i : Nat) : h.set i (h.conns i) h.disk = h := by
  have hconns : (fun j => if j = i then h.conns i else h.conns j) = h.conns := by
    funext j
    split
    · rename_i hj
      rw [hj]
    · rfl
  rw [Host.set, hconns]

/-- how an action of a connection ends on two hosts: with the same state of it -/
def Moved (P : String → Prop) (d₀ e₀ : Disk) (i : Nat) (h g h' g' : Host) : Prop :=
  ∃ o d e, h' = h.set i o d ∧ g' = g.set i o e ∧ (∀ st, o = some st → AgentState.Own P st) ∧ Agree P d₀ e₀ d e

/-- **an action of a connection is answered alike on two hosts** that agree on its state and its files -/
theorem step_alike (hi : a.conn = i) (hconns : h.conns i = g.conns i)
    (hown : ∀ st, h.conns i = some st → AgentState.Own P st) (hd : Agree P d₀ e₀ h.disk g.disk)
    (hopen : ∀ path, Opens dataDir [a] i path → P path) :
    h.reply dataDir a = g.reply dataDir a ∧ Moved P d₀ e₀ i h g (h.step dataDir a) (g.step dataDir a) := by
  have stays : Moved P d₀ e₀ i h g h g := by
    refine ⟨h.conns i, h.disk, g.disk, (h.set_same i).symm, ?_, hown, hd⟩
    rw [hconns]
    exact (g.set_same i).symm
  have hung : ∀ st, AgentState.Own P st → ∀ d e, Agree P d₀ e₀ d e →
      Moved P d₀ e₀ i h g (h.hangUp i st d) (g.hangUp i st e) := fun st hst d e hde =>
    ⟨none, _, _, rfl, rfl, fun _ h => (by cases h), dropped_agree hst hde⟩
  cases a with
  | connect j config =>
    obtain rfl : j = i := hi
    refine ⟨rfl, ?_⟩
    rw [Host.step, Host.step, ← hconns]
    cases hj : h.conns j with
    | some st => exact stays
    | none =>
      refine ⟨_, _, _, rfl, rfl, fun st hst w hw => ?_, hd⟩
      cases hst
      cases hw
  | close j =>
    obtain rfl : j = i := hi
    refine ⟨rfl, ?_⟩
    rw [Host.step, Host.step, ← hconns]
    cases hj : h.conns j with
    | none => exact stays
    | some st => exact hung st (hown st hj) _ _ hd
  | request j frame =>
    obtain rfl : j = i := hi
    rw [Host.step, Host.step, Host.reply, Host.reply, ← hconns]
    cases hj : h.conns j with
    | none => exact ⟨rfl, stays⟩
    | some st =>
      dsimp only
      by_cases hlen : frame.length > maxFrameSize
      · rw [if_pos hlen, if_pos hlen, if_pos hlen, if_pos hlen]
        exact ⟨rfl, hung st (hown st hj) _ _ hd⟩
      rw [if_neg hlen, if_neg hlen, if_neg hlen, if_neg hlen]
      have halike := @handle_alike P d₀ e₀ dataDir frame (st, h.disk) (st, g.disk)
        (fun req header hx => hopen _ (List.mem_filterMap.mpr ⟨_, List.mem_singleton_self _, by rw [Act.opened, hx]; rfl⟩))
        ⟨rfl, hown st hj, hd⟩
      generalize (handle dataDir frame).run (st, h.disk) = r at halike
      generalize (handle dataDir frame).run (st, g.disk) = r' at halike
      have goes : ∀ st' d e, Side (AgentState.Own P) P d₀ e₀ (st', d) (st', e) →
          Moved P d₀ e₀ j h g (h.set j (some st') d) (g.set j (some st') e) := by
        intro st' d e hside
        refine ⟨_, _, _, rfl, rfl, fun st'' hst => ?_, hside.disks⟩
        cases hst
        exact hside.own
      cases halike with
      | @ok reply s t hside =>
        obtain ⟨st', d⟩ := s
        obtain ⟨st'', e⟩ := t
        obtain rfl : st' = st'' := hside.state
        exact ⟨rfl, goes st' d e hside⟩
      | @error abort s t hside =>
        obtain ⟨st', d⟩ := s
        obtain ⟨st'', e⟩ := t
        obtain rfl : st' = st'' := hside.state
        cases abort with
        | error refusal =>
          cases refusal with
          | again text => exact ⟨rfl, goes st' d e hside⟩
          | close text => exact ⟨rfl, hung st' hside.own d e hside.disks⟩
        | panic => exact ⟨rfl, hung st' hside.own d e hside.disks⟩
        | diverge => exact ⟨rfl, hung st' hside.own d e hside.disks⟩

/-- the connection has the same state on both hosts, with the same bytes in its files; `P j` are the
files of the connection `j` -/
structure Twin (P : Nat → String → Prop) (i : Nat) (h g : Host) : Prop where
  conns : h.conns i = g.conns i
  own : ∀ j st, h.conns j = some st → AgentState.Own (P j) st
  reliable : h.disk.Reliable ∧ g.disk.Reliable
  hasDir : h.disk.HasDir ∧ g.disk.HasDir
  files : ∀ path, P i path → h.disk.files path = g.disk.files path

theorem Host.set_conns (h : Host) (i j : Nat) (o : Option AgentState) (d : Disk) :
    (h.set i o d).conns j = if j = i then o else h.conns j := rfl

/-- **the connection acts on both hosts** -/
theorem Twin.acts {P : Nat → String → Prop} (ht : Twin P i h g) (hi : a.conn = i)
    (hopen : ∀ path, Opens dataDir [a] i path → P i path) :
    h.reply dataDir a = g.reply dataDir a ∧ Twin P i (h.step dataDir a) (g.step dataDir a) := by
  have hagree : Agree (P i) h.disk g.disk h.disk g.disk :=
    ⟨ht.reliable, ht.hasDir, ht.files, fun _ _ => rfl, fun _ _ => rfl⟩
  obtain ⟨hreply, o, d, e, hh, hg, hown, hd⟩ := step_alike hi ht.conns (ht.own i) hagree hopen
  refine ⟨hreply, ?_⟩
  rw [hh, hg]
  refine ⟨?_, fun j st hst => ?_, hd.reliable, hd.hasDir, hd.files⟩
  · rw [Host.set_conns, Host.set_conns, if_pos rfl, if_pos rfl]
  · rw [Host.set_conns] at hst
    split at hst
    · rename_i hj
      rw [hj]
      exact hown st hst
    · exact ht.own j st hst

/-- **another connection acts on the first host only** -/
theorem Twin.others {P : Nat → String → Prop} (ht : Twin P i h g) {j : Nat} (hj : a.conn = j) (hne : i ≠ j)
    (hapart : ∀ path, P i path → ¬ P j path) (hopen : ∀ path, Opens dataDir [a] j path → P j path) :
    Twin P i (h.step dataDir a) g := by
  have hagree : Agree (P j) h.disk h.disk h.disk h.disk :=
    ⟨⟨ht.reliable.1, ht.reliable.1⟩, ⟨ht.hasDir.1, ht.hasDir.1⟩, fun _ _ => rfl, fun _ _ => rfl, fun _ _ => rfl⟩
  obtain ⟨-, o, d, e, hh, -, hown, hd⟩ := step_alike hj rfl (ht.own j) hagree hopen
  rw [hh]
  refine ⟨?_, fun k st hst => ?_, ⟨hd.reliable.1, ht.reliable.2⟩, ⟨hd.hasDir.1, ht.hasDir.2⟩, fun path hpath => ?_⟩
  · rw [Host.set_conns, if_neg hne]
    exact ht.conns
  · rw [Host.set_conns] at hst
    split at hst
    · rename_i hk
      rw [hk]
      exact hown st hst
    · exact ht.own k st hst
  · exact (hd.left path (hapart path hpath)).trans (ht.files path hpath)

/-- a history, and what one connection does in it -/
theorem Twin.run {P : Nat → String → Prop} {acts : List Act} (ht : Twin P i h g)
    (hapart : ∀ j, i ≠ j → ∀ path, P i path → ¬ P j path)
    (hopen : ∀ j path, Opens dataDir acts j path → P j path) :
    Host.replies dataDir i h acts = Host.replies dataDir i g (ofConn i acts) ∧
      Twin P i (h.run dataDir acts) (g.run dataDir (ofConn i acts)) := by
  induction acts generalizing h g with
  | nil => exact ⟨rfl, ht⟩
  | cons a acts ih =>
    have hfirst : ∀ j path, Opens dataDir [a] j path → P j path :=
      fun j path hx => hopen j path (opens_mem (List.mem_cons_self ..) hx)
    have hrest : ∀ j path, Opens dataDir acts j path → P j path := by
      intro j path hx
      obtain ⟨b, hb, hopened⟩ := List.mem_filterMap.mp hx
      exact hopen j path (List.mem_filterMap.mpr ⟨b, List.mem_cons_of_mem a hb, hopened⟩)
    by_cases hi : a.conn = i
    · obtain ⟨hreply, hnext⟩ := ht.acts hi (hfirst i)
      obtain ⟨hreplies, htwin⟩ := ih hnext hrest
      rw [ofConn_same hi, Host.replies, Host.replies, if_pos hi, if_pos hi, hreply,
        hreplies]
      exact ⟨rfl, htwin⟩
    · have hnext := ht.others rfl (Ne.symm hi) (hapart _ (Ne.symm hi)) (hfirst _)
      rw [ofConn_other hi, Host.replies, if_neg hi]
      exact ih hnext hrest

/-- **A connection is answered, and leaves its journals, as if it were alone**: in every history of agents on
one data directory, on a disk that works, in which no file is opened by two connections, the replies to a
connection, its state and the bytes of its files are those of its own actions alone -/
theorem isolated {h₀ : Host} (hnone : ∀ i, h₀.conns i = none) (hreliable : h₀.disk.Reliable)
    (hdir : h₀.disk.HasDir) {acts : List Act}
    (hapart : ∀ i j path, Opens dataDir acts i path → Opens dataDir acts j path → i = j) (i : Nat) :
    Host.replies dataDir i h₀ acts = Host.replies dataDir i h₀ (ofConn i acts) ∧
    (h₀.run dataDir acts).conns i = (h₀.run dataDir (ofConn i acts)).conns i ∧
    ∀ path, Opens dataDir acts i path →
      (h₀.run dataDir acts).disk.files path = (h₀.run dataDir (ofConn i acts)).disk.files path := by
  have htwin : Twin (Opens dataDir acts) i h₀ h₀ := by
    refine ⟨rfl, fun j st hst => ?_, ⟨hreliable, hreliable⟩, ⟨hdir, hdir⟩, fun _ _ => rfl⟩
    rw [hnone] at hst
    cases hst
  have hrun := htwin.run (fun j hne path hi hj => hne (hapart i j path hi hj)) fun _ _ => id
  exact ⟨hrun.1, hrun.2.conns, hrun.2.files⟩

/-- a session that another connection goes into -/
def interleaved : List Act := firstSession.take 4 ++ secondSession "t" ++ firstSession.drop 4

theorem isolated_example :
    Host.replies "d" 0 Host.start interleaved = Host.replies "d" 0 Host.start firstSession ∧
    (Host.start.run "d" interleaved).disk.files "d/s" = (Host.start.run "d" firstSession).disk.files "d/s" := by
  have hsolo : ofConn 0 interleaved = firstSession := rfl
  have hall : (interleaved.filterMap (Act.opened "d")).all (fun p => (interleaved.filterMap (Act.opened "d")).all
      fun q => p.2 != q.2 || p.1 == q.1) = true := by decide +kernel
  have hapart : ∀ i j path, Opens "d" interleaved i path → Opens "d" interleaved j path → i = j := by
    intro i j path hi hj
    have hpair := List.all_eq_true.mp (List.all_eq_true.mp hall _ hi) _ hj
    simpa using hpair
  have h := @isolated "d" Host.start (fun _ => rfl) exampleDisk_reliable (fun _ => rfl) interleaved hapart 0
  rw [hsolo] at h
  exact ⟨h.1, h.2.2 "d/s" (by unfold Opens; decide +kernel)⟩

end

end Dtj.Agent
