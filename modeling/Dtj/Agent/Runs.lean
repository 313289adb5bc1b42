import Dtj.Agent.Sessions

/-!
# Histories of a connection

What holds of every state that a connection comes to, whatever was asked before.

* `serve_answered`   the requests that are answered are a run, however many there are;
* `Throughout`       what every request of a run meets;
* `Run.history`      **what one request preserves, a whole run preserves**;
* `session`          the session that is open, by what the client asked and was answered.
-/

namespace Dtj.Agent
open Wire Checked SessionWriter

variable {dataDir : String} {frame : Bytes} {st st' : AgentState} {d d' : Disk} {x : Exchange}
  {xs : List Exchange} {w w' : SessionWriter} {r : Reply}

/-! ## the requests that are answered -/

theorem callWriter_reply {α : Type} {p : WriterM α} {ok : α → Reply} {bad : String}
    {s : AgentState × Disk} (h : (callWriter w p ok bad).run (st, d) = .ok r s) : ∃ a, r = ok a := by
  simp only [callWriter, EStateM.run] at h
  split at h <;> cases h
  exact ⟨_, rfl⟩

theorem callTaken_reply {α : Type} {p : WriterM α} {ok : α → Reply} {bad : String}
    {s : AgentState × Disk} (h : (callTaken w p ok bad).run (st, d) = .ok r s) : ∃ a, r = ok a := by
  simp only [callTaken, EStateM.run] at h
  split at h <;> cases h
  exact ⟨_, rfl⟩

theorem openFile_reply {req : OpenRequest} {header : FileHeader} {s : AgentState × Disk}
    (h : (openFile dataDir req header).run (st, d) = .ok r s) : r = ⟨.openSessionOk, []⟩ := by
  simp only [openFile, EStateM.run] at h
  split at h
  · cases h
  · cases h
  · cases h
  · split at h <;> cases h
    rfl

/-- a response that is no Error frame has the opcode of its request -/
theorem handle_belongs {s : AgentState × Disk} (hx : frame.length < 2^63)
    (h : (handle dataDir frame).run (st, d) = .ok r s) : Belongs frame r := by
  have hcases := @handle_cases dataDir st d frame hx
  rw [h] at hcases
  generalize hq : (EStateM.Result.ok r s : Outcome) = q at hcases
  cases hcases with
  | refused => cases hq
  | hello hf =>
    cases hq
    exact ⟨_, _, hf, rfl⟩
  | ping hf =>
    cases hq
    exact ⟨_, _, hf, rfl⟩
  | intern hf =>
    obtain ⟨_, rfl⟩ := callWriter_reply hq.symm
    exact ⟨_, _, hf, rfl⟩
  | openSession hf =>
    rw [openFile_reply hq.symm]
    exact ⟨_, _, hf, rfl⟩
  | appendEvent hf =>
    obtain ⟨_, rfl⟩ := callWriter_reply hq.symm
    exact ⟨_, _, hf, rfl⟩
  | finishSession hf =>
    obtain ⟨_, rfl⟩ := callTaken_reply hq.symm
    exact ⟨_, _, hf, rfl⟩
  | flush hf =>
    obtain ⟨_, rfl⟩ := callWriter_reply hq.symm
    exact ⟨_, _, hf, rfl⟩

/-- `handle_client` returns only when the data directory cannot be created -/
theorem handle_close {text : Bytes} {s : AgentState × Disk} (hx : frame.length < 2^63)
    (hd : d.HasDir) : (handle dataDir frame).run (st, d) ≠ .error (.error (.close text)) s := by
  intro h
  have hcases := @handle_cases dataDir st d frame hx
  rw [h] at hcases
  generalize hq : (EStateM.Result.error (.error (.close text)) s : Outcome) = q at hcases
  have writer : ∀ {α : Type} {p : WriterM α} {ok : α → Reply} {bad : String} {w : SessionWriter},
      (callWriter w p ok bad).run (st, d) ≠ .error (.error (.close text)) s := by
    intro α p ok bad w h
    simp only [callWriter, EStateM.run] at h
    split at h <;> cases h
  cases hcases with
  | refused => cases hq
  | hello hf => cases hq
  | ping hf => cases hq
  | intern hf => exact writer hq.symm
  | @openSession body req header hf hst hp hh =>
    rcases @openFile_did dataDir st d req header hd with ⟨w, d₁, hc, ho⟩ | ⟨e, d₁, text', hc, ho⟩ |
      ⟨s, ho | ho⟩
    · rw [ho] at hq; cases hq
    · rw [ho] at hq; cases hq
    · rw [ho] at hq; cases hq
    · rw [ho] at hq; cases hq
  | appendEvent hf => exact writer hq.symm
  | finishSession hf =>
    have h' := hq.symm
    simp only [callTaken, EStateM.run] at h'
    split at h' <;> cases h'
  | flush hf => exact writer hq.symm

/-- a request does not change which faults there are -/
theorem Effect.schedule (h : Effect dataDir frame st d (st', d')) :
    d'.faults = d.faults ∧ d'.dirFaults = d.dirFaults := by
  -- a new file, as far as it got
  have created : ∀ {req header}, opening frame = some (req, header) →
      (stateOf ((SessionWriter.create (joinPath dataDir req.fileName) header).run d.tick.2)).faults
          = d.faults ∧
        (stateOf ((SessionWriter.create (joinPath dataDir req.fileName) header).run
          d.tick.2)).dirFaults = d.dirFaults := by
    intro req header ho
    obtain ⟨hdr, he⟩ := FileHeader.encode_create (@opening_header ⟨frame, ⟨.error, []⟩⟩ _ _ ho)
    have hcases := @create_cases (joinPath dataDir req.fileName) header hdr he d.tick.2
    generalize (SessionWriter.create (joinPath dataDir req.fileName) header).run d.tick.2 = res
      at hcases ⊢
    cases hcases with
    | ok hp ht hf hbuf => exact ⟨ht.faults, ht.dirFaults⟩
    | failed ht hrel => exact ⟨ht.faults, ht.dirFaults⟩
  cases h with
  | same hw hd' =>
    rcases hd' with rfl | rfl
    · exact ⟨rfl, rfl⟩
    · exact ⟨rfl, rfl⟩
  | moved hw hw' h => exact ⟨h.touches.faults, h.touches.dirFaults⟩
  | ended hw hw' h => exact ⟨h.touches.faults, h.touches.dirFaults⟩
  | opened hx hw' hrun =>
    have hc := created hx
    rw [hrun] at hc
    unfold AgentState.dropped
    cases st.writer with
    | none => exact hc
    | some old =>
      obtain ⟨_, hdrop⟩ := BufWriter.dropped_onward old.file _
      exact ⟨hdrop.touches.faults.trans hc.1, hdrop.touches.dirFaults.trans hc.2⟩
  | notOpened hx hw' hrun =>
    have hc := created hx
    rw [hrun] at hc
    exact hc

theorem Effect.hasDir (h : Effect dataDir frame st d (st', d')) (hd : d.HasDir) : d'.HasDir := by
  intro n
  rw [h.schedule.2, hd n]

theorem Effect.works (h : Effect dataDir frame st d (st', d')) (hd : Works d) : Works d' := by
  refine ⟨fun n => ?_, h.hasDir hd.dir⟩
  rw [h.schedule.1, hd.reliable n]

/-- **the requests that are answered are a run**, however many there are; it goes on up to the end
of the connection, or to a panic -/
theorem serve_answered {frames : List Bytes} (hframes : ∀ frame ∈ frames, frame.length < 2^63)
    (hd : d.HasDir) :
    ∃ st' d', Run dataDir st d (serve dataDir frames st d).exchanges st' d' ∧
      ((serve dataDir frames st d).ending = .going →
        st' = (serve dataDir frames st d).state ∧ d' = (serve dataDir frames st d).disk) := by
  induction frames generalizing st d with
  | nil => exact ⟨st, d, .nil, fun _ => ⟨rfl, rfl⟩⟩
  | cons frame frames ih =>
    have hx : frame.length < 2^63 := hframes frame (List.mem_cons_self ..)
    -- the requests that follow, from what this one leaves
    have next : ∀ {r : Reply} {st₁ : AgentState} {d₁ : Disk}, Step dataDir st d ⟨frame, r⟩ st₁ d₁ →
        ∃ st' d', Run dataDir st d ((serve dataDir frames st₁ d₁).cons ⟨frame, r⟩).exchanges st' d' ∧
          (((serve dataDir frames st₁ d₁).cons ⟨frame, r⟩).ending = .going →
            st' = ((serve dataDir frames st₁ d₁).cons ⟨frame, r⟩).state ∧
            d' = ((serve dataDir frames st₁ d₁).cons ⟨frame, r⟩).disk) := by
      intro r st₁ d₁ hstep
      obtain ⟨st', d', hrun, hend⟩ := @ih st₁ d₁ (fun f hf => hframes f (List.mem_cons_of_mem _ hf))
        ((step_effect hstep hx).hasDir hd)
      exact ⟨st', d', .cons hstep hrun, hend⟩
    rw [serve]
    cases hr : (handle dataDir frame).run (st, d) with
    | ok r s => exact next (.done hr (handle_belongs hx hr))
    | error a s =>
      cases a with
      | error e =>
        cases e with
        | again text => exact next (.refused hr)
        | close text => exact absurd hr (handle_close hx hd)
      | panic => exact ⟨st, d, .nil, fun h => by cases h⟩
      | diverge => exact ⟨st, d, .nil, fun h => by cases h⟩

/-! ## what holds in a whole run -/

/-- every request of the run meets `P`, in the state that it finds -/
def Throughout (dataDir : String) (P : AgentState → Disk → Exchange → Prop) (st : AgentState)
    (d : Disk) (xs : List Exchange) : Prop :=
  ∀ pre x post st₁ d₁, xs = pre ++ x :: post → Run dataDir st d pre st₁ d₁ → P st₁ d₁ x

theorem Throughout.part {P : AgentState → Disk → Exchange → Prop} {ys : List Exchange}
    (h : Throughout dataDir P st d ys) (hp : xs <+: ys) : Throughout dataDir P st d xs := by
  obtain ⟨zs, rfl⟩ := hp
  rintro pre x post st₁ d₁ rfl hrun
  refine h pre x (post ++ zs) st₁ d₁ ?_ hrun
  rw [List.append_assoc, List.cons_append]

/-- the state that a request leaves, if it is answered and the connection goes on -/
def after (dataDir : String) (frame : Bytes) (st : AgentState) (d : Disk) :
    Option (AgentState × Disk) :=
  match (handle dataDir frame).run (st, d) with
  | .ok _ s => some s
  | .error (.error (.again _)) s => some s
  | .error _ _ => none

theorem Step.after (h : Step dataDir st d x st' d') :
    Dtj.Agent.after dataDir x.frame st d = some (st', d') := by
  unfold Dtj.Agent.after
  cases h with
  | done hr hb => simp only [hr]
  | refused hr => simp only [hr]

/-- `Throughout` as it can be run -/
def throughout (dataDir : String) (p : AgentState → Disk → Exchange → Bool) :
    List Exchange → AgentState → Disk → Bool
  | [], _, _ => true
  | x :: xs, st, d => p st d x && match after dataDir x.frame st d with
    | some (st, d) => throughout dataDir p xs st d
    | none => true

theorem throughout_of {P : AgentState → Disk → Exchange → Prop}
    {p : AgentState → Disk → Exchange → Bool} (hp : ∀ {st d x}, p st d x = true → P st d x)
    (h : throughout dataDir p xs st d = true) : Throughout dataDir P st d xs := by
  induction xs generalizing st d with
  | nil => intro pre x post st₁ d₁ he; simp at he
  | cons y ys ih =>
    rw [throughout, Bool.and_eq_true] at h
    intro pre x post st₁ d₁ he hrun
    cases hrun with
    | nil =>
      cases he
      exact hp h.1
    | cons hstep hrest =>
      cases he
      have hys := h.2
      rw [hstep.after] at hys
      exact ih hys _ _ _ _ _ rfl hrest

/-- the last request of a run -/
theorem Run.last (h : Run dataDir st d (xs ++ [x]) st' d') :
    ∃ st₁ d₁, Run dataDir st d xs st₁ d₁ ∧ Step dataDir st₁ d₁ x st' d' := by
  obtain ⟨st₁, d₁, hrun, hlast⟩ := h.split
  cases hlast with
  | cons hstep hrest =>
    cases hrest with
    | nil => exact ⟨st₁, d₁, hrun, hstep⟩

/-- **What one request preserves, a whole run preserves**, by induction on the requests from the
last one on; `I` may speak of those before it -/
theorem Run.history {P : AgentState → Disk → Exchange → Prop}
    {I : List Exchange → AgentState → Disk → Prop} (h : Run dataDir st d xs st' d') (hx : Fits xs)
    (hP : Throughout dataDir P st d xs) (h0 : I [] st d)
    (hstep : ∀ {pre x st₁ d₁ st₂ d₂}, Step dataDir st₁ d₁ x st₂ d₂ → x.frame.length < 2^63 →
      P st₁ d₁ x → I pre st₁ d₁ → I (pre ++ [x]) st₂ d₂) : I xs st' d' := by
  induction xs using List.reverseRecOn generalizing st' d' with
  | nil =>
    cases h with
    | nil => exact h0
  | append_singleton xs x ih =>
    obtain ⟨st₁, d₁, hrun, hlast⟩ := h.last
    have hI : I xs st₁ d₁ := ih hrun (hx.part fun y hy => List.mem_append_left _ hy)
      (hP.part (List.prefix_append _ _))
    exact hstep hlast (hx x (List.mem_append_right _ (List.mem_singleton_self x)))
      (hP xs x [] st₁ d₁ rfl hrun) hI

/-! ## the session that is open -/

/-- the session that an `OpenSession` started -/
def Exchange.started (x : Exchange) : Option (OpenRequest × FileHeader) :=
  if x.reply.resp = .openSessionOk then opening x.frame else none

/-- the session that was started last -/
def session (xs : List Exchange) : Option (OpenRequest × FileHeader) :=
  xs.foldl (fun s x => x.started.or s) none

theorem session_snoc (xs : List Exchange) (x : Exchange) :
    session (xs ++ [x]) = x.started.or (session xs) := by
  rw [session, List.foldl_append]
  rfl

theorem session_same (h : x.reply.resp ≠ .openSessionOk) : session (xs ++ [x]) = session xs := by
  rw [session_snoc, Exchange.started, if_neg h]
  rfl

theorem session_opened {req : OpenRequest} {header : FileHeader}
    (hx : opening x.frame = some (req, header)) (hr : x.reply = ⟨.openSessionOk, []⟩) :
    session (xs ++ [x]) = some (req, header) := by
  rw [session_snoc, Exchange.started, hr, if_pos rfl, hx]
  rfl

/-! ## how a call ended -/

/-- what holds of the writer and of the disk that a call leaves, unless it panics -/
def Leaves {α : Type} (Q : SessionWriter → Disk → Prop) :
    EStateM.Result (Abort Error) (SessionWriter × Disk) α → Prop
  | .ok _ s => Q s.1 s.2
  | .error (.error _) s => Q s.1 s.2
  | .error .panic _ => True
  | .error .diverge _ => True

theorem Replied.leaves {α : Type} {ok : α → Reply} {Q : SessionWriter → Disk → Prop}
    {res : EStateM.Result (Abort Error) (SessionWriter × Disk) α} (h : Replied ok w d res r)
    (hq : Leaves Q res) : Q w d := by
  cases h with
  | ok => exact hq
  | refused => exact hq

theorem Replied.ends {α : Type} {ok : α → Reply} {room : Prop}
    {Q : SessionWriter × Disk → Prop} {res : EStateM.Result (Abort Error) (SessionWriter × Disk) α}
    (h : Replied ok w d res r) (hq : Ends room Q res) : Q (w, d) := by
  cases h with
  | ok => exact hq.left
  | refused => exact hq.left

/-- a name is taken into the dictionary; the file and the events stay -/
theorem intern_leaves (ho : w.finished = false) (kind : DictKind) (name : String) :
    Leaves (fun w' d' => w'.file = w.file ∧ w'.finished = false ∧
      w'.pendingEvents = w.pendingEvents ∧ d' = d) ((SessionWriter.intern kind name).run (w, d)) := by
  rw [intern_run ho]
  cases (Dictionary.intern kind name).run w.dictionary with
  | ok a dict =>
    obtain ⟨id, newly⟩ := a
    cases newly with
    | false => exact ⟨rfl, ho, rfl, rfl⟩
    | true => exact ⟨rfl, ho, rfl, rfl⟩
  | error a dict =>
    cases a with
    | error e => exact ⟨rfl, ho, rfl, rfl⟩
    | panic => trivial
    | diverge => trivial

end Dtj.Agent
