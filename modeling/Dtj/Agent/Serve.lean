import Dtj.Agent.Handle

/-!
# The agent: a connection as a run over its requests

The loop of `handle_client` reads bytes; what it does is a run over the frames that are all there.

* `serve`      the requests one after the other, up to the end of the connection;
* `requests`   the frames in the bytes of a client, and how the bytes end;
* `handleClient_answered`   **the loop does what the run over its requests does**.
-/

namespace Dtj.Agent
open Wire Checked SessionWriter

structure Exchange where
  frame : Bytes
  reply : Reply
deriving DecidableEq

inductive Ending where
  | going
  | closed
  | panicked
  | diverged
deriving DecidableEq

/-- requests that were answered, what they left, and whether the connection still goes on -/
structure Served where
  exchanges : List Exchange
  state : AgentState
  disk : Disk
  ending : Ending

def Served.cons (x : Exchange) (s : Served) : Served := { s with exchanges := x :: s.exchanges }

def serve (dataDir : String) : List Bytes → AgentState → Disk → Served
  | [], st, d => ⟨[], st, d, .going⟩
  | frame :: frames, st, d =>
    match (handle dataDir frame).run (st, d) with
    | .ok r (st, d) => (serve dataDir frames st d).cons ⟨frame, r⟩
    | .error (.error (.again text)) (st, d) =>
      (serve dataDir frames st d).cons ⟨frame, ⟨.error, text⟩⟩
    | .error (.error (.close text)) (st, d) => ⟨[⟨frame, ⟨.error, text⟩⟩], st, d, .closed⟩
    | .error .panic (st, d) => ⟨[], st, d, .panicked⟩
    | .error .diverge (st, d) => ⟨[], st, d, .diverged⟩

/-- how the bytes of a client end: between two frames or in the length of one, with a frame that
is too large, or in the middle of a frame -/
inductive Tail where
  | eof
  | tooLarge
  | cut
deriving DecidableEq

/-- the frames that are all there, and what comes after them -/
def requests (input : Bytes) : List Bytes × Tail :=
  if _h : input.length < 4 then ([], .eof)
  else if leAt input 0 4 > maxFrameSize then ([], .tooLarge)
  else if (input.drop 4).length < leAt input 0 4 then ([], .cut)
  else
    let x := requests ((input.drop 4).drop (leAt input 0 4))
    ((input.drop 4).take (leAt input 0 4) :: x.1, x.2)
termination_by input.length
decreasing_by
  rw [List.length_drop, List.length_drop]
  omega

/-- the bytes of a request: its length, and the request -/
def frameBytes (frame : Bytes) : Bytes := le 4 frame.length ++ frame

/-- **the frames of a client are read one by one** -/
theorem requests_frame {frame : Bytes} (h : frame.length ≤ maxFrameSize) (rest : Bytes) :
    requests (frameBytes frame ++ rest) = (frame :: (requests rest).1, (requests rest).2) := by
  have hmax : maxFrameSize = 1048576 := rfl
  have hlen : leAt (frameBytes frame ++ rest) 0 4 = frame.length := by
    rw [frameBytes, List.append_assoc]
    exact leAt_head 4 _ _ (by omega)
  have hdrop : (frameBytes frame ++ rest).drop 4 = frame ++ rest := by
    rw [frameBytes, List.append_assoc]
    exact List.drop_left' (le_length 4 _)
  have h4 : ¬ (frameBytes frame ++ rest).length < 4 := by
    rw [frameBytes, List.append_assoc, List.length_append, le_length]
    omega
  have hcut : ¬ (frame ++ rest).length < frame.length := by
    rw [List.length_append]
    omega
  rw [requests, dif_neg h4, hlen, if_neg (not_lt.mpr h), hdrop, if_neg hcut,
    List.take_left' rfl, List.drop_left' rfl]

theorem requests_frames {frames : List Bytes} (h : ∀ frame ∈ frames, frame.length ≤ maxFrameSize) :
    requests (frames.flatMap frameBytes) = (frames, .eof) := by
  induction frames with
  | nil =>
    rw [requests]
    exact dif_pos (by decide)
  | cons frame frames ih =>
    rw [List.flatMap_cons, requests_frame (h frame (List.mem_cons_self ..)),
      ih fun f hf => h f (List.mem_cons_of_mem _ hf)]

/-- what `handle_client` returns -/
def conclude : Ending → Tail → Except (Abort Halt) Unit
  | .going, .eof => .ok ()
  | .going, .tooLarge => .error (.error ⟨"frame too large"⟩)
  | .going, .cut => .error (.error ⟨"failed to fill whole buffer"⟩)
  | .closed, _ => .error (.error ⟨"cannot create data dir"⟩)
  | .panicked, _ => .error .panic
  | .diverged, _ => .error .diverge

/-- a request is at most as long as the largest frame -/
theorem requests_length {input frame : Bytes} (h : frame ∈ (requests input).1) :
    frame.length ≤ maxFrameSize := by
  induction hn : input.length using Nat.strong_induction_on generalizing input with
  | _ n ih =>
    rw [requests] at h
    split at h
    · cases h
    split at h
    · cases h
    split at h
    · cases h
    rename_i h4 hmax hlen
    rcases List.mem_cons.mp h with h | h
    · rw [h, List.length_take]
      omega
    · refine ih _ ?_ h rfl
      rw [List.length_drop, List.length_drop]
      omega

/-- what the loop over the bytes of a connection leaves, when its requests leave `s` -/
structure Answered (c : Conn) (tail : Tail) (s : Served)
    (r : EStateM.Result (Abort Halt) Conn Unit) : Prop where
  ended : ∃ c', (r = match conclude s.ending tail with
      | .ok u => .ok u c'
      | .error e => .error e c') ∧
    c'.state = s.state ∧ c'.disk = s.disk ∧ c'.output = c.output ++ s.exchanges.map Exchange.reply

theorem Answered.cons {c c' : Conn} {tail : Tail} {s : Served} {x : Exchange}
    {r : EStateM.Result (Abort Halt) Conn Unit} (h : Answered c' tail s r)
    (hc : c'.output = c.output ++ [x.reply]) : Answered c tail (s.cons x) r := by
  obtain ⟨c'', hr, hst, hd, ho⟩ := h.ended
  refine ⟨c'', hr, hst, hd, ?_⟩
  rw [ho, hc, List.append_assoc]
  rfl

theorem readFrame_run (c : Conn) : readFrame.run c =
    if c.input.length < 4 then .ok none { c with input := [] }
    else if leAt c.input 0 4 > maxFrameSize then
      .error (.error ⟨"frame too large"⟩) { c with input := c.input.drop 4 }
    else if (c.input.drop 4).length < leAt c.input 0 4 then
      .error (.error ⟨"failed to fill whole buffer"⟩) { c with input := [] }
    else .ok (some ((c.input.drop 4).take (leAt c.input 0 4)))
      { c with input := (c.input.drop 4).drop (leAt c.input 0 4) } := rfl

theorem answer_run (h : Handler Reply) (c : Conn) : (answer h).run c =
    match h.run (c.state, c.disk) with
    | .ok r (st, d) => .ok () { c with state := st, disk := d, output := c.output ++ [r] }
    | .error (.error (.again text)) (st, d) =>
      .ok () { c with state := st, disk := d, output := c.output ++ [⟨.error, text⟩] }
    | .error (.error (.close text)) (st, d) =>
      .error (.error ⟨"cannot create data dir"⟩)
        { c with state := st, disk := d, output := c.output ++ [⟨.error, text⟩] }
    | .error .panic (st, d) => .error .panic { c with state := st, disk := d }
    | .error .diverge (st, d) => .error .diverge { c with state := st, disk := d } := rfl

/-- **the loop over the bytes of a connection is the run over its requests** -/
theorem loop_round {dataDir : String} (n : Nat) (c : Conn) (hn : c.input.length < n) :
    Answered c (requests c.input).2 (serve dataDir (requests c.input).1 c.state c.disk)
      ((loop (round dataDir) n).run c) := by
  induction n generalizing c with
  | zero => omega
  | succ n ih =>
    rw [loop_succ, requests, round, EStateM.run_bind, readFrame_run]
    by_cases h4 : c.input.length < 4
    · rw [if_pos h4, dif_pos h4]
      exact ⟨_, rfl, rfl, rfl, (List.append_nil _).symm⟩
    rw [if_neg h4, dif_neg h4]
    by_cases hmax : leAt c.input 0 4 > maxFrameSize
    · rw [if_pos hmax, if_pos hmax]
      exact ⟨_, rfl, rfl, rfl, (List.append_nil _).symm⟩
    rw [if_neg hmax, if_neg hmax]
    by_cases hcut : (c.input.drop 4).length < leAt c.input 0 4
    · rw [if_pos hcut, if_pos hcut]
      exact ⟨_, rfl, rfl, rfl, (List.append_nil _).symm⟩
    rw [if_neg hcut, if_neg hcut]
    have hrest : ((c.input.drop 4).drop (leAt c.input 0 4)).length < n := by
      rw [List.length_drop, List.length_drop]
      omega
    generalize (c.input.drop 4).drop (leAt c.input 0 4) = rest at hrest ⊢
    generalize (c.input.drop 4).take (leAt c.input 0 4) = frame
    simp only [serve, EStateM.run_bind, answer_run]
    -- the next round goes on from what this one leaves
    have next : ∀ (r : Reply) (st : AgentState) (d : Disk),
        Answered c (requests rest).2 ((serve dataDir (requests rest).1 st d).cons ⟨frame, r⟩)
          ((loop (round dataDir) n).run ⟨st, d, rest, c.output ++ [r]⟩) :=
      fun r st d => (ih ⟨st, d, rest, c.output ++ [r]⟩ hrest).cons rfl
    cases (handle dataDir frame).run (c.state, c.disk) with
    | ok r s => exact next r s.1 s.2
    | error a s =>
      cases a with
      | error e =>
        cases e with
        | again text => exact next ⟨.error, text⟩ s.1 s.2
        | close text => exact ⟨_, rfl, rfl, rfl, rfl⟩
      | panic => exact ⟨_, rfl, rfl, rfl, (List.append_nil _).symm⟩
      | diverge => exact ⟨_, rfl, rfl, rfl, (List.append_nil _).symm⟩

theorem handleClient_answered {dataDir : String} (c : Conn) :
    Answered c (requests c.input).2 (serve dataDir (requests c.input).1 c.state c.disk)
      ((handleClient dataDir).run c) :=
  loop_round _ c (Nat.lt_succ_self _)

end Dtj.Agent
