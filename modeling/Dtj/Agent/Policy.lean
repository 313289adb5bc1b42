import Dtj.Agent.Durable
import Dtj.Journal.Reliable

/-!
# The flush policy

`max_events_per_chunk` and `max_pending_bytes` are read from the options, stored in the state, and
not read again: what flushes is the limit of the format, and `flush_every_event`.

* `Honours`          the policy, on what the writer has not committed;
* `Flushes`          whether an `AppendEvent` writes what is pending;
* `policy_honoured`  **after an `AppendEventOk` the policy holds exactly when the request flushed,
  or the event fitted in**, in every run;
* `policy_ignored`   two events, with a limit of one.
-/

namespace Dtj.Agent
open Wire Checked SessionWriter

variable {dataDir : String} {config : Config} {w w' : SessionWriter} {d d' : Disk}
  {st st' : AgentState} {x : Exchange} {xs : List Exchange} {ev : AppendEvent}

/-- the encoded size of some events -/
def encodedSize (evs : List EventRecord) : Nat := (evs.flatMap EventRecord.raw).length

/-- **the flush policy**, for the events that the writer has taken and not committed -/
structure Honours (config : Config) (w : SessionWriter) : Prop where
  count : w.pendingEvents.length < config.maxEventsPerChunk.toNat
  bytes : config.maxPendingBytes ≠ 0 → encodedSize w.pendingEvents ≤ config.maxPendingBytes.toNat

/-- the event is followed by a flush that succeeds: the buffer is full, or every event is flushed and
what is pending is accepted by the encoders -/
def Flushes (config : Config) (w : SessionWriter) (ev : AppendEvent) : Prop :=
  UInt32.ofNat (w.pendingEvents.length + 1) ≥ maxEventsPerChunk ∨
    (config.flushEveryEvent = true ∧ Ready (w.pushed ev))

/-- the policy has room for one more event, if it is not flushed -/
def Fitting (config : Config) (w : SessionWriter) (ev : AppendEvent) : Prop :=
  (Flushes config w ev → 0 < config.maxEventsPerChunk.toNat) ∧
    (¬ Flushes config w ev → Honours config (w.pushed ev))

/-- what `append_event`, and the flush after it, may end with -/
inductive Buffered (config : Config) (w : SessionWriter) (ev : AppendEvent) :
    EStateM.Result (Abort Error) (SessionWriter × Disk) UInt64 → Prop
  | flushed {seq w' d'} (hf : Flushes config w ev) (hevs : w'.pendingEvents = [])
      (ho : w'.finished = false) : Buffered config w ev (.ok seq (w', d'))
  | pending {seq w' d'} (hf : ¬ Flushes config w ev)
      (hevs : w'.pendingEvents = (w.pushed ev).pendingEvents) (ho : w'.finished = false) :
      Buffered config w ev (.ok seq (w', d'))
  | refused {e w' d'} (ho : w'.finished = false) :
      Buffered config w ev (.error (.error e) (w', d'))
  | overflow {s} : Buffered config w ev (.error .panic s)

/-- a flush whose refusal is only logged -/
theorem logged_flush (ho : w.finished = false) (hd : d.Reliable) :
    (∃ w' d', (logged flushChunk).run (w, d) = .ok () (w', d') ∧ w'.finished = false ∧
      ((Ready w ∧ w'.pendingEvents = []) ∨ (¬ Ready w ∧ w'.pendingEvents = w.pendingEvents))) ∨
    ∃ s, (logged flushChunk).run (w, d) = .error .panic s := by
  have htried := @flushChunk_tried w d ho hd
  cases hres : flushChunk.run (w, d) with
  | ok u s =>
    rw [hres] at htried
    rw [logged_ok hres]
    cases htried with
    | done hr hd' => exact .inl ⟨_, _, rfl, ho, .inl ⟨hr, rfl⟩⟩
  | error a s =>
    rw [hres] at htried
    cases htried with
    | refused hr hevs ho' hd' =>
      rw [logged_error hres]
      exact .inl ⟨_, _, rfl, ho'.trans ho, .inr ⟨hr, hevs⟩⟩
    | overflow =>
      rw [logged_panic hres]
      exact .inr ⟨_, rfl⟩

theorem appendFlush_buffered (ho : w.finished = false) (hd : d.Reliable) :
    Buffered config w ev ((appendFlush config.flushEveryEvent ev).run (w, d)) := by
  rw [appendFlush, EStateM.run_bind, appendEvent_run ho]
  cases hreq : requireRefs w.dictionary ev.domainId ev.categoryId ev.eventNameId ev.correlationId
    ev.payload with
  | error e => exact .refused ho
  | ok u =>
    dsimp only
    by_cases hseq : w.nextEventSeq.toNat + 1 < 2^64
    swap
    · rw [if_neg hseq]
      exact .overflow
    rw [if_pos hseq]
    by_cases hfull : UInt32.ofNat (w.pendingEvents.length + 1) ≥ maxEventsPerChunk
    · rw [if_pos hfull]
      have htried := @flushChunk_tried (w.pushed ev) d ho hd
      generalize flushChunk.run (w.pushed ev, d) = res at htried ⊢
      cases htried with
      | refused hr hevs ho' hd' => exact .refused (ho'.trans ho)
      | overflow => exact .overflow
      | @done f seq d' hr hd' =>
        have hflush := @logged_flush ((w.pushed ev).flushed f seq) d' ho hd'
        simp only [mapResult, run_ite, EStateM.run_bind]
        split
        · rcases hflush with ⟨w', d'', hrun, ho', ⟨-, hevs⟩ | ⟨-, hevs⟩⟩ | ⟨s, hrun⟩
          · rw [hrun]
            exact .flushed (.inl hfull) hevs ho'
          · rw [hrun]
            exact .flushed (.inl hfull) hevs ho'
          · rw [hrun]
            exact .overflow
        · exact .flushed (.inl hfull) rfl ho
    · rw [if_neg hfull]
      have hflush := @logged_flush (w.pushed ev) d ho hd
      simp only [run_ite, EStateM.run_bind]
      split
      · rename_i hevery
        rcases hflush with ⟨w', d', hrun, ho', ⟨hr, hevs⟩ | ⟨hr, hevs⟩⟩ | ⟨s, hrun⟩
        · rw [hrun]
          exact .flushed (.inr ⟨hevery, hr⟩) hevs ho'
        · rw [hrun]
          exact .pending (not_or.mpr ⟨hfull, fun h => hr h.2⟩) hevs ho'
        · rw [hrun]
          exact .overflow
      · rename_i hevery
        exact .pending (not_or.mpr ⟨hfull, fun h => hevery h.1⟩) rfl ho

/-! ## the runs -/

/-- the writer of the connection is open, on a disk that works -/
structure Open (config : Config) (st : AgentState) (d : Disk) : Prop where
  works : Works d
  config : st.config = config
  writer : ∀ w, st.writer = some w → w.finished = false

/-- a writer that a call left open -/
theorem Open.next (h : Open config st d) (hd : Works d') (ho : w'.finished = false) :
    Open config { st with writer := some w' } d' := by
  refine ⟨hd, h.config, fun w hw => ?_⟩
  cases hw
  exact ho

/-- **one request** -/
theorem open_step (h : Open config st d) (hstep : Step dataDir st d x st' d')
    (hx : x.frame.length < 2^63) : Open config st' d' := by
  have hworks : Works d' := (step_effect hstep hx).works h.works
  cases step_did hstep hx h.works.dir with
  | still hw hc hr => exact ⟨hworks, hc.trans h.config, fun w hw' => h.writer w (hw ▸ hw')⟩
  | intern hw hi hrun =>
    obtain ⟨-, ho, -, -⟩ := hrun.leaves (intern_leaves (h.writer _ hw) _ _)
    exact h.next hworks ho
  | @append w w' _ ev hw ha hrun =>
    have hbuf := @appendFlush_buffered config w d ev (h.writer w hw) h.works.reliable
    rw [h.config] at hrun
    refine h.next hworks ?_
    generalize (appendFlush config.flushEveryEvent ev).run (w, d) = res at hrun hbuf
    generalize x.reply = rep at hrun
    cases hrun with
    | ok =>
      cases hbuf with
      | flushed hf hevs ho => exact ho
      | pending hf hevs ho => exact ho
    | refused =>
      cases hbuf with
      | refused ho => exact ho
  | @flush w w' _ hw hrun hf =>
    have htried := @flushChunk_tried w d (h.writer w hw) h.works.reliable
    refine h.next hworks ?_
    generalize flushChunk.run (w, d) = res at hrun htried
    generalize x.reply = rep at hrun
    cases hrun with
    | ok =>
      cases htried with
      | done hr hd' => exact h.writer w hw
    | refused =>
      cases htried with
      | refused hr hevs ho' hd' => exact ho'.trans (h.writer w hw)
  | finish hw hrun hf => exact ⟨hworks, h.config, fun w hw => by cases hw⟩
  | @opened req header w d₁ ho hr hrun =>
    obtain ⟨hdr, f, d₂, he, hrun', -⟩ :=
      @created d.tick.2 req header (joinPath dataDir req.fileName) (opening_header ho)
        h.works.reliable
    rw [hrun'] at hrun
    cases hrun
    refine ⟨hworks, h.config, fun w hw => ?_⟩
    cases hw
    rfl
  | notOpened ho hr hrun => exact ⟨hworks, h.config, h.writer⟩

theorem acked_resp {event : EventRecord} (h : x.acked = some event) :
    x.reply.resp = .appendEventOk := by
  by_contra hne
  rw [acked_none hne] at h
  cases h

/-- only an `AppendEvent` is acknowledged so -/
theorem acked_did (h : Did dataDir st d x st' d') (hr : x.reply.resp = .appendEventOk) :
    ∃ w w' ev, st.writer = some w ∧ appending x.frame = some ev ∧
      st' = { st with writer := some w' } ∧ Replied appendReply w' d'
        ((appendFlush st.config.flushEveryEvent ev).run (w, d)) x.reply := by
  cases h with
  | still hw hc hr' =>
    rw [hr] at hr'
    rcases hr' with hr' | hr' | hr' <;> cases hr'
  | intern hw hi hrun => exact absurd hr (hrun.resp_ne (fun _ h => by cases h) (by decide))
  | append hw ha hrun => exact ⟨_, _, _, hw, ha, rfl, hrun⟩
  | flush hw hrun => exact absurd hr (hrun.resp_ne (fun _ h => by cases h) (by decide))
  | finish hw hrun => exact absurd hr (hrun.resp_ne (fun _ h => by cases h) (by decide))
  | opened ho hr' hrun => rw [hr'] at hr; cases hr
  | notOpened ho hr' hrun => rw [hr] at hr'; cases hr'

/-- what is pending after the event decides -/
theorem Buffered.honours {seq : UInt64} {s : SessionWriter × Disk}
    (h : Buffered config w ev (.ok seq s)) : Honours config s.1 ↔ Fitting config w ev := by
  cases h with
  | flushed hf hevs ho =>
    refine ⟨fun h => ⟨fun _ => Nat.zero_lt_of_lt h.count, fun hn => absurd hf hn⟩, fun h => ?_⟩
    refine ⟨?_, fun _ => ?_⟩
    · rw [hevs]
      exact h.1 hf
    · rw [hevs]
      exact Nat.zero_le _
  | pending hf hevs ho =>
    refine ⟨fun h => ⟨fun hn => absurd hn hf, fun _ => ?_⟩, fun h => ?_⟩
    · exact ⟨hevs ▸ h.count, hevs ▸ h.bytes⟩
    · exact ⟨hevs ▸ (h.2 hf).count, hevs ▸ (h.2 hf).bytes⟩

/-- **After an `AppendEventOk`, the policy holds exactly when the request flushed what was pending,
or the event fitted in with it**, in every run on a disk that works -/
theorem policy_honoured {d₀ d₁ : Disk} {st₁ : AgentState} {event : EventRecord} (hd : Works d₀)
    (hrun : Run dataDir (.new config) d₀ xs st₁ d₁) (hstep : Step dataDir st₁ d₁ x st' d')
    (hx : Fits (xs ++ [x])) (hack : x.acked = some event) :
    ∃ w ev w', st₁.writer = some w ∧ appending x.frame = some ev ∧ st'.writer = some w' ∧
      (Honours config w' ↔ Fitting config w ev) := by
  have hopen : Open config st₁ d₁ := by
    refine @Run.history dataDir _ _ _ _ xs (fun _ _ _ => True) (fun _ st d => Open config st d) hrun
      (hx.part fun y hy => List.mem_append_left _ hy) (fun _ _ _ _ _ _ _ => trivial)
      ⟨hd, rfl, fun w hw => by cases hw⟩ ?_
    intro pre y st₁ d₁ st₂ d₂ hstep hy _ h
    exact open_step h hstep hy
  have hmem : x ∈ xs ++ [x] := List.mem_append_right _ (List.mem_singleton_self x)
  have hresp := acked_resp hack
  obtain ⟨w, w', ev, hw, hev, rfl, hrep⟩ :=
    acked_did (step_did hstep (hx x hmem) hopen.works.dir) hresp
  refine ⟨w, ev, w', hw, hev, rfl, ?_⟩
  have hbuf := @appendFlush_buffered config w d₁ ev (hopen.writer w hw) hopen.works.reliable
  rw [hopen.config] at hrep
  generalize (appendFlush config.flushEveryEvent ev).run (w, d₁) = res at hrep hbuf
  generalize x.reply = rep at hrep hresp
  cases hrep with
  | ok => exact hbuf.honours
  | refused => cases hresp

/-- **the limits of the format keep the policy that is the default** -/
theorem fitting_default (hmax : 65535 ≤ config.maxEventsPerChunk.toNat)
    (hbytes : config.maxPendingBytes = 0) (hlen : w.pendingEvents.length + 1 < 2^32) :
    Fitting config w ev := by
  refine ⟨fun _ => by omega, fun hf => ⟨?_, fun hne => absurd hbytes hne⟩⟩
  have hfull : ¬ UInt32.ofNat (w.pendingEvents.length + 1) ≥ maxEventsPerChunk := fun h => hf (.inl h)
  have hlt : w.pendingEvents.length + 1 < 65535 := by
    rw [ge_iff_le, UInt32.le_iff_toNat_le, UInt32.toNat_ofNat_of_lt' hlen] at hfull
    exact not_le.mp hfull
  show (w.pendingEvents ++ [_]).length < _
  rw [List.length_append, List.length_singleton]
  omega

/-! ## a connection with a limit of one event -/

def Config.tight : Config := { Config.default with maxEventsPerChunk := 1, maxPendingBytes := 16 }

/-- the example session, in which one event is acknowledged -/
theorem policy_ignored : ∃ xs st d w, Run "d" (.new .tight) exampleDisk xs st d ∧
    xs.map Exchange.frame = (exampleHello :: exampleOpen :: exampleMid).map Exchange.frame ∧
    (xs.getLast?.bind Exchange.acked).isSome ∧ st.writer = some w ∧
    ¬ w.pendingEvents.length < Config.tight.maxEventsPerChunk.toNat ∧
    Config.tight.maxPendingBytes ≠ 0 ∧
    ¬ encodedSize w.pendingEvents ≤ Config.tight.maxPendingBytes.toNat := by
  obtain ⟨hframes, hrun⟩ := @exchanges_run .tight
    ((exampleHello :: exampleOpen :: exampleMid).map Exchange.frame) (by decide) (by decide +kernel)
  obtain ⟨w, hw, hsize⟩ : ∃ w, (serve "d" ((exampleHello :: exampleOpen :: exampleMid).map
      Exchange.frame) (.new .tight) exampleDisk).state.writer = some w ∧
      (decide (1 ≤ w.pendingEvents.length) && decide (16 < encodedSize w.pendingEvents)) = true :=
    (Option.any_eq_true _ _).mp (by decide +kernel)
  rw [Bool.and_eq_true, decide_eq_true_eq, decide_eq_true_eq] at hsize
  exact ⟨_, _, _, w, hrun, hframes, by decide +kernel, hw, not_lt.mpr hsize.1, by decide,
    not_le.mpr hsize.2⟩

/-- the same, with the options that are the default -/
theorem policy_honoured_example : ∃ st₁ d₁ st' d' x event w ev w',
    Run "d" (.new .default) exampleDisk (exampleHello :: exampleOpen :: exampleMid.dropLast) st₁ d₁ ∧
    Step "d" st₁ d₁ x st' d' ∧ x.acked = some event ∧ st₁.writer = some w ∧
    appending x.frame = some ev ∧ st'.writer = some w' ∧
    (Honours .default w' ↔ Fitting .default w ev) := by
  have hex : exchanges .default ((exampleHello :: exampleOpen :: exampleMid).map Exchange.frame)
      = exampleHello :: exampleOpen :: exampleMid.dropLast
        ++ [⟨appendFrame 0x04 (le 4 7), appendReply 1⟩] := by decide +kernel
  obtain ⟨-, hrun⟩ := @exchanges_run .default
    ((exampleHello :: exampleOpen :: exampleMid).map Exchange.frame) (by decide) (by decide +kernel)
  rw [hex] at hrun
  obtain ⟨st₁, d₁, hrun₁, hstep⟩ := hrun.last
  obtain ⟨event, hev⟩ := Option.isSome_iff_exists.mp
    (show (Exchange.acked ⟨appendFrame 0x04 (le 4 7), appendReply 1⟩).isSome by decide +kernel)
  obtain ⟨w, ev, w', hw, ha, hw', hiff⟩ :=
    policy_honoured exampleDisk_works hrun₁ hstep (by decide +kernel) hev
  exact ⟨st₁, d₁, _, _, _, event, w, ev, w', hrun₁, hstep, hev, hw, ha, hw', hiff⟩

end Dtj.Agent
