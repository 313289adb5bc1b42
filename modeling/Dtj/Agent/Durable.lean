import Dtj.Agent.Runs

/-!
# Flushing every event

A connection with `flush_every_event`: the flush after `append_event` may be refused by the
encoders, and `AppendEventOk` is sent all the same.

* `Saved`             a session whose events are all in its file;
* `Saved.append` ...  the calls, while what they write is within the limits;
* `acked_committed`   **an acknowledged event is in a committed chunk**, as long as what is
  pending at each `AppendEvent` is within the limits;
* `acked_uncommitted` one value that is too long, and no later event is written.
-/

namespace Dtj.Agent
open Wire Checked SessionWriter

variable {hdr : Bytes} {dataDir path : String} {bs : List Batch} {w w' : SessionWriter}
  {d d' : Disk} {r : Record} {st st' : AgentState} {x : Exchange} {xs : List Exchange}

/-- an open session whose events are all in the chunks `bs` of its file -/
structure Saved (hdr : Bytes) (path : String) (bs : List Batch) (w : SessionWriter) (d : Disk)
    (r : Record) : Prop where
  file : w.file.path = path
  opened : w.finished = false
  records : Records hdr bs w d r.entries r.events
  buf : w.file.buf = []
  events : w.pendingEvents = []
  within : ∀ b ∈ bs, b.Within

/-- what is on the disk is what the writer wrote -/
theorem Saved.holds (h : Saved hdr path bs w d r) :
    d.files path = some (hdr ++ layout 1 bs) ∧ bs.flatMap Batch.evs = r.events := by
  obtain ⟨v, hk⟩ := h.records.keeps
  obtain ⟨f, hf, -, hc⟩ := hk.holds.file
  rw [h.buf, List.append_nil] at hc
  rw [h.file, hc] at hf
  refine ⟨hf, ?_⟩
  have hevs := h.records.events
  rwa [h.events, List.append_nil] at hevs

/-- the events that are written are read back -/
theorem Saved.read (h : Saved hdr path bs w d r) {header : FileHeader} (he : header.encode = .ok hdr)
    (h64 : (hdr ++ layout 1 bs).length < 2^64) :
    ∃ rd, SessionReader.open (hdr ++ layout 1 bs) = .ok rd ∧ rd.tornTail = false ∧
      rd.events = r.events := by
  obtain ⟨v, hk⟩ := h.records.keeps
  have hhdr := (FileHeader.encode_ok he).1
  rw [List.length_append, layout_length, hhdr] at h64
  obtain ⟨rd, hr, hshows, htorn⟩ := open_layout_take he hk.replayed (fun b hb => (hk.batches b hb).1)
    hk.cut.small (fun b hb => (h.within b hb).payload) (le_refl _) h64
  rw [← layout_length 1 bs, List.take_length] at hr
  rw [wholeChunks_boundary bs _ (le_refl _), List.take_length] at hshows
  refine ⟨rd, hr, ?_, hshows.events.trans h.holds.2⟩
  rw [← Bool.not_eq_true, htorn, not_not]
  exact ⟨bs.length, le_refl _, rfl⟩

/-! ## the calls -/

theorem Saved.intern (h : Saved hdr path bs w d r) (kind : DictKind) (name : String) :
    Leaves (fun w' d' => d' = d ∧ ∃ r', Saved hdr path bs w' d r')
      ((SessionWriter.intern kind name).run (w, d)) := by
  have hcases := intern_interns h.records h.opened kind name
  have hleaves := @intern_leaves d w h.opened kind name
  generalize (SessionWriter.intern kind name).run (w, d) = res at hcases hleaves ⊢
  -- the file and the events are those of before
  have saved : ∀ {w' : SessionWriter} {es : List DictEntry}, w'.file = w.file →
      w'.finished = false → w'.pendingEvents = w.pendingEvents →
      Records hdr bs w' d es r.events → ∃ r', Saved hdr path bs w' d r' := by
    intro w' es hfile ho hevs hr
    exact ⟨⟨es, r.events⟩, hfile ▸ h.file, ho, hr, hfile ▸ h.buf, hevs.trans h.events, h.within⟩
  cases hcases with
  | ok hr hu =>
    obtain ⟨hfile, ho, hevs, -⟩ := hleaves
    exact ⟨rfl, saved hfile ho hevs hr⟩
  | refused he hr hu =>
    obtain ⟨hfile, ho, hevs, -⟩ := hleaves
    exact ⟨rfl, saved hfile ho hevs hr⟩
  | overflow => trivial

/-- the pending batches are shorter than 4 GiB -/
def Small (w : SessionWriter) : Prop := ∀ b ∈ dictBatch w ++ eventBatch w, b.payload.length < 2^32

theorem Saved.flush (h : Saved hdr path bs w d r) (hd : d.Reliable) (hs : Small w) :
    Leaves (fun w' d' => ∃ bs', Saved hdr path bs' w' d' r ∧ Disk.Touches path d d')
      (flushChunk.run (w, d)) := by
  obtain ⟨v, hk⟩ := h.records.keeps
  have hcases := flushChunk_cases hk h.opened
  generalize flushChunk.run (w, d) = res at hcases ⊢
  cases hcases with
  | done hp ht hb hk' hbuf =>
    refine ⟨_, ⟨hp.trans h.file, h.opened, h.records.flushed hk', hbuf, rfl, ?_⟩, h.file ▸ ht⟩
    intro b hbm
    rw [List.append_assoc] at hbm
    rcases List.mem_append.mp hbm with hbm | hbm
    · exact h.within b hbm
    · exact (Batch.within_iff (hs b hbm)).mpr (hb b hbm)
  | refusedDict hne hb he => exact ⟨bs, h, .refl _ _⟩
  | refusedEvents hp ht hbd hne hb he hk' => exact absurd h.events hne
  | @stopped a w' d' cs ha hp ht hrel hseq hcs hc =>
    cases a with
    | error e => exact absurd hd (hrel (fun e => by cases e))
    | panic => trivial
    | diverge => trivial

/-- what an `AppendEvent` is to write is within the limits of the format -/
def Writable (w : SessionWriter) (ev : AppendEvent) : Prop :=
  Resolves w.dictionary ev.refs → ∀ b ∈ dictBatch w ++ eventBatch (w.pushed ev), b.Within

/-- what `append_event` and the flush after it may end with, when what they write is within the
limits -/
inductive Saving (hdr : Bytes) (path : String) (w : SessionWriter) (d : Disk) (r : Record)
    (ev : AppendEvent) : EStateM.Result (Abort Error) (SessionWriter × Disk) UInt64 → Prop
  | saved {seq w' d' bs'}
      (h : Saved hdr path bs' w' d' ⟨r.entries, r.events ++ [ev.record seq]⟩)
      (ht : Disk.Touches path d d') : Saving hdr path w d r ev (.ok seq (w', d'))
  | refused {e} : Saving hdr path w d r ev (.error (.error e) (w, d))
  | overflow {s} : Saving hdr path w d r ev (.error .panic s)

theorem Saved.append (h : Saved hdr path bs w d r) (hd : d.Reliable) {ev : AppendEvent}
    (hw : Writable w ev) : Saving hdr path w d r ev ((appendFlush true ev).run (w, d)) := by
  rw [appendFlush, EStateM.run_bind, appendEvent_run h.opened]
  cases hreq : requireRefs w.dictionary ev.domainId ev.categoryId ev.eventNameId ev.correlationId
    ev.payload with
  | error e => exact .refused
  | ok u =>
    have hrefs := requireRefs_ok.mp hreq
    dsimp only
    by_cases hseq : w.nextEventSeq.toNat + 1 < 2^64
    swap
    · rw [if_neg hseq]
      exact .overflow
    -- no other event is pending, so that the buffer is not full
    have hone : ¬ UInt32.ofNat (w.pendingEvents.length + 1) ≥ maxEventsPerChunk := by
      rw [h.events]
      decide
    rw [if_pos hseq, if_neg hone]
    obtain ⟨v, hk⟩ := h.records.keeps
    have hk₁ := hk.pushed hrefs hseq
    have hrec : Records hdr bs (w.pushed ev) d r.entries (r.events ++ [ev.record w.nextEventSeq]) := by
      refine ⟨⟨v, hk₁⟩, h.records.entries, ?_⟩
      show _ ++ (w.pendingEvents ++ [_]) = _
      rw [← List.append_assoc, h.records.events]
    have hcases := flushChunk_cases hk₁ h.opened
    simp only [if_true, EStateM.run_bind]
    cases hres : flushChunk.run (w.pushed ev, d) with
    | ok u s =>
      rw [hres] at hcases
      rw [logged_ok hres]
      cases hcases with
      | done hp ht hb hk' hbuf =>
        refine .saved ⟨hp.trans h.file, h.opened, hrec.flushed hk', hbuf, rfl, ?_⟩ (h.file ▸ ht)
        intro b hbm
        rw [List.append_assoc] at hbm
        rcases List.mem_append.mp hbm with hbm | hbm
        · exact h.within b hbm
        · exact hw hrefs b hbm
    | error a s =>
      rw [hres] at hcases
      cases hcases with
      | refusedDict hne hb he =>
        refine absurd (hw hrefs _ (List.mem_append_left _ ?_)).committable hb
        rw [dictBatch, if_neg (show w.pendingDict ≠ [] from hne)]
        exact List.mem_singleton_self _
      | refusedEvents hp ht hbd hne hb he hk' =>
        refine absurd (hw hrefs _ (List.mem_append_right _ ?_)).committable hb
        rw [eventBatch, if_neg hne]
        exact List.mem_singleton_self _
      | stopped ha hp ht hrel hpanic hcs hc =>
        by_cases hp : a = .panic
        · rw [hp] at hres
          rw [logged_panic hres]
          exact .overflow
        · exact absurd hd (hrel hp)

/-! ## the requests -/

/-- what is asked of a request: at an `AppendEvent` that the writer takes, what is pending is within
the limits of the format; and never are 4 GiB of names pending -/
def Limited (st : AgentState) (_ : Disk) (x : Exchange) : Prop :=
  ∀ w, st.writer = some w → Small w ∧ ∀ ev, appending x.frame = some ev → Writable w ev

/-- the events of the session are in its file -/
structure Durable (dataDir : String) (xs : List Exchange) (st : AgentState) (d : Disk) : Prop where
  works : Works d
  every : st.config.flushEveryEvent = true
  saved : ∀ w, st.writer = some w → ∃ req header hdr bs r, session xs = some (req, header) ∧
    header.encode = .ok hdr ∧ Saved hdr (joinPath dataDir req.fileName) bs w d r

/-- the event is in a committed chunk of the session's file, where a reader finds it -/
def Committed (dataDir : String) (xs : List Exchange) (d : Disk) (ev : EventRecord) : Prop :=
  ∃ req header hdr bs, session xs = some (req, header) ∧ header.encode = .ok hdr ∧
    d.files (joinPath dataDir req.fileName) = some (hdr ++ layout 1 bs) ∧
    ev ∈ bs.flatMap Batch.evs ∧ ((hdr ++ layout 1 bs).length < 2^64 →
      ∃ rd, SessionReader.open (hdr ++ layout 1 bs) = .ok rd ∧ rd.tornTail = false ∧
        rd.events = bs.flatMap Batch.evs)

/-- what a request did: an event that was acknowledged is committed, and an `AppendEvent` that was
refused changed nothing -/
structure Honest (dataDir : String) (xs : List Exchange) (st : AgentState) (d : Disk) (x : Exchange)
    (st' : AgentState) (d' : Disk) : Prop where
  acked : ∀ ev, x.acked = some ev → Committed dataDir xs d' ev
  refused : appending x.frame ≠ none → x.reply.resp = .error → st'.writer = st.writer ∧ d' = d

theorem Saved.committed {req : OpenRequest} {header : FileHeader} {ev : EventRecord}
    (h : Saved hdr (joinPath dataDir req.fileName) bs w d r) (hs : session xs = some (req, header))
    (he : header.encode = .ok hdr) (hev : ev ∈ r.events) : Committed dataDir xs d ev := by
  obtain ⟨hfile, hevs⟩ := h.holds
  refine ⟨req, header, hdr, bs, hs, he, hfile, ?_, fun h64 => ?_⟩
  · rwa [hevs]
  · rw [hevs]
    exact h.read he h64

/-- another command than `AppendEvent` -/
theorem appending_other {frame body : Bytes} {c : Cmd} (h : frame = c.toU8 :: body)
    (hc : c.toU8 ≠ Cmd.appendEvent.toU8) : appending frame = none := by
  by_contra hne
  obtain ⟨body', hb⟩ := appending_opcode hne
  rw [h] at hb
  exact hc (List.cons.inj hb).1

/-- a request that acknowledged nothing -/
theorem Durable.quiet (h : Durable dataDir (xs ++ [x]) st' d') (hack : x.reply.resp ≠ .appendEventOk)
    (href : appending x.frame ≠ none → x.reply.resp = .error → st'.writer = st.writer ∧ d' = d) :
    Durable dataDir (xs ++ [x]) st' d' ∧ Honest dataDir (xs ++ [x]) st d x st' d' :=
  ⟨h, fun ev hev => (by rw [acked_none hack] at hev; cases hev), href⟩

/-- the session goes on with the writer `w'` -/
theorem Durable.next {req : OpenRequest} {header : FileHeader} (h : Durable dataDir xs st d)
    (hs : session xs = some (req, header)) (he : header.encode = .ok hdr)
    (hsaved : Saved hdr (joinPath dataDir req.fileName) bs w' d' r) (hd : Works d')
    (hresp : x.reply.resp ≠ .openSessionOk) :
    Durable dataDir (xs ++ [x]) { st with writer := some w' } d' := by
  refine ⟨hd, h.every, fun w hw => ?_⟩
  cases hw
  exact ⟨req, header, hdr, bs, r, (session_same hresp).trans hs, he, hsaved⟩

/-- **one request** -/
theorem durable_step (h : Durable dataDir xs st d) (hx : Did dataDir st d x st' d')
    (hl : Limited st d x) :
    Durable dataDir (xs ++ [x]) st' d' ∧ Honest dataDir (xs ++ [x]) st d x st' d' := by
  have htick : Works d.tick.2 := ⟨h.works.reliable, h.works.dir⟩
  cases hx with
  | still hw hc hr =>
    have hne : ∀ resp, resp = .openSessionOk ∨ resp = .appendEventOk → x.reply.resp ≠ resp := by
      intro resp ho he
      rw [he] at hr
      rcases ho with rfl | rfl <;> rcases hr with hr | hr | hr <;> cases hr
    refine Durable.quiet ⟨h.works, hc ▸ h.every, fun w hw' => ?_⟩ (hne _ (.inr rfl))
      fun _ _ => ⟨hw, rfl⟩
    rw [session_same (hne _ (.inl rfl))]
    exact h.saved w (hw ▸ hw')
  | @intern w w' _ kind name hw hi hrun =>
    obtain ⟨req, header, hdr, bs, r, hs, he, hsaved⟩ := h.saved w hw
    obtain ⟨rfl, r', hsaved'⟩ := hrun.leaves (hsaved.intern kind name)
    have hresp : x.reply.resp ≠ .openSessionOk :=
      hrun.resp_ne (fun _ h => by cases h) (by decide)
    have hnext := h.next hs he hsaved' h.works hresp
    refine hnext.quiet (hrun.resp_ne (fun _ h => by cases h) (by decide)) fun ha => ?_
    obtain ⟨body, hb⟩ := interning_opcode (fun hn => by rw [hn] at hi; cases hi)
    exact absurd (appending_other hb (by decide)) ha
  | @append w w' _ ev hw ha hrun =>
    obtain ⟨req, header, hdr, bs, r, hs, he, hsaved⟩ := h.saved w hw
    have hcases := hsaved.append h.works.reliable ((hl w hw).2 ev ha)
    have hresp : x.reply.resp ≠ .openSessionOk :=
      hrun.resp_ne (fun _ h => by cases h) (by decide)
    rw [h.every] at hrun
    generalize (appendFlush true ev).run (w, d) = res at hrun hcases
    generalize hrep : x.reply = rep at hrun
    cases hrun with
    | ok =>
      cases hcases with
      | @saved seq _ _ bs' hsaved' ht =>
        have hnext := h.next hs he hsaved' (h.works.touches ht) hresp
        refine ⟨hnext, fun ev' hev' => ?_, fun _ hr => ?_⟩
        · rw [acked_eq ha hrep] at hev'
          cases hev'
          exact hsaved'.committed ((session_same hresp).trans hs) he
            (List.mem_append_right _ (List.mem_singleton_self _))
        · rw [hrep] at hr
          cases hr
    | refused =>
      cases hcases with
      | refused =>
        have hnext := h.next hs he hsaved h.works hresp
        exact hnext.quiet (fun h => by rw [hrep] at h; cases h) fun _ _ => ⟨hw.symm, rfl⟩
  | @flush w w' _ hw hrun hf =>
    obtain ⟨req, header, hdr, bs, r, hs, he, hsaved⟩ := h.saved w hw
    obtain ⟨bs', hsaved', ht⟩ := hrun.leaves (hsaved.flush h.works.reliable (hl w hw).1)
    have hresp : x.reply.resp ≠ .openSessionOk :=
      hrun.resp_ne (fun _ h => by cases h) (by decide)
    have hnext := h.next hs he hsaved' (h.works.touches ht) hresp
    refine hnext.quiet (hrun.resp_ne (fun _ h => by cases h) (by decide)) fun ha => ?_
    obtain ⟨body, hb⟩ := hf
    exact absurd (appending_other hb (by decide)) ha
  | @finish w w' d₁ hw hrun hf =>
    have honward := (hrun.ends (finish_onward (w, d))).file
    obtain ⟨_, hdrop⟩ := BufWriter.dropped_onward w'.file d₁
    refine Durable.quiet ⟨h.works.touches (honward.touches.trans (honward.path ▸ hdrop.touches)), h.every,
      fun w hw => by cases hw⟩ (hrun.resp_ne (fun _ h => by cases h) (by decide)) fun ha => ?_
    obtain ⟨body, hb⟩ := hf
    exact absurd (appending_other hb (by decide)) ha
  | @opened req header w d₁ ho hr hrun =>
    obtain ⟨hdr, f, d₂, he, hrun', hp, hf, ht, hbuf⟩ :=
      @created d.tick.2 req header (joinPath dataDir req.fileName) (opening_header ho)
        htick.reliable
    rw [hrun'] at hrun
    cases hrun
    -- the writer that is dropped has nothing left to write
    have hdrop : st.dropped d₁ = d₁ := by
      unfold AgentState.dropped
      cases hw : st.writer with
      | none => rfl
      | some old =>
        obtain ⟨_, _, _, _, _, _, _, hsaved⟩ := h.saved old hw
        exact BufWriter.dropped_empty hsaved.buf d₁
    rw [hdrop]
    have hsaved : Saved hdr (joinPath dataDir req.fileName) [] (fresh f header) d₁ ⟨[], []⟩ :=
      ⟨hp, rfl, fresh_records header hf, hbuf, rfl, fun b hb => by cases hb⟩
    refine Durable.quiet ⟨htick.touches ht, h.every, fun w hw => ?_⟩ (by rw [hr]; decide)
      fun _ herr => (by rw [hr] at herr; cases herr)
    cases hw
    exact ⟨req, header, hdr, [], ⟨[], []⟩, session_opened ho hr, he, hsaved⟩
  | notOpened ho hr hrun =>
    obtain ⟨hdr, f, d₂, he, hrun', -⟩ :=
      @created d.tick.2 _ _ (joinPath dataDir _) (opening_header ho) htick.reliable
    rw [hrun'] at hrun
    cases hrun

/-- **With `flush_every_event`, an acknowledged event is in a committed chunk of its session's file
when the response is sent, and a refused one changes nothing**, in every run in which what is
pending at each `AppendEvent` is within the limits of the format, on a disk that works -/
theorem acked_committed {config : Config} {st₁ : AgentState} {d₀ d₁ : Disk}
    (hflush : config.flushEveryEvent = true) (hd : Works d₀)
    (hrun : Run dataDir (.new config) d₀ xs st₁ d₁) (hstep : Step dataDir st₁ d₁ x st' d')
    (hx : Fits (xs ++ [x])) (hl : Throughout dataDir Limited (.new config) d₀ (xs ++ [x])) :
    (∀ ev, x.acked = some ev → Committed dataDir (xs ++ [x]) d' ev) ∧
      (appending x.frame ≠ none → x.reply.resp = .error → st'.writer = st₁.writer ∧ d' = d₁) := by
  have hdurable : Durable dataDir xs st₁ d₁ := by
    refine hrun.history (hx.part fun y hy => List.mem_append_left _ hy)
      (hl.part (List.prefix_append _ _)) ⟨hd, hflush, fun w hw => by cases hw⟩ ?_
    intro pre y st₁ d₁ st₂ d₂ hstep hy hly h
    exact (durable_step h (step_did hstep hy h.works.dir) hly).1
  have hmem : x ∈ xs ++ [x] := List.mem_append_right _ (List.mem_singleton_self x)
  have hhonest := (durable_step hdurable (step_did hstep (hx x hmem) hdurable.works.dir)
    (hl xs x [] st₁ d₁ rfl hrun)).2
  exact ⟨hhonest.acked, hhonest.refused⟩

/-! ## two connections -/

def Config.durable : Config := { Config.default with flushEveryEvent := true }

instance (w : SessionWriter) : Decidable (Small w) :=
  inferInstanceAs (Decidable (∀ b ∈ dictBatch w ++ eventBatch w, b.payload.length < 2^32))

/-- `Limited`, as it can be run -/
def limited (st : AgentState) (_ : Disk) (x : Exchange) : Bool :=
  match st.writer with
  | none => true
  | some w => decide (Small w) && match appending x.frame with
    | none => true
    | some ev => decide (∀ b ∈ dictBatch w ++ eventBatch (w.pushed ev), b.Within)

theorem limited_of (h : limited st d x = true) : Limited st d x := by
  intro w hw
  rw [limited, hw, Bool.and_eq_true] at h
  refine ⟨of_decide_eq_true h.1, fun ev hev _ => ?_⟩
  have hbatches := h.2
  rw [hev] at hbatches
  exact of_decide_eq_true hbatches

instance (xs : List Exchange) : Decidable (Fits xs) :=
  inferInstanceAs (Decidable (∀ x ∈ xs, x.frame.length < 2^63))

/-- the exchanges that the agent makes of some requests -/
def exchanges (config : Config) (frames : List Bytes) : List Exchange :=
  (serve "d" frames (.new config) exampleDisk).exchanges

theorem exchanges_run (config : Config) {frames : List Bytes} (hn : 0 + frames.length < 2^32)
    (hframes : ∀ frame ∈ frames, frame.length < 2^63) :
    (exchanges config frames).map Exchange.frame = frames ∧
      Run "d" (.new config) exampleDisk (exchanges config frames)
        (serve "d" frames (.new config) exampleDisk).state
        (serve "d" frames (.new config) exampleDisk).disk :=
  (serve_run (counts_new config exampleDisk_works.dir) hn hframes).2

/-- one event, flushed at once -/
theorem acked_committed_example : ∃ st₁ d₁ st' d' x ev,
    Run "d" (.new .durable) exampleDisk (exampleHello :: exampleOpen :: exampleMid.dropLast) st₁ d₁ ∧
    Step "d" st₁ d₁ x st' d' ∧ x.acked = some ev ∧
    Committed "d" (exampleHello :: exampleOpen :: exampleMid.dropLast ++ [x]) d' ev := by
  have hex : exchanges .durable ((exampleHello :: exampleOpen :: exampleMid).map Exchange.frame)
      = exampleHello :: exampleOpen :: exampleMid.dropLast
        ++ [⟨appendFrame 0x04 (le 4 7), appendReply 1⟩] := by decide +kernel
  obtain ⟨-, hrun⟩ := @exchanges_run .durable
    ((exampleHello :: exampleOpen :: exampleMid).map Exchange.frame) (by decide) (by decide +kernel)
  rw [hex] at hrun
  obtain ⟨st₁, d₁, hrun₁, hstep⟩ := hrun.last
  obtain ⟨ev, hev⟩ := Option.isSome_iff_exists.mp
    (show (Exchange.acked ⟨appendFrame 0x04 (le 4 7), appendReply 1⟩).isSome by decide +kernel)
  refine ⟨st₁, d₁, _, _, _, ev, hrun₁, hstep, hev, ?_⟩
  exact (acked_committed rfl exampleDisk_works hrun₁ hstep (by decide +kernel)
    (throughout_of limited_of (by decide +kernel))).1 ev hev

/-- a BYTES value of 4097 bytes, and an event of four bytes after it -/
def oversizedFrames : List Bytes :=
  [helloFrame, openFrame "s", internFrame .domain "net", internFrame .category "rx",
    internFrame .eventName "frame", internFrame .string "raw",
    appendFrame 0x0C (le 4 4097 ++ List.replicate 4097 0), appendFrame 0x04 (le 4 7)]

/-- both events are acknowledged, and neither is in the file that the second response leaves -/
theorem acked_uncommitted : ∃ xs st d file rd, Run "d" (.new .durable) exampleDisk xs st d ∧
    xs.map Exchange.frame = oversizedFrames ∧ (xs.filterMap Exchange.acked).length = 2 ∧
    d.files "d/s" = some file ∧ SessionReader.open file = .ok rd ∧ rd.events = [] := by
  obtain ⟨hframes, hrun⟩ := @exchanges_run .durable oversizedFrames (by decide) (by decide +kernel)
  obtain ⟨file, hfile, hread⟩ : ∃ file,
      (serve "d" oversizedFrames (.new .durable) exampleDisk).disk.files "d/s" = some file ∧
      ((SessionReader.open file).toOption.map fun rd => rd.events.isEmpty).getD false = true :=
    (Option.any_eq_true _ _).mp (by decide +kernel)
  obtain ⟨rd, hrd, hempty⟩ := exists_ok hread
  exact ⟨_, _, _, file, rd, hrun, hframes, by decide +kernel, hfile, hrd, List.isEmpty_iff.mp hempty⟩

end Dtj.Agent
