import Dtj.Agent.Record

/-!
# A session of a connection, from its `OpenSession` on

On a disk that works, with the other requests on other files.

* `Next`, `live_step`      what one request may make of an open session;
* `over_step`              a session that is over stays as it is;
* `midway_run`, `over_run`   the same for many requests;
* `kept_run`               the chunks of an open session are in the file that is left;
* `session_recorded`       **a finished session is read back as what the client was told**;
* `acked_kept`             **what was acknowledged before a flush is never lost**.
-/

namespace Dtj.Agent
open Wire Checked SessionWriter

/-- the request opens no file at the path -/
def Elsewhere (dataDir path : String) (x : Exchange) : Prop :=
  ∀ req header, opening x.frame = some (req, header) → joinPath dataDir req.fileName ≠ path

variable {hdr : Bytes} {dataDir path : String} {n : Nat} {acked : List EventRecord}
  {names : List DictEntry} {bs : List Batch} {w w' : SessionWriter} {d d' : Disk} {r : Record}
  {st st' : AgentState} {x : Exchange}

/-! ## what a response says -/

theorem acked_none (h : x.reply.resp ≠ .appendEventOk) : x.acked = none := if_neg h

theorem named_none (h : x.reply.resp ≠ .internOk) : x.named = none := if_neg h

theorem acked_eq {ev : AppendEvent} {seq : UInt64} (hx : appending x.frame = some ev)
    (hr : x.reply = appendReply seq) : x.acked = some (ev.record seq) := by
  have hseq : UInt64.ofNat (leAt (le 8 seq.toNat) 0 8) = seq := by
    have := uint64_le seq []
    rwa [List.append_nil] at this
  rw [Exchange.acked, hr, if_pos (show (appendReply seq).resp = .appendEventOk from rfl), hx]
  show some (ev.record (UInt64.ofNat (leAt (le 8 seq.toNat) 0 8))) = _
  rw [hseq]

theorem named_eq {kind : DictKind} {name : String} {id : UInt32}
    (hx : interning x.frame = some (kind, name)) (hr : x.reply = internReply id) :
    x.named = some ⟨kind, id, name⟩ := by
  have hid : UInt32.ofNat (leAt (le 4 id.toNat) 0 4) = id := by
    have := uint32_le id []
    rwa [List.append_nil] at this
  rw [Exchange.named, hr, if_pos (show (internReply id).resp = .internOk from rfl), hx]
  show some (DictEntry.mk kind (UInt32.ofNat (leAt (le 4 id.toNat) 0 4)) name) = _
  rw [hid]

theorem opening_header {req : OpenRequest} {header : FileHeader}
    (h : opening x.frame = some (req, header)) : req.header = .ok header := by
  unfold opening at h
  split at h
  · cases h
  split at h
  · split at h
    · split at h
      · cases h
        assumption
      · cases h
    · cases h
  · cases h

/-- every event of a request has one field -/
theorem appending_fields {ev : AppendEvent} (h : appending x.frame = some ev) :
    ev.payload.fields.length = 1 := by
  unfold appending at h
  split at h
  · cases h
  split at h
  · rename_i body _ _
    unfold appendOf at h
    split at h
    · cases h
    split at h
    · cases h
    split at h
    · cases h
    split at h
    · cases h
    split at h
    · cases h
    · cases h
      rfl
  · cases h

/-- a created writer, on a disk that works -/
theorem created {req : OpenRequest} {header : FileHeader} {path : String}
    (hh : req.header = .ok header) (hd : d.Reliable) :
    ∃ hdr f d', header.encode = .ok hdr ∧
      (SessionWriter.create path header).run d = .ok (fresh f header) d' ∧ f.path = path ∧
      f.Holds d' hdr ∧ Disk.Touches path d d' ∧ f.buf = [] := by
  obtain ⟨hdr, he⟩ := FileHeader.encode_create hh
  have hcases := @create_cases path header hdr he d
  generalize (SessionWriter.create path header).run d = res at hcases
  cases hcases with
  | ok hp ht hf hbuf => exact ⟨hdr, _, _, he, rfl, hp, hf, ht, hbuf⟩
  | failed ht hrel => exact absurd hd hrel

/-! ## one request -/

/-- a session does not read the other files -/
theorem Recording.keep (h : Recording hdr path n acked names bs w d r)
    (hd : d'.files path = d.files path) : Recording hdr path n acked names bs w d' r := by
  obtain ⟨v, hk⟩ := h.records.keeps
  obtain ⟨f, hf, hpos, hc⟩ := hk.holds.file
  have hholds : w.file.Holds d' (hdr ++ layout 1 bs) := by
    refine ⟨f, ?_, hpos, hc⟩
    rw [h.file] at hf ⊢
    rw [hd, hf]
  have hk' : Keeps hdr bs v w d' := ⟨hholds, hk.replayed, hk.batches, hk.chunkSeq, hk.eventSeq,
    hk.names, hk.numbered, hk.refs⟩
  exact ⟨h.file, h.opened, ⟨⟨v, hk'⟩, h.records.entries, h.records.events⟩, h.heard⟩

/-- the disk between two requests -/
structure Works (d : Disk) : Prop where
  reliable : d.Reliable
  dir : d.HasDir

theorem Works.touches (h : Works d) (ht : Disk.Touches path d d') : Works d' :=
  ⟨ht.reliable h.reliable, ht.hasDir h.dir⟩

/-- what one request may make of an open session -/
inductive Next (hdr : Bytes) (path : String) (n : Nat) (acked : List EventRecord)
    (names : List DictEntry) (bs : List Batch) (x : Exchange) (st' : AgentState) (d' : Disk) : Prop
  | live {w' bs' r'} (hw : st'.writer = some w')
      (h : Recording hdr path (n + 1) (acked ++ x.acked.toList) (names ++ x.named.toList) bs' w' d' r')
      (hg : bs <+: bs') (hnot : x.reply.resp ≠ .openSessionOk ∧ x.reply.resp ≠ .finishSessionOk)
      (hs : x.reply.resp = .flushOk → bs'.flatMap Batch.evs = acked) :
      Next hdr path n acked names bs x st' d'
  | finished {bs'} (hw : st'.writer = none) (hc : Closed hdr path bs' d') (hg : bs <+: bs')
      (hnot : x.reply.resp ≠ .openSessionOk ∧ x.reply.resp ≠ .flushOk)
      (hs : x.reply.resp = .finishSessionOk →
        bs'.flatMap Batch.evs = acked ∧ names ⊆ bs'.flatMap Batch.entries) :
      Next hdr path n acked names bs x st' d'
  | replaced {w₁} (hw : st'.writer = some w₁) (hp : w₁.file.path ≠ path)
      (hr : x.reply.resp = .openSessionOk) (hc : Closed hdr path bs d') :
      Next hdr path n acked names bs x st' d'

/-- a request that the client was told nothing new by -/
theorem Next.quiet {bs' : List Batch} {r' : Record} {resp : Resp} (hr : x.reply.resp = resp)
    (hresp : resp = .error ∨ resp = .helloOk ∨ resp = .pong ∨ resp = .flushOk)
    (hw : st'.writer = some w') (h : Recording hdr path (n + 1) acked names bs' w' d' r')
    (hg : bs <+: bs') (hs : resp = .flushOk → bs'.flatMap Batch.evs = acked) :
    Next hdr path n acked names bs x st' d' := by
  have hno : ∀ other, other = .openSessionOk ∨ other = .finishSessionOk ∨ other = .appendEventOk ∨
      other = .internOk → x.reply.resp ≠ other := by
    intro other ho he
    rw [hr] at he
    rcases hresp with rfl | rfl | rfl | rfl <;> rcases ho with rfl | rfl | rfl | rfl <;> cases he
  have h' : Recording hdr path (n + 1) (acked ++ x.acked.toList) (names ++ x.named.toList) bs' w' d'
      r' := by
    rw [acked_none (hno _ (.inr (.inr (.inl rfl)))), named_none (hno _ (.inr (.inr (.inr rfl)))),
      Option.toList, Option.toList, List.append_nil, List.append_nil]
    exact h
  exact .live hw h' hg ⟨hno _ (.inl rfl), hno _ (.inr (.inl rfl))⟩ fun hf => hs (hr ▸ hf)

/-- **one request, in an open session** -/
theorem live_step (hst : st.writer = some w) (h : Recording hdr path n acked names bs w d r)
    (hn : n + 1 < 2^32) (hd : Works d) (hx : Did dataDir st d x st' d')
    (helse : Elsewhere dataDir path x) :
    Next hdr path n acked names bs x st' d' ∧ Works d' := by
  cases hx with
  | still hw hc hr =>
    refine ⟨.quiet rfl ?_ (hw.trans hst) (h.mono (Nat.le_succ n)) (List.prefix_refl _) ?_, hd⟩
    · rcases hr with hr | hr | hr
      · exact .inl hr
      · exact .inr (.inl hr)
      · exact .inr (.inr (.inl hr))
    · intro hf
      rw [hf] at hr
      rcases hr with hr | hr | hr <;> cases hr
  | @intern _ w₁ _ kind name hw hi hrun =>
    rw [hst] at hw
    cases hw
    have hcases := h.intern hn kind name
    generalize (SessionWriter.intern kind name).run (w, d) = res at hrun hcases
    generalize hrep : x.reply = rep at hrun
    cases hrun with
    | ok =>
      cases hcases with
      | named h' =>
        have hresp : x.reply.resp = .internOk := congrArg Reply.resp hrep
        rw [← Option.toList_some, ← named_eq hi hrep, ← List.append_nil acked, ← Option.toList_none,
          ← acked_none (hresp.trans_ne (by decide))] at h'
        exact ⟨.live rfl h' (List.prefix_refl _)
          ⟨hresp.trans_ne (by decide), hresp.trans_ne (by decide)⟩
          fun hf => absurd hf (hresp.trans_ne (by decide)), hd⟩
    | refused =>
      cases hcases with
      | refused h' =>
        exact ⟨.quiet (congrArg Reply.resp hrep) (.inl rfl) rfl h' (List.prefix_refl _)
          (fun hf => by cases hf), hd⟩
  | @append _ w₁ _ ev hw ha hrun =>
    rw [hst] at hw
    cases hw
    have hcases := h.append hn hd.reliable (appending_fields ha) st.config.flushEveryEvent
    generalize (appendFlush st.config.flushEveryEvent ev).run (w, d) = res at hrun hcases
    generalize hrep : x.reply = rep at hrun
    cases hrun with
    | ok =>
      cases hcases with
      | taken hk hs =>
        have hresp : x.reply.resp = .appendEventOk := congrArg Reply.resp hrep
        have h' := hk.recording
        rw [← Option.toList_some, ← acked_eq ha hrep, ← List.append_nil names, ← Option.toList_none,
          ← named_none (hresp.trans_ne (by decide))] at h'
        exact ⟨.live rfl h' hk.grows ⟨hresp.trans_ne (by decide), hresp.trans_ne (by decide)⟩
          fun hf => absurd hf (hresp.trans_ne (by decide)), hd.touches hk.touches⟩
    | refused =>
      cases hcases with
      | refused hk hr =>
        exact ⟨.quiet (congrArg Reply.resp hrep) (.inl rfl) rfl hk.recording hk.grows
          (fun hf => by cases hf), hd.touches hk.touches⟩
  | flush hw hrun =>
    rw [hst] at hw
    cases hw
    have hcases := h.flush hd.reliable
    generalize flushChunk.run (w, d) = res at hrun hcases
    generalize hrep : x.reply = rep at hrun
    cases hrun with
    | ok =>
      cases hcases with
      | done hk hr hs =>
        refine ⟨.quiet (congrArg Reply.resp hrep) (.inr (.inr (.inr rfl))) rfl
          (hk.recording.mono (Nat.le_succ n)) hk.grows fun _ => ?_, hd.touches hk.touches⟩
        have hevs := hk.recording.records.events
        rw [hs.pendingEvents, List.append_nil] at hevs
        rw [hevs]
        exact h.heard.ready hr
    | refused =>
      cases hcases with
      | refused hk hr hr' =>
        exact ⟨.quiet (congrArg Reply.resp hrep) (.inl rfl) rfl (hk.recording.mono (Nat.le_succ n))
          hk.grows (fun hf => by cases hf), hd.touches hk.touches⟩
  | finish hw hrun =>
    rw [hst] at hw
    cases hw
    have hcases := h.finish (by omega) hd.reliable
    generalize SessionWriter.finish.run (w, d) = res at hrun hcases
    generalize hrep : x.reply = rep at hrun
    cases hrun with
    | ok =>
      cases hcases with
      | done hc hg ht hevents hnames =>
        have hresp : x.reply.resp = .finishSessionOk := congrArg Reply.resp hrep
        exact ⟨.finished rfl hc hg ⟨hresp.trans_ne (by decide), hresp.trans_ne (by decide)⟩
          fun _ => ⟨hevents, hnames⟩, hd.touches ht⟩
    | refused =>
      cases hcases with
      | refused hc hg ht =>
        have hresp : x.reply.resp = .error := congrArg Reply.resp hrep
        exact ⟨.finished rfl hc hg ⟨hresp.trans_ne (by decide), hresp.trans_ne (by decide)⟩
          fun hf => absurd hf (hresp.trans_ne (by decide)), hd.touches ht⟩
  | @opened req header w₁ d₁ ho hr hrun =>
    have hne := helse req header ho
    obtain ⟨hdr', f, d₂, he, hrun', hp, hf, ht, -⟩ :=
      @created d.tick.2 req header (joinPath dataDir req.fileName) (opening_header ho) hd.reliable
    rw [hrun'] at hrun
    cases hrun
    have hsame : d₁.files path = d.files path := ht.other path hne.symm
    have htick : Works d.tick.2 := ⟨hd.reliable, hd.dir⟩
    have hworks : Works d₁ := htick.touches ht
    obtain ⟨hc, htd⟩ := (h.keep hsame).dropped (by omega) hworks.reliable
    rw [AgentState.dropped, hst]
    refine ⟨.replaced rfl ?_ (by rw [hr]) hc, hworks.touches htd⟩
    rw [show (fresh f header).file.path = f.path from rfl, hp]
    exact hne
  | notOpened ho hr hrun =>
    obtain ⟨hdr', f, d₂, he, hrun', -⟩ :=
      @created d.tick.2 _ _ (joinPath dataDir _) (opening_header ho) hd.reliable
    rw [hrun'] at hrun
    cases hrun

/-! ## the requests of a session -/

/-- **a request leaves the files alone that it neither opens nor writes** -/
theorem over_step (h : Effect dataDir x.frame st d (st', d')) (hd : Works d)
    (hother : ∀ w, st.writer = some w → w.file.path ≠ path) (helse : Elsewhere dataDir path x) :
    d'.files path = d.files path ∧ (∀ w, st'.writer = some w → w.file.path ≠ path) ∧ Works d' := by
  have htick : Works d.tick.2 := ⟨hd.reliable, hd.dir⟩
  cases h with
  | same hw hd' =>
    rw [hw]
    rcases hd' with rfl | rfl
    · exact ⟨rfl, hother, hd⟩
    · exact ⟨rfl, hother, htick⟩
  | moved hw hw' h =>
    have hne := hother _ hw
    refine ⟨h.touches.other path hne.symm, fun w hw'' => ?_, hd.touches h.touches⟩
    rw [hw'] at hw''
    cases hw''
    exact h.path ▸ hne
  | ended hw hw' h =>
    refine ⟨h.touches.other path (hother _ hw).symm, fun w hw'' => ?_, hd.touches h.touches⟩
    rw [hw'] at hw''
    cases hw''
  | @opened req header w _ d₁ ho hw' hrun =>
    have hne := helse req header ho
    obtain ⟨hdr', f, d₂, he, hrun', hp, hf, ht, -⟩ :=
      @created d.tick.2 req header (joinPath dataDir req.fileName) (opening_header ho) hd.reliable
    rw [hrun'] at hrun
    cases hrun
    have hw₁ : ∀ w, st'.writer = some w → w.file.path ≠ path := by
      intro w hw''
      rw [hw'] at hw''
      cases hw''
      rw [show (fresh f header).file.path = f.path from rfl, hp]
      exact hne
    have hsame : d₁.files path = d.files path := ht.other path hne.symm
    unfold AgentState.dropped
    cases hst : st.writer with
    | none => exact ⟨hsame, hw₁, htick.touches ht⟩
    | some old =>
      obtain ⟨_, hdrop⟩ := BufWriter.dropped_onward old.file d₁
      exact ⟨(hdrop.touches.other path (hother old hst).symm).trans hsame, hw₁,
        (htick.touches ht).touches hdrop.touches⟩
  | notOpened ho hw' hrun =>
    obtain ⟨hdr', f, d₂, he, hrun', -⟩ :=
      @created d.tick.2 _ _ (joinPath dataDir _) (opening_header ho) hd.reliable
    rw [hrun'] at hrun
    cases hrun

/-- the frames of a connection fit in memory -/
def Fits (xs : List Exchange) : Prop := ∀ x ∈ xs, x.frame.length < 2^63

theorem over_run {xs : List Exchange} (h : Run dataDir st d xs st' d') (hx : Fits xs) (hd : Works d)
    (hother : ∀ w, st.writer = some w → w.file.path ≠ path)
    (helse : ∀ x ∈ xs, Elsewhere dataDir path x) :
    d'.files path = d.files path ∧ (∀ w, st'.writer = some w → w.file.path ≠ path) ∧ Works d' := by
  induction h with
  | nil => exact ⟨rfl, hother, hd⟩
  | @cons st d x xs st₁ d₁ st' d' hstep hrest ih =>
    have hmem : x ∈ x :: xs := List.mem_cons_self ..
    obtain ⟨hfile, hother', hd'⟩ :=
      over_step (step_effect hstep (hx _ hmem)) hd hother (helse _ hmem)
    obtain ⟨hfile', hother'', hd''⟩ := ih (fun y hy => hx y (List.mem_cons_of_mem _ hy)) hd' hother'
      fun y hy => helse y (List.mem_cons_of_mem _ hy)
    exact ⟨hfile'.trans hfile, hother'', hd''⟩

/-- without a writer nothing is finished, and only an `OpenSession` brings one -/
theorem none_step (hst : st.writer = none) (hx : Did dataDir st d x st' d') :
    x.reply.resp ≠ .finishSessionOk ∧ x.reply.resp ≠ .flushOk ∧
      (x.reply.resp ≠ .openSessionOk → st'.writer = none) := by
  cases hx with
  | still hw hc hr =>
    refine ⟨fun h => ?_, fun h => ?_, fun _ => hw.trans hst⟩
    · rw [h] at hr
      rcases hr with hr | hr | hr <;> cases hr
    · rw [h] at hr
      rcases hr with hr | hr | hr <;> cases hr
  | intern hw hi hrun => rw [hst] at hw; cases hw
  | append hw ha hrun => rw [hst] at hw; cases hw
  | flush hw hrun => rw [hst] at hw; cases hw
  | finish hw hrun => rw [hst] at hw; cases hw
  | opened ho hr hrun =>
    rw [hr]
    exact ⟨by decide, by decide, fun h => absurd rfl h⟩
  | notOpened ho hr hrun =>
    rw [hr]
    exact ⟨by decide, by decide, fun _ => hst⟩

/-- a session after some of its requests -/
inductive Midway (hdr : Bytes) (path : String) (n : Nat) (acked : List EventRecord)
    (names : List DictEntry) (bs : List Batch) (st : AgentState) (d : Disk) : Prop
  | live {w bs' r} (hw : st.writer = some w) (h : Recording hdr path n acked names bs' w d r)
      (hg : bs <+: bs') : Midway hdr path n acked names bs st d
  | ended {bs'} (hw : st.writer = none) (hc : Closed hdr path bs' d) (hg : bs <+: bs') :
      Midway hdr path n acked names bs st d

theorem filterMap_cons_toList {α β : Type} (f : α → Option β) (a : α) (l : List α) :
    (a :: l).filterMap f = (f a).toList ++ l.filterMap f := by
  rw [List.filterMap_cons]
  cases f a <;> rfl

/-- **the requests of a session, up to the next one**, by induction on them -/
theorem midway_run {xs : List Exchange} (h : Run dataDir st d xs st' d') (hx : Fits xs) (hd : Works d)
    (hst : Midway hdr path n acked names bs st d) (hn : n + xs.length < 2^32)
    (hno : ∀ x ∈ xs, x.reply.resp ≠ .openSessionOk)
    (helse : ∀ x ∈ xs, Elsewhere dataDir path x) :
    Midway hdr path (n + xs.length) (acked ++ xs.filterMap Exchange.acked)
      (names ++ xs.filterMap Exchange.named) bs st' d' ∧ Works d' := by
  induction h generalizing n acked names bs with
  | nil =>
    rw [List.filterMap_nil, List.filterMap_nil, List.append_nil, List.append_nil]
    exact ⟨hst, hd⟩
  | @cons st d x xs st₁ d₁ st' d' hstep hrest ih =>
    have hmem : x ∈ x :: xs := List.mem_cons_self ..
    have hdid := step_did hstep (hx _ hmem) hd.dir
    rw [List.length_cons] at hn ⊢
    rw [filterMap_cons_toList, filterMap_cons_toList, ← List.append_assoc, ← List.append_assoc,
      Nat.add_comm xs.length, ← Nat.add_assoc]
    -- the requests that follow, from what this one leaves
    have next : ∀ {bs₁ : List Batch}, bs <+: bs₁ → Works d₁ →
        Midway hdr path (n + 1) (acked ++ x.acked.toList) (names ++ x.named.toList) bs₁ st₁ d₁ →
        Midway hdr path (n + 1 + xs.length) (acked ++ x.acked.toList ++ xs.filterMap Exchange.acked)
          (names ++ x.named.toList ++ xs.filterMap Exchange.named) bs st' d' ∧ Works d' := by
      intro bs₁ hg hd₁ hst₁
      obtain ⟨hmid, hd'⟩ := ih (fun y hy => hx y (List.mem_cons_of_mem _ hy)) hd₁ hst₁ (by omega)
        (fun y hy => hno y (List.mem_cons_of_mem _ hy))
        fun y hy => helse y (List.mem_cons_of_mem _ hy)
      refine ⟨?_, hd'⟩
      cases hmid with
      | live hw h hg' => exact .live hw h (hg.trans hg')
      | ended hw hc hg' => exact .ended hw hc (hg.trans hg')
    cases hst with
    | live hw hrec hg =>
      obtain ⟨hnext, hd₁⟩ := live_step hw hrec (by omega) hd hdid (helse _ hmem)
      cases hnext with
      | live hw' h' hg' hnot hs => exact next hg hd₁ (.live hw' h' hg')
      | finished hw' hc hg' hnot hs => exact next hg hd₁ (.ended hw' hc hg')
      | replaced hw' hp hr hc => exact absurd hr (hno _ hmem)
    | ended hw hc hg =>
      have hnone := (none_step hw hdid).2.2 (hno _ hmem)
      obtain ⟨hfile, -, hd₁⟩ := over_step (step_effect hstep (hx _ hmem)) hd
        (fun w hw' => by rw [hw] at hw'; cases hw') (helse _ hmem)
      exact next hg hd₁ (.ended hnone (hc.keep hfile) (List.prefix_refl _))

/-! ## the connection -/

/-- the disk after `handle_client` returned: its state is dropped -/
def Conn.left (c : Conn) : Disk := c.state.dropped c.disk

theorem joinPath_inj {a b : String} (h : joinPath dataDir a = joinPath dataDir b) : a = b := by
  have hl := congrArg String.toList h
  simp only [joinPath, String.toList_append] at hl
  exact String.toList_injective (List.append_cancel_left hl)

theorem elsewhere_of_ne {req : OpenRequest}
    (h : ∀ req' header', opening x.frame = some (req', header') → req'.fileName ≠ req.fileName) :
    Elsewhere dataDir (joinPath dataDir req.fileName) x :=
  fun req' header' hx hp => h req' header' hx (joinPath_inj hp)

theorem Replied.resp_ne {α : Type} {ok : α → Reply} {resp : Resp} {reply : Reply}
    {res : EStateM.Result (Abort Error) (SessionWriter × Disk) α} (h : Replied ok w d res reply)
    (hok : ∀ a, (ok a).resp ≠ resp) (he : .error ≠ resp) : reply.resp ≠ resp := by
  cases h with
  | ok => exact hok _
  | refused => exact he

/-- an `OpenSession` that succeeded starts a session that has recorded nothing -/
theorem opened_recording {req : OpenRequest} {header : FileHeader}
    (hx : Did dataDir st d x st' d') (ho : opening x.frame = some (req, header))
    (hr : x.reply.resp = .openSessionOk) (hd : Works d)
    (hother : ∀ w, st.writer = some w → w.file.path ≠ joinPath dataDir req.fileName) :
    ∃ hdr w, header.encode = .ok hdr ∧ st'.writer = some w ∧
      Recording hdr (joinPath dataDir req.fileName) 0 [] [] [] w d' ⟨[], []⟩ ∧ Works d' := by
  cases hx with
  | still hw hc hr' =>
    rw [hr] at hr'
    rcases hr' with hr' | hr' | hr' <;> cases hr'
  | intern hw hi hrun => exact absurd hr (hrun.resp_ne (fun _ h => by cases h) (by decide))
  | append hw ha hrun => exact absurd hr (hrun.resp_ne (fun _ h => by cases h) (by decide))
  | flush hw hrun => exact absurd hr (hrun.resp_ne (fun _ h => by cases h) (by decide))
  | finish hw hrun => exact absurd hr (hrun.resp_ne (fun _ h => by cases h) (by decide))
  | notOpened ho' hr' hrun => rw [hr] at hr'; cases hr'
  | @opened req' header' w d₁ ho' hr' hrun =>
    rw [ho] at ho'
    cases ho'
    obtain ⟨hdr, f, d₂, he, hrun', hp, hf, ht, -⟩ :=
      @created d.tick.2 req header (joinPath dataDir req.fileName) (opening_header ho) hd.reliable
    rw [hrun'] at hrun
    cases hrun
    have htick : Works d.tick.2 := ⟨hd.reliable, hd.dir⟩
    have hrec : Recording hdr (joinPath dataDir req.fileName) 0 [] [] [] (fresh f header) d₁ ⟨[], []⟩ :=
      ⟨hp, rfl, fresh_records header hf, List.Sublist.refl _, List.Subset.refl _, fun _ => rfl,
        le_refl _, fun ev hev => by cases hev⟩
    refine ⟨hdr, _, he, rfl, ?_⟩
    unfold AgentState.dropped
    cases hst : st.writer with
    | none => exact ⟨hrec, htick.touches ht⟩
    | some old =>
      obtain ⟨_, hdrop⟩ := BufWriter.dropped_onward old.file d₁
      exact ⟨hrec.keep (hdrop.touches.other _ (hother old hst).symm),
        (htick.touches ht).touches hdrop.touches⟩

/-- a part of the exchanges of a connection -/
theorem Fits.part {xs ys : List Exchange} (h : Fits ys) (hsub : ∀ x ∈ xs, x ∈ ys) : Fits xs :=
  fun x hx => h x (hsub x hx)

theorem Complete.fits {c c' : Conn} {xs : List Exchange}
    {res : EStateM.Result (Abort Halt) Conn Unit} (h : Complete dataDir c c' xs res) : Fits xs := by
  have hmax : maxFrameSize < 2^63 := by decide
  intro x hx
  have hmem : x.frame ∈ (Dtj.Agent.requests c.input).1 := by
    rw [← h.requests]
    exact List.mem_map_of_mem hx
  exact (requests_length hmem).trans_lt hmax

/-- the requests before a session, its `OpenSession`, and the requests up to the next one -/
theorem session_midway {config : Config} {pre mid : List Exchange} {o : Exchange}
    {req : OpenRequest} {header : FileHeader}
    (h : Run dataDir (.new config) d (pre ++ o :: mid) st' d') (hx : Fits (pre ++ o :: mid))
    (hd : Works d) (hn : mid.length < 2^32) (ho : opening o.frame = some (req, header))
    (hr : o.reply.resp = .openSessionOk) (hmid : ∀ x ∈ mid, x.reply.resp ≠ .openSessionOk)
    (helse : ∀ x ∈ pre ++ mid, Elsewhere dataDir (joinPath dataDir req.fileName) x) :
    ∃ hdr, header.encode = .ok hdr ∧ Midway hdr (joinPath dataDir req.fileName) mid.length
      (mid.filterMap Exchange.acked) (mid.filterMap Exchange.named) [] st' d' ∧ Works d' := by
  obtain ⟨st₁, d₁, hpre, hrest⟩ := h.split
  have hxpre : Fits pre := hx.part fun x hxm => List.mem_append_left _ hxm
  obtain ⟨-, hother, hd₁⟩ := over_run hpre hxpre hd (fun w hw => by cases hw)
    fun x hxm => helse x (List.mem_append_left _ hxm)
  cases hrest with
  | @cons _ _ _ _ st₂ d₂ _ _ hstep hrun =>
    have ho63 := hx o (List.mem_append_right _ (List.mem_cons_self ..))
    obtain ⟨hdr, w, he, hw, hrec, hd₂⟩ :=
      opened_recording (step_did hstep ho63 hd₁.dir) ho hr hd₁ hother
    have hxmid : Fits mid :=
      hx.part fun x hxm => List.mem_append_right _ (List.mem_cons_of_mem _ hxm)
    obtain ⟨hmidway, hd'⟩ := midway_run hrun hxmid hd₂ (.live hw hrec (List.prefix_refl _)) (by omega)
      hmid fun x hxm => helse x (List.mem_append_right _ hxm)
    rw [Nat.zero_add, List.nil_append, List.nil_append] at hmidway
    exact ⟨hdr, he, hmidway, hd'⟩

/-- what is left of a file that no later request opens or writes -/
theorem left_file {c' : Conn} {xs : List Exchange} (h : Run dataDir st d xs c'.state c'.disk)
    (hx : Fits xs) (hd : Works d) (hother : ∀ w, st.writer = some w → w.file.path ≠ path)
    (helse : ∀ x ∈ xs, Elsewhere dataDir path x) : c'.left.files path = d.files path := by
  obtain ⟨hfile, hother', -⟩ := over_run h hx hd hother helse
  rw [← hfile]
  unfold Conn.left AgentState.dropped
  cases hw : c'.state.writer with
  | none => rfl
  | some w =>
    obtain ⟨_, hdrop⟩ := BufWriter.dropped_onward w.file c'.disk
    exact hdrop.touches.other path (hother' w hw).symm

/-- **the chunks of an open session are never lost**, whatever the other requests are, and however
the connection ends -/
theorem kept_run {xs : List Exchange} (h : Run dataDir st d xs st' d') (hx : Fits xs) (hd : Works d)
    (hw : st.writer = some w) (hrec : Recording hdr path n acked names bs w d r)
    (hn : n + xs.length < 2^32) (helse : ∀ x ∈ xs, Elsewhere dataDir path x) :
    ∃ bs', bs <+: bs' ∧ Closed hdr path bs' (st'.dropped d') := by
  -- once the session is over, its file stays
  have ended : ∀ {xs : List Exchange} {st₁ st' : AgentState} {d₁ d' : Disk} {bs' : List Batch},
      Run dataDir st₁ d₁ xs st' d' → Fits xs → Works d₁ →
      (∀ w, st₁.writer = some w → w.file.path ≠ path) → (∀ x ∈ xs, Elsewhere dataDir path x) →
      Closed hdr path bs' d₁ → Closed hdr path bs' (st'.dropped d') := by
    intro xs st₁ st' d₁ d' bs' hrun hx hd₁ hother helse hc
    exact hc.keep (@left_file _ _ _ _ ⟨st', d', [], []⟩ xs hrun hx hd₁ hother helse)
  induction h generalizing n acked names bs w r with
  | nil =>
    refine ⟨bs, List.prefix_refl _, ?_⟩
    rw [AgentState.dropped, hw]
    exact (hrec.dropped (by omega) hd.reliable).1
  | @cons st d x xs st₁ d₁ st' d' hstep hrest ih =>
    have hmem : x ∈ x :: xs := List.mem_cons_self ..
    have hxs : Fits xs := fun y hy => hx y (List.mem_cons_of_mem _ hy)
    have helse' : ∀ y ∈ xs, Elsewhere dataDir path y := fun y hy =>
      helse y (List.mem_cons_of_mem _ hy)
    rw [List.length_cons] at hn
    obtain ⟨hnext, hd₁⟩ := live_step hw hrec (by omega) hd (step_did hstep (hx x hmem) hd.dir)
      (helse x hmem)
    cases hnext with
    | live hw' h' hg hnot hs =>
      obtain ⟨bs', hg', hc⟩ := ih hxs hd₁ hw' h' (by omega) helse'
      exact ⟨bs', hg.trans hg', hc⟩
    | finished hw' hc hg hnot hs =>
      exact ⟨_, hg, ended hrest hxs hd₁ (fun w h => by rw [hw'] at h; cases h) helse' hc⟩
    | replaced hw' hp hr hc =>
      exact ⟨bs, List.prefix_refl _, ended hrest hxs hd₁
        (fun w h => by rw [hw'] at h; cases h; exact hp) helse' hc⟩

/-- a session of the connection: it is opened by `o` under a file name that no other request opens,
and `mid` are the requests up to the next session -/
structure Session (dataDir : String) (config : Config) (d : Disk) (input : Bytes) (c' : Conn)
    (pre : List Exchange) (o : Exchange) (mid post : List Exchange) (req : OpenRequest)
    (header : FileHeader) : Prop where
  complete : Complete dataDir ⟨.new config, d, input, []⟩ c' (pre ++ o :: (mid ++ post))
    ((handleClient dataDir).run ⟨.new config, d, input, []⟩)
  few : (requests input).1.length < 2^32
  opens : opening o.frame = some (req, header)
  opened : o.reply.resp = .openSessionOk
  same : ∀ x ∈ mid, x.reply.resp ≠ .openSessionOk
  unique : ∀ x ∈ pre ++ (mid ++ post), ∀ req' header', opening x.frame = some (req', header') →
    req'.fileName ≠ req.fileName

section
variable {config : Config} {input : Bytes} {c' : Conn} {pre mid post : List Exchange}
  {o f : Exchange} {req : OpenRequest} {header : FileHeader}

theorem Session.count (h : Session dataDir config d input c' pre o mid post req header) :
    pre.length + (mid.length + post.length + 1) < 2^32 := by
  have hlen : _ = (requests input).1.length := congrArg List.length h.complete.requests
  have hfew := h.few
  rw [List.length_map, List.length_append, List.length_cons, List.length_append] at hlen
  omega

theorem Session.elsewhere (h : Session dataDir config d input c' pre o mid post req header) :
    ∀ x ∈ pre ++ (mid ++ post), Elsewhere dataDir (joinPath dataDir req.fileName) x :=
  fun x hx => elsewhere_of_ne (h.unique x hx)

/-- the connection in the middle of the session -/
theorem Session.midway (h : Session dataDir config d input c' pre o mid post req header)
    (hd : Works d) : ∃ hdr st₁ d₁, header.encode = .ok hdr ∧
      Run dataDir (.new config) d (pre ++ o :: mid) st₁ d₁ ∧
      Run dataDir st₁ d₁ post c'.state c'.disk ∧
      Midway hdr (joinPath dataDir req.fileName) mid.length (mid.filterMap Exchange.acked)
        (mid.filterMap Exchange.named) [] st₁ d₁ ∧ Works d₁ := by
  have hfits := h.complete.fits
  have hcount := h.count
  have hrun := h.complete.run
  rw [show pre ++ o :: (mid ++ post) = (pre ++ o :: mid) ++ post by simp] at hrun hfits
  obtain ⟨st₁, d₁, hrun₁, hrun₂⟩ := hrun.split
  obtain ⟨hdr, he, hmidway, hd₁⟩ := session_midway hrun₁
    (hfits.part fun x hx => List.mem_append_left _ hx) hd (by omega) h.opens h.opened h.same
    fun x hx => by
      refine h.elsewhere x ?_
      rcases List.mem_append.mp hx with hx | hx
      · exact List.mem_append_left _ hx
      · exact List.mem_append_right _ (List.mem_append_left _ hx)
  exact ⟨hdr, st₁, d₁, he, hrun₁, hrun₂, hmidway, hd₁⟩

/-- the request that wrote all that was pending, and what follows it -/
theorem Session.sealed (h : Session dataDir config d input c' pre o mid (f :: post) req header)
    (hd : Works d) (hf : f.reply.resp = .flushOk ∨ f.reply.resp = .finishSessionOk) :
    ∃ hdr st₂ d₂, header.encode = .ok hdr ∧ Run dataDir st₂ d₂ post c'.state c'.disk ∧ Fits post ∧
      Works d₂ ∧ (∀ x ∈ post, Elsewhere dataDir (joinPath dataDir req.fileName) x) ∧
      ∃ bs, Next hdr (joinPath dataDir req.fileName) mid.length (mid.filterMap Exchange.acked)
        (mid.filterMap Exchange.named) bs f st₂ d₂ := by
  obtain ⟨hdr, st₁, d₁, he, -, hrun₂, hmidway, hd₁⟩ := h.midway hd
  have hfits := h.complete.fits
  have hcount := h.count
  have hmem : ∀ x ∈ f :: post, x ∈ pre ++ o :: (mid ++ f :: post) := fun x hx =>
    List.mem_append_right _ (List.mem_cons_of_mem _ (List.mem_append_right _ hx))
  have helse : ∀ x ∈ f :: post, Elsewhere dataDir (joinPath dataDir req.fileName) x := fun x hx =>
    h.elsewhere x (List.mem_append_right _ (List.mem_append_right _ hx))
  generalize c'.state = st' at hrun₂ ⊢
  generalize c'.disk = d' at hrun₂ ⊢
  cases hrun₂ with
  | @cons _ _ _ _ st₂ d₂ _ _ hstep hpost =>
    have hdid := step_did hstep (hfits f (hmem f (List.mem_cons_self ..))) hd₁.dir
    cases hmidway with
    | ended hw hc hg =>
      have hnone := none_step hw hdid
      exact absurd hf (not_or.mpr ⟨hnone.2.1, hnone.1⟩)
    | live hw hrec hg =>
      obtain ⟨hnext, hd₂⟩ := live_step hw hrec (by omega) hd₁ hdid (helse f (List.mem_cons_self ..))
      exact ⟨hdr, st₂, d₂, he, hpost, fun x hx => hfits x (hmem x (List.mem_cons_of_mem _ hx)), hd₂,
        fun x hx => helse x (List.mem_cons_of_mem _ hx), _, hnext⟩

/-- **A session that was finished is read back as what the client was told** -/
theorem session_recorded (h : Session dataDir config d input c' pre o mid (f :: post) req header)
    (hd : Works d) (hf : f.reply.resp = .finishSessionOk) :
    ∃ file rd, c'.left.files (joinPath dataDir req.fileName) = some file ∧
      SessionReader.open file = .ok rd ∧ rd.tornTail = false ∧
      rd.events = mid.filterMap Exchange.acked ∧ Numbered 1 rd.events ∧
      ∀ e ∈ mid.filterMap Exchange.named, rd.dictionary.getName e.kind e.id = some e.name := by
  obtain ⟨hdr, st₂, d₂, he, hpost, hfits, hd₂, helse, bs, hnext⟩ := h.sealed hd (.inr hf)
  cases hnext with
  | live hw' h' hg' hnot hs => exact absurd hf hnot.2
  | replaced hw' hp hr' hc => rw [hf] at hr'; cases hr'
  | finished hw' hc hg' hnot hs =>
    obtain ⟨hevents, hnames⟩ := hs hf
    have hleft := left_file hpost hfits hd₂ (fun w hw => by rw [hw'] at hw; cases hw) helse
    obtain ⟨file, rd, hfile, hread, htorn, hshows⟩ := (hc.keep hleft).read he
    refine ⟨file, rd, hfile, hread, htorn, hshows.events.trans hevents, ?_, fun e hem => ?_⟩
    · obtain ⟨v, hv⟩ := hc.replayed
      have hv' : v.events = _ := (replay_ok hv).2.1
      rw [show View.empty.events = [] from rfl, List.nil_append] at hv'
      rw [hshows.events, ← hv']
      exact replay_numbered hv (numbered_nil 1)
    · exact (hshows.names e.kind e.id e.name).mpr (hnames hem)

/-- what was acknowledged before a flush that succeeded is in the file that is left -/
theorem Session.flushed (h : Session dataDir config d input c' pre o mid (f :: post) req header)
    (hd : Works d) (hf : f.reply.resp = .flushOk ∨ f.reply.resp = .finishSessionOk) :
    ∃ file rd, c'.left.files (joinPath dataDir req.fileName) = some file ∧
      SessionReader.open file = .ok rd ∧ mid.filterMap Exchange.acked <+: rd.events := by
  have hcount := h.count
  rw [List.length_cons] at hcount
  obtain ⟨hdr, st₂, d₂, he, hpost, hfits, hd₂, helse, bs, hnext⟩ := h.sealed hd hf
  -- the chunks that hold the events, and those of the file that is left
  have hkept : ∃ bs₁ bs', bs₁.flatMap Batch.evs = mid.filterMap Exchange.acked ∧ bs₁ <+: bs' ∧
      Closed hdr (joinPath dataDir req.fileName) bs' c'.left := by
    cases hnext with
    | live hw' h' hg' hnot hs =>
      obtain ⟨bs', hg, hc⟩ := kept_run hpost hfits hd₂ hw' h' (by omega) helse
      exact ⟨_, bs', hs (hf.resolve_right hnot.2), hg, hc⟩
    | finished hw' hc hg' hnot hs =>
      have hleft := left_file hpost hfits hd₂ (fun w hw => by rw [hw'] at hw; cases hw) helse
      exact ⟨_, _, (hs (hf.resolve_left hnot.2)).1, List.prefix_refl _, hc.keep hleft⟩
    | replaced hw' hp hr' hc =>
      rw [hr'] at hf
      rcases hf with hf | hf <;> cases hf
  obtain ⟨bs₁, bs', hevs, hg, hc⟩ := hkept
  obtain ⟨file, rd, hfile, hread, -, hshows⟩ := hc.read he
  refine ⟨file, rd, hfile, hread, ?_⟩
  rw [← hevs, hshows.events]
  exact flatMap_mono _ hg

/-- **While a session is open, an event that was acknowledged is in a chunk of its file or pending;
once a flush or its end was answered with success, it is in the file that is left**, whatever
requests follow, and however the connection ends -/
theorem acked_kept (h : Session dataDir config d input c' pre o mid post req header)
    (hd : Works d) :
    (∃ hdr st₁ d₁, header.encode = .ok hdr ∧
      Run dataDir (.new config) d (pre ++ o :: mid) st₁ d₁ ∧
      ∀ w, st₁.writer = some w → ∃ bs, w.file.path = joinPath dataDir req.fileName ∧
        w.file.Holds d₁ (hdr ++ layout 1 bs) ∧
        (mid.filterMap Exchange.acked).Sublist (bs.flatMap Batch.evs ++ w.pendingEvents)) ∧
    ∀ mid₁ f mid₂, mid = mid₁ ++ f :: mid₂ →
      f.reply.resp = .flushOk ∨ f.reply.resp = .finishSessionOk →
      ∃ file rd, c'.left.files (joinPath dataDir req.fileName) = some file ∧
        SessionReader.open file = .ok rd ∧ mid₁.filterMap Exchange.acked <+: rd.events := by
  constructor
  · obtain ⟨hdr, st₁, d₁, he, hrun, -, hmidway, -⟩ := h.midway hd
    refine ⟨hdr, st₁, d₁, he, hrun, fun w hw => ?_⟩
    cases hmidway with
    | ended hw' hc hg => rw [hw'] at hw; cases hw
    | live hw' hrec hg =>
      rw [hw'] at hw
      cases hw
      obtain ⟨v, hk⟩ := hrec.records.keeps
      refine ⟨_, hrec.file, hk.holds, ?_⟩
      rw [hrec.records.events]
      exact hrec.heard.told
  · rintro mid₁ f mid₂ rfl hf
    have h' : Session dataDir config d input c' pre o mid₁ (f :: (mid₂ ++ post)) req header := by
      have hassoc : mid₁ ++ f :: mid₂ ++ post = mid₁ ++ f :: (mid₂ ++ post) := by simp
      refine ⟨?_, h.few, h.opens, h.opened, fun x hx => h.same x (List.mem_append_left _ hx), ?_⟩
      · rw [← hassoc]
        exact h.complete
      · rw [← hassoc]
        exact h.unique
    exact h'.flushed hd hf

end

/-! ## a session of one event -/

def helloFrame : Bytes := Cmd.hello.toU8 :: le 4 protocolVersion.toNat

/-- `OpenSession` with an empty producer -/
def openFrame (fileName : String) : Bytes :=
  Cmd.openSession.toU8 :: (le 2 (utf8 fileName).length ++ utf8 fileName ++ List.replicate 16 0 ++
    le 8 0 ++ le 8 0 ++ le 2 0 ++ le 2 0)

def internFrame (kind : DictKind) (name : String) : Bytes :=
  Cmd.intern.toU8 :: kind.toU8 :: (le 2 (utf8 name).length ++ utf8 name)

/-- `AppendEvent` of one field; all ids are 1 -/
def appendFrame (typeTag : UInt8) (value : Bytes) : Bytes :=
  Cmd.appendEvent.toU8 :: (le 8 7 ++ le 4 1 ++ le 4 1 ++ le 4 1 ++ le 4 0 ++ [2] ++ le 2 1 ++ le 4 1 ++
    [typeTag, 0, 0, 0] ++ value)

def exampleHello : Exchange := ⟨helloFrame, ⟨.helloOk, le 4 1⟩⟩

def exampleOpen : Exchange := ⟨openFrame "s", ⟨.openSessionOk, []⟩⟩

/-- four names, and an event with the U32 value 7 -/
def exampleMid : List Exchange :=
  [⟨internFrame .domain "net", internReply 1⟩, ⟨internFrame .category "rx", internReply 1⟩,
    ⟨internFrame .eventName "frame", internReply 1⟩, ⟨internFrame .string "raw", internReply 1⟩,
    ⟨appendFrame 0x04 (le 4 7), appendReply 1⟩]

def exampleFinish : Exchange := ⟨[Cmd.finishSession.toU8], finishReply ()⟩

/-- a connection on a disk without files, that ends after the exchanges `xs` -/
def exampleConn (xs : List Exchange) : Conn :=
  ⟨.new .default, exampleDisk, (xs.map Exchange.frame).flatMap frameBytes, []⟩

theorem exampleDisk_works : Works exampleDisk := ⟨exampleDisk_reliable, fun _ => rfl⟩

/-- the exchanges of the example are those of the agent -/
theorem example_complete {xs : List Exchange} (hlen : ∀ x ∈ xs, x.frame.length ≤ maxFrameSize)
    (hn : xs.length < 2^32) (hxs : (serve "d" (xs.map Exchange.frame) (.new .default)
      exampleDisk).exchanges = xs) :
    ∃ c', Complete "d" (exampleConn xs) c' xs ((handleClient "d").run (exampleConn xs)) ∧
      c'.left = (serve "d" (xs.map Exchange.frame) (.new .default) exampleDisk).state.dropped
        (serve "d" (xs.map Exchange.frame) (.new .default) exampleDisk).disk := by
  have hreq : requests ((xs.map Exchange.frame).flatMap frameBytes) = (xs.map Exchange.frame, .eof) :=
    requests_frames fun frame hf => by
      obtain ⟨x, hx, rfl⟩ := List.mem_map.mp hf
      exact hlen x hx
  obtain ⟨c', hc, hst, hdisk⟩ := @complete_serve "d" .default exampleDisk
    ((xs.map Exchange.frame).flatMap frameBytes) exampleDisk_works.dir
    (by rw [hreq, List.length_map]; exact hn)
  rw [hreq] at hc hst hdisk
  rw [hxs] at hc
  exact ⟨c', hc, by rw [Conn.left, hst, hdisk]⟩

theorem example_session : ∃ c' req header,
    Session "d" .default exampleDisk (exampleConn (exampleHello :: exampleOpen ::
      (exampleMid ++ [exampleFinish]))).input c' [exampleHello] exampleOpen exampleMid
      [exampleFinish] req header := by
  obtain ⟨c', hc, -⟩ := @example_complete (exampleHello :: exampleOpen ::
    (exampleMid ++ [exampleFinish])) (by decide +kernel) (by decide) (by decide +kernel)
  obtain ⟨⟨req, header⟩, ho⟩ := Option.isSome_iff_exists.mp
    (show (opening exampleOpen.frame).isSome by decide +kernel)
  have hnone : ∀ x ∈ [exampleHello] ++ (exampleMid ++ [exampleFinish]),
      (opening x.frame).isNone := by decide +kernel
  refine ⟨c', req, header, hc, ?_, ho, rfl, by decide +kernel, fun x hx req' header' hx' => ?_⟩
  · have hlen := congrArg List.length hc.requests
    rw [← hlen]
    decide
  · have := hnone x hx
    rw [hx'] at this
    cases this

theorem example_recorded : ∃ c' req header,
    Session "d" .default exampleDisk (exampleConn (exampleHello :: exampleOpen ::
      (exampleMid ++ [exampleFinish]))).input c' [exampleHello] exampleOpen exampleMid
      [exampleFinish] req header ∧
    ∃ file rd, c'.left.files (joinPath "d" req.fileName) = some file ∧
      SessionReader.open file = .ok rd ∧ rd.tornTail = false ∧
      rd.events = exampleMid.filterMap Exchange.acked ∧ Numbered 1 rd.events ∧
      ∀ e ∈ exampleMid.filterMap Exchange.named, rd.dictionary.getName e.kind e.id = some e.name := by
  obtain ⟨c', req, header, hs⟩ := example_session
  exact ⟨c', req, header, hs, session_recorded hs exampleDisk_works rfl⟩

/-- the event of the example, before and after its session was finished -/
theorem acked_kept_example : ∃ c' req header,
    Session "d" .default exampleDisk (exampleConn (exampleHello :: exampleOpen ::
      (exampleMid ++ [exampleFinish]))).input c' [exampleHello] exampleOpen (exampleMid ++ [exampleFinish])
      [] req header ∧
    (∃ hdr st₁ d₁, header.encode = .ok hdr ∧
      Run "d" (.new .default) exampleDisk ([exampleHello] ++ exampleOpen ::
        (exampleMid ++ [exampleFinish])) st₁ d₁ ∧
      ∀ w, st₁.writer = some w → ∃ bs, w.file.path = joinPath "d" req.fileName ∧
        w.file.Holds d₁ (hdr ++ layout 1 bs) ∧
        ((exampleMid ++ [exampleFinish]).filterMap Exchange.acked).Sublist
          (bs.flatMap Batch.evs ++ w.pendingEvents)) ∧
    ∀ mid₁ f mid₂, exampleMid ++ [exampleFinish] = mid₁ ++ f :: mid₂ →
      f.reply.resp = .flushOk ∨ f.reply.resp = .finishSessionOk →
      ∃ file rd, c'.left.files (joinPath "d" req.fileName) = some file ∧
        SessionReader.open file = .ok rd ∧ mid₁.filterMap Exchange.acked <+: rd.events := by
  obtain ⟨c', req, header, hs⟩ := example_session
  have hs' : Session "d" .default exampleDisk (exampleConn (exampleHello :: exampleOpen ::
      (exampleMid ++ [exampleFinish]))).input c' [exampleHello] exampleOpen
      (exampleMid ++ [exampleFinish]) [] req header := by
    refine ⟨?_, hs.few, hs.opens, hs.opened, by decide +kernel, ?_⟩
    · rw [List.append_nil]
      exact hs.complete
    · rw [List.append_nil]
      exact hs.unique
  exact ⟨c', req, header, hs', acked_kept hs' exampleDisk_works⟩

/-- an event that was acknowledged, and is in no chunk of the file that is left at the end of the
connection -/
theorem buffered_lost : ∃ c' file rd ev,
    Complete "d" (exampleConn (exampleHello :: exampleOpen :: exampleMid)) c'
      (exampleHello :: exampleOpen :: exampleMid)
      ((handleClient "d").run (exampleConn (exampleHello :: exampleOpen :: exampleMid))) ∧
    exampleMid.filterMap Exchange.acked = [ev] ∧ c'.left.files "d/s" = some file ∧
      SessionReader.open file = .ok rd ∧ rd.events = [] := by
  obtain ⟨c', hc, hleft⟩ := @example_complete (exampleHello :: exampleOpen :: exampleMid)
    (by decide +kernel) (by decide) (by decide +kernel)
  obtain ⟨ev, hev⟩ := List.length_eq_one_iff.mp
    (show (exampleMid.filterMap Exchange.acked).length = 1 by decide +kernel)
  obtain ⟨file, hfile, hread⟩ : ∃ file, c'.left.files "d/s" = some file ∧
      ((SessionReader.open file).toOption.map fun rd => rd.events.isEmpty).getD false = true := by
    rw [hleft]
    exact (Option.any_eq_true _ _).mp (by decide +kernel)
  obtain ⟨rd, hrd, hempty⟩ := exists_ok hread
  exact ⟨c', file, rd, ev, hc, hev, hfile, hrd, List.isEmpty_iff.mp hempty⟩

end Dtj.Agent
