import Dtj.Agent.Steps
import Dtj.Journal.Poison

/-!
# What a session has recorded, and what its client was told

* `Heard`        the acknowledged events and names, within what the writer has taken;
* `Recording`    **the session is open**: its file and its pending items hold what was taken;
* `Recording.intern`, `.append`, `.flush`, `.finish`   the calls, on a disk that works;
* `Closed`       **the session is over**: its file is a journal, and stays one.
-/

namespace Dtj.Agent
open Wire Checked SessionWriter

/-- **What the client was told is what was taken**, unless what is pending can no longer be
written; `n` bounds the number of names and events -/
structure Heard (n : Nat) (acked : List EventRecord) (names : List DictEntry) (w : SessionWriter)
    (r : Record) : Prop where
  told : acked.Sublist r.events
  named : names ⊆ r.entries
  ready : Ready w → r.events = acked
  items : r.entries.length + r.events.length ≤ n
  fields : ∀ ev ∈ r.events, ev.payload.fields.length = 1

/-- **An open session**: the file at the path has the chunks `bs`, and the writer has taken `r` -/
structure Recording (hdr : Bytes) (path : String) (n : Nat) (acked : List EventRecord)
    (names : List DictEntry) (bs : List Batch) (w : SessionWriter) (d : Disk) (r : Record) :
    Prop where
  file : w.file.path = path
  opened : w.finished = false
  records : Records hdr bs w d r.entries r.events
  heard : Heard n acked names w r

variable {hdr : Bytes} {path : String} {n : Nat} {acked : List EventRecord}
  {names : List DictEntry} {bs : List Batch} {w w' : SessionWriter} {d d' : Disk} {r : Record}

theorem Heard.mono {n' : Nat} (h : Heard n acked names w r) (hn : n ≤ n') :
    Heard n' acked names w r where
  told := h.told
  named := h.named
  ready := h.ready
  items := h.items.trans hn
  fields := h.fields

/-- an event that the client was not told of, in a writer that can no longer write -/
theorem Heard.unheard {more : List EventRecord} (h : Heard n (acked ++ more) names w r)
    (hw : ¬ Ready w) : Heard n acked names w r where
  told := (List.sublist_append_left acked more).trans h.told
  named := h.named
  ready hr := absurd hr hw
  items := h.items
  fields := h.fields

/-- the writer has what can be written as before, or can no longer write -/
theorem Heard.change (h : Heard n acked names w r) (hw : Ready w' → Ready w) :
    Heard n acked names w' r :=
  ⟨h.told, h.named, fun hr => h.ready (hw hr), h.items, h.fields⟩

theorem Recording.mono {n' : Nat} (h : Recording hdr path n acked names bs w d r) (hn : n ≤ n') :
    Recording hdr path n' acked names bs w d r :=
  ⟨h.file, h.opened, h.records, h.heard.mono hn⟩

/-- the items of the file and the pending ones are those that were taken -/
theorem Recording.items_eq (h : Recording hdr path n acked names bs w d r) :
    items bs + (w.pendingDict.length + w.pendingEvents.length)
      = r.entries.length + r.events.length := by
  rw [← h.records.entries, ← h.records.events, List.length_append, List.length_append, items]
  omega

/-- the items that are pending are few -/
theorem Recording.plain (h : Recording hdr path n acked names bs w d r) (hn : n < 2^32) :
    PlainPending w := by
  have hitems := h.items_eq
  have hle := h.heard.items
  refine ⟨⟨?_, fun ev hev => (by cases hev)⟩, ⟨?_, fun ev hev => ?_⟩⟩
  · show w.pendingDict.length < 2^32
    omega
  · show w.pendingEvents.length < 2^32
    omega
  · refine h.heard.fields ev ?_
    rw [← h.records.events]
    exact List.mem_append_right _ hev

/-- the chunks of the file are within the limits -/
theorem Recording.within (h : Recording hdr path n acked names bs w d r) (hn : n < 2^32) :
    ∀ b ∈ bs, b.Within := by
  obtain ⟨v, hk⟩ := h.records.keeps
  have hitems := h.items_eq
  have hle := h.heard.items
  intro b hb
  have hcount := count_le_items hb
  refine (Batch.Plain.within_iff ⟨by omega, fun ev hev => ?_⟩).mpr (hk.batches b hb).1
  refine h.heard.fields ev ?_
  rw [← h.records.events]
  exact List.mem_append_left _ (List.mem_flatMap.mpr ⟨b, hb, hev⟩)

/-! ## the calls -/

/-- what a call leaves of a session: its chunks are still there, and it may have more of them -/
structure Kept (hdr : Bytes) (path : String) (n : Nat) (acked : List EventRecord)
    (names : List DictEntry) (bs : List Batch) (d : Disk) (w' : SessionWriter) (d' : Disk)
    (bs' : List Batch) (r' : Record) : Prop where
  recording : Recording hdr path n acked names bs' w' d' r'
  grows : bs <+: bs'
  touches : Disk.Touches path d d'

theorem Recording.kept (h : Recording hdr path n acked names bs w d r) :
    Kept hdr path n acked names bs d w d bs r := ⟨h, List.prefix_refl _, .refl _ _⟩

/-- what a flush may end with on a disk that works: a refusal lasts -/
inductive Flushing (hdr : Bytes) (path : String) (n : Nat) (acked : List EventRecord)
    (names : List DictEntry) (bs : List Batch) (w : SessionWriter) (d : Disk) (r : Record) :
    EStateM.Result (Abort Error) (SessionWriter × Disk) Unit → Prop
  | done {w' d' bs'} (hk : Kept hdr path n acked names bs d w' d' bs' r) (hr : Ready w)
      (hs : Synced w') : Flushing hdr path n acked names bs w d r (.ok () (w', d'))
  | refused {e w' d' bs'} (hk : Kept hdr path n acked names bs d w' d' bs' r) (hr : ¬ Ready w)
      (hr' : ¬ Ready w') : Flushing hdr path n acked names bs w d r (.error (.error e) (w', d'))
  | overflow {s} : Flushing hdr path n acked names bs w d r (.error .panic s)

theorem Recording.flush (h : Recording hdr path n acked names bs w d r) (hd : d.Reliable) :
    Flushing hdr path n acked names bs w d r (flushChunk.run (w, d)) := by
  obtain ⟨v, hk⟩ := h.records.keeps
  have hcases := flushChunk_cases hk h.opened
  generalize flushChunk.run (w, d) = res at hcases ⊢
  cases hcases with
  | done hp ht hb hk' hbuf =>
    refine .done ⟨⟨hp.trans h.file, h.opened, h.records.flushed hk', h.heard.change fun _ => hb⟩, ?_,
      h.file ▸ ht⟩ hb ⟨hbuf, rfl, rfl⟩
    rw [List.append_assoc]
    exact List.prefix_append _ _
  | refusedDict hne hb he =>
    have hnot : ¬ Ready w := fun hr => hb (ready_iff.mp hr).1
    exact .refused h.kept hnot hnot
  | @refusedEvents e f d' v' seq hp ht hbd hne hb he hk' =>
    have hnot : ¬ Ready w := fun hr => hb (ready_iff.mp hr).2
    have hnot' : ¬ Ready (w.halfFlushed f seq) := fun hr => hb (ready_iff.mp hr).2
    exact .refused ⟨⟨hp.trans h.file, h.opened, h.records.halfFlushed hk',
      h.heard.change fun hr => absurd hr hnot'⟩, List.prefix_append _ _, h.file ▸ ht⟩ hnot hnot'
  | @stopped a w' d' cs ha hp ht hrel hseq hcs hc =>
    by_cases hp : a = .panic
    · rw [hp]
      exact .overflow
    · exact absurd hd (hrel hp)

/-- a name or an event was taken, and nothing was written -/
theorem Recording.grow {acked' : List EventRecord} {names' : List DictEntry} {r' : Record}
    (h : Recording hdr path n acked names bs w d r) (hn : n + 1 < 2^32) (hu : Unflushed w w')
    (hr : Records hdr bs w' d r'.entries r'.events) (hacked : acked'.Sublist r'.events)
    (hnames : names' ⊆ r'.entries) (hready : r.events = acked → r'.events = acked')
    (hitems : r'.entries.length + r'.events.length ≤ n + 1)
    (hfields : ∀ ev ∈ r'.events, ev.payload.fields.length = 1) :
    Recording hdr path (n + 1) acked' names' bs w' d r' where
  file := by rw [hu.file, h.file]
  opened := hu.finished.trans h.opened
  records := hr
  heard := by
    refine ⟨hacked, hnames, fun hw' => hready (h.heard.ready ?_), hitems, hfields⟩
    -- the items that are pending now are those that were pending, and one more at most
    have hlen : items bs + (w'.pendingDict.length + w'.pendingEvents.length)
        = r'.entries.length + r'.events.length := by
      rw [← hr.entries, ← hr.events, List.length_append, List.length_append, items]
      omega
    refine ready_of_grown ⟨⟨?_, fun ev hev => (by cases hev)⟩, ⟨?_, fun ev hev => hfields ev ?_⟩⟩
      hu.pendingDict hu.pendingEvents hw'
    · show w'.pendingDict.length < 2^32
      omega
    · show w'.pendingEvents.length < 2^32
      omega
    · rw [← hr.events]
      exact List.mem_append_right _ hev

/-- what `intern` may end with -/
inductive Naming (hdr : Bytes) (path : String) (n : Nat) (acked : List EventRecord)
    (names : List DictEntry) (bs : List Batch) (d : Disk) (kind : DictKind) (name : String) :
    EStateM.Result (Abort Error) (SessionWriter × Disk) UInt32 → Prop
  | named {id w' r'} (h : Recording hdr path (n + 1) acked (names ++ [⟨kind, id, name⟩]) bs w' d r') :
      Naming hdr path n acked names bs d kind name (.ok id (w', d))
  | refused {e w' r'} (h : Recording hdr path (n + 1) acked names bs w' d r') :
      Naming hdr path n acked names bs d kind name (.error (.error e) (w', d))
  | overflow {s} : Naming hdr path n acked names bs d kind name (.error .panic s)

theorem mem_addEntry (es : List DictEntry) (e : DictEntry) : e ∈ addEntry es e := by
  unfold addEntry
  split
  · assumption
  · exact List.mem_append_right _ (List.mem_singleton_self e)

theorem subset_addEntry (es : List DictEntry) (e : DictEntry) : es ⊆ addEntry es e := by
  unfold addEntry
  split
  · exact List.Subset.refl es
  · exact List.subset_append_left es [e]

theorem addEntry_length (es : List DictEntry) (e : DictEntry) :
    (addEntry es e).length ≤ es.length + 1 := by
  unfold addEntry
  split
  · exact Nat.le_succ _
  · rw [List.length_append, List.length_singleton]

theorem Recording.intern (h : Recording hdr path n acked names bs w d r) (hn : n + 1 < 2^32)
    (kind : DictKind) (name : String) :
    Naming hdr path n acked names bs d kind name ((SessionWriter.intern kind name).run (w, d)) := by
  have hcases := intern_interns h.records h.opened kind name
  have hitems := h.heard.items
  generalize (SessionWriter.intern kind name).run (w, d) = res at hcases ⊢
  cases hcases with
  | @ok id w' hr hu =>
    have hlen := addEntry_length r.entries ⟨kind, id, name⟩
    have hr' : Records hdr bs w' d (Record.mk (addEntry r.entries ⟨kind, id, name⟩) r.events).entries
        (Record.mk (addEntry r.entries ⟨kind, id, name⟩) r.events).events := hr
    refine .named (h.grow hn hu hr' h.heard.told ?_ (fun he => he) (by dsimp only; omega)
      h.heard.fields)
    intro e he
    rcases List.mem_append.mp he with he | he
    · exact subset_addEntry _ _ (h.heard.named he)
    · rw [List.mem_singleton.mp he]
      exact mem_addEntry _ _
  | refused he hr hu =>
    exact .refused (h.grow hn hu hr h.heard.told h.heard.named (fun he => he) (by omega) h.heard.fields)
  | overflow => exact .overflow

/-- what `append_event` may end with, and the flush that may follow it -/
inductive Appending (hdr : Bytes) (path : String) (n : Nat) (acked : List EventRecord)
    (names : List DictEntry) (bs : List Batch) (w : SessionWriter) (d : Disk) (ev : AppendEvent)
    (flushEvery : Bool) : EStateM.Result (Abort Error) (SessionWriter × Disk) UInt64 → Prop
  | taken {seq w' d' bs' r'}
      (hk : Kept hdr path (n + 1) (acked ++ [ev.record seq]) names bs d w' d' bs' r')
      (hs : Ready (w.pushed ev) → Ready w' ∧ (flushEvery = true → Synced w')) :
      Appending hdr path n acked names bs w d ev flushEvery (.ok seq (w', d'))
  | refused {e w' d' bs' r'} (hk : Kept hdr path (n + 1) acked names bs d w' d' bs' r')
      (hr : Ready (w.pushed ev) → e.isRef = true ∧ w' = w) :
      Appending hdr path n acked names bs w d ev flushEvery (.error (.error e) (w', d'))
  | overflow {s} : Appending hdr path n acked names bs w d ev flushEvery (.error .panic s)

/-- the writer with the event pending -/
theorem Recording.pushed (h : Recording hdr path n acked names bs w d r) (hn : n + 1 < 2^32)
    {ev : AppendEvent} (hev : ev.payload.fields.length = 1) (hr : Resolves w.dictionary ev.refs)
    (hseq : w.nextEventSeq.toNat + 1 < 2^64) :
    Recording hdr path (n + 1) (acked ++ [ev.record w.nextEventSeq]) names bs (w.pushed ev) d
      ⟨r.entries, r.events ++ [ev.record w.nextEventSeq]⟩ := by
  obtain ⟨v, hk⟩ := h.records.keeps
  have hitems := h.heard.items
  have hrec : Records hdr bs (w.pushed ev) d
      (Record.mk r.entries (r.events ++ [ev.record w.nextEventSeq])).entries
      (Record.mk r.entries (r.events ++ [ev.record w.nextEventSeq])).events := by
    refine ⟨⟨v, hk.pushed hr hseq⟩, h.records.entries, ?_⟩
    show _ ++ (w.pendingEvents ++ [_]) = _ ++ _
    rw [← List.append_assoc, h.records.events]
  refine h.grow hn ⟨rfl, rfl, List.prefix_refl _, List.prefix_append _ _⟩ hrec
    (h.heard.told.append (List.Sublist.refl _)) h.heard.named (fun he => ?_) ?_ fun ev' hev' => ?_
  · show r.events ++ _ = _
    rw [he]
  · show r.entries.length + (r.events ++ [_]).length ≤ n + 1
    rw [List.length_append, List.length_singleton]
    omega
  · rcases List.mem_append.mp hev' with hev' | hev'
    · exact h.heard.fields ev' hev'
    · rw [List.mem_singleton.mp hev']
      exact hev

/-- an event that was not acknowledged, in a writer that can no longer write -/
theorem Kept.unheard {more : List EventRecord} {bs' : List Batch} {r' : Record}
    (h : Kept hdr path n (acked ++ more) names bs d w' d' bs' r') (hw : ¬ Ready w') :
    Kept hdr path n acked names bs d w' d' bs' r' :=
  ⟨⟨h.recording.file, h.recording.opened, h.recording.records, h.recording.heard.unheard hw⟩,
    h.grows, h.touches⟩

theorem Kept.trans {acked' : List EventRecord} {names' : List DictEntry} {n' : Nat}
    {d'' : Disk} {w'' : SessionWriter} {bs' bs'' : List Batch} {r' r'' : Record}
    (h : Kept hdr path n acked names bs d w' d' bs' r')
    (h' : Kept hdr path n' acked' names' bs' d' w'' d'' bs'' r'') :
    Kept hdr path n' acked' names' bs d w'' d'' bs'' r'' :=
  ⟨h'.recording, h.grows.trans h'.grows, h.touches.trans h'.touches⟩

theorem logged_ok {p : WriterM Unit} {s s' : SessionWriter × Disk} (h : p.run s = .ok () s') :
    (logged p).run s = .ok () s' := by
  simp only [logged, EStateM.run] at h ⊢
  rw [h]

theorem logged_error {p : WriterM Unit} {s s' : SessionWriter × Disk} {e : Error}
    (h : p.run s = .error (.error e) s') : (logged p).run s = .ok () s' := by
  simp only [logged, EStateM.run] at h ⊢
  rw [h]

theorem logged_panic {p : WriterM Unit} {s s' : SessionWriter × Disk}
    (h : p.run s = .error .panic s') : (logged p).run s = .error .panic s' := by
  simp only [logged, EStateM.run] at h ⊢
  rw [h]

theorem ready_of_synced (h : Synced w) : Ready w := by
  have hd : Batch.Within (.dict w.pendingDict) := by
    rw [h.pendingDict]
    decide
  have he : Batch.Within (.events w.pendingEvents) := by
    rw [h.pendingEvents]
    decide
  exact ready_iff.mpr ⟨hd.committable, he.committable⟩

theorem Recording.appendEvent (h : Recording hdr path n acked names bs w d r) (hn : n + 1 < 2^32)
    (hd : d.Reliable) {ev : AppendEvent} (hev : ev.payload.fields.length = 1) :
    Appending hdr path n acked names bs w d ev false ((SessionWriter.appendEvent ev).run (w, d)) := by
  rw [appendEvent_run h.opened]
  cases hreq : requireRefs w.dictionary ev.domainId ev.categoryId ev.eventNameId ev.correlationId
    ev.payload with
  | error e =>
    exact .refused (h.mono (Nat.le_succ n)).kept fun _ => ⟨requireRefs_error hreq, rfl⟩
  | ok u =>
    dsimp only
    by_cases hseq : w.nextEventSeq.toNat + 1 < 2^64
    swap
    · rw [if_neg hseq]
      exact .overflow
    have hp := h.pushed hn hev (requireRefs_ok.mp hreq) hseq
    rw [if_pos hseq]
    split
    · have hf := hp.flush hd
      generalize flushChunk.run (w.pushed ev, d) = res at hf ⊢
      cases hf with
      | done hk hr hs => exact .taken hk fun _ => ⟨ready_of_synced hs, fun _ => hs⟩
      | refused hk hr hr' => exact .refused (hk.unheard hr') fun hr'' => absurd hr'' hr
      | overflow => exact .overflow
    · exact .taken hp.kept fun hr => ⟨hr, fun hf => by cases hf⟩

/-- **`append_event`, and the flush after it**, whose refusal is only logged -/
theorem Recording.append (h : Recording hdr path n acked names bs w d r) (hn : n + 1 < 2^32)
    (hd : d.Reliable) {ev : AppendEvent} (hev : ev.payload.fields.length = 1) (flushEvery : Bool) :
    Appending hdr path n acked names bs w d ev flushEvery
      ((appendFlush flushEvery ev).run (w, d)) := by
  have hcases := h.appendEvent hn hd hev
  rw [appendFlush, EStateM.run_bind]
  generalize (SessionWriter.appendEvent ev).run (w, d) = res at hcases ⊢
  cases hcases with
  | refused hk hr => exact .refused hk hr
  | overflow => exact .overflow
  | @taken seq w₁ d₁ bs₁ r₁ hk hs =>
    dsimp only
    cases flushEvery with
    | false => exact .taken hk hs
    | true =>
      have hf := hk.recording.flush (hk.touches.reliable hd)
      simp only [if_true, EStateM.run_bind]
      cases hres : flushChunk.run (w₁, d₁) with
      | ok u s =>
        rw [hres] at hf
        rw [logged_ok hres]
        cases hf with
        | done hk' hr' hs' => exact .taken (hk.trans hk') fun _ => ⟨ready_of_synced hs', fun _ => hs'⟩
      | error a s =>
        rw [hres] at hf
        cases hf with
        | refused hk' hr hr' =>
          rw [logged_error hres]
          exact .taken (hk.trans hk') fun hready => absurd (hs hready).1 hr
        | overflow =>
          rw [logged_panic hres]
          exact .overflow

/-! ## the end of a session -/

/-- **A session that is over**: its file is a journal of the chunks `bs` -/
structure Closed (hdr : Bytes) (path : String) (bs : List Batch) (d : Disk) : Prop where
  file : d.files path = some (hdr ++ layout 1 bs)
  replayed : ∃ v, replay .empty bs = .ok v
  within : ∀ b ∈ bs, b.Within
  small : bs.length < 2^32

theorem Closed.keep (h : Closed hdr path bs d) (hd : d'.files path = d.files path) :
    Closed hdr path bs d' := ⟨hd.trans h.file, h.replayed, h.within, h.small⟩

/-- the journal is read back whole -/
theorem Closed.read (h : Closed hdr path bs d) {header : FileHeader} (he : header.encode = .ok hdr) :
    ∃ file rd, d.files path = some file ∧ SessionReader.open file = .ok rd ∧ rd.tornTail = false ∧
      Shows bs rd := by
  obtain ⟨v, hv⟩ := h.replayed
  have hsmall := h.small
  have hbound := boundary_le h.within bs.length
  obtain ⟨rd, hr, hshows, htorn⟩ := open_layout_take he hv (fun b hb => (h.within b hb).committable)
    (by omega) (fun b hb => (h.within b hb).payload) (le_refl _) (by omega)
  rw [← layout_length 1 bs, List.take_length] at hr
  rw [wholeChunks_boundary bs _ (le_refl _), List.take_length] at hshows
  refine ⟨_, rd, h.file, hr, ?_, hshows⟩
  rw [← Bool.not_eq_true, htorn, not_not]
  exact ⟨bs.length, le_refl _, rfl⟩

/-- the file of a writer that is dropped on a disk that works -/
theorem closed_dropped {v : View} {f : BufWriter} (hf : f.Holds d (hdr ++ layout 1 bs))
    (hd : d.Reliable) (hp : f.path = path) (hv : replay .empty bs = .ok v)
    (hw : ∀ b ∈ bs, b.Within) (hs : bs.length < 2^32) :
    Closed hdr path bs (f.dropped d) ∧ Disk.Touches path d (f.dropped d) := by
  obtain ⟨file, hfile, -, hall, ht⟩ := BufWriter.dropped_spec hf
  rw [hp] at hfile ht
  rw [hall hd] at hfile
  exact ⟨⟨hfile, ⟨v, hv⟩, hw, hs⟩, ht⟩

theorem Recording.length_lt (h : Recording hdr path n acked names bs w d r) (hn : n < 2^32) :
    bs.length < 2^32 := by
  obtain ⟨v, hk⟩ := h.records.keeps
  have hitems := h.items_eq
  have hle := h.heard.items
  have := length_le_items fun b hb => (hk.batches b hb).2
  omega

theorem Recording.dropped (h : Recording hdr path n acked names bs w d r) (hn : n < 2^32)
    (hd : d.Reliable) :
    Closed hdr path bs (w.dropped d) ∧ Disk.Touches path d (w.dropped d) := by
  obtain ⟨v, hk⟩ := h.records.keeps
  exact closed_dropped hk.holds hd h.file hk.replayed (h.within hn) (h.length_lt hn)

/-- what `finish` may end with, and the drop of the writer after it -/
inductive Finishing (hdr : Bytes) (path : String) (acked : List EventRecord)
    (names : List DictEntry) (bs : List Batch) (d : Disk) :
    EStateM.Result (Abort Error) (SessionWriter × Disk) Unit → Prop
  | done {w' d' bs'} (hc : Closed hdr path bs' (w'.dropped d')) (hg : bs <+: bs')
      (ht : Disk.Touches path d (w'.dropped d')) (hevents : bs'.flatMap Batch.evs = acked)
      (hnames : names ⊆ bs'.flatMap Batch.entries) :
      Finishing hdr path acked names bs d (.ok () (w', d'))
  | refused {e w' d' bs'} (hc : Closed hdr path bs' (w'.dropped d')) (hg : bs <+: bs')
      (ht : Disk.Touches path d (w'.dropped d')) :
      Finishing hdr path acked names bs d (.error (.error e) (w', d'))
  | overflow {s} : Finishing hdr path acked names bs d (.error .panic s)

theorem Recording.finish (h : Recording hdr path n acked names bs w d r) (hn : n < 2^32)
    (hd : d.Reliable) : Finishing hdr path acked names bs d (SessionWriter.finish.run (w, d)) := by
  have hcases := h.flush hd
  rw [finish_run h.opened, EStateM.run_bind]
  generalize flushChunk.run (w, d) = res at hcases ⊢
  cases hcases with
  | overflow => exact .overflow
  | refused hk hr hr' =>
    obtain ⟨hc, ht⟩ := hk.recording.dropped hn (hk.touches.reliable hd)
    exact .refused hc hk.grows (hk.touches.trans ht)
  | @done w₁ d₁ bs₁ hk hr hs =>
    have hd₁ := hk.touches.reliable hd
    obtain ⟨v, hkeeps⟩ := hk.recording.records.keeps
    obtain ⟨f, d₂, hp, ht, hf, ⟨hrun, hbuf⟩ | ⟨m, hrun, hrel⟩⟩ := onFile_flush_holds hkeeps.holds
    · dsimp only
      rw [hrun]
      rw [hk.recording.file] at hp ht
      obtain ⟨hc, htd⟩ := closed_dropped hf (ht.reliable hd₁) hp hkeeps.replayed
        (hk.recording.within hn) (hk.recording.length_lt hn)
      have hes := hk.recording.records.entries
      have hevs := hk.recording.records.events
      rw [hs.pendingDict, List.append_nil] at hes
      rw [hs.pendingEvents, List.append_nil] at hevs
      refine .done hc hk.grows ((hk.touches.trans ht).trans htd) ?_ ?_
      · rw [hevs]
        exact h.heard.ready hr
      · rw [hes]
        exact h.heard.named
    · exact absurd hd₁ hrel

end Dtj.Agent
