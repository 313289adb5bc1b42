import Dtj.Journal.Commit

/-!
# What the calls of a writer do to its record

The names and events that a writer has taken are in the chunks of its file, or pending.

* `Records hdr bs w d es evs`   the writer has taken the entries `es` and the events `evs`;
* `After`                       what a call may leave behind: the same record, or a part of it;
* `intern_interns`, `intern_record`, `appendEvent_record`, `flushChunk_record`, `finish_record`
  the calls.
-/

namespace Dtj
open Wire Checked SessionWriter

/-- an event, as it is stored -/
def AppendEvent.record (ev : AppendEvent) (seq : UInt64) : EventRecord :=
  ⟨ev.monotonicNs, seq, ev.domainId, ev.categoryId, ev.eventNameId, ev.correlationId, ev.severity,
    ev.payload⟩

def AppendEvent.refs (ev : AppendEvent) : List (DictKind × UInt32) :=
  refsOf ev.domainId ev.categoryId ev.eventNameId ev.correlationId ev.payload

/-- the writer with one more event pending -/
def SessionWriter.pushed (w : SessionWriter) (ev : AppendEvent) : SessionWriter :=
  { w with
    nextEventSeq := w.nextEventSeq + 1
    pendingEvents := w.pendingEvents ++ [ev.record w.nextEventSeq] }

/-- the writer with another dictionary -/
def SessionWriter.counted (w : SessionWriter) (dict : Dictionary) : SessionWriter :=
  { w with dictionary := dict }

/-- the writer with one more name pending -/
def SessionWriter.named (w : SessionWriter) (dict : Dictionary) (e : DictEntry) : SessionWriter :=
  { w with dictionary := dict, pendingDict := w.pendingDict ++ [e] }

variable {hdr : Bytes} {bs : List Batch} {v : View} {w : SessionWriter} {d : Disk}
  {es : List DictEntry} {evs : List EventRecord}

/-! ## the calls, run -/

theorem intern_run (ho : w.finished = false) (kind : DictKind) (name : String) :
    (intern kind name).run (w, d) = match (Dictionary.intern kind name).run w.dictionary with
      | .ok (id, true) dict => .ok id (w.named dict ⟨kind, id, name⟩, d)
      | .ok (id, false) dict => .ok id (w.counted dict, d)
      | .error a dict => .error a (w.counted dict, d) := by
  rw [intern, EStateM.run_bind, ensureOpen_run ho]
  simp only [EStateM.run_bind, onDictionary_run]
  cases (Dictionary.intern kind name).run w.dictionary with
  | error a dict => rfl
  | ok x dict =>
    obtain ⟨id, newly⟩ := x
    cases newly <;> rfl

theorem appendEvent_run (ho : w.finished = false) (ev : AppendEvent) :
    (appendEvent ev).run (w, d) =
      match requireRefs w.dictionary ev.domainId ev.categoryId ev.eventNameId ev.correlationId
        ev.payload with
      | .error e => .error (.error e) (w, d)
      | .ok _ =>
        if w.nextEventSeq.toNat + 1 < 2^64 then
          if UInt32.ofNat (w.pendingEvents.length + 1) ≥ maxEventsPerChunk then
            mapResult (fun _ => w.nextEventSeq) (flushChunk.run (w.pushed ev, d))
          else .ok w.nextEventSeq (w.pushed ev, d)
        else .error .panic (w, d) := by
  rw [appendEvent, EStateM.run_bind, ensureOpen_run ho]
  simp only [EStateM.run_bind, EStateM.run_get]
  cases requireRefs w.dictionary ev.domainId ev.categoryId ev.eventNameId ev.correlationId
    ev.payload with
  | error e => rfl
  | ok u =>
    simp only [lift_ok, Prog.of_ok]
    by_cases hseq : w.nextEventSeq.toNat + 1 < 2^64
    · have hincr : (incr64 w.nextEventSeq : Res Error UInt64) = .ok (w.nextEventSeq + 1) :=
        incr64_eq hseq
      simp only [hincr, Prog.of_ok, update_run, if_pos hseq, run_ite]
      split
      · unfold SessionWriter.pushed AppendEvent.record
        rw [EStateM.run_bind]
        cases flushChunk.run _ <;> rfl
      · rfl
    · have hincr : (incr64 w.nextEventSeq : Res Error UInt64) = crash := if_neg hseq
      simp only [hincr, Prog.of_crash, if_neg hseq]

theorem finish_run (ho : w.finished = false) : finish.run (w, d) =
    match (flushChunk >>= fun _ => onFile BufWriter.flush).run (w, d) with
    | .error a s => .error a s
    | .ok _ (w', d') => .ok () ({ w' with finished := true }, d') := by
  rw [finish, EStateM.run_bind]
  simp only [EStateM.run_get, ho, Bool.false_eq_true, if_false, EStateM.run_bind]
  cases flushChunk.run (w, d) with
  | error a s => rfl
  | ok u s =>
    simp only
    cases (onFile BufWriter.flush).run s <;> rfl

/-! ## the invariant after a call -/

theorem Keeps.pushed (h : Keeps hdr bs v w d) {ev : AppendEvent} (hr : Resolves w.dictionary ev.refs)
    (hseq : w.nextEventSeq.toNat + 1 < 2^64) : Keeps hdr bs v (w.pushed ev) d where
  holds := h.holds
  replayed := h.replayed
  batches := h.batches
  chunkSeq := h.chunkSeq
  eventSeq := by
    have hincr : (incr64 w.nextEventSeq : Res Error UInt64) = .ok (w.nextEventSeq + 1) :=
      incr64_eq hseq
    show (w.nextEventSeq + 1).toNat = v.events.length + (w.pendingEvents ++ [_]).length + 1
    rw [incr64_ok hincr, h.eventSeq, List.length_append, List.length_singleton]
    omega
  names := h.names
  numbered := by
    refine numbered_append.mpr ⟨h.numbered, numbered_cons.mpr ⟨?_, numbered_nil _⟩⟩
    show w.nextEventSeq.toNat = _
    rw [h.eventSeq]
    omega
  refs ev' hev' := by
    rcases List.mem_append.mp hev' with e | e
    · exact h.refs ev' e
    · rw [List.mem_singleton.mp e]
      exact hr

theorem Keeps.counted (h : Keeps hdr bs v w d) {dict : Dictionary}
    (hs : Dictionary.SameNames w.dictionary dict) : Keeps hdr bs v (w.counted dict) d where
  holds := h.holds
  replayed := h.replayed
  batches := h.batches
  chunkSeq := h.chunkSeq
  eventSeq := h.eventSeq
  names := by
    obtain ⟨dict', hd, hs'⟩ := h.names
    exact ⟨dict', hd, hs'.trans hs⟩
  numbered := h.numbered
  refs ev hev := (h.refs ev hev).mono fun hn => (hs.getName _ _).trans hn

theorem Keeps.named (h : Keeps hdr bs v w d) {kind : DictKind} {e : DictEntry} {dict : Dictionary}
    (hi : (w.dictionary.counted kind).insert e = .ok dict) :
    Keeps hdr bs v (w.named dict e) d where
  holds := h.holds
  replayed := h.replayed
  batches := h.batches
  chunkSeq := h.chunkSeq
  eventSeq := h.eventSeq
  names := by
    obtain ⟨dict', hd, hs⟩ := h.names
    have hs' := (hs.trans (Dictionary.counted_same w.dictionary kind)).symm
    obtain ⟨dict₁, hi₁, hs₁⟩ := hs'.insert hi
    refine ⟨dict₁, ?_, hs₁.symm⟩
    show v.dictionary.insertAll (w.pendingDict ++ [e]) = _
    rw [Dictionary.insertAll_append, hd]
    simp only [Dictionary.insertAll, hi₁]
  numbered := h.numbered
  refs ev hev := (h.refs ev hev).mono fun hn => Dictionary.insert_mono hi hn

/-! ## the record -/

/-- **The writer has taken the entries `es` and the events `evs`**: those of the chunks in its
file, and then the pending ones -/
structure Records (hdr : Bytes) (bs : List Batch) (w : SessionWriter) (d : Disk)
    (es : List DictEntry) (evs : List EventRecord) : Prop where
  keeps : ∃ v, Keeps hdr bs v w d
  entries : bs.flatMap Batch.entries ++ w.pendingDict = es
  events : bs.flatMap Batch.evs ++ w.pendingEvents = evs

/-- the entries of a record are those of the dictionary -/
theorem Records.getName (h : Records hdr bs w d es evs) {kind : DictKind} {id : UInt32}
    {name : String} : w.dictionary.getName kind id = some name ↔ ⟨kind, id, name⟩ ∈ es := by
  obtain ⟨v, hk⟩ := h.keeps
  obtain ⟨dict, hd, hs⟩ := hk.names
  have hall : Dictionary.new.insertAll es = .ok dict := by
    rw [← h.entries, Dictionary.insertAll_append, show Dictionary.new.insertAll _ = _ from
      (replay_ok hk.replayed).1]
    exact hd
  rw [hs.getName]
  constructor
  · intro hn
    exact (Dictionary.insertAll_getName hall hn).resolve_left (by simp)
  · exact fun hn => Dictionary.insertAll_mem hall hn

/-- what a call may leave behind, for a writer that has taken `es` and `evs` by its end; `bs` are
the chunks that are to be in its file if the call succeeds -/
inductive After {α : Type} (hdr : Bytes) (bs : List Batch) (w : SessionWriter) (d : Disk)
    (es : List DictEntry) (evs : List EventRecord) :
    EStateM.Result (Abort Error) (SessionWriter × Disk) α → Prop
  | ok {a w' d'} (hr : Records hdr bs w' d' es evs) (hp : w'.file.path = w.file.path)
      (ht : Disk.Touches w.file.path d d') : After hdr bs w d es evs (.ok a (w', d'))
  | refused {e w' d' bs'} (he : e.isIo = false) (hr : Records hdr bs' w' d' es evs)
      (hp : w'.file.path = w.file.path) (ht : Disk.Touches w.file.path d d') :
      After hdr bs w d es evs (.error (.error e) (w', d'))
  | stopped {a w' d' bs'} (ha : stops a) (hc : Cut hdr bs' w' d')
      (hes : bs'.flatMap Batch.entries <+: es) (hevs : bs'.flatMap Batch.evs <+: evs)
      (hp : w'.file.path = w.file.path) (ht : Disk.Touches w.file.path d d')
      (hrel : a ≠ .panic → ¬ d.Reliable) : After hdr bs w d es evs (.error a (w', d'))

theorem flatMap_dictBatch (w : SessionWriter) :
    (dictBatch w).flatMap Batch.entries = w.pendingDict ∧ (dictBatch w).flatMap Batch.evs = [] := by
  unfold dictBatch
  split
  · rename_i h
    exact ⟨h.symm, rfl⟩
  · exact ⟨List.append_nil _, rfl⟩

theorem flatMap_eventBatch (w : SessionWriter) :
    (eventBatch w).flatMap Batch.entries = [] ∧
      (eventBatch w).flatMap Batch.evs = w.pendingEvents := by
  unfold eventBatch
  split
  · rename_i h
    exact ⟨rfl, h.symm⟩
  · exact ⟨rfl, List.append_nil _⟩

/-- the batches of a flush hold the pending items, in their order -/
theorem flatMap_batches (w : SessionWriter) :
    (dictBatch w ++ eventBatch w).flatMap Batch.entries = w.pendingDict ∧
      (dictBatch w ++ eventBatch w).flatMap Batch.evs = w.pendingEvents := by
  rw [List.flatMap_append, List.flatMap_append, (flatMap_dictBatch w).1, (flatMap_dictBatch w).2,
    (flatMap_eventBatch w).1, (flatMap_eventBatch w).2, List.append_nil, List.nil_append]
  exact ⟨rfl, rfl⟩

theorem flatMap_mono {α β : Type} (f : α → List β) {xs ys : List α} (h : xs <+: ys) :
    xs.flatMap f <+: ys.flatMap f := by
  obtain ⟨zs, rfl⟩ := h
  rw [List.flatMap_append]
  exact List.prefix_append _ _

theorem Error.isIo_of_isLimit {e : Error} (h : e.isLimit = true) : e.isIo = false := by
  cases e with
  | io m => cases h
  | _ => rfl

/-- the record after a flush that succeeded -/
theorem Records.flushed (h : Records hdr bs w d es evs) {f : BufWriter} {seq : UInt64} {d' : Disk}
    {v' : View} (hk : Keeps hdr (bs ++ dictBatch w ++ eventBatch w) v' (w.flushed f seq) d') :
    Records hdr (bs ++ dictBatch w ++ eventBatch w) (w.flushed f seq) d' es evs := by
  refine ⟨⟨_, hk⟩, ?_, ?_⟩
  · show _ ++ [] = _
    rw [List.append_assoc, List.append_nil, List.flatMap_append, (flatMap_batches w).1]
    exact h.entries
  · show _ ++ [] = _
    rw [List.append_assoc, List.append_nil, List.flatMap_append, (flatMap_batches w).2]
    exact h.events

/-- the record after a flush that was refused its events -/
theorem Records.halfFlushed (h : Records hdr bs w d es evs) {f : BufWriter} {seq : UInt64}
    {d' : Disk} {v' : View} (hk : Keeps hdr (bs ++ dictBatch w) v' (w.halfFlushed f seq) d') :
    Records hdr (bs ++ dictBatch w) (w.halfFlushed f seq) d' es evs := by
  refine ⟨⟨_, hk⟩, ?_, ?_⟩
  · show _ ++ [] = _
    rw [List.append_nil, List.flatMap_append, (flatMap_dictBatch w).1]
    exact h.entries
  · show _ ++ w.pendingEvents = _
    rw [List.flatMap_append, (flatMap_dictBatch w).2, List.append_nil]
    exact h.events

theorem Flushed.record (h : Records hdr bs w d es evs)
    {r : EStateM.Result (Abort Error) (SessionWriter × Disk) Unit} (hf : Flushed hdr bs w d r) :
    After hdr (bs ++ dictBatch w ++ eventBatch w) w d es evs r := by
  cases hf with
  | done hp ht hb hk hbuf => exact .ok (h.flushed hk) hp ht
  | refusedDict hne hb he => exact .refused (Error.isIo_of_isLimit he) h rfl (.refl _ _)
  | refusedEvents hp ht hd hne hb he hk =>
    exact .refused (Error.isIo_of_isLimit he) (h.halfFlushed hk) hp ht
  | stopped ha hp ht hrel hseq hcs hc =>
    refine .stopped ha hc ?_ ?_ hp ht hrel
    · rw [← h.entries, List.flatMap_append, ← (flatMap_batches w).1]
      exact (List.prefix_append_right_inj _).mpr (flatMap_mono _ hcs)
    · rw [← h.events, List.flatMap_append, ← (flatMap_batches w).2]
      exact (List.prefix_append_right_inj _).mpr (flatMap_mono _ hcs)

/-! ## the calls -/

theorem flushChunk_record (h : Records hdr bs w d es evs) (ho : w.finished = false) :
    After hdr (bs ++ dictBatch w ++ eventBatch w) w d es evs (flushChunk.run (w, d)) := by
  obtain ⟨v, hk⟩ := h.keeps
  exact (flushChunk_cases hk ho).record h

/-- one more name, unless it is there -/
def addEntry (es : List DictEntry) (e : DictEntry) : List DictEntry :=
  if e ∈ es then es else es ++ [e]

theorem Dictionary.insert_error {dict : Dictionary} {e : DictEntry} {err : Error}
    (h : dict.insert e = .error err) : err.isIo = false := by
  unfold Dictionary.insert at h
  split at h
  · cases h; rfl
  split at h
  · cases h; rfl
  split at h
  · cases h; rfl
  · cases h

/-- a call that fails and leaves the record as it was -/
theorem Records.after_error (h : Records hdr bs w d es evs) {α : Type} {cs : List Batch}
    {a : Abort Error} (ha : a ≠ .diverge) (hio : ∀ e, a = .error e → e.isIo = false) :
    After hdr cs w d es evs (.error a (w, d) : EStateM.Result _ _ α) := by
  obtain ⟨v, hk⟩ := h.keeps
  cases a with
  | error e => exact .refused (hio e rfl) h rfl (.refl _ _)
  | panic =>
    refine .stopped rfl hk.cut ?_ ?_ rfl (.refl _ _) fun hne => absurd rfl hne
    · rw [← h.entries]
      exact List.prefix_append _ _
    · rw [← h.events]
      exact List.prefix_append _ _
  | diverge => exact absurd rfl ha

/-- the writer after a call that is not a flush -/
structure Unflushed (w w' : SessionWriter) : Prop where
  file : w'.file = w.file
  finished : w'.finished = w.finished
  pendingDict : w.pendingDict <+: w'.pendingDict
  pendingEvents : w.pendingEvents <+: w'.pendingEvents

/-- what a call of `intern` does to a record -/
inductive Interns (hdr : Bytes) (bs : List Batch) (w : SessionWriter) (d : Disk)
    (es : List DictEntry) (evs : List EventRecord) (kind : DictKind) (name : String) :
    EStateM.Result (Abort Error) (SessionWriter × Disk) UInt32 → Prop
  | ok {id w'} (hr : Records hdr bs w' d (addEntry es ⟨kind, id, name⟩) evs) (hu : Unflushed w w') :
      Interns hdr bs w d es evs kind name (.ok id (w', d))
  | refused {e w'} (he : e.isIo = false) (hr : Records hdr bs w' d es evs) (hu : Unflushed w w') :
      Interns hdr bs w d es evs kind name (.error (.error e) (w', d))
  | overflow : Interns hdr bs w d es evs kind name (.error .panic (w, d))

theorem Unflushed.refl (w : SessionWriter) : Unflushed w w :=
  ⟨rfl, rfl, List.prefix_refl _, List.prefix_refl _⟩

/-- **`intern` adds the name that it answers for, once** -/
theorem intern_interns (h : Records hdr bs w d es evs) (ho : w.finished = false) (kind : DictKind)
    (name : String) : Interns hdr bs w d es evs kind name ((intern kind name).run (w, d)) := by
  obtain ⟨v, hk⟩ := h.keeps
  have hcases := Dictionary.intern_cases w.dictionary kind name
  rw [intern_run ho]
  generalize (Dictionary.intern kind name).run w.dictionary = r at hcases ⊢
  cases hcases with
  | @old id hid =>
    have hmem := h.getName.mp (hk.sound.idOf_getName hid)
    refine .ok ?_ (.refl w)
    rw [addEntry, if_pos hmem]
    exact h
  | @new id dict hid hi hmax hd =>
    have hnot : ⟨kind, id, name⟩ ∉ es := by
      intro hmem
      have hnone := (Dictionary.insert_ok.mp hd).2.2.1
      rw [(Dictionary.counted_same _ _).getName, h.getName.mpr hmem] at hnone
      cases hnone
    refine .ok ⟨⟨v, hk.named hd⟩, ?_, h.events⟩ ⟨rfl, rfl, List.prefix_append _ _, List.prefix_refl _⟩
    rw [addEntry, if_neg hnot]
    show _ ++ (w.pendingDict ++ [_]) = _
    rw [← List.append_assoc, h.entries]
  | long hlen => exact .refused rfl h (.refl w)
  | refused hmax herr =>
    have hk' := hk.counted (Dictionary.counted_same w.dictionary kind)
    exact .refused (Dictionary.insert_error herr) ⟨⟨v, hk'⟩, h.entries, h.events⟩
      ⟨rfl, rfl, List.prefix_refl _, List.prefix_refl _⟩
  | overflow hmax => exact .overflow

theorem intern_record (h : Records hdr bs w d es evs) (ho : w.finished = false) (kind : DictKind)
    (name : String) :
    (∃ id s, (intern kind name).run (w, d) = .ok id s ∧
      After hdr bs w d (addEntry es ⟨kind, id, name⟩) evs ((intern kind name).run (w, d))) ∨
    ∃ a s, (intern kind name).run (w, d) = .error a s ∧
      After hdr bs w d es evs ((intern kind name).run (w, d)) := by
  have hcases := intern_interns h ho kind name
  generalize (intern kind name).run (w, d) = r at hcases ⊢
  cases hcases with
  | ok hr hu => exact .inl ⟨_, _, rfl, .ok hr (by rw [hu.file]) (.refl _ _)⟩
  | refused he hr hu => exact .inr ⟨_, _, rfl, .refused he hr (by rw [hu.file]) (.refl _ _)⟩
  | overflow =>
    exact .inr ⟨_, _, rfl, h.after_error (fun e => by cases e) fun e he => by cases he⟩

theorem Error.isRef_of_isLimit {e : Error} (h : e.isLimit = true) : e.isRef = false := by
  cases e with
  | unknownDictionaryId kind id => cases h
  | sessionClosed => cases h
  | _ => rfl

theorem Error.isIo_of_isRef {e : Error} (h : e.isRef = true) : e.isIo = false := by
  cases e with
  | io m => cases h
  | _ => rfl

/-- how many events were taken, by the next number -/
theorem Records.nextEventSeq (h : Records hdr bs w d es evs) :
    w.nextEventSeq = UInt64.ofNat (evs.length + 1) := by
  obtain ⟨v, hk⟩ := h.keeps
  have hev : v.events = bs.flatMap Batch.evs := (replay_ok hk.replayed).2.1
  rw [← h.events, List.length_append, ← hev, ← hk.eventSeq, UInt64.ofNat_toNat]

/-- a result that is handed on with another value -/
theorem After.map {α β : Type} {r : EStateM.Result (Abort Error) (SessionWriter × Disk) α}
    {w₁ : SessionWriter} (h : After hdr bs w₁ d es evs r) (hp : w₁.file.path = w.file.path)
    (f : α → β) : After hdr bs w d es evs (mapResult f r) := by
  cases h with
  | ok hr hp' ht => exact .ok hr (hp'.trans hp) (hp ▸ ht)
  | refused he hr hp' ht => exact .refused he hr (hp'.trans hp) (hp ▸ ht)
  | stopped ha hc hes hevs hp' ht hrel => exact .stopped ha hc hes hevs (hp'.trans hp) (hp ▸ ht) hrel

/-- the batches that `append_event` writes: all that is pending, when the buffer is full -/
def appendBatches (w : SessionWriter) (ev : AppendEvent) : List Batch :=
  if UInt32.ofNat (w.pendingEvents.length + 1) ≥ maxEventsPerChunk then
    dictBatch (w.pushed ev) ++ eventBatch (w.pushed ev)
  else []

/-- one more pending event -/
theorem Records.pushed (h : Records hdr bs w d es evs) {ev : AppendEvent}
    (hr : Resolves w.dictionary ev.refs) (hseq : w.nextEventSeq.toNat + 1 < 2^64) :
    Records hdr bs (w.pushed ev) d es (evs ++ [ev.record (UInt64.ofNat (evs.length + 1))]) := by
  obtain ⟨v, hk⟩ := h.keeps
  refine ⟨⟨v, hk.pushed hr hseq⟩, h.entries, ?_⟩
  show _ ++ (w.pendingEvents ++ [_]) = _
  rw [← List.append_assoc, h.events, h.nextEventSeq]

/-- **`append_event` refuses an event for its references, or takes it with the next number**,
also when the flush of a full buffer fails -/
theorem appendEvent_record (h : Records hdr bs w d es evs) (ho : w.finished = false)
    (ev : AppendEvent) :
    (∃ e, e.isRef = true ∧ (appendEvent ev).run (w, d) = .error (.error e) (w, d)) ∨
    (appendEvent ev).run (w, d) = .error .panic (w, d) ∨
    (After hdr (bs ++ appendBatches w ev) w d es
        (evs ++ [ev.record (UInt64.ofNat (evs.length + 1))]) ((appendEvent ev).run (w, d)) ∧
      (∀ a s, (appendEvent ev).run (w, d) = .ok a s → a = UInt64.ofNat (evs.length + 1)) ∧
      ∀ e s, (appendEvent ev).run (w, d) = .error (.error e) s → e.isRef = false) := by
  obtain ⟨v, hk⟩ := h.keeps
  rw [appendEvent_run ho]
  cases hreq : requireRefs w.dictionary ev.domainId ev.categoryId ev.eventNameId ev.correlationId
    ev.payload with
  | error e => exact .inl ⟨e, requireRefs_error hreq, rfl⟩
  | ok u =>
    dsimp only
    by_cases hseq : w.nextEventSeq.toNat + 1 < 2^64
    swap
    · exact .inr (.inl (if_neg hseq))
    refine .inr (.inr ?_)
    rw [if_pos hseq]
    have hk₁ := hk.pushed (requireRefs_ok.mp hreq) hseq
    have h₁ := h.pushed (requireRefs_ok.mp hreq) hseq
    have hpath : (w.pushed ev).file.path = w.file.path := rfl
    have hcases := flushChunk_cases hk₁ ho
    unfold appendBatches
    split
    · have hflush := (flushChunk_record h₁ ho).map hpath fun _ => w.nextEventSeq
      rw [List.append_assoc] at hflush
      refine ⟨hflush, ?_, ?_⟩
      · intro a s hs
        cases hr : flushChunk.run (w.pushed ev, d) with
        | ok u' s' =>
          rw [hr] at hs
          cases hs
          exact h.nextEventSeq
        | error a' s' => rw [hr] at hs; cases hs
      · intro e s hs
        cases hr : flushChunk.run (w.pushed ev, d) with
        | ok u' s' => rw [hr] at hs; cases hs
        | error a' s' =>
          rw [hr] at hs hcases
          cases hs
          cases hcases with
          | refusedDict hne hb he => exact Error.isRef_of_isLimit he
          | refusedEvents hp ht hd hne hb he hk => exact Error.isRef_of_isLimit he
          | stopped ha hp ht hrel hseq hcs hc =>
            cases e with
            | unknownDictionaryId kind id => cases ha
            | sessionClosed => cases ha
            | _ => rfl
    · rw [List.append_nil]
      refine ⟨.ok h₁ rfl (.refl _ _), ?_, ?_⟩
      · intro a s hs
        cases hs
        exact h.nextEventSeq
      · intro e s hs
        cases hs

/-- the flush of a file changes nothing of the record -/
theorem onFile_flush_record (h : Records hdr bs w d es evs) :
    After hdr bs w d es evs ((onFile BufWriter.flush).run (w, d)) := by
  obtain ⟨v, hk⟩ := h.keeps
  obtain ⟨f, d', hp, ht, hf, ⟨hrun, _⟩ | ⟨m, hrun, hrel⟩⟩ := onFile_flush_holds hk.holds
  · rw [hrun]
    have hk' : Keeps hdr bs v { w with file := f } d' :=
      ⟨hf, hk.replayed, hk.batches, hk.chunkSeq, hk.eventSeq, hk.names, hk.numbered, hk.refs⟩
    exact .ok ⟨⟨v, hk'⟩, h.entries, h.events⟩ hp ht
  · rw [hrun]
    have hcut := hk.cut
    refine .stopped rfl ⟨⟨_, hf, List.prefix_refl _⟩, hcut.replayed, hcut.batches, hcut.small⟩
      ?_ ?_ hp ht fun _ => hrel
    · rw [← h.entries]
      exact List.prefix_append _ _
    · rw [← h.events]
      exact List.prefix_append _ _

theorem finish_record (h : Records hdr bs w d es evs) (ho : w.finished = false) :
    After hdr (bs ++ dictBatch w ++ eventBatch w) w d es evs (finish.run (w, d)) := by
  rw [finish_run ho, EStateM.run_bind]
  have hflush := flushChunk_record h ho
  generalize flushChunk.run (w, d) = r at hflush ⊢
  cases hflush with
  | refused he hr hp ht => exact .refused he hr hp ht
  | stopped ha hc hes hevs hp ht hrel => exact .stopped ha hc hes hevs hp ht hrel
  | @ok u w₁ d₁ hr hp ht =>
    have hfile := onFile_flush_record hr
    dsimp only
    generalize (onFile BufWriter.flush).run (w₁, d₁) = r at hfile ⊢
    cases hfile with
    | refused he hr' hp' ht' => exact .refused he hr' (hp'.trans hp) (ht.trans (hp ▸ ht'))
    | stopped ha hc hes hevs hp' ht' hrel =>
      exact .stopped ha hc hes hevs (hp'.trans hp) (ht.trans (hp ▸ ht'))
        fun hne hr' => hrel hne (ht.reliable hr')
    | ok hr' hp' ht' =>
      obtain ⟨v, hk⟩ := hr'.keeps
      exact .ok ⟨⟨v, hk.holds, hk.replayed, hk.batches, hk.chunkSeq, hk.eventSeq, hk.names,
        hk.numbered, hk.refs⟩, hr'.entries, hr'.events⟩ (hp'.trans hp) (ht.trans (hp ▸ ht'))

/-! ## calls that leave nothing behind -/

/-- all that the writer has taken is in its file -/
structure Synced (w : SessionWriter) : Prop where
  buf : w.file.buf = []
  pendingDict : w.pendingDict = []
  pendingEvents : w.pendingEvents = []

/-- the batches that are pending are accepted by the encoders -/
def Ready (w : SessionWriter) : Prop := ∀ b ∈ dictBatch w ++ eventBatch w, b.Committable

theorem flushChunk_ok {v : View} (hk : Keeps hdr bs v w d) (ho : w.finished = false) {u : Unit}
    {w' : SessionWriter} {d' : Disk} (hrun : flushChunk.run (w, d) = .ok u (w', d')) :
    Ready w ∧ Synced w' ∧ w'.finished = false := by
  have hcases := flushChunk_cases hk ho
  rw [hrun] at hcases
  cases hcases with
  | done hp ht hb hk' hbuf => exact ⟨hb, ⟨hbuf, rfl, rfl⟩, ho⟩

theorem flushChunk_ready {v : View} (hk : Keeps hdr bs v w d) (ho : w.finished = false)
    (hd : d.Reliable) (hseq : w.nextChunkSeq.toNat + 2 < 2^64) (hr : Ready w) :
    ∃ s, flushChunk.run (w, d) = .ok () s := by
  have hcases := flushChunk_cases hk ho
  generalize flushChunk.run (w, d) = r at hcases ⊢
  cases hcases with
  | done hp ht hb hk' hbuf => exact ⟨_, rfl⟩
  | refusedDict hne hb he =>
    refine absurd (hr _ (List.mem_append_left _ ?_)) hb
    rw [dictBatch, if_neg hne]
    exact List.mem_singleton_self _
  | refusedEvents hp ht hbd hne hb he hk' =>
    refine absurd (hr _ (List.mem_append_right _ ?_)) hb
    rw [eventBatch, if_neg hne]
    exact List.mem_singleton_self _
  | @stopped a w' d' cs ha hp ht hrel hpanic hcs hc =>
    by_cases hne : a = .panic
    · have := hpanic hne
      omega
    · exact absurd hd (hrel hne)

theorem finish_ok {v : View} (hk : Keeps hdr bs v w d) (ho : w.finished = false) {u : Unit}
    {w' : SessionWriter} {d' : Disk} (hrun : finish.run (w, d) = .ok u (w', d')) :
    Ready w ∧ Synced w' := by
  rw [finish_run ho, EStateM.run_bind] at hrun
  have hcases := flushChunk_cases hk ho
  generalize flushChunk.run (w, d) = r at hcases hrun
  cases hcases with
  | @done f d₁ v₁ seq hp ht hb hk₁ hbuf =>
    obtain ⟨f₂, d₂, hp₂, ht₂, hf₂, ⟨hrun₂, hbuf₂⟩ | ⟨m, hrun₂, hrel⟩⟩ := onFile_flush_holds hk₁.holds
    · dsimp only at hrun
      rw [hrun₂] at hrun
      cases hrun
      exact ⟨hb, hbuf₂, rfl, rfl⟩
    · dsimp only at hrun
      rw [hrun₂] at hrun
      cases hrun
  | refusedDict hne hb he => cases hrun
  | refusedEvents hp ht hbd hne hb he hk' => cases hrun
  | stopped ha hp ht hrel hpanic hcs hc => cases hrun

theorem finish_ready {v : View} (hk : Keeps hdr bs v w d) (ho : w.finished = false)
    (hd : d.Reliable) (hseq : w.nextChunkSeq.toNat + 2 < 2^64) (hr : Ready w) :
    ∃ s, finish.run (w, d) = .ok () s := by
  obtain ⟨⟨w₁, d₁⟩, hrun⟩ := flushChunk_ready hk ho hd hseq hr
  have hcases := flushChunk_cases hk ho
  rw [finish_run ho, EStateM.run_bind]
  rw [hrun] at hcases ⊢
  cases hcases with
  | done hp ht hb hk₁ hbuf =>
    obtain ⟨f₂, d₂, hp₂, ht₂, hf₂, ⟨hrun₂, hbuf₂⟩ | ⟨m, hrun₂, hrel⟩⟩ := onFile_flush_holds hk₁.holds
    · dsimp only
      rw [hrun₂]
      exact ⟨_, rfl⟩
    · exact absurd (ht.reliable hd) hrel

end Dtj
