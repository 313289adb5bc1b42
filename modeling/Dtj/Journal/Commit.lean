import Dtj.Core.Writer
import Dtj.Journal.Layout

/-!
# What a flush does

* `Commit`, `commitChunk_cases`   everything that `commitChunk` may end with, for a batch;
* `Keeps hdr bs v w d`            **the invariant of a writer**: the file holds the header and the
  batches `bs`, which amount to the view `v`; the pending items carry on from there;
* `Cut`                           what is left of it when a write fails or a counter overflows;
* `Flushed`, `flushChunk_cases`   everything that a flush may end with, for a writer that keeps it.
-/

namespace Dtj
open Wire Checked SessionWriter

def Error.isIo : Error → Bool
  | .io _ => true
  | _ => false

/-- the errors of the encoders -/
def Error.isLimit : Error → Bool
  | .limitExceeded _ => true
  | .payloadTooLarge _ _ => true
  | _ => false

/-- an outcome after which a run goes no further: an I/O error or a panic -/
def stops : Abort Error → Bool
  | .error e => e.isIo
  | .panic => true
  | .diverge => true

/-! ## one batch -/

theorem encodeValue_error {v : Value} {e : Error} (h : encodeValue v = .error e) :
    e.isLimit = true := by
  rw [encodeValue_eq] at h
  split at h
  · cases h
  · cases h; rfl

theorem TypedPayload.encode_error {p : TypedPayload} {e : Error} (h : p.encode = .error e) :
    e.isLimit = true := by
  unfold TypedPayload.encode at h
  split at h
  · cases h; rfl
  · rw [encodeFields_eq] at h
    split at h
    · cases h
    · cases h; rfl

theorem encodeEvents_error {evs : List EventRecord} {out : Bytes} {e : Error}
    (h : encodeEvents evs out = .error e) : e.isLimit = true := by
  induction evs generalizing out with
  | nil => cases h
  | cons ev evs ih =>
    rw [encodeEvents] at h
    cases hp : ev.payload.encode with
    | error e' =>
      rw [hp] at h
      cases h
      exact TypedPayload.encode_error hp
    | ok p =>
      rw [hp, ok_bind] at h
      split at h
      · cases h; rfl
      · exact ih h

theorem encodeLoop_error {es : List DictEntry} {out : Bytes} {e : Error}
    (h : Dictionary.encodeLoop es out = .error e) : e.isLimit = true := by
  induction es generalizing out with
  | nil => cases h
  | cons en es ih =>
    unfold Dictionary.encodeLoop at h
    dsimp only at h
    split at h
    · cases h; rfl
    · exact ih h

theorem Batch.encode_error {b : Batch} {e : Error} (h : b.encode = .error e) : e.isLimit = true := by
  cases b with
  | dict es =>
    rw [Batch.encode, Dictionary.encodeEntries] at h
    split at h
    · cases h; rfl
    · exact encodeLoop_error h
  | events evs =>
    rw [Batch.encode, EventRecord.encode] at h
    split at h
    · cases h; rfl
    · exact encodeEvents_error h

/-- the writer with another file and chunk number -/
def SessionWriter.wrote (w : SessionWriter) (f : BufWriter) (seq : UInt64) : SessionWriter :=
  { w with file := f, nextChunkSeq := seq }

/-- what committing a batch may end with, for a writer whose file holds `c` -/
inductive Commit (w : SessionWriter) (d : Disk) (c : Bytes) (b : Batch) :
    EStateM.Result (Abort Error) (SessionWriter × Disk) Unit → Prop
  | refused {e} (hb : ¬ b.Committable) (he : e.isLimit = true) :
      Commit w d c b (.error (.error e) (w, d))
  | written {f d'} (hb : b.Committable) (hp : f.path = w.file.path)
      (ht : Disk.Touches w.file.path d d') (hf : f.Holds d' (c ++ b.raw w.nextChunkSeq.toNat))
      (hseq : w.nextChunkSeq.toNat + 1 < 2^64) :
      Commit w d c b (.ok () (w.wrote f (w.nextChunkSeq + 1), d'))
  | overflow {f d'} (hb : b.Committable) (hp : f.path = w.file.path)
      (ht : Disk.Touches w.file.path d d') (hf : f.Holds d' (c ++ b.raw w.nextChunkSeq.toNat))
      (hseq : w.nextChunkSeq.toNat + 1 = 2^64) :
      Commit w d c b (.error .panic (w.wrote f w.nextChunkSeq, d'))
  | failed {f d' m k} (hb : b.Committable) (hp : f.path = w.file.path)
      (ht : Disk.Touches w.file.path d d') (hrel : ¬ d.Reliable)
      (hf : f.Holds d' (c ++ (b.raw w.nextChunkSeq.toNat).take k)) :
      Commit w d c b (.error (.error (.io m)) (w.wrote f w.nextChunkSeq, d'))

theorem commitChunk_cases {w : SessionWriter} {d : Disk} {c : Bytes} (h : w.file.Holds d c)
    (b : Batch) : Commit w d c b ((commitChunk b.chunkType b.encode).run (w, d)) := by
  have hlt := w.nextChunkSeq.toNat_lt
  simp only [commitChunk, EStateM.run_bind, EStateM.run_get]
  cases he : b.encode with
  | error e =>
    refine .refused (fun hb => ?_) (Batch.encode_error he)
    rw [Batch.encode_ok.mpr ⟨hb.count, hb.items, rfl⟩] at he
    cases he
  | ok out =>
    obtain ⟨hcount, hitems, rfl⟩ := Batch.encode_ok.mp he
    simp only [lift_ok, Prog.of_ok]
    cases hc : encodeCommittedChunk b.chunkType w.nextChunkSeq b.payload with
    | error e =>
      have hb : ¬ b.Committable := by
        intro hb
        rw [encodeCommittedChunk_ok.mpr ⟨hb.payload, rfl⟩] at hc
        cases hc
      rw [encodeCommittedChunk_error hc]
      exact .refused hb rfl
    | ok bytes =>
      obtain ⟨hmax, hbytes⟩ := encodeCommittedChunk_ok.mp hc
      have hb : b.Committable := ⟨hcount, hitems, hmax⟩
      have hraw : bytes = b.raw w.nextChunkSeq.toNat := by
        rw [hbytes, Batch.raw, Batch.header, UInt64.ofNat_toNat]
      obtain ⟨f, d', hp, ht, ⟨hrun, hf⟩ | ⟨m, k, hrun, hrel, hf⟩⟩ := BufWriter.writeAll_spec h bytes
      · simp only [Prog.of_ok, onFile_run, hrun]
        rw [hraw] at hf
        by_cases hseq : w.nextChunkSeq.toNat + 1 < 2^64
        · have hincr : (incr64 w.nextChunkSeq : Res Error UInt64) = .ok (w.nextChunkSeq + 1) :=
            incr64_eq hseq
          simp only [hincr, Prog.of_ok, update_run]
          exact .written hb hp ht hf hseq
        · have hincr : (incr64 w.nextChunkSeq : Res Error UInt64) = crash := if_neg hseq
          simp only [hincr, Prog.of_crash]
          exact .overflow hb hp ht hf (by omega)
      · simp only [Prog.of_ok, onFile_run, hrun]
        rw [hraw] at hf
        exact .failed hb hp ht hrel hf

/-! ## the invariant of a writer -/

/-- **The file holds the header and the batches `bs`, which amount to `v`; the pending items
carry on from there** -/
structure Keeps (hdr : Bytes) (bs : List Batch) (v : View) (w : SessionWriter) (d : Disk) :
    Prop where
  holds : w.file.Holds d (hdr ++ layout 1 bs)
  replayed : replay .empty bs = .ok v
  batches : ∀ b ∈ bs, b.Committable ∧ b.count ≠ 0
  chunkSeq : w.nextChunkSeq.toNat = bs.length + 1
  eventSeq : w.nextEventSeq.toNat = v.events.length + w.pendingEvents.length + 1
  names : ∃ dict, v.dictionary.insertAll w.pendingDict = .ok dict ∧
    Dictionary.SameNames dict w.dictionary
  numbered : Numbered (v.events.length + 1) w.pendingEvents
  refs : ∀ ev ∈ w.pendingEvents, Resolves w.dictionary ev.refs

/-- what a writer that was stopped has left in its file: a part of a journal -/
structure Cut (hdr : Bytes) (bs : List Batch) (w : SessionWriter) (d : Disk) : Prop where
  holds : ∃ c, w.file.Holds d c ∧ c <+: hdr ++ layout 1 bs
  replayed : ∃ v, replay .empty bs = .ok v
  batches : ∀ b ∈ bs, b.Committable ∧ b.count ≠ 0
  small : bs.length < 2^64

variable {hdr : Bytes} {bs : List Batch} {v : View} {w : SessionWriter} {d : Disk}

theorem Keeps.chunks (h : Keeps hdr bs v w d) : v.chunks = bs.length := by
  rw [(replay_ok h.replayed).2.2]
  exact Nat.zero_add _

theorem Keeps.small (h : Keeps hdr bs v w d) : bs.length + 1 < 2^64 := by
  have := w.nextChunkSeq.toNat_lt
  have := h.chunkSeq
  omega

theorem Keeps.cut (h : Keeps hdr bs v w d) : Cut hdr bs w d where
  holds := ⟨_, h.holds, List.prefix_refl _⟩
  replayed := ⟨v, h.replayed⟩
  batches := h.batches
  small := by have := h.small; omega

/-- every name that the dictionary of the writer has -/
theorem Keeps.sound (h : Keeps hdr bs v w d) : w.dictionary.Sound := by
  obtain ⟨dict, hd, hs⟩ := h.names
  have hv : v.dictionary.Sound := Dictionary.sound_new.insertAll (replay_ok h.replayed).1
  have hd' := hv.insertAll hd
  refine ⟨fun hn => hd'.id_ne_zero (hs.getName _ _ ▸ hn), fun hn => hd'.name_length
    (hs.getName _ _ ▸ hn), fun hn => ?_⟩
  rw [hs.getName]
  refine hd'.idOf_getName ?_
  rw [Dictionary.idOf, ← hs.byName]
  exact hn

def dictBatch (w : SessionWriter) : List Batch :=
  if w.pendingDict = [] then [] else [.dict w.pendingDict]

def eventBatch (w : SessionWriter) : List Batch :=
  if w.pendingEvents = [] then [] else [.events w.pendingEvents]

/-- the entries that are pending are a batch that a reader accepts -/
theorem Keeps.add_dict (h : Keeps hdr bs v w d) :
    ∃ dict, v.add (.dict w.pendingDict) = .ok ⟨dict, v.events, v.chunks + 1⟩ ∧
      Dictionary.SameNames dict w.dictionary := by
  obtain ⟨dict, hd, hs⟩ := h.names
  refine ⟨dict, ?_, hs⟩
  rw [View.add, hd]
  rfl

/-- so are the events, once no entry is pending -/
theorem Keeps.add_events (h : Keeps hdr bs v w d) (hp : w.pendingDict = []) :
    v.add (.events w.pendingEvents)
      = .ok ⟨v.dictionary, v.events ++ w.pendingEvents, v.chunks + 1⟩ := by
  obtain ⟨dict, hd, hs⟩ := h.names
  rw [hp] at hd
  cases hd
  have hc : checkAll v.dictionary (v.events.length + 1) w.pendingEvents = .ok () :=
    checkAll_ok.mpr ⟨h.numbered, fun ev hev => (h.refs ev hev).mono fun hn => hs.getName _ _ ▸ hn⟩
  rw [View.add, hc]
  rfl

theorem layout_snoc (hdr : Bytes) (bs : List Batch) (b : Batch) :
    hdr ++ layout 1 bs ++ b.raw (bs.length + 1) = hdr ++ layout 1 (bs ++ [b]) := by
  rw [layout_append, List.append_assoc, Nat.add_comm 1]
  show _ = hdr ++ (layout 1 bs ++ (b.raw (bs.length + 1) ++ []))
  rw [List.append_nil]

theorem snoc_batches {b : Batch} (h : ∀ b ∈ bs, b.Committable ∧ b.count ≠ 0) (hb : b.Committable)
    (hc : b.count ≠ 0) : ∀ b' ∈ bs ++ [b], b'.Committable ∧ b'.count ≠ 0 := by
  intro b' hb'
  rcases List.mem_append.mp hb' with hb' | hb'
  · exact h b' hb'
  · rw [List.mem_singleton.mp hb']
    exact ⟨hb, hc⟩

theorem replay_snoc {b : Batch} {v' : View} (h : replay .empty bs = .ok v)
    (hb : v.add b = .ok v') : replay .empty (bs ++ [b]) = .ok v' := by
  rw [replay_append h, replay, hb]
  rfl

/-- a batch that could not be written whole leaves a part of it -/
theorem Keeps.cut_snoc (h : Keeps hdr bs v w d) {b : Batch} {v' : View} {w' : SessionWriter}
    {d' : Disk} {c : Bytes} (hadd : v.add b = .ok v') (hb : b.Committable) (hcount : b.count ≠ 0)
    (hf : w'.file.Holds d' (hdr ++ layout 1 bs ++ c)) (hc : c <+: b.raw (bs.length + 1)) :
    Cut hdr (bs ++ [b]) w' d' where
  holds := by
    refine ⟨_, hf, ?_⟩
    rw [← layout_snoc]
    exact (List.prefix_append_right_inj _).mpr hc
  replayed := ⟨v', replay_snoc h.replayed hadd⟩
  batches := snoc_batches h.batches hb hcount
  small := by
    rw [List.length_append, List.length_singleton]
    exact h.small

/-- what a half of a flush may end with: `b` is its batch, `clear` its last statement -/
inductive Half (hdr : Bytes) (bs : List Batch) (w : SessionWriter) (d : Disk) (b : Batch)
    (clear : SessionWriter → SessionWriter) :
    EStateM.Result (Abort Error) (SessionWriter × Disk) Unit → Prop
  | done {f d' v'} (hb : b.Committable) (hp : f.path = w.file.path)
      (ht : Disk.Touches w.file.path d d')
      (hk : Keeps hdr (bs ++ [b]) v' (clear (w.wrote f (w.nextChunkSeq + 1))) d') :
      Half hdr bs w d b clear (.ok () (clear (w.wrote f (w.nextChunkSeq + 1)), d'))
  | refused {e} (hb : ¬ b.Committable) (he : e.isLimit = true) :
      Half hdr bs w d b clear (.error (.error e) (w, d))
  | stopped {a w' d'} (ha : stops a) (hp : w'.file.path = w.file.path)
      (ht : Disk.Touches w.file.path d d') (hrel : a ≠ .panic → ¬ d.Reliable)
      (hseq : a = .panic → w.nextChunkSeq.toNat + 1 = 2^64)
      (hc : Cut hdr (bs ++ [b]) w' d') : Half hdr bs w d b clear (.error a (w', d'))

theorem Keeps.half (h : Keeps hdr bs v w d) {b : Batch} {v' : View}
    {clear : SessionWriter → SessionWriter} (hadd : v.add b = .ok v') (hcount : b.count ≠ 0)
    (hclear : ∀ f d', f.Holds d' (hdr ++ layout 1 (bs ++ [b])) →
      (w.nextChunkSeq + 1).toNat = (bs ++ [b]).length + 1 →
      replay .empty (bs ++ [b]) = .ok v' → (∀ b' ∈ bs ++ [b], b'.Committable ∧ b'.count ≠ 0) →
      Keeps hdr (bs ++ [b]) v' (clear (w.wrote f (w.nextChunkSeq + 1))) d') :
    Half hdr bs w d b clear ((commitChunk b.chunkType b.encode >>= fun _ => update clear).run
      (w, d)) := by
  have hcommit := commitChunk_cases h.holds b
  rw [EStateM.run_bind]
  generalize (commitChunk b.chunkType b.encode).run (w, d) = r at hcommit ⊢
  cases hcommit with
  | refused hb he => exact .refused hb he
  | written hb hp ht hf hseq =>
    rw [h.chunkSeq, layout_snoc] at hf
    have hincr : (incr64 w.nextChunkSeq : Res Error UInt64) = .ok (w.nextChunkSeq + 1) :=
      incr64_eq hseq
    refine .done hb hp ht (hclear _ _ hf ?_ (replay_snoc h.replayed hadd)
      (snoc_batches h.batches hb hcount))
    rw [incr64_ok hincr, h.chunkSeq, List.length_append, List.length_singleton]
  | overflow hb hp ht hf hseq =>
    rw [h.chunkSeq] at hf
    exact .stopped rfl hp ht (fun hne => absurd rfl hne) (fun _ => hseq)
      (h.cut_snoc hadd hb hcount hf (List.prefix_refl _))
  | failed hb hp ht hrel hf =>
    rw [h.chunkSeq] at hf
    exact .stopped rfl hp ht (fun _ => hrel) (fun he => by cases he)
      (h.cut_snoc hadd hb hcount hf (List.take_prefix _ _))

def clearDict (w : SessionWriter) : SessionWriter := { w with pendingDict := [] }

def clearEvents (w : SessionWriter) : SessionWriter := { w with pendingEvents := [] }

theorem flushDict_run (hne : w.pendingDict ≠ []) : flushDict.run (w, d)
    = (commitChunk (Batch.dict w.pendingDict).chunkType (Batch.dict w.pendingDict).encode
      >>= fun _ => update clearDict).run (w, d) := by
  simp only [flushDict, EStateM.run_bind, EStateM.run_get, if_pos hne]
  rfl

theorem flushDict_none (hp : w.pendingDict = []) : flushDict.run (w, d) = .ok () (w, d) := by
  simp only [flushDict, EStateM.run_bind, EStateM.run_get, hp, ne_eq, not_true_eq_false, if_false]
  rfl

theorem flushEvents_run (hne : w.pendingEvents ≠ []) : flushEvents.run (w, d)
    = (commitChunk (Batch.events w.pendingEvents).chunkType (Batch.events w.pendingEvents).encode
      >>= fun _ => update clearEvents).run (w, d) := by
  simp only [flushEvents, EStateM.run_bind, EStateM.run_get, if_pos hne]
  rfl

theorem flushEvents_none (hp : w.pendingEvents = []) : flushEvents.run (w, d) = .ok () (w, d) := by
  simp only [flushEvents, EStateM.run_bind, EStateM.run_get, hp, ne_eq, not_true_eq_false, if_false]
  rfl

theorem flushDict_cases (h : Keeps hdr bs v w d) (hne : w.pendingDict ≠ []) :
    Half hdr bs w d (.dict w.pendingDict) clearDict (flushDict.run (w, d)) := by
  obtain ⟨dict, hadd, hs⟩ := h.add_dict
  have hcount : (Batch.dict w.pendingDict).count ≠ 0 := by
    show w.pendingDict.length ≠ 0
    rwa [ne_eq, List.length_eq_zero_iff]
  rw [flushDict_run hne]
  exact h.half hadd hcount fun f d' hf hseq hrep hbs =>
    ⟨hf, hrep, hbs, hseq, h.eventSeq, ⟨dict, rfl, hs⟩, h.numbered, h.refs⟩

theorem flushEvents_cases (h : Keeps hdr bs v w d) (hp : w.pendingDict = [])
    (hne : w.pendingEvents ≠ []) :
    Half hdr bs w d (.events w.pendingEvents) clearEvents (flushEvents.run (w, d)) := by
  have hadd := h.add_events hp
  have hcount : (Batch.events w.pendingEvents).count ≠ 0 := by
    show w.pendingEvents.length ≠ 0
    rwa [ne_eq, List.length_eq_zero_iff]
  rw [flushEvents_run hne]
  refine h.half hadd hcount fun f d' hf hseq hrep hbs =>
    ⟨hf, hrep, hbs, hseq, ?_, h.names, numbered_nil _, fun ev hev => by cases hev⟩
  show w.nextEventSeq.toNat = (v.events ++ w.pendingEvents).length + 0 + 1
  rw [h.eventSeq, List.length_append]

/-! ## a flush -/

/-- the writer after a flush that succeeded -/
def SessionWriter.flushed (w : SessionWriter) (f : BufWriter) (seq : UInt64) : SessionWriter :=
  { w with file := f, nextChunkSeq := seq, pendingDict := [], pendingEvents := [] }

/-- the writer after a flush that wrote its entries and was refused its events -/
def SessionWriter.halfFlushed (w : SessionWriter) (f : BufWriter) (seq : UInt64) : SessionWriter :=
  { w with file := f, nextChunkSeq := seq, pendingDict := [] }

/-- **everything that a flush may end with** -/
inductive Flushed (hdr : Bytes) (bs : List Batch) (w : SessionWriter) (d : Disk) :
    EStateM.Result (Abort Error) (SessionWriter × Disk) Unit → Prop
  | done {f d' v' seq} (hp : f.path = w.file.path) (ht : Disk.Touches w.file.path d d')
      (hb : ∀ b ∈ dictBatch w ++ eventBatch w, b.Committable)
      (hk : Keeps hdr (bs ++ dictBatch w ++ eventBatch w) v' (w.flushed f seq) d')
      (hbuf : f.buf = []) : Flushed hdr bs w d (.ok () (w.flushed f seq, d'))
  | refusedDict {e} (hne : w.pendingDict ≠ []) (hb : ¬ (Batch.dict w.pendingDict).Committable)
      (he : e.isLimit = true) : Flushed hdr bs w d (.error (.error e) (w, d))
  | refusedEvents {e f d' v' seq} (hp : f.path = w.file.path)
      (ht : Disk.Touches w.file.path d d') (hd : ∀ b ∈ dictBatch w, b.Committable)
      (hne : w.pendingEvents ≠ []) (hb : ¬ (Batch.events w.pendingEvents).Committable)
      (he : e.isLimit = true) (hk : Keeps hdr (bs ++ dictBatch w) v' (w.halfFlushed f seq) d') :
      Flushed hdr bs w d (.error (.error e) (w.halfFlushed f seq, d'))
  | stopped {a w' d' cs} (ha : stops a) (hp : w'.file.path = w.file.path)
      (ht : Disk.Touches w.file.path d d') (hrel : a ≠ .panic → ¬ d.Reliable)
      (hseq : a = .panic → 2^64 ≤ w.nextChunkSeq.toNat + 2)
      (hcs : cs <+: dictBatch w ++ eventBatch w) (hc : Cut hdr (bs ++ cs) w' d') :
      Flushed hdr bs w d (.error a (w', d'))

theorem onFile_flush_holds (h : w.file.Holds d (hdr ++ layout 1 bs)) :
    ∃ f d', f.path = w.file.path ∧ Disk.Touches w.file.path d d' ∧
      f.Holds d' (hdr ++ layout 1 bs) ∧
      (((onFile BufWriter.flush).run (w, d) = .ok () ({ w with file := f }, d') ∧ f.buf = []) ∨
        ∃ m, (onFile BufWriter.flush).run (w, d)
          = .error (.error (.io m)) ({ w with file := f }, d') ∧ ¬ d.Reliable) := by
  obtain ⟨f, d', hf, hp, ht, hend⟩ := BufWriter.flushBuf_spec h
  refine ⟨f, d', hp, ht, hf, ?_⟩
  simp only [onFile_run, BufWriter.flush]
  rcases hend with ⟨hr, hbuf⟩ | ⟨m, hr, hrel⟩
  · exact .inl ⟨by rw [hr], hbuf⟩
  · exact .inr ⟨m, by rw [hr], hrel⟩

theorem halfFlushed_self (hp : w.pendingDict = []) :
    w.halfFlushed w.file w.nextChunkSeq = w := by
  unfold SessionWriter.halfFlushed
  rw [← hp]

/-- the first half of a flush, whether there are entries or not -/
theorem flushDict_total (h : Keeps hdr bs v w d) :
    (∃ f seq d' v', flushDict.run (w, d) = .ok () (w.halfFlushed f seq, d') ∧
      f.path = w.file.path ∧ Disk.Touches w.file.path d d' ∧ seq.toNat ≤ w.nextChunkSeq.toNat + 1 ∧
      (∀ b ∈ dictBatch w, b.Committable) ∧
      Keeps hdr (bs ++ dictBatch w) v' (w.halfFlushed f seq) d') ∨
    ∃ a s, flushDict.run (w, d) = .error a s ∧ Flushed hdr bs w d (.error a s) := by
  by_cases hp : w.pendingDict = []
  · have hb : dictBatch w = [] := if_pos hp
    refine .inl ⟨w.file, w.nextChunkSeq, d, v, ?_, rfl, .refl _ _, Nat.le_succ _, by simp [hb], ?_⟩
    · rw [flushDict_none hp, halfFlushed_self hp]
    · rw [halfFlushed_self hp, hb, List.append_nil]
      exact h
  · have hb : dictBatch w = [.dict w.pendingDict] := if_neg hp
    have hhalf := flushDict_cases h hp
    generalize flushDict.run (w, d) = r at hhalf ⊢
    cases hhalf with
    | done hbc hpath ht hk =>
      refine .inl ⟨_, _, _, _, rfl, hpath, ht, ?_, by simp [hb, hbc], by rw [hb]; exact hk⟩
      show (w.nextChunkSeq + 1).toNat ≤ _
      rw [UInt64.toNat_add]
      exact Nat.mod_le _ _
    | refused hbc he => exact .inr ⟨_, _, rfl, .refusedDict hp hbc he⟩
    | stopped ha hpath ht hrel hseq hc =>
      refine .inr ⟨_, _, rfl, .stopped ha hpath ht hrel (fun he => ?_) ?_ hc⟩
      · have := hseq he
        omega
      · rw [hb]
        exact List.prefix_append _ _

/-- the second half of a flush and the flush of the file -/
theorem flushRest_cases (hbd : ∀ b ∈ dictBatch w, b.Committable)
    {f : BufWriter} {seq : UInt64} {d₁ : Disk} {v₁ : View} (hp : f.path = w.file.path)
    (ht : Disk.Touches w.file.path d d₁) (hseq : seq.toNat ≤ w.nextChunkSeq.toNat + 1)
    (hk : Keeps hdr (bs ++ dictBatch w) v₁ (w.halfFlushed f seq) d₁) :
    Flushed hdr bs w d
      ((flushEvents >>= fun _ => onFile BufWriter.flush).run (w.halfFlushed f seq, d₁)) := by
  -- the flush of the file, from the writer whose batches are all committed
  have last : ∀ {f₂ : BufWriter} {seq₂ : UInt64} {d₂ : Disk} {v₂ : View},
      f₂.path = w.file.path → Disk.Touches w.file.path d d₂ →
      (∀ b ∈ dictBatch w ++ eventBatch w, b.Committable) →
      Keeps hdr (bs ++ dictBatch w ++ eventBatch w) v₂ (w.flushed f₂ seq₂) d₂ →
      Flushed hdr bs w d ((onFile BufWriter.flush).run (w.flushed f₂ seq₂, d₂)) := by
    intro f₂ seq₂ d₂ v₂ hp₂ ht₂ hb hk₂
    obtain ⟨f₃, d₃, hp₃, ht₃, hf₃, ⟨hrun, hbuf⟩ | ⟨m, hrun, hrel⟩⟩ := onFile_flush_holds hk₂.holds
    · have hk₃ : Keeps hdr (bs ++ dictBatch w ++ eventBatch w) v₂ (w.flushed f₃ seq₂) d₃ :=
        ⟨hf₃, hk₂.replayed, hk₂.batches, hk₂.chunkSeq, hk₂.eventSeq, hk₂.names, hk₂.numbered,
          hk₂.refs⟩
      rw [hrun]
      exact .done (hp₃.trans hp₂) (ht₂.trans (hp₂ ▸ ht₃)) hb hk₃ hbuf
    · rw [hrun]
      refine .stopped rfl (hp₃.trans hp₂) (ht₂.trans (hp₂ ▸ ht₃)) ?_ (fun he => by cases he)
        (List.prefix_refl _) ?_
      · exact fun _ hr => hrel (ht₂.reliable hr)
      · rw [← List.append_assoc]
        have := hk₂.cut
        exact ⟨⟨_, hf₃, List.prefix_refl _⟩, this.replayed, this.batches, this.small⟩
  rw [EStateM.run_bind]
  by_cases hpe : w.pendingEvents = []
  · have hb : eventBatch w = [] := if_pos hpe
    have hrun : flushEvents.run (w.halfFlushed f seq, d₁) = .ok () (w.halfFlushed f seq, d₁) := by
      have hpe' : ¬ (w.halfFlushed f seq).pendingEvents ≠ [] := not_not.mpr hpe
      simp only [flushEvents, EStateM.run_bind, EStateM.run_get, if_neg hpe']
      rfl
    have hself : w.halfFlushed f seq = w.flushed f seq := by
      unfold SessionWriter.halfFlushed SessionWriter.flushed
      rw [← hpe]
    have hk₂ : Keeps hdr (bs ++ dictBatch w ++ eventBatch w) v₁ (w.flushed f seq) d₁ := by
      rw [hb, List.append_nil, ← hself]
      exact hk
    rw [hrun, hself]
    exact last hp ht (by simpa [hb] using hbd) hk₂
  · have hb : eventBatch w = [.events w.pendingEvents] := if_neg hpe
    have hhalf := flushEvents_cases hk rfl hpe
    generalize flushEvents.run (w.halfFlushed f seq, d₁) = r at hhalf ⊢
    cases hhalf with
    | done hbc hp₂ ht₂ hk₂ =>
      refine last (hp₂.trans hp) (ht.trans (hp ▸ ht₂)) ?_ (by rw [hb]; exact hk₂)
      intro b hbm
      rw [hb] at hbm
      rcases List.mem_append.mp hbm with hbm | hbm
      · exact hbd b hbm
      · rw [List.mem_singleton.mp hbm]
        exact hbc
    | refused hbc he => exact .refusedEvents hp ht hbd hpe hbc he hk
    | stopped ha hp₂ ht₂ hrel hseq₂ hc =>
      refine .stopped ha (hp₂.trans hp) (ht.trans (hp ▸ ht₂))
        (fun hne hr => hrel hne (ht.reliable hr)) (fun he => ?_) (List.prefix_refl _) ?_
      · have hs : seq.toNat + 1 = 2^64 := hseq₂ he
        omega
      · rw [hb, ← List.append_assoc]
        exact hc

theorem ensureOpen_run (ho : w.finished = false) : ensureOpen.run (w, d) = .ok () (w, d) := by
  simp only [ensureOpen, EStateM.run_bind, EStateM.run_get, ho]
  rfl

theorem flushChunk_cases (h : Keeps hdr bs v w d) (ho : w.finished = false) :
    Flushed hdr bs w d (flushChunk.run (w, d)) := by
  have hrun : flushChunk.run (w, d) = match flushDict.run (w, d) with
      | .ok _ s => (flushEvents >>= fun _ => onFile BufWriter.flush).run s
      | .error e s => .error e s := by
    rw [flushChunk, EStateM.run_bind, ensureOpen_run ho]
    show (flushDict >>= fun _ => flushEvents >>= fun _ => onFile BufWriter.flush).run (w, d) = _
    rw [EStateM.run_bind]
    cases flushDict.run (w, d) <;> rfl
  rw [hrun]
  rcases flushDict_total h with ⟨f, seq, d₁, v₁, hr, hp, ht, hseq, hbd, hk⟩ | ⟨a, s, hr, hstop⟩
  · rw [hr]
    exact flushRest_cases hbd hp ht hseq hk
  · rw [hr]
    exact hstop

end Dtj
