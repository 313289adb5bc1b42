import Dtj.Journal.Limits

/-!
# An append that fails

`append_event` takes the event and its number before it writes what has become too much.  When that
flush fails the caller is told of an error, and the event stays.

* `commitChunk_run`        a batch on any disk;
* `Refused`, `flush_iff`   the flushes that fail;
* `append_unchanged_iff`   **in which states a failed append leaves no trace**.
-/

namespace Dtj
open Wire Checked SessionWriter

variable {w : SessionWriter} {d : Disk}

/-- the call returned an error: it is neither a success nor a panic -/
def Errs {σ α : Type} (r : EStateM.Result (Abort Error) σ α) : Prop := ∃ e s, r = .error (.error e) s

theorem errs_map {σ α β : Type} (g : α → β) (r : EStateM.Result (Abort Error) σ α) :
    Errs (mapResult g r) ↔ Errs r := by
  cases r with
  | ok a s => constructor <;> (rintro ⟨e, s', h⟩; cases h)
  | error a s =>
    constructor <;> (rintro ⟨e, s', h⟩; cases h; exact ⟨e, s, rfl⟩)

theorem errs_onFile {α : Type} (p : Prog (BufWriter × Disk) Error α) :
    Errs ((onFile p).run (w, d)) ↔ Errs (p.run (w.file, d)) := by
  rw [onFile_run]
  cases p.run (w.file, d) with
  | ok a s => constructor <;> (rintro ⟨e, s', h⟩; cases h)
  | error a s =>
    constructor <;> (rintro ⟨e, s', h⟩; cases h; exact ⟨e, _, rfl⟩)

/-! ## a flush on any disk -/

/-- a batch that the encoders accept is written, if the disk takes it -/
theorem commitChunk_run {b : Batch} (hb : b.Committable) :
    (commitChunk b.chunkType b.encode).run (w, d) =
      match (BufWriter.writeAll (b.raw w.nextChunkSeq.toNat)).run (w.file, d) with
      | .error a (f, d) => .error a (w.wrote f w.nextChunkSeq, d)
      | .ok _ (f, d) =>
        if w.nextChunkSeq.toNat + 1 < 2^64 then .ok () (w.wrote f (w.nextChunkSeq + 1), d)
        else .error .panic (w.wrote f w.nextChunkSeq, d) := by
  have hencode : b.encode = .ok b.payload := Batch.encode_ok.mpr ⟨hb.count, hb.items, rfl⟩
  have hchunk : encodeCommittedChunk b.chunkType w.nextChunkSeq b.payload
      = .ok (b.raw w.nextChunkSeq.toNat) := by
    rw [encodeCommittedChunk_ok]
    refine ⟨hb.payload, ?_⟩
    rw [Batch.raw, Batch.header, UInt64.ofNat_toNat]
  simp only [commitChunk, EStateM.run_bind, EStateM.run_get, hencode, lift_ok, Prog.of_ok, hchunk,
    onFile_run]
  cases (BufWriter.writeAll (b.raw w.nextChunkSeq.toNat)).run (w.file, d) with
  | error a s => rfl
  | ok u s =>
    obtain ⟨f, d'⟩ := s
    by_cases hseq : w.nextChunkSeq.toNat + 1 < 2^64
    · have hincr : (incr64 w.nextChunkSeq : Res Error UInt64) = .ok (w.nextChunkSeq + 1) :=
        incr64_eq hseq
      simp only [hincr, Prog.of_ok, update_run, if_pos hseq]
      rfl
    · have hincr : (incr64 w.nextChunkSeq : Res Error UInt64) = crash := if_neg hseq
      simp only [hincr, Prog.of_crash, if_neg hseq]
      rfl

theorem commitChunk_refused {b : Batch} (hb : ¬ b.Committable) :
    ∃ e, (commitChunk b.chunkType b.encode).run (w, d) = .error (.error e) (w, d) := by
  simp only [commitChunk, EStateM.run_bind, EStateM.run_get]
  cases he : b.encode with
  | error e => exact ⟨e, rfl⟩
  | ok out =>
    obtain ⟨hcount, hitems, rfl⟩ := Batch.encode_ok.mp he
    simp only [lift_ok, Prog.of_ok]
    cases hc : encodeCommittedChunk b.chunkType w.nextChunkSeq b.payload with
    | error e =>
      rw [encodeCommittedChunk_error hc]
      exact ⟨_, rfl⟩
    | ok bytes => exact absurd ⟨hcount, hitems, (encodeCommittedChunk_ok.mp hc).1⟩ hb

/-- the encoders refuse one of the batches, or the disk does not take it, or not the rest of the
buffer; the writer of the file and the number of the chunk are those before it -/
def Refused : List Batch → UInt64 → BufWriter → Disk → Prop
  | [], _, file, d => Errs (BufWriter.flush.run (file, d))
  | b :: bs, seq, file, d => ¬ b.Committable ∨
      match (BufWriter.writeAll (b.raw seq.toNat)).run (file, d) with
      | .error a _ => ∃ e, a = .error e
      | .ok _ (file, d) => seq.toNat + 1 < 2^64 ∧ Refused bs (seq + 1) file d

/-- one half of a flush, and what follows it -/
theorem commit_errs {α : Type} {b : Batch} {bs : List Batch} {clear : SessionWriter → SessionWriter}
    {k : WriterM α} (hk : ∀ f d', Errs (k.run (clear (w.wrote f (w.nextChunkSeq + 1)), d')) ↔
      Refused bs (w.nextChunkSeq + 1) f d') {p : WriterM Unit} (hp : p.run (w, d)
        = (commitChunk b.chunkType b.encode >>= fun _ => update clear).run (w, d)) :
    Errs ((p >>= fun _ => k).run (w, d)) ↔ Refused (b :: bs) w.nextChunkSeq w.file d := by
  rw [EStateM.run_bind, hp, EStateM.run_bind, Refused]
  by_cases hb : b.Committable
  · rw [commitChunk_run hb, or_iff_right (not_not.mpr hb)]
    cases (BufWriter.writeAll (b.raw w.nextChunkSeq.toNat)).run (w.file, d) with
    | error a s =>
      constructor
      · rintro ⟨e, s', h⟩
        cases h
        exact ⟨e, rfl⟩
      · rintro ⟨e, rfl⟩
        exact ⟨e, _, rfl⟩
    | ok u s =>
      obtain ⟨f, d'⟩ := s
      dsimp only
      by_cases hseq : w.nextChunkSeq.toNat + 1 < 2^64
      · rw [if_pos hseq, and_iff_right hseq]
        exact hk f d'
      · rw [if_neg hseq]
        constructor
        · rintro ⟨e, s', h⟩
          cases h
        · rintro ⟨h, -⟩
          exact absurd h hseq
  · obtain ⟨e, he⟩ := @commitChunk_refused w d b hb
    rw [he]
    exact ⟨fun _ => .inl hb, fun _ => ⟨e, _, rfl⟩⟩

theorem flushEvents_errs : Errs ((flushEvents >>= fun _ => onFile BufWriter.flush).run (w, d)) ↔
    Refused (eventBatch w) w.nextChunkSeq w.file d := by
  unfold eventBatch
  by_cases hp : w.pendingEvents = []
  · rw [if_pos hp, EStateM.run_bind, flushEvents_none hp]
    exact errs_onFile _
  · rw [if_neg hp]
    exact commit_errs (fun f d' => errs_onFile _) (flushEvents_run hp)

/-- **the flushes that fail** -/
theorem flush_iff (ho : w.finished = false) : Errs (flushChunk.run (w, d)) ↔
    Refused (dictBatch w ++ eventBatch w) w.nextChunkSeq w.file d := by
  rw [flushChunk, EStateM.run_bind, ensureOpen_run ho]
  show Errs ((flushDict >>= fun _ => flushEvents >>= fun _ => onFile BufWriter.flush).run (w, d)) ↔ _
  unfold dictBatch
  by_cases hp : w.pendingDict = []
  · rw [if_pos hp, EStateM.run_bind, flushDict_none hp]
    exact flushEvents_errs
  · rw [if_neg hp]
    exact commit_errs (fun f d' => flushEvents_errs) (flushDict_run hp)

/-! ## what calls leave alone -/

section
variable {α β γ : Type}

/-- the call leaves a part of the writer as it is, however it ends -/
def Spares (part : SessionWriter → γ) (p : WriterM α) : Prop :=
  ∀ w d, part (stateOf (p.run (w, d))).1 = part w

/-- a part that a flush does not write -/
def Aside (part : SessionWriter → γ) : Prop := ∀ w file dict events seq,
  part { w with file := file, pendingDict := dict, pendingEvents := events, nextChunkSeq := seq } = part w

variable {part : SessionWriter → γ}

theorem Spares.bind {p : WriterM α} {k : α → WriterM β} (hp : Spares part p)
    (hk : ∀ a, Spares part (k a)) : Spares part (p >>= k) := by
  intro w d
  have h := hp w d
  rw [EStateM.run_bind]
  cases hr : p.run (w, d) with
  | error a s =>
    rw [hr] at h
    exact h
  | ok a s =>
    obtain ⟨w', d'⟩ := s
    rw [hr] at h
    exact (hk a w' d').trans h

theorem spares_of (r : Res Error α) : Spares part (Prog.of r) := by
  intro w d
  cases r <;> rfl

theorem spares_update {f : SessionWriter → SessionWriter} (h : ∀ w, part (f w) = part w) :
    Spares part (update f) := fun w _ => h w

theorem spares_get : Spares part (get : WriterM (SessionWriter × Disk)) := fun _ _ => rfl

theorem spares_pure (a : α) : Spares part (pure a : WriterM α) := fun _ _ => rfl

theorem spares_ensureOpen : Spares part ensureOpen := by
  intro w d
  rw [ensureOpen, EStateM.run_bind]
  cases hf : w.finished <;> (simp only [EStateM.run_get, hf]; rfl)

variable (h : Aside part)
include h

theorem Aside.onFile (p : Prog (BufWriter × Disk) Error α) : Spares part (onFile p) := by
  intro w d
  rw [onFile_run]
  cases p.run (w.file, d) with
  | ok a s => exact h w s.1 w.pendingDict w.pendingEvents w.nextChunkSeq
  | error e s => exact h w s.1 w.pendingDict w.pendingEvents w.nextChunkSeq

theorem Aside.commitChunk (ty : UInt16) (payload : Except Error Bytes) :
    Spares part (commitChunk ty payload) :=
  spares_get.bind fun _ => (spares_of _).bind fun _ => (spares_of _).bind fun _ =>
    (h.onFile _).bind fun _ => (spares_of _).bind fun seq => spares_update fun w =>
      h w w.file w.pendingDict w.pendingEvents seq

theorem Aside.flush : Spares part flushChunk := by
  have hdict : Spares part flushDict := by
    intro w d
    by_cases hp : w.pendingDict = []
    · rw [flushDict_none hp]
      rfl
    · have hclear : Spares part (update clearDict) := spares_update fun w =>
        h w w.file [] w.pendingEvents w.nextChunkSeq
      rw [flushDict_run hp]
      exact ((h.commitChunk _ _).bind fun _ => hclear) w d
  have hevents : Spares part flushEvents := by
    intro w d
    by_cases hp : w.pendingEvents = []
    · rw [flushEvents_none hp]
      rfl
    · have hclear : Spares part (update clearEvents) := spares_update fun w =>
        h w w.file w.pendingDict [] w.nextChunkSeq
      rw [flushEvents_run hp]
      exact ((h.commitChunk _ _).bind fun _ => hclear) w d
  exact spares_ensureOpen.bind fun _ => hdict.bind fun _ => hevents.bind fun _ => h.onFile _

end

/-- the call keeps the number of the next event, however it ends -/
def KeepsSeq {α : Type} (p : WriterM α) : Prop :=
  ∀ w d, (stateOf (p.run (w, d))).1.nextEventSeq = w.nextEventSeq

theorem keepsSeq_flush : KeepsSeq flushChunk :=
  @Aside.flush _ SessionWriter.nextEventSeq fun _ _ _ _ _ => rfl

/-- an event changes neither the names nor the end of a session -/
theorem append_spares (ev : AppendEvent) :
    Spares (fun w => (w.dictionary, w.finished)) (appendEvent ev) := by
  have hflush : Spares (fun w : SessionWriter => (w.dictionary, w.finished)) flushChunk :=
    Aside.flush fun _ _ _ _ _ => rfl
  refine spares_ensureOpen.bind fun _ => spares_get.bind fun x => (spares_of _).bind fun _ =>
    (spares_of _).bind fun seq => Spares.bind (spares_update ?_) fun _ => ?_
  · intro w
    rfl
  · intro w d
    split
    · exact (hflush.bind fun _ => spares_pure _) w d
    · rfl

/-! ## an append that fails -/

theorem pushed_flush_iff {ev : AppendEvent} (ho : w.finished = false) :
    Errs (flushChunk.run (w.pushed ev, d)) ↔
      Refused (dictBatch w ++ [.events (w.pushed ev).pendingEvents]) w.nextChunkSeq w.file d := by
  have hbatch : eventBatch (w.pushed ev) = [.events (w.pushed ev).pendingEvents] := by
    refine if_neg ?_
    exact List.append_ne_nil_of_right_ne_nil _ (List.cons_ne_nil _ _)
  have hflush := @flush_iff (w.pushed ev) d ho
  rw [hbatch] at hflush
  exact hflush

/-- a flush that fails leaves the number of the event used up -/
theorem flush_traces {ev : AppendEvent} (ho : w.finished = false)
    (hseq : w.nextEventSeq.toNat + 1 < 2^64)
    (h : Refused (dictBatch w ++ [.events (w.pushed ev).pendingEvents]) w.nextChunkSeq w.file d) :
    ∃ e s, flushChunk.run (w.pushed ev, d) = .error (.error e) s ∧ s ≠ (w, d) := by
  obtain ⟨e, s, hs⟩ := (pushed_flush_iff ho).mpr h
  refine ⟨e, s, hs, fun hsame => ?_⟩
  have hkept := keepsSeq_flush (w.pushed ev) d
  rw [hs, hsame] at hkept
  have hnat : w.nextEventSeq.toNat = (w.nextEventSeq + 1).toNat := congrArg UInt64.toNat hkept
  rw [incr64_ok (show (incr64 w.nextEventSeq : Res Error UInt64) = _ from incr64_eq hseq)] at hnat
  omega

/-- **A failed append leaves no trace exactly when it does not come to a flush that fails**: the
writer is closed, a reference of the event does not resolve, a counter is at its end, the buffer is
not full yet, or all that is pending can be written -/
theorem append_unchanged_iff (w : SessionWriter) (d : Disk) (ev : AppendEvent) :
    (∀ e s, (appendEvent ev).run (w, d) = .error (.error e) s → s = (w, d)) ↔
      w.finished = true ∨ ¬ Resolves w.dictionary ev.refs ∨ 2^64 ≤ w.nextEventSeq.toNat + 1 ∨
      UInt32.ofNat (w.pendingEvents.length + 1) < maxEventsPerChunk ∨
      ¬ Refused (dictBatch w ++ [.events (w.pushed ev).pendingEvents]) w.nextChunkSeq w.file d := by
  cases ho : w.finished with
  | true =>
    have hclosed := @exec_closed w d ho (.append ev)
    rw [Op.exec, run_map] at hclosed
    refine iff_of_true ?_ (.inl rfl)
    intro e s hs
    rw [hs] at hclosed
    cases hclosed
    rfl
  | false =>
    rw [appendEvent_run ho]
    cases hreq : requireRefs w.dictionary ev.domainId ev.categoryId ev.eventNameId ev.correlationId
      ev.payload with
    | error e =>
      have hno : ¬ Resolves w.dictionary ev.refs := by
        intro hr
        rw [requireRefs_ok.mpr hr] at hreq
        cases hreq
      refine iff_of_true ?_ (.inr (.inl hno))
      intro e' s hs
      cases hs
      rfl
    | ok u =>
      dsimp only
      by_cases hseq : w.nextEventSeq.toNat + 1 < 2^64
      swap
      · rw [if_neg hseq]
        exact iff_of_true (fun e s hs => by cases hs) (.inr (.inr (.inl (not_lt.mp hseq))))
      rw [if_pos hseq]
      by_cases hfull : UInt32.ofNat (w.pendingEvents.length + 1) ≥ maxEventsPerChunk
      swap
      · rw [if_neg hfull]
        exact iff_of_true (fun e s hs => by cases hs)
          (.inr (.inr (.inr (.inl (UInt32.not_le.mp hfull)))))
      rw [if_pos hfull]
      constructor
      · intro h
        refine .inr (.inr (.inr (.inr fun hrefused => ?_)))
        obtain ⟨e, s, hs, hne⟩ := flush_traces ho hseq hrefused
        exact hne (h e s (by rw [hs]; rfl))
      · rintro (h | h | h | h | h) e s hs
        · cases h
        · exact absurd (requireRefs_ok.mp hreq) h
        · exact absurd hseq (not_lt.mpr h)
        · exact absurd hfull (UInt32.not_le.mpr h)
        · exact absurd ((pushed_flush_iff ho).mp ((errs_map _ _).mp ⟨e, s, hs⟩)) h

/-! ## a full buffer -/

/-- the writer after events that do not fill the buffer -/
structure Filled (n : Nat) (w w' : SessionWriter) : Prop where
  dictionary : w'.dictionary = w.dictionary
  pendingDict : w'.pendingDict = w.pendingDict
  finished : w'.finished = w.finished
  pendingEvents : w'.pendingEvents.length = w.pendingEvents.length + n
  nextEventSeq : w'.nextEventSeq.toNat = w.nextEventSeq.toNat + n

theorem runOps_fill {ev : AppendEvent} (ho : w.finished = false) (hr : Resolves w.dictionary ev.refs)
    {n : Nat} (hn : w.pendingEvents.length + n < 65535) (hseq : w.nextEventSeq.toNat + n < 2^64) :
    AllOk (runOps (List.replicate n (.append ev)) w d) ∧
      Filled n w (runOps (List.replicate n (.append ev)) w d).writer := by
  induction n generalizing w with
  | zero =>
    refine ⟨fun c hc => ?_, rfl, rfl, rfl, rfl, rfl⟩
    cases hc
  | succ n ih =>
    have hfull : ¬ UInt32.ofNat (w.pendingEvents.length + 1) ≥ maxEventsPerChunk := by
      rw [ge_iff_le, UInt32.not_le, UInt32.lt_iff_toNat_lt, UInt32.toNat_ofNat',
        Nat.mod_eq_of_lt (by omega)]
      show w.pendingEvents.length + 1 < 65535
      omega
    have hone : (appendEvent ev).run (w, d) = .ok w.nextEventSeq (w.pushed ev, d) := by
      rw [appendEvent_run ho, requireRefs_ok.mpr hr]
      dsimp only
      rw [if_pos (by omega), if_neg hfull]
    have hlen : (w.pushed ev).pendingEvents.length = w.pendingEvents.length + 1 := by
      rw [SessionWriter.pushed, List.length_append, List.length_singleton]
    have hnext : (w.pushed ev).nextEventSeq.toNat = w.nextEventSeq.toNat + 1 :=
      incr64_ok (show (incr64 w.nextEventSeq : Res Error UInt64) = _ from incr64_eq (by omega))
    obtain ⟨hall, hf⟩ := @ih (w.pushed ev) ho hr (by omega) (by omega)
    rw [List.replicate_succ, runOps, Op.exec, run_map, hone]
    refine ⟨allOk_cons.mpr ⟨⟨_, rfl⟩, hall⟩, hf.dictionary, hf.pendingDict, hf.finished, ?_, ?_⟩
    · have h1 := hf.pendingEvents
      show (runOps (List.replicate n (.append ev)) (w.pushed ev) d).writer.pendingEvents.length = _
      omega
    · have h1 := hf.nextEventSeq
      show (runOps (List.replicate n (.append ev)) (w.pushed ev) d).writer.nextEventSeq.toNat = _
      omega

/-- a session whose names are written -/
def namedSession : Session :=
  runOps [.intern .domain "net", .intern .category "rx", .intern .eventName "frame",
    .intern .string "raw", .flush] exampleStart.1 exampleStart.2

/-- and one event less than a chunk holds -/
def fullSession : Session :=
  runOps (List.replicate 65534 (.append (bytesEvent 7))) namedSession.writer namedSession.disk

/-- an event that fills the buffer and that no flush writes -/
theorem fails_full {ev : AppendEvent} (ho : w.finished = false) (hr : Resolves w.dictionary ev.refs)
    (hdict : w.pendingDict = []) (hlen : w.pendingEvents.length = 65534)
    (hseq : w.nextEventSeq.toNat + 1 < 2^64) (hunfit : ¬ ev.payload.Fits) :
    ∃ e s, (appendEvent ev).run (w, d) = .error (.error e) s ∧ s ≠ (w, d) := by
  have hrefused : Refused (dictBatch w ++ [.events (w.pushed ev).pendingEvents]) w.nextChunkSeq
      w.file d := by
    rw [dictBatch, if_pos hdict]
    refine .inl fun hc => ?_
    have hfits := hc.items _ (List.mem_append_right _ (List.mem_singleton_self _))
    exact hunfit hfits.1
  obtain ⟨e, s, hs, hne⟩ := flush_traces ho hseq hrefused
  refine ⟨e, s, ?_, hne⟩
  rw [appendEvent_run ho, requireRefs_ok.mpr hr, hlen]
  dsimp only
  rw [if_pos hseq, if_pos (by decide), hs]
  rfl

set_option maxRecDepth 20000 in
/-- a value of 4097 bytes as the event that fills the buffer: the append fails, and its number is gone -/
theorem append_lost : AllOk fullSession ∧
    ¬ ∀ e s, (appendEvent (bytesEvent 4097)).run (fullSession.writer, fullSession.disk)
      = .error (.error e) s → s = (fullSession.writer, fullSession.disk) := by
  have hopen : namedSession.writer.finished = false := by decide +kernel
  have hres : Resolves namedSession.writer.dictionary (bytesEvent 7).refs :=
    requireRefs_ok.mp (by decide +kernel)
  have hempty : namedSession.writer.pendingEvents.length = 0 := by decide +kernel
  have hdict : namedSession.writer.pendingDict = [] := by decide +kernel
  have hnext : namedSession.writer.nextEventSeq.toNat = 1 := by decide +kernel
  obtain ⟨hall, hf⟩ : AllOk fullSession ∧ Filled 65534 namedSession.writer fullSession.writer :=
    runOps_fill hopen hres (by omega) (by omega)
  have hrefs : (bytesEvent 4097).refs = (bytesEvent 7).refs := rfl
  generalize fullSession = s at hall hf ⊢
  refine ⟨hall, fun h => ?_⟩
  obtain ⟨e, s', hs, hne⟩ := @fails_full s.writer s.disk (bytesEvent 4097) (hf.finished.trans hopen)
    (by rw [hf.dictionary, hrefs]; exact hres) (hf.pendingDict.trans hdict)
    (by rw [hf.pendingEvents, hempty]) (by rw [hf.nextEventSeq, hnext]; norm_num) (by decide +kernel)
  exact hne (h e s' hs)

end Dtj
