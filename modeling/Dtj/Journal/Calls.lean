import Dtj.Journal.Ops

/-!
# What a call of a writer may do, whatever has failed before it

`Keeps` speaks of a writer until its disk fails.  Here are the facts that hold for every writer
and every schedule of faults:

* `BufWriter.Onward`      an operation on a file leaves the others alone, and only adds to its own;
* `SessionWriter.Onward`  a call of a writer does so too, and counts on by a few;
* `intern_moves`, `appendEvent_moves`, `flushChunk_moves`, `finish_onward`   **no call panics
  while its counters have room**.
-/

namespace Dtj
open Wire Checked

theorem Disk.writeAt_touches (path : String) (pos : Nat) (bs : Bytes) (d : Disk) :
    Touches path d (writeAt path pos bs d).2.2 := by
  unfold writeAt
  dsimp only
  split
  · exact .refl _ _
  · cases hc : d.faults d.clock with
    | some ft =>
      simp only [tick, hc]
      exact touches_put _ _ _
    | none =>
      simp only [tick, hc]
      exact touches_put _ _ _

namespace BufWriter

/-- the place that is written next is the end of the file -/
def AtEnd (w : BufWriter) (d : Disk) (f : Bytes) : Prop :=
  d.files w.path = some f ∧ w.pos = f.length

/-- what an operation may do: other files stay, and a file that is written at its end gets
longer -/
structure Onward (s s' : BufWriter × Disk) : Prop where
  path : s'.1.path = s.1.path
  touches : Disk.Touches s.1.path s.2 s'.2
  grows : ∀ f, s.1.AtEnd s.2 f → ∃ f', s'.1.AtEnd s'.2 f' ∧ f <+: f'

theorem Onward.refl (s : BufWriter × Disk) : Onward s s :=
  ⟨rfl, .refl _ _, fun f hf => ⟨f, hf, List.prefix_refl f⟩⟩

theorem Onward.trans {s s' s'' : BufWriter × Disk} (h : Onward s s') (h' : Onward s' s'') :
    Onward s s'' := by
  refine ⟨h'.path.trans h.path, h.touches.trans (h.path ▸ h'.touches), fun f hf => ?_⟩
  obtain ⟨f', hf', hp⟩ := h.grows f hf
  obtain ⟨f'', hf'', hp'⟩ := h'.grows f' hf'
  exact ⟨f'', hf'', hp.trans hp'⟩

/-- a write at the place of the writer, after which it is at the end of what it wrote -/
theorem onward_writeAt {w w' : BufWriter} {d : Disk} {bs : Bytes}
    (hp : w'.path = w.path) (hpos : w'.pos = w.pos + (Disk.writeAt w.path w.pos bs d).1) :
    Onward (w, d) (w', (Disk.writeAt w.path w.pos bs d).2.2) := by
  refine ⟨hp, Disk.writeAt_touches _ _ _ _, fun f hf => ?_⟩
  obtain ⟨hf, he⟩ := hf
  obtain ⟨n, e, d', hw, hn, hf', -, -, -⟩ := @Disk.writeAt_end w.path bs f d hf
  dsimp only at he
  rw [he, hw] at hpos
  refine ⟨f ++ bs.take n, ⟨?_, ?_⟩, List.prefix_append _ _⟩
  · rw [he, hw, hp]
    exact hf'
  · show w'.pos = _
    rw [hpos, List.length_append, List.length_take, Nat.min_eq_left hn]

theorem flushBuf_onward (s : BufWriter × Disk) : Ends True (Onward s) (flushBuf.run s) := by
  obtain ⟨w, d⟩ := s
  have h := @onward_writeAt w { w with
    pos := w.pos + (Disk.writeAt w.path w.pos w.buf d).1
    buf := w.buf.drop (Disk.writeAt w.path w.pos w.buf d).1 } d w.buf rfl rfl
  simp only [flushBuf, EStateM.run]
  generalize Disk.writeAt w.path w.pos w.buf d = r at h ⊢
  obtain ⟨n, e, d'⟩ := r
  cases e <;> exact h

theorem writeThrough_onward (data : Bytes) (s : BufWriter × Disk) :
    Ends True (Onward s) ((writeThrough data).run s) := by
  obtain ⟨w, d⟩ := s
  have h := @onward_writeAt w { w with pos := w.pos + (Disk.writeAt w.path w.pos data d).1 } d data
    rfl rfl
  simp only [writeThrough, EStateM.run]
  generalize Disk.writeAt w.path w.pos data d = r at h ⊢
  obtain ⟨n, e, d'⟩ := r
  cases e <;> exact h

theorem writeToBuffer_onward (data : Bytes) (s : BufWriter × Disk) :
    Ends True (Onward s) ((writeToBuffer data).run s) :=
  ⟨rfl, .refl _ _, fun f hf => ⟨f, hf, List.prefix_refl f⟩⟩

theorem writeTail_onward (data : Bytes) (s : BufWriter × Disk) :
    Ends True (Onward s)
      ((if data.length ≥ bufCapacity then writeThrough data else writeToBuffer data).run s) := by
  split
  · exact writeThrough_onward data s
  · exact writeToBuffer_onward data s

theorem writeAll_onward (data : Bytes) (s : BufWriter × Disk) :
    Ends True (Onward s) ((writeAll data).run s) := by
  simp only [writeAll, EStateM.run_bind, EStateM.run_get]
  by_cases hspare : data.length < s.1.spareCapacity
  · rw [if_pos hspare]
    exact writeToBuffer_onward data s
  rw [if_neg hspare]
  simp only [writeAllCold, EStateM.run_bind, EStateM.run_get]
  by_cases hfull : data.length > s.1.spareCapacity
  · rw [if_pos hfull]
    show Ends True (Onward s) ((flushBuf >>= fun _ => _).run s)
    refine (flushBuf_onward s).bind (fun _ h => h) fun _ s' _ h => ?_
    exact (writeTail_onward data s').mono id fun _ h' => h.trans h'
  · rw [if_neg hfull]
    exact writeTail_onward data s

/-- the drop of a writer is a flush of its buffer -/
theorem dropped_onward (w : BufWriter) (d : Disk) :
    ∃ w', Onward (w, d) (w', w.dropped d) := by
  have h := flushBuf_onward (w, d)
  unfold dropped
  cases hr : flushBuf.run (w, d) with
  | ok u s =>
    rw [hr] at h
    exact ⟨s.1, h⟩
  | error a s =>
    rw [hr] at h
    exact ⟨s.1, h.left⟩

end BufWriter

/-! ## the calls of a writer -/

namespace SessionWriter

/-- what a call may do: at most `c` chunks, `e` events and `i` names of a kind more -/
structure Onward (c e i : Nat) (s s' : SessionWriter × Disk) : Prop where
  file : BufWriter.Onward (s.1.file, s.2) (s'.1.file, s'.2)
  chunks : s'.1.nextChunkSeq.toNat ≤ s.1.nextChunkSeq.toNat + c
  events : s'.1.nextEventSeq.toNat ≤ s.1.nextEventSeq.toNat + e
  names : ∀ kind, (s'.1.dictionary.next kind).toNat ≤ (s.1.dictionary.next kind).toNat + i

theorem Onward.refl (c e i : Nat) (s : SessionWriter × Disk) : Onward c e i s s :=
  ⟨.refl _, Nat.le_add_right _ _, Nat.le_add_right _ _, fun _ => Nat.le_add_right _ _⟩

theorem Onward.trans {c e i c' e' i' : Nat} {s s' s'' : SessionWriter × Disk}
    (h : Onward c e i s s') (h' : Onward c' e' i' s' s'') :
    Onward (c + c') (e + e') (i + i') s s'' where
  file := h.file.trans h'.file
  chunks := by have := h.chunks; have := h'.chunks; omega
  events := by have := h.events; have := h'.events; omega
  names kind := by have := h.names kind; have := h'.names kind; omega

theorem Onward.mono {c e i c' e' i' : Nat} {s s' : SessionWriter × Disk} (h : Onward c e i s s')
    (hc : c ≤ c') (he : e ≤ e') (hi : i ≤ i') : Onward c' e' i' s s' where
  file := h.file
  chunks := by have := h.chunks; omega
  events := by have := h.events; omega
  names kind := by have := h.names kind; omega

/-- the writer is still open, and has moved on -/
def Moves (c e i : Nat) (s s' : SessionWriter × Disk) : Prop :=
  Onward c e i s s' ∧ s'.1.finished = s.1.finished

theorem Moves.refl (c e i : Nat) (s : SessionWriter × Disk) : Moves c e i s s :=
  ⟨.refl _ _ _ _, rfl⟩

theorem Moves.trans {c e i c' e' i' : Nat} {s s' s'' : SessionWriter × Disk}
    (h : Moves c e i s s') (h' : Moves c' e' i' s' s'') :
    Moves (c + c') (e + e') (i + i') s s'' := ⟨h.1.trans h'.1, h'.2.trans h.2⟩

theorem Moves.mono {c e i c' e' i' : Nat} {s s' : SessionWriter × Disk} (h : Moves c e i s s')
    (hc : c ≤ c') (he : e ≤ e') (hi : i ≤ i') : Moves c' e' i' s s' := ⟨h.1.mono hc he hi, h.2⟩

/-- a call on the file of the writer -/
theorem onFile_moves {α : Type} {p : Prog (BufWriter × Disk) Error α} {s : SessionWriter × Disk}
    (hp : Ends True (BufWriter.Onward (s.1.file, s.2)) (p.run (s.1.file, s.2))) :
    Ends True (Moves 0 0 0 s) ((onFile p).run s) := by
  have hm : ∀ f d, BufWriter.Onward (s.1.file, s.2) (f, d) →
      Moves 0 0 0 s ({ s.1 with file := f }, d) := fun f d h =>
    ⟨⟨h, le_refl _, le_refl _, fun _ => le_refl _⟩, rfl⟩
  rw [onFile_run]
  cases hr : p.run (s.1.file, s.2) with
  | ok a t =>
    rw [hr] at hp
    exact hm _ _ hp
  | error a t =>
    rw [hr] at hp
    cases a with
    | error e => exact hm _ _ hp
    | panic => exact ⟨hm _ _ hp.1, hp.2⟩
    | diverge => exact ⟨hm _ _ hp.1, hp.2⟩

/-- an update of what the counters do not read -/
theorem update_moves {f : SessionWriter → SessionWriter} {s : SessionWriter × Disk}
    (h : Moves 0 0 0 s (f s.1, s.2)) : Ends True (Moves 0 0 0 s) ((update f).run s) := h

theorem encodeCommittedChunk_safe (ty : UInt16) (seq : UInt64) (payload : Bytes) :
    Safe (fun _ => True) (encodeCommittedChunk ty seq payload) := by
  cases h : encodeCommittedChunk ty seq payload with
  | ok bytes => trivial
  | error a =>
    rw [encodeCommittedChunk_error h]
    trivial

theorem commitChunk_moves (ty : UInt16) (payload : Except Error Bytes) (s : SessionWriter × Disk) :
    Ends (s.1.nextChunkSeq.toNat + 1 < 2^64) (Moves 1 0 0 s) ((commitChunk ty payload).run s) := by
  have here : Moves 1 0 0 s s := .refl _ _ _ _
  simp only [commitChunk, EStateM.run_bind, EStateM.run_get]
  cases payload with
  | error e => exact here
  | ok out =>
    simp only [lift_ok, Prog.of_ok]
    have hsafe := encodeCommittedChunk_safe ty s.1.nextChunkSeq out
    cases hc : encodeCommittedChunk ty s.1.nextChunkSeq out with
    | error a =>
      rw [encodeCommittedChunk_error hc]
      exact here
    | ok bytes =>
      simp only [Prog.of_ok]
      have hfile := onFile_moves (BufWriter.writeAll_onward bytes (s.1.file, s.2))
      cases hr : (onFile (BufWriter.writeAll bytes)).run s with
      | error a t =>
        rw [hr] at hfile
        exact hfile.mono (fun _ => trivial) fun _ h => h.mono (Nat.zero_le _) (le_refl _) (le_refl _)
      | ok u t =>
        rw [hr] at hfile
        have hmove : Moves 1 0 0 s t := Moves.mono hfile (Nat.zero_le _) (le_refl _) (le_refl _)
        by_cases hs : s.1.nextChunkSeq.toNat + 1 < 2^64
        · have hincr : (incr64 s.1.nextChunkSeq : Res Error UInt64) = .ok (s.1.nextChunkSeq + 1) :=
            incr64_eq hs
          simp only [hincr, Prog.of_ok]
          refine ⟨⟨hfile.1.file, ?_, hfile.1.events, hfile.1.names⟩, hfile.2⟩
          show (s.1.nextChunkSeq + 1).toNat ≤ _
          rw [incr64_ok hincr]
        · have hincr : (incr64 s.1.nextChunkSeq : Res Error UInt64) = crash := if_neg hs
          simp only [hincr, Prog.of_crash]
          exact ⟨hmove, hs⟩

/-- one half of a flush -/
theorem commitClear_moves (ty : UInt16) (payload : Except Error Bytes)
    {clear : SessionWriter → SessionWriter}
    (hclear : ∀ s : SessionWriter × Disk, Moves 0 0 0 s (clear s.1, s.2)) (s : SessionWriter × Disk) :
    Ends (s.1.nextChunkSeq.toNat + 1 < 2^64) (Moves 1 0 0 s)
      ((commitChunk ty payload >>= fun _ => update clear).run s) := by
  refine (commitChunk_moves ty payload s).bind (fun _ h => h) fun _ s' _ h => ?_
  exact (update_moves (hclear s')).mono (fun _ => trivial) fun _ h' => h.trans h'

theorem flushDict_moves (s : SessionWriter × Disk) :
    Ends (s.1.nextChunkSeq.toNat + 1 < 2^64) (Moves 1 0 0 s) (flushDict.run s) := by
  simp only [flushDict, EStateM.run_bind, EStateM.run_get]
  split
  · exact commitClear_moves _ _ (fun _ => ⟨⟨.refl _, le_refl _, le_refl _, fun _ => le_refl _⟩, rfl⟩) s
  · exact Moves.refl _ _ _ _

theorem flushEvents_moves (s : SessionWriter × Disk) :
    Ends (s.1.nextChunkSeq.toNat + 1 < 2^64) (Moves 1 0 0 s) (flushEvents.run s) := by
  simp only [flushEvents, EStateM.run_bind, EStateM.run_get]
  split
  · exact commitClear_moves _ _ (fun _ => ⟨⟨.refl _, le_refl _, le_refl _, fun _ => le_refl _⟩, rfl⟩) s
  · exact Moves.refl _ _ _ _

theorem ensureOpen_moves (s : SessionWriter × Disk) :
    Ends True (Moves 0 0 0 s) (ensureOpen.run s) := by
  simp only [ensureOpen, EStateM.run_bind, EStateM.run_get]
  split
  · exact Moves.refl _ _ _ _
  · exact Moves.refl _ _ _ _

theorem flushFile_moves (s : SessionWriter × Disk) :
    Ends True (Moves 0 0 0 s) ((onFile BufWriter.flush).run s) :=
  onFile_moves (BufWriter.flushBuf_onward _)

/-- **a flush counts on by two chunks at most** -/
theorem flushChunk_moves (s : SessionWriter × Disk) :
    Ends (s.1.nextChunkSeq.toNat + 2 < 2^64) (Moves 2 0 0 s) (flushChunk.run s) := by
  have weaken : ∀ {c : Nat} {t : SessionWriter × Disk}, c ≤ 2 → Moves c 0 0 s t → Moves 2 0 0 s t :=
    fun hc h => h.mono hc (le_refl _) (le_refl _)
  unfold flushChunk
  refine ((ensureOpen_moves s).mono (fun _ => trivial) fun _ h => h).bind
    (fun _ => weaken (by omega)) fun _ s₁ _ h₁ => ?_
  have hs₁ := h₁.1.chunks
  refine ((flushDict_moves s₁).mono (by omega) fun _ h => h₁.trans h).bind
    (fun _ => weaken (by omega)) fun _ s₂ _ h₂ => ?_
  have hs₂ := h₂.1.chunks
  refine ((flushEvents_moves s₂).mono (by omega) fun _ h => h₂.trans h).bind
    (fun _ => weaken (by omega)) fun _ s₃ _ h₃ => ?_
  exact (flushFile_moves s₃).mono (fun _ => trivial) fun _ h => weaken (by omega) (h₃.trans h)

theorem finish_onward (s : SessionWriter × Disk) :
    Ends (s.1.nextChunkSeq.toNat + 2 < 2^64) (Onward 2 0 0 s) (finish.run s) := by
  simp only [finish, EStateM.run_bind, EStateM.run_get]
  split
  · exact Onward.refl _ _ _ _
  show Ends _ (Onward 2 0 0 s) ((flushChunk >>= fun _ => onFile BufWriter.flush >>= fun _ => _).run s)
  refine (flushChunk_moves s).bind (fun _ h => h.1) fun _ s₁ _ h₁ => ?_
  refine ((flushFile_moves s₁).mono (fun _ => trivial) fun _ h => h₁.trans h).bind
    (fun _ h => h.1) fun _ s₂ _ h₂ => ?_
  exact ⟨h₂.1.file, h₂.1.chunks, h₂.1.events, h₂.1.names⟩

/-- **`append_event` counts on by one event**, and by the chunks of a flush -/
theorem appendEvent_moves (ev : AppendEvent) (s : SessionWriter × Disk) :
    Ends (s.1.nextChunkSeq.toNat + 2 < 2^64 ∧ s.1.nextEventSeq.toNat + 1 < 2^64) (Moves 2 1 0 s)
      ((appendEvent ev).run s) := by
  obtain ⟨w, d⟩ := s
  have here : Moves 2 1 0 (w, d) (w, d) := .refl _ _ _ _
  cases ho : w.finished with
  | true =>
    rw [appendEvent, EStateM.run_bind]
    simp only [ensureOpen, EStateM.run_bind, EStateM.run_get, ho]
    exact here
  | false =>
    rw [appendEvent_run ho]
    cases requireRefs w.dictionary ev.domainId ev.categoryId ev.eventNameId ev.correlationId
      ev.payload with
    | error e => exact here
    | ok u =>
      dsimp only
      by_cases he : w.nextEventSeq.toNat + 1 < 2^64
      · have hpush : Moves 0 1 0 (w, d) (w.pushed ev, d) := by
          refine ⟨⟨.refl _, le_refl _, ?_, fun _ => le_refl _⟩, rfl⟩
          show (w.nextEventSeq + 1).toNat ≤ _
          have hincr : (incr64 w.nextEventSeq : Res Error UInt64) = .ok (w.nextEventSeq + 1) :=
            incr64_eq he
          rw [incr64_ok hincr]
        rw [if_pos he]
        split
        · refine Ends.map ?_ _
          exact (flushChunk_moves (w.pushed ev, d)).mono (fun h => h.1) fun _ h => hpush.trans h
        · exact hpush.mono (by omega) (le_refl _) (le_refl _)
      · rw [if_neg he]
        exact ⟨here, fun h => he h.2⟩

/-- **`intern` counts on by one name** -/
theorem intern_moves (kind : DictKind) (name : String) (s : SessionWriter × Disk) :
    Ends ((s.1.dictionary.next kind).toNat + 1 < 2^32) (Moves 0 0 1 s) ((intern kind name).run s) := by
  obtain ⟨w, d⟩ := s
  have here : Moves 0 0 1 (w, d) (w, d) := .refl _ _ _ _
  have named : ∀ dict es, (∀ k, (dict.next k).toNat ≤ (w.dictionary.next k).toNat + 1) →
      Moves 0 0 1 (w, d) ({ w with dictionary := dict, pendingDict := es }, d) := fun dict es h =>
    ⟨⟨.refl _, le_refl _, le_refl _, h⟩, rfl⟩
  cases ho : w.finished with
  | true =>
    rw [intern, EStateM.run_bind]
    simp only [ensureOpen, EStateM.run_bind, EStateM.run_get, ho]
    exact here
  | false =>
    have hcases := Dictionary.intern_cases w.dictionary kind name
    rw [intern_run ho]
    generalize (Dictionary.intern kind name).run w.dictionary = r at hcases ⊢
    cases hcases with
    | old hid => exact here
    | @new id dict hid hi hmax hd =>
      refine named _ _ fun k => ?_
      rw [(Dictionary.insert_ok.mp hd).2.2.2]
      exact Dictionary.counted_next hmax k
    | long hlen => exact here
    | refused hmax herr => exact named _ w.pendingDict (Dictionary.counted_next hmax)
    | overflow hmax =>
      refine ⟨here, ?_⟩
      dsimp only
      omega

end SessionWriter

end Dtj
