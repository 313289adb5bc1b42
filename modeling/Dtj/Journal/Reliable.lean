import Dtj.Journal.Limits

/-!
# A flush on a disk that works

Whatever is at the path of the writer: only the encoders can refuse a flush.

* `Put`      what committing one batch may end with;
* `Tried`    **a flush succeeds exactly when what is pending is accepted by the encoders**.
-/

namespace Dtj
open Wire Checked SessionWriter

variable {w : SessionWriter} {d : Disk}

theorem Disk.writeAt_reliable (hd : d.Reliable) (path : String) (pos : Nat) (bs : Bytes) :
    ∃ n d', Disk.writeAt path pos bs d = (n, none, d') ∧ d'.Reliable := by
  unfold Disk.writeAt
  by_cases hbs : bs = []
  · rw [if_pos hbs]
    exact ⟨0, d, rfl, hd⟩
  · rw [if_neg hbs]
    simp only [Disk.tick, hd d.clock]
    exact ⟨_, _, rfl, fun n => hd n⟩

namespace BufWriter

/-- an operation that cannot fail -/
def Succeeds (p : Prog (BufWriter × Disk) Error Unit) : Prop :=
  ∀ w d, d.Reliable → ∃ w' d', p.run (w, d) = .ok () (w', d') ∧ d'.Reliable

theorem flushBuf_succeeds : Succeeds flushBuf := by
  intro w d hd
  obtain ⟨n, d', hw, hd'⟩ := Disk.writeAt_reliable hd w.path w.pos w.buf
  simp only [flushBuf, EStateM.run, hw]
  exact ⟨_, d', rfl, hd'⟩

theorem writeThrough_succeeds (data : Bytes) : Succeeds (writeThrough data) := by
  intro w d hd
  obtain ⟨n, d', hw, hd'⟩ := Disk.writeAt_reliable hd w.path w.pos data
  simp only [writeThrough, EStateM.run, hw]
  exact ⟨_, d', rfl, hd'⟩

theorem writeToBuffer_succeeds (data : Bytes) : Succeeds (writeToBuffer data) :=
  fun _ _ hd => ⟨_, _, rfl, hd⟩

theorem writeTail_succeeds (data : Bytes) :
    Succeeds (if data.length ≥ bufCapacity then writeThrough data else writeToBuffer data) := by
  split
  · exact writeThrough_succeeds data
  · exact writeToBuffer_succeeds data

theorem writeAll_succeeds (data : Bytes) : Succeeds (writeAll data) := by
  intro w d hd
  simp only [writeAll, EStateM.run_bind, EStateM.run_get]
  split
  · exact writeToBuffer_succeeds data w d hd
  · simp only [writeAllCold, EStateM.run_bind, EStateM.run_get]
    split
    · obtain ⟨w₁, d₁, hrun, hd₁⟩ := flushBuf_succeeds w d hd
      rw [EStateM.run_bind, hrun]
      exact writeTail_succeeds data w₁ d₁ hd₁
    · exact writeTail_succeeds data w d hd

end BufWriter

theorem onFile_succeeds {p : Prog (BufWriter × Disk) Error Unit} (hp : BufWriter.Succeeds p)
    (hd : d.Reliable) : ∃ f d', (onFile p).run (w, d) = .ok () ({ w with file := f }, d') ∧
      d'.Reliable := by
  obtain ⟨f, d', hrun, hd'⟩ := hp w.file d hd
  rw [onFile_run, hrun]
  exact ⟨f, d', rfl, hd'⟩

/-- what committing a batch may end with -/
inductive Put (w : SessionWriter) (d : Disk) (b : Batch) :
    EStateM.Result (Abort Error) (SessionWriter × Disk) Unit → Prop
  | written {f seq d'} (hb : b.Committable) (hd : d'.Reliable) :
      Put w d b (.ok () (w.wrote f seq, d'))
  | refused {e} (hb : ¬ b.Committable) : Put w d b (.error (.error e) (w, d))
  | overflow {s} : Put w d b (.error .panic s)

theorem commitChunk_put (hd : d.Reliable) (b : Batch) :
    Put w d b ((commitChunk b.chunkType b.encode).run (w, d)) := by
  simp only [commitChunk, EStateM.run_bind, EStateM.run_get]
  cases he : b.encode with
  | error e =>
    refine .refused fun hb => ?_
    rw [Batch.encode_ok.mpr ⟨hb.count, hb.items, rfl⟩] at he
    cases he
  | ok out =>
    obtain ⟨hcount, hitems, rfl⟩ := Batch.encode_ok.mp he
    simp only [lift_ok, Prog.of_ok]
    cases hc : encodeCommittedChunk b.chunkType w.nextChunkSeq b.payload with
    | error e =>
      rw [encodeCommittedChunk_error hc]
      refine .refused fun hb => ?_
      rw [encodeCommittedChunk_ok.mpr ⟨hb.payload, rfl⟩] at hc
      cases hc
    | ok bytes =>
      have hb : b.Committable := ⟨hcount, hitems, (encodeCommittedChunk_ok.mp hc).1⟩
      obtain ⟨f, d', hrun, hd'⟩ := @onFile_succeeds w d _ (BufWriter.writeAll_succeeds bytes) hd
      simp only [Prog.of_ok, hrun]
      cases hincr : (incr64 w.nextChunkSeq : Res Error UInt64) with
      | ok seq =>
        simp only [Prog.of_ok, update_run]
        exact .written hb hd'
      | error a =>
        have ha : a = .panic := by
          unfold incr64 at hincr
          split at hincr <;> cases hincr
          rfl
        rw [ha]
        exact .overflow

/-- what a flush may end with: it is refused when the encoders refuse a pending batch, and keeps
the events -/
inductive Tried (w : SessionWriter) :
    EStateM.Result (Abort Error) (SessionWriter × Disk) Unit → Prop
  | done {f seq d'} (hr : Ready w) (hd : d'.Reliable) : Tried w (.ok () (w.flushed f seq, d'))
  | refused {e w' d'} (hr : ¬ Ready w) (hevs : w'.pendingEvents = w.pendingEvents)
      (ho : w'.finished = w.finished) (hd : d'.Reliable) : Tried w (.error (.error e) (w', d'))
  | overflow {s} : Tried w (.error .panic s)

/-- the events, and the flush of the file -/
theorem flushRest_tried {f : BufWriter} {seq : UInt64} (hd : d.Reliable)
    (hdict : ∀ b ∈ dictBatch w, b.Committable) :
    Tried w ((flushEvents >>= fun _ => onFile BufWriter.flush).run (w.halfFlushed f seq, d)) := by
  -- the flush of the file, after the events
  have last : ∀ {f' : BufWriter} {seq' : UInt64} {d' : Disk}, d'.Reliable → Ready w →
      Tried w ((onFile BufWriter.flush).run (w.flushed f' seq', d')) := by
    intro f' seq' d' hd' hr
    obtain ⟨f'', d'', hrun, hd''⟩ :=
      @onFile_succeeds (w.flushed f' seq') d' _ BufWriter.flushBuf_succeeds hd'
    rw [BufWriter.flush, hrun]
    exact .done hr hd''
  rw [EStateM.run_bind]
  by_cases hpe : w.pendingEvents = []
  · have hrun := @flushEvents_none (w.halfFlushed f seq) d hpe
    have hself : w.halfFlushed f seq = w.flushed f seq := by
      unfold SessionWriter.halfFlushed SessionWriter.flushed
      rw [← hpe]
    have hr : Ready w := by
      intro b hb
      rw [show eventBatch w = [] from if_pos hpe, List.append_nil] at hb
      exact hdict b hb
    rw [hrun, hself]
    exact last hd hr
  · have hrun : flushEvents.run (w.halfFlushed f seq, d)
        = (commitChunk (Batch.events w.pendingEvents).chunkType (Batch.events w.pendingEvents).encode
          >>= fun _ => update clearEvents).run (w.halfFlushed f seq, d) := flushEvents_run hpe
    have hmem : Batch.events w.pendingEvents ∈ dictBatch w ++ eventBatch w := by
      refine List.mem_append_right _ ?_
      rw [eventBatch, if_neg hpe]
      exact List.mem_singleton_self _
    have hput := @commitChunk_put (w.halfFlushed f seq) d hd (.events w.pendingEvents)
    rw [hrun, EStateM.run_bind]
    generalize (commitChunk (Batch.events w.pendingEvents).chunkType
      (Batch.events w.pendingEvents).encode).run (w.halfFlushed f seq, d) = res at hput ⊢
    cases hput with
    | written hb hd' =>
      refine last hd' fun b hbm => ?_
      rw [eventBatch, if_neg hpe] at hbm
      rcases List.mem_append.mp hbm with hbm | hbm
      · exact hdict b hbm
      · rw [List.mem_singleton.mp hbm]
        exact hb
    | refused hb => exact .refused (fun hr => hb (hr _ hmem)) rfl rfl hd
    | overflow => exact .overflow

/-- **a flush of an open writer** -/
theorem flushChunk_tried (ho : w.finished = false) (hd : d.Reliable) :
    Tried w (flushChunk.run (w, d)) := by
  have hrun : flushChunk.run (w, d) = match flushDict.run (w, d) with
      | .ok _ s => (flushEvents >>= fun _ => onFile BufWriter.flush).run s
      | .error e s => .error e s := by
    rw [flushChunk, EStateM.run_bind, ensureOpen_run ho]
    show (flushDict >>= fun _ => flushEvents >>= fun _ => onFile BufWriter.flush).run (w, d) = _
    rw [EStateM.run_bind]
    cases flushDict.run (w, d) <;> rfl
  rw [hrun]
  by_cases hp : w.pendingDict = []
  · have hskip : flushDict.run (w, d) = .ok () (w.halfFlushed w.file w.nextChunkSeq, d) := by
      rw [flushDict_none hp, halfFlushed_self hp]
    rw [hskip]
    refine flushRest_tried hd fun b hb => ?_
    rw [dictBatch, if_pos hp] at hb
    cases hb
  · have hmem : Batch.dict w.pendingDict ∈ dictBatch w ++ eventBatch w := by
      refine List.mem_append_left _ ?_
      rw [dictBatch, if_neg hp]
      exact List.mem_singleton_self _
    have hput := @commitChunk_put w d hd (.dict w.pendingDict)
    rw [flushDict_run hp, EStateM.run_bind]
    generalize (commitChunk (Batch.dict w.pendingDict).chunkType
      (Batch.dict w.pendingDict).encode).run (w, d) = res at hput ⊢
    cases hput with
    | @written f seq d' hb hd' =>
      show Tried w ((flushEvents >>= fun _ => onFile BufWriter.flush).run (w.halfFlushed f seq, d'))
      refine flushRest_tried hd' fun b hbm => ?_
      rw [dictBatch, if_neg hp] at hbm
      rw [List.mem_singleton.mp hbm]
      exact hb
    | refused hb => exact .refused (fun hr => hb (hr _ hmem)) rfl rfl hd
    | overflow => exact .overflow

end Dtj
