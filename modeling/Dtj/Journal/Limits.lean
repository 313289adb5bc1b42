import Dtj.Journal.Session

/-!
# Limits that only a flush checks

`append_event` and `intern` take items that no flush will write: the lengths of BYTES values and
of payloads, the entries of a chunk and its bytes are checked by the encoders, which run at the
flush.

* `Batch.Within`          the limits of the format for a chunk;
* `batchesOf`             the chunks that a run asks for;
* `accepted_iff`          **what was accepted can be written exactly when these are within the
  limits**;
* `oversized_poisons`     a value that is accepted and that no flush writes.
-/

namespace Dtj
open Wire Checked SessionWriter

/-- the limits of the format, without the casts of the encoders -/
structure Batch.Within (b : Batch) : Prop where
  count : b.count ≤ 65535
  items : b.ItemsFit
  payload : b.payload.length ≤ 16777216

instance (b : Batch) : Decidable b.Within :=
  decidable_of_iff (b.count ≤ 65535 ∧ b.ItemsFit ∧ b.payload.length ≤ 16777216)
    ⟨fun h => ⟨h.1, h.2.1, h.2.2⟩, fun h => ⟨h.count, h.items, h.payload⟩⟩

/-- the casts to `u32` lose nothing below 4 GiB -/
theorem Batch.within_iff {b : Batch} (h : b.payload.length < 2^32) : b.Within ↔ b.Committable := by
  have hcount : b.count % 2^32 = b.count := by
    have := b.count_le
    have := b.payload_length
    exact Nat.mod_eq_of_lt (by omega)
  have hlen : b.payload.length % 2^32 = b.payload.length := Nat.mod_eq_of_lt h
  constructor
  · rintro ⟨hc, hi, hp⟩
    exact ⟨by rwa [hcount], hi, by rwa [hlen]⟩
  · rintro ⟨hc, hi, hp⟩
    exact ⟨by rwa [hcount] at hc, hi, by rwa [hlen] at hp⟩

theorem Batch.Within.committable {b : Batch} (h : b.Within) : b.Committable :=
  (Batch.within_iff (lt_of_le_of_lt h.payload (by norm_num))).mp h

/-- there are no more chunks than bytes -/
theorem length_le_boundary (bs : List Batch) : 32 * bs.length ≤ boundary bs bs.length := by
  induction bs with
  | nil => exact le_refl _
  | cons b bs ih =>
    rw [List.length_cons, boundary_cons, Batch.size]
    omega

/-! ## a run whose calls were all accepted -/

def AllOk (s : Session) : Prop := ∀ c ∈ s.calls, ∃ a, c.2 = .ok a

/-- the chunks that a run asks for, up to a call that fails -/
def batchesOf : List Op → SessionWriter → Disk → List Batch
  | [], _, _ => []
  | op :: ops, w, d => op.batches w ++ match op.exec.run (w, d) with
    | .ok _ (w, d) => batchesOf ops w d
    | .error _ _ => []

variable {hdr : Bytes} {bs : List Batch} {w : SessionWriter} {d : Disk} {r : Record}

theorem allOk_cons {c : Call} {s : Session} :
    AllOk (s.cons c) ↔ (∃ a, c.2 = .ok a) ∧ AllOk s := by
  unfold AllOk
  exact List.forall_mem_cons

/-- the first of the calls, when all were accepted -/
theorem exec_of_allOk {op : Op} {ops : List Op} (h : AllOk (runOps (op :: ops) w d)) :
    ∃ a w' d', op.exec.run (w, d) = .ok a (w', d') ∧ AllOk (runOps ops w' d') := by
  rw [runOps] at h
  cases hr : op.exec.run (w, d) with
  | ok a s =>
    obtain ⟨w', d'⟩ := s
    rw [hr] at h
    exact ⟨a, w', d', rfl, (allOk_cons.mp h).2⟩
  | error e s =>
    obtain ⟨w', d'⟩ := s
    rw [hr] at h
    dsimp only at h
    split at h
    · obtain ⟨a, ha⟩ := h _ (List.mem_singleton_self _)
      cases ha
    · obtain ⟨a, ha⟩ := (allOk_cons.mp h).1
      cases ha

/-- a call other than `finish` leaves the writer open -/
theorem exec_finished (h : Records hdr bs w d r.entries r.events) (ho : w.finished = false)
    {op : Op} (hop : op ≠ .finish) {a : Answer} {w' : SessionWriter} {d' : Disk}
    (hr : op.exec.run (w, d) = .ok a (w', d')) : w'.finished = false := by
  obtain ⟨v, hk⟩ := h.keeps
  cases op with
  | intern kind name =>
    rw [Op.exec, run_map, intern_run ho] at hr
    cases hi : (Dictionary.intern kind name).run w.dictionary with
    | ok x dict =>
      obtain ⟨id, newly⟩ := x
      rw [hi] at hr
      cases newly <;> (cases hr; exact ho)
    | error e dict => rw [hi] at hr; cases hr
  | append ev =>
    rw [Op.exec, run_map, appendEvent_run ho] at hr
    cases hreq : requireRefs w.dictionary ev.domainId ev.categoryId ev.eventNameId
      ev.correlationId ev.payload with
    | error e => rw [hreq] at hr; cases hr
    | ok u =>
      rw [hreq] at hr
      dsimp only at hr
      split at hr
      · rename_i hseq
        split at hr
        · cases hf : flushChunk.run (w.pushed ev, d) with
          | error e s => rw [hf] at hr; cases hr
          | ok u s =>
            rw [hf] at hr
            cases hr
            exact (flushChunk_ok (hk.pushed (requireRefs_ok.mp hreq) hseq) ho hf).2.2
        · cases hr
          exact ho
      · cases hr
  | flush =>
    rw [Op.exec, run_map] at hr
    cases hf : flushChunk.run (w, d) with
    | error e s => rw [hf] at hr; cases hr
    | ok u s =>
      rw [hf] at hr
      cases hr
      exact (flushChunk_ok hk ho hf).2.2
  | finish => exact absurd rfl hop

/-- `flush_chunk` or `finish`: the calls that write all that is pending -/
def Op.Seals (op : Op) : Prop := op = .flush ∨ op = .finish

theorem Op.Seals.batches {op : Op} (h : op.Seals) : op.batches w = dictBatch w ++ eventBatch w := by
  rcases h with rfl | rfl <;> rfl

theorem exec_seals_ok (h : Records hdr bs w d r.entries r.events) (ho : w.finished = false) {op : Op}
    (hop : op.Seals) {a : Answer} {w' : SessionWriter} {d' : Disk}
    (hr : op.exec.run (w, d) = .ok a (w', d')) : Ready w ∧ Synced w' := by
  obtain ⟨v, hk⟩ := h.keeps
  rcases hop with rfl | rfl
  · rw [Op.exec, run_map] at hr
    cases hf : flushChunk.run (w, d) with
    | error e s => rw [hf] at hr; cases hr
    | ok u s =>
      rw [hf] at hr
      cases hr
      have := flushChunk_ok hk ho hf
      exact ⟨this.1, this.2.1⟩
  · rw [Op.exec, run_map] at hr
    cases hf : SessionWriter.finish.run (w, d) with
    | error e s => rw [hf] at hr; cases hr
    | ok u s =>
      rw [hf] at hr
      cases hr
      exact finish_ok hk ho hf

theorem exec_seals_ready (h : Records hdr bs w d r.entries r.events) (ho : w.finished = false)
    (hd : d.Reliable) (hseq : w.nextChunkSeq.toNat + 2 < 2^64) {op : Op} (hop : op.Seals)
    (hr : Ready w) : ∃ a w' d', op.exec.run (w, d) = .ok a (w', d') := by
  obtain ⟨v, hk⟩ := h.keeps
  rcases hop with rfl | rfl
  · obtain ⟨⟨w', d'⟩, hf⟩ := flushChunk_ready hk ho hd hseq hr
    exact ⟨_, w', d', by rw [Op.exec, run_map, hf]; rfl⟩
  · obtain ⟨⟨w', d'⟩, hf⟩ := finish_ready hk ho hd hseq hr
    exact ⟨_, w', d', by rw [Op.exec, run_map, hf]; rfl⟩

/-- the file at the path shows the record, and nothing else -/
structure Readable (path : String) (d : Disk) (r : Record) : Prop where
  shows : ∃ file rd, d.files path = some file ∧ SessionReader.open file = .ok rd ∧
    rd.tornTail = false ∧ rd.events = r.events ∧
    ∀ kind id name, rd.dictionary.getName kind id = some name ↔ ⟨kind, id, name⟩ ∈ r.entries

/-- the last call of a run, which is to write all that is pending -/
theorem sealed_iff {header : FileHeader} (he : header.encode = .ok hdr)
    (h : Records hdr bs w d r.entries r.events) (ho : w.finished = false) (hd : d.Reliable) {op : Op}
    (hop : op.Seals)
    (h64 : 128 + boundary (bs ++ op.batches w) (bs ++ op.batches w).length < 2^64) :
    ((∀ b ∈ bs ++ op.batches w, b.Within) → AllOk (runOps [op] w d) ∧
      Readable w.file.path (runOps [op] w d).disk ((runOps [op] w d).calls.foldl Record.call r)) ∧
    (AllOk (runOps [op] w d) → (∀ b ∈ bs ++ op.batches w, b.payload.length < 2^32) →
      ∀ b ∈ bs ++ op.batches w, b.Within) := by
  have hstep := exec_record h op
  obtain ⟨v, hk⟩ := h.keeps
  constructor
  · intro hw
    have hseq : w.nextChunkSeq.toNat + 2 < 2^64 := by
      have hle := length_le_boundary (bs ++ op.batches w)
      have hlen : (bs ++ op.batches w).length = bs.length + (op.batches w).length :=
        List.length_append
      have hchunk := hk.chunkSeq
      omega
    have hready : Ready w := fun b hb =>
      (hw b (List.mem_append_right _ (hop.batches ▸ hb))).committable
    obtain ⟨a, w', d', hrun⟩ := exec_seals_ready h ho hd hseq hop hready
    have hs : runOps [op] w d = ⟨[(op, .ok a)], w', d', false⟩ := by
      rw [runOps, hrun]
      rfl
    rw [hrun] at hstep
    cases hstep with
    | ok hr hp ht =>
      rw [hs]
      refine ⟨?_, ?_⟩
      · intro c hc
        rw [List.mem_singleton.mp hc]
        exact ⟨a, rfl⟩
      · obtain ⟨file, rd, hf, hread⟩ := hr.read (exec_seals_ok h ho hop hrun).2 he
          (fun b hb => (hw b hb).payload) h64
        exact ⟨file, rd, hp ▸ hf, hread⟩
  · intro hall hsmall b hb
    refine (Batch.within_iff (hsmall b hb)).mpr ?_
    obtain ⟨a, w', d', hrun, -⟩ := exec_of_allOk hall
    rcases List.mem_append.mp hb with hb | hb
    · exact (hk.batches b hb).1
    · exact (exec_seals_ok h ho hop hrun).1 b (hop.batches ▸ hb)

/-- the same for a whole run, by induction on its calls -/
theorem sealed_run {header : FileHeader} (he : header.encode = .ok hdr)
    (h : Records hdr bs w d r.entries r.events) (ho : w.finished = false) (hd : d.Reliable)
    {ops : List Op} (hops : .finish ∉ ops) (hall : AllOk (runOps ops w d)) {op : Op} (hop : op.Seals)
    (h64 : 128 + boundary (bs ++ batchesOf (ops ++ [op]) w d)
      (bs ++ batchesOf (ops ++ [op]) w d).length < 2^64) :
    ((∀ b ∈ bs ++ batchesOf (ops ++ [op]) w d, b.Within) → AllOk (runOps (ops ++ [op]) w d) ∧
      Readable w.file.path (runOps (ops ++ [op]) w d).disk
        ((runOps (ops ++ [op]) w d).calls.foldl Record.call r)) ∧
    (AllOk (runOps (ops ++ [op]) w d) →
      (∀ b ∈ bs ++ batchesOf (ops ++ [op]) w d, b.payload.length < 2^32) →
      ∀ b ∈ bs ++ batchesOf (ops ++ [op]) w d, b.Within) := by
  induction ops generalizing bs w d r with
  | nil =>
    have hb : batchesOf [op] w d = op.batches w := by
      rw [batchesOf]
      cases op.exec.run (w, d) <;> exact List.append_nil _
    rw [List.nil_append, hb] at h64 ⊢
    exact sealed_iff he h ho hd hop h64
  | cons op₁ ops ih =>
    obtain ⟨a, w', d', hrun, hall'⟩ := exec_of_allOk hall
    have hne : op₁ ≠ .finish := fun e => hops (e ▸ List.mem_cons_self ..)
    have ho' := exec_finished h ho hne hrun
    have hstep := exec_record h op₁
    rw [hrun] at hstep
    have hs : runOps (op₁ :: ops ++ [op]) w d
        = (runOps (ops ++ [op]) w' d').cons (op₁, .ok a) := by
      rw [List.cons_append, runOps, hrun]
    have hb : bs ++ batchesOf (op₁ :: ops ++ [op]) w d
        = bs ++ op₁.batches w ++ batchesOf (ops ++ [op]) w' d' := by
      rw [List.cons_append, batchesOf, hrun, List.append_assoc]
    cases hstep with
    | ok hr hp ht =>
      rw [hb] at h64 ⊢
      have hcons : AllOk ((runOps (ops ++ [op]) w' d').cons (op₁, .ok a))
          ↔ AllOk (runOps (ops ++ [op]) w' d') := allOk_cons.trans (and_iff_right ⟨a, rfl⟩)
      rw [hs, hcons, ← hp]
      exact ih hr ho' (ht.reliable hd) (fun e => hops (List.mem_cons_of_mem _ e)) hall' h64

/-- **What was accepted can be written exactly when the chunks that it comes to are within the
limits.**  In a run of the writer whose calls all succeeded, a last `flush_chunk` or `finish`
succeeds, and leaves a file that shows all accepted names and events, when the chunks that the
run asks for are within the limits; below 4 GiB a chunk, only then -/
theorem accepted_iff {path : String} {header : FileHeader} {d₀ d : Disk} {w : SessionWriter}
    (hc : (SessionWriter.create path header).run d₀ = .ok w d) (hd : d₀.Reliable) {ops : List Op}
    (hops : .finish ∉ ops) (hall : AllOk (runOps ops w d)) {op : Op} (hop : op.Seals)
    (h64 : 128 + boundary (batchesOf (ops ++ [op]) w d) (batchesOf (ops ++ [op]) w d).length
      < 2^64) :
    ((∀ b ∈ batchesOf (ops ++ [op]) w d, b.Within) → AllOk (runOps (ops ++ [op]) w d) ∧
      Readable path (runOps (ops ++ [op]) w d).disk (recordOf (runOps (ops ++ [op]) w d).calls)) ∧
    ((∀ b ∈ batchesOf (ops ++ [op]) w d, b.payload.length < 2^32) →
      ((AllOk (runOps (ops ++ [op]) w d) ∧ Readable path (runOps (ops ++ [op]) w d).disk
        (recordOf (runOps (ops ++ [op]) w d).calls)) ↔
        ∀ b ∈ batchesOf (ops ++ [op]) w d, b.Within)) := by
  obtain ⟨hdr, he⟩ := create_encode hc
  have hcreate := @create_cases path header hdr he d₀
  rw [hc] at hcreate
  cases hcreate with
  | @ok f _ hp ht hf hbuf =>
    obtain ⟨henough, honly⟩ := @sealed_run hdr [] (fresh f header) d ⟨[], []⟩ header he
      (fresh_records header hf) rfl (ht.reliable hd) ops hops hall op hop h64
    rw [show (fresh f header).file.path = path from hp] at henough
    exact ⟨henough, fun hsmall => ⟨fun h => honly h.1 hsmall, henough⟩⟩

/-! ## a value that no flush writes -/

instance (s : Session) : Decidable (AllOk s) :=
  decidable_of_iff (∀ c ∈ s.calls, c.2.toOption.isSome) <| by
    refine forall₂_congr fun c _ => ?_
    cases c.2 with
    | ok a => simp [Except.toOption]
    | error e => simp [Except.toOption]

/-- a value of 7 bytes is accepted, written and read back -/
theorem accepted_small :
    AllOk (runOps (exampleOps 7 ++ [.flush]) exampleStart.1 exampleStart.2) ∧
    Readable "s" (runOps (exampleOps 7 ++ [.flush]) exampleStart.1 exampleStart.2).disk
      (recordOf (runOps (exampleOps 7 ++ [.flush]) exampleStart.1 exampleStart.2).calls) :=
  (accepted_iff exampleStart_run exampleDisk_reliable (by decide) (by decide +kernel) (.inl rfl)
    (by decide +kernel)).1 (by decide +kernel)

/-- a value of 4097 bytes is accepted, and then no flush succeeds -/
theorem oversized_poisons :
    AllOk (runOps (exampleOps 4097) exampleStart.1 exampleStart.2) ∧
    ¬ AllOk (runOps (exampleOps 4097 ++ [.flush]) exampleStart.1 exampleStart.2) ∧
    ¬ AllOk (runOps (exampleOps 4097 ++ [.finish]) exampleStart.1 exampleStart.2) := by
  decide +kernel

end Dtj
