import Dtj.Journal.Limits

/-!
# The length of a committed chunk

`encode_committed_chunk` casts the length of the payload to `u32` before it compares it with the
limit, and writes the cast length into the header.

* `Exact`, `Wraps`         what is to be said of a payload, and where it fails;
* `triedOf`                the chunks that a run tries to write, also in calls that fail;
* `exec_filed`, `runOps_filed`   the chunks in the file of a writer are among them;
* `exact_length`           **the length is exact where nothing wraps, and then a file shows its events**.
-/

namespace Dtj
open Wire Checked SessionWriter

/-! ## one chunk -/

/-- what is committed has the length of its payload in its header, within the limit, and is read
back as that payload; what is over the limit is refused -/
structure Exact (ty : UInt16) (seq : UInt64) (payload : Bytes) : Prop where
  committed : ∀ out, encodeCommittedChunk ty seq payload = .ok out →
    ∃ h, ChunkHeader.decode out = .ok h ∧ h.payloadLen.toNat = payload.length ∧
      payload.length ≤ maxChunkPayload.toNat ∧ firstFrame out = some (⟨h, payload⟩, []) ∧
      leAt out (24 + payload.length) 4 = (crc32 payload).toNat
  refused : maxChunkPayload.toNat < payload.length →
    ∃ e, encodeCommittedChunk ty seq payload = .error (.error e)

/-- the length is over the limit, and the limit does not see it -/
def Wraps (payload : Bytes) : Prop :=
  16777216 < payload.length ∧ payload.length % 2^32 ≤ 16777216

instance (payload : Bytes) : Decidable (Wraps payload) := instDecidableAnd

theorem exact_of_not_wraps {ty : UInt16} {seq : UInt64} {payload : Bytes} (h : ¬ Wraps payload) :
    Exact ty seq payload where
  committed out hout := by
    obtain ⟨hmod, rfl⟩ := encodeCommittedChunk_ok.mp hout
    have hle : payload.length ≤ 16777216 := by
      by_contra hgt
      exact h ⟨not_le.mp hgt, hmod⟩
    have hlen : (UInt32.ofNat payload.length).toNat = payload.length := by
      rw [UInt32.toNat_ofNat', Nat.mod_eq_of_lt (by omega)]
    have hf := @framed_framed ⟨ty, seq, UInt32.ofNat payload.length⟩ payload hlen (crc32 payload) []
    rw [← chunkRaw_append, List.append_nil] at hf
    generalize chunkRaw ⟨ty, seq, UInt32.ofNat payload.length⟩ payload = out at hf
    have h32 : 32 + payload.length ≤ out.length := by rw [hf.length]; omega
    refine ⟨⟨ty, seq, UInt32.ofNat payload.length⟩, ?_, hlen, hle, ?_, ?_⟩
    · rw [ChunkHeader.decode_eq, if_neg (by omega), if_neg (not_not.mpr hf.magic), hf.header]
    · unfold firstFrame
      rw [hf.len, hf.header, hf.payload, hf.rest]
      exact if_pos ⟨by omega, hf.magic, h32, hle, hf.marker⟩
    · rw [← hf.checksum, toNat_leAt4]
  refused hlt := by
    cases hout : encodeCommittedChunk ty seq payload with
    | error e => exact ⟨_, by rw [encodeCommittedChunk_error hout]⟩
    | ok out => exact absurd ⟨hlt, (encodeCommittedChunk_ok.mp hout).1⟩ h

theorem not_exact {ty : UInt16} {seq : UInt64} {payload : Bytes} (h : Wraps payload) :
    ¬ Exact ty seq payload := by
  intro hx
  obtain ⟨e, he⟩ := hx.refused h.1
  rw [encodeCommittedChunk_ok.mpr ⟨h.2, rfl⟩] at he
  cases he

/-! ## the chunks that a run tries to write -/

/-- all batches that the calls of a run ask for, also of calls that fail, up to the one that ends it -/
def triedOf : List Op → SessionWriter → Disk → List Batch
  | [], _, _ => []
  | op :: ops, w, d => op.batches w ++ match op.exec.run (w, d) with
    | .ok _ (w, d) => triedOf ops w d
    | .error e (w, d) => if stops e then [] else triedOf ops w d

variable {hdr : Bytes} {bs cs : List Batch} {w : SessionWriter} {d : Disk} {r : Record}
  {es : List DictEntry} {evs : List EventRecord}

/-- what a call leaves, unless it ends the run: a record, in chunks of `cs` -/
def Filed {α : Type} (hdr : Bytes) (cs : List Batch) (es : List DictEntry) (evs : List EventRecord) :
    EStateM.Result (Abort Error) (SessionWriter × Disk) α → Prop
  | .ok _ (w, d) => ∃ bs, Records hdr bs w d es evs ∧ bs ⊆ cs
  | .error a (w, d) => stops a = false → ∃ bs, Records hdr bs w d es evs ∧ bs ⊆ cs

theorem Filed.map {α β : Type} {r : EStateM.Result (Abort Error) (SessionWriter × Disk) α}
    (h : Filed hdr cs es evs r) (g : α → β) : Filed hdr cs es evs (mapResult g r) := by
  cases r <;> exact h

theorem Flushed.filed (h : Records hdr bs w d es evs)
    {r : EStateM.Result (Abort Error) (SessionWriter × Disk) Unit} (hf : Flushed hdr bs w d r) :
    Filed hdr (bs ++ dictBatch w ++ eventBatch w) es evs r := by
  cases hf with
  | done hp ht hb hk hbuf => exact ⟨_, h.flushed hk, List.Subset.refl _⟩
  | refusedDict hne hb he =>
    intro _
    exact ⟨bs, h, fun b hb => List.mem_append_left _ (List.mem_append_left _ hb)⟩
  | refusedEvents hp ht hd hne hb he hk =>
    intro _
    exact ⟨_, h.halfFlushed hk, fun b hb => List.mem_append_left _ hb⟩
  | stopped ha hp ht hrel hseq hcs hc =>
    intro hs
    rw [ha] at hs
    cases hs

theorem flushChunk_filed (h : Records hdr bs w d es evs) (ho : w.finished = false) :
    Filed hdr (bs ++ dictBatch w ++ eventBatch w) es evs (flushChunk.run (w, d)) := by
  obtain ⟨v, hk⟩ := h.keeps
  exact (flushChunk_cases hk ho).filed h

theorem finish_filed (h : Records hdr bs w d es evs) (ho : w.finished = false) :
    Filed hdr (bs ++ dictBatch w ++ eventBatch w) es evs (finish.run (w, d)) := by
  have hrecord := finish_record h ho
  have hflush := flushChunk_filed h ho
  cases hf : finish.run (w, d) with
  | ok u s =>
    rw [hf] at hrecord
    cases hrecord with
    | ok hr hp ht => exact ⟨_, hr, List.Subset.refl _⟩
  | error a s =>
    obtain ⟨w', d'⟩ := s
    intro hs
    rw [finish_run ho, EStateM.run_bind] at hf
    cases hrun : flushChunk.run (w, d) with
    | error a' s' =>
      rw [hrun] at hf hflush
      cases hf
      exact hflush hs
    | ok u s =>
      -- the flush of the file fails with an I/O error only
      obtain ⟨w₁, d₁⟩ := s
      rw [hrun] at hf hflush
      obtain ⟨bs₁, h₁, -⟩ := hflush
      obtain ⟨v₁, hk₁⟩ := h₁.keeps
      obtain ⟨f, d₂, -, -, -, ⟨hrun₂, -⟩ | ⟨m, hrun₂, -⟩⟩ := onFile_flush_holds hk₁.holds
      · dsimp only at hf
        rw [hrun₂] at hf
        cases hf
      · dsimp only at hf
        rw [hrun₂] at hf
        cases hf
        cases hs

theorem appendEvent_filed (h : Records hdr bs w d es evs) (ho : w.finished = false) {ev : AppendEvent}
    (href : ∀ e s, (appendEvent ev).run (w, d) = .error (.error e) s → e.isRef = false) :
    Filed hdr (bs ++ appendBatches w ev) es (evs ++ [ev.record (UInt64.ofNat (evs.length + 1))])
      ((appendEvent ev).run (w, d)) := by
  rw [appendEvent_run ho] at href ⊢
  cases hreq : requireRefs w.dictionary ev.domainId ev.categoryId ev.eventNameId ev.correlationId
    ev.payload with
  | error e =>
    rw [hreq] at href
    have hno := href e _ rfl
    rw [requireRefs_error hreq] at hno
    cases hno
  | ok u =>
    dsimp only
    split
    · rename_i hseq
      have h₁ := h.pushed (requireRefs_ok.mp hreq) hseq
      unfold appendBatches
      split
      · rw [← List.append_assoc]
        exact (flushChunk_filed h₁ ho).map _
      · exact ⟨bs, h₁, fun b hb => List.mem_append_left _ hb⟩
    · intro hs
      cases hs

/-- **a call leaves its record in chunks that were there or that it asked for** -/
theorem exec_filed (h : Records hdr bs w d r.entries r.events) (op : Op) :
    Filed hdr (bs ++ op.batches w) (r.call (op, outcome (op.exec.run (w, d)))).entries
      (r.call (op, outcome (op.exec.run (w, d)))).events (op.exec.run (w, d)) := by
  have hsame : bs ⊆ bs ++ op.batches w := fun b hb => List.mem_append_left _ hb
  cases ho : w.finished with
  | true =>
    rw [exec_closed ho op]
    intro _
    refine ⟨bs, ?_, hsame⟩
    cases op <;> exact h
  | false =>
    cases op with
    | intern kind name =>
      have hcases := intern_interns h ho kind name
      rw [Op.exec, run_map]
      generalize (intern kind name).run (w, d) = res at hcases ⊢
      cases hcases with
      | ok hr hu => exact ⟨bs, hr, hsame⟩
      | refused he hr hu => exact fun _ => ⟨bs, hr, hsame⟩
      | overflow => exact fun hs => by cases hs
    | append ev =>
      rw [Op.exec, run_map]
      rcases appendEvent_record h ho ev with ⟨e, he, hrun⟩ | hrun | ⟨-, -, href⟩
      · have hr : r.call (.append ev, .error (.error e)) = r := by
          simp only [Record.call, taken, he, Bool.not_true, Bool.false_eq_true, if_false]
        rw [hrun]
        show Filed hdr _ (r.call (.append ev, .error (.error e))).entries
          (r.call (.append ev, .error (.error e))).events _
        rw [hr]
        exact fun _ => ⟨bs, h, hsame⟩
      · rw [hrun]
        exact fun hs => by cases hs
      · rw [Record.call, if_pos (taken_append href)]
        exact (appendEvent_filed h ho href).map _
    | flush =>
      rw [Op.exec, run_map, Op.batches, ← List.append_assoc]
      exact (flushChunk_filed h ho).map _
    | finish =>
      rw [Op.exec, run_map, Op.batches, ← List.append_assoc]
      exact (finish_filed h ho).map _

/-- **so does a run**, by induction on its calls -/
theorem runOps_filed (h : Records hdr bs w d r.entries r.events) (ops : List Op)
    (hs : (runOps ops w d).stopped = false) :
    ∃ bs', Records hdr bs' (runOps ops w d).writer (runOps ops w d).disk
        ((runOps ops w d).calls.foldl Record.call r).entries
        ((runOps ops w d).calls.foldl Record.call r).events ∧ bs' ⊆ bs ++ triedOf ops w d := by
  induction ops generalizing bs w d r with
  | nil => exact ⟨bs, h, fun b hb => List.mem_append_left _ hb⟩
  | cons op ops ih =>
    have hstep := exec_filed h op
    rw [runOps] at hs ⊢
    rw [triedOf, ← List.append_assoc]
    have rest : ∀ {bs' : List Batch} {w' : SessionWriter} {d' : Disk} {res : Except (Abort Error) Answer},
        Records hdr bs' w' d' (r.call (op, res)).entries (r.call (op, res)).events →
        bs' ⊆ bs ++ op.batches w → (runOps ops w' d').stopped = false →
        ∃ bs'', Records hdr bs'' (runOps ops w' d').writer (runOps ops w' d').disk
            ((runOps ops w' d').calls.foldl Record.call (r.call (op, res))).entries
            ((runOps ops w' d').calls.foldl Record.call (r.call (op, res))).events ∧
          bs'' ⊆ bs ++ op.batches w ++ triedOf ops w' d' := by
      intro bs' w' d' res hr hsub hs'
      obtain ⟨bs'', hr'', hsub''⟩ := ih hr hs'
      refine ⟨bs'', hr'', fun b hb => ?_⟩
      rcases List.mem_append.mp (hsub'' hb) with hb | hb
      · exact List.mem_append_left _ (hsub hb)
      · exact List.mem_append_right _ hb
    cases hrun : op.exec.run (w, d) with
    | ok a s =>
      rw [hrun] at hstep hs
      obtain ⟨bs', hr, hsub⟩ := hstep
      exact rest hr hsub hs
    | error a s =>
      rw [hrun] at hstep hs
      dsimp only at hs ⊢
      split at hs
      · cases hs
      · rename_i hno
        obtain ⟨bs', hr, hsub⟩ := hstep (Bool.eq_false_iff.mpr hno)
        rw [if_neg hno, if_neg hno]
        exact rest hr hsub hs

theorem triedOf_snoc (op : Op) (ops : List Op) (hs : (runOps ops w d).stopped = false) :
    triedOf (ops ++ [op]) w d = triedOf ops w d ++ op.batches (runOps ops w d).writer := by
  induction ops generalizing w d with
  | nil =>
    rw [List.nil_append, triedOf]
    show op.batches w ++ _ = [] ++ op.batches w
    cases op.exec.run (w, d) with
    | ok a s => simp [triedOf]
    | error a s =>
      dsimp only
      split <;> simp [triedOf]
  | cons op₁ ops ih =>
    rw [runOps] at hs ⊢
    rw [List.cons_append, triedOf, triedOf]
    cases hrun : op₁.exec.run (w, d) with
    | ok a s =>
      rw [hrun] at hs
      dsimp only at hs ⊢
      rw [ih hs, List.append_assoc]
      rfl
    | error a s =>
      rw [hrun] at hs
      dsimp only at hs ⊢
      split at hs
      · cases hs
      · rename_i hno
        rw [if_neg hno, if_neg hno, if_neg hno, ih hs, List.append_assoc]
        rfl

/-- a file that is synced shows its record if none of its chunks wraps -/
theorem Records.readable {header : FileHeader} (he : header.encode = .ok hdr)
    (h : Records hdr bs w d r.entries r.events) (hs : Synced w) (hwrap : ∀ b ∈ bs, ¬ Wraps b.payload)
    (h64 : ∀ file, d.files w.file.path = some file → file.length < 2^64) :
    Readable w.file.path d r := by
  obtain ⟨v, hk⟩ := h.keeps
  have hmax : ∀ b ∈ bs, b.payload.length ≤ 16777216 := by
    intro b hb
    by_contra hgt
    exact hwrap b hb ⟨not_le.mp hgt, (hk.batches b hb).1.payload⟩
  have hlen : 128 + boundary bs bs.length < 2^64 := by
    obtain ⟨file, hfile, -, hc⟩ := hk.holds.file
    have hlt := h64 file hfile
    rw [hs.buf, List.append_nil] at hc
    rw [hc, List.length_append, layout_length, (FileHeader.encode_ok he).1] at hlt
    exact hlt
  obtain ⟨file, rd, hf, hread⟩ := h.read hs he hmax hlen
  exact ⟨file, rd, hf, hread⟩

/-- **The length is exact where it does not wrap.**  A payload is committed with its own length, or
refused, if and only if its length does not wrap; and in a run in which nothing that is to be written
wraps, a `finish` that succeeds leaves a file that shows all that was accepted -/
theorem exact_length (payload : Bytes) :
    (∀ ty seq, Exact ty seq payload ↔ ¬ Wraps payload) ∧
    ∀ path header d₀ d w ops u w' d', (SessionWriter.create path header).run d₀ = .ok w d →
      (runOps ops w d).stopped = false →
      SessionWriter.finish.run ((runOps ops w d).writer, (runOps ops w d).disk) = .ok u (w', d') →
      (∀ b ∈ triedOf (ops ++ [.finish]) w d, ¬ Wraps b.payload) →
      (∀ file, d'.files path = some file → file.length < 2^64) →
      Readable path d' (recordOf (runOps ops w d).calls) := by
  constructor
  · intro ty seq
    exact ⟨fun h hw => not_exact hw h, exact_of_not_wraps⟩
  · intro path header d₀ d w ops u w' d' hc hs hfin hwrap h64
    obtain ⟨hdr, he⟩ := create_encode hc
    have hcreate := @create_cases path header hdr he d₀
    rw [hc] at hcreate
    cases hcreate with
    | @ok f _ hp ht hf hbuf =>
      have hnew := @fresh_records f d hdr header hf
      have hpath := (@runOps_record hdr [] (fresh f header) d ⟨[], []⟩ hnew ops).path
      obtain ⟨bs, hrec, hsub⟩ := @runOps_filed hdr [] (fresh f header) d ⟨[], []⟩ hnew ops hs
      have ho : (runOps ops (fresh f header) d).writer.finished = false := by
        cases hclosed : (runOps ops (fresh f header) d).writer.finished with
        | false => rfl
        | true =>
          have hrun := @exec_closed _ (runOps ops (fresh f header) d).disk hclosed .finish
          rw [Op.exec, run_map, hfin] at hrun
          cases hrun
      obtain ⟨v, hk⟩ := hrec.keeps
      have hsync := (finish_ok hk ho hfin).2
      have hdone := finish_record hrec ho
      rw [hfin] at hdone
      cases hdone with
      | ok hr hp' ht' =>
        have hpath' : w'.file.path = path := hp'.trans (hpath.trans hp)
        rw [← hpath'] at h64 ⊢
        refine hr.readable he hsync (fun b hb => hwrap b ?_) h64
        rw [triedOf_snoc .finish ops hs]
        rw [List.append_assoc] at hb
        rcases List.mem_append.mp hb with hb | hb
        · exact List.mem_append_left _ (hsub hb)
        · exact List.mem_append_right _ hb

/-- 4 GiB of zeros are committed as a chunk of length 0 -/
theorem wrapped_length :
    ¬ ∀ ty seq payload, Exact ty seq payload := by
  intro h
  have hlen : (List.replicate (2^32) (0 : UInt8)).length = 2^32 := List.length_replicate
  exact not_exact ⟨by rw [hlen]; norm_num, by rw [hlen]; norm_num⟩ (h 2 1 (List.replicate (2^32) 0))

end Dtj
