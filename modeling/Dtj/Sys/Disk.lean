import Dtj.Core.Format

/-!
# Files, their faults, and the buffered writer

A disk holds the bytes of each path.  An operation on it may run into a fault, which a schedule
fixes in advance; a write that fails may have written a part of its bytes.

* `Disk.createDirAll`, `Disk.create`, `Disk.writeAt`   the operations;
* `Reliable`                                          a disk without faults;
* `BufWriter`     `std::io::BufWriter<File>`: `writeAll`, `flush`, and `dropped` for its drop;
* `BufWriter.Holds`   **the file followed by the buffer is what was written**: `writeAll_spec`,
  `flushBuf_spec`, `dropped_spec`, for every schedule of faults.
-/

namespace Dtj
open Wire Checked

structure Fault where
  written : Nat
  msg : String
deriving DecidableEq, Repr

/-- `faults` are those of the operations on files, `dirFaults` those of creating the directory -/
structure Disk where
  files : String → Option Bytes
  clock : Nat
  faults : Nat → Option Fault
  dirFaults : Nat → Option String

namespace Disk

/-- the files of the disk work -/
def Reliable (d : Disk) : Prop := ∀ n, d.faults n = none

/-- the data directory can be created -/
def HasDir (d : Disk) : Prop := ∀ n, d.dirFaults n = none

/-- the next operation: the fault it runs into, and the disk after it looked -/
def tick (d : Disk) : Option Fault × Disk := (d.faults d.clock, { d with clock := d.clock + 1 })

/-- the bytes of a file after a write at a position, with zeros up to it -/
def patch (old : Bytes) (pos : Nat) (bs : Bytes) : Bytes :=
  old.take pos ++ List.replicate (pos - old.length) 0 ++ bs ++ old.drop (pos + bs.length)

def put (path : String) (bs : Bytes) (d : Disk) : Disk :=
  { d with files := fun p => if p = path then some bs else d.files p }

/-- `fs::create_dir_all` of the data directory -/
def createDirAll : Prog Disk Error Unit := fun d =>
  match d.dirFaults d.clock with
  | some msg => .error (.error (.io msg)) d.tick.2
  | none => .ok () d.tick.2

/-- `File::create`: the file is there, and empty -/
def create (path : String) : Prog Disk Error Unit := fun d =>
  match d.tick with
  | (some f, d) => .error (.error (.io f.msg)) d
  | (none, d) => .ok () (d.put path [])

/-- `File::write_all` at a position: how many bytes were written, and the error if not all;
nothing to write is no operation -/
def writeAt (path : String) (pos : Nat) (bs : Bytes) (d : Disk) : Nat × Option String × Disk :=
  let old := (d.files path).getD []
  if bs = [] then (0, none, d)
  else match d.tick with
  | (some f, d) =>
    let n := min f.written bs.length
    (n, some f.msg, d.put path (patch old pos (bs.take n)))
  | (none, d) => (bs.length, none, d.put path (patch old pos bs))

/-! ## what the operations do -/

theorem patch_end (old bs : Bytes) : patch old old.length bs = old ++ bs := by
  simp [patch]

@[simp] theorem put_files (path : String) (bs : Bytes) (d : Disk) :
    (d.put path bs).files path = some bs := if_pos rfl

theorem put_files_ne {path path' : String} (h : path' ≠ path) (bs : Bytes) (d : Disk) :
    (d.put path bs).files path' = d.files path' := if_neg h

/-- the disk after an operation on one path -/
structure Touches (path : String) (d d' : Disk) : Prop where
  other : ∀ p, p ≠ path → d'.files p = d.files p
  faults : d'.faults = d.faults
  dirFaults : d'.dirFaults = d.dirFaults

theorem Touches.refl (path : String) (d : Disk) : Touches path d d := ⟨fun _ _ => rfl, rfl, rfl⟩

theorem Touches.trans {path : String} {d d' d'' : Disk} (h : Touches path d d')
    (h' : Touches path d' d'') : Touches path d d'' :=
  ⟨fun p hp => (h'.other p hp).trans (h.other p hp), h'.faults.trans h.faults,
    h'.dirFaults.trans h.dirFaults⟩

theorem Touches.reliable {path : String} {d d' : Disk} (h : Touches path d d') (hd : d.Reliable) :
    d'.Reliable := by
  intro n
  rw [h.faults, hd n]

theorem Touches.hasDir {path : String} {d d' : Disk} (h : Touches path d d') (hd : d.HasDir) :
    d'.HasDir := by
  intro n
  rw [h.dirFaults, hd n]

theorem touches_put (path : String) (bs : Bytes) (d : Disk) : Touches path d (d.tick.2.put path bs) :=
  ⟨fun _ hp => put_files_ne hp _ _, rfl, rfl⟩

/-- what a write behind the last byte does: all of its bytes, or a part of them and an error -/
theorem writeAt_end {path : String} {bs f : Bytes} {d : Disk} (hf : d.files path = some f) :
    ∃ n e d', writeAt path f.length bs d = (n, e, d') ∧ n ≤ bs.length ∧
      d'.files path = some (f ++ bs.take n) ∧ (e = none → n = bs.length) ∧
      (d.Reliable → e = none) ∧ Touches path d d' := by
  unfold writeAt
  rw [hf, Option.getD_some]
  by_cases hbs : bs = []
  · rw [if_pos hbs, hbs]
    refine ⟨0, none, d, rfl, le_refl _, ?_, fun _ => rfl, fun _ => rfl, .refl _ _⟩
    rw [List.take_nil, List.append_nil]
    exact hf
  rw [if_neg hbs]
  cases hc : d.faults d.clock with
  | some ft =>
    simp only [tick, hc, patch_end]
    refine ⟨_, _, _, rfl, Nat.min_le_right _ _, put_files _ _ _, ?_, ?_, touches_put _ _ _⟩
    · intro h; cases h
    · intro h; rw [h] at hc; cases hc
  | none =>
    simp only [tick, hc, patch_end]
    refine ⟨_, _, _, rfl, le_refl _, ?_, fun _ => rfl, fun _ => rfl, touches_put _ _ _⟩
    rw [put_files, List.take_length]

end Disk

/-! ## the buffered writer -/

def bufCapacity : Nat := 8192

/-- `BufWriter<File>`: the file that is open, the place it is written at, the buffer -/
structure BufWriter where
  path : String
  pos : Nat
  buf : Bytes

namespace BufWriter

/-- `BufWriter::new(File::create(path)?)` -/
def create (path : String) : Prog Disk Error BufWriter := do
  Disk.create path
  return ⟨path, 0, []⟩

/-- `flush_buf`: what was written leaves the buffer, also when the rest fails -/
def flushBuf : Prog (BufWriter × Disk) Error Unit := fun (w, d) =>
  match Disk.writeAt w.path w.pos w.buf d with
  | (n, some msg, d) => .error (.error (.io msg)) ({ w with pos := w.pos + n, buf := w.buf.drop n }, d)
  | (n, none, d) => .ok () ({ w with pos := w.pos + n, buf := w.buf.drop n }, d)

/-- `self.get_mut().write_all(data)` -/
def writeThrough (data : Bytes) : Prog (BufWriter × Disk) Error Unit := fun (w, d) =>
  match Disk.writeAt w.path w.pos data d with
  | (n, some msg, d) => .error (.error (.io msg)) ({ w with pos := w.pos + n }, d)
  | (n, none, d) => .ok () ({ w with pos := w.pos + n }, d)

/-- `write_to_buffer_unchecked` -/
def writeToBuffer (data : Bytes) : Prog (BufWriter × Disk) Error Unit := fun (w, d) =>
  .ok () ({ w with buf := w.buf ++ data }, d)

def spareCapacity (w : BufWriter) : Nat := bufCapacity - w.buf.length

def writeAllCold (data : Bytes) : Prog (BufWriter × Disk) Error Unit := do
  let (w, _) ← get
  if data.length > w.spareCapacity then flushBuf
  if data.length ≥ bufCapacity then writeThrough data else writeToBuffer data

def writeAll (data : Bytes) : Prog (BufWriter × Disk) Error Unit := do
  let (w, _) ← get
  if data.length < w.spareCapacity then writeToBuffer data else writeAllCold data

/-- `flush`: the file below has no buffer of its own -/
def flush : Prog (BufWriter × Disk) Error Unit := flushBuf

/-- the disk after the writer is dropped: the buffer is written, an error is not reported -/
def dropped (w : BufWriter) (d : Disk) : Disk :=
  match flushBuf.run (w, d) with
  | .ok _ (_, d') => d'
  | .error _ (_, d') => d'

/-! ## the file followed by the buffer -/

/-- the file at the path, followed by the buffer, is `content` -/
structure Holds (w : BufWriter) (d : Disk) (content : Bytes) : Prop where
  file : ∃ f, d.files w.path = some f ∧ w.pos = f.length ∧ f ++ w.buf = content

/-- **a flush adds nothing and loses nothing**, whether it fails or not -/
theorem flushBuf_spec {w : BufWriter} {d : Disk} {c : Bytes} (h : w.Holds d c) :
    ∃ w' d', w'.Holds d' c ∧ w'.path = w.path ∧ Disk.Touches w.path d d' ∧
      ((flushBuf.run (w, d) = .ok () (w', d') ∧ w'.buf = []) ∨
        ∃ m, flushBuf.run (w, d) = .error (.error (.io m)) (w', d') ∧ ¬ d.Reliable) := by
  obtain ⟨f, hf, hpos, hc⟩ := h.file
  obtain ⟨n, e, d', hw, hn, hf', hall, hrel, ht⟩ := @Disk.writeAt_end w.path w.buf f d hf
  refine ⟨{ w with pos := w.pos + n, buf := w.buf.drop n }, d', ⟨f ++ w.buf.take n, hf', ?_, ?_⟩,
    rfl, ht, ?_⟩
  · show w.pos + n = _
    rw [List.length_append, List.length_take, hpos]
    omega
  · show f ++ w.buf.take n ++ w.buf.drop n = c
    rw [List.append_assoc, List.take_append_drop, hc]
  · cases e with
    | some m =>
      refine .inr ⟨m, ?_, fun hr => by cases hrel hr⟩
      simp only [flushBuf, EStateM.run, hpos, hw]
    | none =>
      refine .inl ⟨?_, ?_⟩
      · simp only [flushBuf, EStateM.run, hpos, hw]
      · show w.buf.drop n = []
        rw [hall rfl, List.drop_length]

/-- how a write of `data` behind `c` may end: with all of it, or with a part and an error -/
def Writes (w : BufWriter) (d : Disk) (c data : Bytes)
    (r : EStateM.Result (Abort Error) (BufWriter × Disk) Unit) : Prop :=
  ∃ w' d', w'.path = w.path ∧ Disk.Touches w.path d d' ∧
    ((r = .ok () (w', d') ∧ w'.Holds d' (c ++ data)) ∨
      ∃ m k, r = .error (.error (.io m)) (w', d') ∧ ¬ d.Reliable ∧
        w'.Holds d' (c ++ data.take k))

theorem writeToBuffer_spec {w : BufWriter} {d : Disk} {c : Bytes} (h : w.Holds d c)
    (data : Bytes) : Writes w d c data ((writeToBuffer data).run (w, d)) := by
  obtain ⟨f, hf, hpos, hc⟩ := h.file
  refine ⟨{ w with buf := w.buf ++ data }, d, rfl, .refl _ _, .inl ⟨rfl, f, hf, hpos, ?_⟩⟩
  rw [← hc, List.append_assoc]

theorem writeThrough_spec {w : BufWriter} {d : Disk} {c : Bytes} (h : w.Holds d c)
    (hbuf : w.buf = []) (data : Bytes) :
    Writes w d c data ((writeThrough data).run (w, d)) := by
  obtain ⟨f, hf, hpos, hc⟩ := h.file
  rw [hbuf, List.append_nil] at hc
  subst hc
  obtain ⟨n, e, d', hw, hn, hf', hall, hrel, ht⟩ := @Disk.writeAt_end w.path data f d hf
  have hholds : ({ w with pos := w.pos + n } : BufWriter).Holds d' (f ++ data.take n) := by
    refine ⟨f ++ data.take n, hf', ?_, ?_⟩
    · show w.pos + n = _
      rw [List.length_append, List.length_take, hpos]
      omega
    · rw [show ({ w with pos := w.pos + n } : BufWriter).buf = [] from hbuf, List.append_nil]
  refine ⟨{ w with pos := w.pos + n }, d', rfl, ht, ?_⟩
  cases e with
  | some m =>
    refine .inr ⟨m, n, ?_, fun hr => absurd (hrel hr) (by simp), hholds⟩
    simp only [writeThrough, EStateM.run, hpos, hw]
  | none =>
    rw [hall rfl, List.take_length] at hholds
    refine .inl ⟨?_, hall rfl ▸ hholds⟩
    simp only [writeThrough, EStateM.run, hpos, hw]

/-- the second half of a write that does not fit: the buffer is empty, or has room -/
theorem writeTail_spec {w : BufWriter} {d : Disk} {c data : Bytes} (h : w.Holds d c)
    (hbuf : data.length ≥ bufCapacity → w.buf = []) : Writes w d c data
      ((if data.length ≥ bufCapacity then writeThrough data else writeToBuffer data).run (w, d)) := by
  by_cases hbig : data.length ≥ bufCapacity
  · rw [if_pos hbig]
    exact writeThrough_spec h (hbuf hbig) data
  · rw [if_neg hbig]
    exact writeToBuffer_spec h data

/-- **a write adds its bytes**; one that fails adds a part of them -/
theorem writeAll_spec {w : BufWriter} {d : Disk} {c : Bytes} (h : w.Holds d c) (data : Bytes) :
    Writes w d c data ((writeAll data).run (w, d)) := by
  simp only [writeAll, EStateM.run_bind, EStateM.run_get]
  by_cases hspare : data.length < w.spareCapacity
  · rw [if_pos hspare]
    exact writeToBuffer_spec h data
  rw [if_neg hspare]
  simp only [writeAllCold, EStateM.run_bind, EStateM.run_get]
  by_cases hfull : data.length > w.spareCapacity
  · rw [if_pos hfull]
    obtain ⟨w₁, d₁, h₁, hp, ht, ⟨hrun, hbuf⟩ | ⟨m, hrun, hrel⟩⟩ := flushBuf_spec h
    · simp only [EStateM.run_bind, hrun]
      obtain ⟨w₂, d₂, hp₂, ht₂, hend⟩ := @writeTail_spec w₁ d₁ c data h₁ fun _ => hbuf
      rw [hp] at hp₂ ht₂
      refine ⟨w₂, d₂, hp₂, ht.trans ht₂, ?_⟩
      rcases hend with hok | ⟨m, k, hr, hrel, hk⟩
      · exact .inl hok
      · exact .inr ⟨m, k, hr, fun hr' => hrel (ht.reliable hr'), hk⟩
    · simp only [EStateM.run_bind, hrun]
      exact ⟨w₁, d₁, hp, ht, .inr ⟨m, 0, rfl, hrel, by simpa using h₁⟩⟩
  · rw [if_neg hfull]
    refine writeTail_spec h fun hbig => ?_
    have : w.buf.length = 0 := by
      simp only [spareCapacity, bufCapacity] at hspare hfull hbig
      omega
    exact List.eq_nil_of_length_eq_zero this

/-- dropping the writer writes its buffer, or a part of it -/
theorem dropped_spec {w : BufWriter} {d : Disk} {c : Bytes} (h : w.Holds d c) :
    ∃ f, (w.dropped d).files w.path = some f ∧ f <+: c ∧ (d.Reliable → f = c) ∧
      Disk.Touches w.path d (w.dropped d) := by
  obtain ⟨w', d', h', hp, ht, hend⟩ := flushBuf_spec h
  obtain ⟨f, hf, _, hc⟩ := h'.file
  rw [hp] at hf
  have hd : w.dropped d = d' := by
    unfold dropped
    rcases hend with ⟨hr, _⟩ | ⟨m, hr, _⟩ <;> rw [hr]
  rw [hd]
  refine ⟨f, hf, ⟨w'.buf, hc⟩, ?_, ht⟩
  intro hrel
  rcases hend with ⟨_, hbuf⟩ | ⟨_, _, hr⟩
  · rw [← hc, hbuf, List.append_nil]
  · exact absurd hrel hr

/-- a writer with an empty buffer is dropped without a write -/
theorem dropped_empty {w : BufWriter} (h : w.buf = []) (d : Disk) : w.dropped d = d := by
  simp only [dropped, flushBuf, EStateM.run, Disk.writeAt, h, if_true]

/-- what is on the disk now is a part of what was written -/
theorem Holds.file_part {w : BufWriter} {d : Disk} {c : Bytes} (h : w.Holds d c) :
    ∃ f, d.files w.path = some f ∧ f <+: c := by
  obtain ⟨f, hf, _, hc⟩ := h.file
  exact ⟨f, hf, w.buf, hc⟩

end BufWriter

end Dtj
