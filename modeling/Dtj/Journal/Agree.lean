import Dtj.Core.Writer
import Dtj.Lib.Alike

/-!
# A writer and the files that are not its own

Two working disks that hold the same bytes at some paths.  A writer of one of these paths does the
same on both, and leaves every other file as it is.

* `Agree`     the two disks, and what they came from;
* `Side`      a state with such a disk, on either side;
* `writeAll_alike` ... `finish_alike`   **every call of the writer answers alike on both**.
-/

namespace Dtj
open Wire Checked

/-- two working disks with the same bytes at the paths `P`; at all others they are `d₀` and `e₀` -/
structure Agree (P : String → Prop) (d₀ e₀ d e : Disk) : Prop where
  reliable : d.Reliable ∧ e.Reliable
  hasDir : d.HasDir ∧ e.HasDir
  files : ∀ path, P path → d.files path = e.files path
  left : ∀ path, ¬ P path → d.files path = d₀.files path
  right : ∀ path, ¬ P path → e.files path = e₀.files path

variable {P : String → Prop} {d₀ e₀ d e : Disk} {path : String} {bs : Bytes}

namespace Agree

theorem tick (h : Agree P d₀ e₀ d e) : Agree P d₀ e₀ d.tick.2 e.tick.2 :=
  ⟨h.reliable, h.hasDir, h.files, h.left, h.right⟩

theorem put (h : Agree P d₀ e₀ d e) (hp : P path) (bs : Bytes) :
    Agree P d₀ e₀ (d.put path bs) (e.put path bs) := by
  refine ⟨h.reliable, h.hasDir, fun q hq => ?_, fun q hq => ?_, fun q hq => ?_⟩
  · by_cases hpath : q = path
    · rw [hpath, Disk.put_files, Disk.put_files]
    · rw [Disk.put_files_ne hpath, Disk.put_files_ne hpath]
      exact h.files q hq
  · have hpath : q ≠ path := fun hpath => hq (hpath ▸ hp)
    rw [Disk.put_files_ne hpath]
    exact h.left q hq
  · have hpath : q ≠ path := fun hpath => hq (hpath ▸ hp)
    rw [Disk.put_files_ne hpath]
    exact h.right q hq

theorem createDirAll (h : Agree P d₀ e₀ d e) :
    Alike (Agree P d₀ e₀) (Disk.createDirAll.run d) (Disk.createDirAll.run e) := by
  simp only [Disk.createDirAll, EStateM.run, h.hasDir.1 d.clock, h.hasDir.2 e.clock]
  exact .ok () h.tick

theorem create (h : Agree P d₀ e₀ d e) (hp : P path) :
    Alike (Agree P d₀ e₀) ((Disk.create path).run d) ((Disk.create path).run e) := by
  simp only [Disk.create, EStateM.run, Disk.tick, h.reliable.1 d.clock, h.reliable.2 e.clock]
  exact .ok () (h.tick.put hp [])

/-- a write of all the bytes, on both -/
theorem writeAt (h : Agree P d₀ e₀ d e) (hp : P path) (pos : Nat) (bs : Bytes) :
    ∃ d' e', Disk.writeAt path pos bs d = (bs.length, none, d') ∧
      Disk.writeAt path pos bs e = (bs.length, none, e') ∧ Agree P d₀ e₀ d' e' := by
  unfold Disk.writeAt
  rw [h.files path hp]
  by_cases hbs : bs = []
  · rw [if_pos hbs, if_pos hbs, hbs]
    exact ⟨d, e, rfl, rfl, h⟩
  rw [if_neg hbs, if_neg hbs]
  simp only [Disk.tick, h.reliable.1 d.clock, h.reliable.2 e.clock]
  exact ⟨_, _, rfl, rfl, h.tick.put hp _⟩

end Agree

/-- the same state on both disks; `Q` says that it writes to paths of `P` only -/
structure Side {σ : Type} (Q : σ → Prop) (P : String → Prop) (d₀ e₀ : Disk) (s t : σ × Disk) : Prop where
  state : s.1 = t.1
  own : Q s.1
  disks : Agree P d₀ e₀ s.2 t.2

/-- a program that looks at the state, and does not look at the disk -/
theorem Side.get {σ ε β : Type} {Q : σ → Prop} {R : σ × Disk → σ × Disk → Prop}
    {f : σ × Disk → Prog (σ × Disk) ε β} {s t : σ × Disk} (h : Side Q P d₀ e₀ s t)
    (hf : ∀ st d e, Side Q P d₀ e₀ (st, d) (st, e) → Alike R ((f (st, d)).run (st, d)) ((f (st, e)).run (st, e))) :
    Alike R ((MonadState.get >>= f).run s) ((MonadState.get >>= f).run t) := by
  obtain ⟨st, d⟩ := s
  obtain ⟨st', e⟩ := t
  obtain ⟨rfl, hown, hd⟩ := h
  exact .get (hf st d e ⟨rfl, hown, hd⟩)

/-! ## the buffered writer -/

/-- a buffered writer of a path of `P` -/
def BufWriter.Own (P : String → Prop) (w : BufWriter) : Prop := P w.path

section
variable {w : BufWriter} {s t : BufWriter × Disk}

theorem flushBuf_alike (h : Side (BufWriter.Own P) P d₀ e₀ s t) :
    Alike (Side (BufWriter.Own P) P d₀ e₀) (BufWriter.flushBuf.run s) (BufWriter.flushBuf.run t) := by
  obtain ⟨w, d⟩ := s
  obtain ⟨w', e⟩ := t
  obtain ⟨rfl, hp, hd⟩ := h
  obtain ⟨d', e', hd', he', h⟩ := hd.writeAt hp w.pos w.buf
  simp only [BufWriter.flushBuf, EStateM.run, hd', he']
  exact .ok () ⟨rfl, hp, h⟩

theorem writeThrough_alike (h : Side (BufWriter.Own P) P d₀ e₀ s t) (bs : Bytes) :
    Alike (Side (BufWriter.Own P) P d₀ e₀) ((BufWriter.writeThrough bs).run s)
      ((BufWriter.writeThrough bs).run t) := by
  obtain ⟨w, d⟩ := s
  obtain ⟨w', e⟩ := t
  obtain ⟨rfl, hp, hd⟩ := h
  obtain ⟨d', e', hd', he', h⟩ := hd.writeAt hp w.pos bs
  simp only [BufWriter.writeThrough, EStateM.run, hd', he']
  exact .ok () ⟨rfl, hp, h⟩

theorem writeToBuffer_alike (h : Side (BufWriter.Own P) P d₀ e₀ s t) (bs : Bytes) :
    Alike (Side (BufWriter.Own P) P d₀ e₀) ((BufWriter.writeToBuffer bs).run s)
      ((BufWriter.writeToBuffer bs).run t) := by
  obtain ⟨w, d⟩ := s
  obtain ⟨w', e⟩ := t
  obtain ⟨rfl, hp, hd⟩ := h
  exact .ok () ⟨rfl, hp, hd⟩

theorem writeAll_alike (h : Side (BufWriter.Own P) P d₀ e₀ s t) (bs : Bytes) :
    Alike (Side (BufWriter.Own P) P d₀ e₀) ((BufWriter.writeAll bs).run s) ((BufWriter.writeAll bs).run t) := by
  have tail : ∀ (u : Unit) s t, Side (BufWriter.Own P) P d₀ e₀ s t → Alike (Side (BufWriter.Own P) P d₀ e₀)
      ((if bs.length ≥ bufCapacity then BufWriter.writeThrough bs else BufWriter.writeToBuffer bs).run s)
      ((if bs.length ≥ bufCapacity then BufWriter.writeThrough bs else BufWriter.writeToBuffer bs).run t) :=
    fun _ s t h => .ite _ (writeThrough_alike h bs) (writeToBuffer_alike h bs)
  refine h.get fun w d e h => .ite _ (writeToBuffer_alike h bs) ?_
  exact h.get fun w d e h => .ite _ (.bind (flushBuf_alike h) tail) (tail () _ _ h)

/-- a writer that is dropped writes its buffer -/
theorem dropped_alike (h : Side (BufWriter.Own P) P d₀ e₀ s t) :
    Agree P d₀ e₀ (s.1.dropped s.2) (t.1.dropped t.2) := by
  have halike := flushBuf_alike h
  unfold BufWriter.dropped
  rw [Prod.mk.eta, Prod.mk.eta]
  generalize BufWriter.flushBuf.run s = r at halike
  generalize BufWriter.flushBuf.run t = r' at halike
  cases halike with
  | ok a h => exact h.disks
  | error e h => exact h.disks

end

/-! ## the session writer -/

/-- the writer of a session at a path of `P` -/
def SessionWriter.Own (P : String → Prop) (w : SessionWriter) : Prop := P w.file.path

namespace SessionWriter
variable {α : Type} {s t : SessionWriter × Disk} {header : FileHeader}

theorem onFile_alike {p : Prog (BufWriter × Disk) Error α} (h : Side (SessionWriter.Own P) P d₀ e₀ s t)
    (hp : ∀ s t, Side (BufWriter.Own P) P d₀ e₀ s t → Alike (Side (BufWriter.Own P) P d₀ e₀) (p.run s) (p.run t)) :
    Alike (Side (SessionWriter.Own P) P d₀ e₀) ((onFile p).run s) ((onFile p).run t) := by
  obtain ⟨w, d⟩ := s
  obtain ⟨w', e⟩ := t
  obtain ⟨rfl, hown, hd⟩ := h
  have halike := hp (w.file, d) (w.file, e) ⟨rfl, hown, hd⟩
  rw [onFile_run, onFile_run]
  generalize p.run (w.file, d) = r at halike
  generalize p.run (w.file, e) = r' at halike
  cases halike with
  | ok a h =>
    obtain ⟨hstate, hown, hdisks⟩ := h
    exact .ok a ⟨by rw [hstate], hown, hdisks⟩
  | error a h =>
    obtain ⟨hstate, hown, hdisks⟩ := h
    exact .error a ⟨by rw [hstate], hown, hdisks⟩

theorem onDictionary_alike (p : Prog Dictionary Error α) (h : Side (SessionWriter.Own P) P d₀ e₀ s t) :
    Alike (Side (SessionWriter.Own P) P d₀ e₀) ((onDictionary p).run s) ((onDictionary p).run t) := by
  obtain ⟨w, d⟩ := s
  obtain ⟨w', e⟩ := t
  obtain ⟨rfl, hown, hd⟩ := h
  rw [onDictionary_run, onDictionary_run]
  cases p.run w.dictionary with
  | ok a dict => exact .ok a ⟨rfl, hown, hd⟩
  | error a dict => exact .error a ⟨rfl, hown, hd⟩

/-- an update of anything but the file -/
theorem update_alike {f : SessionWriter → SessionWriter} (h : Side (SessionWriter.Own P) P d₀ e₀ s t)
    (hf : ∀ w, (f w).file = w.file) :
    Alike (Side (SessionWriter.Own P) P d₀ e₀) ((update f).run s) ((update f).run t) := by
  obtain ⟨w, d⟩ := s
  obtain ⟨w', e⟩ := t
  obtain ⟨rfl, hown, hd⟩ := h
  refine .ok () ⟨rfl, ?_, hd⟩
  show P (f w).file.path
  rw [hf]
  exact hown

theorem ensureOpen_alike (h : Side (SessionWriter.Own P) P d₀ e₀ s t) :
    Alike (Side (SessionWriter.Own P) P d₀ e₀) (ensureOpen.run s) (ensureOpen.run t) := by
  refine h.get fun w d e h => ?_
  exact .ite _ (.error _ h) (.ok () h)

theorem intern_alike (kind : DictKind) (name : String) (h : Side (SessionWriter.Own P) P d₀ e₀ s t) :
    Alike (Side (SessionWriter.Own P) P d₀ e₀) ((intern kind name).run s) ((intern kind name).run t) := by
  refine .bind (ensureOpen_alike h) fun _ s t h => ?_
  refine .bind (onDictionary_alike _ h) fun a s t h => ?_
  exact .ite _ (.bind (update_alike h fun _ => rfl) fun _ s t h => .ok _ h) (.ok _ h)

theorem commitChunk_alike (chunkType : UInt16) (payload : Except Error Bytes)
    (h : Side (SessionWriter.Own P) P d₀ e₀ s t) :
    Alike (Side (SessionWriter.Own P) P d₀ e₀) ((commitChunk chunkType payload).run s)
      ((commitChunk chunkType payload).run t) := by
  refine h.get fun w d e h => ?_
  refine .bind (.of _ h) fun bytes s t h => ?_
  refine .bind (.of _ h) fun bytes s t h => ?_
  refine .bind (onFile_alike h fun s t h => writeAll_alike h bytes) fun _ s t h => ?_
  exact .bind (.of _ h) fun seq s t h => update_alike h fun _ => rfl

theorem flushDict_alike (h : Side (SessionWriter.Own P) P d₀ e₀ s t) :
    Alike (Side (SessionWriter.Own P) P d₀ e₀) (flushDict.run s) (flushDict.run t) := by
  refine h.get fun w d e h => ?_
  exact .ite _ (.bind (commitChunk_alike _ _ h) fun _ s t h => update_alike h fun _ => rfl) (.ok () h)

theorem flushEvents_alike (h : Side (SessionWriter.Own P) P d₀ e₀ s t) :
    Alike (Side (SessionWriter.Own P) P d₀ e₀) (flushEvents.run s) (flushEvents.run t) := by
  refine h.get fun w d e h => ?_
  exact .ite _ (.bind (commitChunk_alike _ _ h) fun _ s t h => update_alike h fun _ => rfl) (.ok () h)

theorem flushChunk_alike (h : Side (SessionWriter.Own P) P d₀ e₀ s t) :
    Alike (Side (SessionWriter.Own P) P d₀ e₀) (flushChunk.run s) (flushChunk.run t) := by
  refine .bind (ensureOpen_alike h) fun _ s t h => ?_
  refine .bind (flushDict_alike h) fun _ s t h => ?_
  exact .bind (flushEvents_alike h) fun _ s t h => onFile_alike h fun s t h => flushBuf_alike h

theorem appendEvent_alike (ev : AppendEvent) (h : Side (SessionWriter.Own P) P d₀ e₀ s t) :
    Alike (Side (SessionWriter.Own P) P d₀ e₀) ((appendEvent ev).run s) ((appendEvent ev).run t) := by
  refine .bind (ensureOpen_alike h) fun _ s t h => h.get fun w d e h => ?_
  refine .bind (.of _ h) fun _ s t h => ?_
  refine .bind (.of _ h) fun seq s t h => ?_
  refine .bind (update_alike h fun _ => rfl) fun _ s t h => ?_
  exact .ite _ (.bind (flushChunk_alike h) fun _ s t h => .ok _ h) (.ok _ h)

theorem finish_alike (h : Side (SessionWriter.Own P) P d₀ e₀ s t) :
    Alike (Side (SessionWriter.Own P) P d₀ e₀) (finish.run s) (finish.run t) := by
  refine h.get fun w d e h => ?_
  refine .ite _ (.error _ h) (.bind (flushChunk_alike h) fun _ s t h => ?_)
  refine .bind (onFile_alike h fun s t h => flushBuf_alike h) fun _ s t h => update_alike h fun _ => rfl

theorem writeHeader_alike (header : FileHeader) {s t : BufWriter × Disk} (h : Side (BufWriter.Own P) P d₀ e₀ s t) :
    Alike (Side (BufWriter.Own P) P d₀ e₀) ((writeHeader header).run s) ((writeHeader header).run t) := by
  refine .bind (.of _ h) fun bytes s t h => ?_
  exact .bind (writeAll_alike h bytes) fun _ s t h => flushBuf_alike h

/-- how `create` ends on both disks: with a writer of the path, or without one -/
inductive CreatedAlike (P : String → Prop) (d₀ e₀ : Disk) : EStateM.Result (Abort Error) Disk SessionWriter →
    EStateM.Result (Abort Error) Disk SessionWriter → Prop
  | ok {w : SessionWriter} {d e : Disk} (hown : SessionWriter.Own P w) (h : Agree P d₀ e₀ d e) :
      CreatedAlike P d₀ e₀ (.ok w d) (.ok w e)
  | error {a : Abort Error} {d e : Disk} (h : Agree P d₀ e₀ d e) : CreatedAlike P d₀ e₀ (.error a d) (.error a e)

theorem create_alike (hp : P path) (header : FileHeader) (h : Agree P d₀ e₀ d e) :
    CreatedAlike P d₀ e₀ ((SessionWriter.create path header).run d) ((SessionWriter.create path header).run e) := by
  have hnew : ∀ d : Disk, d.Reliable → (BufWriter.create path).run d = .ok ⟨path, 0, []⟩ (d.tick.2.put path []) := by
    intro d hd
    have hcreate : (Disk.create path).run d = .ok () (d.tick.2.put path []) := by
      simp only [Disk.create, EStateM.run, Disk.tick, hd d.clock]
    unfold BufWriter.create
    rw [EStateM.run_bind, hcreate]
    rfl
  unfold SessionWriter.create openNew
  rw [EStateM.run_bind, EStateM.run_bind, hnew d h.reliable.1, hnew e h.reliable.2]
  dsimp only
  have hside : Side (BufWriter.Own P) P d₀ e₀ (⟨path, 0, []⟩, d.tick.2.put path [])
      (⟨path, 0, []⟩, e.tick.2.put path []) := ⟨rfl, hp, h.tick.put hp []⟩
  have halike := writeHeader_alike header hside
  rw [onNew_run, onNew_run]
  generalize (writeHeader header).run (⟨path, 0, []⟩, d.tick.2.put path []) = r at halike
  generalize (writeHeader header).run (⟨path, 0, []⟩, e.tick.2.put path []) = r' at halike
  cases halike with
  | ok a h =>
    obtain ⟨hstate, hown, hdisks⟩ := h
    dsimp only
    rw [hstate] at hown ⊢
    exact .ok hown hdisks
  | error a h => exact .error (dropped_alike h)

end SessionWriter

end Dtj
