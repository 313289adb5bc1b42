import Dtj.Agent.Directory
import Dtj.Agent.Grammar

/-!
# What the agents can write

The file names come from the clients.  Whatever they send, and whatever the disk does, the agents create
and change files of the data directory only, under names that are one component of a path.

* `Component`       a name that is one component of a path;
* `Names`           an action that opens a file: an `OpenSession` after the handshake;
* `elsewhere_step`  **an action leaves the files alone that it does not name and no session writes**;
* `confined`        **only named files change**, in every history.
-/

namespace Dtj.Agent
open Wire Checked SessionWriter

variable {dataDir path : String} {frame : Bytes} {st st' : AgentState} {d d' : Disk} {h : Host} {a : Act}

/-- a name that is one component of a path, and does not lead out of its directory -/
structure Component (name : String) : Prop where
  nonempty : name ≠ ""
  nul : Char.ofNat 0 ∉ name.toList
  separator : '/' ∉ name.toList ∧ Char.ofNat 0x5C ∉ name.toList
  parent : ¬ ['.', '.'] <:+: name.toList

theorem component_iff {name : String} : invalidFileName name = false ↔ Component name := by
  simp only [invalidFileName, Bool.or_eq_false_iff, beq_eq_false_iff_ne, decide_eq_false_iff_not,
    List.contains_eq_mem]
  constructor
  · rintro ⟨⟨⟨⟨⟨hnul, hne⟩, hslash⟩, hback⟩, hup⟩, -⟩
    exact ⟨hne, hnul, ⟨hslash, hback⟩, hup⟩
  · rintro ⟨hne, hnul, ⟨hslash, hback⟩, hup⟩
    refine ⟨⟨⟨⟨⟨hnul, hne⟩, hslash⟩, hback⟩, hup⟩, ?_⟩
    -- a name that starts with a separator has one
    intro hhead
    exact hslash (List.mem_of_mem_head? hhead)

/-- the agent checks the name of the file that it opens -/
theorem opening_component (hframe : frame.length < 2^63) {req : OpenRequest} {header : FileHeader}
    (ho : opening frame = some (req, header)) : Component req.fileName := by
  unfold opening at ho
  split at ho
  · cases ho
  rename_i opcode body
  split at ho
  · cases hp : parseOpen body with
    | error e => rw [hp] at ho; cases ho
    | ok req' =>
      rw [hp] at ho
      dsimp only at ho
      rw [List.length_cons] at hframe
      cases hh : req'.header with
      | error e => rw [hh] at ho; cases ho
      | ok header' =>
        rw [hh] at ho
        cases ho
        exact component_iff.mp ((parseOpen_iff (by omega)).mp hp).1.file_name
  · cases ho

/-! ## one action -/

/-- the request opens no file at the path -/
def OpensNot (dataDir path : String) (st : AgentState) (frame : Bytes) : Prop :=
  st.helloDone = true → ∀ req header, opening frame = some (req, header) → joinPath dataDir req.fileName ≠ path

/-- **a request leaves the files alone that it neither opens nor writes**, whatever fails -/
theorem effect_elsewhere (he : Effect dataDir frame st d (st', d'))
    (hother : ∀ w, st.writer = some w → w.file.path ≠ path) (hno : OpensNot dataDir path st frame) :
    d'.files path = d.files path ∧ ∀ w, st'.writer = some w → w.file.path ≠ path := by
  cases he with
  | same hw hd =>
    rw [hw]
    rcases hd with rfl | rfl <;> exact ⟨rfl, hother⟩
  | moved hw hw' h =>
    refine ⟨h.touches.other path (hother _ hw).symm, fun w hw'' => ?_⟩
    rw [hw'] at hw''
    cases hw''
    exact h.path ▸ hother _ hw
  | ended hw hw' h =>
    refine ⟨h.touches.other path (hother _ hw).symm, fun w hw'' => ?_⟩
    rw [hw'] at hw''
    cases hw''
  | @opened req header w _ d₁ ho hw' hrun hst =>
    have hne := hno hst req header ho
    obtain ⟨hdr, henc⟩ := FileHeader.encode_create (@opening_header ⟨frame, ⟨.error, []⟩⟩ _ _ ho)
    have hcases := @create_cases (joinPath dataDir req.fileName) header hdr henc d.tick.2
    rw [hrun] at hcases
    cases hcases with
    | @ok f _ hp ht hf hbuf =>
      have hsame : d₁.files path = d.files path := ht.other path hne.symm
      refine ⟨?_, fun w hw'' => ?_⟩
      · unfold AgentState.dropped
        cases hst : st.writer with
        | none => exact hsame
        | some old =>
          obtain ⟨_, hdrop⟩ := BufWriter.dropped_onward old.file d₁
          exact (hdrop.touches.other path (hother old hst).symm).trans hsame
      · rw [hw'] at hw''
        cases hw''
        rw [show (fresh f header).file.path = f.path from rfl, hp]
        exact hne
  | @notOpened req header a _ _ ho hw' hrun hst =>
    have hne := hno hst req header ho
    obtain ⟨hdr, henc⟩ := FileHeader.encode_create (@opening_header ⟨frame, ⟨.error, []⟩⟩ _ _ ho)
    have hcases := @create_cases (joinPath dataDir req.fileName) header hdr henc d.tick.2
    rw [hrun] at hcases
    cases hcases with
    | failed ht hrel =>
      rw [hw']
      exact ⟨ht.other path hne.symm, hother⟩

theorem dropped_elsewhere (hother : ∀ w, st.writer = some w → w.file.path ≠ path) (d : Disk) :
    (st.dropped d).files path = d.files path := by
  unfold AgentState.dropped
  cases hw : st.writer with
  | none => rfl
  | some w =>
    obtain ⟨_, hdrop⟩ := BufWriter.dropped_onward w.file d
    exact hdrop.touches.other path (hother w hw).symm

/-- an action that opens the file: an `OpenSession` of a connection that has said Hello -/
def Names (dataDir path : String) (h : Host) : Act → Prop
  | .request i frame => ∃ st req header, h.conns i = some st ∧ st.helloDone = true ∧
      frame.length ≤ maxFrameSize ∧ opening frame = some (req, header) ∧ path = joinPath dataDir req.fileName
  | .connect _ _ => False
  | .close _ => False

/-- no session writes the file -/
def Unwritten (path : String) (h : Host) : Prop := ∀ i w, h.writer i = some w → w.file.path ≠ path

theorem Unwritten.set {i : Nat} {o : Option AgentState} (hu : Unwritten path h)
    (ho : ∀ w, o.bind AgentState.writer = some w → w.file.path ≠ path) : Unwritten path (h.set i o d) := by
  intro j w hw
  by_cases hj : j = i
  · rw [hj, Host.set_writer] at hw
    exact ho w hw
  · rw [Host.set_writer_ne h o d hj] at hw
    exact hu j w hw

/-- **an action leaves the files alone that it does not name and that no session writes** -/
theorem elsewhere_step (hu : Unwritten path h) (hno : ¬ Names dataDir path h a) :
    (h.step dataDir a).disk.files path = h.disk.files path ∧ Unwritten path (h.step dataDir a) := by
  have hung : ∀ i st d, (∀ w, st.writer = some w → w.file.path ≠ path) → d.files path = h.disk.files path →
      (h.hangUp i st d).disk.files path = h.disk.files path ∧ Unwritten path (h.hangUp i st d) := by
    intro i st d hw hd
    exact ⟨(dropped_elsewhere hw d).trans hd, hu.set fun w hw => by cases hw⟩
  cases a with
  | connect i config =>
    rw [Host.step]
    cases hi : h.conns i with
    | some st => exact ⟨rfl, hu⟩
    | none => exact ⟨rfl, hu.set fun w hw => by cases hw⟩
  | close i =>
    rw [Host.step]
    cases hi : h.conns i with
    | none => exact ⟨rfl, hu⟩
    | some st => exact hung i st h.disk (fun w hw => hu i w ((Host.writer_eq hi).trans hw)) rfl
  | request i frame =>
    rw [Host.step]
    cases hi : h.conns i with
    | none => exact ⟨rfl, hu⟩
    | some st =>
      have hw : ∀ w, st.writer = some w → w.file.path ≠ path := fun w hw => hu i w ((Host.writer_eq hi).trans hw)
      dsimp only
      by_cases hlen : frame.length > maxFrameSize
      · rw [if_pos hlen]
        exact hung i st h.disk hw rfl
      have hmax : maxFrameSize < 2^63 := by decide
      have heff := @handle_effect dataDir frame st h.disk (by omega)
      have hopens : OpensNot dataDir path st frame := fun hst req header ho hp =>
        hno ⟨st, req, header, hi, hst, not_lt.mp hlen, ho, hp.symm⟩
      rw [if_neg hlen]
      -- the connection goes on, or ends
      have left : ∀ {st' : AgentState} {d' : Disk}, Effect dataDir frame st h.disk (st', d') →
          (d'.files path = h.disk.files path ∧ Unwritten path (h.set i (some st') d')) ∧
          (h.hangUp i st' d').disk.files path = h.disk.files path ∧ Unwritten path (h.hangUp i st' d') := by
        intro st' d' he
        obtain ⟨hsame, hw'⟩ := effect_elsewhere he hw hopens
        exact ⟨⟨hsame, hu.set hw'⟩, hung i st' d' hw' hsame⟩
      cases hr : (handle dataDir frame).run (st, h.disk) with
      | ok r s =>
        rw [hr] at heff
        exact (left heff).1
      | error e s =>
        rw [hr] at heff
        cases e with
        | error e =>
          cases e with
          | again text => exact (left heff).1
          | close text => exact (left heff).2
        | panic => exact (left heff).2
        | diverge => exact (left heff).2

/-! ## all histories -/

theorem elsewhere_run {acts : List Act} (hu : Unwritten path h)
    (hno : ∀ pre a post, acts = pre ++ a :: post → ¬ Names dataDir path (h.run dataDir pre) a) :
    (h.run dataDir acts).disk.files path = h.disk.files path ∧ Unwritten path (h.run dataDir acts) := by
  induction acts generalizing h with
  | nil => exact ⟨rfl, hu⟩
  | cons a acts ih =>
    obtain ⟨hsame, hu'⟩ := elsewhere_step hu (hno [] a acts rfl)
    obtain ⟨hrest, hu''⟩ := ih hu' fun pre b post hacts => hno (a :: pre) b post (by rw [hacts]; rfl)
    exact ⟨hrest.trans hsame, hu''⟩

/-- **Only named files change**: in every history of agents on one data directory, whatever the clients send and
whatever the disk does, a file that is not as it was was opened by an `OpenSession` of a connection that had said
Hello, and it is the data directory with one component after it -/
theorem confined {h₀ : Host} (hnone : ∀ i, h₀.conns i = none) {acts : List Act}
    (hchanged : (h₀.run dataDir acts).disk.files path ≠ h₀.disk.files path) :
    ∃ pre i frame post st req header, acts = pre ++ Act.request i frame :: post ∧
      (h₀.run dataDir pre).conns i = some st ∧ st.helloDone = true ∧ opening frame = some (req, header) ∧
      path = joinPath dataDir req.fileName ∧ Component req.fileName := by
  have hunwritten : Unwritten path h₀ := by
    intro i w hw
    rw [Host.writer, hnone] at hw
    cases hw
  by_contra hnot
  refine hchanged (elsewhere_run hunwritten fun pre a post hacts hnames => hnot ?_).1
  cases a with
  | connect i config => exact hnames.elim
  | close i => exact hnames.elim
  | request i frame =>
    obtain ⟨st, req, header, hi, hst, hlen, ho, hp⟩ := hnames
    have hmax : maxFrameSize < 2^63 := by decide
    exact ⟨pre, i, frame, post, st, req, header, hacts, hi, hst, ho, hp, opening_component (by omega) ho⟩

/-- a file of the first session -/
theorem confined_example : ∃ i frame req header, Act.request i frame ∈ firstSession ∧
    opening frame = some (req, header) ∧ "d/s" = joinPath "d" req.fileName ∧ Component req.fileName := by
  have hchanged : (Host.start.run "d" firstSession).disk.files "d/s" ≠ Host.start.disk.files "d/s" := by
    have hsome : ((Host.start.run "d" firstSession).disk.files "d/s").isSome = true := by decide +kernel
    intro heq
    rw [heq] at hsome
    cases hsome
  obtain ⟨pre, i, frame, post, st, req, header, hacts, -, -, ho, hp, hc⟩ :=
    @confined "d" "d/s" Host.start (fun _ => rfl) firstSession hchanged
  refine ⟨i, frame, req, header, ?_, ho, hp, hc⟩
  rw [hacts]
  exact List.mem_append_right _ (List.mem_cons_self ..)

end Dtj.Agent
