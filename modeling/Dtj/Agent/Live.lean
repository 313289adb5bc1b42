import Dtj.Agent.Isolation
import Dtj.Journal.Append

/-!
# Reading while the agents write

A reader may open a journal at any time: between two requests, or in the middle of a write.  It finds a
journal, and all that it finds is still there later.

* `Tidy`, `tidy_step`   the files that a connection has opened: one may be written, the others are over; **a
  request leaves them tidy**, and takes nothing from their bytes;
* `solo_run`            the actions of a connection that is alone;
* `Readable`            a journal, each part of which is one too;
* `journals_grow`       **the files of the agents are journals, and only grow**;
* `reads_grow`          **what a reader sees at one moment is the beginning of what it sees later**.
-/

namespace Dtj.Agent
open Wire Checked SessionWriter

variable {dataDir path : String} {k : Nat} {seen : List String} {o : Option SessionWriter} {d d' : Disk}
  {st st' : AgentState} {x : Exchange}

/-- the journal at a path: the session that is open writes it, or it is over -/
inductive Logged (k : Nat) (o : Option SessionWriter) (d : Disk) (path : String) : Prop
  | live {w : SessionWriter} {header : FileHeader} {hdr : Bytes} {bs : List Batch} {acked : List EventRecord}
      {names : List DictEntry} {r : Record} (hw : o = some w) (henc : header.encode = .ok hdr)
      (hrec : Recording hdr path k acked names bs w d r) (hlen : ∃ f, d.files path = some f ∧ 128 ≤ f.length) :
      Logged k o d path
  | closed {header : FileHeader} {hdr : Bytes} {bs : List Batch} (hne : ∀ w, o = some w → w.file.path ≠ path)
      (henc : header.encode = .ok hdr) (hc : Closed hdr path bs d) : Logged k o d path

/-- the files that a connection has opened, after `k` requests -/
structure Tidy (k : Nat) (seen : List String) (o : Option SessionWriter) (d : Disk) : Prop where
  works : Works d
  writer : ∀ w, o = some w → w.file.path ∈ seen ∧ ∃ f, w.file.AtEnd d f
  journals : ∀ path ∈ seen, d.files path ≠ none → Logged k o d path

theorem Logged.mono (h : Logged k o d path) {k' : Nat} (hk : k ≤ k') : Logged k' o d path := by
  cases h with
  | live hw henc hrec hlen => exact .live hw henc (hrec.mono hk) hlen
  | closed hne henc hc => exact .closed hne henc hc

theorem Tidy.mono (h : Tidy k seen o d) {k' : Nat} (hk : k ≤ k') : Tidy k' seen o d :=
  ⟨h.works, h.writer, fun path hpath hf => (h.journals path hpath hf).mono hk⟩

/-- the file that a request opens is a new one -/
def NewFile (dataDir : String) (seen : List String) (d : Disk) (frame : Bytes) : Prop :=
  ∀ req header, opening frame = some (req, header) →
    joinPath dataDir req.fileName ∉ seen ∧ d.files (joinPath dataDir req.fileName) = none

/-- the file that a request opens -/
def openedFile (dataDir : String) (frame : Bytes) : List String :=
  ((opening frame).map fun x => joinPath dataDir x.1.fileName).toList

theorem mem_openedFile {frame : Bytes} : path ∈ openedFile dataDir frame ↔
    ∃ req header, opening frame = some (req, header) ∧ path = joinPath dataDir req.fileName := by
  unfold openedFile
  cases opening frame with
  | none =>
    constructor
    · intro h
      cases h
    · rintro ⟨_, _, h, -⟩
      cases h
  | some x =>
    constructor
    · intro h
      exact ⟨x.1, x.2, rfl, List.mem_singleton.mp h⟩
    · rintro ⟨req, header, h, rfl⟩
      cases h
      exact List.mem_singleton_self _

/-! ## one request -/

theorem effect_works {frame : Bytes} (h : Effect dataDir frame st d (st', d')) (hd : Works d) : Works d' := by
  have htick : Works d.tick.2 := ⟨hd.reliable, hd.dir⟩
  cases h with
  | same hw hd' =>
    rcases hd' with rfl | rfl
    · exact hd
    · exact htick
  | moved hw hw' h => exact hd.touches h.touches
  | ended hw hw' h => exact hd.touches h.touches
  | @opened req header w _ d₁ ho hw' hrun =>
    obtain ⟨hdr, f, d₂, henc, hrun', -, -, htouch, -⟩ := @created d.tick.2 req header
      (joinPath dataDir req.fileName) (@opening_header ⟨frame, ⟨.error, []⟩⟩ _ _ ho) hd.reliable
    rw [hrun'] at hrun
    cases hrun
    unfold AgentState.dropped
    cases st.writer with
    | none => exact htick.touches htouch
    | some old =>
      obtain ⟨_, hdrop⟩ := BufWriter.dropped_onward old.file d₁
      exact (htick.touches htouch).touches hdrop.touches
  | notOpened ho hw' hrun =>
    obtain ⟨hdr', f, d₂, he, hrun', -⟩ := @created d.tick.2 _ _ (joinPath dataDir _)
      (@opening_header ⟨frame, ⟨.error, []⟩⟩ _ _ ho) hd.reliable
    rw [hrun'] at hrun
    cases hrun

/-- the bytes of the files stay, and the writer of the connection is at the end of its file -/
theorem Tidy.turned (ht : Tidy k seen st.writer d) (hstep : Step dataDir st d x st' d')
    (hx : x.frame.length < 2^63) (hnew : NewFile dataDir seen d x.frame) :
    ∃ created, (∀ path, created = some path → path ∈ openedFile dataDir x.frame) ∧
      Turned st.writer d created st'.writer d' := by
  obtain ⟨created, hcreated, hturned⟩ := effect_turned (step_effect hstep hx)
    (fun w hw => (ht.writer w hw).2) fun req header w _ hopen hw hp => by
      have hmem := (ht.writer w hw).1
      rw [hp] at hmem
      exact absurd hmem (hnew req header hopen).1
  refine ⟨created, fun path hp => ?_, hturned⟩
  obtain ⟨req, header, -, hopen, rfl⟩ := hcreated path hp
  exact mem_openedFile.mpr ⟨req, header, hopen, rfl⟩

/-- a file that was opened before -/
theorem Tidy.journal_step (ht : Tidy k seen st.writer d) (hstep : Step dataDir st d x st' d')
    (hx : x.frame.length < 2^63) (hk : k + 1 < 2^32) (hnew : NewFile dataDir seen d x.frame)
    (hpath : path ∈ seen) (hfile : d'.files path ≠ none) : Logged (k + 1) st'.writer d' path := by
  have helse : Elsewhere dataDir path x := by
    rintro req header hopen rfl
    exact (hnew req header hopen).1 hpath
  have heff := step_effect hstep hx
  have hthere : d.files path ≠ none := by
    intro hnone
    have hother : ∀ w, st.writer = some w → w.file.path ≠ path := by
      rintro w hw rfl
      obtain ⟨-, f, hf, -⟩ := ht.writer w hw
      rw [hnone] at hf
      cases hf
    rw [(over_step heff ht.works hother helse).1] at hfile
    exact hfile hnone
  cases ht.journals path hpath hthere with
  | closed hne henc hc =>
    obtain ⟨hsame, hother, -⟩ := over_step heff ht.works hne helse
    exact .closed hother henc (hc.keep hsame)
  | @live w header hdr bs acked names r hw henc hrec hlen =>
    obtain ⟨created, hcreated, hturned⟩ := ht.turned hstep hx hnew
    have hlonger : Longer path d d' := by
      refine hturned.longer path fun hc => ?_
      obtain ⟨req, header, hopen, hp⟩ := mem_openedFile.mp (hcreated path hc)
      exact helse req header hopen hp.symm
    obtain ⟨hnext, -⟩ := live_step hw hrec hk ht.works (step_did hstep hx ht.works.dir) helse
    cases hnext with
    | live hw' h hg hnot hs =>
      obtain ⟨f, hf, hlen⟩ := hlen
      obtain ⟨f', hf', hpre⟩ := hlonger f hf
      exact .live hw' henc h ⟨f', hf', hlen.trans hpre.length_le⟩
    | finished hw' hc hg hnot hs =>
      refine .closed (fun w' hsome => ?_) henc hc
      rw [hw'] at hsome
      cases hsome
    | replaced hw' hp hr hc =>
      refine .closed (fun w' hsome => ?_) henc hc
      rw [hw'] at hsome
      cases hsome
      exact hp

/-- a file that was not there -/
theorem Tidy.journal_new (ht : Tidy k seen st.writer d) (hstep : Step dataDir st d x st' d')
    (hx : x.frame.length < 2^63) (hpath : path ∉ seen) (habsent : d.files path = none)
    (hfile : d'.files path ≠ none) : Logged (k + 1) st'.writer d' path := by
  have hother : ∀ w, st.writer = some w → w.file.path ≠ path := by
    rintro w hw rfl
    exact hpath (ht.writer w hw).1
  -- it is only there when it was opened
  have unopened : d'.files path = d.files path → Logged (k + 1) st'.writer d' path := by
    intro hsame
    rw [hsame] at hfile
    exact absurd habsent hfile
  have heff := step_effect hstep hx
  cases heff with
  | same hw hd' =>
    refine unopened ?_
    rcases hd' with rfl | rfl <;> rfl
  | moved hw hw' h => exact unopened (h.touches.other path (hother _ hw).symm)
  | ended hw hw' h => exact unopened (h.touches.other path (hother _ hw).symm)
  | @opened req header w _ d₁ ho hw' hrun =>
    obtain ⟨hdr, f, d₂, henc, hrun', hp, hf, htouch, hbuf⟩ :=
      @created d.tick.2 req header (joinPath dataDir req.fileName) (opening_header ho) ht.works.reliable
    rw [hrun'] at hrun
    cases hrun
    -- the writer that was open has another file
    have hdropped : (st.dropped d₁).files path = d₁.files path := by
      unfold AgentState.dropped
      cases hst : st.writer with
      | none => rfl
      | some old =>
        obtain ⟨_, hdrop⟩ := BufWriter.dropped_onward old.file d₁
        exact hdrop.touches.other path (hother old hst).symm
    by_cases hhere : joinPath dataDir req.fileName = path
    · rw [hhere] at hp
      have hrec : Recording hdr path 0 [] [] [] (fresh f header) d₁ ⟨[], []⟩ :=
        ⟨hp, rfl, fresh_records header hf, List.Sublist.refl _, List.Subset.refl _, fun _ => rfl, le_refl _,
          fun ev hev => by cases hev⟩
      obtain ⟨g, hg, -, hcontent⟩ := hf.file
      rw [hbuf, List.append_nil] at hcontent
      rw [hp, hcontent] at hg
      exact .live hw' henc ((hrec.keep hdropped).mono (Nat.zero_le _))
        ⟨hdr, hdropped.trans hg, (FileHeader.encode_ok henc).1.ge⟩
    · exact unopened (hdropped.trans (htouch.other path (Ne.symm hhere)))
  | notOpened ho hw' hrun =>
    obtain ⟨hdr', f, d₂, he, hrun', -⟩ :=
      @created d.tick.2 _ _ (joinPath dataDir _) (opening_header ho) ht.works.reliable
    rw [hrun'] at hrun
    cases hrun

/-- **a request leaves the files tidy**, and the rest of the disk as it was -/
theorem tidy_step (ht : Tidy k seen st.writer d) (hstep : Step dataDir st d x st' d')
    (hx : x.frame.length < 2^63) (hk : k + 1 < 2^32) (hnew : NewFile dataDir seen d x.frame) :
    Tidy (k + 1) (seen ++ openedFile dataDir x.frame) st'.writer d' ∧ (∀ path ∈ seen, Longer path d d') ∧
      ∀ path, path ∉ seen → path ∉ openedFile dataDir x.frame → d'.files path = d.files path := by
  obtain ⟨created, hcreated, hturned⟩ := ht.turned hstep hx hnew
  have hapart : ∀ path ∈ seen, created ≠ some path := by
    intro path hpath hc
    obtain ⟨req, header, hopen, rfl⟩ := mem_openedFile.mp (hcreated path hc)
    exact (hnew req header hopen).1 hpath
  refine ⟨⟨effect_works (step_effect hstep hx) ht.works, fun w hw => ?_, fun path hpath hf => ?_⟩,
    fun path hpath => hturned.longer path (hapart path hpath), fun path hpath hno => ?_⟩
  · obtain ⟨hend, hc | ⟨w₀, hw₀, hp⟩⟩ := hturned.writer w hw
    · exact ⟨List.mem_append_right _ (hcreated _ hc), hend⟩
    · exact ⟨List.mem_append_left _ (hp ▸ (ht.writer w₀ hw₀).1), hend⟩
  · rcases List.mem_append.mp hpath with hold | hfresh
    · exact ht.journal_step hstep hx hk hnew hold hf
    · obtain ⟨req, header, hopen, rfl⟩ := mem_openedFile.mp hfresh
      exact ht.journal_new hstep hx (hnew req header hopen).1 (hnew req header hopen).2 hf
  · refine hturned.other path (fun hc => hno (hcreated path hc)) ?_
    rintro w hw rfl
    exact hpath (ht.writer w hw).1

/-- the connection is over -/
theorem Tidy.dropped (ht : Tidy k seen st.writer d) (hk : k < 2^32) :
    Tidy k seen none (st.dropped d) ∧ (∀ path ∈ seen, Longer path d (st.dropped d)) ∧
      ∀ path, path ∉ seen → (st.dropped d).files path = d.files path := by
  have hturned := (turned_refl fun w hw => (ht.writer w hw).2).dropped
  unfold AgentState.dropped at hturned ⊢
  cases hst : st.writer with
  | none =>
    rw [hst] at ht
    exact ⟨ht, fun path _ => .of_eq rfl, fun path _ => rfl⟩
  | some w =>
    rw [hst] at ht hturned
    obtain ⟨f, hdrop⟩ := BufWriter.dropped_onward w.file d
    refine ⟨⟨ht.works.touches hdrop.touches, fun w hw => (by cases hw), fun path hpath hf => ?_⟩,
      fun path _ => hturned.longer path (by simp), fun path hpath => ?_⟩
    · by_cases hp : w.file.path = path
      · have hthere : d.files path ≠ none := by
          obtain ⟨-, g, hg, -⟩ := ht.writer w rfl
          rw [← hp, hg]
          simp
        cases ht.journals path hpath hthere with
        | live hw henc hrec hlen =>
          cases hw
          exact .closed (fun w hw => by cases hw) henc (hrec.dropped hk ht.works.reliable).1
        | closed hne henc hc => exact absurd hp (hne w rfl)
      · have hsame : (w.dropped d).files path = d.files path := hdrop.touches.other path (Ne.symm hp)
        rw [hsame] at hf
        cases ht.journals path hpath hf with
        | live hw henc hrec hlen =>
          cases hw
          exact absurd hrec.file hp
        | closed hne henc hc => exact .closed (fun w hw => by cases hw) henc (hc.keep hsame)
    · refine hdrop.touches.other path ?_
      rintro rfl
      exact hpath (ht.writer w rfl).1

/-- files that are not there may be counted among those that were opened -/
theorem Tidy.more (ht : Tidy k seen o d) {more : List String} (hmore : ∀ path ∈ more, d.files path = none) :
    Tidy k (seen ++ more) o d := by
  refine ⟨ht.works, fun w hw => ?_, fun path hpath hf => ?_⟩
  · exact ⟨List.mem_append_left _ (ht.writer w hw).1, (ht.writer w hw).2⟩
  · rcases List.mem_append.mp hpath with hold | hfresh
    · exact ht.journals path hold hf
    · exact absurd (hmore path hfresh) hf

/-! ## a connection that is alone -/

/-- the files that some actions open -/
def openedPaths (dataDir : String) (acts : List Act) : List String :=
  (acts.filterMap (Act.opened dataDir)).map Prod.snd

theorem openedPaths_cons (dataDir : String) (a : Act) (acts : List Act) :
    openedPaths dataDir (a :: acts) = openedPaths dataDir [a] ++ openedPaths dataDir acts := by
  rw [openedPaths, openedPaths, openedPaths, ← List.map_append, ← List.filterMap_append]
  rfl

/-- a connection of a host that has no other -/
structure Solo (i k : Nat) (seen : List String) (g : Host) : Prop where
  counts : ∀ st, g.conns i = some st → Counts k st g.disk
  tidy : Tidy k seen (g.writer i) g.disk

variable {g : Host} {i : Nat} {a : Act} {acts : List Act}

/-- what an action of the connection leaves of the disk -/
structure Onwards (seen more : List String) (d d' : Disk) : Prop where
  longer : ∀ path ∈ seen, Longer path d d'
  other : ∀ path, path ∉ seen → path ∉ more → d'.files path = d.files path

theorem Onwards.refl (seen more : List String) (d : Disk) : Onwards seen more d d :=
  ⟨fun _ _ => .of_eq rfl, fun _ _ _ => rfl⟩

theorem Solo.stays (hs : Solo i k seen g) {more : List String} (hmore : ∀ path ∈ more, g.disk.files path = none) :
    Solo i (k + 1) (seen ++ more) g ∧ Onwards seen more g.disk g.disk :=
  ⟨⟨fun st hst => (hs.counts st hst).mono (Nat.le_succ k), (hs.tidy.mono (Nat.le_succ k)).more hmore⟩, .refl _ _ _⟩

theorem Host.hangUp_writer (h : Host) (i : Nat) (st : AgentState) (d : Disk) : (h.hangUp i st d).writer i = none := by
  rw [Host.hangUp, Host.set_writer]
  rfl

/-- the connection ends -/
theorem Solo.ends (hst : Tidy k seen st.writer d) (hk : k < 2^32) :
    Solo i k seen (g.hangUp i st d) ∧ Onwards seen [] d (g.hangUp i st d).disk := by
  obtain ⟨htidy, hlonger, hother⟩ := hst.dropped hk
  refine ⟨⟨fun st' hst' => ?_, ?_⟩, hlonger, fun path hpath _ => hother path hpath⟩
  · rw [Host.hangUp, Host.set_conns, if_pos rfl] at hst'
    cases hst'
  · rw [Host.hangUp_writer]
    exact htidy

/-- **an action of the connection**, which opens new files only -/
theorem solo_step (hs : Solo i k seen g) (hi : a.conn = i) (hk : k + 1 < 2^32)
    (hnew : ∀ path ∈ openedPaths dataDir [a], path ∉ seen ∧ g.disk.files path = none) :
    Solo i (k + 1) (seen ++ openedPaths dataDir [a]) (g.step dataDir a) ∧
      Onwards seen (openedPaths dataDir [a]) g.disk (g.step dataDir a).disk := by
  have stays := hs.stays fun path hpath => (hnew path hpath).2
  cases a with
  | connect j config =>
    obtain rfl : j = i := hi
    rw [Host.step]
    cases hj : g.conns j with
    | some st => exact stays
    | none =>
      have hnone : g.writer j = none := by rw [Host.writer, hj]; rfl
      refine ⟨⟨fun st hst => ?_, ?_⟩, stays.2⟩
      · rw [Host.set_conns, if_pos rfl] at hst
        cases hst
        exact ⟨hs.tidy.works.dir, fun w hw => by cases hw⟩
      · rw [Host.set_writer, ← show g.writer j = (some (AgentState.new config)).bind AgentState.writer from hnone]
        exact stays.1.tidy
  | close j =>
    obtain rfl : j = i := hi
    rw [Host.step]
    cases hj : g.conns j with
    | none => exact stays
    | some st =>
      have htidy := hs.tidy.mono (Nat.le_succ k)
      rw [Host.writer_eq hj] at htidy
      rw [show openedPaths dataDir [Act.close j] = [] from rfl, List.append_nil]
      exact Solo.ends htidy hk
  | request j frame =>
    obtain rfl : j = i := hi
    rw [Host.step]
    cases hj : g.conns j with
    | none => exact stays
    | some st =>
      dsimp only
      have htidy := hs.tidy
      rw [Host.writer_eq hj] at htidy
      have hmore : openedPaths dataDir [Act.request j frame] = openedFile dataDir frame := by
        rw [openedPaths, openedFile, List.filterMap_cons, Act.opened]
        cases opening frame <;> rfl
      rw [hmore] at hnew stays ⊢
      by_cases hlen : frame.length > maxFrameSize
      · -- a frame that is too large opens nothing
        rw [if_pos hlen]
        obtain ⟨hsolo, hon⟩ := @Solo.ends (k + 1) (seen ++ openedFile dataDir frame) g.disk st g j
          ((htidy.mono (Nat.le_succ k)).more fun path hpath => (hnew path hpath).2) hk
        exact ⟨hsolo, fun path hpath => hon.longer path (List.mem_append_left _ hpath), fun path hold hfresh =>
          hon.other path (fun hmem => (List.mem_append.mp hmem).elim hold hfresh) (List.not_mem_nil)⟩
      rw [if_neg hlen]
      have hmax : maxFrameSize < 2^63 := by decide
      have h63 : frame.length < 2^63 := by omega
      have hanswers := @handle_answers dataDir frame st g.disk k (hs.counts st hj) hk h63
      -- the connection goes on
      have next : ∀ {r : Reply} {st' : AgentState} {d' : Disk}, Step dataDir st g.disk ⟨frame, r⟩ st' d' →
          Counts (k + 1) st' d' → Solo j (k + 1) (seen ++ openedFile dataDir frame) (g.set j (some st') d') ∧
            Onwards seen (openedFile dataDir frame) g.disk d' := by
        intro r st' d' hstep hcounts
        have hfresh : NewFile dataDir seen g.disk frame := fun req header hopen =>
          hnew _ (mem_openedFile.mpr ⟨req, header, hopen, rfl⟩)
        obtain ⟨htidy', hlonger, hother⟩ := tidy_step htidy hstep h63 hk hfresh
        refine ⟨⟨fun st'' hst => ?_, ?_⟩, hlonger, hother⟩
        · rw [Host.set_conns, if_pos rfl] at hst
          cases hst
          exact hcounts
        · rw [Host.set_writer]
          exact htidy'
      cases hr : (handle dataDir frame).run (st, g.disk) with
      | ok r s =>
        rw [hr] at hanswers
        exact next (.done hr hanswers.1) hanswers.2
      | error e s =>
        rw [hr] at hanswers
        cases e with
        | error e =>
          cases e with
          | again text => exact next (.refused hr) hanswers
          | close text => exact hanswers.elim
        | panic => exact hanswers.elim
        | diverge => exact hanswers.elim

/-- **the actions of the connection**, by induction on them -/
theorem solo_run (hs : Solo i k seen g) (hacts : ∀ a ∈ acts, a.conn = i) (hk : k + acts.length < 2^32)
    (hnames : (seen ++ openedPaths dataDir acts).Nodup)
    (habsent : ∀ path ∈ openedPaths dataDir acts, g.disk.files path = none) :
    Solo i (k + acts.length) (seen ++ openedPaths dataDir acts) (g.run dataDir acts) ∧
      Onwards seen (openedPaths dataDir acts) g.disk (g.run dataDir acts).disk := by
  induction acts generalizing g k seen with
  | nil =>
    rw [show openedPaths dataDir [] = [] from rfl, List.append_nil]
    exact ⟨hs, .refl _ _ _⟩
  | cons a acts ih =>
    rw [openedPaths_cons] at hnames habsent ⊢
    rw [← List.append_assoc] at hnames
    rw [List.length_cons] at hk
    obtain ⟨hfirst, -, hapart⟩ := List.nodup_append.mp hnames
    have hnew : ∀ path ∈ openedPaths dataDir [a], path ∉ seen ∧ g.disk.files path = none := fun path hpath =>
      ⟨fun hold => (List.nodup_append.mp hfirst).2.2 path hold path hpath rfl,
        habsent path (List.mem_append_left _ hpath)⟩
    obtain ⟨hs₁, hon₁⟩ := solo_step hs (hacts a (List.mem_cons_self ..)) (by omega) hnew
    have habsent₁ : ∀ path ∈ openedPaths dataDir acts, (g.step dataDir a).disk.files path = none := by
      intro path hpath
      have hno : path ∉ seen ++ openedPaths dataDir [a] := fun hmem => hapart path hmem path hpath rfl
      rw [hon₁.other path (fun h => hno (List.mem_append_left _ h)) fun h => hno (List.mem_append_right _ h)]
      exact habsent path (List.mem_append_right _ hpath)
    obtain ⟨hs₂, hon₂⟩ := ih hs₁ (fun b hb => hacts b (List.mem_cons_of_mem _ hb)) (by omega) hnames habsent₁
    rw [List.length_cons, ← List.append_assoc, show k + (acts.length + 1) = k + 1 + acts.length by omega]
    refine ⟨hs₂, fun path hpath => ?_, fun path hold hfresh => ?_⟩
    · exact (hon₁.longer path hpath).trans (hon₂.longer path (List.mem_append_left _ hpath))
    · have hno : path ∉ openedPaths dataDir [a] := fun h => hfresh (List.mem_append_left _ h)
      have hseen : path ∉ seen ++ openedPaths dataDir [a] := fun h => (List.mem_append.mp h).elim hold hno
      exact (hon₂.other path hseen fun h => hfresh (List.mem_append_right _ h)).trans (hon₁.other path hold hno)

/-! ## the reader -/

/-- a journal, each part of which from the header on is one too -/
structure Readable (f : Bytes) : Prop where
  header : 128 ≤ f.length
  small : f.length < 2^63
  parts : ∀ n, 128 ≤ n → ∃ rd, SessionReader.open (f.take n) = .ok rd

/-- **a part of a journal that is written is a journal** -/
theorem Logged.read (h : Logged k o d path) (hk : k < 2^32) {f : Bytes} (hf : d.files path = some f) :
    Readable f := by
  obtain ⟨header, hdr, bs, v, henc, hpre, hlen, hv, hwithin, hsmall⟩ : ∃ header hdr bs v,
      FileHeader.encode header = .ok hdr ∧ f <+: hdr ++ layout 1 bs ∧ 128 ≤ f.length ∧
      replay .empty bs = .ok v ∧ (∀ b ∈ bs, b.Within) ∧ bs.length < 2^32 := by
    cases h with
    | @live w header hdr bs acked names r hw henc hrec hlen =>
      obtain ⟨v, hkeeps⟩ := hrec.records.keeps
      obtain ⟨g, hg, -, hcontent⟩ := hkeeps.holds.file
      rw [hrec.file, hf] at hg
      cases hg
      obtain ⟨g, hg, hlen⟩ := hlen
      rw [hf] at hg
      cases hg
      exact ⟨header, hdr, bs, v, henc, ⟨_, hcontent⟩, hlen, hkeeps.replayed, hrec.within hk, hrec.length_lt hk⟩
    | @closed header hdr bs hne henc hc =>
      obtain ⟨v, hv⟩ := hc.replayed
      have hfile := hc.file
      rw [hf] at hfile
      cases hfile
      refine ⟨header, hdr, bs, v, henc, List.prefix_refl _, ?_, hv, hc.within, hc.small⟩
      rw [List.length_append, (FileHeader.encode_ok henc).1]
      exact Nat.le_add_right _ _
  have hbound := boundary_le hwithin bs.length
  have hhdr := (FileHeader.encode_ok henc).1
  have hf64 := hpre.length_le
  rw [List.length_append, layout_length, hhdr] at hf64
  refine ⟨hlen, by omega, fun n hn => ?_⟩
  have hcut : f.take n <+: hdr ++ layout 1 bs := (List.take_prefix n f).trans hpre
  have htaken : f.take n = hdr ++ (layout 1 bs).take ((f.take n).length - 128) := by
    have hheader : hdr.take (f.take n).length = hdr := by
      refine List.take_of_length_le ?_
      rw [hhdr, List.length_take]
      omega
    calc f.take n = (hdr ++ layout 1 bs).take (f.take n).length := List.prefix_iff_eq_take.mp hcut
      _ = hdr.take (f.take n).length ++ (layout 1 bs).take ((f.take n).length - 128) := by
        rw [List.take_append, hhdr]
      _ = hdr ++ (layout 1 bs).take ((f.take n).length - 128) := by rw [hheader]
  have hsize := hcut.length_le
  rw [List.length_append, layout_length, hhdr] at hsize
  obtain ⟨rd, hr, -, -⟩ := open_layout_take henc hv (fun b hb => (hwithin b hb).committable) (by omega)
    (fun b hb => (hwithin b hb).payload) (show (f.take n).length - 128 ≤ boundary bs bs.length by omega) (by omega)
  exact ⟨rd, by rw [htaken]; exact hr⟩

/-- what one reader has, and another one has too -/
structure Within (rd rd' : SessionReader) : Prop where
  header : rd.header = rd'.header
  events : rd.events <+: rd'.events
  names : ∀ kind id name, rd.dictionary.getName kind id = some name →
    rd'.dictionary.getName kind id = some name

/-- a reader of more bytes has more -/
theorem within_of_prefix {s t : Bytes} {rd rd' : SessionReader} (hpre : s <+: t) (h64 : t.length < 2^64)
    (hr : SessionReader.open s = .ok rd) (hr' : SessionReader.open t = .ok rd') : Within rd rd' := by
  have hs64 : s.length < 2^64 := hpre.length_le.trans_lt h64
  obtain ⟨u, rfl⟩ := hpre
  rw [open_eq hs64, lift_eq_ok] at hr
  rw [open_eq h64, lift_eq_ok] at hr'
  obtain ⟨hlen, hhdr, v, hw, hd, he, -⟩ := openOf_ok hr
  obtain ⟨-, hhdr', v', hw', hd', he', -⟩ := openOf_ok hr'
  rw [List.take_append_of_le_length hlen, hhdr] at hhdr'
  rw [List.drop_append_of_le_length hlen] at hw'
  have hext := walk_append_ok hw hw'
  refine ⟨Except.ok.inj hhdr', ?_, fun kind id name hn => ?_⟩
  · rw [he, he']
    exact hext.events
  · rw [hd] at hn
    rw [hd']
    exact hext.names hn

/-! ## all histories -/

theorem ofConn_append (i : Nat) (pre post : List Act) : ofConn i (pre ++ post) = ofConn i pre ++ ofConn i post :=
  List.filter_append _ _

theorem Host.run_append (h : Host) (pre post : List Act) :
    h.run dataDir (pre ++ post) = (h.run dataDir pre).run dataDir post := List.foldl_append

/-- the files that one connection opens -/
theorem openedPaths_sublist (i : Nat) (acts : List Act) :
    (openedPaths dataDir (ofConn i acts)).Sublist (openedPaths dataDir acts) :=
  (List.filter_sublist.filterMap _).map _

theorem mem_openedPaths : path ∈ openedPaths dataDir acts ↔ ∃ i, Opens dataDir acts i path := by
  rw [openedPaths, List.mem_map]
  constructor
  · rintro ⟨⟨i, p⟩, hmem, rfl⟩
    exact ⟨i, hmem⟩
  · rintro ⟨i, hmem⟩
    exact ⟨(i, path), hmem, rfl⟩

/-- an action that opens a file is one of the connection -/
theorem opens_ofConn (h : Opens dataDir acts i path) : path ∈ openedPaths dataDir (ofConn i acts) := by
  obtain ⟨a, ha, hopened⟩ := List.mem_filterMap.mp h
  have hconn : a.conn = i := by
    cases a with
    | request j frame =>
      rw [Act.opened] at hopened
      cases hx : opening frame with
      | none => rw [hx] at hopened; cases hopened
      | some x => rw [hx] at hopened; cases hopened; rfl
    | connect j config => cases hopened
    | close j => cases hopened
  have hmem : a ∈ ofConn i acts := List.mem_filter.mpr ⟨ha, decide_eq_true hconn⟩
  exact mem_openedPaths.mpr ⟨i, List.mem_filterMap.mpr ⟨a, hmem, hopened⟩⟩

/-- no file is opened twice, and none that is opened was there -/
structure Apart (dataDir : String) (acts : List Act) (d : Disk) : Prop where
  few : acts.length < 2^32
  names : (openedPaths dataDir acts).Nodup
  absent : ∀ path ∈ openedPaths dataDir acts, d.files path = none

/-- **the files of the agents are journals, and only grow** -/
theorem journals_grow {h₀ : Host} (hnone : ∀ i, h₀.conns i = none) (hworks : Works h₀.disk) {pre post : List Act}
    (hacts : Apart dataDir (pre ++ post) h₀.disk) (hpath : path ∈ openedPaths dataDir pre) {f : Bytes}
    (hf : (h₀.run dataDir pre).disk.files path = some f) :
    Readable f ∧ ∃ f', (h₀.run dataDir (pre ++ post)).disk.files path = some f' ∧ f <+: f' ∧ Readable f' := by
  obtain ⟨i, hopens⟩ := mem_openedPaths.mp hpath
  -- on the files of one connection the history is that of the connection alone
  have hopenpre : ∀ j path, Opens dataDir pre j path → Opens dataDir (pre ++ post) j path := by
    intro j path hx
    rw [Opens, List.filterMap_append]
    exact List.mem_append_left _ hx
  have hapart : ∀ j, i ≠ j → ∀ path, Opens dataDir (pre ++ post) i path → ¬ Opens dataDir (pre ++ post) j path :=
    fun j hne path hi hj => hne (congrArg Prod.fst (List.inj_on_of_nodup_map hacts.names hi hj rfl))
  have htwin : Twin (Opens dataDir (pre ++ post)) i h₀ h₀ := by
    refine ⟨rfl, fun j st hst => ?_, ⟨hworks.reliable, hworks.reliable⟩, ⟨hworks.dir, hworks.dir⟩, fun _ _ => rfl⟩
    rw [hnone] at hst
    cases hst
  have hpre := (htwin.run hapart hopenpre).2.files path (hopenpre i path hopens)
  have hall := (htwin.run hapart fun _ _ (hx : Opens dataDir (pre ++ post) _ _) => hx).2.files path (hopenpre i path hopens)
  rw [ofConn_append, Host.run_append h₀ (ofConn i pre)] at hall
  rw [hpre] at hf
  -- alone, it leaves journals that only grow
  have hsolo₀ : Solo i 0 [] h₀ := by
    refine ⟨fun st hst => ?_, hworks, fun w hw => ?_, fun path hmem => by cases hmem⟩
    · rw [hnone] at hst
      cases hst
    · rw [Host.writer, hnone] at hw
      cases hw
  have hsub : (openedPaths dataDir (ofConn i (pre ++ post))).Sublist (openedPaths dataDir (pre ++ post)) :=
    openedPaths_sublist i (pre ++ post)
  have hnodup := hsub.nodup hacts.names
  rw [ofConn_append] at hsub hnodup
  have hsplit : openedPaths dataDir (ofConn i pre ++ ofConn i post)
      = openedPaths dataDir (ofConn i pre) ++ openedPaths dataDir (ofConn i post) := by
    rw [openedPaths, List.filterMap_append, List.map_append]
    rfl
  rw [hsplit] at hsub hnodup
  have hconn : ∀ acts, ∀ a ∈ ofConn i acts, a.conn = i := fun acts a ha => of_decide_eq_true (List.mem_filter.mp ha).2
  have hcount : (ofConn i pre).length + (ofConn i post).length < 2^32 := by
    have h₁ : (ofConn i pre).length ≤ pre.length := List.length_filter_le _ _
    have h₂ : (ofConn i post).length ≤ post.length := List.length_filter_le _ _
    have hfew := hacts.few
    rw [List.length_append] at hfew
    omega
  obtain ⟨hsolo₁, hon₁⟩ := solo_run hsolo₀ (hconn pre) (by omega) (List.nodup_append.mp hnodup).1
    fun path hmem => hacts.absent path (hsub.subset (List.mem_append_left _ hmem))
  rw [Nat.zero_add, List.nil_append] at hsolo₁
  have habsent₁ : ∀ path ∈ openedPaths dataDir (ofConn i post),
      (h₀.run dataDir (ofConn i pre)).disk.files path = none := by
    intro path hmem
    rw [hon₁.other path (List.not_mem_nil) fun h => (List.nodup_append.mp hnodup).2.2 path h path hmem rfl]
    exact hacts.absent path (hsub.subset (List.mem_append_right _ hmem))
  obtain ⟨hsolo₂, hon₂⟩ := solo_run hsolo₁ (hconn post) hcount hnodup habsent₁
  have hmem : path ∈ openedPaths dataDir (ofConn i pre) := opens_ofConn hopens
  obtain ⟨f', hf', hgrows⟩ := hon₂.longer path hmem f hf
  exact ⟨(hsolo₁.tidy.journals path hmem (by rw [hf]; simp)).read (by omega) hf, f', hall.trans hf', hgrows,
    (hsolo₂.tidy.journals path (List.mem_append_left _ hmem) (by rw [hf']; simp)).read hcount hf'⟩

/-- two readers of parts of a journal at two moments -/
theorem Readable.within {f f' : Bytes} (hread : Readable f) (hgrows : f <+: f') (hread' : Readable f') {n n' : Nat}
    (hn : 128 ≤ n) (hnf : n ≤ f.length) (hnn : n ≤ n') : ∃ rd rd', SessionReader.open (f.take n) = .ok rd ∧
      SessionReader.open (f'.take n') = .ok rd' ∧ Within rd rd' := by
  obtain ⟨rd, hr⟩ := hread.parts n hn
  obtain ⟨rd', hr'⟩ := hread'.parts n' (hn.trans hnn)
  refine ⟨rd, rd', hr, hr', within_of_prefix ?_ ?_ hr hr'⟩
  · obtain ⟨t, rfl⟩ := hgrows
    rw [← List.take_append_of_le_length hnf]
    exact List.take_prefix_take_left hnn
  · rw [List.length_take]
    have hsmall := hread'.small
    omega

/-- **What a reader sees at one moment is the beginning of what it sees later.**  In every history of agents on
one data directory, on a disk that works, in which each `OpenSession` names a file of its own that was not there:
once such a file is there, each part of it from its header on is a journal, and each part of what it later
becomes shows the same header, and no fewer events and names -/
theorem reads_grow {h₀ : Host} (hnone : ∀ i, h₀.conns i = none) (hworks : Works h₀.disk) {pre post : List Act}
    (hacts : Apart dataDir (pre ++ post) h₀.disk) (hpath : path ∈ openedPaths dataDir pre) {f : Bytes}
    (hf : (h₀.run dataDir pre).disk.files path = some f) :
    ∃ f', (h₀.run dataDir (pre ++ post)).disk.files path = some f' ∧ f <+: f' ∧ 128 ≤ f.length ∧
      ∀ n n', 128 ≤ n → n ≤ f.length → n ≤ n' → ∃ rd rd', SessionReader.open (f.take n) = .ok rd ∧
        SessionReader.open (f'.take n') = .ok rd' ∧ Within rd rd' := by
  obtain ⟨hread, f', hf', hgrows, hread'⟩ := journals_grow hnone hworks hacts hpath hf
  exact ⟨f', hf', hgrows, hread.header, fun n n' hn hnf hnn => hread.within hgrows hread' hn hnf hnn⟩

/-- a session of which a reader sees the beginning, while another one begins -/
theorem reads_grow_example : ∃ f f' rd rd',
    (Host.start.run "d" (firstSession.take 4 ++ secondSession "t")).disk.files "d/s" = some f ∧
    (Host.start.run "d" interleaved).disk.files "d/s" = some f' ∧
    SessionReader.open f = .ok rd ∧ SessionReader.open f' = .ok rd' ∧ Within rd rd' := by
  obtain ⟨f, hf⟩ := Option.isSome_iff_exists.mp
    (show ((Host.start.run "d" (firstSession.take 4 ++ secondSession "t")).disk.files "d/s").isSome by decide +kernel)
  obtain ⟨f', hf', hgrows, hlen, hreads⟩ := @reads_grow "d" "d/s" Host.start (fun _ => rfl) exampleDisk_works
    (firstSession.take 4 ++ secondSession "t") (firstSession.drop 4) ⟨by decide, by decide +kernel, fun _ _ => rfl⟩
    (by decide +kernel) f hf
  obtain ⟨rd, rd', hr, hr', hwithin⟩ := hreads f.length f'.length hlen (le_refl _) hgrows.length_le
  rw [List.take_length] at hr hr'
  exact ⟨f, f', rd, rd', hf, by rw [interleaved]; exact hf', hr, hr', hwithin⟩

end Dtj.Agent
