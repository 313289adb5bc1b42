import Dtj.Agent.Durable

/-!
# Connections that share a data directory

Any number of connections on one disk, their requests in any order; a connection may end at any
time, and its state is then dropped.

* `Host`, `Act`, `Host.step`    the connections, and what happens to them;
* `Host.serves`                 the requests of one connection are answered as `handle_client` does;
* `Alive`                       every open session writes at the end of a file of its own;
* `Turned`, `effect_turned`     what one request does to the files;
* `committed_stays`             **committed bytes stay**, as long as no `OpenSession` names a
  journal that is there;
* `committed_lost`              the same name twice, and the first journal is gone.
-/

namespace Dtj.Agent
open Wire Checked SessionWriter

structure Host where
  disk : Disk
  conns : Nat → Option AgentState

inductive Act where
  | connect (i : Nat) (config : Config)
  | request (i : Nat) (frame : Bytes)
  | close (i : Nat)

namespace Host

def set (h : Host) (i : Nat) (st : Option AgentState) (d : Disk) : Host :=
  ⟨d, fun j => if j = i then st else h.conns j⟩

/-- the connection is over -/
def hangUp (h : Host) (i : Nat) (st : AgentState) (d : Disk) : Host := h.set i none (st.dropped d)

/-- a frame that is too large, an error and a panic end the connection -/
def step (dataDir : String) (h : Host) : Act → Host
  | .connect i config =>
    match h.conns i with
    | some _ => h
    | none => h.set i (some (.new config)) h.disk
  | .request i frame =>
    match h.conns i with
    | none => h
    | some st =>
      if frame.length > maxFrameSize then h.hangUp i st h.disk
      else match (handle dataDir frame).run (st, h.disk) with
      | .ok _ (st, d) => h.set i (some st) d
      | .error (.error (.again _)) (st, d) => h.set i (some st) d
      | .error _ (st, d) => h.hangUp i st d
  | .close i =>
    match h.conns i with
    | none => h
    | some st => h.hangUp i st h.disk

def run (dataDir : String) (h : Host) (acts : List Act) : Host := acts.foldl (step dataDir) h

/-- the writer of the session that a connection has open -/
def writer (h : Host) (i : Nat) : Option SessionWriter := (h.conns i).bind AgentState.writer

end Host

variable {dataDir : String} {h : Host} {i : Nat} {frame : Bytes} {st st' : AgentState}
  {d d' : Disk} {path : String} {c : Bytes}

/-- the file starts with these bytes -/
def Starts (d : Disk) (path : String) (c : Bytes) : Prop :=
  ∃ file, d.files path = some file ∧ c <+: file

/-- a header, and at least one committed chunk -/
def IsJournal (c : Bytes) : Prop := ∃ hdr bs, hdr.length = 128 ∧ bs ≠ [] ∧ c = hdr ++ layout 1 bs

/-- the file may be created: it is not there, or it holds no committed chunk and no session writes
it, but for that of the connection itself, which has nothing to write and loses it for certain -/
def Free (h : Host) (i : Nat) (path : String) : Prop :=
  h.disk.files path = none ∨
    ((∀ c, IsJournal c → ¬ Starts h.disk path c) ∧
      ∀ j w, h.writer j = some w → w.file.path = path →
        j = i ∧ w.file.buf = [] ∧ h.disk.Reliable)

/-- an `OpenSession` names a file that may be created -/
def Fresh (dataDir : String) (h : Host) : Act → Prop
  | .request i frame => ∀ st req header, h.conns i = some st → st.helloDone = true →
    opening frame = some (req, header) → Free h i (joinPath dataDir req.fileName)
  | .connect _ _ => True
  | .close _ => True

/-! ## what one request does to the files -/

/-- the file is still there, and has perhaps more bytes -/
def Longer (path : String) (d d' : Disk) : Prop :=
  ∀ f, d.files path = some f → ∃ f', d'.files path = some f' ∧ f <+: f'

theorem Longer.of_eq (h : d'.files path = d.files path) : Longer path d d' :=
  fun f hf => ⟨f, h.trans hf, List.prefix_refl f⟩

theorem Longer.trans {d'' : Disk} (h : Longer path d d') (h' : Longer path d' d'') :
    Longer path d d'' := by
  intro f hf
  obtain ⟨f', hf', hp⟩ := h f hf
  obtain ⟨f'', hf'', hp'⟩ := h' f' hf'
  exact ⟨f'', hf'', hp.trans hp'⟩

/-- what a request did: `created` is the path of a file that it created -/
structure Turned (o : Option SessionWriter) (d : Disk) (created : Option String)
    (o' : Option SessionWriter) (d' : Disk) : Prop where
  longer : ∀ path, created ≠ some path → Longer path d d'
  other : ∀ path, created ≠ some path → (∀ w, o = some w → w.file.path ≠ path) →
    d'.files path = d.files path
  writer : ∀ w', o' = some w' → (∃ f, w'.file.AtEnd d' f) ∧
    (created = some w'.file.path ∨ ∃ w, o = some w ∧ w.file.path = w'.file.path)

/-- the writer has written on -/
theorem turned_onward {w : SessionWriter} {f : BufWriter} {o' : Option SessionWriter}
    (hend : ∃ g, w.file.AtEnd d g) (ho : BufWriter.Onward (w.file, d) (f, d'))
    (ho' : ∀ w', o' = some w' → w'.file = f) : Turned (some w) d none o' d' where
  longer path _ := by
    by_cases hp : path = w.file.path
    · intro g hg
      obtain ⟨g', hend'⟩ := hend
      obtain ⟨g'', hend'', hpre⟩ := ho.grows g' hend'
      rw [hp, hend'.1] at hg
      cases hg
      refine ⟨g'', ?_, hpre⟩
      rw [hp, ← ho.path]
      exact hend''.1
    · exact .of_eq (ho.touches.other path hp)
  other path _ hne := ho.touches.other path (hne w rfl).symm
  writer w' hw' := by
    obtain ⟨g', hend'⟩ := hend
    obtain ⟨g'', hend'', -⟩ := ho.grows g' hend'
    rw [ho' w' hw']
    exact ⟨⟨g'', hend''⟩, .inr ⟨w, rfl, ho.path.symm⟩⟩

/-- the connection ends after the request -/
theorem Turned.dropped {o : Option SessionWriter} {created : Option String}
    (h : Turned o d created st'.writer d') : Turned o d created none (st'.dropped d') := by
  unfold AgentState.dropped
  cases hw : st'.writer with
  | none => exact ⟨h.longer, h.other, fun w' hw' => by cases hw'⟩
  | some w =>
    obtain ⟨hend, hpath⟩ := h.writer w hw
    obtain ⟨f, hdrop⟩ := BufWriter.dropped_onward w.file d'
    have hturned := @turned_onward d' (w.dropped d') w f none hend hdrop fun w' hw' => by cases hw'
    refine ⟨fun path hne => (h.longer path hne).trans (hturned.longer path (by simp)),
      fun path hne ho => ?_, fun w' hw' => by cases hw'⟩
    have hne' : w.file.path ≠ path := by
      rcases hpath with hc | ⟨w₀, hw₀, hp⟩
      · intro e
        rw [e] at hc
        exact hne hc
      · exact hp ▸ ho w₀ hw₀
    rw [hturned.other path (by simp) fun w' hw' => by cases hw'; exact hne']
    exact h.other path hne ho

/-- **what one request does to the files**; `hfree` is what is asked of the path that it creates -/
theorem effect_turned (he : Effect dataDir frame st d (st', d'))
    (hend : ∀ w, st.writer = some w → ∃ f, w.file.AtEnd d f)
    (hfree : ∀ req header w, st.helloDone = true → opening frame = some (req, header) →
      st.writer = some w → w.file.path = joinPath dataDir req.fileName →
      w.file.buf = [] ∧ d.Reliable) :
    ∃ created, (∀ path, created = some path → ∃ req header, st.helloDone = true ∧
      opening frame = some (req, header) ∧ path = joinPath dataDir req.fileName) ∧
      Turned st.writer d created st'.writer d' := by
  cases he with
  | same hw hd =>
    refine ⟨none, fun path hp => (by cases hp), ?_⟩
    have hfiles : d'.files = d.files := by
      rcases hd with rfl | rfl
      · rfl
      · rfl
    refine ⟨fun path _ => .of_eq (by rw [hfiles]), fun path _ _ => by rw [hfiles], fun w hw' => ?_⟩
    rw [hw] at hw'
    obtain ⟨f, hf⟩ := hend w hw'
    exact ⟨⟨f, by rw [BufWriter.AtEnd, hfiles]; exact hf⟩, .inr ⟨w, hw', rfl⟩⟩
  | moved hw hw' h =>
    refine ⟨none, fun path hp => (by cases hp), ?_⟩
    rw [hw, hw']
    exact turned_onward (hend _ hw) h fun w hw'' => by cases hw''; rfl
  | ended hw hw' h =>
    refine ⟨none, fun path hp => (by cases hp), ?_⟩
    rw [hw, hw']
    exact turned_onward (hend _ hw) h fun w hw'' => by cases hw''
  | @opened req header w _ d₁ hx hw' hrun hst =>
    obtain ⟨hdr, henc⟩ := FileHeader.encode_create (@opening_header ⟨frame, ⟨.error, []⟩⟩ _ _ hx)
    have hcases := @create_cases (joinPath dataDir req.fileName) header hdr henc d.tick.2
    rw [hrun] at hcases
    refine ⟨some (joinPath dataDir req.fileName), fun path hp => ?_, ?_⟩
    · cases hp
      exact ⟨req, header, hst, hx, rfl⟩
    cases hcases with
    | @ok f _ hp ht hf hbuf =>
      have hother : ∀ path, some (joinPath dataDir req.fileName) ≠ some path →
          d₁.files path = d.files path := fun path hne => ht.other path fun e => hne (by rw [e])
      -- the new file is written at its end
      have hnew : ∃ g, f.AtEnd d₁ g := by
        obtain ⟨g, hg, hpos, -⟩ := hf.file
        exact ⟨g, hg, hpos⟩
      rw [hw']
      unfold AgentState.dropped
      cases hw : st.writer with
      | none =>
        refine ⟨fun path hne => .of_eq (hother path hne), fun path hne _ => hother path hne, ?_⟩
        intro w' hw''
        cases hw''
        exact ⟨hnew, .inl (by rw [← hp]; rfl)⟩
      | some old =>
        dsimp only
        by_cases hsame : old.file.path = joinPath dataDir req.fileName
        · -- it is the file of the old writer, which has nothing to write
          rw [SessionWriter.dropped,
            BufWriter.dropped_empty (hfree req header old hst hx hw hsame).1]
          refine ⟨fun path hne => .of_eq (hother path hne), fun path hne _ => hother path hne, ?_⟩
          intro w' hw''
          cases hw''
          exact ⟨hnew, .inl (by rw [← hp]; rfl)⟩
        · have hold : ∃ g, old.file.AtEnd d₁ g := by
            obtain ⟨g, hg, hpos⟩ := hend old hw
            refine ⟨g, ?_, hpos⟩
            rw [hother _ fun e => hsame (Option.some.inj e).symm]
            exact hg
          obtain ⟨f', hdrop⟩ := BufWriter.dropped_onward old.file d₁
          have hturned := @turned_onward d₁ (old.dropped d₁) old f' none hold hdrop
            fun w' hw' => by cases hw'
          have hkeep : (old.dropped d₁).files f.path = d₁.files f.path :=
            hturned.other f.path (by simp) fun w' hw'' => by
              cases hw''
              exact hp ▸ hsame
          refine ⟨fun path hne => ?_, fun path hne hno => ?_, fun w' hw'' => ?_⟩
          · exact (Longer.of_eq (hother path hne)).trans (hturned.longer path (by simp))
          · rw [hturned.other path (by simp) fun w' hw'' => by cases hw''; exact hno old rfl]
            exact hother path hne
          · cases hw''
            obtain ⟨g, hg, hpos⟩ := hnew
            refine ⟨⟨g, ?_, hpos⟩, .inl (by rw [← hp]; rfl)⟩
            rw [← hg]
            exact hkeep
  | @notOpened req header a _ _ hx hw' hrun hst =>
    obtain ⟨hdr, henc⟩ := FileHeader.encode_create (@opening_header ⟨frame, ⟨.error, []⟩⟩ _ _ hx)
    have hcases := @create_cases (joinPath dataDir req.fileName) header hdr henc d.tick.2
    rw [hrun] at hcases
    refine ⟨some (joinPath dataDir req.fileName), fun path hp => ?_, ?_⟩
    · cases hp
      exact ⟨req, header, hst, hx, rfl⟩
    cases hcases with
    | failed ht hrel =>
      have hother : ∀ path, some (joinPath dataDir req.fileName) ≠ some path →
          d'.files path = d.files path := fun path hne => ht.other path fun e => hne (by rw [e])
      rw [hw']
      refine ⟨fun path hne => .of_eq (hother path hne), fun path hne _ => hother path hne, ?_⟩
      intro w hw
      -- the writer that stays has another file, for the disk did not work
      have hne : w.file.path ≠ joinPath dataDir req.fileName := fun e =>
        hrel (hfree req header w hst hx hw e).2
      obtain ⟨g, hg, hpos⟩ := hend w hw
      refine ⟨⟨g, ?_, hpos⟩, .inr ⟨w, hw, rfl⟩⟩
      rw [hother _ fun e => hne (Option.some.inj e).symm]
      exact hg

/-! ## the connections -/

/-- **every open session writes at the end of a file of its own** -/
structure Alive (h : Host) : Prop where
  atEnd : ∀ i w, h.writer i = some w → ∃ f, w.file.AtEnd h.disk f
  apart : ∀ i j w w', h.writer i = some w → h.writer j = some w' → i ≠ j →
    w.file.path ≠ w'.file.path

@[simp] theorem Host.set_disk (h : Host) (i : Nat) (st : Option AgentState) (d : Disk) :
    (h.set i st d).disk = d := rfl

@[simp] theorem Host.set_writer (h : Host) (i : Nat) (st : Option AgentState) (d : Disk) :
    (h.set i st d).writer i = st.bind AgentState.writer := by
  simp [Host.writer, Host.set]

theorem Host.set_writer_ne {j : Nat} (h : Host) (st : Option AgentState) (d : Disk) (hj : j ≠ i) :
    (h.set i st d).writer j = h.writer j := by
  simp [Host.writer, Host.set, hj]

theorem Host.writer_eq (hi : h.conns i = some st) : h.writer i = st.writer := by
  rw [Host.writer, hi]
  rfl

/-- the files of the journals are all still there -/
def Stays (d d' : Disk) : Prop := ∀ path c, IsJournal c → Starts d path c → Starts d' path c

theorem Longer.starts (h : Longer path d d') (hc : Starts d path c) : Starts d' path c := by
  obtain ⟨f, hf, hp⟩ := hc
  obtain ⟨f', hf', hp'⟩ := h f hf
  exact ⟨f', hf', hp.trans hp'⟩

/-- what a request of one connection leaves of all of them -/
theorem Turned.alive {created : Option String} {o : Option AgentState} (ha : Alive h)
    (ht : Turned (h.writer i) h.disk created (o.bind AgentState.writer) d')
    (hfree : ∀ path, created = some path → Free h i path) :
    Alive (h.set i o d') ∧ Stays h.disk (h.set i o d').disk := by
  -- no other session writes a file that is created
  have hothers : ∀ j w path, j ≠ i → h.writer j = some w → created = some path →
      w.file.path ≠ path := by
    intro j w path hj hw hc he
    rcases hfree path hc with hnone | ⟨-, hown⟩
    · obtain ⟨f, hf, -⟩ := ha.atEnd j w hw
      rw [he, hnone] at hf
      cases hf
    · exact hj (hown j w hw he).1
  have hkept : ∀ j w, j ≠ i → h.writer j = some w → d'.files w.file.path = h.disk.files w.file.path := by
    intro j w hj hw
    refine ht.other _ (fun hc => hothers j w _ hj hw hc rfl) fun w' hw' => ?_
    exact ha.apart i j w' w hw' hw hj.symm
  -- the writer of the connection has a path that no other session has
  have hpath : ∀ j w w', j ≠ i → (o.bind AgentState.writer) = some w' → h.writer j = some w →
      w'.file.path ≠ w.file.path := by
    intro j w w' hj hw' hw
    rcases (ht.writer w' hw').2 with hc | ⟨w₀, hw₀, hp⟩
    · exact (hothers j w _ hj hw hc).symm
    · exact hp ▸ ha.apart i j w₀ w hw₀ hw hj.symm
  refine ⟨⟨fun j w hw => ?_, fun j k w w' hw hw' hne => ?_⟩, fun path c hc hs => ?_⟩
  · by_cases hj : j = i
    · rw [hj, Host.set_writer] at hw
      exact (ht.writer w hw).1
    · rw [Host.set_writer_ne h o d' hj] at hw
      obtain ⟨f, hf, hpos⟩ := ha.atEnd j w hw
      exact ⟨f, (hkept j w hj hw).trans hf, hpos⟩
  · by_cases hj : j = i
    · have hk : k ≠ i := fun hk => hne (hj.trans hk.symm)
      rw [hj, Host.set_writer] at hw
      rw [Host.set_writer_ne h o d' hk] at hw'
      exact hpath k w' w hk hw hw'
    · rw [Host.set_writer_ne h o d' hj] at hw
      by_cases hk : k = i
      · rw [hk, Host.set_writer] at hw'
        exact (hpath j w w' hj hw' hw).symm
      · rw [Host.set_writer_ne h o d' hk] at hw'
        exact ha.apart j k w w' hw hw' hne
  · by_cases hcr : created = some path
    · obtain ⟨f, hf, hp⟩ := hs
      rcases hfree path hcr with hnone | ⟨hno, -⟩
      · rw [hnone] at hf
        cases hf
      · exact absurd ⟨f, hf, hp⟩ (hno c hc)
    · exact (ht.longer path hcr).starts hs

theorem turned_refl {o : Option SessionWriter} (hend : ∀ w, o = some w → ∃ f, w.file.AtEnd d f) :
    Turned o d none o d :=
  ⟨fun _ _ => .of_eq rfl, fun _ _ _ => rfl, fun w hw => ⟨hend w hw, .inr ⟨w, hw, rfl⟩⟩⟩

theorem Stays.refl (d : Disk) : Stays d d := fun _ _ _ hs => hs

/-- the connection ends, and nothing else happens -/
theorem hangUp_alive (ha : Alive h) (hi : h.conns i = some st) :
    Alive (h.hangUp i st h.disk) ∧ Stays h.disk (h.hangUp i st h.disk).disk := by
  have hw := Host.writer_eq hi
  have hturned : Turned st.writer h.disk none none (st.dropped h.disk) :=
    (turned_refl fun w hw' => ha.atEnd i w (hw.trans hw')).dropped
  rw [← hw] at hturned
  exact Turned.alive ha hturned fun path hp => by cases hp

/-- **one step keeps the sessions apart, and the journals whole** -/
theorem step_alive (ha : Alive h) {a : Act} (hf : Fresh dataDir h a) :
    Alive (h.step dataDir a) ∧ Stays h.disk (h.step dataDir a).disk := by
  cases a with
  | connect i config =>
    rw [Host.step]
    cases hi : h.conns i with
    | some st => exact ⟨ha, .refl _⟩
    | none =>
      refine @Turned.alive h i h.disk none (some (.new config)) ha ?_ fun path hp => by cases hp
      have hw : h.writer i = none := by
        rw [Host.writer, hi]
        rfl
      rw [hw]
      exact turned_refl fun w hw => by cases hw
  | close i =>
    rw [Host.step]
    cases hi : h.conns i with
    | none => exact ⟨ha, .refl _⟩
    | some st => exact hangUp_alive ha hi
  | request i frame =>
    rw [Host.step]
    cases hi : h.conns i with
    | none => exact ⟨ha, .refl _⟩
    | some st =>
      dsimp only
      by_cases hlen : frame.length > maxFrameSize
      · rw [if_pos hlen]
        exact hangUp_alive ha hi
      have hmax : maxFrameSize < 2^63 := by decide
      have hw := Host.writer_eq hi
      have heff := @handle_effect dataDir frame st h.disk (by omega)
      rw [if_neg hlen]
      -- what is left, as the connection goes on or ends
      have left : ∀ {st' : AgentState} {d' : Disk}, Effect dataDir frame st h.disk (st', d') →
          (Alive (h.set i (some st') d') ∧ Stays h.disk (h.set i (some st') d').disk) ∧
          Alive (h.hangUp i st' d') ∧ Stays h.disk (h.hangUp i st' d').disk := by
        intro st' d' he
        obtain ⟨created, hc, hturned⟩ := effect_turned he
          (fun w hw' => ha.atEnd i w (hw.trans hw')) fun req header w hst hx hw' hp => by
            rcases hf st req header hi hst hx with hnone | ⟨-, hown⟩
            · obtain ⟨f, hf', -⟩ := ha.atEnd i w (hw.trans hw')
              rw [hp, hnone] at hf'
              cases hf'
            · exact (hown i w (hw.trans hw') hp).2
        have hfree : ∀ path, created = some path → Free h i path := by
          intro path hp
          obtain ⟨req, header, hst, hx, rfl⟩ := hc path hp
          exact hf st req header hi hst hx
        have hdropped := hturned.dropped
        rw [← hw] at hturned hdropped
        exact ⟨hturned.alive ha hfree, hdropped.alive ha hfree⟩
      cases hr : (handle dataDir frame).run (st, h.disk) with
      | ok r s =>
        rw [hr] at heff
        exact (left heff).1
      | error e s =>
        rw [hr] at heff
        cases e with
        | error e =>
          cases e with
          | again text => exact (left heff).1
          | close text => exact (left heff).2
        | panic => exact (left heff).2
        | diverge => exact (left heff).2

/-! ## all histories -/

/-- **What was committed to a file stays its beginning**, in every history of connections and
requests on one disk, whatever fails, in which each `OpenSession` names a file that may be
created -/
theorem committed_stays {h₀ : Host} (hnone : ∀ i, h₀.conns i = none) {pre post : List Act}
    (hfresh : ∀ acts a rest, pre ++ post = acts ++ a :: rest → Fresh dataDir (h₀.run dataDir acts) a)
    (hc : IsJournal c) (hs : Starts (h₀.run dataDir pre).disk path c) :
    Starts (h₀.run dataDir (pre ++ post)).disk path c := by
  have halive₀ : Alive h₀ := by
    refine ⟨fun i w hw => ?_, fun i j w w' hw => ?_⟩
    · rw [Host.writer, hnone i] at hw
      cases hw
    · rw [Host.writer, hnone i] at hw
      cases hw
  have hsnoc : ∀ acts a, h₀.run dataDir (acts ++ [a]) = (h₀.run dataDir acts).step dataDir a := by
    intro acts a
    rw [Host.run, List.foldl_append]
    rfl
  have halive : ∀ acts, acts <+: pre ++ post → Alive (h₀.run dataDir acts) := by
    intro acts
    induction acts using List.reverseRecOn with
    | nil => exact fun _ => halive₀
    | append_singleton acts a ih =>
      rintro ⟨rest, hrest⟩
      rw [List.append_assoc] at hrest
      have ha := ih ⟨_, hrest⟩
      rw [hsnoc]
      exact (step_alive ha (hfresh acts a rest hrest.symm)).1
  have hstays : ∀ acts, acts <+: post → Starts (h₀.run dataDir (pre ++ acts)).disk path c := by
    intro acts
    induction acts using List.reverseRecOn with
    | nil =>
      rw [List.append_nil]
      exact fun _ => hs
    | append_singleton acts a ih =>
      rintro ⟨rest, hrest⟩
      rw [List.append_assoc] at hrest
      have hpre : pre ++ post = (pre ++ acts) ++ a :: rest := by
        rw [← hrest, List.append_assoc]
        rfl
      rw [← List.append_assoc, hsnoc]
      exact (step_alive (halive _ ⟨_, hpre.symm⟩) (hfresh _ a rest hpre)).2 path c hc
        (ih ⟨_, hrest⟩)
  exact hstays post (List.prefix_refl _)

/-! ## the requests of one connection -/

theorem Host.set_self (hi : h.conns i = some st) : h.set i (some st) h.disk = h := by
  have hconns : (fun j => if j = i then some st else h.conns j) = h.conns := by
    funext j
    split
    · rename_i hj
      rw [hj, hi]
    · rfl
  rw [Host.set, hconns]

theorem Host.set_set (h : Host) (i : Nat) (o o' : Option AgentState) (d d' : Disk) :
    (h.set i o d).set i o' d' = h.set i o' d' := by
  have hconns : (fun j => if j = i then o' else (h.set i o d).conns j)
      = fun j => if j = i then o' else h.conns j := by
    funext j
    split
    · rfl
    · rename_i hj
      exact if_neg hj
  rw [Host.set, hconns]
  rfl

/-- the requests of a connection that is over -/
theorem Host.run_none (frames : List Bytes) (hi : h.conns i = none) :
    h.run dataDir (frames.map (.request i)) = h := by
  induction frames with
  | nil => rfl
  | cons frame frames ih =>
    have hstep : h.step dataDir (.request i frame) = h := by
      rw [Host.step, hi]
    rw [List.map_cons, Host.run, List.foldl_cons, hstep]
    exact ih

/-- **the requests of a connection are answered as `handle_client` does**, and it ends as there -/
theorem Host.serves {frames : List Bytes} (hi : h.conns i = some st)
    (hframes : ∀ frame ∈ frames, frame.length ≤ maxFrameSize) :
    h.run dataDir (frames.map (.request i)) =
      if (serve dataDir frames st h.disk).ending = .going then
        h.set i (some (serve dataDir frames st h.disk).state) (serve dataDir frames st h.disk).disk
      else h.hangUp i (serve dataDir frames st h.disk).state (serve dataDir frames st h.disk).disk := by
  induction frames generalizing h st with
  | nil =>
    rw [serve, if_pos rfl]
    exact (Host.set_self hi).symm
  | cons frame frames ih =>
    have hlen : ¬ frame.length > maxFrameSize := not_lt.mpr (hframes frame (List.mem_cons_self ..))
    -- the connection goes on
    have next : ∀ (r : Reply) (st' : AgentState) (d' : Disk),
        (h.set i (some st') d').run dataDir (frames.map (.request i)) =
          if ((serve dataDir frames st' d').cons ⟨frame, r⟩).ending = .going then
            h.set i (some ((serve dataDir frames st' d').cons ⟨frame, r⟩).state)
              ((serve dataDir frames st' d').cons ⟨frame, r⟩).disk
          else h.hangUp i ((serve dataDir frames st' d').cons ⟨frame, r⟩).state
            ((serve dataDir frames st' d').cons ⟨frame, r⟩).disk := by
      intro r st' d'
      have hset : (h.set i (some st') d').conns i = some st' := if_pos rfl
      rw [ih hset fun f hf => hframes f (List.mem_cons_of_mem _ hf)]
      simp only [Host.hangUp, Host.set_set, Host.set_disk]
      rfl
    -- it is over
    have last : ∀ (st' : AgentState) (d' : Disk),
        (h.hangUp i st' d').run dataDir (frames.map (.request i)) = h.hangUp i st' d' :=
      fun st' d' => Host.run_none frames (if_pos rfl)
    rw [List.map_cons, Host.run, List.foldl_cons, ← Host.run, Host.step, hi]
    dsimp only
    rw [if_neg hlen, serve]
    cases hr : (handle dataDir frame).run (st, h.disk) with
    | ok r s => exact next r s.1 s.2
    | error e s =>
      cases e with
      | error e =>
        cases e with
        | again text => exact next ⟨.error, text⟩ s.1 s.2
        | close text => exact last s.1 s.2
      | panic => exact last s.1 s.2
      | diverge => exact last s.1 s.2

/-! ## two sessions under one name -/

/-- a host without connections, on a disk without files -/
def Host.start : Host := ⟨exampleDisk, fun _ => none⟩

/-- the example session, up to its end -/
def firstSession : List Act :=
  .connect 0 .default :: ((exampleHello :: exampleOpen :: (exampleMid ++ [exampleFinish])).map fun x =>
    .request 0 x.frame)

/-- the chunks of its file -/
def firstChunks : List Batch :=
  [.dict [⟨.domain, 1, "net"⟩, ⟨.category, 1, "rx"⟩, ⟨.eventName, 1, "frame"⟩, ⟨.string, 1, "raw"⟩],
    .events [⟨7, 1, 1, 1, 1, 0, .info, ⟨[⟨1, .u32 7⟩]⟩⟩]]

theorem first_journal : IsJournal
    ((((Host.start.run "d" firstSession).disk.files "d/s").getD []).take 128 ++ layout 1 firstChunks) :=
  ⟨_, _, by decide +kernel, by decide, rfl⟩

theorem first_committed : Starts (Host.start.run "d" firstSession).disk "d/s"
    ((((Host.start.run "d" firstSession).disk.files "d/s").getD []).take 128
      ++ layout 1 firstChunks) := by
  obtain ⟨file, hfile, hp⟩ : ∃ file, (Host.start.run "d" firstSession).disk.files "d/s" = some file ∧
      ((((Host.start.run "d" firstSession).disk.files "d/s").getD []).take 128
        ++ layout 1 firstChunks).isPrefixOf file = true :=
    (Option.any_eq_true _ _).mp (by decide +kernel)
  exact ⟨file, hfile, List.isPrefixOf_iff_prefix.mp hp⟩

/-- an `OpenSession` names a file that is not there, as it can be run -/
def isNew (dataDir : String) (h : Host) : Act → Bool
  | .request i frame => match h.conns i, opening frame with
    | some _, some (req, _) => (h.disk.files (joinPath dataDir req.fileName)).isNone
    | _, _ => true
  | .connect _ _ => true
  | .close _ => true

def allNew (dataDir : String) : List Act → Host → Bool
  | [], _ => true
  | a :: acts, h => isNew dataDir h a && allNew dataDir acts (h.step dataDir a)

theorem fresh_of_allNew {acts : List Act} (hall : allNew dataDir acts h = true) :
    ∀ done a rest, acts = done ++ a :: rest → Fresh dataDir (h.run dataDir done) a := by
  induction acts generalizing h with
  | nil => intro done a rest he; simp at he
  | cons b acts ih =>
    rw [allNew, Bool.and_eq_true] at hall
    intro done a rest he
    cases done with
    | cons b' done =>
      cases he
      exact ih hall.2 done a rest rfl
    | nil =>
      cases he
      cases b with
      | connect i config => trivial
      | close i => trivial
      | request i frame =>
        intro st req header hi hst hx
        have hnew := hall.1
        simp only [isNew, show h.conns i = some st from hi, hx] at hnew
        exact .inl (Option.isNone_iff_eq_none.mp hnew)

/-- another connection, with another name -/
def secondSession (fileName : String) : List Act :=
  [.connect 1 .default, .request 1 helloFrame, .request 1 (openFrame fileName)]

theorem committed_stays_example : IsJournal
      ((((Host.start.run "d" firstSession).disk.files "d/s").getD []).take 128
        ++ layout 1 firstChunks) ∧
    Starts (Host.start.run "d" (firstSession ++ secondSession "t")).disk "d/s"
      ((((Host.start.run "d" firstSession).disk.files "d/s").getD []).take 128
        ++ layout 1 firstChunks) :=
  ⟨first_journal, committed_stays (fun _ => rfl) (fresh_of_allNew (by decide +kernel)) first_journal
    first_committed⟩

/-- the committed event of the first session is gone once the second one has its name -/
theorem committed_lost : IsJournal
      ((((Host.start.run "d" firstSession).disk.files "d/s").getD []).take 128
        ++ layout 1 firstChunks) ∧
    Starts (Host.start.run "d" firstSession).disk "d/s"
      ((((Host.start.run "d" firstSession).disk.files "d/s").getD []).take 128
        ++ layout 1 firstChunks) ∧
    ¬ Starts (Host.start.run "d" (firstSession ++ secondSession "s")).disk "d/s"
      ((((Host.start.run "d" firstSession).disk.files "d/s").getD []).take 128
        ++ layout 1 firstChunks) := by
  refine ⟨first_journal, first_committed, fun ⟨file, hfile, hp⟩ => ?_⟩
  have hlen := hp.length_le
  have hshort : (((Host.start.run "d" (firstSession ++ secondSession "s")).disk.files "d/s").getD
      []).length < ((((Host.start.run "d" firstSession).disk.files "d/s").getD []).take 128
        ++ layout 1 firstChunks).length := by decide +kernel
  rw [hfile, Option.getD_some] at hshort
  exact absurd hlen (not_le.mpr hshort)

end Dtj.Agent
