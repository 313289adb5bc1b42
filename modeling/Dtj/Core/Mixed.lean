import Dtj.Core.Dict

/-!
# A dictionary that is filled by `insert` and by `intern`

`insert` takes the ids that it is given and does not look at the names; `intern` counts its ids and
does not look at those that were given.

* `DictOp`, `DictOp.exec`, `reached`   the public operations, and a sequence of them;
* `Inverse`                            the two maps of a dictionary say the same;
* `Faithful`                           what is to be said of one operation;
* `Fits`                               the states in which it can be said;
* `mixed_iff`                          **a sequence keeps both exactly as long as each operation fits**.
-/

namespace Dtj
open Wire Checked

inductive DictOp where
  | insert (entry : DictEntry)
  | intern (kind : DictKind) (name : String)
deriving DecidableEq

/-- `none` is the answer of `insert` -/
def DictOp.exec : DictOp → Prog Dictionary Error (Option (UInt32 × Bool))
  | .insert entry => do
    let self ← get
    let self ← Prog.of (lift (self.insert entry))
    set self
    return none
  | .intern kind name => some <$> Dictionary.intern kind name

namespace Dictionary

def after (d : Dictionary) (op : DictOp) : Dictionary :=
  match op.exec.run d with
  | .ok _ d' => d'
  | .error _ d' => d'

/-- the dictionary after the operations, from the empty one on -/
def reached (ops : List DictOp) : Dictionary := ops.foldl after new

/-- the map by key and the map by name are inverse, kind by kind -/
def Inverse (d : Dictionary) : Prop :=
  ∀ kind id name, d.getName kind id = some name ↔ d.idOf kind name = some id

/-- a failure changes nothing; a name that is there keeps its id; a name of at most 1024 bytes gets an
id that is not in use, while there is one -/
structure Faithful (d : Dictionary) (op : DictOp) : Prop where
  unchanged : ∀ e d', op.exec.run d = .error e d' → d' = d
  present : ∀ kind name id, op = .intern kind name → d.idOf kind name = some id →
    op.exec.run d = .ok (some (id, false)) d
  fresh : ∀ kind name, op = .intern kind name → (utf8 name).length ≤ 1024 → d.idOf kind name = none →
    (∃ id, id ≠ 0 ∧ d.getName kind id = none) →
    ∃ id d', op.exec.run d = .ok (some (id, true)) d' ∧ id ≠ 0 ∧ d.getName kind id = none ∧
      d'.idOf kind name = some id

/-- an entry that is inserted has a new name; the id that the counter stands at is not in use -/
def Fits (d : Dictionary) : DictOp → Prop
  | .insert e => e.id = 0 ∨ 1024 < (utf8 e.name).length ∨ d.getName e.kind e.id ≠ none ∨
      d.idOf e.kind e.name = none
  | .intern kind name => 1024 < (utf8 name).length ∨ d.idOf kind name ≠ none ∨
      (d.getName kind (d.next kind) = none ∧ (d.next kind).toNat + 1 < 2^32) ∨
      ((d.next kind).toNat + 1 = 2^32 ∧ ∀ id, id ≠ 0 → d.getName kind id ≠ none)

/-! ## every run -/

/-- what holds of every dictionary that is reached -/
structure Counted (d : Dictionary) : Prop where
  sound : d.Sound
  next : ∀ kind, d.next kind ≠ 0

theorem idOf_added (d : Dictionary) (e : DictEntry) (kind : DictKind) (name : String) :
    (d.added e).idOf kind name
      = if (kind, name) = (e.kind, e.name) then some e.id else d.idOf kind name := by
  rw [idOf, added]
  by_cases hk : (kind, name) = (e.kind, e.name)
  · rw [if_pos hk, hk, AList.lookup_insert]
  · rw [if_neg hk, AList.lookup_insert_ne hk]
    rfl

theorem counted_new : Counted new where
  sound := sound_new
  next kind := by
    show (1 : UInt32) ≠ 0
    decide

theorem Counted.insert {d d' : Dictionary} (hd : d.Counted) {e : DictEntry} (h : d.insert e = .ok d') :
    d'.Counted where
  sound := hd.sound.insert h
  next kind := by
    rw [(insert_ok.mp h).2.2.2, added_next]
    exact hd.next kind

theorem Counted.counted {d : Dictionary} (hd : d.Counted) {kind : DictKind}
    (h : (d.next kind).toNat + 1 < 2^32) : (d.counted kind).Counted where
  sound := ⟨hd.sound.id_ne_zero, hd.sound.name_length, hd.sound.idOf_getName⟩
  next k := by
    by_cases hk : k = kind
    · subst hk
      have e : (d.counted k).next k = d.next k + 1 := by
        unfold Dictionary.counted
        rw [Dictionary.next, AList.lookup_insert, Option.getD_some]
      rw [e]
      intro h0
      have hzero := congrArg UInt32.toNat h0
      rw [UInt32.toNat_add, show (1 : UInt32).toNat = 1 from rfl, Nat.mod_eq_of_lt h] at hzero
      cases hzero
    · have e : (d.counted kind).next k = d.next k := by
        unfold Dictionary.counted
        rw [Dictionary.next, AList.lookup_insert_ne hk, Dictionary.next]
      rw [e]
      exact hd.next k

theorem insert_run (d : Dictionary) (e : DictEntry) :
    (DictOp.insert e).exec.run d = match d.insert e with
      | .ok d' => .ok none d'
      | .error err => .error (.error err) d := by
  unfold DictOp.exec
  simp only [EStateM.run_bind, EStateM.run_get]
  cases d.insert e with
  | ok d' => rfl
  | error err => rfl

/-- `intern`, without its monad -/
theorem intern_eq (d : Dictionary) (kind : DictKind) (name : String) :
    (DictOp.intern kind name).exec.run d =
      if 1024 < (utf8 name).length then
        .error (.error (.limitExceeded "dictionary name too long")) d
      else match d.idOf kind name with
        | some id => .ok (some (id, false)) d
        | none =>
          if (d.next kind).toNat + 1 < 2^32 then
            match (d.counted kind).insert ⟨kind, d.next kind, name⟩ with
            | .ok d' => .ok (some (d.next kind, true)) d'
            | .error err => .error (.error err) (d.counted kind)
          else .error .panic d := by
  unfold DictOp.exec
  rw [run_map]
  unfold intern
  by_cases hlen : 1024 < (utf8 name).length
  · rw [if_pos (show (utf8 name).length > maxDictNameLen.toNat from hlen), if_pos hlen]
    rfl
  rw [if_neg (show ¬ (utf8 name).length > maxDictNameLen.toNat from hlen), if_neg hlen]
  simp only [EStateM.run_bind, EStateM.run_get]
  cases hid : d.idOf kind name with
  | some id =>
    rw [idOf] at hid
    simp only [hid]
    rfl
  | none =>
    rw [idOf] at hid
    simp only [hid]
    by_cases hmax : (d.next kind).toNat + 1 < 2^32
    · have hincr : (incr32 (d.next kind) : Res Error UInt32) = .ok (d.next kind + 1) :=
        incr32_eq hmax
      simp only [EStateM.run_bind, show (d.nextId.lookup kind).getD 1 = d.next kind from rfl, hincr,
        Prog.of_ok, EStateM.run_set, if_pos hmax]
      rw [show (⟨d.byKey, d.byName, d.nextId.insert kind (d.next kind + 1)⟩ : Dictionary)
        = d.counted kind from rfl]
      cases (d.counted kind).insert ⟨kind, d.next kind, name⟩ with
      | error err => rfl
      | ok d' => rfl
    · have hincr : (incr32 (d.next kind) : Res Error UInt32) = crash := if_neg hmax
      simp only [EStateM.run_bind, show (d.nextId.lookup kind).getD 1 = d.next kind from rfl, hincr,
        Prog.of_crash, if_neg hmax]
      rfl

/-- a name that is known gets its id again -/
theorem intern_known {d : Dictionary} {kind : DictKind} {name : String} {id : UInt32}
    (h : d.idOf kind name = some id) (hlen : (utf8 name).length ≤ 1024) :
    (intern kind name).run d = .ok (id, false) d := by
  have hrun := intern_eq d kind name
  rw [if_neg (by omega), h, DictOp.exec, run_map] at hrun
  cases hr : (intern kind name).run d with
  | error a d' =>
    rw [hr] at hrun
    cases hrun
  | ok x d' =>
    rw [hr] at hrun
    cases hrun
    rfl

/-- **what is known stays known, however the call ends, and a name that gets an id is known** -/
theorem intern_idOf (d : Dictionary) (kind : DictKind) (name : String) :
    (∀ k n id, d.idOf k n = some id → (stateOf ((intern kind name).run d)).idOf k n = some id) ∧
    ∀ id newly d', (intern kind name).run d = .ok (id, newly) d' → d'.idOf kind name = some id := by
  have hcases := intern_cases d kind name
  generalize (intern kind name).run d = r at hcases ⊢
  cases hcases with
  | @old id hid =>
    refine ⟨fun k n id' h => h, fun id' newly d' h => ?_⟩
    cases h
    exact hid
  | @new id d' hid hi hmax hd =>
    obtain ⟨-, -, -, rfl⟩ := insert_ok.mp hd
    have hadded := idOf_added (d.counted kind) ⟨kind, id, name⟩
    refine ⟨fun k n id' h => ?_, fun id' newly d' h => ?_⟩
    · rw [stateOf, hadded, if_neg]
      · exact h
      · intro hk
        cases hk
        rw [hid] at h
        cases h
    · cases h
      rw [hadded, if_pos rfl]
  | long hlen => exact ⟨fun k n id' h => h, fun id' newly d' h => by cases h⟩
  | refused hmax herr => exact ⟨fun k n id' h => h, fun id' newly d' h => by cases h⟩
  | overflow hmax => exact ⟨fun k n id' h => h, fun id' newly d' h => by cases h⟩

theorem Counted.after {d : Dictionary} (hd : d.Counted) (op : DictOp) : (d.after op).Counted := by
  cases op with
  | insert e =>
    rw [Dictionary.after, insert_run]
    cases h : d.insert e with
    | ok d' => exact hd.insert h
    | error err => exact hd
  | intern kind name =>
    rw [Dictionary.after, intern_eq]
    by_cases hlen : 1024 < (utf8 name).length
    · rw [if_pos hlen]
      exact hd
    rw [if_neg hlen]
    cases d.idOf kind name with
    | some id => exact hd
    | none =>
      by_cases hmax : (d.next kind).toNat + 1 < 2^32
      · simp only [if_pos hmax]
        cases h : (d.counted kind).insert ⟨kind, d.next kind, name⟩ with
        | ok d' => exact (hd.counted hmax).insert h
        | error err => exact hd.counted hmax
      · simp only [if_neg hmax]
        exact hd

/-! ## one operation -/

theorem Inverse.added {d : Dictionary} (hd : d.Inverse) {e : DictEntry}
    (hkey : d.getName e.kind e.id = none) : (d.added e).Inverse ↔ d.idOf e.kind e.name = none := by
  constructor
  · intro h
    cases hid : d.idOf e.kind e.name with
    | none => rfl
    | some id =>
      -- the old id still leads to the name, which leads to the new one
      have hname := (hd e.kind id e.name).mpr hid
      have hne : (e.kind, id) ≠ (e.kind, e.id) := by
        intro hk
        cases hk
        rw [hkey] at hname
        cases hname
      have hold : (d.added e).getName e.kind id = some e.name := by
        rw [added_getName, if_neg hne]
        exact hname
      have hnew := (h e.kind id e.name).mp hold
      rw [idOf_added, if_pos rfl] at hnew
      cases hnew
      exact absurd rfl hne
  · intro hfree kind id name
    rw [added_getName, idOf_added]
    by_cases hk : (kind, id) = (e.kind, e.id)
    · cases hk
      rw [if_pos rfl]
      by_cases hn : name = e.name
      · subst hn
        rw [if_pos rfl]
        simp
      · rw [if_neg (fun h => hn (Prod.mk.inj h).2)]
        constructor
        · intro h
          exact absurd (Option.some.inj h).symm hn
        · intro h
          rw [(hd _ _ _).mpr h] at hkey
          cases hkey
    · rw [if_neg hk]
      by_cases hn : (kind, name) = (e.kind, e.name)
      · cases hn
        rw [if_pos rfl]
        constructor
        · intro h
          rw [(hd _ _ _).mp h] at hfree
          cases hfree
        · intro h
          exact absurd (by rw [Option.some.inj h]) hk
      · rw [if_neg hn]
        exact hd kind id name

theorem inverse_counted {d : Dictionary} {kind : DictKind} : (d.counted kind).Inverse ↔ d.Inverse :=
  Iff.rfl

/-- a counter that moved is another dictionary -/
theorem counted_ne (d : Dictionary) (kind : DictKind) (h : (d.next kind).toNat + 1 < 2^32) :
    d.counted kind ≠ d := by
  intro hsame
  have hnext := congrArg (fun d => (d.next kind).toNat) hsame
  have e : (d.counted kind).next kind = d.next kind + 1 := by
    unfold Dictionary.counted
    rw [Dictionary.next, AList.lookup_insert, Option.getD_some]
  rw [e, UInt32.toNat_add, show (1 : UInt32).toNat = 1 from rfl, Nat.mod_eq_of_lt h] at hnext
  omega

/-- **what one operation keeps**, and when -/
theorem step_iff {d : Dictionary} (hd : d.Inverse) (hc : d.Counted) (op : DictOp) :
    (d.after op).Inverse ∧ d.Faithful op ↔ d.Fits op := by
  cases op with
  | insert e =>
    have hfaithful : d.Faithful (.insert e) := by
      refine ⟨fun err d' h => ?_, fun _ _ _ h => (by cases h), fun _ _ h => (by cases h)⟩
      rw [insert_run] at h
      cases hins : d.insert e with
      | ok d₁ =>
        rw [hins] at h
        cases h
      | error err' =>
        rw [hins] at h
        cases h
        rfl
    rw [and_iff_left hfaithful, Dictionary.after, insert_run]
    cases hins : d.insert e with
    | ok d' =>
      obtain ⟨h0, hlen, hkey, rfl⟩ := insert_ok.mp hins
      refine (hd.added hkey).trans ⟨fun h => .inr (.inr (.inr h)), ?_⟩
      rintro (h | h | h | h)
      · exact absurd h h0
      · omega
      · exact absurd hkey h
      · exact h
    | error err =>
      refine ⟨fun _ => ?_, fun _ => hd⟩
      by_contra hfit
      simp only [Fits, not_or, not_lt, not_not] at hfit
      obtain ⟨h0, hlen, hkey, _⟩ := hfit
      rw [insert_ok.mpr ⟨h0, hlen, hkey, rfl⟩] at hins
      cases hins
  | intern kind name =>
    have hrun := intern_eq d kind name
    by_cases hlen : 1024 < (utf8 name).length
    · rw [if_pos hlen] at hrun
      rw [Dictionary.after, hrun]
      refine ⟨fun _ => .inl hlen, fun _ => ⟨hd, ?_, ?_, ?_⟩⟩
      · intro e d' h
        rw [hrun] at h
        cases h
        rfl
      · rintro _ _ id ⟨⟩ hid
        have hshort := hc.sound.name_length (hc.sound.idOf_getName hid)
        omega
      · rintro _ _ ⟨⟩ hshort
        omega
    rw [if_neg hlen] at hrun
    cases hid : d.idOf kind name with
    | some id =>
      rw [hid] at hrun
      rw [Dictionary.after, hrun]
      refine ⟨fun _ => .inr (.inl (by rw [hid]; exact nofun)), fun _ => ⟨hd, ?_, ?_, ?_⟩⟩
      · intro e d' h
        rw [hrun] at h
        cases h
      · rintro _ _ id' ⟨⟩ hid'
        cases hid.symm.trans hid'
        exact hrun
      · rintro _ _ ⟨⟩ _ hnone
        rw [hid] at hnone
        cases hnone
    | none =>
      rw [hid] at hrun
      have hpresent : ∀ {r : EStateM.Result (Abort Error) Dictionary (Option (UInt32 × Bool))} kind' name' id,
          DictOp.intern kind name = .intern kind' name' → d.idOf kind' name' = some id → r = .ok (some (id, false)) d := by
        rintro r _ _ id ⟨⟩ hid'
        rw [hid] at hid'
        cases hid'
      by_cases hmax : (d.next kind).toNat + 1 < 2^32
      · simp only [if_pos hmax] at hrun
        cases hins : (d.counted kind).insert ⟨kind, d.next kind, name⟩ with
        | ok d' =>
          rw [hins] at hrun
          obtain ⟨h0, _, hkey, rfl⟩ := insert_ok.mp hins
          rw [Dictionary.after, hrun]
          refine ⟨fun _ => .inr (.inr (.inl ⟨hkey, hmax⟩)), fun _ => ⟨?_, ?_, hpresent, ?_⟩⟩
          · exact (Inverse.added (inverse_counted.mpr hd) hkey).mpr hid
          · intro e d' h
            rw [hrun] at h
            cases h
          · rintro _ _ ⟨⟩ _ _ _
            refine ⟨d.next kind, _, hrun, h0, hkey, ?_⟩
            rw [idOf_added, if_pos rfl]
        | error err =>
          -- the counter has moved on, and the id is in use
          rw [hins] at hrun
          have hkey : d.getName kind (d.next kind) ≠ none := by
            intro hkey
            rw [insert_ok.mpr ⟨hc.next kind, not_lt.mp hlen, hkey, rfl⟩] at hins
            cases hins
          constructor
          · rintro ⟨_, hfaithful⟩
            exact absurd (hfaithful.unchanged _ _ hrun) (counted_ne d kind hmax)
          · rintro (h | h | h | h)
            · exact absurd h hlen
            · exact absurd hid h
            · exact absurd h.1 hkey
            · omega
      · simp only [if_neg hmax] at hrun
        have hlast : (d.next kind).toNat + 1 = 2^32 := by
          have hlt := (d.next kind).toNat_lt
          omega
        rw [Dictionary.after, hrun]
        constructor
        · rintro ⟨_, hfaithful⟩
          refine .inr (.inr (.inr ⟨hlast, fun id h0 hfree => ?_⟩))
          obtain ⟨_, _, h, _⟩ := hfaithful.fresh kind name rfl (not_lt.mp hlen) hid ⟨id, h0, hfree⟩
          rw [hrun] at h
          cases h
        · rintro (h | h | h | ⟨_, hfull⟩)
          · exact absurd h hlen
          · exact absurd hid h
          · exact absurd h.2 hmax
          · refine ⟨hd, ?_, hpresent, ?_⟩
            · intro e d' h
              rw [hrun] at h
              cases h
              rfl
            · rintro _ _ ⟨⟩ _ _ ⟨id, h0, hfree⟩
              exact absurd hfree (hfull id h0)

/-! ## a sequence of operations -/

theorem reached_snoc (ops : List DictOp) (op : DictOp) : reached (ops ++ [op]) = (reached ops).after op := by
  rw [reached, List.foldl_append]
  rfl

theorem counted_reached (ops : List DictOp) : (reached ops).Counted := by
  induction ops using List.reverseRecOn with
  | nil => exact counted_new
  | append_singleton ops op ih =>
    rw [reached_snoc]
    exact ih.after op

theorem inverse_new : Inverse new := by
  intro kind id name
  constructor
  · intro h
    cases h
  · intro h
    cases h

theorem inverse_reached {ops : List DictOp}
    (h : ∀ pre op post, ops = pre ++ op :: post → (reached pre).Fits op) : (reached ops).Inverse := by
  induction ops using List.reverseRecOn with
  | nil => exact inverse_new
  | append_singleton ops op ih =>
    rw [reached_snoc]
    have hinv : (reached ops).Inverse := by
      refine ih fun pre op' post heq => h pre op' (post ++ [op]) ?_
      rw [heq, List.append_assoc, List.cons_append]
    exact ((step_iff hinv (counted_reached ops) op).mpr (h ops op [] rfl)).1

/-- **a sequence of insertions and internings keeps the maps inverse, and each of its operations
faithful, exactly as long as each operation fits** -/
theorem mixed_iff (ops : List DictOp) :
    (∀ pre op post, ops = pre ++ op :: post →
      (reached (pre ++ [op])).Inverse ∧ (reached pre).Faithful op) ↔
    ∀ pre op post, ops = pre ++ op :: post → (reached pre).Fits op := by
  constructor
  · intro h pre op post heq
    have hinv : (reached pre).Inverse := by
      rcases List.eq_nil_or_concat pre with rfl | ⟨pre', op', rfl⟩
      · exact inverse_new
      · rw [List.concat_eq_append] at heq ⊢
        refine (h pre' op' (op :: post) ?_).1
        rw [heq, List.append_assoc]
        rfl
    rw [← step_iff hinv (counted_reached pre), ← reached_snoc]
    exact h pre op post heq
  · intro h pre op post heq
    have hinv : (reached pre).Inverse := by
      refine inverse_reached fun pre' op' post' heq' => h pre' op' (post' ++ op :: post) ?_
      rw [heq, heq', List.append_assoc, List.cons_append]
    rw [reached_snoc, step_iff hinv (counted_reached pre)]
    exact h pre op post heq

/-- a name with two ids, and an id that the counter does not know of -/
theorem mixed_inconsistent :
    ¬ (reached [.insert ⟨.domain, 1, "a"⟩, .insert ⟨.domain, 2, "a"⟩]).Inverse ∧
    ¬ (reached [.insert ⟨.domain, 1, "a"⟩]).Faithful (.intern .domain "b") := by
  constructor
  · intro h
    have htwo := (h .domain 1 "a").mp (by decide +kernel)
    exact absurd htwo (by decide +kernel)
  · intro h
    have hfirst : ∃ id, id ≠ 0 ∧ (reached [.insert ⟨.domain, 1, "a"⟩]).getName .domain id = none :=
      ⟨2, by decide, by decide +kernel⟩
    have hid : (reached [.insert ⟨.domain, 1, "a"⟩]).idOf .domain "b" = none := by decide +kernel
    obtain ⟨id, d', hrun, _⟩ := h.fresh .domain "b" rfl (by decide +kernel) hid hfirst
    rw [intern_eq, if_neg (by decide +kernel), hid] at hrun
    dsimp only at hrun
    split at hrun
    · split at hrun
      · rename_i d'' hins
        exact absurd (insert_ok.mp hins).2.2.1 (by decide +kernel)
      · cases hrun
    · cases hrun

end Dictionary

end Dtj
