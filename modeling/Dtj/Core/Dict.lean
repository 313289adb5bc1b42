import Dtj.Core.Event
import Mathlib.Data.List.AList

/-!
# The dictionary of interned names

`crates/dtj/src/dict.rs`.

* `Dictionary.intern`, `insert`, `require`, `encodeEntries`, `decodeEntries`   the source;
* `insertAll`                     the entries of a chunk, one after the other;
* `Dictionary.Sound`              what `insert` keeps, from the empty dictionary on;
* `insert_cases`, `intern_cases`  everything that the two operations can do;
* `encodeEntries_ok`, `decodeEntries_eq`, `entryP_inverts`, `entryP_sized`   the codec.
-/

namespace Dtj
open Wire Checked

inductive DictKind where
  | domain
  | category
  | eventName
  | string
deriving DecidableEq, Repr

def DictKind.toU8 : DictKind → UInt8
  | .domain => 1
  | .category => 2
  | .eventName => 3
  | .string => 4

def DictKind.fromU8 (v : UInt8) : Except Error DictKind :=
  if v = 1 then .ok .domain
  else if v = 2 then .ok .category
  else if v = 3 then .ok .eventName
  else if v = 4 then .ok .string
  else .error (.malformedRecord s!"unknown dict kind {v}")

@[simp] theorem DictKind.fromU8_toU8 (k : DictKind) : DictKind.fromU8 k.toU8 = .ok k := by
  cases k <;> rfl

structure DictEntry where
  kind : DictKind
  id : UInt32
  name : String
deriving DecidableEq, Repr

/-- the three maps of a dictionary -/
structure Dictionary where
  byKey : AList (fun _ : DictKind × UInt32 => String)
  byName : AList (fun _ : DictKind × String => UInt32)
  nextId : AList (fun _ : DictKind => UInt32)

namespace Dictionary

def new : Dictionary := ⟨∅, ∅, ∅⟩

def getName (d : Dictionary) (kind : DictKind) (id : UInt32) : Option String :=
  d.byKey.lookup (kind, id)

def idOf (d : Dictionary) (kind : DictKind) (name : String) : Option UInt32 :=
  d.byName.lookup (kind, name)

def require (d : Dictionary) (kind : DictKind) (id : UInt32) : Except Error String :=
  match d.getName kind id with
  | some name => .ok name
  | none => .error (.unknownDictionaryId kind.toU8 id)

def insert (d : Dictionary) (entry : DictEntry) : Except Error Dictionary :=
  if entry.id = 0 then .error (.malformedRecord "dictionary id must be >= 1")
  else if (utf8 entry.name).length > maxDictNameLen.toNat then
    .error (.limitExceeded "dictionary name too long")
  else if (d.byKey.lookup (entry.kind, entry.id)).isSome then
    .error (.duplicateDictionaryId entry.kind.toU8 entry.id)
  else .ok { d with
    byKey := d.byKey.insert (entry.kind, entry.id) entry.name
    byName := d.byName.insert (entry.kind, entry.name) entry.id }

/-- the id, and whether it is new -/
def intern (kind : DictKind) (name : String) : Prog Dictionary Error (UInt32 × Bool) := do
  if (utf8 name).length > maxDictNameLen.toNat then
    throw (.error (.limitExceeded "dictionary name too long"))
  let self ← get
  match self.byName.lookup (kind, name) with
  | some id => return (id, false)
  | none =>
    let id := (self.nextId.lookup kind).getD 1
    let next ← Prog.of (incr32 id)
    let self := { self with nextId := self.nextId.insert kind next }
    set self
    let self ← Prog.of (lift (self.insert ⟨kind, id, name⟩))
    set self
    return (id, true)

/-- the loop of `encode_entries` -/
def encodeLoop : List DictEntry → Bytes → Except Error Bytes
  | [], out => .ok out
  | entry :: es, out =>
    let nameBytes := utf8 entry.name
    if nameBytes.length > maxDictNameLen.toNat then
      .error (.limitExceeded "dictionary name too long")
    else
      encodeLoop es (out ++ [entry.kind.toU8] ++ le 4 entry.id.toNat
        ++ le 2 (UInt16.ofNat nameBytes.length).toNat ++ nameBytes)

def encodeEntries (entries : List DictEntry) : Except Error Bytes :=
  if UInt32.ofNat entries.length > maxDictEntries then
    .error (.limitExceeded "too many dictionary entries")
  else encodeLoop entries (le 4 (UInt32.ofNat entries.length).toNat)

/-- the body of the loop of `decode_entries` -/
def decodeEntryAt (buf : Bytes) : Nat × List DictEntry → Res Error (Nat × List DictEntry)
  | (offset, entries) => do
    let stop ← add64 offset 6
    if stop > buf.length then fail (.malformedRecord "truncated dictionary entry header")
    let kind ← lift (DictKind.fromU8 (← idx buf offset))
    let id ← window buf offset 1 5 >>= fromLe 4
    let offset ← add64 offset 5
    let stop ← add64 offset 2
    if stop > buf.length then fail (.malformedRecord "truncated dictionary entry name length")
    let nameLen ← le16At buf offset
    let offset ← add64 offset 2
    let stop ← add64 offset nameLen.toNat
    if stop > buf.length then fail (.malformedRecord "truncated dictionary entry name")
    let name ← match fromUtf8 (← slice buf offset stop) with
      | some name => Except.ok name
      | none => fail (.malformedRecord "dictionary name not valid UTF-8")
    .ok (stop, entries ++ [⟨kind, UInt32.ofNat id, name⟩])

def decodeEntries (buf : Bytes) : Res Error (List DictEntry) :=
  decodeCounted maxDictEntries (.malformedRecord "dictionary chunk shorter than entry count")
    (.limitExceeded "too many dictionary entries")
    (fun left => .malformedRecord s!"dictionary chunk has {left} trailing bytes") decodeEntryAt buf

/-- `for entry in entries { dictionary.insert(entry)?; }` -/
def insertAll : Dictionary → List DictEntry → Except Error Dictionary
  | d, [] => .ok d
  | d, e :: es =>
    match d.insert e with
    | .error err => .error err
    | .ok d' => insertAll d' es

/-! ## what the operations do -/

@[simp] theorem getName_new (kind : DictKind) (id : UInt32) : new.getName kind id = none := rfl

theorem require_ok {d : Dictionary} {kind : DictKind} {id : UInt32} {name : String} :
    d.require kind id = .ok name ↔ d.getName kind id = some name := by
  unfold require
  cases d.getName kind id <;> simp

/-- the dictionary with one more entry -/
def added (d : Dictionary) (e : DictEntry) : Dictionary :=
  { d with
    byKey := d.byKey.insert (e.kind, e.id) e.name
    byName := d.byName.insert (e.kind, e.name) e.id }

/-- **everything that a successful `insert` does** -/
theorem insert_ok {d d' : Dictionary} {e : DictEntry} :
    d.insert e = .ok d' ↔ e.id ≠ 0 ∧ (utf8 e.name).length ≤ 1024 ∧
      d.getName e.kind e.id = none ∧ d' = d.added e := by
  unfold insert
  rw [maxDictNameLen_toNat]
  by_cases h0 : e.id = 0
  · simp [h0]
  by_cases hlen : (utf8 e.name).length ≤ 1024
  · by_cases hnew : d.getName e.kind e.id = none
    · have hn : ¬ (d.byKey.lookup (e.kind, e.id)).isSome = true := by
        rw [show d.byKey.lookup (e.kind, e.id) = none from hnew]; simp
      rw [if_neg h0, if_neg (not_lt.mpr hlen), if_neg hn]
      constructor
      · intro h; cases h; exact ⟨h0, hlen, hnew, rfl⟩
      · rintro ⟨_, _, _, rfl⟩; rfl
    · have hn : (d.byKey.lookup (e.kind, e.id)).isSome = true := Option.isSome_iff_ne_none.mpr hnew
      rw [if_neg h0, if_neg (not_lt.mpr hlen), if_pos hn]
      simp [hnew]
  · rw [if_neg h0, if_pos (not_le.mp hlen)]
    simp [hlen]

theorem added_getName (d : Dictionary) (e : DictEntry) (kind : DictKind) (id : UInt32) :
    (d.added e).getName kind id
      = if (kind, id) = (e.kind, e.id) then some e.name else d.getName kind id := by
  rw [getName, added]
  by_cases hk : (kind, id) = (e.kind, e.id)
  · rw [if_pos hk, hk, AList.lookup_insert]
  · rw [if_neg hk, AList.lookup_insert_ne hk]
    rfl

theorem insert_getName {d d' : Dictionary} {e : DictEntry} (h : d.insert e = .ok d')
    (kind : DictKind) (id : UInt32) : d'.getName kind id
      = if (kind, id) = (e.kind, e.id) then some e.name else d.getName kind id := by
  rw [(insert_ok.mp h).2.2.2, added_getName]

/-- what was in the dictionary stays, and keeps its name -/
theorem insert_mono {d d' : Dictionary} {e : DictEntry} (h : d.insert e = .ok d')
    {kind : DictKind} {id : UInt32} {name : String} (hn : d.getName kind id = some name) :
    d'.getName kind id = some name := by
  rw [insert_getName h]
  split
  · rename_i hk
    cases hk
    rw [(insert_ok.mp h).2.2.1] at hn
    cases hn
  · exact hn

/-- the two dictionaries hold the same names; the counters of ids may differ -/
structure SameNames (d d₁ : Dictionary) : Prop where
  byKey : d₁.byKey = d.byKey
  byName : d₁.byName = d.byName

theorem SameNames.refl (d : Dictionary) : SameNames d d := ⟨rfl, rfl⟩

theorem SameNames.symm {d d₁ : Dictionary} (h : SameNames d d₁) : SameNames d₁ d :=
  ⟨h.byKey.symm, h.byName.symm⟩

theorem SameNames.trans {d d₁ d₂ : Dictionary} (h : SameNames d d₁) (h' : SameNames d₁ d₂) :
    SameNames d d₂ := ⟨h'.byKey.trans h.byKey, h'.byName.trans h.byName⟩

theorem SameNames.getName {d d₁ : Dictionary} (h : SameNames d d₁) (kind : DictKind) (id : UInt32) :
    d₁.getName kind id = d.getName kind id := by
  unfold Dictionary.getName
  rw [h.byKey]

theorem SameNames.require {d d₁ : Dictionary} (h : SameNames d d₁) (kind : DictKind) (id : UInt32) :
    d₁.require kind id = d.require kind id := by
  unfold Dictionary.require
  rw [h.getName]

/-- an insertion does not look at the counters -/
theorem SameNames.insert {d d₁ d' : Dictionary} {e : DictEntry} (hs : SameNames d d₁)
    (h : d.insert e = .ok d') : ∃ d₁', d₁.insert e = .ok d₁' ∧ SameNames d' d₁' := by
  obtain ⟨h0, hlen, hnew, rfl⟩ := insert_ok.mp h
  refine ⟨d₁.added e, insert_ok.mpr ⟨h0, hlen, (hs.getName ..).trans hnew, rfl⟩, ?_, ?_⟩
  · rw [added, added, hs.byKey]
  · rw [added, added, hs.byName]

theorem insertAll_append (d : Dictionary) (es fs : List DictEntry) :
    d.insertAll (es ++ fs) = match d.insertAll es with
      | .error err => .error err
      | .ok d' => d'.insertAll fs := by
  induction es generalizing d with
  | nil => rfl
  | cons e es ih =>
    rw [List.cons_append, insertAll, insertAll]
    cases d.insert e with
    | error err => rfl
    | ok d' => exact ih d'

theorem insertAll_cons_ok {d d' : Dictionary} {e : DictEntry} {es : List DictEntry}
    (h : d.insertAll (e :: es) = .ok d') : ∃ d₁, d.insert e = .ok d₁ ∧ d₁.insertAll es = .ok d' := by
  rw [insertAll] at h
  cases hi : d.insert e with
  | error err => rw [hi] at h; cases h
  | ok d₁ => rw [hi] at h; exact ⟨d₁, rfl, h⟩

theorem insertAll_mono {d d' : Dictionary} {es : List DictEntry} (h : d.insertAll es = .ok d')
    {kind : DictKind} {id : UInt32} {name : String} (hn : d.getName kind id = some name) :
    d'.getName kind id = some name := by
  induction es generalizing d with
  | nil => cases h; exact hn
  | cons e es ih =>
    obtain ⟨d₁, h1, h2⟩ := insertAll_cons_ok h
    exact ih h2 (insert_mono h1 hn)

/-- a name in the dictionary was there before, or came with one of the entries -/
theorem insertAll_getName {d d' : Dictionary} {es : List DictEntry} (h : d.insertAll es = .ok d')
    {kind : DictKind} {id : UInt32} {name : String} (hn : d'.getName kind id = some name) :
    d.getName kind id = some name ∨ ⟨kind, id, name⟩ ∈ es := by
  induction es generalizing d with
  | nil => cases h; exact .inl hn
  | cons e es ih =>
    obtain ⟨d₁, h1, h2⟩ := insertAll_cons_ok h
    rcases ih h2 with h' | h'
    · rw [insert_getName h1] at h'
      split at h'
      · rename_i hk
        cases hk
        cases h'
        exact .inr (List.mem_cons_self ..)
      · exact .inl h'
    · exact .inr (List.mem_cons_of_mem _ h')

/-- an entry that was inserted is there -/
theorem insertAll_mem {d d' : Dictionary} {es : List DictEntry} (h : d.insertAll es = .ok d')
    {e : DictEntry} (he : e ∈ es) : d'.getName e.kind e.id = some e.name := by
  induction es generalizing d with
  | nil => cases he
  | cons e₀ es ih =>
    obtain ⟨d₁, h1, h2⟩ := insertAll_cons_ok h
    rcases List.mem_cons.mp he with rfl | he
    · refine insertAll_mono h2 ?_
      rw [insert_getName h1, if_pos rfl]
    · exact ih h2 he

/-- **when the entries of a chunk can be inserted, one after the other** -/
theorem insertAll_ok {d : Dictionary} {es : List DictEntry} : (∃ d', d.insertAll es = .ok d') ↔
    (∀ e ∈ es, e.id ≠ 0 ∧ (utf8 e.name).length ≤ 1024 ∧ d.getName e.kind e.id = none) ∧
      es.Pairwise fun e e' => (e.kind, e.id) ≠ (e'.kind, e'.id) := by
  induction es generalizing d with
  | nil => exact ⟨fun _ => ⟨fun e he => (by cases he), .nil⟩, fun _ => ⟨d, rfl⟩⟩
  | cons e es ih =>
    have hadd : ∀ e' : DictEntry, (d.added e).getName e'.kind e'.id = none ↔
        (e.kind, e.id) ≠ (e'.kind, e'.id) ∧ d.getName e'.kind e'.id = none := by
      intro e'
      rw [added_getName]
      by_cases hk : (e'.kind, e'.id) = (e.kind, e.id)
      · rw [if_pos hk]
        exact ⟨fun h => (by cases h), fun h => absurd hk.symm h.1⟩
      · rw [if_neg hk]
        exact ⟨fun h => ⟨Ne.symm hk, h⟩, fun h => h.2⟩
    rw [List.forall_mem_cons, List.pairwise_cons]
    constructor
    · rintro ⟨d', h⟩
      obtain ⟨d₁, h1, h2⟩ := insertAll_cons_ok h
      obtain ⟨h0, hlen, hnew, rfl⟩ := insert_ok.mp h1
      obtain ⟨hes, hpair⟩ := ih.mp ⟨d', h2⟩
      refine ⟨⟨⟨h0, hlen, hnew⟩, fun e' he' => ?_⟩, fun e' he' => ?_, hpair⟩
      · obtain ⟨h0', hlen', hnew'⟩ := hes e' he'
        exact ⟨h0', hlen', ((hadd e').mp hnew').2⟩
      · exact ((hadd e').mp (hes e' he').2.2).1
    · rintro ⟨⟨⟨h0, hlen, hnew⟩, hes⟩, hdiff, hpair⟩
      have hins : d.insert e = .ok (d.added e) := insert_ok.mpr ⟨h0, hlen, hnew, rfl⟩
      rw [insertAll, hins]
      refine ih.mpr ⟨fun e' he' => ?_, hpair⟩
      obtain ⟨h0', hlen', hnew'⟩ := hes e' he'
      exact ⟨h0', hlen', (hadd e').mpr ⟨hdiff e' he', hnew'⟩⟩

/-- no two entries that were inserted share kind and id -/
theorem insertAll_unique {d d' : Dictionary} {es : List DictEntry} (h : d.insertAll es = .ok d') :
    es.Pairwise fun e e' => (e.kind, e.id) ≠ (e'.kind, e'.id) := (insertAll_ok.mp ⟨d', h⟩).2

/-- **What `insert` keeps**: ids from 1 on, names within the limit, and the map by name
agrees with the map by key -/
structure Sound (d : Dictionary) : Prop where
  id_ne_zero : ∀ {kind id name}, d.getName kind id = some name → id ≠ 0
  name_length : ∀ {kind id name}, d.getName kind id = some name → (utf8 name).length ≤ 1024
  idOf_getName : ∀ {kind id name}, d.idOf kind name = some id → d.getName kind id = some name

theorem sound_new : Sound new where
  id_ne_zero h := by cases h
  name_length h := by cases h
  idOf_getName h := by cases h

theorem Sound.insert {d d' : Dictionary} {e : DictEntry} (hd : d.Sound) (h : d.insert e = .ok d') :
    d'.Sound where
  id_ne_zero {kind id name} hn := by
    rw [insert_getName h] at hn
    split at hn
    · rename_i hk
      cases hk
      exact (insert_ok.mp h).1
    · exact hd.id_ne_zero hn
  name_length {kind id name} hn := by
    rw [insert_getName h] at hn
    split at hn
    · cases hn
      exact (insert_ok.mp h).2.1
    · exact hd.name_length hn
  idOf_getName {kind id name} hn := by
    rw [(insert_ok.mp h).2.2.2, idOf, added] at hn
    by_cases hk : (kind, name) = (e.kind, e.name)
    · cases hk
      rw [AList.lookup_insert] at hn
      cases hn
      rw [insert_getName h, if_pos rfl]
    · rw [AList.lookup_insert_ne hk] at hn
      exact insert_mono h (hd.idOf_getName hn)

theorem Sound.insertAll {d d' : Dictionary} {es : List DictEntry} (hd : d.Sound)
    (h : d.insertAll es = .ok d') : d'.Sound := by
  induction es generalizing d with
  | nil => cases h; exact hd
  | cons e es ih =>
    obtain ⟨d₁, h1, h2⟩ := insertAll_cons_ok h
    exact ih (hd.insert h1) h2

/-- the id that the next new name of a kind gets -/
def next (d : Dictionary) (kind : DictKind) : UInt32 := (d.nextId.lookup kind).getD 1

/-- the dictionary after a counter moved on -/
def counted (d : Dictionary) (kind : DictKind) : Dictionary :=
  { d with nextId := d.nextId.insert kind (d.next kind + 1) }

theorem counted_same (d : Dictionary) (kind : DictKind) : SameNames d (d.counted kind) := ⟨rfl, rfl⟩

theorem counted_next {d : Dictionary} {kind : DictKind} (h : (d.next kind).toNat + 1 < 2^32)
    (k : DictKind) : ((d.counted kind).next k).toNat ≤ (d.next k).toNat + 1 := by
  by_cases hk : k = kind
  · subst hk
    have e : (d.counted k).next k = d.next k + 1 := by
      unfold counted
      rw [next, AList.lookup_insert, Option.getD_some]
    rw [e, UInt32.toNat_add, show (1 : UInt32).toNat = 1 from rfl, Nat.mod_eq_of_lt h]
  · have e : (d.counted kind).next k = d.next k := by
      unfold counted
      rw [next, AList.lookup_insert_ne hk, next]
    rw [e]
    exact Nat.le_succ _

@[simp] theorem added_next (d : Dictionary) (e : DictEntry) (k : DictKind) :
    (d.added e).next k = d.next k := rfl

/-- what a call of `intern` may end with -/
inductive Interned (d : Dictionary) (kind : DictKind) (name : String) :
    EStateM.Result (Abort Error) Dictionary (UInt32 × Bool) → Prop
  | old {id} (hid : d.idOf kind name = some id) : Interned d kind name (.ok (id, false) d)
  | new {id d'} (hid : d.idOf kind name = none) (hi : id = d.next kind)
      (hmax : (d.next kind).toNat + 1 < 2^32)
      (hd : (d.counted kind).insert ⟨kind, id, name⟩ = .ok d') :
      Interned d kind name (.ok (id, true) d')
  | long (hlen : 1024 < (utf8 name).length) :
      Interned d kind name (.error (.error (.limitExceeded "dictionary name too long")) d)
  | refused {err} (hmax : (d.next kind).toNat + 1 < 2^32)
      (herr : (d.counted kind).insert ⟨kind, d.next kind, name⟩ = .error err) :
      Interned d kind name (.error (.error err) (d.counted kind))
  | overflow (hmax : (d.next kind).toNat + 1 = 2^32) : Interned d kind name (.error .panic d)

theorem intern_cases (d : Dictionary) (kind : DictKind) (name : String) :
    Interned d kind name ((intern kind name).run d) := by
  have hlt := (d.next kind).toNat_lt
  unfold intern
  by_cases hlen : (utf8 name).length > maxDictNameLen.toNat
  · rw [if_pos hlen]
    exact .long hlen
  rw [if_neg hlen]
  simp only [EStateM.run_bind, EStateM.run_get]
  cases hid : d.byName.lookup (kind, name) with
  | some id => exact .old hid
  | none =>
    by_cases hmax : (d.next kind).toNat + 1 < 2^32
    · have hincr : (incr32 (d.next kind) : Res Error UInt32) = .ok (d.next kind + 1) :=
        incr32_eq hmax
      simp only [EStateM.run_bind, show (d.nextId.lookup kind).getD 1 = d.next kind from rfl, hincr,
        Prog.of_ok, EStateM.run_set]
      rw [show (⟨d.byKey, d.byName, d.nextId.insert kind (d.next kind + 1)⟩ : Dictionary)
        = d.counted kind from rfl]
      cases hins : (d.counted kind).insert ⟨kind, d.next kind, name⟩ with
      | error err => exact .refused hmax hins
      | ok d' => exact .new hid rfl hmax hins
    · have hincr : (incr32 (d.next kind) : Res Error UInt32) = crash := if_neg hmax
      simp only [EStateM.run_bind, show (d.nextId.lookup kind).getD 1 = d.next kind from rfl, hincr,
        Prog.of_crash]
      exact .overflow (by omega)

end Dictionary

/-! ## the codec of entries -/

open Dictionary

def DictEntry.raw (e : DictEntry) : Bytes :=
  [e.kind.toU8] ++ (le 4 e.id.toNat ++ (le 2 (utf8 e.name).length ++ utf8 e.name))

theorem DictEntry.raw_length (e : DictEntry) : e.raw.length = 7 + (utf8 e.name).length := by
  simp only [DictEntry.raw, List.length_append, le_length, List.length_singleton]
  omega

theorem Dictionary.encodeLoop_ok {es : List DictEntry} {out out' : Bytes} :
    encodeLoop es out = .ok out' ↔
      (∀ e ∈ es, (utf8 e.name).length ≤ 1024) ∧ out' = out ++ es.flatMap DictEntry.raw := by
  induction es generalizing out with
  | nil => simp [encodeLoop, eq_comm]
  | cons e es ih =>
    unfold encodeLoop
    by_cases h : (utf8 e.name).length ≤ 1024
    · have hmax : ¬ (utf8 e.name).length > maxDictNameLen.toNat := not_lt.mpr h
      have hlen : (UInt16.ofNat (utf8 e.name).length).toNat = (utf8 e.name).length := by
        rw [UInt16.toNat_ofNat', Nat.mod_eq_of_lt (by omega)]
      simp only [if_neg hmax, ih, hlen]
      simp [h, DictEntry.raw]
    · have hmax : (utf8 e.name).length > maxDictNameLen.toNat := not_le.mp h
      simp only [if_pos hmax]
      constructor
      · intro h'; cases h'
      · rintro ⟨h', _⟩; exact absurd (h' e (List.mem_cons_self ..)) h

/-- **the encoder of entries, with the count that it checks after the cast to `u32`** -/
theorem Dictionary.encodeEntries_ok {es : List DictEntry} {out : Bytes} :
    encodeEntries es = .ok out ↔ es.length % 2^32 ≤ 65535 ∧
      (∀ e ∈ es, (utf8 e.name).length ≤ 1024) ∧
      out = le 4 (es.length % 2^32) ++ es.flatMap DictEntry.raw := by
  have hcount : UInt32.ofNat es.length > maxDictEntries ↔ 65535 < es.length % 2^32 := by
    rw [gt_iff_lt, UInt32.lt_iff_toNat_lt, UInt32.toNat_ofNat']; rfl
  unfold encodeEntries
  by_cases h : 65535 < es.length % 2^32
  · rw [if_pos (hcount.mpr h)]
    constructor
    · intro e; cases e
    · rintro ⟨h', _⟩; omega
  · rw [if_neg (mt hcount.mp h), encodeLoop_ok, UInt32.toNat_ofNat']
    constructor
    · rintro ⟨h1, h2⟩; exact ⟨by omega, h1, h2⟩
    · rintro ⟨_, h1, h2⟩; exact ⟨h1, h2⟩

def entryP : Parser Error DictEntry := fun s =>
  if s.length < 6 then .error (.malformedRecord "truncated dictionary entry header")
  else match DictKind.fromU8 (s.getD 0 0) with
    | .error e => .error e
    | .ok kind =>
      if s.length < 7 then .error (.malformedRecord "truncated dictionary entry name length")
      else if s.length < 7 + leAt s 5 2 then
        .error (.malformedRecord "truncated dictionary entry name")
      else match fromUtf8 ((s.drop 7).take (leAt s 5 2)) with
        | none => .error (.malformedRecord "dictionary name not valid UTF-8")
        | some name => .ok (⟨kind, UInt32.ofNat (leAt s 1 4), name⟩, s.drop (7 + leAt s 5 2))

def entriesOf (s : Bytes) : Except Error (List DictEntry) :=
  listOf maxDictEntries (.malformedRecord "dictionary chunk shorter than entry count")
    (.limitExceeded "too many dictionary entries")
    (fun left => .malformedRecord s!"dictionary chunk has {left} trailing bytes") entryP s

theorem entryP_ok {s r : Bytes} {e : DictEntry} (h : entryP s = .ok (e, r)) :
    7 + leAt s 5 2 ≤ s.length ∧ utf8 e.name = (s.drop 7).take (leAt s 5 2) ∧
      r = s.drop (7 + leAt s 5 2) := by
  unfold entryP at h
  split at h
  · cases h
  cases hk : DictKind.fromU8 (s.getD 0 0) with
  | error e => rw [hk] at h; cases h
  | ok kind =>
    rw [hk] at h
    simp only at h
    split at h
    · cases h
    split at h
    · cases h
    cases hn : fromUtf8 ((s.drop 7).take (leAt s 5 2)) with
    | none => rw [hn] at h; cases h
    | some name =>
      rw [hn] at h
      cases h
      exact ⟨by omega, fromUtf8_eq_some.mp hn, rfl⟩

theorem entryP_sized :
    Sized entryP DictEntry.raw (fun e => (utf8 e.name).length < 2^16) := by
  intro s e r h
  obtain ⟨hlen, hname, rfl⟩ := entryP_ok h
  have hlt := leAt_lt s 5 2
  have hn : (utf8 e.name).length = leAt s 5 2 := by
    rw [hname, List.length_take, List.length_drop]; omega
  refine ⟨by omega, List.drop_suffix _ _, ?_⟩
  rw [DictEntry.raw_length, List.length_drop]
  omega

theorem entryP_inverts :
    Inverts entryP DictEntry.raw (fun e => (utf8 e.name).length < 2^16) := by
  intro e he t
  have hraw : e.raw ++ t = [e.kind.toU8] ++ (le 4 e.id.toNat ++ (le 2 (utf8 e.name).length ++
      (utf8 e.name ++ t))) := by
    simp only [DictEntry.raw, List.append_assoc]
  have hid : UInt32.ofNat (leAt (e.raw ++ t) 1 4) = e.id := by
    rw [hraw]
    simp (disch := simp) only [leAt_skip, List.length_singleton, Nat.reduceSub, uint32_le]
  have hlen : leAt (e.raw ++ t) 5 2 = (utf8 e.name).length := by
    rw [hraw]
    simp (disch := simp) only [leAt_skip, List.length_singleton, le_length, Nat.reduceSub]
    exact leAt_head 2 _ _ he
  have hdrop : (e.raw ++ t).drop 7 = utf8 e.name ++ t := by
    rw [hraw, ← List.append_assoc, ← List.append_assoc, List.drop_left' (by simp)]
  have hrest : (e.raw ++ t).drop (7 + (utf8 e.name).length) = t := by
    rw [← List.drop_drop, hdrop, List.drop_left' rfl]
  have htotal : (e.raw ++ t).length = 7 + (utf8 e.name).length + t.length := by
    rw [List.length_append, DictEntry.raw_length]
  have hkind : (e.raw ++ t).getD 0 0 = e.kind.toU8 := by rw [hraw]; rfl
  unfold entryP
  rw [if_neg (by omega), hkind, DictKind.fromU8_toU8, hlen, hdrop, List.take_left' rfl,
    fromUtf8_utf8]
  simp only [htotal, hrest, hid]
  rw [if_neg (by omega), if_neg (by omega)]

theorem decodeEntryAt_eq {buf : Bytes} (hbuf : buf.length < 2^63) (off : Nat)
    (acc : List DictEntry) (hoff : off ≤ buf.length) : decodeEntryAt buf (off, acc)
      = resume buf (fun e => acc ++ [e]) (entryP (buf.drop off)) := by
  have h6 : (add64 off 6 : Res Error Nat) = .ok (off + 6) := add64_eq (by omega)
  unfold entryP
  by_cases h : (buf.drop off).length < 6
  · rw [if_pos h]
    rw [List.length_drop] at h
    have hgt : off + 6 > buf.length := by omega
    simp only [decodeEntryAt, h6, ok_bind, if_pos hgt, fail_bind, resume]
  rw [if_neg h]
  rw [List.length_drop] at h
  have hgt : ¬ off + 6 > buf.length := by omega
  have hkind : (idx buf off : Res Error UInt8) = .ok ((buf.drop off).getD 0 0) := by
    rw [idx_eq (by omega), List.getD_eq_getElem?_getD, List.getElem?_drop,
      List.getElem?_eq_getElem (by omega)]
    rfl
  have hid : (window buf off 1 5 >>= fromLe 4 : Res Error Nat) = .ok (leAt (buf.drop off) 1 4) :=
    window_fromLe hbuf rfl (by omega)
  have h5 : (add64 off 5 : Res Error Nat) = .ok (off + 5) := add64_eq (by omega)
  have h7 : (add64 (off + 5) 2 : Res Error Nat) = .ok (off + 7) := add64_eq (by omega)
  simp only [decodeEntryAt, h6, ok_bind, if_neg hgt, hkind, hid, h5, h7]
  cases DictKind.fromU8 ((buf.drop off).getD 0 0) with
  | error e => rfl
  | ok kind =>
    simp only [lift_ok, ok_bind]
    by_cases hh : (buf.drop off).length < 7
    · rw [if_pos hh]
      rw [List.length_drop] at hh
      rw [if_pos (by omega)]
      rfl
    rw [if_neg hh]
    rw [List.length_drop] at hh
    have hlt := leAt_lt (buf.drop off) 5 2
    have hadd : (add64 (off + 7) (leAt (buf.drop off) 5 2) : Res Error Nat)
        = .ok (off + 7 + leAt (buf.drop off) 5 2) := add64_eq (by omega)
    rw [if_neg (by omega), le16At_eq (by omega), ← leAt_drop]
    simp only [ok_bind, toNat_leAt2, hadd]
    by_cases hn : (buf.drop off).length < 7 + leAt (buf.drop off) 5 2
    · rw [if_pos hn]
      rw [List.length_drop] at hn
      rw [if_pos (by omega)]
      rfl
    rw [if_neg hn]
    rw [List.length_drop] at hn
    have hs : (slice buf (off + 7) (off + 7 + leAt (buf.drop off) 5 2) : Res Error Bytes)
        = .ok (((buf.drop off).drop 7).take (leAt (buf.drop off) 5 2)) := by
      rw [slice_eq (by omega) (by omega), List.drop_drop, Nat.add_sub_cancel_left]
    rw [if_neg (by omega), hs, ok_bind]
    cases fromUtf8 (((buf.drop off).drop 7).take (leAt (buf.drop off) 5 2)) with
    | none => rfl
    | some name =>
      have he : buf.length - ((buf.drop off).drop (7 + leAt (buf.drop off) 5 2)).length
          = off + 7 + leAt (buf.drop off) 5 2 := by
        rw [List.length_drop, List.length_drop]; omega
      simp only [resume, he]

/-- **the decoder with offsets is `entriesOf`; no index, slice or sum of it is out of range** -/
theorem Dictionary.decodeEntries_eq {buf : Bytes} (hbuf : buf.length < 2^63) :
    decodeEntries buf = lift (entriesOf buf) :=
  decodeCounted_eq entryP_sized.suffix (decodeEntryAt_eq hbuf)

/-- entries with short names are read back from the bytes of their chunk -/
theorem entriesOf_raw {es : List DictEntry} (hn : es.length ≤ 65535)
    (hf : ∀ e ∈ es, (utf8 e.name).length ≤ 1024) : entriesOf (listRaw DictEntry.raw es) = .ok es :=
  listOf_raw entryP_inverts hn fun e he => by
    have := hf e he
    omega

theorem entriesOf_ok {s : Bytes} {es : List DictEntry} (h : entriesOf s = .ok es) :
    es.length ≤ 65535 ∧ es.length = leAt s 0 4 ∧ (listRaw DictEntry.raw es).length = s.length :=
  (listOf_ok entryP_sized h).2

end Dtj
