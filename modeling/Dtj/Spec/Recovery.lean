import Dtj.Spec.Grammar
import Dtj.Journal.Frames

/-!
# The recovery algorithm of the format

The section "Torn-Tail Recovery" of `specs/dtj-format-v1.md` and its list of fail-closed
conditions, as a reference decoder over what is left of the file.

* `Process`      what a committed chunk has to be, by its type;
* `Recover`      the steps of the algorithm at a chunk position, in its order; `Recovers` a file;
* `recover_iff`  the walk over the chunks takes the same steps;
* `open_recovers_iff`   **the files on which the reader follows the algorithm**: all but those with
  24 to 31 bytes behind the header that do not start with the magic of a chunk.
-/

namespace Dtj.Spec
open Wire Checked

inductive Outcome where
  | ok (events : List EventRecord) (chunks : Nat) (torn : Bool)
  | invalidChunkMagic
  | rejected
deriving DecidableEq

structure State where
  names : List DictEntry
  events : List EventRecord
  chunks : Nat

/-! ## processing a chunk -/

/-- the id is found in the dictionary -/
def Found (names : List DictEntry) (kind : DictKind) (id : UInt32) : Prop :=
  ∃ e ∈ names, e.kind = kind ∧ e.id = id

structure FieldRefs (names : List DictEntry) (f : Field) : Prop where
  name_id : Found names .string f.nameId
  interned : ∀ sid, f.value = .internedString sid → Found names .string sid

structure EventRefs (names : List DictEntry) (ev : EventRecord) : Prop where
  domain : Found names .domain ev.domainId
  category : Found names .category ev.categoryId
  event_name : Found names .eventName ev.eventNameId
  correlation : ev.correlationId ≠ 0 → Found names .string ev.correlationId
  fields : ∀ f ∈ ev.payload.fields, FieldRefs names f

/-- no two entries with one `(kind, id)` -/
abbrev Distinct (es : List DictEntry) : Prop :=
  es.Pairwise fun e e' => (e.kind, e.id) ≠ (e'.kind, e'.id)

inductive Process (st : State) : Nat → Bytes → State → Prop
  | dictionary {payload es} (bytes : Counted EntryBytes 65535 es payload)
      (ids : ∀ e ∈ es, e.id ≠ 0) (name_len : ∀ e ∈ es, (utf8 e.name).length ≤ 1024)
      (distinct : Distinct (st.names ++ es)) :
      Process st 1 payload ⟨st.names ++ es, st.events, st.chunks + 1⟩
  | event {payload evs} (bytes : Counted EventBytes 65535 evs payload)
      (numbered : Numbered (st.events.length + 1) evs) (refs : ∀ ev ∈ evs, EventRefs st.names ev) :
      Process st 2 payload ⟨st.names, st.events ++ evs, st.chunks + 1⟩
  | unknown {ty payload} (h1 : ty ≠ 1) (h2 : ty ≠ 2) :
      Process st ty payload ⟨st.names, st.events, st.chunks + 1⟩

/-! ## the algorithm -/

def payloadLen (s : Bytes) : Nat := leAt s 16 4

def need (s : Bytes) : Nat := 24 + payloadLen s + 8

def payload (s : Bytes) : Bytes := windowAt s 24 (payloadLen s)

structure Header (s : Bytes) : Prop where
  long : 24 ≤ s.length
  magic : windowAt s 0 4 = chunkMagic

structure Full (s : Bytes) : Prop where
  header : Header s
  full : need s ≤ s.length
  limit : payloadLen s ≤ 16777216

structure Sealed (s : Bytes) : Prop where
  full : Full s
  marker : leAt s (24 + payloadLen s + 4) 4 = 0xD7C0FFEE

structure Committed (n : Nat) (s : Bytes) : Prop where
  marked : Sealed s
  checksum : leAt s (24 + payloadLen s) 4 = (crc32 (payload s)).toNat
  sequence : leAt s 8 8 = n + 1

/-- at a chunk position; the first one is where no chunk was read before -/
inductive Recover : State → Bytes → Outcome → Prop
  | short {st s} (h : s.length < 24) :
      Recover st s (.ok st.events st.chunks (decide (0 < s.length)))
  | magic {st s} (h : 24 ≤ s.length) (bad : windowAt s 0 4 ≠ chunkMagic)
      (first : st.chunks = 0) : Recover st s .invalidChunkMagic
  | garbage {st s} (h : 24 ≤ s.length) (bad : windowAt s 0 4 ≠ chunkMagic)
      (later : st.chunks ≠ 0) : Recover st s (.ok st.events st.chunks true)
  | torn {st s} (h : Header s) (bad : s.length < need s) :
      Recover st s (.ok st.events st.chunks true)
  | limit {st s} (h : Header s) (full : need s ≤ s.length) (bad : 16777216 < payloadLen s) :
      Recover st s .rejected
  | unmarked {st s} (h : Full s) (bad : leAt s (24 + payloadLen s + 4) 4 ≠ 0xD7C0FFEE) :
      Recover st s (.ok st.events st.chunks true)
  | checksum {st s} (h : Sealed s)
      (bad : leAt s (24 + payloadLen s) 4 ≠ (crc32 (payload s)).toNat) : Recover st s .rejected
  | sequence {st s} (h : Sealed s)
      (sum : leAt s (24 + payloadLen s) 4 = (crc32 (payload s)).toNat)
      (bad : leAt s 8 8 ≠ st.chunks + 1) : Recover st s .rejected
  | malformed {st s} (h : Committed st.chunks s)
      (bad : ∀ st', ¬ Process st (leAt s 4 2) (payload s) st') : Recover st s .rejected
  | next {st st' s o} (h : Committed st.chunks s) (step : Process st (leAt s 4 2) (payload s) st')
      (rest : Recover st' (s.drop (need s)) o) : Recover st s o

structure HeaderOk (s : Bytes) : Prop where
  magic : windowAt s 0 4 = fileMagic
  format_version : leAt s 4 2 = 1
  header_size : leAt s 6 2 = 128
  endian_magic : leAt s 8 4 = 0x01020304

inductive Recovers (s : Bytes) : Outcome → Prop
  | header (bad : ¬ HeaderOk s) : Recovers s .rejected
  | chunks {o} (h : HeaderOk s) (rest : Recover ⟨[], [], 0⟩ (s.drop 128) o) : Recovers s o

/-- the algorithm always comes to an end -/
theorem recover_total (st : State) (s : Bytes) : ∃ o, Recover st s o := by
  induction hn : s.length using Nat.strong_induction_on generalizing st s with
  | _ n ih =>
    by_cases h24 : s.length < 24
    · exact ⟨_, .short h24⟩
    have hlong : 24 ≤ s.length := not_lt.mp h24
    by_cases hm : windowAt s 0 4 = chunkMagic
    swap
    · by_cases h0 : st.chunks = 0
      · exact ⟨_, .magic hlong hm h0⟩
      · exact ⟨_, .garbage hlong hm h0⟩
    by_cases hfull : s.length < need s
    · exact ⟨_, .torn ⟨hlong, hm⟩ hfull⟩
    by_cases hmax : 16777216 < payloadLen s
    · exact ⟨_, .limit ⟨hlong, hm⟩ (not_lt.mp hfull) hmax⟩
    have hf : Full s := ⟨⟨hlong, hm⟩, not_lt.mp hfull, not_lt.mp hmax⟩
    by_cases hmark : leAt s (24 + payloadLen s + 4) 4 = 0xD7C0FFEE
    swap
    · exact ⟨_, .unmarked hf hmark⟩
    by_cases hsum : leAt s (24 + payloadLen s) 4 = (crc32 (payload s)).toNat
    swap
    · exact ⟨_, .checksum ⟨hf, hmark⟩ hsum⟩
    by_cases hseq : leAt s 8 8 = st.chunks + 1
    swap
    · exact ⟨_, .sequence ⟨hf, hmark⟩ hsum hseq⟩
    by_cases hp : ∃ st', Process st (leAt s 4 2) (payload s) st'
    · obtain ⟨st', hp⟩ := hp
      have hlt : (s.drop (need s)).length < n := by
        rw [List.length_drop, need]
        omega
      obtain ⟨o, ho⟩ := ih _ hlt st' (s.drop (need s)) rfl
      exact ⟨o, .next ⟨⟨hf, hmark⟩, hsum, hseq⟩ hp ho⟩
    · exact ⟨_, .malformed ⟨⟨hf, hmark⟩, hsum, hseq⟩ fun st' h => hp ⟨st', h⟩⟩

/-! ## one chunk -/

/-- a view of what was read stands for the state of the algorithm -/
structure Shows (v : View) (st : State) : Prop where
  names : ∀ kind id, (∃ name, v.dictionary.getName kind id = some name) ↔ Found st.names kind id
  distinct : Distinct st.names
  events : v.events = st.events
  chunks : v.chunks = st.chunks

theorem shows_empty : Shows .empty ⟨[], [], 0⟩ where
  names kind id := by
    constructor
    · rintro ⟨name, h⟩
      cases h
    · rintro ⟨e, he, _⟩
      cases he
  distinct := List.Pairwise.nil
  events := rfl
  chunks := rfl

theorem Shows.field_refs {v : View} {st : State} (hv : Shows v st) {f : Field} :
    Resolves v.dictionary f.refs ↔ FieldRefs st.names f := by
  unfold Field.refs
  rw [resolves_cons, hv.names]
  constructor
  · rintro ⟨hname, hval⟩
    refine ⟨hname, fun sid h => ?_⟩
    rw [h] at hval
    exact (hv.names ..).mp (hval _ (List.mem_cons_self ..))
  · rintro ⟨hname, hval⟩
    refine ⟨hname, ?_⟩
    split
    · rename_i sid h
      exact resolves_cons.mpr ⟨(hv.names ..).mpr (hval sid h), resolves_nil _⟩
    · exact resolves_nil _

/-- the references that the reader checks are those of the list of conditions -/
theorem Shows.event_refs {v : View} {st : State} (hv : Shows v st) {ev : EventRecord} :
    Resolves v.dictionary ev.refs ↔ EventRefs st.names ev := by
  unfold EventRecord.refs refsOf
  rw [List.append_assoc, List.cons_append, List.cons_append, List.cons_append, List.nil_append,
    resolves_cons, resolves_cons, resolves_cons, resolves_append, hv.names, hv.names, hv.names]
  have hcor : Resolves v.dictionary
      (if ev.correlationId ≠ 0 then [(.string, ev.correlationId)] else [])
      ↔ (ev.correlationId ≠ 0 → Found st.names .string ev.correlationId) := by
    by_cases h : ev.correlationId ≠ 0
    · rw [if_pos h, resolves_cons, hv.names, and_iff_left (resolves_nil _)]
      exact ⟨fun hf _ => hf, fun hf => hf h⟩
    · rw [if_neg h]
      exact ⟨fun _ h' => absurd h' h, fun _ => resolves_nil _⟩
  have hfields : Resolves v.dictionary (ev.payload.fields.flatMap Field.refs)
      ↔ ∀ f ∈ ev.payload.fields, FieldRefs st.names f := by
    constructor
    · intro h f hf
      exact hv.field_refs.mp fun r hr => h r (List.mem_flatMap.mpr ⟨f, hf, hr⟩)
    · intro h r hr
      obtain ⟨f, hf, hr⟩ := List.mem_flatMap.mp hr
      exact hv.field_refs.mpr (h f hf) r hr
  rw [hcor, hfields]
  constructor
  · rintro ⟨h1, h2, h3, h4, h5⟩
    exact ⟨h1, h2, h3, h4, h5⟩
  · rintro ⟨h1, h2, h3, h4, h5⟩
    exact ⟨h1, h2, h3, h4, h5⟩

/-- the entries that the dictionary takes are those of the list of conditions -/
theorem Shows.insertAll {v : View} {st : State} (hv : Shows v st) {es : List DictEntry} :
    (∃ d, v.dictionary.insertAll es = .ok d) ↔ (∀ e ∈ es, e.id ≠ 0) ∧
      (∀ e ∈ es, (utf8 e.name).length ≤ 1024) ∧ Distinct (st.names ++ es) := by
  have hnone : ∀ e : DictEntry, v.dictionary.getName e.kind e.id = none
      ↔ ¬ Found st.names e.kind e.id := by
    intro e
    rw [← hv.names, ← Option.isSome_iff_exists, Bool.not_eq_true, Option.isSome_eq_false_iff,
      Option.isNone_iff_eq_none]
  rw [Dictionary.insertAll_ok, Distinct, List.pairwise_append]
  constructor
  · rintro ⟨hes, hd⟩
    refine ⟨fun e he => (hes e he).1, fun e he => (hes e he).2.1, hv.distinct, hd, ?_⟩
    intro e he e' he' heq
    cases heq' : e' with
    | mk kind id name =>
      rw [heq'] at heq
      cases heq
      refine (hnone e').mp (hes e' he').2.2 ⟨e, he, ?_, ?_⟩
      · rw [heq']
      · rw [heq']
  · rintro ⟨hid, hlen, _, hd, hcross⟩
    refine ⟨fun e' he' => ⟨hid e' he', hlen e' he', (hnone e').mpr ?_⟩, hd⟩
    rintro ⟨e, he, hk, hi⟩
    exact hcross e he e' he' (by rw [hk, hi])

/-- the dictionary after a chunk stands for the names before it and its entries -/
theorem Shows.inserted {v : View} {st : State} (hv : Shows v st) {es : List DictEntry}
    {d : Dictionary} (h : v.dictionary.insertAll es = .ok d) :
    Shows ⟨d, v.events, v.chunks + 1⟩ ⟨st.names ++ es, st.events, st.chunks + 1⟩ where
  names kind id := by
    constructor
    · rintro ⟨name, hn⟩
      rcases Dictionary.insertAll_getName h hn with hn | hn
      · obtain ⟨e, he, hk⟩ := (hv.names kind id).mp ⟨name, hn⟩
        exact ⟨e, List.mem_append_left _ he, hk⟩
      · exact ⟨_, List.mem_append_right _ hn, rfl, rfl⟩
    · rintro ⟨e, he, rfl, rfl⟩
      rcases List.mem_append.mp he with he | he
      · obtain ⟨name, hn⟩ := (hv.names e.kind e.id).mpr ⟨e, he, rfl, rfl⟩
        exact ⟨name, Dictionary.insertAll_mono h hn⟩
      · exact ⟨e.name, Dictionary.insertAll_mem h he⟩
  distinct := (hv.insertAll.mp ⟨d, h⟩).2.2
  events := hv.events
  chunks := congrArg (· + 1) hv.chunks

theorem Process.chunks {st st' : State} {ty : Nat} {payload : Bytes}
    (h : Process st ty payload st') : st'.chunks = st.chunks + 1 := by
  cases h with
  | dictionary => rfl
  | event => rfl
  | unknown => rfl

/-- a chunk that the algorithm processes is one that the reader takes in -/
theorem Process.absorb {st st' : State} {v : View} {ty : UInt16} {payload : Bytes}
    (h : Process st ty.toNat payload st') (hv : Shows v st) :
    ∃ v', absorb v ty payload = .ok v' ∧ Shows v' st' := by
  unfold Dtj.absorb
  generalize hty : ty.toNat = n at h
  cases h with
  | dictionary bytes ids name_len distinct =>
    have h1 : ty = 1 := UInt16.toNat_inj.mp hty
    obtain ⟨d, hd⟩ := hv.insertAll.mpr ⟨ids, name_len, distinct⟩
    rw [if_pos h1, entriesOf_iff.mpr bytes, ok_bind, hd]
    exact ⟨_, rfl, hv.inserted hd⟩
  | @event _ evs bytes numbered refs =>
    have h2 : ty = 2 := UInt16.toNat_inj.mp hty
    have hcheck : checkAll v.dictionary (v.events.length + 1) evs = .ok () := by
      refine checkAll_ok.mpr ⟨?_, fun ev hev => hv.event_refs.mpr (refs ev hev)⟩
      rw [hv.events]
      exact numbered
    rw [h2, if_neg (by decide), if_pos rfl, eventsOf_iff.mpr bytes, ok_bind, hcheck]
    refine ⟨_, rfl, hv.names, hv.distinct, ?_, congrArg (· + 1) hv.chunks⟩
    show v.events ++ evs = st.events ++ evs
    rw [hv.events]
  | unknown h1 h2 =>
    have h1' : ¬ ty = 1 := by
      intro h
      exact h1 (by rw [← hty, h]; rfl)
    have h2' : ¬ ty = 2 := by
      intro h
      exact h2 (by rw [← hty, h]; rfl)
    rw [if_neg h1', if_neg h2']
    exact ⟨_, rfl, hv.names, hv.distinct, hv.events, congrArg (· + 1) hv.chunks⟩

theorem absorb_process {st : State} {v v' : View} {ty : UInt16} {payload : Bytes}
    (h : absorb v ty payload = .ok v') (hv : Shows v st) :
    ∃ st', Process st ty.toNat payload st' := by
  unfold Dtj.absorb at h
  by_cases h1 : ty = 1
  · rw [if_pos h1] at h
    cases hes : entriesOf payload with
    | error e => rw [hes] at h; cases h
    | ok es =>
      rw [hes, ok_bind] at h
      cases hd : v.dictionary.insertAll es with
      | error e => rw [hd] at h; cases h
      | ok d =>
        obtain ⟨ids, name_len, distinct⟩ := hv.insertAll.mp ⟨d, hd⟩
        rw [h1]
        exact ⟨_, .dictionary (entriesOf_iff.mp hes) ids name_len distinct⟩
  rw [if_neg h1] at h
  by_cases h2 : ty = 2
  · rw [if_pos h2] at h
    cases hevs : eventsOf payload with
    | error e => rw [hevs] at h; cases h
    | ok evs =>
      rw [hevs, ok_bind] at h
      cases hc : checkAll v.dictionary (v.events.length + 1) evs with
      | error e => rw [hc] at h; cases h
      | ok u =>
        obtain ⟨hnum, hres⟩ := checkAll_ok.mp hc
        rw [hv.events] at hnum
        rw [h2]
        exact ⟨_, .event (eventsOf_iff.mp hevs) hnum fun ev hev => hv.event_refs.mp (hres ev hev)⟩
  · exact ⟨_, .unknown (fun h => h1 (UInt16.toNat_inj.mp h)) fun h => h2 (UInt16.toNat_inj.mp h)⟩

/-! ## errors -/

theorem insertAll_fails {d : Dictionary} {es : List DictEntry} {e : Error}
    (h : d.insertAll es = .error e) : Rejects e := by
  induction es generalizing d with
  | nil => cases h
  | cons a es ih =>
    rw [Dictionary.insertAll] at h
    cases hi : d.insert a with
    | error e' =>
      rw [hi] at h
      cases h
      unfold Dictionary.insert at hi
      split at hi
      · cases hi
        exact Error.noConfusion
      split at hi
      · cases hi
        exact Error.noConfusion
      split at hi
      · cases hi
        exact Error.noConfusion
      · cases hi
    | ok d' =>
      rw [hi] at h
      exact ih h

theorem checkAll_fails {d : Dictionary} {n : Nat} {evs : List EventRecord} {e : Error}
    (h : checkAll d n evs = .error e) : Rejects e := by
  induction evs generalizing n with
  | nil => cases h
  | cons ev evs ih =>
    rw [checkAll] at h
    split at h
    · cases h
      exact Error.noConfusion
    cases hr : validateEventRefs d ev with
    | error e' =>
      rw [hr] at h
      cases h
      have href := requireRefs_error hr
      intro he
      rw [he] at href
      cases href
    | ok u =>
      rw [hr] at h
      exact ih h

theorem absorb_fails {v : View} {ty : UInt16} {payload : Bytes} {e : Error}
    (h : absorb v ty payload = .error e) : Rejects e := by
  unfold Dtj.absorb at h
  split at h
  · cases hes : entriesOf payload with
    | error e' =>
      rw [hes] at h
      cases h
      exact entriesOf_fails hes
    | ok es =>
      rw [hes, ok_bind] at h
      cases hd : v.dictionary.insertAll es with
      | error e' =>
        rw [hd] at h
        cases h
        exact insertAll_fails hd
      | ok d => rw [hd] at h; cases h
  split at h
  · cases hevs : eventsOf payload with
    | error e' =>
      rw [hevs] at h
      cases h
      exact eventsOf_fails hevs
    | ok evs =>
      rw [hevs, ok_bind] at h
      cases hc : checkAll v.dictionary (v.events.length + 1) evs with
      | error e' =>
        rw [hc] at h
        cases h
        exact checkAll_fails hc
      | ok u => rw [hc] at h; cases h
  · cases h

/-! ## the walk takes the steps of the algorithm -/

def conclude : Except Error (View × Bool) → Outcome
  | .ok (v, torn) => .ok v.events v.chunks torn
  | .error .invalidChunkMagic => .invalidChunkMagic
  | .error _ => .rejected

theorem conclude_error {e : Error} (h : Rejects e) : conclude (.error e) = .rejected := by
  cases e with
  | invalidChunkMagic => exact absurd rfl h
  | _ => rfl

/-- at the first position the reader wants a trailer too before it looks at the magic -/
def Plain (st : State) (s : Bytes) : Prop :=
  st.chunks = 0 → 24 ≤ s.length → s.length < 32 → windowAt s 0 4 = chunkMagic

section
variable {v : View} {st : State} {s : Bytes}

theorem walk_stop {torn : Bool} (hv : Shows v st) (h : readChunk v s = .ok (.done torn)) :
    conclude (walk v s) = .ok st.events st.chunks torn := by
  rw [walk_done h, ← hv.events, ← hv.chunks]
  rfl

theorem walk_reject {e : Error} (he : Rejects e) (h : readChunk v s = .error e) :
    conclude (walk v s) = .rejected := by
  rw [walk_error h]
  exact conclude_error he

theorem Header.readChunk (h : Header s) (v : View) : readChunk v s =
    if s.length < need s then .ok (.done true)
    else if 16777216 < payloadLen s then
      .error (.payloadTooLarge (UInt32.ofNat (payloadLen s)) maxChunkPayload)
    else if leAt s (24 + payloadLen s + 4) 4 ≠ 0xD7C0FFEE then .ok (.done true)
    else match accept v (headerAt s) (payload s)
        (UInt32.ofNat (leAt s (24 + payloadLen s) 4)) with
      | .error e => .error e
      | .ok v' => .ok (.next v' (s.drop (need s))) := by
  have hlong := h.long
  have hneed : need s = 32 + leAt s 16 4 := by
    unfold need payloadLen
    omega
  have hpos : 28 + leAt s 16 4 = 24 + payloadLen s + 4 := by
    unfold payloadLen
    omega
  unfold Dtj.readChunk
  rw [hneed]
  by_cases h32 : s.length < 32
  · have hpositive : decide (0 < s.length) = true := decide_eq_true (by omega)
    rw [if_pos h32, if_pos (by omega), hpositive]
  · rw [if_neg h32, if_neg (not_not.mpr h.magic), hpos]
    rfl

theorem Sealed.readChunk (h : Sealed s) (v : View) : readChunk v s =
    match accept v (headerAt s) (payload s) (UInt32.ofNat (leAt s (24 + payloadLen s) 4)) with
      | .error e => .error e
      | .ok v' => .ok (.next v' (s.drop (need s))) := by
  rw [h.full.header.readChunk, if_neg (not_lt.mpr h.full.full), if_neg (not_lt.mpr h.full.limit),
    if_neg (not_not.mpr h.marker)]

theorem sum_iff : UInt32.ofNat (leAt s (24 + payloadLen s) 4) = crc32 (payload s) ↔
    leAt s (24 + payloadLen s) 4 = (crc32 (payload s)).toNat := by
  rw [← UInt32.toNat_inj, toNat_leAt4]

theorem Committed.readChunk (h : Committed st.chunks s) (hv : Shows v st) : readChunk v s =
    match absorb v (headerAt s).chunkType (payload s) with
      | .error e => .error e
      | .ok v' => .ok (.next v' (s.drop (need s))) := by
  have hseq : (headerAt s).sequence.toNat = v.chunks + 1 := by
    rw [hv.chunks, ← h.sequence]
    exact toNat_leAt8 s 8
  rw [h.marked.readChunk, accept, if_neg (not_not.mpr (sum_iff.mpr h.checksum)),
    if_neg (not_not.mpr hseq)]

/-- **the outcome of the algorithm is the one of the walk** -/
theorem Recover.conclude {o : Outcome} (h : Recover st s o) (hv : Shows v st) (hp : Plain st s) :
    conclude (walk v s) = o := by
  induction h generalizing v with
  | @short st s h =>
    apply walk_stop hv
    unfold Dtj.readChunk
    rw [if_pos (by omega)]
  | @magic st s h bad first =>
    have h32 : ¬ s.length < 32 := fun h32 => bad (hp first h h32)
    have hread : Dtj.readChunk v s = .error .invalidChunkMagic := by
      unfold Dtj.readChunk
      rw [if_neg h32, if_pos bad, if_pos (hv.chunks.trans first)]
    rw [walk_error hread]
    rfl
  | @garbage st s h bad later =>
    apply walk_stop hv
    unfold Dtj.readChunk
    by_cases h32 : s.length < 32
    · have hpositive : decide (0 < s.length) = true := decide_eq_true (by omega)
      rw [if_pos h32, hpositive]
    · have h0 : ¬ v.chunks = 0 := by
        rw [hv.chunks]
        exact later
      rw [if_neg h32, if_pos bad, if_neg h0]
  | torn h bad =>
    apply walk_stop hv
    rw [h.readChunk, if_pos bad]
  | @limit st s h full bad =>
    apply @walk_reject v s (.payloadTooLarge (UInt32.ofNat (payloadLen s)) maxChunkPayload)
      Error.noConfusion
    rw [h.readChunk, if_neg (not_lt.mpr full), if_pos bad]
  | unmarked h bad =>
    apply walk_stop hv
    rw [h.header.readChunk, if_neg (not_lt.mpr h.full), if_neg (not_lt.mpr h.limit), if_pos bad]
  | @checksum st s h bad =>
    apply @walk_reject v s (.checksumMismatch (headerAt s).sequence) Error.noConfusion
    rw [h.readChunk, accept, if_pos (mt sum_iff.mp bad)]
  | @sequence st s h sum bad =>
    have hseq : (headerAt s).sequence.toNat ≠ v.chunks + 1 := by
      rw [hv.chunks]
      exact fun he => bad ((toNat_leAt8 s 8).symm.trans he)
    apply @walk_reject v s (.sequenceGap (UInt64.ofNat (v.chunks + 1)) (headerAt s).sequence)
      Error.noConfusion
    rw [h.readChunk, accept, if_neg (not_not.mpr (sum_iff.mpr sum)), if_pos hseq]
  | @malformed st s h bad =>
    have hread := h.readChunk hv
    cases ha : Dtj.absorb v (headerAt s).chunkType (payload s) with
    | error e =>
      rw [ha] at hread
      exact walk_reject (absorb_fails ha) hread
    | ok v' =>
      obtain ⟨st', hst⟩ := absorb_process ha hv
      rw [show (headerAt s).chunkType.toNat = leAt s 4 2 from toNat_leAt2 s 4] at hst
      exact absurd hst (bad st')
  | @next st st' s o h step rest ih =>
    have hread := h.readChunk hv
    rw [← show (headerAt s).chunkType.toNat = leAt s 4 2 from toNat_leAt2 s 4] at step
    obtain ⟨v', ha, hv'⟩ := step.absorb hv
    rw [ha] at hread
    rw [walk_next hread]
    apply ih hv'
    intro h0
    rw [step.chunks] at h0
    cases h0

/-- **the walk takes the steps of the algorithm, and comes to its outcome** -/
theorem recover_iff {o : Outcome} (hv : Shows v st) (hp : Plain st s) :
    Recover st s o ↔ conclude (walk v s) = o := by
  constructor
  · intro h
    exact h.conclude hv hp
  · rintro rfl
    obtain ⟨o, ho⟩ := recover_total st s
    rw [ho.conclude hv hp]
    exact ho

end

/-! ## files -/

def outcome : Res Error SessionReader → Option Outcome
  | .ok r => some (.ok r.events r.chunksCommitted.toNat r.tornTail)
  | .error (.error .invalidChunkMagic) => some .invalidChunkMagic
  | .error (.error _) => some .rejected
  | .error _ => none

theorem headerOf_iff {s : Bytes} (h : 128 ≤ s.length) :
    (∃ hdr, headerOf (s.take 128) = .ok hdr) ↔ HeaderOk s := by
  have hlen : ¬ (s.take 128).length < 128 := by
    rw [List.length_take_of_le h]
    omega
  have hwin : ∀ i n, i + n ≤ 128 → windowAt (s.take 128) i n = windowAt s i n :=
    fun i n hi => windowAt_take hi
  have hver : UInt16.ofNat (leAt s 4 2) = formatVersion ↔ leAt s 4 2 = 1 := by
    rw [← UInt16.toNat_inj, toNat_leAt2]
    rfl
  have hsize : UInt16.ofNat (leAt s 6 2) = headerSize ↔ leAt s 6 2 = 128 := by
    rw [← UInt16.toNat_inj, toNat_leAt2]
    rfl
  have hend : windowAt s 8 4 = le 4 endianMagic.toNat ↔ leAt s 8 4 = 0x01020304 := by
    constructor
    · intro h
      show leNat (windowAt s 8 4) = _
      rw [h]
      rfl
    · intro h'
      have hl : (windowAt s 8 4).length = 4 := by
        rw [windowAt, List.length_take, List.length_drop]
        omega
      have hle := le_leNat (windowAt s 8 4)
      rw [hl] at hle
      rw [← hle]
      exact congrArg (le 4) h'
  unfold headerOf
  rw [dif_neg hlen, hwin 0 4 (by omega), hwin 8 4 (by omega), leAt_take (by omega),
    leAt_take (by omega)]
  constructor
  · rintro ⟨hdr, hok⟩
    split at hok
    · cases hok
    split at hok
    · cases hok
    split at hok
    · cases hok
    split at hok
    · cases hok
    rename_i h1 h2 h3 h4
    exact ⟨not_not.mp h1, hver.mp (not_not.mp h2), hsize.mp (not_not.mp h3), hend.mp (not_not.mp h4)⟩
  · rintro ⟨h1, h2, h3, h4⟩
    rw [if_neg (not_not.mpr h1), if_neg (not_not.mpr (hver.mpr h2)),
      if_neg (not_not.mpr (hsize.mpr h3)), if_neg (not_not.mpr (hend.mpr h4))]
    exact ⟨_, rfl⟩

/-- a file whose header is refused -/
theorem outcome_header {s : Bytes} (h128 : 128 ≤ s.length) (h64 : s.length < 2^64)
    (h : ¬ HeaderOk s) : outcome (SessionReader.open s) = some .rejected := by
  rw [open_eq h64, openOf, if_neg (not_lt.mpr h128)]
  cases hh : headerOf (s.take 128) with
  | ok hdr => exact absurd ((headerOf_iff h128).mp ⟨hdr, hh⟩) h
  | error e =>
    unfold headerOf at hh
    split at hh
    · cases hh
      rfl
    split at hh
    · cases hh
      rfl
    split at hh
    · cases hh
      rfl
    split at hh
    · cases hh
      rfl
    split at hh
    · cases hh
      rfl
    · cases hh

/-- a file whose header is accepted -/
theorem outcome_walk {s : Bytes} (h128 : 128 ≤ s.length) (h64 : s.length < 2^64)
    (h : HeaderOk s) :
    outcome (SessionReader.open s) = some (conclude (walk .empty (s.drop 128))) := by
  obtain ⟨hdr, hh⟩ := (headerOf_iff h128).mpr h
  rw [open_eq h64, openOf, if_neg (not_lt.mpr h128), hh]
  dsimp only
  cases hw : walk .empty (s.drop 128) with
  | error e =>
    cases e with
    | _ => rfl
  | ok x =>
    obtain ⟨v, torn⟩ := x
    have hv : v.chunks = (frames (s.drop 128)).length := (absorbed_empty.walk hw).chunks
    have hlen := frames_length (s.drop 128)
    rw [List.length_drop] at hlen
    have hc : (UInt64.ofNat v.chunks).toNat = v.chunks := by
      rw [UInt64.toNat_ofNat', Nat.mod_eq_of_lt (by omega)]
    show some (Outcome.ok v.events (UInt64.ofNat v.chunks).toNat torn) = _
    rw [hc]
    rfl

/-- 24 to 31 bytes behind the header that do not start with the magic of a chunk -/
structure Stray (s : Bytes) : Prop where
  header : HeaderOk s
  long : 152 ≤ s.length
  short : s.length < 160
  magic : windowAt s 128 4 ≠ chunkMagic

theorem windowAt_drop (s : Bytes) (k i n : Nat) :
    windowAt (s.drop k) i n = windowAt s (k + i) n := by
  unfold windowAt
  rw [List.drop_drop]

/-- the algorithm refuses a stray tail -/
theorem Stray.recovers {s : Bytes} (h : Stray s) : Recovers s .invalidChunkMagic := by
  have hlong := h.long
  refine .chunks h.header (.magic ?_ ?_ rfl)
  · rw [List.length_drop]
    omega
  · rw [windowAt_drop]
    exact h.magic

/-- the reader takes a stray tail for a torn one -/
theorem Stray.outcome {s : Bytes} (h : Stray s) :
    outcome (SessionReader.open s) = some (.ok [] 0 true) := by
  have hlong := h.long
  have hshort := h.short
  have hlen : (s.drop 128).length = s.length - 128 := List.length_drop ..
  have hread : readChunk .empty (s.drop 128) = .ok (.done true) := by
    have hpositive : decide (0 < (s.drop 128).length) = true := decide_eq_true (by omega)
    unfold readChunk
    rw [if_pos (by omega), hpositive]
  rw [outcome_walk (by omega) (by omega) h.header, walk_done hread]
  rfl

/-- **The reader comes to the outcome of the recovery algorithm, except on a stray tail** -/
theorem open_recovers_iff {s : Bytes} (h128 : 128 ≤ s.length) (h64 : s.length < 2^64) :
    (∀ o, Recovers s o ↔ outcome (SessionReader.open s) = some o) ↔ ¬ Stray s := by
  constructor
  · intro h hs
    have := (h _).mp hs.recovers
    rw [hs.outcome] at this
    cases this
  intro hs o
  by_cases hh : HeaderOk s
  · have hp : Plain ⟨[], [], 0⟩ (s.drop 128) := by
      intro _ hlong hshort
      rw [List.length_drop] at hlong hshort
      rw [windowAt_drop]
      exact not_not.mp fun hm => hs ⟨hh, by omega, by omega, hm⟩
    rw [outcome_walk h128 h64 hh, Option.some_inj, ← recover_iff shows_empty hp]
    constructor
    · intro h
      cases h with
      | header bad => exact absurd hh bad
      | chunks _ rest => exact rest
    · exact .chunks hh
  · rw [outcome_header h128 h64 hh, Option.some_inj]
    constructor
    · intro h
      cases h with
      | header _ => rfl
      | chunks h _ => exact absurd h hh
    · rintro rfl
      exact .header hh

set_option maxRecDepth 100000 in
/-- the algorithm and the reader agree on a journal of one event -/
theorem journalBytes_recovers : ¬ Stray journalBytes ∧
    Recovers journalBytes (.ok [journalEvent] 2 false) := by
  have hs : ¬ Stray journalBytes := fun h => absurd h.short (by decide +kernel)
  exact ⟨hs, ((open_recovers_iff (by decide +kernel) (by decide +kernel)).mpr hs _).mpr
    (by decide +kernel)⟩

/-- a header, then 24 zero bytes -/
def strayBytes : Bytes := journalHeader.fixed ++ List.replicate 104 0

theorem strayBytes_diverges : 128 ≤ strayBytes.length ∧ Recovers strayBytes .invalidChunkMagic ∧
    outcome (SessionReader.open strayBytes) = some (.ok [] 0 true) := by
  have h : Stray strayBytes :=
    ⟨⟨by decide +kernel, by decide +kernel, by decide +kernel, by decide +kernel⟩,
      by decide +kernel, by decide +kernel, by decide +kernel⟩
  exact ⟨by decide +kernel, h.recovers, h.outcome⟩

end Dtj.Spec
