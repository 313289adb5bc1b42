import Dtj.Journal.Open

/-!
# The committed chunks of a journal

* `frames s`           the chunks of a byte string that are all there and carry the marker;
* `entries`, `events`  what a list of chunks holds;
* `absorb_ok`          everything that `absorb` checks and does;
* `Absorbed`           the invariant of the chunk loop; `Absorbed.step`, `Absorbed.walk`;
* `WellFormed`, `open_wellFormed`   **what every accepted journal satisfies**.
-/

namespace Dtj
open Wire Checked

structure Chunk where
  header : ChunkHeader
  payload : Bytes
deriving DecidableEq

def entriesIn (ty : UInt16) (payload : Bytes) : List DictEntry :=
  if ty = 1 then (entriesOf payload).toOption.getD [] else []

def eventsIn (ty : UInt16) (payload : Bytes) : List EventRecord :=
  if ty = 2 then (eventsOf payload).toOption.getD [] else []

def Chunk.entries (c : Chunk) : List DictEntry := entriesIn c.header.chunkType c.payload

def Chunk.events (c : Chunk) : List EventRecord := eventsIn c.header.chunkType c.payload

def entries (cs : List Chunk) : List DictEntry := cs.flatMap Chunk.entries

def events (cs : List Chunk) : List EventRecord := cs.flatMap Chunk.events

/-! ## the frames of a byte string -/

/-- the first chunk, if it is all there, within the limit and marked as committed -/
def firstFrame (s : Bytes) : Option (Chunk × Bytes) :=
  if 32 ≤ s.length ∧ windowAt s 0 4 = chunkMagic ∧ 32 + leAt s 16 4 ≤ s.length ∧
      leAt s 16 4 ≤ 16777216 ∧ leAt s (28 + leAt s 16 4) 4 = committedMarker.toNat then
    some (⟨headerAt s, windowAt s 24 (leAt s 16 4)⟩, s.drop (32 + leAt s 16 4))
  else none

theorem firstFrame_lt {s r : Bytes} {c : Chunk} (h : firstFrame s = some (c, r)) :
    r.length + 32 ≤ s.length := by
  unfold firstFrame at h
  split at h
  · cases h
    rw [List.length_drop]
    omega
  · cases h

def frames (s : Bytes) : List Chunk :=
  match h : firstFrame s with
  | none => []
  | some (c, r) =>
    have := firstFrame_lt h
    c :: frames r
termination_by s.length

theorem frames_none {s : Bytes} (h : firstFrame s = none) : frames s = [] := by
  rw [frames]
  split
  · rfl
  · rename_i h'; rw [h] at h'; cases h'

theorem frames_some {s r : Bytes} {c : Chunk} (h : firstFrame s = some (c, r)) :
    frames s = c :: frames r := by
  rw [frames]
  split
  · rename_i h'; rw [h] at h'; cases h'
  · rename_i h'; rw [h] at h'; cases h'; rfl

/-- a chunk was accepted: it is the first frame, and `accept` took it -/
theorem readChunk_frame {v v' : View} {s r : Bytes} (h : readChunk v s = .ok (.next v' r)) :
    ∃ c, firstFrame s = some (c, r) ∧
      accept v c.header c.payload (UInt32.ofNat (leAt s (24 + leAt s 16 4) 4)) = .ok v' := by
  unfold readChunk at h
  split at h
  · cases h
  split at h
  · split at h <;> cases h
  split at h
  · cases h
  split at h
  · cases h
  split at h
  · cases h
  rename_i h32 hm hfull hbig hc
  cases ha : accept v (headerAt s) (windowAt s 24 (leAt s 16 4))
    (UInt32.ofNat (leAt s (24 + leAt s 16 4) 4)) with
  | error e => rw [ha] at h; cases h
  | ok v₁ =>
    rw [ha] at h
    cases h
    refine ⟨⟨headerAt s, windowAt s 24 (leAt s 16 4)⟩, ?_, ha⟩
    exact if_pos ⟨not_lt.mp h32, not_not.mp hm, not_lt.mp hfull, not_lt.mp hbig, not_not.mp hc⟩

/-- where the walk stops without an error there is no further frame -/
theorem readChunk_done {v : View} {s : Bytes} {torn : Bool}
    (h : readChunk v s = .ok (.done torn)) : firstFrame s = none := by
  refine if_neg ?_
  rintro ⟨h32, hm, hfull, hbig, hc⟩
  unfold readChunk at h
  rw [if_neg (not_lt.mpr h32), if_neg (not_not.mpr hm), if_neg (not_lt.mpr hfull),
    if_neg (not_lt.mpr hbig), if_neg (not_not.mpr hc)] at h
  cases ha : accept v (headerAt s) (windowAt s 24 (leAt s 16 4))
    (UInt32.ofNat (leAt s (24 + leAt s 16 4) 4)) with
  | error e => rw [ha] at h; cases h
  | ok v₁ => rw [ha] at h; cases h

/-! ## what `absorb` checks -/

/-- the events carry the numbers from `n` on -/
def Numbered (n : Nat) (evs : List EventRecord) : Prop :=
  ∀ i ev, evs[i]? = some ev → ev.eventSequence.toNat = n + i

theorem numbered_nil (n : Nat) : Numbered n [] := by
  intro i ev h
  cases h

theorem numbered_cons {n : Nat} {ev : EventRecord} {evs : List EventRecord} :
    Numbered n (ev :: evs) ↔ ev.eventSequence.toNat = n ∧ Numbered (n + 1) evs := by
  constructor
  · intro h
    refine ⟨h 0 ev rfl, fun i e he => ?_⟩
    rw [h (i + 1) e he]
    omega
  · rintro ⟨h0, h⟩ i e he
    cases i with
    | zero => cases he; exact h0
    | succ i =>
      rw [h i e he]
      omega

theorem numbered_append {n : Nat} {evs evs' : List EventRecord} :
    Numbered n (evs ++ evs') ↔ Numbered n evs ∧ Numbered (n + evs.length) evs' := by
  induction evs generalizing n with
  | nil => exact ⟨fun h => ⟨numbered_nil n, h⟩, fun h => h.2⟩
  | cons ev evs ih =>
    rw [List.cons_append, numbered_cons, numbered_cons, ih, List.length_cons, and_assoc,
      Nat.add_assoc, Nat.add_comm 1]

theorem checkAll_ok {d : Dictionary} {n : Nat} {evs : List EventRecord} :
    checkAll d n evs = .ok () ↔ Numbered n evs ∧ ∀ ev ∈ evs, Resolves d ev.refs := by
  induction evs generalizing n with
  | nil => exact ⟨fun _ => ⟨numbered_nil n, by simp⟩, fun _ => rfl⟩
  | cons ev evs ih =>
    rw [checkAll, numbered_cons, List.forall_mem_cons]
    by_cases hn : ev.eventSequence.toNat = n
    · rw [if_neg (not_not.mpr hn), ← validateEventRefs_ok]
      cases hv : validateEventRefs d ev with
      | error e => simp
      | ok u =>
        simp only [ih, hn, true_and]
    · rw [if_pos hn]
      simp [hn]

/-- everything that a chunk which was absorbed satisfies, and what it adds -/
structure Absorbs (v : View) (ty : UInt16) (payload : Bytes) (v' : View) : Prop where
  dictionary : v.dictionary.insertAll (entriesIn ty payload) = .ok v'.dictionary
  events : v'.events = v.events ++ eventsIn ty payload
  chunks : v'.chunks = v.chunks + 1
  numbered : Numbered (v.events.length + 1) (eventsIn ty payload)
  resolved : ∀ ev ∈ eventsIn ty payload, Resolves v.dictionary ev.refs
  entry_count : (entriesIn ty payload).length ≤ 65535
  event_count : (eventsIn ty payload).length ≤ 65535
  fits : ∀ ev ∈ eventsIn ty payload, ev.Fits

theorem absorb_ok {v v' : View} {ty : UInt16} {payload : Bytes}
    (h : absorb v ty payload = .ok v') : Absorbs v ty payload v' := by
  unfold absorb at h
  by_cases h1 : ty = 1
  · subst h1
    rw [if_pos rfl] at h
    have hev : eventsIn 1 payload = [] := rfl
    cases he : entriesOf payload with
    | error e => rw [he] at h; cases h
    | ok es =>
      have hen : entriesIn 1 payload = es := by
        rw [entriesIn, if_pos rfl, he]; rfl
      rw [he, ok_bind] at h
      cases hd : v.dictionary.insertAll es with
      | error e => rw [hd] at h; cases h
      | ok d =>
        rw [hd] at h
        cases h
        refine ⟨hen ▸ hd, by simp [hev], rfl, hev ▸ numbered_nil _, by simp [hev], ?_, by simp [hev],
          by simp [hev]⟩
        rw [hen]
        exact (entriesOf_ok he).1
  by_cases h2 : ty = 2
  · subst h2
    rw [if_neg h1, if_pos rfl] at h
    have hen : entriesIn 2 payload = [] := rfl
    cases he : eventsOf payload with
    | error e => rw [he] at h; cases h
    | ok evs =>
      have hev : eventsIn 2 payload = evs := by
        rw [eventsIn, if_pos rfl, he]; rfl
      obtain ⟨hfit, hcount, _⟩ := eventsOf_ok he
      rw [he, ok_bind] at h
      cases hc : checkAll v.dictionary (v.events.length + 1) evs with
      | error e => rw [hc] at h; cases h
      | ok u =>
        rw [hc] at h
        cases h
        obtain ⟨hnum, hres⟩ := checkAll_ok.mp hc
        exact ⟨rfl, by rw [hev], rfl, hev ▸ hnum, hev ▸ hres, Nat.zero_le _, hev ▸ hcount,
          hev ▸ hfit⟩
  · rw [if_neg h1, if_neg h2] at h
    cases h
    have hen : entriesIn ty payload = [] := if_neg h1
    have hev : eventsIn ty payload = [] := if_neg h2
    exact ⟨by rw [hen]; rfl, by simp [hev], rfl, hev ▸ numbered_nil _, by simp [hev], by simp [hen],
      by simp [hev], by simp [hev]⟩

/-! ## the invariant of the chunk loop -/

/-- the limits of a chunk's content -/
structure Chunk.Within (c : Chunk) : Prop where
  entry_count : c.entries.length ≤ 65535
  event_count : c.events.length ≤ 65535
  fits : ∀ ev ∈ c.events, ev.Fits

/-- the view is what the chunks `cs` amount to, and they were in order -/
structure Absorbed (v : View) (cs : List Chunk) : Prop where
  dictionary : Dictionary.new.insertAll (entries cs) = .ok v.dictionary
  events : v.events = events cs
  chunks : v.chunks = cs.length
  sequence : ∀ i c, cs[i]? = some c → c.header.sequence.toNat = i + 1
  numbered : Numbered 1 v.events
  resolved : ∀ pre c post, cs = pre ++ c :: post → ∀ ev ∈ c.events,
    ∃ d, Dictionary.new.insertAll (entries pre) = .ok d ∧ Resolves d ev.refs
  within : ∀ c ∈ cs, c.Within

theorem absorbed_empty : Absorbed .empty [] where
  dictionary := rfl
  events := rfl
  chunks := rfl
  sequence i c h := by cases h
  numbered := numbered_nil 1
  resolved pre c post h := by simp at h
  within c hc := by cases hc

/-- **one more chunk keeps the invariant** -/
theorem Absorbed.step {v v' : View} {cs : List Chunk} (hv : Absorbed v cs) {c : Chunk}
    {checksum : UInt32} (h : accept v c.header c.payload checksum = .ok v') :
    Absorbed v' (cs ++ [c]) := by
  obtain ⟨_, hseq, habs⟩ := accept_ok.mp h
  have ha := absorb_ok habs
  have hen : entries (cs ++ [c]) = entries cs ++ c.entries := by simp [entries]
  have hev : Dtj.events (cs ++ [c]) = Dtj.events cs ++ c.events := by simp [Dtj.events]
  refine ⟨?_, ?_, ?_, ?_, ?_, ?_, ?_⟩
  · rw [hen, Dictionary.insertAll_append, hv.dictionary]
    exact ha.dictionary
  · rw [hev, ← hv.events]
    exact ha.events
  · rw [ha.chunks, hv.chunks, List.length_append, List.length_singleton]
  · intro i c' hc'
    rcases lt_or_ge i cs.length with hi | hi
    · rw [List.getElem?_append_left hi] at hc'
      exact hv.sequence i c' hc'
    · rw [List.getElem?_append_right hi] at hc'
      cases hj : i - cs.length with
      | zero =>
        rw [hj] at hc'
        cases hc'
        rw [hseq, hv.chunks]
        omega
      | succ j => rw [hj] at hc'; cases hc'
  · rw [ha.events, numbered_append, Nat.add_comm 1]
    exact ⟨hv.numbered, ha.numbered⟩
  · intro pre c' post hsplit ev hmem
    rcases List.eq_nil_or_concat post with rfl | ⟨post', x, rfl⟩
    · obtain ⟨rfl, hx⟩ := List.append_inj' hsplit rfl
      cases hx
      exact ⟨v.dictionary, hv.dictionary, ha.resolved ev hmem⟩
    · have hsplit' : cs ++ [c] = (pre ++ c' :: post') ++ [x] := by simpa using hsplit
      obtain ⟨h', _⟩ := List.append_inj' hsplit' rfl
      exact hv.resolved pre c' post' h' ev hmem
  · intro c' hc'
    rcases List.mem_append.mp hc' with hc' | hc'
    · exact hv.within c' hc'
    · rw [List.mem_singleton.mp hc']
      exact ⟨ha.entry_count, ha.event_count, ha.fits⟩

/-- **a walk that succeeds absorbs all the frames it finds** -/
theorem Absorbed.walk {v : View} {s : Bytes} {cs : List Chunk} (hv : Absorbed v cs) {v' : View}
    {torn : Bool} (h : walk v s = .ok (v', torn)) : Absorbed v' (cs ++ frames s) := by
  induction v, s using walk_induction generalizing cs with
  | error v s e he => rw [walk_error he] at h; cases h
  | done v s t hd =>
    rw [walk_done hd] at h
    cases h
    rw [frames_none (readChunk_done hd), List.append_nil]
    exact hv
  | next v s v₁ r hn ih =>
    rw [walk_next hn] at h
    obtain ⟨c, hc, ha⟩ := readChunk_frame hn
    have := ih (hv.step ha) h
    rw [frames_some hc]
    simpa using this

/-! ## accepted journals -/

/-- what a journal with the chunks `cs` satisfies, as the reader shows it -/
structure WellFormed (r : SessionReader) (cs : List Chunk) : Prop where
  chunks : r.chunksCommitted.toNat = cs.length
  events : r.events = Dtj.events cs
  sequence : ∀ i ev, r.events[i]? = some ev → ev.eventSequence.toNat = i + 1
  /-- a reference has its entry in a chunk before the chunk of the event -/
  refs : ∀ pre c post, cs = pre ++ c :: post → ∀ ev ∈ c.events, ∀ ref ∈ ev.refs,
    ∃ e ∈ entries pre, (e.kind, e.id) = ref ∧ r.dictionary.getName ref.1 ref.2 = some e.name
  names : ∀ kind id name,
    r.dictionary.getName kind id = some name ↔ ⟨kind, id, name⟩ ∈ entries cs
  unique : (entries cs).Pairwise fun e e' => (e.kind, e.id) ≠ (e'.kind, e'.id)
  ids : ∀ e ∈ entries cs, e.id ≠ 0 ∧ (utf8 e.name).length ≤ 1024
  counts : ∀ c ∈ cs, c.entries.length ≤ 65535 ∧ c.events.length ≤ 65535
  payloads : ∀ ev ∈ r.events, ev.payload.fields.length ≤ 65535 ∧ ev.payload.raw.length ≤ 65535 ∧
    ∀ f ∈ ev.payload.fields, f.value.bytesLen ≤ 4096

theorem Absorbed.wellFormed {v : View} {cs : List Chunk} (hv : Absorbed v cs) {r : SessionReader}
    (hd : r.dictionary = v.dictionary) (he : r.events = v.events)
    (hc : r.chunksCommitted.toNat = v.chunks) : WellFormed r cs where
  chunks := hc.trans hv.chunks
  events := he.trans hv.events
  sequence i ev h := by
    rw [hv.numbered i ev (he ▸ h), Nat.add_comm]
  refs pre c post hsplit ev hev ref href := by
    obtain ⟨d, hpre, hres⟩ := hv.resolved pre c post hsplit ev hev
    obtain ⟨name, hname⟩ := hres ref href
    have hmem := (Dictionary.insertAll_getName hpre hname).resolve_left (by simp)
    refine ⟨_, hmem, rfl, ?_⟩
    have hall := hv.dictionary
    rw [hsplit, entries, List.flatMap_append] at hall
    rw [hd]
    exact Dictionary.insertAll_mem hall (List.mem_append_left _ hmem)
  names kind id name := by
    rw [hd]
    constructor
    · intro h
      exact (Dictionary.insertAll_getName hv.dictionary h).resolve_left (by simp)
    · intro h
      exact Dictionary.insertAll_mem hv.dictionary h
  unique := Dictionary.insertAll_unique hv.dictionary
  ids e h := by
    have hs := Dictionary.sound_new.insertAll hv.dictionary
    have hn := Dictionary.insertAll_mem hv.dictionary h
    exact ⟨hs.id_ne_zero hn, hs.name_length hn⟩
  counts c h := ⟨(hv.within c h).entry_count, (hv.within c h).event_count⟩
  payloads ev h := by
    rw [he, hv.events] at h
    obtain ⟨c, hcs, hev⟩ := List.mem_flatMap.mp h
    obtain ⟨hfit, hlen⟩ := (hv.within c hcs).fits ev hev
    exact ⟨hfit.1, hlen, hfit.2⟩

theorem openOf_ok {data : Bytes} {r : SessionReader} (h : openOf data = .ok r) :
    128 ≤ data.length ∧ headerOf (data.take 128) = .ok r.header ∧ ∃ v,
      walk .empty (data.drop 128) = .ok (v, r.tornTail) ∧ r.dictionary = v.dictionary ∧
      r.events = v.events ∧ r.chunksCommitted = UInt64.ofNat v.chunks := by
  unfold openOf at h
  split at h
  · cases h
  rename_i hlen
  cases hh : headerOf (data.take 128) with
  | error e => rw [hh] at h; cases h
  | ok header =>
    rw [hh] at h
    simp only at h
    cases hw : walk .empty (data.drop 128) with
    | error e => rw [hw] at h; cases h
    | ok x =>
      obtain ⟨v, torn⟩ := x
      rw [hw] at h
      cases h
      exact ⟨not_lt.mp hlen, rfl, v, rfl, rfl, rfl, rfl⟩

theorem frames_length (s : Bytes) : 32 * (frames s).length ≤ s.length := by
  induction hn : s.length using Nat.strong_induction_on generalizing s with
  | _ n ih =>
    cases h : firstFrame s with
    | none => rw [frames_none h]; simp
    | some x =>
      obtain ⟨c, r⟩ := x
      have hlt := firstFrame_lt h
      have := ih r.length (by omega) r rfl
      rw [frames_some h, List.length_cons]
      omega

/-- an event takes more than one byte -/
theorem eventsIn_length (ty : UInt16) (payload : Bytes) : (eventsIn ty payload).length ≤ payload.length := by
  have hraw : ∀ evs : List EventRecord, evs.length ≤ (evs.flatMap EventRecord.raw).length := by
    intro evs
    induction evs with
    | nil => exact Nat.zero_le _
    | cons ev evs ih =>
      rw [List.flatMap_cons, List.length_append, List.length_cons, EventRecord.raw_length]
      omega
  unfold eventsIn
  split
  · cases h : eventsOf payload with
    | ok evs =>
      have hlength := (eventsOf_ok h).2.2.2
      have := hraw evs
      rw [listRaw, List.length_append] at hlength
      simp only [Except.toOption, Option.getD_some]
      omega
    | error e => exact Nat.zero_le _
  · exact Nat.zero_le _

theorem events_length (s : Bytes) : (events (frames s)).length ≤ s.length := by
  induction hn : s.length using Nat.strong_induction_on generalizing s with
  | _ n ih =>
    cases h : firstFrame s with
    | none =>
      rw [frames_none h]
      exact Nat.zero_le _
    | some x =>
      obtain ⟨c, r⟩ := x
      have hlt := firstFrame_lt h
      have hrest := ih r.length (by omega) r rfl
      have hpayload : c.payload.length + r.length ≤ s.length := by
        unfold firstFrame at h
        split at h
        · cases h
          rw [windowAt, List.length_take, List.length_drop, List.length_drop]
          omega
        · cases h
      have hevents := eventsIn_length c.header.chunkType c.payload
      rw [frames_some h, events, List.flatMap_cons, List.length_append]
      rw [events] at hrest
      have hc : c.events = eventsIn c.header.chunkType c.payload := rfl
      rw [hc]
      omega

/-- **Everything the reader accepts is well-formed** -/
theorem open_wellFormed {data : Bytes} (hdata : data.length < 2^64) {r : SessionReader}
    (h : SessionReader.open data = .ok r) : WellFormed r (frames (data.drop 128)) := by
  rw [open_eq hdata, lift_eq_ok] at h
  obtain ⟨_, _, v, hw, hd, he, hc⟩ := openOf_ok h
  have hv : Absorbed v (frames (data.drop 128)) := absorbed_empty.walk hw
  have hlen := frames_length (data.drop 128)
  rw [List.length_drop] at hlen
  refine hv.wellFormed hd he ?_
  rw [hc, UInt64.toNat_ofNat', Nat.mod_eq_of_lt (by rw [hv.chunks]; omega)]

/-! ## a journal of one event -/

def journalEntries : List DictEntry :=
  [⟨.domain, 1, "net"⟩, ⟨.category, 1, "rx"⟩, ⟨.eventName, 1, "frame"⟩, ⟨.string, 1, "raw"⟩]

def journalEvent : EventRecord := ⟨5, 1, 1, 1, 1, 1, .info, ⟨[⟨1, .bytes [7, 8, 9]⟩]⟩⟩

def journalHeader : FileHeader := ⟨1, 0, ⟨List.replicate 16 0, rfl⟩, 0, 0, "", ""⟩

/-- a header, a chunk with four names, a chunk with one event -/
def journalBytes : Bytes :=
  let names := listRaw DictEntry.raw journalEntries
  let events := listRaw EventRecord.raw [journalEvent]
  journalHeader.fixed ++ List.replicate 80 0 ++ chunkRaw ⟨1, 1, UInt32.ofNat names.length⟩ names
    ++ chunkRaw ⟨2, 2, UInt32.ofNat events.length⟩ events

theorem exists_ok {α : Type} {p : α → Bool} {x : Res Error α}
    (h : (x.toOption.map p).getD false = true) : ∃ a, x = .ok a ∧ p a = true := by
  cases x with
  | ok a => exact ⟨a, rfl, h⟩
  | error e => cases h

set_option maxRecDepth 100000 in
/-- the journal is accepted, with its event, and is well-formed -/
theorem journalBytes_wellFormed : ∃ r, SessionReader.open journalBytes = .ok r ∧
    r.events = [journalEvent] ∧ WellFormed r (frames (journalBytes.drop 128)) := by
  obtain ⟨r, hr, he⟩ := @exists_ok SessionReader (fun r => decide (r.events = [journalEvent]))
    (SessionReader.open journalBytes) (by decide +kernel)
  exact ⟨r, hr, of_decide_eq_true he, open_wellFormed (by decide +kernel) hr⟩

end Dtj
