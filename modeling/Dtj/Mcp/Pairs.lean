import Dtj.Lib.Pairing
import Dtj.Mcp.Events

/-!
# Entities that are opened and closed

Two tools look for entities that an event opens and none closes.  `unmatched_entities_dtj` keeps the
opened and the closed ones as sets; `pair_latency_dtj` takes an entity out when it is closed.

* `EVENT_PAIRS`                     which names open and close;
* `unmatched_entities_dtj`, `pair_latency_dtj`, `opened`, `paired`
                                    the tools and their loops;
* `marksOf`                         what the events open and close, in order;
* `opened_tracks`, `paired_tracks`  what the loops have at the end;
* `detectors_agree_iff`             **when the two find the same entities**.
-/

namespace Dtj.Mcp

open Posix Pairing

structure EventPair where
  name : Str
  opens : List Str
  closes : List Str

def EVENT_PAIRS : List EventPair :=
  [⟨"Dangling", ["Created"], ["Destroyed", "Consumed"]⟩,
    ⟨"Begin", ["Begin"], ["Success", "Commit", "Dispose", "End"]⟩,
    ⟨"Arm", ["Arm", "Arming"], ["Release"]⟩,
    ⟨"Candidate", ["CandidateBegin"], ["Commit", "Cancel"]⟩]

def MAX_LIMIT : Int := 500

def _validate_limit (limit : Py) : Option Dict :=
  match limit with
  | .int n =>
    if n < 1 ∨ n > MAX_LIMIT then some invalid else none
  | _ => some invalid
where
  invalid : Dict := [("kind", .str "InvalidLimit"),
    ("message", .str (lit "limit must be an integer in 1.." ++ Str.ofInt MAX_LIMIT)),
    ("max", .int MAX_LIMIT)]

/-- `str(event.get("event_name") or "")` -/
def eventName (python : Python) (event : Dict) : Str :=
  text python ((get event "event_name").orElse (.str []))

/-- an integer time; a truth value is none -/
def _mono (event : Dict) : Option Int := (get event "monotonic_ns").checked

/-- the floating-point operations of `pair_latency_dtj` -/
structure Floats where
  /-- `(b - a) * 1000.0`, of two times in nanoseconds over `1_000_000_000.0` -/
  latency_ms : Int → Int → UInt64
  le : UInt64 → UInt64 → Bool
  /-- `int(n * 0.95)` -/
  scaled : Nat → Nat
  /-- `f"{x:.1f}"` -/
  fixed : UInt64 → Str

/-! ## `unmatched_entities_dtj` -/

/-- the variables of its loop; `closed` is a set -/
structure Opened where
  opened : List (Str × Dict)
  closed : List Str
  last_seen : List (Str × Dict)

section
variable (python : Python) (lower : Str → Str) (pair : EventPair)

/-- an entity of an event: the empty text is none -/
def entityOf (event : Dict) : Except Exc (Option Str) := do
  let eid ← _entity_id_from_event python event
  return eid.filter fun s => !s.isEmpty

/-- a loop over the events that have an entity -/
def overEntities {σ : Type} (see : σ → Str → Dict → σ) (s : σ) : List Dict → Except Exc σ
  | [] => .ok s
  | event :: rest => do
    match ← entityOf python event with
    | none => overEntities see s rest
    | some eid => overEntities see (see s eid event) rest

def Opened.see (s : Opened) (eid : Str) (event : Dict) : Opened :=
  let ev := eventName python event
  let opens := _event_matches ev pair.opens
  { opened := if opens then assign eid event s.opened else s.opened
    closed := if !opens && _event_matches ev pair.closes then eid :: s.closed else s.closed
    last_seen := assign eid event s.last_seen }

/-- the loop -/
def opened (events : List Dict) : Except Exc Opened :=
  overEntities python (Opened.see python pair) ⟨[], [], []⟩ events

/-- `[eid for eid in opened if eid not in closed]` -/
def Opened.unmatched (s : Opened) : List Str := (s.opened.map Prod.fst).filter (· ∉ s.closed)

def openedIn (events : List Dict) (since_last_clear : Bool) : Except Exc Opened := do
  let inScope ← _scope_events python lower events { since_last_clear := since_last_clear }
  opened python pair inScope

/-- one entry of the result -/
def Opened.entity (s : Opened) (eid : Str) : Dict × Str :=
  let create := (s.opened.lookup eid).getD []
  let last := (s.last_seen.lookup eid).getD create
  let line := lit "  id=" ++ eid ++ lit "  created@seq=" ++ text python (get create "event_sequence") ++
    lit "  last@seq=" ++ text python (get last "event_sequence") ++ lit "  tag=" ++ _tag python last
  ([("id", .str eid), ("created_event_sequence", get create "event_sequence"),
    ("last_event_sequence", get last "event_sequence"), ("last_tag", .str (_tag python last)),
    ("text", .str line)], line)

/-- the lines of the text -/
def Opened.lines (s : Opened) (kind : Str) (limit : Nat) : List Str :=
  let unmatched := s.unmatched
  if unmatched.isEmpty then
    [kind ++ lit ": all " ++ Str.ofInt s.opened.length ++ lit " opened entities were closed"]
  else
    [kind ++ lit ": " ++ Str.ofInt unmatched.length ++ lit " unmatched of " ++
      Str.ofInt s.opened.length ++ lit " opened"] ++
    (unmatched.take limit).map (fun eid => (s.entity python eid).2) ++
    if unmatched.length > limit then
      [lit "  ... " ++ Str.ofInt (unmatched.length - limit : Nat) ++ lit " more"]
    else []

end

/-! ## `pair_latency_dtj` -/

/-- the variables of its loop -/
structure Paired where
  opens_by_id : List (Str × Dict)
  latencies_ms : List UInt64

section
variable (python : Python) (floats : Floats) (lower : Str → Str) (pair : EventPair)

/-- the entity is closed, if it is open -/
def Paired.close (s : Paired) (eid : Str) (event : Dict) : Paired :=
  match s.opens_by_id.lookup eid with
  | none => s
  | some opening =>
    { opens_by_id := s.opens_by_id.filter (·.1 ≠ eid)
      latencies_ms := match _mono opening, _mono event with
        | some a, some b => s.latencies_ms ++ [floats.latency_ms a b]
        | _, _ => s.latencies_ms }

def Paired.see (s : Paired) (eid : Str) (event : Dict) : Paired :=
  let ev := eventName python event
  if _event_matches ev pair.opens then { s with opens_by_id := assign eid event s.opens_by_id }
  else if _event_matches ev pair.closes then s.close floats eid event
  else s

/-- the loop -/
def paired (events : List Dict) : Except Exc Paired :=
  overEntities python (Paired.see python floats pair) ⟨[], []⟩ events

def pairedIn (events : List Dict) (since_last_clear : Bool) : Except Exc Paired := do
  let inScope ← _scope_events python lower events { since_last_clear := since_last_clear }
  paired python floats pair inScope

/-- the statistics, and their line -/
def Paired.stats (s : Paired) : Dict × Str :=
  let base : Dict :=
    [("closed", .int s.latencies_ms.length), ("still_open", .int s.opens_by_id.length)]
  let sorted := s.latencies_ms.mergeSort floats.le
  let n := sorted.length
  if n = 0 then (base, "  closed=0")
  else
    let p50 := sorted.getD (n / 2) 0
    let p95 := sorted.getD (min (floats.scaled n) (n - 1)) 0
    let max := sorted.getD (n - 1) 0
    (base ++ ([("p50", .float p50), ("p95", .float p95), ("max", .float max)] : Dict),
      lit "  closed=" ++ Str.ofInt n ++ lit "  p50=" ++ floats.fixed p50 ++ lit "  p95=" ++
        floats.fixed p95 ++ lit "  max=" ++ floats.fixed max)

/-- an open entity of the result, and its line -/
def openSample (entry : Str × Dict) : Py × Str :=
  (.dict [("id", .str entry.1), ("event_sequence", get entry.2 "event_sequence"),
    ("monotonic_ns", get entry.2 "monotonic_ns")],
  lit "    id=" ++ entry.1 ++ lit "  opened@seq=" ++ text python (get entry.2 "event_sequence") ++
    lit "  mono_ns=" ++ text python (get entry.2 "monotonic_ns"))

end

/-! ## the tools -/

section
variable {ν : Type} (host : Host ν) (fs : Fs ν) (floats : Floats) (lower : Str → Str)

def unknownKind (session : Path ν) (kind : Str) : Dict :=
  _fail host session [("kind", .str "InvalidQuery"),
    ("message", .str (lit "Unknown kind " ++ host.python.repr (.str kind) ++ lit ". Choose from: " ++
      List.intercalate (lit ", ") (EVENT_PAIRS.map EventPair.name)))]

def unmatched_entities_dtj (session : Path ν) (kind : Str) (limit : Py) (since_last_clear : Bool) :
    Except Exc Dict :=
  match _validate_limit limit with
  | some e => .ok (_fail host session e)
  | none =>
  match EVENT_PAIRS.find? fun p => p.name = kind with
  | none => .ok (unknownKind host session kind)
  | some pair => do
    let decoded ← read_session_dtj host fs session
    if !(get decoded "ok").truthy then
      return decoded
    let events ← _events decoded
    let s ← openedIn host.python lower pair events since_last_clear
    let limited := (limit.checked.getD 0).toNat
    return _ok host session decoded [("kind", .str kind), ("limit", limit),
      ("unmatched_count", .int s.unmatched.length), ("opened_count", .int s.opened.length),
      ("entities", .list ((s.unmatched.take limited).map fun eid => .dict (s.entity host.python eid).1)),
      ("text", .str (List.intercalate (lit "\n") (s.lines host.python kind limited)))]

def pair_latency_dtj (session : Path ν) (kind : Str) (since_last_clear : Bool) : Except Exc Dict :=
  match EVENT_PAIRS.find? fun p => p.name = kind with
  | none => .ok (unknownKind host session kind)
  | some pair => do
    let decoded ← read_session_dtj host fs session
    if !(get decoded "ok").truthy then
      return decoded
    let events ← _events decoded
    let s ← pairedIn host.python floats lower pair events since_last_clear
    let samples := (s.opens_by_id.take 5).map (openSample host.python)
    let rows := [kind ++ lit " open→close latency (ms):", (s.stats floats).2,
        lit "  still_open=" ++ Str.ofInt s.opens_by_id.length] ++
      if samples.isEmpty then [] else lit "  open samples:" :: samples.map Prod.snd
    return _ok host session decoded [("kind", .str kind), ("stats", .dict (s.stats floats).1),
      ("open_samples", .list (samples.map Prod.fst)), ("text", .str (List.intercalate (lit "\n") rows))]

end

/-! ## what the events open and close -/

section
variable (python : Python) (pair : EventPair)

/-- what an event does to its entity -/
def markOf (eid : Str) (event : Dict) : List (Mark Str) :=
  let ev := eventName python event
  if _event_matches ev pair.opens then [.opens eid]
  else if _event_matches ev pair.closes then [.closes eid]
  else []

def marksOf : List Dict → Except Exc (List (Mark Str))
  | [] => .ok []
  | event :: rest => do
    let eid ← entityOf python event
    let others ← marksOf rest
    return match eid with
      | none => others
      | some eid => markOf python pair eid event ++ others

end

section
variable {python : Python} {floats : Floats} {lower : Str → Str} {pair : EventPair}

theorem mem_assign {α : Type} {key k : Str} {value : α} {d : List (Str × α)} :
    k ∈ (assign key value d).map Prod.fst ↔ k = key ∨ k ∈ d.map Prod.fst := by
  induction d with
  | nil => simp [assign]
  | cons entry rest ih =>
    show k ∈ (if entry.1 = key then _ else _ : List (Str × α)).map Prod.fst ↔ _
    split_ifs with hkey
    · simp [hkey]
    · rw [List.map_cons, List.mem_cons, ih, List.map_cons, List.mem_cons]
      exact or_left_comm

/-- the sets are those of the marks -/
structure Opened.Tracks (s : Opened) (ms : List (Mark Str)) : Prop where
  mem_opened : ∀ k, k ∈ s.opened.map Prod.fst ↔ .opens k ∈ ms
  mem_closed : ∀ k, k ∈ s.closed ↔ .closes k ∈ ms

theorem Opened.Tracks.see {s : Opened} {ms : List (Mark Str)} (h : s.Tracks ms) (eid : Str)
    (event : Dict) :
    (s.see python pair eid event).Tracks (ms ++ markOf python pair eid event) := by
  unfold markOf Opened.see
  by_cases hopen : _event_matches (eventName python event) pair.opens = true
  · rw [if_pos hopen]
    refine ⟨?_, ?_⟩
    · intro k
      simp only [hopen, if_true, mem_assign, h.mem_opened]
      simp [eq_comm, or_comm]
    · intro k
      simpa [hopen] using h.mem_closed k
  · by_cases hclose : _event_matches (eventName python event) pair.closes = true
    · rw [if_neg hopen, if_pos hclose]
      refine ⟨?_, ?_⟩
      · intro k
        simpa [hopen] using h.mem_opened k
      · intro k
        simp [hopen, hclose, h.mem_closed k, or_comm]
    · rw [if_neg hopen, if_neg hclose, List.append_nil]
      refine ⟨?_, ?_⟩
      · intro k
        simpa [hopen] using h.mem_opened k
      · intro k
        simpa [hclose] using h.mem_closed k

/-- the keys are those left open -/
def Paired.Tracks (s : Paired) (ms : List (Mark Str)) : Prop :=
  ∀ k, k ∈ s.opens_by_id.map Prod.fst ↔ LeftOpen ms k

theorem Paired.close_keys (s : Paired) (eid k : Str) (event : Dict) :
    k ∈ (s.close floats eid event).opens_by_id.map Prod.fst
      ↔ k ≠ eid ∧ k ∈ s.opens_by_id.map Prod.fst := by
  rw [Paired.close]
  cases hopening : s.opens_by_id.lookup eid with
  | none =>
    have hnot : eid ∉ s.opens_by_id.map Prod.fst := by
      intro hmem
      obtain ⟨entry, hentry, rfl⟩ := List.mem_map.mp hmem
      have := List.lookup_eq_none_iff.mp hopening entry hentry
      simp at this
    constructor
    · intro hk
      exact ⟨fun h => hnot (h ▸ hk), hk⟩
    · exact And.right
  | some opening =>
    simp only [List.mem_map, List.mem_filter, decide_eq_true_eq]
    constructor
    · rintro ⟨entry, ⟨hentry, hne⟩, rfl⟩
      exact ⟨hne, entry, hentry, rfl⟩
    · rintro ⟨hne, entry, hentry, rfl⟩
      exact ⟨entry, ⟨hentry, hne⟩, rfl⟩

theorem Paired.Tracks.see {s : Paired} {ms : List (Mark Str)} (h : s.Tracks ms) (eid : Str)
    (event : Dict) :
    (s.see python floats pair eid event).Tracks (ms ++ markOf python pair eid event) := by
  unfold markOf Paired.see
  intro k
  by_cases hopen : _event_matches (eventName python event) pair.opens = true
  · rw [if_pos hopen, if_pos hopen, leftOpen_snoc, ← h k]
    simp [mem_assign, eq_comm]
  · by_cases hclose : _event_matches (eventName python event) pair.closes = true
    · rw [if_neg hopen, if_pos hclose, if_neg hopen, if_pos hclose, leftOpen_snoc, ← h k,
        Paired.close_keys]
      simp [eq_comm]
    · rw [if_neg hopen, if_neg hclose, if_neg hopen, if_neg hclose, List.append_nil]
      exact h k

/-- **a run of either loop**: what every event keeps in step with the marks -/
theorem overEntities_tracks {σ : Type} {see : σ → Str → Dict → σ} {T : σ → List (Mark Str) → Prop}
    (hstep : ∀ s ms eid event, T s ms → T (see s eid event) (ms ++ markOf python pair eid event))
    {events : List Dict} {s : σ} {ms : List (Mark Str)} (h : T s ms) :
    (∃ s' ms', overEntities python see s events = .ok s' ∧ marksOf python pair events = .ok ms'
      ∧ T s' (ms ++ ms'))
    ∨ ∃ exc, overEntities python see s events = .error exc
      ∧ marksOf python pair events = .error exc := by
  induction events generalizing s ms with
  | nil => exact .inl ⟨s, [], rfl, rfl, by simpa using h⟩
  | cons event rest ih =>
    rw [overEntities, marksOf]
    cases heid : entityOf python event with
    | error exc => exact .inr ⟨exc, rfl, rfl⟩
    | ok eid =>
      cases eid with
      | none =>
        rcases ih h with ⟨s', ms', hs, hms, ht⟩ | ⟨exc, hs, hms⟩
        · exact .inl ⟨s', ms', hs, by rw [hms]; rfl, ht⟩
        · exact .inr ⟨exc, hs, by rw [hms]; rfl⟩
      | some eid =>
        rcases ih (hstep s ms eid event h) with ⟨s', ms', hs, hms, ht⟩ | ⟨exc, hs, hms⟩
        · exact .inl ⟨s', _, hs, by rw [hms]; rfl, by simpa using ht⟩
        · exact .inr ⟨exc, hs, by rw [hms]; rfl⟩

theorem opened_tracks (python : Python) (pair : EventPair) (events : List Dict) :
    (∃ s ms, opened python pair events = .ok s ∧ marksOf python pair events = .ok ms ∧ s.Tracks ms)
    ∨ ∃ exc, opened python pair events = .error exc ∧ marksOf python pair events = .error exc := by
  have hempty : Opened.Tracks ⟨[], [], []⟩ [] := ⟨by simp, by simp⟩
  exact overEntities_tracks (fun s ms eid event h => h.see eid event) hempty

theorem paired_tracks (python : Python) (floats : Floats) (pair : EventPair) (events : List Dict) :
    (∃ s ms, paired python floats pair events = .ok s ∧ marksOf python pair events = .ok ms
      ∧ s.Tracks ms)
    ∨ ∃ exc, paired python floats pair events = .error exc
      ∧ marksOf python pair events = .error exc := by
  have hempty : Paired.Tracks ⟨[], []⟩ [] := by
    intro k
    simp [not_leftOpen_nil]
  exact overEntities_tracks (fun s ms eid event h => h.see eid event) hempty

theorem Opened.Tracks.unmatched {s : Opened} {ms : List (Mark Str)} (h : s.Tracks ms) (k : Str) :
    k ∈ s.unmatched ↔ Unmatched ms k := by
  rw [Opened.unmatched, List.mem_filter, h.mem_opened, decide_eq_true_eq, h.mem_closed]
  rfl

/-- **In one scope the tools find the same entities exactly when none that is closed is left open.**
Where an entity cannot be told, both raise. -/
theorem detectors_agree_iff (python : Python) (floats : Floats) (lower : Str → Str) (pair : EventPair)
    (events : List Dict) (since_last_clear : Bool) :
    (∃ exc, openedIn python lower pair events since_last_clear = .error exc
      ∧ pairedIn python floats lower pair events since_last_clear = .error exc)
    ∨ ∃ inScope ms s t,
      _scope_events python lower events { since_last_clear := since_last_clear } = .ok inScope
      ∧ marksOf python pair inScope = .ok ms
      ∧ openedIn python lower pair events since_last_clear = .ok s
      ∧ pairedIn python floats lower pair events since_last_clear = .ok t
      ∧ ((∀ eid, eid ∈ s.unmatched ↔ eid ∈ t.opens_by_id.map Prod.fst)
        ↔ ∀ eid, .closes eid ∈ ms → ¬ LeftOpen ms eid) := by
  unfold openedIn pairedIn
  cases hscope : _scope_events python lower events { since_last_clear := since_last_clear } with
  | error exc => exact .inl ⟨exc, rfl, rfl⟩
  | ok inScope =>
    rcases opened_tracks python pair inScope with ⟨s, ms, hs, hms, hst⟩ | ⟨exc, hs, hms⟩
    · rcases paired_tracks python floats pair inScope with ⟨t, ms', ht, hms', htt⟩ | ⟨exc, ht, hms'⟩
      · rw [hms] at hms'
        cases hms'
        refine .inr ⟨inScope, ms, s, t, rfl, hms, hs, ht, ?_⟩
        rw [← agree_iff ms]
        exact forall_congr' fun eid => by rw [hst.unmatched, htt eid]
      · rw [hms] at hms'
        cases hms'
    · rcases paired_tracks python floats pair inScope with ⟨t, ms', ht, hms', htt⟩ | ⟨exc', ht, hms'⟩
      · rw [hms] at hms'
        cases hms'
      · rw [hms] at hms'
        cases hms'
        exact .inl ⟨exc, hs, ht⟩

end

/-! ## an example -/

def exampleFloats : Floats where
  latency_ms _ _ := 0
  le _ _ := true
  scaled n := n * 95 / 100
  fixed _ := []

/-- the first pair of the table -/
def dangling : EventPair := EVENT_PAIRS.head (List.cons_ne_nil _ _)

/-- an entity that is created, destroyed and created again -/
def recreated : List Dict :=
  [entityAt 1 "Created" "a", entityAt 2 "Destroyed" "a", entityAt 3 "Created" "a"]

/-- it is left open, and counted as closed -/
theorem recreated_missed :
    ∃ s t, openedIn examplePython id dangling recreated false = .ok s
      ∧ pairedIn examplePython exampleFloats id dangling recreated false = .ok t
      ∧ lit "a" ∈ t.opens_by_id.map Prod.fst ∧ lit "a" ∉ s.unmatched := by
  refine ⟨_, _, rfl, rfl, ?_, ?_⟩
  · decide +kernel
  · decide +kernel

end Dtj.Mcp
