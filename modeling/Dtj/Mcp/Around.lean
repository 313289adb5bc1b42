import Dtj.Lib.Around
import Dtj.Lib.Tally
import Dtj.Mcp.Chain
import Dtj.Mcp.Pairs
import Dtj.Mcp.Report

/-!
# The surroundings of events

Three tools show what is around an event: `context_around_event_dtj` and `correlation_neighbourhood_dtj` of
`dtj_query.py`, and `entity_cluster_dtj` of `dtj_analytics.py`, which also counts the entities that it meets there.

* `_payload_kv`, `_entity_field_match`   the events of an entity;
* `context_around_event_dtj`, `correlation_neighbourhood_dtj`, `entity_cluster_dtj`   the tools;
* `neighbourhood_contexts`               **the neighbourhood of a correlation is all of its contexts**;
* `Cluster.Of`                           what the loop of the cluster has met;
* `cluster_around`                       **the cluster is what is around the entity, and its counts are right**.
-/

namespace Dtj.Mcp

open Posix Cut Around

def MAX_CONTEXT_WINDOW : Int := 200
def MAX_NEIGHBOURHOOD : Int := 100
def MAX_WINDOW : Int := 500

/-- a window of at most `max` events, under the name of its argument -/
def validateSpan (max : Int) (name : String) (value : Py) : Option Dict :=
  match value with
  | .int n => if n < 0 ∨ n > max then some invalid else none
  | _ => some invalid
where
  invalid : Dict := [("kind", .str "InvalidLimit"),
    ("message", .str (lit name ++ lit " must be an integer in 0.." ++ Str.ofInt max)), ("max", .int max)]

def _validate_window (window : Py) : Option Dict := validateSpan MAX_WINDOW "window" window

section
variable (python : Python)

/-- what one item adds to `_payload_kv` -/
def kvItem (item : Dict) : Except Exc (List (Str × Str)) :=
  match get item "name" with
  | .str name => do
    let type := get item "type"
    let val := get item "value"
    if type.isText "interned_string" && val.isStr then
      return [(name, text python val)]
    if ← within type SCALAR_TYPES then
      return [(name, text python val)]
    return []
  | _ => .ok []

def _payload_kv (event : Dict) : Except Exc (List (Str × Str)) := do
  let items ← overPayload (kvItem python) event
  return items.foldl (fun d e => assign e.1 e.2 d) []

def _entity_field_match (event : Dict) (entity_id : Str) : Except Exc Bool := do
  if (get event "correlation").isText entity_id then
    return true
  let kv ← _payload_kv python event
  return [lit "id", lit "wire", lit "networkId", lit "sourceId"].any fun key => kv.lookup key = some entity_id

/-- the places of the events of an entity, counted from `i` -/
def anchorsFrom (entity_id : Str) (i : Nat) : List Dict → Except Exc (List Nat)
  | [] => .ok []
  | e :: rest => do
    let hit ← _entity_field_match python e entity_id
    let others ← anchorsFrom entity_id (i + 1) rest
    return if hit then i :: others else others

/-! ## the tools -/

/-- the variables of the loop of `entity_cluster_dtj`; `seen_seq` is a set -/
structure Cluster where
  related : List (Str × Int)
  cluster_events : List Dict
  seen_seq : List Int

/-- one event of a window; `iterate` goes over a set -/
def Cluster.see (iterate : List Str → List Str) (entity_id : Str) (c : Cluster) (ev : Dict) : Except Exc Cluster :=
  match (get ev "event_sequence").asInt with
  | none => .ok c
  | some seq =>
    if seq ∈ c.seen_seq then .ok c
    else do
      let refs ← _entity_refs python ev
      return {
        related := Tally.addAll c.related ((iterate refs).filter (· ≠ entity_id))
        cluster_events := c.cluster_events ++ [ev]
        seen_seq := seq :: c.seen_seq }

/-- the loop over the anchors -/
def clusterAround (iterate : List Str → List Str) (entity_id : Str) (window : Nat) (events : List Dict)
    (anchors : List Nat) : Except Exc Cluster :=
  anchors.foldlM (fun c idx =>
    let lo := idx - window
    let hi := min events.length (idx + window + 1)
    ((events.take hi).drop lo).foldlM (Cluster.see python iterate entity_id) c) ⟨[], [], []⟩

end

section
variable {ν : Type} (host : Host ν) (fs : Fs ν) (iterate : List Str → List Str)

/-- after the arguments are checked and the events are there -/
def contextResult (session : Path ν) (decoded : Dict) (events : List Dict) (event_sequence : Int)
    (before after : Nat) : Dict :=
  match events.findIdx? fun e => host.python.isInt (get e "event_sequence") event_sequence with
  | none => _fail host session [("kind", .str "MissingEvent"),
      ("message", .str (lit "event_sequence " ++ Str.ofInt event_sequence ++ lit " not found")),
      ("event_sequence", .int event_sequence)]
  | some idx =>
    let lo := idx - before
    let hi := min events.length (idx + after + 1)
    let window := (events.take hi).drop lo
    _base host session decoded ++ ([("event_sequence", .int event_sequence), ("before", .int before),
      ("after", .int after), ("returned_count", .int window.length),
      ("events", .list (window.map .dict))] : Dict)

def context_around_event_dtj (session : Path ν) (event_sequence before after : Py) : Except Exc Dict :=
  match validateSpan MAX_CONTEXT_WINDOW "before" before with
  | some e => .ok (_fail host session e)
  | none =>
  match validateSpan MAX_CONTEXT_WINDOW "after" after with
  | some e => .ok (_fail host session e)
  | none =>
  match event_sequence with
  | .int seq => do
    let decoded ← read_session_dtj host fs session
    if !(get decoded "ok").truthy then
      return decoded
    let events ← _events decoded
    return contextResult host session decoded events seq (before.checked.getD 0).toNat (after.checked.getD 0).toNat
  | _ => .ok (_fail host session [("kind", .str "InvalidRange"),
      ("message", .str "event_sequence must be an integer")])

def neighbourhoodResult (session : Path ν) (decoded : Dict) (events : List Dict) (correlation_id : Str)
    (before after limit : Nat) : Dict :=
  let hit_indexes := marks (fun e => (get e "correlation").isText correlation_id) 0 events
  if hit_indexes.isEmpty then
    _base host session decoded ++ ([("correlation_id", .str correlation_id), ("matched_count", .int 0),
      ("returned_count", .int 0), ("limit", .int limit), ("events", .list [])] : Dict)
  else
    let selected := (hit_indexes.flatMap (span before after events.length)).dedup
    let ordered := pick events (selected.mergeSort fun i j => decide (i ≤ j))
    if ordered.length > limit then
      _fail host session [("kind", .str "ResultTooLarge"),
        ("message", .str (lit "neighbourhood result " ++ Str.ofInt ordered.length ++ lit " exceeds limit " ++
          Str.ofInt limit ++ lit "; tighten before/after or raise limit")),
        ("matched_count", .int ordered.length), ("limit", .int limit), ("max", .int MAX_SEARCH_LIMIT)]
    else
      _base host session decoded ++ ([("correlation_id", .str correlation_id), ("before", .int before),
        ("after", .int after), ("matched_count", .int ordered.length), ("returned_count", .int ordered.length),
        ("limit", .int limit), ("events", .list (ordered.map .dict))] : Dict)

def correlation_neighbourhood_dtj (session : Path ν) (correlation_id before after limit : Py) : Except Exc Dict :=
  match validate_search_limit limit with
  | some e => .ok (_fail host session e)
  | none =>
  if !(correlation_id.isStr && correlation_id.truthy) then
    .ok (_fail host session [("kind", .str "InvalidQuery"),
      ("message", .str "correlation_id must be a non-empty string")])
  else
    match validateSpan MAX_NEIGHBOURHOOD "before" before with
    | some e => .ok (_fail host session e)
    | none =>
    match validateSpan MAX_NEIGHBOURHOOD "after" after with
    | some e => .ok (_fail host session e)
    | none => do
      let decoded ← read_session_dtj host fs session
      if !(get decoded "ok").truthy then
        return decoded
      let events ← _events decoded
      return neighbourhoodResult host session decoded events (text host.python correlation_id)
        (before.checked.getD 0).toNat (after.checked.getD 0).toNat (limit.checked.getD 0).toNat

/-- the result of `entity_cluster_dtj`, after the loop -/
def clusterResult (session : Path ν) (decoded : Dict) (entity_id : Str) (window limit anchor_hits : Nat)
    (c : Cluster) : Except Exc Dict := do
  let related_rows := Tally.top 15 c.related
  let shown := c.cluster_events.take limit
  let compact ← shown.mapM (_compact host.python)
  let rows := [lit "primary=" ++ entity_id ++ lit "  anchor_hits=" ++ Str.ofInt anchor_hits ++ lit "  window=±" ++
      Str.ofInt window, lit "related ids:"] ++
    (if related_rows.isEmpty then [lit "  (none)"]
      else related_rows.map fun r => lit "  " ++ r.1 ++ lit " (×" ++ Str.ofInt r.2 ++ lit ")") ++
    [lit "events (up to " ++ Str.ofInt limit ++ lit "):"] ++
    (if shown.isEmpty then [lit "  (none)"] else compact) ++
    (if c.cluster_events.length > limit then
      [lit "  ... " ++ Str.ofInt (c.cluster_events.length - limit : Nat) ++ lit " more"] else [])
  return _ok host session decoded [("entity_id", .str entity_id), ("window", .int window), ("limit", .int limit),
    ("anchor_hits", .int anchor_hits),
    ("related", .list (related_rows.map fun r => .dict [("id", .str r.1), ("count", .int r.2)])),
    ("events", .list (shown.map .dict)), ("text", .str (List.intercalate (lit "\n") rows))]

def entity_cluster_dtj (session : Path ν) (entity_id window limit : Py) : Except Exc Dict :=
  if !(entity_id.isStr && entity_id.truthy) then
    .ok (_fail host session [("kind", .str "InvalidQuery"),
      ("message", .str "entity_id must be a non-empty string")])
  else
    match _validate_window window with
    | some e => .ok (_fail host session e)
    | none =>
    match _validate_limit limit with
    | some e => .ok (_fail host session e)
    | none => do
      let decoded ← read_session_dtj host fs session
      if !(get decoded "ok").truthy then
        return decoded
      let events ← _events decoded
      let entity := text host.python entity_id
      let anchors ← anchorsFrom host.python entity 0 events
      if anchors.isEmpty then
        return _ok host session decoded [("entity_id", entity_id),
          ("text", .str (lit "No lines for entity " ++ host.python.repr entity_id ++ lit ".")),
          ("related", .list []), ("events", .list [])]
      let w := (window.checked.getD 0).toNat
      let c ← clusterAround host.python iterate entity w events anchors
      clusterResult host session decoded entity w (limit.checked.getD 0).toNat anchors.length c

end

/-! ## contexts -/

/-- a tool returns these events -/
def Returns (result : Except Exc Dict) (es : List Dict) : Prop :=
  ∃ d, result = .ok d ∧ get d "events" = .list (es.map .dict)

theorem Returns.unique {result : Except Exc Dict} {es es' : List Dict} (h : Returns result es) (h' : Returns result es') :
    es = es' := by
  obtain ⟨d, rfl, hevs⟩ := h
  obtain ⟨d', heq, hevs'⟩ := h'
  cases heq
  rw [hevs, Py.list.injEq] at hevs'
  exact List.map_injective_iff.mpr (fun x y hxy => Py.dict.inj hxy) hevs'

section
variable {ν : Type} {host : Host ν} {fs : Fs ν} {session : Path ν} {decoded : Dict} {events : List Dict}

theorem span_ok {max : Int} {name : String} {n : Nat} (h : (n : Int) ≤ max) :
    validateSpan max name (.int n) = none := by
  rw [validateSpan, if_neg]
  omega

/-- the event of a sequence is at its place -/
theorem Numbered.findIdx (hseq : Numbered events) {i : Nat} {m : Dict} (hm : events[i]? = some m) (python : Python) :
    events.findIdx? (fun e => python.isInt (get e "event_sequence") (seqOf m)) = some i := by
  obtain ⟨hi, hget⟩ := List.getElem?_eq_some_iff.mp hm
  have hplace : ∀ (j : Nat) (hj : j < events.length),
      python.isInt (get events[j] "event_sequence") (seqOf m) = decide (j = i) := by
    intro j hj
    have hseqm : seqOf m = 1 + i := by
      rw [seqOf, hseq.asInt hm]
      rfl
    rw [hseq j _ (List.getElem?_eq_getElem hj), hseqm, Python.isInt, beq_eq_decide, decide_eq_decide]
    omega
  rw [List.findIdx?_eq_some_iff_getElem]
  refine ⟨hi, ?_, fun j hlt => ?_⟩
  · rw [hplace i hi]
    exact decide_eq_true rfl
  · rw [hplace j (hlt.trans hi), decide_eq_true_eq]
    omega

variable (hread : read_session_dtj host fs session = .ok decoded) (hok : (get decoded "ok").truthy = true)
  (hevents : _events decoded = .ok events) (hseq : Numbered events)

include hread hok hevents hseq in
/-- what is shown around an event -/
theorem context_shown {i b a : Nat} {m : Dict} (hm : events[i]? = some m) (hb : b ≤ 200) (ha : a ≤ 200) :
    Returns (context_around_event_dtj host fs session (.int (seqOf m)) (.int b) (.int a))
      (pick events (span b a events.length i)) := by
  have hrun : context_around_event_dtj host fs session (.int (seqOf m)) (.int b) (.int a)
      = .ok (contextResult host session decoded events (seqOf m) b a) := by
    unfold context_around_event_dtj
    rw [span_ok (by unfold MAX_CONTEXT_WINDOW; omega), span_ok (by unfold MAX_CONTEXT_WINDOW; omega)]
    dsimp only
    rw [hread]
    dsimp only [bind, Except.bind]
    rw [hok, hevents]
    rfl
  refine ⟨_, hrun, ?_⟩
  unfold contextResult
  rw [hseq.findIdx hm]
  dsimp only
  rw [span_eq_pick]
  rfl

include hread hok hevents in
/-- the neighbourhood is what is around the events of the correlation -/
theorem neighbourhood_shown {c : Str} (hc : c ≠ []) {b a l : Nat} (hb : b ≤ 100) (ha : a ≤ 100) (hl : 1 ≤ l ∧ l ≤ 500) :
    if (around (fun e => (get e "correlation").isText c) b a events).length ≤ l then
      Returns (correlation_neighbourhood_dtj host fs session (.str c) (.int b) (.int a) (.int l))
        (around (fun e => (get e "correlation").isText c) b a events)
    else
      ∃ d, correlation_neighbourhood_dtj host fs session (.str c) (.int b) (.int a) (.int l) = .ok d ∧
        kind d = .str "ResultTooLarge" := by
  have hlimit : validate_search_limit (.int l) = none := by
    rw [validate_search_limit, if_neg]
    unfold MAX_SEARCH_LIMIT
    omega
  have hrun : correlation_neighbourhood_dtj host fs session (.str c) (.int b) (.int a) (.int l)
      = .ok (neighbourhoodResult host session decoded events c b a l) := by
    have htext : ((Py.str c).isStr && (Py.str c).truthy) = true := by
      simp [Py.isStr, Py.truthy, hc]
    unfold correlation_neighbourhood_dtj
    rw [hlimit, htext, span_ok (by unfold MAX_NEIGHBOURHOOD; omega), span_ok (by unfold MAX_NEIGHBOURHOOD; omega)]
    dsimp only
    rw [hread]
    dsimp only [bind, Except.bind]
    rw [hok, hevents]
    rfl
  rw [Returns, hrun]
  unfold neighbourhoodResult
  dsimp only
  rw [sorted_spans, pick_near]
  by_cases hnone : marks (fun e => (get e "correlation").isText c) 0 events = []
  · rw [if_pos (List.isEmpty_iff.mpr hnone), around_none hnone, List.length_nil, if_pos (Nat.zero_le l)]
    exact ⟨_, rfl, rfl⟩
  · have hhits : ¬ (marks (fun e => (get e "correlation").isText c) 0 events).isEmpty = true := by
      rwa [List.isEmpty_iff]
    rw [if_neg hhits]
    split_ifs with hfits hlong hlong
    · exact absurd hfits (by omega)
    · exact ⟨_, rfl, rfl⟩
    · exact ⟨_, rfl, rfl⟩
    · exact absurd hfits (by omega)

/-- **The neighbourhood of a correlation is all of its contexts**: it has the events that are shown around any event of
the correlation, each of them once and in the order of the session, and is refused when there are too many -/
theorem neighbourhood_contexts (hread : read_session_dtj host fs session = .ok decoded)
    (hok : (get decoded "ok").truthy = true) (hevents : _events decoded = .ok events) (hseq : Numbered events)
    {c : Str} (hc : c ≠ []) {b a l : Nat} (hb : b ≤ 100) (ha : a ≤ 100) (hl : 1 ≤ l ∧ l ≤ 500) :
    ∃ es : List Dict, es.Sublist events ∧
      (∀ e, e ∈ es ↔ ∃ m ∈ events, (get m "correlation").isText c = true ∧ ∃ shown,
        Returns (context_around_event_dtj host fs session (.int (seqOf m)) (.int b) (.int a)) shown ∧ e ∈ shown) ∧
      if es.length ≤ l then
        Returns (correlation_neighbourhood_dtj host fs session (.str c) (.int b) (.int a) (.int l)) es
      else
        ∃ d, correlation_neighbourhood_dtj host fs session (.str c) (.int b) (.int a) (.int l) = .ok d ∧
          kind d = .str "ResultTooLarge" := by
  refine ⟨_, around_sublist _ b a events, fun e => ?_, neighbourhood_shown hread hok hevents hc hb ha hl⟩
  rw [mem_around]
  constructor
  · rintro ⟨i, j, m, hm, hcorr, hj, hnear⟩
    have hctx := context_shown hread hok hevents hseq hm (by omega : b ≤ 200) (by omega : a ≤ 200)
    exact ⟨m, List.mem_of_getElem? hm, hcorr, _, hctx, mem_pick_span.mpr ⟨j, hj, hnear⟩⟩
  · rintro ⟨m, hmem, hcorr, shown, hshown, he⟩
    obtain ⟨i, hm⟩ := List.mem_iff_getElem?.mp hmem
    have hctx := context_shown hread hok hevents hseq hm (by omega : b ≤ 200) (by omega : a ≤ 200)
    rw [hshown.unique hctx] at he
    obtain ⟨j, hj, hnear⟩ := mem_pick_span.mp he
    exact ⟨i, j, m, hm, hcorr, hj, hnear⟩

end

def aroundEvents : List Dict :=
  [entityAt 1 "Created" "a", entityAt 2 "Created" "b", ("correlation", .str "c") :: entityAt 3 "Moved" "a",
    entityAt 4 "Moved" "b", ("correlation", .str "c") :: entityAt 5 "Removed" "b"]

theorem aroundEvents_numbered : Numbered aroundEvents := by
  intro i e he
  match i with
  | 0 => cases he; rfl
  | 1 => cases he; rfl
  | 2 => cases he; rfl
  | 3 => cases he; rfl
  | 4 => cases he; rfl
  | _ + 5 => cases he

theorem neighbourhood_contexts_example : ∃ es : List Dict, es.Sublist aroundEvents ∧
    (∀ e, e ∈ es ↔ ∃ m ∈ aroundEvents, (get m "correlation").isText "c" = true ∧ ∃ shown,
      Returns (context_around_event_dtj (eventsHost aroundEvents) exampleFs (examplePath "s.dtj") (.int (seqOf m))
        (.int 1) (.int 0)) shown ∧ e ∈ shown) ∧
    if es.length ≤ 4 then
      Returns (correlation_neighbourhood_dtj (eventsHost aroundEvents) exampleFs (examplePath "s.dtj") (.str "c")
        (.int 1) (.int 0) (.int 4)) es
    else
      ∃ d, correlation_neighbourhood_dtj (eventsHost aroundEvents) exampleFs (examplePath "s.dtj") (.str "c")
        (.int 1) (.int 0) (.int 4) = .ok d ∧ kind d = .str "ResultTooLarge" :=
  neighbourhood_contexts rfl rfl rfl aroundEvents_numbered (by decide) (b := 1) (a := 0) (l := 4) (by decide) (by decide) (by decide)

/-! ## the cluster of an entity -/

section
variable {python : Python} {iterate : List Str → List Str} {entity_id : Str} {events : List Dict}

/-- the test, where it can be made -/
def isMatch (python : Python) (entity_id : Str) (event : Dict) : Bool :=
  match _entity_field_match python event entity_id with
  | .ok b => b
  | .error _ => false

theorem anchors_ok {i : Nat} {anchors : List Nat} (h : anchorsFrom python entity_id i events = .ok anchors) :
    anchors = marks (isMatch python entity_id) i events := by
  induction events generalizing i anchors with
  | nil =>
    cases h
    rfl
  | cons e rest ih =>
    obtain ⟨hit, hhit, h⟩ := bind_eq_ok h
    obtain ⟨others, hothers, h⟩ := bind_eq_ok h
    cases h
    have hmatch : isMatch python entity_id e = hit := by rw [isMatch, hhit]
    rw [marks, hmatch, ih hothers]

/-- the entities that an event adds to the count -/
def othersOf (python : Python) (iterate : List Str → List Str) (entity_id : Str) (e : Dict) : List Str :=
  (iterate (refsOf python e)).filter (· ≠ entity_id)

/-- what the loop has met after some events -/
structure Cluster.Of (python : Python) (iterate : List Str → List Str) (entity_id : Str) (visits : List Dict)
    (c : Cluster) : Prop where
  cluster_events : c.cluster_events = firsts seqOf [] visits
  seen_seq : ∀ n, n ∈ c.seen_seq ↔ n ∈ visits.map seqOf
  related : c.related = Tally.tally (c.cluster_events.flatMap (othersOf python iterate entity_id))

theorem Cluster.Of.see {visits : List Dict} {c c' : Cluster} {ev : Dict}
    (h : c.Of python iterate entity_id visits) (hseq : (get ev "event_sequence").asInt = some (seqOf ev))
    (hsee : Cluster.see python iterate entity_id c ev = .ok c') : c'.Of python iterate entity_id (visits ++ [ev]) := by
  have hfirsts : firsts seqOf [] (visits ++ [ev])
      = firsts seqOf [] visits ++ if seqOf ev ∈ visits.map seqOf then [] else [ev] := by
    rw [firsts_append, List.append_nil]
    rfl
  rw [Cluster.see, hseq] at hsee
  dsimp only at hsee
  split_ifs at hsee with hseen
  · -- it has been met before
    cases hsee
    have hmem := (h.seen_seq _).mp hseen
    refine ⟨?_, fun n => ?_, h.related⟩
    · rw [hfirsts, if_pos hmem, List.append_nil]
      exact h.cluster_events
    · rw [h.seen_seq, List.map_append, List.mem_append, List.map_singleton, List.mem_singleton]
      refine ⟨.inl, ?_⟩
      rintro (hn | rfl)
      · exact hn
      · exact hmem
  · obtain ⟨refs, hrefs, hsee⟩ := bind_eq_ok hsee
    cases hsee
    have hnew : seqOf ev ∉ visits.map seqOf := fun hmem => hseen ((h.seen_seq _).mpr hmem)
    refine ⟨?_, fun n => ?_, ?_⟩
    · rw [hfirsts, if_neg hnew, h.cluster_events]
    · rw [List.mem_cons, h.seen_seq, List.map_append, List.mem_append, List.map_singleton, List.mem_singleton]
      exact or_comm
    · show Tally.addAll c.related ((iterate refs).filter (· ≠ entity_id)) = _
      rw [h.related, List.flatMap_append, List.flatMap_singleton, othersOf, refsOf_eq hrefs]
      exact (Tally.addAll_append [] _ _).symm

theorem Cluster.Of.run {visits vs : List Dict} {c c' : Cluster} (h : c.Of python iterate entity_id visits)
    (hseq : ∀ ev ∈ vs, (get ev "event_sequence").asInt = some (seqOf ev))
    (hrun : vs.foldlM (Cluster.see python iterate entity_id) c = .ok c') :
    c'.Of python iterate entity_id (visits ++ vs) := by
  induction vs generalizing visits c with
  | nil =>
    cases hrun
    rw [List.append_nil]
    exact h
  | cons ev vs ih =>
    rw [List.foldlM_cons] at hrun
    obtain ⟨c₁, hsee, hrun⟩ := bind_eq_ok hrun
    obtain ⟨hev, hvs⟩ := List.forall_mem_cons.mp hseq
    have hrest := ih (h.see hev hsee) hvs hrun
    rwa [List.append_assoc] at hrest

/-- **the loop meets what is around the anchors**, each event once and in the order of the session -/
theorem clusterAround_of (hseq : Numbered events) {w : Nat} {p : Dict → Bool} {c : Cluster}
    (hrun : clusterAround python iterate entity_id w events (marks p 0 events) = .ok c) :
    c.cluster_events = around p w w events ∧
      c.related = Tally.tally (c.cluster_events.flatMap (othersOf python iterate entity_id)) := by
  have hnum : ∀ {places : List Nat}, (∀ j ∈ places, j < events.length) → ∀ ev ∈ pick events places,
      (get ev "event_sequence").asInt = some (seqOf ev) := by
    intro places hplaces ev hev
    obtain ⟨j, hj, rfl⟩ := List.mem_map.mp hev
    rw [getElem!_pos events j (hplaces j hj)]
    exact hseq.mem (List.getElem_mem _)
  -- one window after the other
  have hloop : ∀ (anchors : List Nat) (visits : List Dict) (c₀ : Cluster), c₀.Of python iterate entity_id visits →
      anchors.foldlM (fun c idx => ((events.take (min events.length (idx + w + 1))).drop (idx - w)).foldlM
        (Cluster.see python iterate entity_id) c) c₀ = .ok c →
      c.Of python iterate entity_id (visits ++ pick events (anchors.flatMap (span w w events.length))) := by
    intro anchors
    induction anchors with
    | nil =>
      intro visits c₀ h₀ hrun
      cases hrun
      rw [List.flatMap_nil, pick, List.map_nil, List.append_nil]
      exact h₀
    | cons idx anchors ih =>
      intro visits c₀ h₀ hrun
      rw [List.foldlM_cons, span_eq_pick] at hrun
      obtain ⟨c₁, hwindow, hrun⟩ := bind_eq_ok hrun
      have h₁ := h₀.run (hnum fun j hj => (mem_span.mp hj).1) hwindow
      have h₂ := ih _ c₁ h₁ hrun
      rw [List.append_assoc] at h₂
      rwa [List.flatMap_cons, pick, List.map_append]
  have hof := hloop _ [] ⟨[], [], []⟩ ⟨rfl, fun n => Iff.rfl, rfl⟩ hrun
  rw [List.nil_append] at hof
  refine ⟨?_, hof.related⟩
  rw [hof.cluster_events, ← pick_near, ← firsts_spans (marks_sorted p 0 events), pick, firsts_map, pick]
  congr 1
  -- the sequence of an event is the number of its place
  have hkey : ∀ j ∈ (marks p 0 events).flatMap (span w w events.length), seqOf events[j]! = (1 : Int) + j := by
    intro j hj
    have hlen := (mem_spans.mp hj).1
    rw [getElem!_pos events j hlen, seqOf, hseq.asInt (List.getElem?_eq_getElem hlen)]
    rfl
  rw [firsts_congr_key hkey]
  have hnumbers : Function.Injective fun j : Nat => (1 : Int) + j := fun i j hij => by simpa using hij
  exact @firsts_injective Nat Nat Int _ _ id [] _ _ hnumbers

/-- the entities that an event adds are those that it names, each once -/
theorem count_others (hiterate : ∀ refs, (iterate refs).Perm refs.dedup) {s : Str} (hs : s ≠ entity_id)
    (es : List Dict) : (es.flatMap (othersOf python iterate entity_id)).countP (· = s)
      = es.countP fun e => s ∈ refsOf python e := by
  have hcount : ∀ l : List Str, l.countP (· = s) = l.count s := fun l => List.countP_congr fun x _ => by simp
  induction es with
  | nil => rfl
  | cons e es ih =>
    have hone : (othersOf python iterate entity_id e).countP (· = s) = if s ∈ refsOf python e then 1 else 0 := by
      rw [hcount, othersOf, List.count_filter (by simpa using hs), (hiterate _).count_eq]
      by_cases hmem : s ∈ refsOf python e
      · rw [if_pos hmem, List.count_eq_one_of_mem (List.nodup_dedup _) (List.mem_dedup.mpr hmem)]
      · rw [if_neg hmem, List.count_eq_zero_of_not_mem (mt List.mem_dedup.mp hmem)]
    rw [List.flatMap_cons, List.countP_append, ih, hone, List.countP_cons, Nat.add_comm]
    simp only [decide_eq_true_eq]

/-- the rows of the entities that some events name: the counts are right, and no other entity has a higher one -/
structure Related (python : Python) (entity_id : Str) (es : List Dict) (rows : List (Str × Int)) : Prop where
  counted : ∀ r ∈ rows, r.1 ≠ entity_id ∧ r.2 = es.countP (fun e => r.1 ∈ refsOf python e) ∧ 0 < r.2
  nodup : (rows.map Prod.fst).Nodup
  sorted : rows.Pairwise fun r r' => r'.2 ≤ r.2
  few : rows.length ≤ 15
  most : ∀ e ∈ es, ∀ s ∈ refsOf python e, s ≠ entity_id → s ∉ rows.map Prod.fst →
    rows.length = 15 ∧ ∀ r ∈ rows, (es.countP fun e => s ∈ refsOf python e) ≤ r.2

theorem top_related (hiterate : ∀ refs, (iterate refs).Perm refs.dedup) (es : List Dict) :
    Related python entity_id es (Tally.top 15 (Tally.tally (es.flatMap (othersOf python iterate entity_id)))) := by
  generalize hnames : es.flatMap (othersOf python iterate entity_id) = names
  have hof := Tally.of_tally names
  have hranked := Tally.top_ranked hof.nodup 15
  have hmem : ∀ s, s ∈ names ↔ s ≠ entity_id ∧ ∃ e ∈ es, s ∈ refsOf python e := by
    intro s
    rw [← hnames, List.mem_flatMap]
    simp only [othersOf, List.mem_filter, decide_eq_true_eq, (hiterate _).mem_iff, List.mem_dedup]
    exact ⟨fun ⟨e, he, hs, hne⟩ => ⟨hne, e, he, hs⟩, fun ⟨hne, e, he, hs⟩ => ⟨e, he, hs, hne⟩⟩
  have hcount : ∀ s, s ≠ entity_id → names.countP (· = s) = es.countP fun e => s ∈ refsOf python e := by
    intro s hs
    rw [← hnames]
    exact count_others hiterate hs es
  refine ⟨fun r hr => ?_, hranked.nodup, hranked.sorted, ?_, fun e he s hs hne hout => ?_⟩
  · obtain ⟨hin, hn⟩ := (hof.mem r.1 r.2).mp (hranked.sub r hr)
    have hpos : 0 < names.countP (· = r.1) := List.countP_pos_iff.mpr ⟨r.1, hin, decide_eq_true rfl⟩
    refine ⟨((hmem r.1).mp hin).1, ?_, by omega⟩
    rw [hn, hcount r.1 ((hmem r.1).mp hin).1]
  · rw [hranked.length]
    exact min_le_left _ _
  · have hentry := (hof.mem s _).mpr ⟨(hmem s).mpr ⟨hne, e, he, hs⟩, rfl⟩
    have hleft : (s, (names.countP (· = s) : Int)) ∉ Tally.top 15 (Tally.tally names) :=
      fun hin => hout (List.mem_map.mpr ⟨_, hin, rfl⟩)
    refine ⟨?_, fun r hr => ?_⟩
    · rw [hranked.length]
      -- were there fewer, all entries would be rows
      by_contra hfew
      have hall : (Tally.tally names).length ≤ 15 := by omega
      refine hleft ?_
      rw [Tally.top, List.take_of_length_le (by rw [List.length_mergeSort]; exact hall)]
      exact (List.mergeSort_perm _ _).symm.subset hentry
    · have hle := hranked.rest _ hentry hleft r hr
      rw [← hcount s hne]
      exact hle

variable {ν : Type} {host : Host ν} {fs : Fs ν} {session : Path ν} {decoded : Dict}

/-- **The cluster is what is around the entity, and its counts are right**: the events that are returned are the first
of those around an event of the entity, and the entities those events name most are the ones that are listed -/
theorem cluster_around (hread : read_session_dtj host fs session = .ok decoded)
    (hok : (get decoded "ok").truthy = true) (hevents : _events decoded = .ok events) (hseq : Numbered events)
    (hiterate : ∀ refs, (iterate refs).Perm refs.dedup) (hne : entity_id ≠ []) {w l : Nat} (hw : w ≤ 500)
    (hl : 1 ≤ l ∧ l ≤ 500) {d : Dict}
    (hrun : entity_cluster_dtj host fs iterate session (.str entity_id) (.int w) (.int l) = .ok d) :
    get d "events" = .list (((around (isMatch host.python entity_id) w w events).take l).map .dict) ∧
      ∃ rows, Related host.python entity_id (around (isMatch host.python entity_id) w w events) rows ∧
        get d "related" = .list (rows.map fun r => .dict [("id", .str r.1), ("count", .int r.2)]) := by
  have htext : ((Py.str entity_id).isStr && (Py.str entity_id).truthy) = true := by
    simp [Py.isStr, Py.truthy, hne]
  have hwindow : _validate_window (.int w) = none := span_ok (by unfold MAX_WINDOW; omega)
  have hlimit : _validate_limit (.int l) = none := by
    rw [_validate_limit, if_neg]
    unfold MAX_LIMIT
    omega
  have hid : text host.python (.str entity_id) = entity_id := rfl
  unfold entity_cluster_dtj at hrun
  rw [hid, htext, hwindow, hlimit] at hrun
  dsimp only at hrun
  rw [hread] at hrun
  dsimp only [bind, Except.bind] at hrun
  rw [hok, hevents] at hrun
  simp only [Bool.not_true, Bool.false_eq_true, if_false] at hrun
  obtain ⟨anchors, hanchors, hrun⟩ := bind_eq_ok hrun
  have hmarks := anchors_ok hanchors
  split_ifs at hrun with hnone
  · -- no event of the entity
    cases hrun
    rw [hmarks, List.isEmpty_iff] at hnone
    rw [around_none hnone, List.take_nil]
    refine ⟨rfl, [], ⟨?_, List.nodup_nil, List.Pairwise.nil, Nat.zero_le _, ?_⟩, rfl⟩
    · intro r hr
      cases hr
    · intro e he
      cases he
  · obtain ⟨c, hc, hrun⟩ := bind_eq_ok hrun
    obtain ⟨compact, -, hrun⟩ := bind_eq_ok hrun
    cases hrun
    rw [hmarks] at hc
    have hwidth : ((Py.int w).checked.getD 0).toNat = w := rfl
    rw [hwidth] at hc
    obtain ⟨hcluster, hrelated⟩ := clusterAround_of hseq hc
    rw [hcluster] at hrelated
    refine ⟨?_, _, top_related hiterate _, ?_⟩
    · show Py.list ((c.cluster_events.take l).map .dict) = _
      rw [hcluster]
    · show Py.list ((Tally.top 15 c.related).map fun r => .dict [("id", .str r.1), ("count", .int r.2)]) = _
      rw [hrelated]

end

theorem cluster_around_example : ∃ d, entity_cluster_dtj (eventsHost aroundEvents) exampleFs List.dedup
      (examplePath "s.dtj") (.str "a") (.int 1) (.int 4) = .ok d ∧
    get d "events" = .list (((around (isMatch examplePython "a") 1 1 aroundEvents).take 4).map .dict) ∧
    ∃ rows, Related examplePython "a" (around (isMatch examplePython "a") 1 1 aroundEvents) rows ∧
      get d "related" = .list (rows.map fun r => .dict [("id", .str r.1), ("count", .int r.2)]) := by
  obtain ⟨d, hrun⟩ : ∃ d, entity_cluster_dtj (eventsHost aroundEvents) exampleFs List.dedup (examplePath "s.dtj")
      (.str "a") (.int 1) (.int 4) = .ok d := ⟨_, rfl⟩
  have hread : read_session_dtj (eventsHost aroundEvents) exampleFs (examplePath "s.dtj")
      = .ok [("ok", .bool true), ("events", .list (aroundEvents.map .dict))] := rfl
  exact ⟨d, hrun, cluster_around hread rfl rfl aroundEvents_numbered (fun refs => .refl _) (by decide) (w := 1) (l := 4) (by decide) (by decide) hrun⟩

end Dtj.Mcp
