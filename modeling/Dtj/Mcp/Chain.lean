import Dtj.Mcp.Events

/-!
# The causal chain of an event

`causal_chain_dtj` walks back from an event.  It keeps the set of entities that the chain names so
far; an event that names one of them joins the chain and adds its own.

* `causal_chain_dtj`, `walk`   the source;
* `Walked`                     what has been walked over, and what the chain is by then;
* `Walked.join`, `Walked.pass` one step of the walk;
* `MaximalWalk`                what the chain is in the end;
* `chain_maximal`              **the chain that is returned is a maximal walk back**.
-/

namespace Dtj.Mcp

open Posix Cut

def MAX_HOPS : Int := 50

def _validate_hops (hops : Py) : Option Dict :=
  match hops with
  | .int n =>
    if n < 1 ∨ n > MAX_HOPS then some invalid else none
  | _ => some invalid
where
  invalid : Dict := [("kind", .str "InvalidLimit"),
    ("message", .str (lit "hops must be an integer in 1.." ++ Str.ofInt MAX_HOPS)),
    ("max", .int MAX_HOPS)]

section
variable (python : Python)

/-- the loop: `search` events are left before the place it looks at, and `refs` is a set -/
def walk (events : List Dict) (hops max_steps : Nat) :
    (search steps : Nat) → (chain : List Dict) → (refs : List Str) → Except Exc (List Dict)
  | 0, _, chain, _ => .ok chain
  | search + 1, steps, chain, refs =>
    if chain.length < hops + 1 ∧ steps < max_steps then
      match events[search]? with
      | none => .ok chain
      | some ln => do
        let ln_refs ← _entity_refs python ln
        if refs.any (· ∈ ln_refs) then
          walk events hops max_steps search (steps + 1) (chain ++ [ln]) (refs ++ ln_refs)
        else walk events hops max_steps search (steps + 1) chain refs
    else .ok chain

/-- `index_by_seq.get(event_sequence)`: the last place of a sequence -/
def indexBySeq (events : List Dict) (event_sequence : Int) : Option Nat :=
  (marks (fun e => (get e "event_sequence").asInt = some event_sequence) 0 events).getLast?

/-- the chain of the event at a place, the oldest event first -/
def chainAt (events : List Dict) (hops index : Nat) : Except Exc (List Dict) :=
  match events[index]? with
  | none => .error .KeyError
  | some target => do
    let refs ← _entity_refs python target
    let chain ← walk python events hops events.length index 0 [target] refs
    return chain.reverse

/-- `sorted(set)` -/
def sortedSet (names : List Str) : List Str := names.dedup.mergeSort fun a b => decide (a ≤ b)

/-- the entries of the result, counted from `i`, and the lines of its text -/
def hopRows (event_sequence : Int) (i : Nat) : List Dict → Except Exc (List (Py × Str))
  | [] => .ok []
  | ev :: rest => do
    let is_target := python.isInt (get ev "event_sequence") event_sequence
    let refs ← _entity_refs python ev
    let compact ← _compact python ev
    let others ← hopRows event_sequence (i + 1) rest
    return (.dict [("hop", .int i), ("event_sequence", get ev "event_sequence"),
        ("tag", .str (_tag python ev)), ("refs", .list ((sortedSet refs).map .str)),
        ("compact", .str compact), ("is_target", .bool is_target)],
      lit "hop " ++ Str.ofInt i ++ lit ": " ++ compact ++
        if is_target then lit "  <<" else []) :: others

end

section
variable {ν : Type} (host : Host ν) (fs : Fs ν)

/-- after the arguments are checked and the events are there -/
def chainResult (session : Path ν) (decoded : Dict) (events : List Dict) (event_sequence : Int)
    (hops : Nat) : Except Exc Dict :=
  match indexBySeq events event_sequence with
  | none => .ok (_fail host session [("kind", .str "MissingEvent"),
      ("message", .str (lit "event_sequence " ++ Str.ofInt event_sequence ++ lit " not found")),
      ("event_sequence", .int event_sequence)])
  | some index => do
    let chain ← chainAt host.python events hops index
    let rows ← hopRows host.python event_sequence 0 chain
    return _ok host session decoded [("event_sequence", .int event_sequence), ("hops", .int hops),
      ("chain", .list (rows.map Prod.fst)),
      ("text", .str (List.intercalate (lit "\n") (rows.map Prod.snd)))]

def causal_chain_dtj (session : Path ν) (event_sequence hops : Py) : Except Exc Dict :=
  match _validate_hops hops with
  | some e => .ok (_fail host session e)
  | none =>
  match event_sequence with
  | .int n => do
    let decoded ← read_session_dtj host fs session
    if !(get decoded "ok").truthy then
      return decoded
    let events ← _events decoded
    chainResult host session decoded events n (hops.checked.getD 0).toNat
  | _ => .ok (_fail host session [("kind", .str "InvalidRange"),
      ("message", .str "event_sequence must be an integer")])

end

/-! ## the walk -/

section
variable {python : Python} {events : List Dict}

/-- the entities of an event, where they can be told -/
def refsOf (python : Python) (e : Dict) : List Str :=
  match _entity_refs python e with
  | .ok refs => refs
  | .error _ => []

theorem refsOf_eq {e : Dict} {refs : List Str} (h : _entity_refs python e = .ok refs) :
    refsOf python e = refs := by
  rw [refsOf, h]

/-- an event names an entity that one of the later ones names -/
def Meets (python : Python) (e : Dict) (later : List Dict) : Prop :=
  ∃ s ∈ refsOf python e, ∃ d ∈ later, s ∈ refsOf python d

/-- the walk is over the events after `search`; `asc` is the chain, the oldest event first -/
structure Walked (python : Python) (events : List Dict) (target : Dict) (search : Nat)
    (asc : List Dict) : Prop where
  after : ∀ e ∈ asc, e ∈ events ∧ (search : Int) < seqOf e
  ascending : asc.Pairwise fun a b => seqOf a < seqOf b
  ends : asc.getLast? = some target
  linked : ∀ older a b later, asc = older ++ a :: b :: later → Meets python a (b :: later)
    ∧ ∀ e ∈ events, seqOf a < seqOf e → seqOf e < seqOf b → ¬ Meets python e (b :: later)
  passed : ∀ e ∈ events, (search : Int) < seqOf e → (∀ first ∈ asc.head?, seqOf e < seqOf first) →
    ¬ Meets python e asc

theorem Walked.start (hseq : Numbered events) {index : Nat} {target : Dict}
    (h : events[index]? = some target) : Walked python events target index [target] := by
  have hsmall : seqOf target = 1 + index := by
    rw [seqOf, hseq.asInt h]
    rfl
  refine ⟨?_, List.pairwise_singleton _ _, rfl, ?_, ?_⟩
  · intro e he
    rw [List.mem_singleton.mp he]
    exact ⟨List.mem_of_getElem? h, by omega⟩
  · intro older a b later heq
    have := congrArg List.length heq
    simp at this
    omega
  · intro e he hlow hhigh
    have := hhigh target rfl
    omega

/-- the event before the place joins the chain -/
theorem Walked.join (hseq : Numbered events) {target x : Dict} {search : Nat} {asc : List Dict}
    (h : Walked python events target (search + 1) asc) (hx : events[search]? = some x)
    (hm : Meets python x asc) : Walked python events target search (x :: asc) := by
  have hat : seqOf x = 1 + search := by
    rw [seqOf, hseq.asInt hx]
    rfl
  have hne : asc ≠ [] := by
    intro hnil
    have := h.ends
    rw [hnil] at this
    cases this
  refine ⟨?_, ?_, ?_, ?_, ?_⟩
  · rw [List.forall_mem_cons]
    refine ⟨⟨List.mem_of_getElem? hx, by omega⟩, ?_⟩
    intro e he
    have := h.after e he
    exact ⟨this.1, by omega⟩
  · refine List.Pairwise.cons ?_ h.ascending
    intro e he
    have := (h.after e he).2
    omega
  · rw [List.getLast?_cons_of_ne_nil hne, h.ends]
  · intro older a b later heq
    cases older with
    | nil =>
      cases heq
      refine ⟨hm, ?_⟩
      intro e he hlow hhigh
      apply h.passed e he (by omega)
      intro first hfirst
      cases hfirst
      exact hhigh
    | cons y older => exact h.linked older a b later (List.cons.inj heq).2
  · intro e he hlow hhigh
    have := hhigh x rfl
    omega

/-- or it is passed over -/
theorem Walked.pass (hseq : Numbered events) {target x : Dict} {search : Nat} {asc : List Dict}
    (h : Walked python events target (search + 1) asc) (hx : events[search]? = some x)
    (hm : ¬ Meets python x asc) : Walked python events target search asc := by
  refine ⟨?_, h.ascending, h.ends, h.linked, ?_⟩
  · intro e he
    have := h.after e he
    exact ⟨this.1, by omega⟩
  · intro e he hlow hhigh
    by_cases hnext : (search + 1 : Nat) < seqOf e
    · exact h.passed e he hnext hhigh
    · obtain ⟨i, hi⟩ := List.mem_iff_getElem?.mp he
      have hplace : seqOf e = 1 + i := by
        rw [seqOf, hseq.asInt hi]
        rfl
      have hsame : i = search := by omega
      rw [hsame, hx] at hi
      cases hi
      exact hm

/-- the set holds what the chain names -/
def Names (python : Python) (refs : List Str) (asc : List Dict) : Prop :=
  ∀ s, s ∈ refs ↔ ∃ d ∈ asc, s ∈ refsOf python d

theorem Names.meets {refs : List Str} {asc : List Dict} (h : Names python refs asc) {x : Dict}
    {ln_refs : List Str} (hx : _entity_refs python x = .ok ln_refs) :
    refs.any (· ∈ ln_refs) = true ↔ Meets python x asc := by
  rw [List.any_eq_true, Meets, refsOf_eq hx]
  constructor
  · rintro ⟨s, hs, hin⟩
    exact ⟨s, of_decide_eq_true hin, (h s).mp hs⟩
  · rintro ⟨s, hs, hin⟩
    exact ⟨s, (h s).mpr hin, decide_eq_true hs⟩

theorem Names.join {refs : List Str} {asc : List Dict} (h : Names python refs asc) {x : Dict}
    {ln_refs : List Str} (hx : _entity_refs python x = .ok ln_refs) :
    Names python (refs ++ ln_refs) (x :: asc) := by
  intro s
  rw [List.mem_append, h s, List.exists_mem_cons_iff, refsOf_eq hx, or_comm]

/-- **one run of the loop** -/
theorem walk_ok (hseq : Numbered events) {hops search steps : Nat} {target : Dict} {chain out : List Dict}
    {refs : List Str} (hw : Walked python events target search chain.reverse)
    (hn : Names python refs chain.reverse) (hlen : chain.length ≤ hops + 1)
    (hsteps : steps + search ≤ events.length)
    (h : walk python events hops events.length search steps chain refs = .ok out) :
    ∃ search', Walked python events target search' out.reverse ∧ out.length ≤ hops + 1
      ∧ (out.length < hops + 1 → search' = 0) := by
  induction search generalizing steps chain refs with
  | zero =>
    cases h
    exact ⟨0, hw, hlen, fun _ => rfl⟩
  | succ search ih =>
    rw [walk] at h
    split_ifs at h with hgo
    · have hlt : search < events.length := by omega
      rw [List.getElem?_eq_getElem hlt] at h
      have hx : events[search]? = some events[search] := List.getElem?_eq_getElem hlt
      obtain ⟨ln_refs, hrefs, h⟩ := bind_eq_ok h
      split_ifs at h with hmeets
      · have hm := (hn.meets hrefs).mp hmeets
        apply ih ?_ ?_ ?_ (by omega) h
        · rw [List.reverse_append]
          exact hw.join hseq hx hm
        · rw [List.reverse_append]
          exact hn.join hrefs
        · rw [List.length_append, List.length_singleton]
          omega
      · have hm := mt (hn.meets hrefs).mpr hmeets
        exact ih (hw.pass hseq hx hm) hn hlen (by omega) h
    · cases h
      refine ⟨search + 1, hw, hlen, ?_⟩
      intro hshort
      omega

/-! ## the chain that is returned -/

/-- a walk back from the event with a sequence, of at most `hops` hops -/
structure MaximalWalk (python : Python) (events : List Dict) (event_sequence hops : Int)
    (chain : List Dict) : Prop where
  members : ∀ e ∈ chain, e ∈ events
  ascending : chain.Pairwise fun a b => seqOf a < seqOf b
  ends : ∃ target, chain.getLast? = some target ∧ seqOf target = event_sequence
  short : (chain.length : Int) ≤ hops + 1
  linked : ∀ older a b later, chain = older ++ a :: b :: later → Meets python a (b :: later)
    ∧ ∀ e ∈ events, seqOf a < seqOf e → seqOf e < seqOf b → ¬ Meets python e (b :: later)
  maximal : (chain.length : Int) < hops + 1 →
    ∀ e ∈ events, (∀ first ∈ chain.head?, seqOf e < seqOf first) → ¬ Meets python e chain

def entrySequence : Py → Py
  | .dict entry => get entry "event_sequence"
  | _ => .none

/-- the sequences of the entries of the result -/
def chainSequences (d : Dict) : List Py :=
  match get d "chain" with
  | .list entries => entries.map entrySequence
  | _ => []

theorem indexBySeq_some {n : Int} {index : Nat} (h : indexBySeq events n = some index) :
    ∃ target, events[index]? = some target ∧ seqOf target = n := by
  obtain ⟨target, htarget, hlast⟩ := marks_last h
  have hmark := (List.mem_filter.mp (List.mem_of_getLast? hlast)).2
  rw [decide_eq_true_eq] at hmark
  refine ⟨target, htarget, ?_⟩
  rw [seqOf, hmark]
  rfl

theorem chainAt_maximal (hseq : Numbered events) {n : Int} {hops index : Nat} {chain : List Dict}
    (hindex : indexBySeq events n = some index) (h : chainAt python events hops index = .ok chain) :
    MaximalWalk python events n hops chain := by
  obtain ⟨target, htarget, hn⟩ := indexBySeq_some hindex
  have hlt : index < events.length := (List.getElem?_eq_some_iff.mp htarget).1
  rw [chainAt, htarget] at h
  obtain ⟨refs, hrefs, h⟩ := bind_eq_ok h
  obtain ⟨desc, hdesc, h⟩ := bind_eq_ok h
  cases h
  have hnames : Names python refs [target] := by
    intro s
    simp [refsOf_eq hrefs]
  obtain ⟨search, hw, hlen, hall⟩ := walk_ok hseq (Walked.start hseq htarget) hnames
    (by simp) (by omega) hdesc
  refine ⟨fun e he => (hw.after e he).1, hw.ascending, ⟨target, hw.ends, hn⟩, ?_, hw.linked, ?_⟩
  · rw [List.length_reverse]
    exact_mod_cast hlen
  · rw [List.length_reverse]
    intro hshort e he hfirst
    have hzero : search = 0 := hall (by exact_mod_cast hshort)
    apply hw.passed e he ?_ hfirst
    obtain ⟨i, hi⟩ := List.mem_iff_getElem?.mp he
    have hplace : seqOf e = 1 + i := by
      rw [seqOf, hseq.asInt hi]
      rfl
    omega

theorem hopRows_sequences {n : Int} {i : Nat} {chain : List Dict} {rows : List (Py × Str)}
    (h : hopRows python n i chain = .ok rows) :
    (rows.map Prod.fst).map entrySequence = chain.map fun e => get e "event_sequence" := by
  induction chain generalizing i rows with
  | nil =>
    cases h
    rfl
  | cons e chain ih =>
    obtain ⟨refs, -, h⟩ := bind_eq_ok h
    obtain ⟨compact, -, h⟩ := bind_eq_ok h
    obtain ⟨others, hothers, h⟩ := bind_eq_ok h
    cases h
    rw [List.map_cons, List.map_cons, List.map_cons, ih hothers]
    rfl

variable {ν : Type} {decoded d : Dict}

/-- **The chain that is returned for an event is a maximal walk back from it.** -/
theorem chain_maximal (host : Host ν) (fs : Fs ν) (session : Path ν)
    (hread : read_session_dtj host fs session = .ok decoded) (hok : (get decoded "ok").truthy = true)
    (hevents : _events decoded = .ok events) (hseq : Numbered events) (n hops : Int)
    (h : causal_chain_dtj host fs session (.int n) (.int hops) = .ok d)
    (hd : (get d "ok").truthy = true) :
    ∃ chain, chainSequences d = chain.map (fun e => get e "event_sequence")
      ∧ MaximalWalk host.python events n hops chain := by
  have hhops : 1 ≤ hops ∧ hops ≤ 50 := by
    by_contra hout
    have hbad : _validate_hops (.int hops) = some _validate_hops.invalid := by
      rw [_validate_hops, if_pos (by simp only [MAX_HOPS]; omega)]
    rw [causal_chain_dtj, hbad] at h
    cases h
    cases hd
  have hvalid : _validate_hops (.int hops) = none := by
    rw [_validate_hops, if_neg (by simp only [MAX_HOPS]; omega)]
  have hrun : causal_chain_dtj host fs session (.int n) (.int hops)
      = chainResult host session decoded events n hops.toNat := by
    unfold causal_chain_dtj
    rw [hvalid, hread]
    dsimp only [bind, Except.bind]
    rw [hok, hevents]
    rfl
  rw [hrun] at h
  unfold chainResult at h
  cases hindex : indexBySeq events n with
  | none =>
    rw [hindex] at h
    cases h
    cases hd
  | some index =>
    rw [hindex] at h
    obtain ⟨chain, hchain, h⟩ := bind_eq_ok h
    obtain ⟨rows, hrows, h⟩ := bind_eq_ok h
    cases h
    refine ⟨chain, hopRows_sequences hrows, ?_⟩
    have hmax := chainAt_maximal hseq hindex hchain
    rwa [Int.toNat_of_nonneg (by omega)] at hmax

end

def chainEvents : List Dict := [entityAt 1 "Created" "a", entityAt 2 "Created" "b", entityAt 3 "Moved" "a"]

theorem chain_maximal_example :
    ∃ d chain, causal_chain_dtj (eventsHost chainEvents) exampleFs (examplePath "s.dtj") (.int 3) (.int 5)
        = .ok d
      ∧ chainSequences d = chain.map (fun e => get e "event_sequence")
      ∧ MaximalWalk examplePython chainEvents 3 5 chain := by
  obtain ⟨d, hrun, hd⟩ : ∃ d, causal_chain_dtj (eventsHost chainEvents) exampleFs (examplePath "s.dtj")
      (.int 3) (.int 5) = .ok d ∧ (get d "ok").truthy = true := ⟨_, rfl, rfl⟩
  have hseq : Numbered chainEvents := by
    intro i e he
    match i with
    | 0 => cases he; rfl
    | 1 => cases he; rfl
    | 2 => cases he; rfl
    | _ + 3 => cases he
  obtain ⟨chain, hchain, hmax⟩ := chain_maximal (eventsHost chainEvents) exampleFs (examplePath "s.dtj")
    rfl rfl rfl hseq 3 5 hrun hd
  exact ⟨d, chain, hrun, hchain, hmax⟩

end Dtj.Mcp
