import Dtj.Lib.Greedy
import Dtj.Lib.Ieee
import Dtj.Mcp.Pairs

/-!
# Bursts of events

`bursts_dtj` goes over the timed events once.  A window starts at an event and goes on as long as the
tag is the same and the time is in reach; the next window starts where it ends, and a window of
enough events is a burst.  Times are exact here: seconds that are rational numbers.

* `bursts_dtj`, `burstSpans`, `burstEnd`   the tool and its two loops;
* `burstSpans_eq`                          the loops are the greedy pass of `Dtj.Lib.Greedy`;
* `Together`                               events of one tag within a time;
* `bursts_found`                           **what is found, and which events are never passed over**;
* `restart_misses`                         three events within the time that are.
-/

namespace Dtj.Mcp

open Posix Greedy

def MAX_TOP : Int := 100

/-- `3600.0` -/
def MAX_WINDOW_SEC : UInt64 := 0x40ac200000000000

def _validate_top (top : Py) : Option Dict :=
  match top with
  | .int n =>
    if n < 1 ∨ n > MAX_TOP then some invalid else none
  | _ => some invalid
where
  invalid : Dict := [("kind", .str "InvalidLimit"),
    ("message", .str (lit "top must be an integer in 1.." ++ Str.ofInt MAX_TOP)),
    ("max", .int MAX_TOP)]

/-- the check of `min_count`, which has no `max` -/
def _validate_min_count (min_count : Py) : Option Dict :=
  match min_count with
  | .int n =>
    if n < 1 ∨ n > MAX_LIMIT then some invalid else none
  | _ => some invalid
where
  invalid : Dict := [("kind", .str "InvalidLimit"),
    ("message", .str (lit "min_count must be an integer in 1.." ++ Str.ofInt MAX_LIMIT))]

/-- a finite number, exactly -/
def Py.exact : Py → Option ℚ
  | .int n => some n
  | .float bits =>
    match Ieee.value Ieee.double bits.toNat with
    | .finite q => some q
    | _ => Option.none
  | _ => Option.none

/-- integers from here on have no nearest number in range -/
def floatRoom : Nat := (2^54 - 1) * 2^970

/-- `float(value)` of an integer raises -/
def Py.tooLarge : Py → Bool
  | .int n => decide (floatRoom ≤ n.natAbs)
  | _ => false

section
variable (python : Python)

/-- The bounds are numbers that a float holds, so it does not matter that `float` rounds. -/
def _validate_positive_float (value : Py) (name : Str) (max_v : UInt64) :
    Except Exc (Option Dict) :=
  match value with
  | .int _ | .float _ =>
    if value.tooLarge then .error .OverflowError
    else match value.exact, (Py.float max_v).exact with
    | some v, some m => .ok (if v ≤ 0 ∨ m < v then some range else none)
    | _, _ => .ok (some range)
  | _ => .ok (some [("kind", .str "InvalidQuery"),
      ("message", .str (name ++ lit " must be a positive number"))])
where
  range : Dict := [("kind", .str "InvalidQuery"),
    ("message", .str (name ++ lit " must be in (0, " ++ text python (.float max_v) ++ lit "]")),
    ("max", .float max_v)]

/-- the time of an event; a truth value is none -/
def _mono_sec (event : Dict) : Option ℚ := (_mono event).map fun ns => ns / 1000000000

/-- `_mono_sec(event) or 0.0` -/
def sec (event : Dict) : ℚ := (_mono_sec event).getD 0

/-- `[e for e in … if _mono_sec(e) is not None]` -/
def timed (events : List Dict) : List Dict := events.filter fun e => (_mono_sec e).isSome

/-- the inner loop, over the events from `j` on -/
def burstEnd (window_sec : ℚ) (tag : Str) (t0 : ℚ) (j : Nat) : List Dict → Nat
  | [] => j
  | e :: rest =>
    if sec e - t0 > window_sec ∨ _tag python e ≠ tag then j
    else burstEnd window_sec tag t0 (j + 1) rest

/-- the outer loop: where the bursts start and end; each round takes one event at least, so that as
many rounds as there are events are enough -/
def burstSpans (window_sec : ℚ) (min_count : Nat) (materialized : List Dict) :
    (rounds i : Nat) → List (Nat × Nat)
  | 0, _ => []
  | rounds + 1, i =>
    match materialized[i]? with
    | none => []
    | some first =>
      let j := burstEnd python window_sec (_tag python first) (sec first) (i + 1)
        (materialized.drop (i + 1))
      let rest := burstSpans window_sec min_count materialized rounds (max (i + 1) j)
      if min_count ≤ j - i then (i, j) :: rest else rest

/-- `results`, before it is sorted -/
def burstRow (window_sec : Py) (materialized : List Dict) (span : Nat × Nat) : Nat × Dict :=
  let first := materialized.getD span.1 []
  let last := materialized.getD (span.2 - 1) []
  let count := span.2 - span.1
  let tag := _tag python first
  (count, [("count", .int count), ("tag", .str tag),
    ("start_event_sequence", get first "event_sequence"),
    ("end_event_sequence", get last "event_sequence"),
    ("text", .str (lit "burst=" ++ Str.ofInt count ++ lit "  tag=" ++ tag ++ lit "  seq=" ++
      text python (get first "event_sequence") ++ lit "-" ++
      text python (get last "event_sequence") ++ lit "  window=" ++ text python window_sec ++
      lit "s"))])

/-- the longest bursts first, and the top ones of them -/
def topBursts (window_sec : Py) (top : Nat) (materialized : List Dict) (spans : List (Nat × Nat)) :
    List Dict :=
  ((((spans.map (burstRow python window_sec materialized)).mergeSort
    fun r s => decide (s.1 ≤ r.1)).take top).map Prod.snd)

def burstsText (materialized bursts : List Dict) : Str :=
  if materialized.isEmpty then "No timed lines."
  else if bursts.isEmpty then "No bursts found."
  else List.intercalate (lit "\n") (bursts.flatMap fun b => texts (get b "text"))

end

section
variable {ν : Type} (host : Host ν) (fs : Fs ν) (lower : Str → Str)

/-- after the arguments are checked and the events are there -/
def burstsResult (session : Path ν) (decoded : Dict) (inScope : List Dict) (window_sec : Py)
    (min_count top : Nat) : Dict :=
  let materialized := timed inScope
  let spans := burstSpans host.python (window_sec.exact.getD 0) min_count materialized
    materialized.length 0
  let bursts := topBursts host.python window_sec top materialized spans
  _ok host session decoded [("bursts", .list (bursts.map .dict)),
    ("text", .str (burstsText materialized bursts))]

def bursts_dtj (session : Path ν) (window_sec min_count top : Py) (since_last_clear : Bool) :
    Except Exc Dict :=
  match _validate_positive_float host.python window_sec "window_sec" MAX_WINDOW_SEC with
  | .error exc => .error exc
  | .ok (some e) => .ok (_fail host session e)
  | .ok none =>
  match _validate_min_count min_count with
  | some e => .ok (_fail host session e)
  | none =>
  match _validate_top top with
  | some e => .ok (_fail host session e)
  | none => do
    let decoded ← read_session_dtj host fs session
    if !(get decoded "ok").truthy then
      return decoded
    let events ← _events decoded
    let inScope ← _scope_events host.python lower events { since_last_clear := since_last_clear }
    return burstsResult host session decoded inScope window_sec (min_count.checked.getD 0).toNat
      (top.checked.getD 0).toNat

end

/-! ## the loops are the greedy pass -/

section
variable {python : Python} {w : ℚ} {m : Nat} {materialized : List Dict}

/-- the test of the inner loop, for the first event of a window -/
def inWindow (python : Python) (w : ℚ) (first e : Dict) : Bool :=
  decide (sec e - sec first ≤ w) && decide (_tag python e = _tag python first)

theorem inWindow_iff {first e : Dict} : inWindow python w first e = true ↔
    sec e - sec first ≤ w ∧ _tag python e = _tag python first := by
  rw [inWindow, Bool.and_eq_true, decide_eq_true_iff, decide_eq_true_iff]

theorem burstEnd_eq (first : Dict) (j : Nat) (rest : List Dict) :
    burstEnd python w (_tag python first) (sec first) j rest
      = j + (rest.takeWhile (inWindow python w first)).length := by
  induction rest generalizing j with
  | nil => rfl
  | cons e rest ih =>
    have htest : ¬ (sec e - sec first > w ∨ _tag python e ≠ _tag python first) ↔
        inWindow python w first e = true := by
      rw [inWindow_iff, not_or, not_lt, not_not]
    rw [burstEnd, List.takeWhile_cons]
    by_cases h : inWindow python w first e = true
    · rw [if_neg (htest.mpr h), if_pos h, ih, List.length_cons]
      omega
    · rw [if_pos (not_not.mp fun hno => h (htest.mp hno)), if_neg h]
      rfl

/-- a span of enough events -/
def enough (m : Nat) (span : Nat × Nat) : Bool := decide (m ≤ span.2 - span.1)

theorem burstSpans_eq {rounds i : Nat} (h : materialized.length ≤ rounds + i) :
    burstSpans python w m materialized rounds i
      = (places i (windows (inWindow python w) (materialized.drop i))).filter (enough m) := by
  induction rounds generalizing i with
  | zero =>
    rw [List.drop_eq_nil_of_le (by omega)]
    rfl
  | succ rounds ih =>
    rw [burstSpans]
    cases hfirst : materialized[i]? with
    | none =>
      rw [List.drop_eq_nil_of_le (List.getElem?_eq_none_iff.mp hfirst)]
      rfl
    | some first =>
      obtain ⟨hi, hget⟩ := List.getElem?_eq_some_iff.mp hfirst
      have hcons : materialized.drop i = first :: materialized.drop (i + 1) := by
        rw [List.drop_eq_getElem_cons hi, hget]
      dsimp only
      rw [burstEnd_eq, hcons, windows_cons, places, List.filter_cons, ih (by omega)]
      generalize hwindow : (materialized.drop (i + 1)).takeWhile (inWindow python w first) = window
      have hrest : materialized.drop (max (i + 1) (i + 1 + window.length))
          = (materialized.drop (i + 1)).dropWhile (inWindow python w first) := by
        rw [← drop_takeWhile, hwindow, List.drop_drop, max_eq_right (by omega)]
      have hend : i + 1 + window.length = i + (first :: window).length := by
        rw [List.length_cons]
        omega
      rw [hrest, max_eq_right (by omega), hend]
      by_cases hm : m ≤ i + (first :: window).length - i
      · have hkeep : enough m (i, i + (first :: window).length) = true := decide_eq_true hm
        rw [if_pos hm, if_pos hkeep]
      · have hdrop : ¬ enough m (i, i + (first :: window).length) = true :=
          fun hkeep => hm (of_decide_eq_true hkeep)
        rw [if_neg hm, if_neg hdrop]

/-! ## what the pass finds -/

/-- events of one tag, at most `w` seconds apart -/
def Together (python : Python) (w : ℚ) (es : List Dict) : Prop :=
  ∀ a ∈ es, ∀ b ∈ es, _tag python a = _tag python b ∧ sec b - sec a ≤ w

/-- the events from the place `lo` up to `hi` -/
def stretch (es : List Dict) (lo hi : Nat) : List Dict := (es.drop lo).take (hi - lo)

/-- the event before the place `lo` does not reach the one at it -/
def Fresh (python : Python) (w : ℚ) (es : List Dict) (lo : Nat) : Prop :=
  ∀ p ∈ (es.take lo).getLast?, ∀ b ∈ (es.drop lo).head?,
    _tag python p = _tag python b → w < sec b - sec p

/-- times that do not go back -/
abbrev Ordered (es : List Dict) : Prop := es.Pairwise fun a b => sec a ≤ sec b

theorem stretch_split (es : List Dict) {lo hi : Nat} (h : lo ≤ hi) :
    es = es.take lo ++ (stretch es lo hi ++ es.drop hi) := by
  conv_lhs => rw [← List.take_append_drop lo es, ← List.take_append_drop (hi - lo) (es.drop lo)]
  rw [List.drop_drop, Nat.add_sub_cancel' h]
  rfl

theorem together_window {first : Dict} {rest : List Dict} (hw : 0 ≤ w)
    (hsorted : Ordered (first :: rest)) (h : ∀ b ∈ rest, inWindow python w first b = true) :
    Together python w (first :: rest) := by
  have hfirst : ∀ b ∈ first :: rest, _tag python b = _tag python first
      ∧ sec first ≤ sec b ∧ sec b - sec first ≤ w := by
    intro b hb
    cases List.mem_cons.mp hb with
    | inl heq =>
      rw [heq, sub_self]
      exact ⟨rfl, le_rfl, hw⟩
    | inr hmem =>
      obtain ⟨hle, htag⟩ := inWindow_iff.mp (h b hmem)
      exact ⟨htag, (List.pairwise_cons.mp hsorted).1 b hmem, hle⟩
  intro a ha b hb
  obtain ⟨htag, hle, -⟩ := hfirst a ha
  obtain ⟨htag', -, hle'⟩ := hfirst b hb
  exact ⟨htag.trans htag'.symm, by linarith⟩

theorem together_run {es : List Dict} (h : Together python w es) : Run (inWindow python w) es := by
  apply List.pairwise_of_forall_mem_list
  intro a ha b hb
  obtain ⟨htag, hle⟩ := h a ha b hb
  exact inWindow_iff.mpr ⟨hle, htag.symm⟩

/-- a window that reaches over an event to a later one has the one between -/
theorem fresh_stops {before : List Dict} {b : Dict} (hsorted : Ordered before)
    (h : ∀ p ∈ before.getLast?, _tag python p = _tag python b → w < sec b - sec p) :
    Stops (inWindow python w) b before := by
  refine ⟨?_, hsorted.imp ?_⟩
  · intro p hp
    rw [← Bool.not_eq_true, inWindow_iff]
    rintro ⟨hle, htag⟩
    exact absurd (h p hp htag.symm) (not_lt.mpr hle)
  · intro c p hle hp hb
    rw [inWindow_iff] at *
    exact ⟨by linarith [hb.1], hb.2.trans hp.2.symm⟩

theorem burst_sound {es : List Dict} (hw : 0 ≤ w) (hsorted : Ordered es) {r : Nat × Nat}
    (hr : r ∈ burstSpans python w m es es.length 0) :
    m ≤ r.2 - r.1 ∧ r.1 < r.2 ∧ r.2 ≤ es.length ∧ Together python w (stretch es r.1 r.2) := by
  rw [burstSpans_eq (by omega), List.mem_filter, List.drop_zero, mem_places] at hr
  obtain ⟨⟨before, W, after, hpieces, hfst, hsnd⟩, hm⟩ := hr
  have hall : es = before.flatten ++ (W ++ after.flatten) := by
    have hflat : (windows (inWindow python w) es).flatten = es := windows_flatten es
    rw [hpieces, List.flatten_append, List.flatten_cons] at hflat
    exact hflat.symm
  rw [Nat.zero_add] at hfst
  have hstretch : stretch es r.1 r.2 = W := by
    rw [stretch, hsnd, Nat.add_sub_cancel_left, hfst, hall, List.drop_left, List.take_left]
  have hmem : W ∈ windows (inWindow python w) es :=
    hpieces ▸ List.mem_append_right before List.mem_cons_self
  obtain ⟨first, rest, hW, hfits⟩ := windows_fits hmem
  have hlen : es.length = before.flatten.length + (W.length + after.flatten.length) := by
    rw [hall, List.length_append, List.length_append]
  have hpos : W.length = rest.length + 1 := by rw [hW, List.length_cons]
  refine ⟨of_decide_eq_true hm, by omega, by omega, ?_⟩
  rw [hstretch]
  rw [hall] at hsorted
  have hsortedW : Ordered W := (List.pairwise_append.mp (List.pairwise_append.mp hsorted).2.1).1
  rw [hW] at hsortedW ⊢
  exact together_window hw hsortedW hfits

theorem bursts_disjoint (python : Python) (w : ℚ) (m : Nat) (es : List Dict) :
    (burstSpans python w m es es.length 0).Pairwise fun r s => r.2 ≤ s.1 := by
  rw [burstSpans_eq (by omega)]
  exact (places_disjoint _ _).filter _

theorem burst_complete {es : List Dict} (hsorted : Ordered es) {lo hi : Nat} (hm : 1 ≤ m)
    (hlong : lo + m ≤ hi) (hhi : hi ≤ es.length) (h : Together python w (stretch es lo hi))
    (hseen : 2 * m ≤ hi - lo + 2 ∨ Fresh python w es lo) :
    ∃ r ∈ burstSpans python w m es es.length 0, r.1 < hi ∧ lo < r.2 := by
  have hsplit := stretch_split es (show lo ≤ hi by omega)
  have hbefore : (es.take lo).length = lo := List.length_take_of_le (by omega)
  have hrun : (stretch es lo hi).length = hi - lo := by
    rw [stretch, List.length_take, List.length_drop]
    omega
  have hhits : Hits (windows (inWindow python w) es) m lo hi := by
    have hend : lo + (hi - lo) = hi := by omega
    cases hseen with
    | inl htwice =>
      have hfound := windows_hit (es.take lo) (together_run h) (es.drop hi) (m := m)
        (List.ne_nil_of_length_pos (by omega)) (by omega) (by rwa [hrun])
      rwa [← hsplit, hbefore, hrun, hend] at hfound
    | inr hfresh =>
      cases hcons : stretch es lo hi with
      | nil =>
        rw [hcons, List.length_nil] at hrun
        omega
      | cons b run =>
        rw [hcons] at hsplit hrun h
        rw [List.length_cons] at hrun
        have hhead : b ∈ (es.drop lo).head? := by
          rw [hsplit, List.drop_left' hbefore]
          rfl
        have hsortedBefore : Ordered (es.take lo) := hsorted.sublist (List.take_sublist lo es)
        have hfound := windows_hit_head (together_run h) (es.drop hi) (m := m) (by omega)
          (fresh_stops hsortedBefore fun p hp => hfresh p hp b hhead)
        rwa [← hsplit, hbefore, hrun, hend] at hfound
  obtain ⟨before, W, after, hpieces, hlarge, hlt, hgt⟩ := hhits
  refine ⟨(before.flatten.length, before.flatten.length + W.length), ?_, hlt, hgt⟩
  rw [burstSpans_eq (by omega), List.mem_filter, List.drop_zero, mem_places]
  exact ⟨⟨before, W, after, hpieces, (Nat.zero_add _).symm, rfl⟩,
    decide_eq_true (by dsimp only; omega)⟩

theorem scope_sublist {lower : Str → Str} {events inScope : List Dict} {range : Scope}
    (h : _scope_events python lower events range = .ok inScope) : inScope.Sublist events := by
  unfold _scope_events at h
  by_cases hsince : range.since_last_clear = true
  · rw [if_pos hsince] at h
    obtain ⟨since_seq, -, hkeep⟩ := bind_eq_ok h
    cases hkeep
    exact List.filter_sublist
  · rw [if_neg hsince] at h
    cases h
    exact List.filter_sublist

end

section
variable {ν : Type} (host : Host ν) (fs : Fs ν) (lower : Str → Str)

theorem floatRoom_large : 3600 < floatRoom :=
  lt_of_lt_of_le (by norm_num) (Nat.le_mul_of_pos_right (2^54 - 1) (Nat.two_pow_pos 970))

theorem max_exact : (Py.float MAX_WINDOW_SEC).exact = some 3600 := by
  have hvalue : Ieee.value Ieee.double MAX_WINDOW_SEC.toNat = .finite 3600 := by
    rw [show MAX_WINDOW_SEC.toNat = 0x40ac200000000000 from rfl]
    norm_num [Ieee.value, Ieee.worth, Ieee.double, Ieee.Format.significand, Ieee.Format.lowest]
  rw [Py.exact, hvalue]

theorem positive_float_ok {python : Python} {value : Py} {name : Str} {w : ℚ}
    (h : value.exact = some w) (hpos : 0 < w) (hmax : w ≤ 3600) :
    _validate_positive_float python value name MAX_WINDOW_SEC = .ok none := by
  have hno : ¬ (w ≤ 0 ∨ 3600 < w) := not_or.mpr ⟨not_le.mpr hpos, not_lt.mpr hmax⟩
  cases value with
  | int n =>
    have hn : (n : ℚ) = w := Option.some.inj h
    have hle : n ≤ 3600 := by
      rw [← hn] at hmax
      exact_mod_cast hmax
    have hpos' : 0 < n := by
      rw [← hn] at hpos
      exact_mod_cast hpos
    have hsmall : (Py.int n).tooLarge = false := by
      have hroom := floatRoom_large
      rw [Py.tooLarge, decide_eq_false_iff_not]
      omega
    rw [_validate_positive_float, hsmall, h, max_exact]
    exact congrArg Except.ok (if_neg hno)
  | float bits =>
    rw [_validate_positive_float, h, max_exact]
    exact congrArg Except.ok (if_neg hno)
  | _ => cases h

variable {host fs lower} in
/-- the arguments are in range, and the events are there -/
theorem bursts_run {session : Path ν} {since_last_clear : Bool} {decoded : Dict}
    {events inScope : List Dict} (hread : read_session_dtj host fs session = .ok decoded)
    (hok : (get decoded "ok").truthy = true) (hevents : _events decoded = .ok events)
    (hscope : _scope_events host.python lower events { since_last_clear := since_last_clear }
      = .ok inScope)
    {window_sec : Py} {w : ℚ} {m t : Nat} (hwindow : window_sec.exact = some w) (hw : 0 < w)
    (hmax : w ≤ 3600) (hm : 1 ≤ m) (hm' : m ≤ 500) (ht : 1 ≤ t) (ht' : t ≤ 100) :
    bursts_dtj host fs lower session window_sec (.int m) (.int t) since_last_clear
      = .ok (burstsResult host session decoded inScope window_sec m t) := by
  have hcount : _validate_min_count (.int m) = none := by
    rw [_validate_min_count, if_neg]
    unfold MAX_LIMIT
    omega
  have htop : _validate_top (.int t) = none := by
    rw [_validate_top, if_neg]
    unfold MAX_TOP
    omega
  unfold bursts_dtj
  rw [positive_float_ok hwindow hw hmax, hcount, htop]
  dsimp only
  rw [hread]
  dsimp only [bind, Except.bind]
  rw [hok, hevents]
  dsimp only
  rw [hscope]
  rfl

/-- **Every burst is a run of events of one tag within the window, no two overlap, and a run is met
by one if it has `2 m - 2` events, or has `m` and the event before it does not reach it.** -/
theorem bursts_found (session : Path ν) (since_last_clear : Bool) {decoded : Dict}
    {events inScope : List Dict} (hread : read_session_dtj host fs session = .ok decoded)
    (hok : (get decoded "ok").truthy = true) (hevents : _events decoded = .ok events)
    (hscope : _scope_events host.python lower events { since_last_clear := since_last_clear }
      = .ok inScope)
    (hsorted : Ordered (timed events)) :
    let es := timed inScope
    let found := fun (w : ℚ) (m : Nat) => burstSpans host.python w m es es.length 0
    (∀ (w : ℚ) (m : Nat), 0 < w → 1 ≤ m →
      (∀ r ∈ found w m, m ≤ r.2 - r.1 ∧ r.1 < r.2 ∧ r.2 ≤ es.length
        ∧ Together host.python w (stretch es r.1 r.2))
      ∧ (found w m).Pairwise (fun r s => r.2 ≤ s.1)
      ∧ ∀ lo hi, lo + m ≤ hi → hi ≤ es.length → Together host.python w (stretch es lo hi) →
        2 * m ≤ hi - lo + 2 ∨ Fresh host.python w es lo → ∃ r ∈ found w m, r.1 < hi ∧ lo < r.2)
    ∧ ∀ (window_sec : Py) (w : ℚ) (m t : Nat), window_sec.exact = some w → 0 < w → w ≤ 3600 →
      1 ≤ m → m ≤ 500 → 1 ≤ t → t ≤ 100 →
      ∃ text, bursts_dtj host fs lower session window_sec (.int m) (.int t) since_last_clear
        = .ok (_ok host session decoded [("bursts", .list ((topBursts host.python window_sec t es
          (found w m)).map .dict)), ("text", .str text)]) := by
  have hsub : (timed inScope).Sublist (timed events) := (scope_sublist hscope).filter _
  have hsortedScope : Ordered (timed inScope) := hsorted.sublist hsub
  refine ⟨?_, ?_⟩
  · intro w m hw hm
    refine ⟨fun r hr => burst_sound hw.le hsortedScope hr, bursts_disjoint _ _ _ _, ?_⟩
    intro lo hi hlong hhi htogether hseen
    exact burst_complete hsortedScope hm hlong hhi htogether hseen
  · intro window_sec w m t hwindow hw hmax hm hm' ht ht'
    refine ⟨burstsText (timed inScope) (topBursts host.python window_sec t (timed inScope)
      (burstSpans host.python w m (timed inScope) (timed inScope).length 0)), ?_⟩
    rw [bursts_run hread hok hevents hscope hwindow hw hmax hm hm' ht ht', burstsResult, hwindow]
    rfl

end

/-- an event of one second -/
def tickAt (seq second : Int) : Dict :=
  [("event_sequence", .int seq), ("monotonic_ns", .int (second * 1000000000)),
    ("category", .str "Net"), ("event_name", .str "Rx"), ("payload", .list [])]

/-- the second window starts in the middle of the last three events -/
def tickEvents : List Dict := [tickAt 1 0, tickAt 2 9, tickAt 3 11, tickAt 4 12]

theorem bursts_found_example : ∃ text, bursts_dtj (eventsHost tickEvents) exampleFs id
    (examplePath "s.dtj") (.int 10) (.int 2) (.int 10) false
      = .ok (_ok (eventsHost tickEvents) (examplePath "s.dtj")
        [("ok", .bool true), ("events", .list (tickEvents.map .dict))]
        [("bursts", .list ((topBursts examplePython (.int 10) 10 (timed tickEvents)
          (burstSpans examplePython 10 2 (timed tickEvents) 4 0)).map .dict)),
        ("text", .str text)]) := by
  have hsorted : Ordered (timed tickEvents) := by decide +kernel
  exact (bursts_found (eventsHost tickEvents) exampleFs id (examplePath "s.dtj") false rfl rfl rfl rfl
    hsorted).2 (.int 10) 10 2 10 rfl (by norm_num) (by norm_num) (by norm_num) (by norm_num)
    (by norm_num) (by norm_num)

/-- **The events at 9, 11 and 12 seconds are within ten seconds, and no burst of three is found.** -/
theorem restart_misses : Ordered (timed tickEvents)
    ∧ Together examplePython 10 (stretch (timed tickEvents) 1 4)
    ∧ burstSpans examplePython 10 3 (timed tickEvents) 4 0 = []
    ∧ bursts_dtj (eventsHost tickEvents) exampleFs id (examplePath "s.dtj") (.int 10) (.int 3)
      (.int 10) false = .ok (_ok (eventsHost tickEvents) (examplePath "s.dtj")
        [("ok", .bool true), ("events", .list (tickEvents.map .dict))]
        [("bursts", .list []), ("text", .str "No bursts found.")]) := by
  have hnone : burstSpans examplePython 10 3 (timed tickEvents) 4 0 = [] := by decide +kernel
  have htop : topBursts examplePython (.int 10) 10 (timed tickEvents)
      (burstSpans examplePython 10 3 (timed tickEvents) 4 0) = [] := by
    simp [hnone, topBursts]
  refine ⟨by decide +kernel, by unfold Together; decide +kernel, hnone, ?_⟩
  refine (bursts_run (w := 10) (m := 3) (t := 10) rfl rfl rfl rfl (rfl : (Py.int 10).exact = _)
    (by norm_num) (by norm_num) (by norm_num) (by norm_num) (by norm_num) (by norm_num)).trans ?_
  show Except.ok (_ok _ _ _ [("bursts", .list ((topBursts examplePython (.int 10) 10
    (timed tickEvents) (burstSpans examplePython 10 3 (timed tickEvents) 4 0)).map .dict)),
    ("text", .str (burstsText (timed tickEvents) (topBursts examplePython (.int 10) 10
      (timed tickEvents) (burstSpans examplePython 10 3 (timed tickEvents) 4 0))))]) = _
  rw [htop]
  rfl

end Dtj.Mcp
