import Dtj.Mcp.Report

/-!
# Files next to a session that are read back

An index and a baseline are JSON files that anyone may have written.  `_open_validated_index` reads
the one, `baseline_diff_dtj` the other; both coerce what they find with `int`.

* `_baseline_build`, `baseline_diff_dtj`   the comparison with a baseline;
* `OpenAnswers`, `open_answers_iff`        when the index is read without an exception;
* `DiffAnswers`, `diff_answers_iff`        when the baseline is;
* `accepted_names_iff`                     when an index that is accepted names the source;
* `built_accepted_iff`                     when an index that was just built is accepted;
* `sidecars_checked_iff`                   **the four together**;
* `sidecars_unchecked`                     files for which each of them fails.
-/

namespace Dtj.Mcp

open Posix Wire

/-! ## a baseline -/

structure RedFlag where
  label : Str
  substr : Str
  ci : Bool

def RED_FLAGS : List RedFlag :=
  [⟨"null-angle", "<null>", true⟩, ⟨"null-paren", "(null)", true⟩, ⟨"skip", "skip", true⟩,
    ⟨"clamped", "clamped=True", false⟩,
    ⟨"cached-polyline", "usedCachedPolylineSnapshot=true", false⟩,
    ⟨"canBranch-false", "canBranch=false", false⟩, ⟨"failed", "result=Failed", false⟩,
    ⟨"mismatch", "mismatch", true⟩]

section
variable (python : Python) (lower : Str → Str)

def RedFlag.found (flag : RedFlag) (text : Str) : Bool :=
  if flag.ci then Str.within (lower flag.substr) (lower text) else Str.within flag.substr text

/-- the parts of `_Scan` that a baseline has -/
structure Scan where
  categories : List (Str × Int)
  red_counts : List (Str × Int)
  last_mono : Py

/-- a value as the key of a counter, by its text -/
def counted : Py → Except Exc Str
  | .list _ => .error .TypeError
  | .dict _ => .error .TypeError
  | value => .ok (text python value)

def Scan.see (sr : Scan) (event : Dict) : Except Exc Scan := do
  let cat ← counted python ((get event "category").orElse (.str "<none>"))
  let mono := get event "monotonic_ns"
  let text ← _haystack python event
  return { categories := bump sr.categories cat
           red_counts := ((RED_FLAGS.filter fun flag => flag.found lower text).map
             RedFlag.label).foldl bump sr.red_counts
           last_mono := if mono.asInt.isSome then mono else sr.last_mono }

def _scan : Scan → List Dict → Except Exc Scan
  | sr, [] => .ok sr
  | sr, event :: rest => do
    let sr ← sr.see python lower event
    _scan sr rest

structure Baseline where
  lines : Nat
  tags : List (Str × Int)
  categories : List (Str × Int)
  red_flags : List (Str × Int)
  last_monotonic_ns : Py

/-- `dict(counter)` -/
def ofCounts (c : List (Str × Int)) : Dict := c.map fun entry => (entry.1, .int entry.2)

def Baseline.toDict (b : Baseline) : Dict :=
  [("version", .int 1), ("format", .str "dtj-baseline-v1"), ("lines", .int b.lines),
    ("tags", .dict (ofCounts b.tags)), ("categories", .dict (ofCounts b.categories)),
    ("red_flags", .dict (ofCounts b.red_flags)), ("last_monotonic_ns", b.last_monotonic_ns)]

def _baseline_build (events : List Dict) : Except Exc Baseline := do
  let sr ← _scan python lower ⟨[], [], .none⟩ events
  return { lines := events.length
           tags := counter (events.map (_tag python))
           categories := sr.categories
           red_flags := sr.red_counts
           last_monotonic_ns := sr.last_mono }

/-! ## the comparison -/

/-- `int(d.get(name, 0) or 0)` -/
def intOf (d : Dict) (name : Str) : Except Exc Int :=
  python.toInt ((getD d name (.int 0)).orElse (.int 0))

/-- `base.get(key, {})`, if that is an object -/
def part (base : Dict) (key : Str) : Dict :=
  match get base key with
  | .dict d => d
  | _ => []

/-- the lines of the names whose counts differ, with the differences -/
def changes (base cur : Dict) : List Str → Except Exc (List (Nat × Str))
  | [] => .ok []
  | name :: rest => do
    let a ← intOf python base name
    let b ← intOf python cur name
    let others ← changes base cur rest
    return if a ≠ b then
      ((b - a).natAbs, lit "  " ++ name ++ lit ": " ++ Str.ofInt a ++ lit " → " ++ Str.ofInt b) :: others
    else others

/-- the members of `set(base) | set(cur)`; `order` is how Python goes over them -/
def members (order : List Str → List Str) (base cur : Dict) : List Str :=
  order (base.map Prod.fst ++ cur.map Prod.fst).dedup

def orNone (rows : List Str) : List Str := if rows.isEmpty then [lit "  (none)"] else rows

end

section
variable {ν : Type} (host : Host ν) (lower : Str → Str) (order : List Str → List Str) (fs : Fs ν)

/-- `json.load` of a file that is opened as UTF-8: a text is that of a `JSONDecodeError` -/
def loadText (bytes : List UInt8) : Except (Str ⊕ Exc) Py :=
  if (fromUtf8 bytes).isSome then host.load bytes else .error (.inr .UnicodeDecodeError)

/-- with a baseline that is an object -/
def diffResult (session base_path : Path ν) (decoded base : Dict) : Except Exc Dict := do
  let events ← _events decoded
  let current ← _baseline_build host.python lower events
  let base_tags := part base "tags"
  let cur_tags := ofCounts current.tags
  let tags ← changes host.python base_tags cur_tags (members order base_tags cur_tags)
  let base_rf := part base "red_flags"
  let cur_rf := ofCounts current.red_flags
  let flags ← changes host.python base_rf cur_rf (members order base_rf cur_rf)
  let shown := ((tags.mergeSort fun r s => decide (s.1 ≤ r.1)).take 25).map Prod.snd
  return _ok host session decoded [("baseline_path", .str (host.str base_path)),
    ("baseline", .dict base), ("current", .dict current.toDict),
    ("text", .str (List.intercalate (lit "\n") ([lit "baseline: " ++ host.str base_path,
      lit "lines: " ++ text host.python (get base "lines") ++ lit " → " ++ Str.ofInt current.lines,
      lit "tag diff:"] ++ orNone shown ++ [lit "red flag diff:"] ++ orNone (flags.map Prod.snd))))]

/-- with a session that decodes -/
def comparison (session base_path : Path ν) (decoded : Dict) (bytes : List UInt8) : Except Exc Dict :=
  match loadText host bytes with
  | .error (.inr e) => .error e
  | .error (.inl message) =>
    .ok (_fail host session [("kind", .str "CorruptBaseline"),
      ("message", .str (lit "baseline is not readable JSON: " ++ message)),
      ("baseline_path", .str (host.str base_path))])
  | .ok (.dict base) => diffResult host lower order session base_path decoded base
  | .ok _ =>
    .ok (_fail host session [("kind", .str "CorruptBaseline"),
      ("message", .str "baseline root must be a JSON object")])

/-- `blank` says that `baseline_path` has only white space -/
def baseline_diff_dtj (session base_path : Path ν) (blank : Bool) : Except Exc Dict :=
  if blank then
    .ok (_fail host session [("kind", .str "InvalidPath"),
      ("message", .str "baseline_path must be an explicit non-empty path")])
  else
  match fs.read base_path with
  | none =>
    .ok (_fail host session [("kind", .str "BaselineMissing"),
      ("message", .str (lit "No baseline at " ++ host.str base_path ++ lit ". Call baseline_save first.")),
      ("baseline_path", .str (host.str base_path))])
  | some bytes =>
  match read_session_dtj host fs session with
  | .error e => .error e
  | .ok decoded =>
  if !(get decoded "ok").truthy then .ok decoded
  else comparison host lower order session base_path decoded bytes

end

/-! ## when the comparison answers -/

/-- `int(value)` answers -/
def Converts (python : Python) (value : Py) : Prop := ∃ n, python.toInt value = .ok n

section
variable {python : Python} {lower : Str → Str}

/-- the texts of an event can be made, and its category can be counted -/
structure Scannable (python : Python) (e : Dict) : Prop where
  category : ∃ s, counted python ((get e "category").orElse (.str "<none>")) = .ok s
  haystack : ∃ s, _haystack python e = .ok s

variable (lower) in
theorem see_ok_iff (sr : Scan) (e : Dict) :
    (∃ sr', sr.see python lower e = .ok sr') ↔ Scannable python e := by
  unfold Scan.see
  constructor
  · rintro ⟨sr', h⟩
    obtain ⟨cat, hcat, h⟩ := bind_eq_ok h
    obtain ⟨text, htext, -⟩ := bind_eq_ok h
    exact ⟨⟨cat, hcat⟩, text, htext⟩
  · rintro ⟨⟨cat, hcat⟩, text, htext⟩
    rw [hcat, htext]
    exact ⟨_, rfl⟩

variable (lower) in
theorem scan_ok_iff (sr : Scan) (events : List Dict) :
    (∃ sr', _scan python lower sr events = .ok sr') ↔ ∀ e ∈ events, Scannable python e := by
  induction events generalizing sr with
  | nil => simp [_scan]
  | cons e rest ih =>
    rw [_scan, List.forall_mem_cons]
    constructor
    · rintro ⟨sr', h⟩
      obtain ⟨next, hnext, h⟩ := bind_eq_ok h
      exact ⟨(see_ok_iff lower sr e).mp ⟨next, hnext⟩, (ih next).mp ⟨sr', h⟩⟩
    · rintro ⟨he, hrest⟩
      obtain ⟨next, hnext⟩ := (see_ok_iff lower sr e).mpr he
      rw [hnext]
      exact (ih next).mpr hrest

variable (lower) in
theorem baseline_ok_iff (events : List Dict) :
    (∃ b, _baseline_build python lower events = .ok b) ↔ ∀ e ∈ events, Scannable python e := by
  rw [← scan_ok_iff lower ⟨[], [], .none⟩ events, _baseline_build]
  constructor
  · rintro ⟨b, h⟩
    obtain ⟨sr, hsr, -⟩ := bind_eq_ok h
    exact ⟨sr, hsr⟩
  · rintro ⟨sr, hsr⟩
    rw [hsr]
    exact ⟨_, rfl⟩

/-- the counts of the session itself convert -/
theorem intOf_counts (python : Python) (c : List (Str × Int)) (name : Str) :
    ∃ n, intOf python (ofCounts c) name = .ok n := by
  have hint : ∃ n, getD (ofCounts c) name (.int 0) = .int n := by
    induction c with
    | nil => exact ⟨0, rfl⟩
    | cons entry rest ih =>
      rw [getD, ofCounts, List.map_cons, List.lookup_cons]
      cases name == entry.1 with
      | true => exact ⟨entry.2, rfl⟩
      | false => exact ih
  obtain ⟨n, hn⟩ := hint
  rw [intOf, hn, Py.orElse]
  split_ifs
  · exact ⟨n, rfl⟩
  · exact ⟨0, rfl⟩

theorem changes_ok_iff (base : Dict) (c : List (Str × Int)) (names : List Str) :
    (∃ rows, changes python base (ofCounts c) names = .ok rows)
      ↔ ∀ name ∈ names, ∃ n, intOf python base name = .ok n := by
  induction names with
  | nil => simp [changes]
  | cons name rest ih =>
    rw [changes, List.forall_mem_cons, ← ih]
    obtain ⟨b, hb⟩ := intOf_counts python c name
    constructor
    · rintro ⟨rows, h⟩
      obtain ⟨a, ha, h⟩ := bind_eq_ok h
      obtain ⟨_, _, h⟩ := bind_eq_ok h
      obtain ⟨others, hothers, -⟩ := bind_eq_ok h
      exact ⟨⟨a, ha⟩, others, hothers⟩
    · rintro ⟨⟨a, ha⟩, others, hothers⟩
      rw [ha, hb, hothers]
      exact ⟨_, rfl⟩

/-- every value of `d` converts, or what is missing there -/
def CountsConvert (python : Python) (d : Dict) : Prop :=
  ∀ name, Converts python ((getD d name (.int 0)).orElse (.int 0))

theorem changes_members_iff {order : List Str → List Str} (horder : ∀ names s, s ∈ order names ↔ s ∈ names)
    (base : Dict) (c : List (Str × Int)) :
    (∃ rows, changes python base (ofCounts c) (members order base (ofCounts c)) = .ok rows)
      ↔ CountsConvert python base := by
  rw [changes_ok_iff]
  constructor
  · intro h name
    by_cases hname : name ∈ base.map Prod.fst
    · apply h name
      rw [members, horder, List.mem_dedup]
      exact List.mem_append_left _ hname
    · have hnone : base.lookup name = none := by
        rw [List.lookup_eq_none_iff]
        rintro entry hentry
        rw [bne_iff_ne]
        rintro rfl
        exact hname (List.mem_map_of_mem hentry)
      rw [getD, hnone]
      exact ⟨0, rfl⟩
  · intro h name _
    exact h name

end

section
variable {ν : Type} (host : Host ν) (lower : Str → Str) (order : List Str → List Str) (fs : Fs ν)

/-- a baseline of these bytes can be compared with the session, or is refused: it is UTF-8, its JSON is
read or refused by the JSON reader, and the counts in it convert -/
structure Comparable (decoded : Dict) (bytes : List UInt8) : Prop where
  text : (fromUtf8 bytes).isSome = true
  json : ∀ e, host.load bytes ≠ .error (.inr e)
  events : ∀ base, host.load bytes = .ok (.dict base) →
    ∃ events, _events decoded = .ok events ∧ ∀ e ∈ events, Scannable host.python e
  tags : ∀ base, host.load bytes = .ok (.dict base) → CountsConvert host.python (part base "tags")
  red_flags : ∀ base, host.load bytes = .ok (.dict base) →
    CountsConvert host.python (part base "red_flags")

/-- with a baseline that is there: the session is there, and the decoder answers -/
def DiffAnswers (session base_path : Path ν) : Prop :=
  ∀ bytes, fs.read base_path = some bytes → ∃ source decoded, fs.read session = some source
    ∧ host.read_session session source = .ok decoded
    ∧ ((get decoded "ok").truthy = true → Comparable host decoded bytes)

variable {host lower order fs}

theorem diffResult_ok_iff (horder : ∀ names s, s ∈ order names ↔ s ∈ names) {session base_path : Path ν}
    {decoded base : Dict} : (∃ r, diffResult host lower order session base_path decoded base = .ok r)
      ↔ (∃ events, _events decoded = .ok events ∧ ∀ e ∈ events, Scannable host.python e)
        ∧ CountsConvert host.python (part base "tags")
        ∧ CountsConvert host.python (part base "red_flags") := by
  constructor
  · rintro ⟨r, h⟩
    unfold diffResult at h
    obtain ⟨events, hevents, h⟩ := bind_eq_ok h
    obtain ⟨current, hcurrent, h⟩ := bind_eq_ok h
    obtain ⟨tags, htags, h⟩ := bind_eq_ok h
    obtain ⟨flags, hflags, -⟩ := bind_eq_ok h
    exact ⟨⟨events, hevents, (baseline_ok_iff lower events).mp ⟨current, hcurrent⟩⟩,
      (changes_members_iff horder _ _).mp ⟨tags, htags⟩,
      (changes_members_iff horder _ _).mp ⟨flags, hflags⟩⟩
  · rintro ⟨⟨events, hevents, hscan⟩, htags, hflags⟩
    obtain ⟨current, hcurrent⟩ := (baseline_ok_iff lower events).mpr hscan
    obtain ⟨tags, htags⟩ := (changes_members_iff horder _ current.tags).mpr htags
    obtain ⟨flags, hflags⟩ := (changes_members_iff horder _ current.red_flags).mpr hflags
    unfold diffResult
    rw [hevents]
    dsimp only [bind, Except.bind]
    rw [hcurrent]
    dsimp only
    rw [htags]
    dsimp only
    rw [hflags]
    exact ⟨_, rfl⟩

theorem comparison_ok_iff (horder : ∀ names s, s ∈ order names ↔ s ∈ names) {session base_path : Path ν}
    {decoded : Dict} {bytes : List UInt8} :
    (∃ r, comparison host lower order session base_path decoded bytes = .ok r)
      ↔ Comparable host decoded bytes := by
  unfold comparison loadText
  cases htext : (fromUtf8 bytes).isSome with
  | false =>
    constructor
    · rintro ⟨r, h⟩
      cases h
    · intro h
      rw [h.text] at htext
      cases htext
  | true =>
  rw [if_pos rfl]
  have hno : ∀ v, host.load bytes = v → (∀ base, v ≠ .ok (.dict base)) → (∀ e, v ≠ .error (.inr e)) →
      Comparable host decoded bytes := by
    rintro v rfl hdict hexc
    exact ⟨htext, hexc, fun base h => absurd h (hdict base), fun base h => absurd h (hdict base),
      fun base h => absurd h (hdict base)⟩
  cases hload : host.load bytes with
  | error e =>
    cases e with
    | inl message =>
      exact ⟨fun _ => hno _ hload (fun _ h => by cases h) (fun _ h => by cases h), fun _ => ⟨_, rfl⟩⟩
    | inr e =>
      constructor
      · rintro ⟨r, h⟩
        cases h
      · intro h
        exact absurd hload (h.json e)
  | ok v =>
    cases v with
    | dict base =>
      dsimp only
      rw [diffResult_ok_iff horder]
      constructor
      · rintro ⟨hevents, htags, hflags⟩
        refine ⟨htext, ?_, ?_, ?_, ?_⟩
        · rw [hload]
          exact fun e h => by cases h
        all_goals
          intro base' h
          rw [hload] at h
          cases h
          assumption
      · intro h
        exact ⟨h.events base hload, h.tags base hload, h.red_flags base hload⟩
    | _ =>
      exact ⟨fun _ => hno _ hload (fun _ h => by cases h) (fun _ h => by cases h), fun _ => ⟨_, rfl⟩⟩

/-- **the comparison with a baseline answers exactly when the baseline is comparable** -/
theorem diff_answers_iff (horder : ∀ names s, s ∈ order names ↔ s ∈ names) {session base_path : Path ν}
    {blank : Bool} : (∃ r, baseline_diff_dtj host lower order fs session base_path blank = .ok r)
      ↔ (blank = false → DiffAnswers host fs session base_path) := by
  unfold baseline_diff_dtj DiffAnswers
  cases blank with
  | true => simp
  | false =>
    rw [if_neg Bool.false_ne_true]
    cases hbytes : fs.read base_path with
    | none => simp
    | some bytes =>
    cases hsource : fs.read session with
    | none => simp [read_session_dtj, hsource]
    | some source =>
    rw [read_session_dtj, hsource]
    constructor
    · rintro ⟨r, h⟩ - bytes' hbytes'
      cases hbytes'
      dsimp only at h
      cases hdecoded : host.read_session session source with
      | error e =>
        rw [hdecoded] at h
        cases h
      | ok decoded =>
        refine ⟨source, decoded, rfl, hdecoded, fun hok => ?_⟩
        rw [hdecoded] at h
        dsimp only at h
        rw [hok] at h
        exact (comparison_ok_iff horder).mp ⟨r, h⟩
    · intro h
      obtain ⟨source', decoded, hsource', hdecoded, hcomparable⟩ := h rfl bytes rfl
      cases hsource'
      dsimp only
      rw [hdecoded]
      dsimp only
      cases hok : (get decoded "ok").truthy with
      | false => exact ⟨decoded, rfl⟩
      | true => exact (comparison_ok_iff horder).mpr (hcomparable hok)

end

/-! ## when an index answers -/

section
variable {ν : Type} (host : Host ν) (fs : Fs ν)

/-- `doc.get(key) or -1` -/
def orMinusOne (doc : Dict) (key : Str) : Py := (get doc key).orElse (.int (-1))

/-- a document of this format and schema, of the session with this path -/
structure Claims (doc : Dict) (identity : Identity) : Prop where
  format : (get doc "format").isText INDEX_FORMAT = true
  schema : host.python.isInt (get doc "schema_version") INDEX_SCHEMA_VERSION = true
  source_path : (get doc "source_path").isText identity.source_path = true

/-- an index of these bytes can be looked at: the JSON is read or refused by the JSON reader; the size
of a document of this session converts, and its time when the size is right -/
structure Openable (identity : Identity) (bytes : List UInt8) : Prop where
  json : ∀ e, host.load bytes ≠ .error (.inr e)
  numbers : ∀ doc, host.load bytes = .ok (.dict doc) → Claims host doc identity →
    Converts host.python (orMinusOne doc "source_size")
    ∧ (host.python.toInt (orMinusOne doc "source_size") = .ok identity.source_size →
      Converts host.python (orMinusOne doc "source_mtime_ns"))

/-- with an index that is there, and a session -/
def OpenAnswers (session index : Path ν) : Prop :=
  ∀ bytes identity, fs.read index = some bytes → host.stat fs session = some identity →
    Openable host identity bytes

variable {host fs}

/-- the end of the checks: after the format and the schema -/
theorem identity_matches_ok_iff {doc : Dict} {identity : Identity} :
    (∃ b, _identity_matches host doc identity = .ok b)
      ↔ ((get doc "source_path").isText identity.source_path = true →
        Converts host.python (orMinusOne doc "source_size")
        ∧ (host.python.toInt (orMinusOne doc "source_size") = .ok identity.source_size →
          Converts host.python (orMinusOne doc "source_mtime_ns"))) := by
  unfold _identity_matches Converts
  rw [← orMinusOne, ← orMinusOne]
  cases (get doc "source_path").isText identity.source_path with
  | false => simp [pure, Except.pure]
  | true =>
    cases host.python.toInt (orMinusOne doc "source_size") with
    | error e => simp [bind, Except.bind]
    | ok size =>
      by_cases hsize : size = identity.source_size
      · cases host.python.toInt (orMinusOne doc "source_mtime_ns") with
        | error e => simp [bind, Except.bind, hsize]
        | ok mtime => simp [bind, Except.bind, pure, Except.pure, hsize]
      · simp [bind, Except.bind, pure, Except.pure, hsize]

/-- what is opened, of a document with the format and the schema -/
def openedAs (host : Host ν) (session index : Path ν) (doc : Dict) (current : Bool) : Dict :=
  if current then [("ok", .bool true), ("doc", .dict doc)]
  else _error host session index [("kind", .str "StaleIndex"),
    ("message", .str (lit "index source identity does not match current session file " ++
      lit "(path/size/mtime_ns + stored header metadata); rebuild required"))]

theorem open_document {session index : Path ν} {bytes : List UInt8} {identity : Identity} {doc : Dict}
    (hread : fs.read index = some bytes) (hstat : host.stat fs session = some identity)
    (hload : host.load bytes = .ok (.dict doc))
    (hformat : (get doc "format").isText INDEX_FORMAT = true)
    (hschema : host.python.isInt (get doc "schema_version") INDEX_SCHEMA_VERSION = true) :
    _open_validated_index host fs session index
      = (_identity_matches host doc identity).map (openedAs host session index doc) := by
  have hsome : (get doc "schema_version").isNone = false := by
    cases hversion : get doc "schema_version" with
    | none =>
      rw [hversion] at hschema
      cases hschema
    | _ => rfl
  unfold _open_validated_index
  rw [hread]
  dsimp only
  rw [hstat]
  dsimp only
  rw [hload]
  dsimp only
  rw [hformat, hsome, hschema]
  cases _identity_matches host doc identity with
  | error e => rfl
  | ok current => cases current <;> rfl

/-- every other document is refused -/
theorem open_refused (session : Path ν) {index : Path ν} {bytes : List UInt8} {identity : Identity} {doc : Dict}
    (hread : fs.read index = some bytes) (hstat : host.stat fs session = some identity)
    (hload : host.load bytes = .ok (.dict doc))
    (hno : ¬ ((get doc "format").isText INDEX_FORMAT = true
      ∧ host.python.isInt (get doc "schema_version") INDEX_SCHEMA_VERSION = true)) :
    ∃ error, _open_validated_index host fs session index = .ok (_error host session index error) := by
  unfold _open_validated_index
  rw [hread]
  dsimp only
  rw [hstat]
  dsimp only
  rw [hload]
  dsimp only
  cases hformat : (get doc "format").isText INDEX_FORMAT with
  | false => exact ⟨_, rfl⟩
  | true =>
  cases (get doc "schema_version").isNone with
  | true => exact ⟨_, rfl⟩
  | false =>
  cases hschema : host.python.isInt (get doc "schema_version") INDEX_SCHEMA_VERSION with
  | false => exact ⟨_, rfl⟩
  | true => exact absurd ⟨hformat, hschema⟩ hno

/-- **the index answers exactly when its size and time convert, where they are looked at** -/
theorem open_answers_iff {session index : Path ν} :
    (∃ r, _open_validated_index host fs session index = .ok r) ↔ OpenAnswers host fs session index := by
  unfold OpenAnswers
  cases hread : fs.read index with
  | none =>
    unfold _open_validated_index
    rw [hread]
    simp
  | some bytes =>
  cases hstat : host.stat fs session with
  | none =>
    unfold _open_validated_index
    rw [hread, hstat]
    simp
  | some identity =>
  have hone : (∀ bytes' identity', some bytes = some bytes' → some identity = some identity' →
      Openable host identity' bytes') ↔ Openable host identity bytes :=
    ⟨fun h => h bytes identity rfl rfl, by rintro h _ _ ⟨⟩ ⟨⟩; exact h⟩
  rw [hone]
  have hno : ∀ v, host.load bytes = v → (∀ doc, v ≠ .ok (.dict doc)) → (∀ e, v ≠ .error (.inr e)) →
      Openable host identity bytes := by
    rintro v rfl hdict hexc
    exact ⟨hexc, fun doc h => absurd h (hdict doc)⟩
  cases hload : host.load bytes with
  | error e =>
    cases e with
    | inl message =>
      refine ⟨fun _ => hno _ hload (fun _ h => by cases h) (fun _ h => by cases h), fun _ => ?_⟩
      unfold _open_validated_index
      rw [hread, hstat]
      dsimp only
      rw [hload]
      exact ⟨_, rfl⟩
    | inr e =>
      constructor
      · rintro ⟨r, h⟩
        unfold _open_validated_index at h
        rw [hread, hstat] at h
        dsimp only at h
        rw [hload] at h
        cases h
      · intro h
        exact absurd hload (h.json e)
  | ok v =>
    cases v with
    | dict doc =>
      by_cases hchecked : (get doc "format").isText INDEX_FORMAT = true
          ∧ host.python.isInt (get doc "schema_version") INDEX_SCHEMA_VERSION = true
      · have hmap : (∃ r, (_identity_matches host doc identity).map (openedAs host session index doc)
            = .ok r) ↔ ∃ b, _identity_matches host doc identity = .ok b := by
          cases _identity_matches host doc identity with
          | error e => simp [Except.map]
          | ok b => simp [Except.map]
        rw [open_document hread hstat hload hchecked.1 hchecked.2, hmap, identity_matches_ok_iff]
        constructor
        · intro h
          refine ⟨?_, ?_⟩
          · intro e he
            rw [hload] at he
            cases he
          · intro doc' hdoc hclaims
            rw [hload] at hdoc
            cases hdoc
            exact h hclaims.source_path
        · intro h hpath
          exact h.numbers doc hload ⟨hchecked.1, hchecked.2, hpath⟩
      · obtain ⟨error, herror⟩ := open_refused session hread hstat hload hchecked
        rw [herror]
        refine ⟨fun _ => ⟨?_, ?_⟩, fun _ => ⟨_, rfl⟩⟩
        · intro e h
          rw [hload] at h
          cases h
        · intro doc' h hclaims
          rw [hload] at h
          cases h
          exact absurd ⟨hclaims.format, hclaims.schema⟩ hchecked
    | _ =>
      refine ⟨fun _ => hno _ hload (fun _ h => by cases h) (fun _ h => by cases h), fun _ => ?_⟩
      unfold _open_validated_index
      rw [hread, hstat]
      dsimp only
      rw [hload]
      exact ⟨_, rfl⟩

/-! ## what is accepted -/

/-- the document has these very numbers -/
structure NamesSource (doc : Dict) (identity : Identity) : Prop where
  source_path : get doc "source_path" = .str identity.source_path
  source_size : get doc "source_size" = .int identity.source_size
  source_mtime_ns : get doc "source_mtime_ns" = .int identity.source_mtime_ns

/-- an integer other than zero -/
def Counting (value : Py) : Prop := ∃ n, value = .int n ∧ n ≠ 0

theorem orMinusOne_int {doc : Dict} {key : Str} {n : Int} (h : get doc key = .int n) :
    orMinusOne doc key = .int (if n ≠ 0 then n else -1) := by
  rw [orMinusOne, h, Py.orElse, Py.truthy]
  by_cases hn : n = 0
  · simp [hn]
  · simp [hn]

/-- the coerced value is the one of the source: it is the value itself if it counts -/
theorem named_iff {python : Python} {doc : Dict} {key : Str} {n : Int}
    (h : python.toInt (orMinusOne doc key) = .ok n) :
    get doc key = .int n ↔ Counting (get doc key) := by
  constructor
  · intro hkey
    refine ⟨n, hkey, ?_⟩
    rintro rfl
    rw [orMinusOne_int hkey] at h
    cases h
  · rintro ⟨m, hkey, hm⟩
    rw [orMinusOne_int hkey, if_pos hm] at h
    cases h
    exact hkey

theorem identity_matches_true_iff {doc : Dict} {identity : Identity} :
    _identity_matches host doc identity = .ok true
      ↔ (get doc "source_path").isText identity.source_path = true
        ∧ host.python.toInt (orMinusOne doc "source_size") = .ok identity.source_size
        ∧ host.python.toInt (orMinusOne doc "source_mtime_ns") = .ok identity.source_mtime_ns := by
  unfold _identity_matches
  rw [← orMinusOne, ← orMinusOne]
  cases (get doc "source_path").isText identity.source_path with
  | false => simp [pure, Except.pure]
  | true =>
    cases host.python.toInt (orMinusOne doc "source_size") with
    | error e => simp [bind, Except.bind]
    | ok size =>
      by_cases hsize : size = identity.source_size
      · cases host.python.toInt (orMinusOne doc "source_mtime_ns") with
        | error e => simp [bind, Except.bind, hsize]
        | ok mtime => simp [bind, Except.bind, pure, Except.pure, hsize]
      · simp [bind, Except.bind, pure, Except.pure, hsize]

theorem isText_iff {value : Py} {s : Str} : value.isText s = true ↔ value = .str s := by
  cases value with
  | str t => rw [Py.isText, beq_iff_eq, Py.str.injEq]
  | _ => simp [Py.isText]

/-- an index is accepted when its document is of the format and the schema, and its path, size and time
are those of the source -/
theorem index_accepted_iff {session index : Path ν} {doc : Dict} :
    _open_validated_index host fs session index = .ok [("ok", .bool true), ("doc", .dict doc)]
      ↔ ∃ bytes identity, fs.read index = some bytes ∧ host.stat fs session = some identity
        ∧ host.load bytes = .ok (.dict doc) ∧ Claims host doc identity
        ∧ host.python.toInt (orMinusOne doc "source_size") = .ok identity.source_size
        ∧ host.python.toInt (orMinusOne doc "source_mtime_ns") = .ok identity.source_mtime_ns := by
  constructor
  · intro h
    obtain ⟨bytes, found, hread, hload, hopened⟩ := opened_document host h rfl
    cases hopened
    cases hstat : host.stat fs session with
    | none =>
      unfold _open_validated_index at h
      rw [hread, hstat] at h
      cases h
    | some identity =>
    by_cases hchecked : (get doc "format").isText INDEX_FORMAT = true
        ∧ host.python.isInt (get doc "schema_version") INDEX_SCHEMA_VERSION = true
    · rw [open_document hread hstat hload hchecked.1 hchecked.2] at h
      have hmatch : _identity_matches host doc identity = .ok true := by
        cases hmatches : _identity_matches host doc identity with
        | error e =>
          rw [hmatches] at h
          cases h
        | ok b =>
          rw [hmatches] at h
          cases b with
          | false => cases h
          | true => rfl
      obtain ⟨hpath, hsize, hmtime⟩ := identity_matches_true_iff.mp hmatch
      exact ⟨bytes, identity, hread, rfl, hload, ⟨hchecked.1, hchecked.2, hpath⟩, hsize, hmtime⟩
    · obtain ⟨error, herror⟩ := open_refused session hread hstat hload hchecked
      rw [herror] at h
      cases h
  · rintro ⟨bytes, identity, hread, hstat, hload, hclaims, hsize, hmtime⟩
    rw [open_document hread hstat hload hclaims.format hclaims.schema,
      identity_matches_true_iff.mpr ⟨hclaims.source_path, hsize, hmtime⟩]
    rfl

/-- **an index that is accepted names the source exactly when its size and time are integers other than
zero** -/
theorem accepted_names_iff {session index : Path ν} {doc : Dict}
    (h : _open_validated_index host fs session index = .ok [("ok", .bool true), ("doc", .dict doc)]) :
    ∃ identity, host.stat fs session = some identity ∧ (NamesSource doc identity
      ↔ Counting (get doc "source_size") ∧ Counting (get doc "source_mtime_ns")) := by
  obtain ⟨bytes, identity, -, hstat, -, hclaims, hsize, hmtime⟩ := index_accepted_iff.mp h
  refine ⟨identity, hstat, ?_⟩
  rw [← named_iff hsize, ← named_iff hmtime]
  exact ⟨fun hnames => ⟨hnames.source_size, hnames.source_mtime_ns⟩,
    fun hnumbers => ⟨isText_iff.mp hclaims.source_path, hnumbers.1, hnumbers.2⟩⟩

end

/-! ## an index that was just built -/

section
variable {ν : Type} [DecidableEq ν] (host : Host ν) (disk : Disk ν)

theorem document_fields {python : Python} {identity : Identity} {decoded doc : Dict} {events : List Py}
    (h : _build_document python identity decoded events = .ok doc) :
    get doc "format" = .str INDEX_FORMAT ∧ get doc "schema_version" = .int INDEX_SCHEMA_VERSION
      ∧ NamesSource doc identity := by
  unfold _build_document at h
  obtain ⟨normalized, -, h⟩ := bind_eq_ok h
  obtain ⟨chunks_committed, -, h⟩ := bind_eq_ok h
  cases h
  exact ⟨rfl, rfl, rfl, rfl, rfl⟩

/-- **an index that was just built is accepted exactly when it can be read and the size and the time of
the source are not zero** -/
theorem built_accepted_iff {fs₀ fs₁ fs : Fs ν} {session index : Path ν} {built : Dict}
    {identity : Identity}
    (hnew : ∀ name ∈ index.comps.getLast?, Unused (makeParent disk fs₀ index).1 (disk.temp name))
    (hbuilt : index_session_dtj host disk fs₀ session index true = (fs₁, .ok built))
    (hok : (get built "ok").truthy = true) (hround : RoundTrips host disk fs₀ session)
    (hidentity : disk.before = some identity) (hsession : host.stat fs session = some identity)
    (hindex : fs.read index = fs₁.read index) :
    (∃ doc, _open_validated_index host fs session index = .ok [("ok", .bool true), ("doc", .dict doc)])
      ↔ (fs.read index).isSome = true ∧ identity.source_size ≠ 0 ∧ identity.source_mtime_ns ≠ 0 := by
  obtain ⟨decoded, doc, events, -, -, -, before, hbefore, hdoc, hload⟩ :=
    built_document host disk hnew hbuilt hok hround
  rw [hidentity] at hbefore
  cases hbefore
  obtain ⟨hformat, hschema, hnames⟩ := document_fields hdoc
  have hnumber : ∀ n : Int, host.python.toInt (.int (if n ≠ 0 then n else -1)) = .ok n ↔ n ≠ 0 := by
    intro n
    show Except.ok _ = Except.ok n ↔ n ≠ 0
    rw [Except.ok.injEq]
    split_ifs with hn
    · exact ⟨fun _ => hn, fun _ => rfl⟩
    · rw [ne_eq, not_not] at hn
      rw [hn]
      decide
  constructor
  · rintro ⟨found, h⟩
    obtain ⟨bytes, identity', hread, hstat, hfound, hclaims, hsize, hmtime⟩ := index_accepted_iff.mp h
    have hloaded := hload bytes (hindex ▸ hread)
    rw [hfound] at hloaded
    cases hloaded
    rw [hsession] at hstat
    cases hstat
    rw [orMinusOne_int hnames.source_size, hnumber] at hsize
    rw [orMinusOne_int hnames.source_mtime_ns, hnumber] at hmtime
    exact ⟨by rw [hread]; rfl, hsize, hmtime⟩
  · rintro ⟨hread, hsize, hmtime⟩
    obtain ⟨bytes, hbytes⟩ := Option.isSome_iff_exists.mp hread
    refine ⟨doc, index_accepted_iff.mpr ⟨bytes, identity, hbytes, hsession, hload bytes (hindex ▸ hbytes), ?_, ?_, ?_⟩⟩
    · exact ⟨isText_iff.mpr hformat, by rw [hschema]; rfl, isText_iff.mpr hnames.source_path⟩
    · rw [orMinusOne_int hnames.source_size, hnumber]
      exact hsize
    · rw [orMinusOne_int hnames.source_mtime_ns, hnumber]
      exact hmtime

/-- **Both files are read without an exception exactly when what is coerced converts; an index that is
accepted names the source exactly when its numbers are integers other than zero; and one that was just
built is accepted exactly when those of the source are not zero.** -/
theorem sidecars_checked_iff (lower : Str → Str) (order : List Str → List Str)
    (horder : ∀ names s, s ∈ order names ↔ s ∈ names) :
    (∀ (fs : Fs ν) session index, (∃ r, _open_validated_index host fs session index = .ok r)
      ↔ OpenAnswers host fs session index)
    ∧ (∀ (fs : Fs ν) session base_path blank,
      (∃ r, baseline_diff_dtj host lower order fs session base_path blank = .ok r)
        ↔ (blank = false → DiffAnswers host fs session base_path))
    ∧ (∀ (fs : Fs ν) session index doc,
      _open_validated_index host fs session index = .ok [("ok", .bool true), ("doc", .dict doc)] →
      ∃ identity, host.stat fs session = some identity ∧ (NamesSource doc identity
        ↔ Counting (get doc "source_size") ∧ Counting (get doc "source_mtime_ns")))
    ∧ ∀ (fs₀ fs₁ fs : Fs ν) session index built identity,
      (∀ name ∈ index.comps.getLast?, Unused (makeParent disk fs₀ index).1 (disk.temp name)) →
      index_session_dtj host disk fs₀ session index true = (fs₁, .ok built) →
      (get built "ok").truthy = true → RoundTrips host disk fs₀ session →
      disk.before = some identity → host.stat fs session = some identity →
      fs.read index = fs₁.read index →
      ((∃ doc, _open_validated_index host fs session index
          = .ok [("ok", .bool true), ("doc", .dict doc)])
        ↔ (fs.read index).isSome = true ∧ identity.source_size ≠ 0 ∧ identity.source_mtime_ns ≠ 0) := by
  refine ⟨fun fs session index => open_answers_iff,
    fun fs session base_path blank => diff_answers_iff horder,
    fun fs session index doc h => accepted_names_iff h, ?_⟩
  intro fs₀ fs₁ fs session index built identity hnew hbuilt hok hround hidentity hsession hindex
  exact built_accepted_iff host disk hnew hbuilt hok hround hidentity hsession hindex

end

/-! ## files that are not of the session -/

set_option maxRecDepth 100000 in
theorem sidecars_checked_example :
    ∃ doc, _open_validated_index exampleHost exampleBuilt (examplePath "s.dtj") (examplePath "i.json")
      = .ok [("ok", .bool true), ("doc", .dict doc)] := by
  have hnew : ∀ name ∈ (examplePath "i.json").comps.getLast?,
      Unused (makeParent exampleDisk exampleFs (examplePath "i.json")).1 (exampleDisk.temp name) := by
    rintro name hname
    cases hname
    exact exampleFs_unused (by decide)
  have hbuilt : index_session_dtj exampleHost exampleDisk exampleFs (examplePath "s.dtj")
      (examplePath "i.json") true = (exampleBuilt, .ok exampleReport) := Prod.ext rfl rfl
  exact ((sidecars_checked_iff exampleHost exampleDisk id id fun _ _ => Iff.rfl).2.2.2 exampleFs
    exampleBuilt exampleBuilt (examplePath "s.dtj") (examplePath "i.json") exampleReport exampleIdentity
    hnew hbuilt rfl exampleHost_roundTrips rfl rfl rfl).mpr ⟨rfl, by decide, by decide⟩

/-- a root with the session and one more file -/
def sidecarFs (sidecar : List UInt8) : Fs String where
  nodes
    | 0 => some (.dir (fun x => if x = "s.dtj" then some 1 else if x = "i.json" then some 2 else none) 0)
    | 1 => some (.file journalBytes)
    | 2 => some (.file sidecar)
    | _ => none
  root := 0
  cwd := 0
  limit := 40
  next := 3
  free
    | 0, hi => absurd hi (by decide : ¬ 3 ≤ 0)
    | 1, hi => absurd hi (by decide : ¬ 3 ≤ 1)
    | 2, hi => absurd hi (by decide : ¬ 3 ≤ 2)
    | _ + 3, _ => rfl

/-- a host that reads the JSON of one object -/
def readsOnly (doc : Dict) (identity : Identity) : Host String := { exampleHost with
  stat := fun _ _ => some identity
  load := fun bytes =>
    if bytes = exampleText (.dict doc) ∨ bytes = exampleText (.dict doc) ++ [0x0a] then .ok (.dict doc)
    else .error (.inl "Expecting value: line 1 column 1 (char 0)") }

/-- an index whose size is a list -/
def listSized : Dict :=
  [("format", .str INDEX_FORMAT), ("schema_version", .int 1), ("source_path", .str "/s.dtj"),
    ("source_size", .list [.int 296]), ("source_mtime_ns", .int 7)]

/-- a baseline whose count is a word -/
def wordCounted : Dict := [("tags", .dict [("net.rx", .str "many")])]

def epoch : Identity := ⟨"/s.dtj", 296, 0⟩

def epochDisk : Disk String := { exampleDisk with
  before := some epoch
  after := some epoch }

/-- the document of the session, with the time zero -/
def epochDocument : Dict := exampleDocument.map fun entry =>
  if entry.1 = lit "source_mtime_ns" then (entry.1, .int 0) else entry

theorem wordCounted_text : (fromUtf8 (exampleText (.dict wordCounted))).isSome = true := by
  have h : utf8 "\x7b\"tags\":\x7b\"net.rx\":\"many\"\x7d\x7d" = exampleText (.dict wordCounted) := by
    decide +kernel
  rw [fromUtf8_eq_some.mpr h]
  rfl

set_option maxRecDepth 100000 in
/-- **A list for a size and a word for a count raise; an index of a source of the time zero is refused.**
-/
theorem sidecars_unchecked :
    _open_validated_index (readsOnly listSized exampleIdentity) (sidecarFs (exampleText (.dict listSized)))
      (examplePath "s.dtj") (examplePath "i.json") = .error .TypeError
    ∧ baseline_diff_dtj (readsOnly wordCounted exampleIdentity) id id
      (sidecarFs (exampleText (.dict wordCounted))) (examplePath "s.dtj") (examplePath "i.json") false
      = .error .ValueError
    ∧ ∃ fs₁ built opened, index_session_dtj (readsOnly epochDocument epoch) epochDisk exampleFs
        (examplePath "s.dtj") (examplePath "i.json") true = (fs₁, .ok built)
      ∧ (get built "ok").truthy = true
      ∧ _open_validated_index (readsOnly epochDocument epoch) fs₁ (examplePath "s.dtj")
        (examplePath "i.json") = .ok opened
      ∧ kind opened = .str "StaleIndex" := by
  refine ⟨rfl, ?_, _, exampleReport, _, Prod.ext rfl rfl, rfl, rfl, rfl⟩
  show comparison (readsOnly wordCounted exampleIdentity) id id (examplePath "s.dtj")
    (examplePath "i.json") exampleDecoded (exampleText (.dict wordCounted)) = _
  rw [comparison, loadText, if_pos wordCounted_text]
  rfl

end Dtj.Mcp
