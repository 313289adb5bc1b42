import Dtj.Journal.Frames
import Dtj.Mcp.Search

/-!
# The JSON index of a session

`index_session_dtj` decodes a session into a document, writes it to a temporary file next to the index
and puts it in the place of the index; `search_session_dtj_index` searches the document instead of the
session.

* `_build_document`            the document of a decoded session;
* `_open_validated_index`      the document, when it is one of the session as it is now;
* `publish`, `_build_index_atomic`, `index_session_dtj`   the build, whatever call of it fails (`Disk`);
* `index_search_agrees`        **the search in an index that is accepted answers as the direct one**.
-/

namespace Dtj.Mcp

open Posix

def INDEX_SCHEMA_VERSION : Int := 1
def INDEX_FORMAT : Str := "dtj-json-index-v1"

/-! ## the document -/

/-- one more sequence number under a name of a lookup map -/
def note (name : Str) (seq : Py) : Dict → Dict
  | [] => [(name, .list [seq])]
  | (key, value) :: rest =>
    if key = name then
      (key, match value with
        | .list seqs => .list (seqs ++ [seq])
        | other => other) :: rest
    else (key, value) :: note name seq rest

/-- a lookup map: the sequence numbers of the events by the text under `key` -/
def by_key (key : Str) (events : List Dict) : Dict :=
  events.foldl (fun map event =>
    match get event key with
    | .str name => note name (get event "event_sequence") map
    | _ => map) []

/-- an event that can be indexed: an object with a sequence number -/
def projection : Py → Except Exc Dict
  | .dict event =>
    match get event "event_sequence" with
    | .int _ => .ok event
    | .bool _ => .ok event
    | _ => .error .ValueError
  | _ => .error .ValueError

def _build_document (python : Python) (identity : Identity) (decoded : Dict) (events : List Py) :
    Except Exc Dict := do
  let header : Py :=
    match get decoded "header" with
    | .dict header => .dict header
    | _ => .dict []
  let normalized ← events.mapM projection
  let chunks_committed ← python.toInt ((get decoded "chunks_committed").orElse (.int 0))
  return [("format", .str INDEX_FORMAT), ("schema_version", .int INDEX_SCHEMA_VERSION),
    ("adapter", adapter), ("source_path", .str identity.source_path),
    ("source_size", .int identity.source_size), ("source_mtime_ns", .int identity.source_mtime_ns),
    ("header", header), ("chunks_committed", .int chunks_committed),
    ("torn_tail", .bool (get decoded "torn_tail").truthy), ("event_count", .int normalized.length),
    ("indexes", .dict [("by_domain", .dict (by_key "domain" normalized)),
      ("by_category", .dict (by_key "category" normalized)),
      ("by_event_name", .dict (by_key "event_name" normalized)),
      ("by_correlation", .dict (by_key "correlation" normalized)),
      ("by_severity", .dict (by_key "severity" normalized))]),
    ("events", .list (normalized.map .dict))]

section
variable {ν : Type} (host : Host ν)

def _error (session index : Path ν) (error : Dict) : Dict :=
  [("ok", .bool false), ("adapter", adapter), ("session_path", .str (host.str session)),
    ("index_path", .str (host.str index)), ("error", .dict error)]

def notFound (session index : Path ν) : Dict :=
  _error host session index [("kind", .str "Io"),
    ("message", .str (lit "session file not found: " ++ host.str session))]

/-! ## an index that is there -/

def _identity_matches (doc : Dict) (identity : Identity) : Except Exc Bool := do
  if !(get doc "source_path").isText identity.source_path then
    return false
  if (← host.python.toInt ((get doc "source_size").orElse (.int (-1)))) ≠ identity.source_size then
    return false
  return (← host.python.toInt ((get doc "source_mtime_ns").orElse (.int (-1)))) = identity.source_mtime_ns

variable (fs : Fs ν)

def _open_validated_index (session index : Path ν) : Except Exc Dict :=
  match fs.read index with
  | none =>
    .ok (_error host session index [("kind", .str "IndexMissing"),
      ("message", .str (lit "index file not found: " ++ host.str index))])
  | some bytes =>
  match host.stat fs session with
  | none => .ok (notFound host session index)
  | some identity =>
  match host.load bytes with
  | .error (.inr e) => .error e
  | .error (.inl text) =>
    .ok (_error host session index [("kind", .str "CorruptIndex"),
      ("message", .str (lit "index is not readable JSON: " ++ text))])
  | .ok (.dict doc) =>
    if !(get doc "format").isText INDEX_FORMAT then
      .ok (_error host session index [("kind", .str "CorruptIndex"),
        ("message", .str (lit "index format " ++ host.python.repr (get doc "format") ++ lit " is not " ++
          host.python.repr (.str INDEX_FORMAT)))])
    else if (get doc "schema_version").isNone then
      .ok (_error host session index [("kind", .str "CorruptIndex"),
        ("message", .str "index meta missing schema_version")])
    else if !host.python.isInt (get doc "schema_version") INDEX_SCHEMA_VERSION then
      .ok (_error host session index [("kind", .str "UnsupportedIndexSchema"),
        ("message", .str (lit "index schema_version " ++ host.python.str (get doc "schema_version") ++
          lit " unsupported; expected " ++ Str.ofInt INDEX_SCHEMA_VERSION)),
        ("schema_version", get doc "schema_version"), ("expected", .int INDEX_SCHEMA_VERSION)])
    else do
      if !(← _identity_matches host doc identity) then
        return _error host session index [("kind", .str "StaleIndex"),
          ("message", .str (lit "index source identity does not match current session file " ++
            lit "(path/size/mtime_ns + stored header metadata); rebuild required"))]
      return [("ok", .bool true), ("doc", .dict doc)]
  | .ok _ =>
    .ok (_error host session index [("kind", .str "CorruptIndex"),
      ("message", .str "index root must be a JSON object")])

/-- the loop over the events of an index: `none` where one is no object -/
def indexed (f : Filters) (mono_from_ns mono_to_ns : Option Int) : List Py → Except Exc (Option (List Py))
  | [] => .ok (some [])
  | .dict e :: rest => do
    let keep ← event_matches_native_filters host.python e f mono_from_ns mono_to_ns
    let found ← indexed f mono_from_ns mono_to_ns rest
    return found.map fun found => if keep then .dict e :: found else found
  | _ :: _ => .ok none

def search_session_dtj_index (session index : Path ν) (q : Query) : Except Exc Dict :=
  match validate_search_limit q.limit with
  | some e => .ok (_error host session index e)
  | none =>
  match validate_search_offset q.offset with
  | some e => .ok (_error host session index e)
  | none =>
  match validate_mono_window q.mono_from_ns q.mono_to_ns with
  | some e => .ok (_error host session index e)
  | none => do
    let opened ← _open_validated_index host fs session index
    if !(get opened "ok").truthy then
      return opened
    match get opened "doc" with
    | .dict doc =>
      match get doc "events" with
      | .list raw_events =>
        match ← indexed host q.toFilters q.mono_from_ns.checked q.mono_to_ns.checked raw_events with
        | none =>
          return _error host session index [("kind", .str "CorruptIndex"),
            ("message", .str "index event projection is not an object")]
        | some found =>
          let returned := (found.drop (q.offset.checked.getD 0).toNat).take (q.limit.checked.getD 0).toNat
          return [("ok", .bool true), ("adapter", adapter), ("session_path", .str (host.str session)),
            ("index_path", .str (host.str index)), ("torn_tail", .bool (get doc "torn_tail").truthy),
            ("matched_count", .int found.length), ("returned_count", .int returned.length),
            ("limit", q.limit), ("offset", q.offset), ("events", .list returned)]
      | _ =>
        return _error host session index [("kind", .str "CorruptIndex"),
          ("message", .str "index events list missing or invalid")]
    | _ => .error .TypeError

end

/-! ## the build -/

/-- `path.parent` -/
def parent {ν : Type} (p : Path ν) : Path ν where
  absolute := p.absolute
  comps := p.comps.dropLast

/-- `path.with_name(name)` -/
def with_name {ν : Type} (p : Path ν) (x : ν) : Path ν where
  absolute := p.absolute
  comps := p.comps.dropLast ++ [.name x]

/-- what the system does in one call of a tool: the two `stat`s, the directories that may be made, the
temporary name, and which calls succeed; of the text at most `kept` bytes are written -/
structure Disk (ν : Type) where
  before : Option Identity
  after : Option Identity
  mkdirs : Path ν → Bool
  temp : Comp ν → ν
  unlinks : Bool
  opens : Bool
  kept : Option Nat
  reopens : Bool
  replaces : Bool
  cleans : Bool

section
variable {ν : Type} [DecidableEq ν] (host : Host ν) (disk : Disk ν)

/-- `parent.mkdir(parents=True, exist_ok=True)` -/
def makeParent (fs : Fs ν) (p : Path ν) : Fs ν × Bool :=
  fs.mkdirs disk.mkdirs p.absolute (parent p).comps.length (parent p).comps

/-- a text in a file that is opened for writing: how far it came, and the exception if it stopped -/
def writeText (fs : Fs ν) (p : Path ν) (text : List UInt8 × Bool) : Fs ν × Except Exc Unit :=
  let bytes := if text.2 then text.1 ++ [0x0a] else text.1
  match disk.opens, fs.write p (bytes.take (disk.kept.getD bytes.length)) with
  | true, some fs' =>
    (fs', if disk.kept.isSome then .error .OSError
      else if text.2 then .ok () else .error .UnicodeEncodeError)
  | _, _ => (fs, .error .OSError)

/-- the `try` block of the build -/
def publish (fs : Fs ν) (tmp index : Path ν) (doc : Dict) (events : Nat) : Fs ν × Except Exc Unit :=
  match if fs.isPresent tmp then (if disk.unlinks then fs.unlink tmp else none) else some fs with
  | none => (fs, .error .OSError)
  | some fs =>
  match writeText disk fs tmp (host.dump (.dict doc)) with
  | (fs, .error e) => (fs, .error e)
  | (fs, .ok ()) =>
  match disk.reopens, fs.read tmp with
  | true, some bytes =>
    match host.load bytes with
    | .ok (.dict check) =>
      if !host.python.isInt (get check "schema_version") INDEX_SCHEMA_VERSION then
        (fs, .error .RuntimeError)
      else
        match host.python.toInt (getD check "event_count" (.int (-1))) with
        | .error e => (fs, .error e)
        | .ok count =>
          if count ≠ events then (fs, .error .RuntimeError)
          else
            match disk.replaces, fs.rename tmp index with
            | true, some fs => (fs, .ok ())
            | _, _ => (fs, .error .OSError)
    | .ok _ => (fs, .error .AttributeError)
    | .error (.inr e) => (fs, .error e)
    | .error (.inl _) => (fs, .error .ValueError)
  | _, _ => (fs, .error .OSError)

/-- the `except` block of the build -/
def cleanup (fs : Fs ν) (tmp : Path ν) : Fs ν :=
  if fs.isPresent tmp ∧ disk.cleans then (fs.unlink tmp).getD fs else fs

def _build_index_atomic (fs : Fs ν) (session index : Path ν) : Fs ν × Except Exc Dict :=
  match disk.before with
  | none => (fs, .ok (notFound host session index))
  | some before =>
  match read_session_dtj host fs session with
  | .error e => (fs, .error e)
  | .ok decoded =>
  if !(get decoded "ok").truthy then (fs, .ok decoded)
  else if disk.after ≠ some before then
    (fs, .ok (_error host session index [("kind", .str "SourceChanged"),
      ("message", .str "session source identity changed during decode; index was not published")]))
  else
  match get decoded "events" with
  | .list events =>
    match _build_document host.python before decoded events with
    | .error e => (fs, .error e)
    | .ok doc =>
    match makeParent disk fs index with
    | (fs, false) => (fs, .error .OSError)
    | (fs, true) =>
    match index.comps.getLast? with
    | none => (fs, .error .ValueError)
    | some name =>
    let tmp := with_name index (disk.temp name)
    match publish host disk fs tmp index doc events.length with
    | (fs, .error e) =>
      (cleanup disk fs tmp, .ok (_error host session index [("kind", .str "IndexBuildFailed"),
        ("message", .str (lit "failed to publish index: " ++ lit (reprStr e)))]))
    | (fs, .ok ()) =>
      (fs, do
        let chunks_committed ← host.python.toInt ((get decoded "chunks_committed").orElse (.int 0))
        return [("ok", .bool true), ("adapter", (get decoded "adapter").orElse adapter),
          ("session_path", .str (host.str session)),
          ("index", .dict [("schema_version", .int INDEX_SCHEMA_VERSION), ("path", .str (host.str index)),
            ("status", .str "built"), ("event_count", .int events.length),
            ("chunks_committed", .int chunks_committed),
            ("torn_tail", .bool (get decoded "torn_tail").truthy)])])
  | _ =>
    (fs, .ok (_error host session index [("kind", .str "AdapterInvalidJson"),
      ("message", .str "native DTJ decode missing events list")]))

def _try_reuse_index (fs : Fs ν) (session index : Path ν) : Except Exc Dict := do
  let opened ← _open_validated_index host fs session index
  if !(get opened "ok").truthy then
    return opened
  match get opened "doc" with
  | .dict doc =>
    return [("ok", .bool true), ("adapter", adapter), ("session_path", .str (host.str session)),
      ("index", .dict [("schema_version", .int INDEX_SCHEMA_VERSION), ("path", .str (host.str index)),
        ("status", .str "reused"),
        ("event_count", .int (← host.python.toInt ((get doc "event_count").orElse (.int 0)))),
        ("chunks_committed", .int (← host.python.toInt ((get doc "chunks_committed").orElse (.int 0)))),
        ("torn_tail", .bool (get doc "torn_tail").truthy)])]
  | _ => .error .TypeError

def index_session_dtj (fs : Fs ν) (session index : Path ν) (rebuild : Bool) : Fs ν × Except Exc Dict :=
  if (fs.read session).isNone then (fs, .ok (notFound host session index))
  else if !rebuild then
    if (fs.read index).isNone then
      (fs, .ok (_error host session index [("kind", .str "IndexMissing"),
        ("message", .str (lit "index file not found: " ++ host.str index ++
          lit "; call with rebuild=true to build"))]))
    else (fs, _try_reuse_index host fs session index)
  else _build_index_atomic host disk fs session index

/-! ## the temporary file -/

variable {fs fs' : Fs ν} {index : Path ν} {t : ν}

omit [DecidableEq ν] in
theorem start_with_name : fs.start (with_name index t) = fs.start index := rfl

omit [DecidableEq ν] in
theorem entry_with_name {trail : List (Ino × ν)} {d : Ino}
    (h : fs.walk (fs.limit - 1) (fs.start index) index.comps.dropLast = some (trail, .node d)) :
    fs.entry (with_name index t) = some (d, t) := by
  rw [Fs.entry, start_with_name]
  simp only [with_name, List.getLast?_append, List.getLast?_singleton, Option.some_or,
    List.dropLast_concat, h]

omit [DecidableEq ν] in
/-- the entry of an index, from that of its directory -/
theorem entry_eq_some {e : Ino × ν} (h : fs.entry index = some e) :
    ∃ trail, index.comps.getLast? = some (.name e.2) ∧
      fs.walk (fs.limit - 1) (fs.start index) index.comps.dropLast = some (trail, .node e.1) := by
  unfold Fs.entry at h
  split at h
  · rename_i x trail d hlast hwalk
    cases h
    exact ⟨trail, hlast, hwalk⟩
  · cases h

omit [DecidableEq ν] in
theorem isPresent_unused (ht : Unused fs t) : fs.isPresent (with_name index t) = false := by
  unfold Fs.isPresent
  split
  case h_2 => rfl
  rename_i trail i hp
  obtain ⟨d, hfound, _⟩ := walk_unused (Keeps.refl ∅ ∅ fs) ht hp fun _ _ => id
  cases hfound

/-- a file is written under a name that is not in use: nothing happens, or the file is new -/
inductive Written (disk : Disk ν) (fs : Fs ν) (index : Path ν) (t : ν) (text : List UInt8 × Bool) :
    Fs ν × Except Exc Unit → Prop where
  | closed (hdisk : disk.opens = false ∨ fs.write (with_name index t) [] = none) :
      Written disk fs index t text (fs, .error .OSError)
  | created (trail : List (Ino × ν)) (d : Ino) (bytes : List UInt8) (r : Except Exc Unit)
      (hopens : disk.opens = true)
      (hp : fs.resolve (with_name index t) = some (trail, .absent d t))
      (hr : r = .ok () → disk.kept = none ∧ text.2 = true ∧ bytes = text.1 ++ [0x0a])
      (hok : disk.kept = none → text.2 = true → r = .ok ()) :
      Written disk fs index t text (fs.add d t (.file bytes), r)

variable (index) in
theorem write_unused (ht : Unused fs t) (bytes : List UInt8) :
    (fs.write (with_name index t) bytes = none ∧ fs.write (with_name index t) [] = none) ∨
      ∃ trail d, fs.resolve (with_name index t) = some (trail, .absent d t) ∧
        fs.write (with_name index t) bytes = some (fs.add d t (.file bytes)) := by
  unfold Fs.write
  cases hp : fs.resolve (with_name index t) with
  | none => exact .inl ⟨rfl, rfl⟩
  | some r =>
    obtain ⟨trail, found⟩ := r
    obtain ⟨d, rfl, _⟩ := walk_unused (Keeps.refl ∅ ∅ fs) ht hp fun _ _ => id
    exact .inr ⟨trail, d, rfl, rfl⟩

theorem writeText_spec (ht : Unused fs t) (text : List UInt8 × Bool) :
    Written disk fs index t text (writeText disk fs (with_name index t) text) := by
  unfold writeText
  dsimp only
  set bytes := if text.2 = true then text.1 ++ [0x0a] else text.1 with hbytes
  cases hopens : disk.opens with
  | false => exact .closed (.inl hopens)
  | true =>
    obtain ⟨hnone, hnone'⟩ | ⟨trail, d, hp, hwrite⟩ :=
      write_unused index ht (bytes.take (disk.kept.getD bytes.length))
    · rw [hnone]
      exact .closed (.inr hnone')
    · rw [hwrite]
      refine .created trail d _ _ hopens hp ?_ ?_
      · intro hr
        cases hkept : disk.kept with
        | some k =>
          rw [hkept] at hr
          cases hr
        | none =>
          rw [hkept] at hr
          cases htext : text.2 with
          | false =>
            rw [htext] at hr
            cases hr
          | true =>
            refine ⟨rfl, rfl, ?_⟩
            rw [hbytes, htext, if_pos rfl]
            exact List.take_length
      · intro hkept htext
        rw [hkept, htext]
        rfl

/-! ## the publication -/

/-- no call of a publication fails -/
structure Works (disk : Disk ν) : Prop where
  opens : disk.opens = true
  kept : disk.kept = none
  reopens : disk.reopens = true
  replaces : disk.replaces = true

/-- the entry `e` of an index names the file `j` with the text, and nothing else has changed -/
structure Published (fs : Fs ν) (index : Path ν) (t : ν) (text : List UInt8) (e : Ino × ν) (j : Ino)
    (fs' : Fs ν) : Prop where
  entry : fs.entry index = some e
  old : ∀ k, fs.child e = some k → fs.isDirectory k = false
  keeps : Keeps {(e.1, t), e} ∅ fs fs'
  only : ∀ c ∈ ({(e.1, t), e} : Set (Ino × ν)), ∀ k, fs'.child c = some k → k = j
  new : fs'.child e = some j
  content : fs'.content j = some (text ++ [0x0a])

/-- the file that `os.replace` moves is the one that was written -/
theorem published_of_rename (ht : Unused fs t) {trail : List (Ino × ν)} {d : Ino}
    (hp : fs.resolve (with_name index t) = some (trail, .absent d t)) {text : List UInt8}
    (h : (fs.add d t (.file (text ++ [0x0a]))).rename (with_name index t) index = some fs') :
    ∃ e j, Published fs index t text e j fs' := by
  obtain ⟨entries, par, hd, hx⟩ := walk_absent hp
  have hadd : Keeps ∅ ∅ fs (fs.add d t (.file (text ++ [0x0a]))) := keeps_add hd hx _
  obtain ⟨d', hfound, hback⟩ := walk_unused hadd ht hp fun _ _ => id
  cases hfound
  obtain ⟨e₁, e, j, he₁, he, hj, hold, hkeeps, hnew, honly⟩ := rename_spec h
  obtain ⟨trail', hlast, hwalk⟩ := entry_eq_some he
  have he₁' : e₁ = (e.1, t) := Option.some.inj (he₁.symm.trans (entry_with_name hwalk))
  rw [hadd.limit, hadd.start] at hwalk
  obtain ⟨hend, hwalk'⟩ := hback _ _ hwalk
  have hd₁ : e.1 = d := by
    cases hend
    rfl
  have hchild : j = fs.next := by
    rw [he₁', hd₁, child_add hd t _] at hj
    exact (Option.some.inj hj).symm
  refine ⟨e, j, ?_, ?_, ?_, ?_, hnew, ?_⟩
  · rw [start_with_name] at hwalk'
    rw [Fs.entry, hlast, hwalk']
  · intro k hk
    by_contra hdir
    have hdir' := hadd.isDirectory (by simpa using hdir : fs.isDirectory k = true)
    rw [hold k (hadd.child hk id)] at hdir'
    cases hdir'
  · rw [← he₁']
    exact (hadd.trans hkeeps).mono (by simp) (by simp)
  · rw [← he₁']
    exact honly
  · rw [hchild]
    exact hkeeps.content (content_add d t _) id

theorem publish_ok (ht : Unused fs t) {doc : Dict} {n : Nat}
    (h : publish host disk fs (with_name index t) index doc n = (fs', .ok ())) :
    Works disk ∧ ∃ text e j, host.dump (.dict doc) = (text, true) ∧ Published fs index t text e j fs' := by
  unfold publish at h
  rw [isPresent_unused ht, if_neg Bool.false_ne_true] at h
  dsimp only at h
  have hspec : Written disk fs index t (host.dump (.dict doc)) _ :=
    writeText_spec disk ht _
  generalize writeText disk fs (with_name index t) (host.dump (.dict doc)) = w at h hspec
  cases hspec with
  | closed hdisk => cases h
  | created trail d bytes r hopens hp hr hok =>
    cases r with
    | error e => cases h
    | ok u =>
      obtain ⟨hkept, htext, rfl⟩ := hr rfl
      dsimp only [Bool.false_eq_true, if_false] at h
      split at h
      case h_2 => cases h
      rename_i read hreopens hread
      split at h
      case h_2 => cases h
      case h_3 => cases h
      case h_4 => cases h
      split at h
      · cases h
      split at h
      · cases h
      split at h
      · cases h
      split at h
      case h_2 => cases h
      rename_i renamed hreplaces hrename
      cases h
      obtain ⟨e, j, hpublished⟩ := published_of_rename ht hp hrename
      exact ⟨⟨hopens, hkept, hreopens, hreplaces⟩, _, e, j, Prod.ext rfl htext, hpublished⟩

/-- what fails leaves at most a new file -/
theorem publish_error (ht : Unused fs t) {doc : Dict} {n : Nat} {e : Exc}
    (h : publish host disk fs (with_name index t) index doc n = (fs', .error e)) : Keeps ∅ ∅ fs fs' := by
  unfold publish at h
  rw [isPresent_unused ht, if_neg Bool.false_ne_true] at h
  dsimp only at h
  have hspec : Written disk fs index t (host.dump (.dict doc)) _ :=
    writeText_spec disk ht _
  generalize writeText disk fs (with_name index t) (host.dump (.dict doc)) = w at h hspec
  cases hspec with
  | closed hdisk =>
    cases h
    exact Keeps.refl _ _ _
  | created trail d bytes r hopens hp hr hok =>
    obtain ⟨entries, par, hd, hx⟩ := walk_absent hp
    have hadd : Keeps ∅ ∅ fs (fs.add d t (.file bytes)) := keeps_add hd hx _
    cases r with
    | error e' =>
      cases h
      exact hadd
    | ok u =>
      dsimp only [Bool.false_eq_true, if_false] at h
      split at h
      case h_2 =>
        cases h
        exact hadd
      split at h
      case h_2 =>
        cases h
        exact hadd
      case h_3 =>
        cases h
        exact hadd
      case h_4 =>
        cases h
        exact hadd
      split at h
      · cases h
        exact hadd
      split at h
      · cases h
        exact hadd
      split at h
      · cases h
        exact hadd
      split at h
      · cases h
      · cases h
        exact hadd

/-! ## how a build ends -/

/-- the document of a session comes back from its JSON text -/
def RoundTrips (fs : Fs ν) (session : Path ν) : Prop :=
  ∀ identity decoded events doc text, disk.before = some identity →
    read_session_dtj host fs session = .ok decoded → get decoded "events" = .list events →
    _build_document host.python identity decoded events = .ok doc →
    host.dump (.dict doc) = (text, true) → host.load (text ++ [0x0a]) = .ok (.dict doc)

/-- the steps of a build up to the publication of its document -/
structure Builds (fs : Fs ν) (session index : Path ν) (decoded doc : Dict) (events : List Py) (made : Fs ν)
    (name : Comp ν) : Prop where
  before : ∃ before, disk.before = some before ∧ disk.after = some before ∧
    _build_document host.python before decoded events = .ok doc
  read : read_session_dtj host fs session = .ok decoded
  ok : (get decoded "ok").truthy = true
  events : get decoded "events" = .list events
  made : makeParent disk fs index = (made, true)
  name : index.comps.getLast? = some name

/-- the result is no success -/
def Fails (r : Except Exc Dict) : Prop := ∀ d, r = .ok d → (get d "ok").truthy = false

theorem fails_error (e : Exc) : Fails (.error e) := fun _ h => nomatch h

omit [DecidableEq ν] in
theorem fails_report (session index : Path ν) (e : Dict) : Fails (.ok (_error host session index e)) := by
  intro d h
  cases h
  rfl

/-- how a build ends: before its directories are made, before its publication, or with it -/
inductive Ends (fs : Fs ν) (session index : Path ν) : Fs ν × Except Exc Dict → Prop where
  | kept (r : Except Exc Dict) (hr : Fails r) : Ends fs session index (fs, r)
  | made (r : Except Exc Dict) (hr : Fails r) : Ends fs session index ((makeParent disk fs index).1, r)
  | failed (decoded doc : Dict) (events : List Py) (made fs' : Fs ν) (name : Comp ν)
      (hbuilds : Builds host disk fs session index decoded doc events made name) (e : Exc)
      (hpublish : publish host disk made (with_name index (disk.temp name)) index doc events.length =
        (fs', .error e)) (r : Except Exc Dict) (hr : Fails r) :
      Ends fs session index (cleanup disk fs' (with_name index (disk.temp name)), r)
  | published (decoded doc : Dict) (events : List Py) (made fs' : Fs ν) (name : Comp ν)
      (hbuilds : Builds host disk fs session index decoded doc events made name)
      (hpublish : publish host disk made (with_name index (disk.temp name)) index doc events.length =
        (fs', .ok ())) (r : Except Exc Dict) :
      Ends fs session index (fs', r)

theorem build_ends (fs : Fs ν) (session index : Path ν) :
    Ends host disk fs session index (_build_index_atomic host disk fs session index) := by
  unfold _build_index_atomic
  cases hbefore : disk.before with
  | none => exact .kept _ (fails_report host session index _)
  | some before =>
  dsimp only
  cases hdecoded : read_session_dtj host fs session with
  | error e => exact .kept _ (fails_error e)
  | ok decoded =>
  dsimp only
  split
  · rename_i hok
    refine .kept _ fun d hd => ?_
    cases hd
    simpa using hok
  rename_i hok
  split
  · exact .kept _ (fails_report host session index _)
  rename_i hafter
  split
  case h_2 => exact .kept _ (fails_report host session index _)
  rename_i events hevents
  cases hdoc : _build_document host.python before decoded events with
  | error e => exact .kept _ (fails_error e)
  | ok doc =>
  dsimp only
  split
  · rename_i made hmade
    have hend : Ends host disk fs session index ((makeParent disk fs index).1, .error .OSError) :=
      .made _ (fails_error _)
    rw [hmade] at hend
    exact hend
  rename_i made hmade
  cases hname : index.comps.getLast? with
  | none =>
    have hend : Ends host disk fs session index ((makeParent disk fs index).1, .error .ValueError) :=
      .made _ (fails_error _)
    rw [hmade] at hend
    exact hend
  | some name =>
  have hbuilds : Builds host disk fs session index decoded doc events made name :=
    ⟨⟨before, hbefore, not_not.mp hafter, hdoc⟩, hdecoded, by simpa using hok, hevents, hmade, hname⟩
  dsimp only
  split
  · rename_i fs' e hpublish
    exact .failed _ _ _ _ _ _ hbuilds e hpublish _ (fails_report host session index _)
  · rename_i fs' hpublish
    exact .published _ _ _ _ _ _ hbuilds hpublish _

/-- an index that is published has the text of its document, where it can be read -/
theorem read_index {text : List UInt8} {e : Ino × ν} {j : Ino} (ht : Unused fs t)
    (h : Published fs index t text e j fs') {bytes : List UInt8} (hread : fs'.read index = some bytes) :
    bytes = text ++ [0x0a] := by
  obtain ⟨trail, hlast, hwalk⟩ := entry_eq_some h.entry
  obtain ⟨trail', i, hp, hi⟩ := read_eq_some hread
  have hcomps : index.comps = index.comps.dropLast ++ [.name e.2] :=
    (List.dropLast_append_getLast? _ hlast).symm
  have hij : i = j := by
    rw [Fs.resolve, h.keeps.start, hcomps] at hp
    by_cases he : e ∈ trail
    · exact walk_replaced h.keeps h.only (by rw [h.content]; rfl) hwalk ⟨e, he, .inr rfl⟩ hp
    · have havoid : ∀ e' ∈ trail, e' ∉ ({(e.1, t), e} : Set (Ino × ν)) := by
        rintro e' he' (rfl | rfl)
        · obtain ⟨k, hk⟩ := walk_trail hwalk _ he'
          rw [ht] at hk
          cases hk
        · exact he he'
      obtain ⟨entries, par, hd, hx⟩ := nodes_of_child h.new
      have hsnoc := (walk_snoc (walk_keeps h.keeps hwalk havoid) hd e.2).2 j _ hx
        (nodes_of_content h.content)
      have hlimit : fs'.limit = fs.limit - 1 + 1 := by
        rw [h.keeps.limit]
        cases hl : fs.limit with
        | zero =>
          rw [hl] at hwalk
          cases hwalk
        | succ n => rfl
      rw [hlimit, hsnoc] at hp
      cases hp
      rfl
  rw [hij, h.content] at hi
  exact (Option.some.inj hi).symm

/-! ## the search in an index -/

omit [DecidableEq ν] in
/-- the loop over the objects of an index finds what the comprehension does -/
theorem indexed_map (f : Filters) (a b : Option Int) (events : List Dict) :
    indexed host f a b (events.map .dict) =
      (matched host.python f a b (events.map .dict)).map some := by
  induction events with
  | nil => rfl
  | cons e rest ih =>
    rw [List.map_cons, indexed, matched, ih]
    cases event_matches_native_filters host.python e f a b with
    | error x => rfl
    | ok keep =>
      cases matched host.python f a b (rest.map .dict) with
      | error x => rfl
      | ok found => rfl

theorem map_dict_of_projections {events : List Py} {normalized : List Dict}
    (h : events.mapM projection = .ok normalized) : normalized.map .dict = events := by
  induction events generalizing normalized with
  | nil =>
    cases h
    rfl
  | cons event rest ih =>
    rw [List.mapM_cons] at h
    obtain ⟨first, hfirst, h⟩ := bind_eq_ok h
    obtain ⟨others, hothers, h⟩ := bind_eq_ok h
    cases h
    rw [List.map_cons, ih hothers]
    congr 1
    unfold projection at hfirst
    split at hfirst
    case h_2 => cases hfirst
    split at hfirst
    · cases hfirst
      rfl
    · cases hfirst
      rfl
    · cases hfirst

theorem events_of_document {python : Python} {identity : Identity} {decoded doc : Dict} {events : List Py}
    (h : _build_document python identity decoded events = .ok doc) :
    ∃ normalized : List Dict, normalized.map Py.dict = events ∧ get doc "events" = .list events := by
  unfold _build_document at h
  obtain ⟨normalized, hnormalized, h⟩ := bind_eq_ok h
  obtain ⟨chunks_committed, hchunks, h⟩ := bind_eq_ok h
  have hevents := map_dict_of_projections hnormalized
  cases h
  refine ⟨normalized, hevents, ?_⟩
  rw [← hevents]
  rfl

omit [DecidableEq ν] in
/-- an index that is accepted has the document that its bytes say -/
theorem opened_document {session : Path ν} {opened : Dict}
    (h : _open_validated_index host fs session index = .ok opened)
    (hok : (get opened "ok").truthy = true) :
    ∃ bytes doc, fs.read index = some bytes ∧ host.load bytes = .ok (.dict doc) ∧
      opened = ([("ok", .bool true), ("doc", .dict doc)] : Dict) := by
  have hreport : ∀ e, opened ≠ _error host session index e := by
    rintro e rfl
    cases hok
  unfold _open_validated_index at h
  split at h
  · cases h
    exact absurd rfl (hreport _)
  rename_i bytes hbytes
  split at h
  · cases h
    exact absurd rfl (hreport _)
  split at h
  · cases h
  · cases h
    exact absurd rfl (hreport _)
  · rename_i doc hload
    refine ⟨bytes, doc, hbytes, hload, ?_⟩
    split at h
    · cases h
      exact absurd rfl (hreport _)
    split at h
    · cases h
      exact absurd rfl (hreport _)
    split at h
    · cases h
      exact absurd rfl (hreport _)
    obtain ⟨current, _, h⟩ := bind_eq_ok h
    cases current with
    | false =>
      cases h
      exact absurd rfl (hreport _)
    | true =>
      cases h
      rfl
  · cases h
    exact absurd rfl (hreport _)

/-- a build that ends well has written the document of the session -/
theorem built_document {fs₀ fs₁ : Fs ν} {session : Path ν} {built : Dict}
    (hnew : ∀ name ∈ index.comps.getLast?, Unused (makeParent disk fs₀ index).1 (disk.temp name))
    (hbuilt : index_session_dtj host disk fs₀ session index true = (fs₁, .ok built))
    (hok : (get built "ok").truthy = true)
    (hround : RoundTrips host disk fs₀ session) :
    ∃ decoded doc events, read_session_dtj host fs₀ session = .ok decoded ∧
      (get decoded "ok").truthy = true ∧ get decoded "events" = .list events ∧
      ∃ before, disk.before = some before ∧
        _build_document host.python before decoded events = .ok doc ∧
        ∀ bytes, fs₁.read index = some bytes → host.load bytes = .ok (.dict doc) := by
  unfold index_session_dtj at hbuilt
  split at hbuilt
  · cases hbuilt
    cases hok
  rw [if_neg (by decide)] at hbuilt
  have hends := build_ends host disk fs₀ session index
  rw [hbuilt] at hends
  cases hends with
  | kept r hr =>
    rw [hr built rfl] at hok
    cases hok
  | made r hr =>
    rw [hr built rfl] at hok
    cases hok
  | failed decoded doc events made fs' name hbuilds e hpublish r hr =>
    rw [hr built rfl] at hok
    cases hok
  | published decoded doc events made fs' name hbuilds hpublish r =>
    obtain ⟨before, hbefore, _, hdoc⟩ := hbuilds.before
    have ht : Unused made (disk.temp name) := by
      have hnew' := hnew name hbuilds.name
      rw [hbuilds.made] at hnew'
      exact hnew'
    obtain ⟨_, text, e, j, hdump, hpublished⟩ := publish_ok host disk ht hpublish
    refine ⟨decoded, doc, events, hbuilds.read, hbuilds.ok, hbuilds.events, before, hbefore, hdoc,
      fun bytes hb => ?_⟩
    rw [read_index ht hpublished hb]
    exact hround before decoded events doc text hbefore hbuilds.read hbuilds.events hdoc hdump

/-- **the search in an index that is accepted answers as the direct one** -/
theorem index_search_agrees (fs₀ fs₁ fs : Fs ν) (session index : Path ν) (q : Query) {built opened : Dict}
    (hnew : ∀ name ∈ index.comps.getLast?, Unused (makeParent disk fs₀ index).1 (disk.temp name))
    (hbuilt : index_session_dtj host disk fs₀ session index true = (fs₁, .ok built))
    (hok : (get built "ok").truthy = true)
    (hround : RoundTrips host disk fs₀ session)
    (hsession : fs.read session = fs₀.read session) (hindex : fs.read index = fs₁.read index)
    (hopened : _open_validated_index host fs session index = .ok opened)
    (haccepted : (get opened "ok").truthy = true) :
    answer (search_session_dtj host fs session q) =
      answer (search_session_dtj_index host fs session index q) := by
  obtain ⟨decoded, doc, events, hread, hdecoded, hevents, before, -, hdoc, hload⟩ :=
    built_document host disk hnew hbuilt hok hround
  obtain ⟨bytes, found, hbytes, hfound, rfl⟩ := opened_document host hopened haccepted
  have hsame : found = doc := by
    have hloaded := hload bytes (hindex ▸ hbytes)
    rw [hfound] at hloaded
    cases hloaded
    rfl
  subst hsame
  obtain ⟨normalized, rfl, hraw⟩ := events_of_document hdoc
  have hread' : read_session_dtj host fs session = .ok decoded := by
    rw [read_session_dtj, hsession]
    exact hread
  unfold search_session_dtj search_session_dtj_index
  cases validate_search_limit q.limit with
  | some e => rfl
  | none =>
  cases validate_search_offset q.offset with
  | some e => rfl
  | none =>
  cases validate_mono_window q.mono_from_ns q.mono_to_ns with
  | some e => rfl
  | none =>
  have hopened_ok : (get [("ok", .bool true), ("doc", .dict found)] "ok").truthy = true := rfl
  have hopened_doc : get [("ok", .bool true), ("doc", .dict found)] "doc" = .dict found := rfl
  simp only [hread', hopened, bind, Except.bind, hdecoded, hevents, hopened_ok, hopened_doc, hraw,
    indexed_map, Bool.not_true, Bool.false_eq_true, if_false]
  cases matched host.python q.toFilters q.mono_from_ns.checked q.mono_to_ns.checked
      (normalized.map .dict) with
  | error e => rfl
  | ok events => rfl

end

/-! ## a session with an index -/

def exampleEvent : Dict :=
  [("event_sequence", .int 1), ("monotonic_ns", .int 5), ("domain", .str "net"), ("category", .str "rx"),
    ("event_name", .str "frame"), ("severity", .str "info"), ("correlation", .none),
    ("payload", .list [.dict [("name", .str "raw"), ("type", .str "bytes"), ("value", .str "070809")]])]

def exampleDecoded : Dict :=
  [("ok", .bool true), ("adapter", adapter), ("session_path", .str "/s.dtj"),
    ("header", .dict [("format_version", .int 1), ("flags", .int 0)]), ("chunks_committed", .int 2),
    ("torn_tail", .bool false), ("event_count", .int 1), ("events", .list [.dict exampleEvent])]

def exampleIdentity : Identity := ⟨"/s.dtj", 296, 7⟩

def exampleDocument : Dict :=
  [("format", .str INDEX_FORMAT), ("schema_version", .int 1), ("adapter", adapter),
    ("source_path", .str "/s.dtj"), ("source_size", .int 296), ("source_mtime_ns", .int 7),
    ("header", .dict [("format_version", .int 1), ("flags", .int 0)]), ("chunks_committed", .int 2),
    ("torn_tail", .bool false), ("event_count", .int 1),
    ("indexes", .dict [("by_domain", .dict [("net", .list [.int 1])]),
      ("by_category", .dict [("rx", .list [.int 1])]), ("by_event_name", .dict [("frame", .list [.int 1])]),
      ("by_correlation", .dict []), ("by_severity", .dict [("info", .list [.int 1])])]),
    ("events", .list [.dict exampleEvent])]

mutual
/-- the JSON text of a value whose strings need no escapes -/
def json : Py → Str
  | .none => "null"
  | .bool b => if b then "true" else "false"
  | .int n => Str.ofInt n
  | .float _ => "0.0"
  | .str s => lit "\"" ++ s ++ lit "\""
  | .list xs => lit "[" ++ jsonList xs ++ lit "]"
  | .dict items => lit "\x7b" ++ jsonItems items ++ lit "\x7d"

def jsonList : List Py → Str
  | [] => []
  | [x] => json x
  | x :: xs => json x ++ lit "," ++ jsonList xs

def jsonItems : List (Str × Py) → Str
  | [] => []
  | [(k, v)] => lit "\"" ++ k ++ lit "\":" ++ json v
  | (k, v) :: rest => lit "\"" ++ k ++ lit "\":" ++ json v ++ lit "," ++ jsonItems rest
end

def exampleText (v : Py) : List UInt8 := (json v).map UInt32.toUInt8

def examplePython : Python where
  casefold s := s.map fun c => if 65 ≤ c ∧ c ≤ 90 then c + 32 else c
  eq a b :=
    match a, b with
    | .str s, .str t => s == t
    | .int m, .int n => m == n
    | _, _ => false
  str v :=
    match v with
    | .int n => Str.ofInt n
    | .str s => s
    | _ => "None"
  repr _ := []
  int_of_str _ := .error .ValueError
  int_of_float _ := .ok 0
  float_eq _ _ := false
  rstrip s := s

def exampleHost : Host String where
  python := examplePython
  str p := lit (String.join (p.comps.map fun c =>
    match c with
    | .up => "/.."
    | .name x => "/" ++ x))
  read_session _ bytes :=
    if bytes.take 4 = [0x44, 0x54, 0x4a, 0x31] then .ok exampleDecoded
    else .ok [("ok", .bool false), ("error", .dict [("kind", .str "BadMagic")])]
  stat _ _ := some exampleIdentity
  dump v := (exampleText v, true)
  dump_indent v := (exampleText v, true)
  load bytes :=
    if bytes = exampleText (.dict exampleDocument) ++ [0x0a] then .ok (.dict exampleDocument)
    else .error (.inl "Expecting value: line 1 column 1 (char 0)")

def exampleDisk : Disk String where
  before := some exampleIdentity
  after := some exampleIdentity
  mkdirs _ := true
  temp
    | .name x => "." ++ x ++ ".5e1f.tmp"
    | .up => "....5e1f.tmp"
  unlinks := true
  opens := true
  kept := none
  reopens := true
  replaces := true
  cleans := true

/-- a root with the session in it -/
def exampleFs : Fs String where
  nodes
    | 0 => some (.dir (fun x => if x = "s.dtj" then some 1 else none) 0)
    | 1 => some (.file journalBytes)
    | _ => none
  root := 0
  cwd := 0
  limit := 40
  next := 2
  free
    | 0, hi => absurd hi (by decide : ¬ 2 ≤ 0)
    | 1, hi => absurd hi (by decide : ¬ 2 ≤ 1)
    | _ + 2, _ => rfl

def examplePath (x : String) : Path String := ⟨true, [.name x]⟩

def exampleBuilt : Fs String :=
  (index_session_dtj exampleHost exampleDisk exampleFs (examplePath "s.dtj") (examplePath "i.json") true).1

def exampleQuery : Query where
  domain := .str "net"
  category := .str "RX"
  event_name := .none
  event := .none
  correlation_id := .none
  severity := .none
  text := .str "RAW"
  exclude := .none
  exclude_category := .none
  mono_from_ns := .int 5
  mono_to_ns := .none
  limit := .int 10
  offset := .int 0

theorem exampleFs_unused {t : String} (ht : t ≠ "s.dtj") : Unused exampleFs t := by
  intro d
  match d with
  | 0 => exact if_neg ht
  | 1 => rfl
  | _ + 2 => rfl

/-- what the build says -/
def exampleReport : Dict :=
  [("ok", .bool true), ("adapter", adapter), ("session_path", .str "/s.dtj"),
    ("index", .dict [("schema_version", .int 1), ("path", .str "/i.json"), ("status", .str "built"),
      ("event_count", .int 1), ("chunks_committed", .int 2), ("torn_tail", .bool false)])]

set_option maxRecDepth 100000 in
theorem exampleHost_roundTrips : RoundTrips exampleHost exampleDisk exampleFs (examplePath "s.dtj") := by
  intro identity decoded events doc text hbefore hread hevents hdoc hdump
  cases hbefore
  have hread' : read_session_dtj exampleHost exampleFs (examplePath "s.dtj") = .ok exampleDecoded := rfl
  obtain rfl : exampleDecoded = decoded := Except.ok.inj (hread'.symm.trans hread)
  cases hevents
  have hdoc' : _build_document exampleHost.python exampleIdentity exampleDecoded [.dict exampleEvent] =
      .ok exampleDocument := rfl
  obtain rfl : exampleDocument = doc := Except.ok.inj (hdoc'.symm.trans hdoc)
  cases hdump
  dsimp only [exampleHost]
  rw [if_pos rfl]

set_option maxRecDepth 100000 in
/-- an event that is found by its text, in the session and in its index -/
theorem index_search_agrees_example :
    answer (search_session_dtj exampleHost exampleBuilt (examplePath "s.dtj") exampleQuery) =
      answer (search_session_dtj_index exampleHost exampleBuilt (examplePath "s.dtj")
        (examplePath "i.json") exampleQuery) := by
  have hnew : ∀ name ∈ (examplePath "i.json").comps.getLast?,
      Unused (makeParent exampleDisk exampleFs (examplePath "i.json")).1 (exampleDisk.temp name) := by
    rintro name hname
    cases hname
    exact exampleFs_unused (by decide)
  have hbuilt : index_session_dtj exampleHost exampleDisk exampleFs (examplePath "s.dtj")
      (examplePath "i.json") true = (exampleBuilt, .ok exampleReport) := Prod.ext rfl rfl
  have hopened : _open_validated_index exampleHost exampleBuilt (examplePath "s.dtj")
      (examplePath "i.json") = .ok [("ok", .bool true), ("doc", .dict exampleDocument)] := rfl
  exact index_search_agrees exampleHost exampleDisk exampleFs exampleBuilt exampleBuilt _ _ exampleQuery
    hnew hbuilt rfl exampleHost_roundTrips rfl rfl hopened rfl

end Dtj.Mcp
