import Dtj.Mcp.Derived
import Dtj.Mcp.Sidecar

/-!
# The session store

`DtjSessionStore` lists the `.dtj` files of a directory and of its `sessions`, gives each the stem of its
name as an id, finds the file of an id again and keeps its index under the stem.

* `suffix`, `stem`, `ofStr`, `expanduser`   the parts of `pathlib` that it uses;
* `resolve_session_path`, `iter_session_paths`, `list_sessions`, `open_session_meta`, `ensure_index`
                                            the store;
* `list_spec`, `session_spec`               what a listed session is;
* `StemFound`, `stem_resolves_iff`          no other file comes before one when its id is looked up;
* `index_keeps_entry`                       a build leaves the entries of other names;
* `ids_unique_iff`                          **when the ids name the sessions**;
* `ids_shared`                              two sessions of one name.
-/

namespace Dtj.Mcp

open Posix

/-! ## paths -/

/-- `/` -/
def SLASH : UInt32 := 47

/-- `.` -/
def DOT : UInt32 := 46

/-- `~` -/
def TILDE : UInt32 := 126

/-- `Path(s)`: empty parts and single dots are left out -/
def ofStr (s : Str) : Path Str where
  absolute := s.head? = some SLASH
  comps := ((s.splitOn SLASH).filter fun x => x ≠ [] ∧ x ≠ [DOT]).map fun x =>
    if x = [DOT, DOT] then .up else .name x

/-- `p / q` -/
def join (p q : Path Str) : Path Str :=
  if q.absolute then q else ⟨p.absolute, p.comps ++ q.comps⟩

/-- `p / x`, of one name -/
def child (p : Path Str) (x : Str) : Path Str := ⟨p.absolute, p.comps ++ [.name x]⟩

/-- `path.name` -/
def nameOf (p : Path Str) : Str :=
  match p.comps.getLast? with
  | some (.name x) => x
  | some .up => [DOT, DOT]
  | none => []

/-- the place of the last dot, if it is neither the first nor the last character -/
def lastDot (x : Str) : Option Nat :=
  let after := x.reverse.idxOf DOT
  let i := x.length - 1 - after
  if after < x.length ∧ 0 < i ∧ i < x.length - 1 then some i else none

def suffix (p : Path Str) : Str :=
  match lastDot (nameOf p) with
  | some i => (nameOf p).drop i
  | none => []

def stem (p : Path Str) : Str :=
  match lastDot (nameOf p) with
  | some i => (nameOf p).take i
  | none => nameOf p

/-- the file system as `pathlib` shows it -/
structure Shelf where
  /-- the absolute path of the home of a user; the empty name is the current one -/
  home : Str → Option (List (Comp Str))
  /-- `path.resolve()` -/
  resolve : Fs Str → Path Str → Except Exc (Path Str)
  /-- the names that `path.glob("*.dtj")` finds, in the order of the directory -/
  glob : Fs Str → Path Str → List Str
  nodup : ∀ fs p, (glob fs p).Nodup
  plain : ∀ fs p, ∀ x ∈ glob fs p, SLASH ∉ x

/-- a relative path whose first part starts with a tilde -/
def Tilde (p : Path Str) : Prop :=
  p.absolute = false ∧ ∃ x rest, p.comps = .name x :: rest ∧ x.head? = some TILDE

def Shelf.expanduser (shelf : Shelf) (p : Path Str) : Except Exc (Path Str) :=
  match p.absolute, p.comps with
  | false, .name x :: rest =>
    if x.head? = some TILDE then
      match shelf.home x.tail with
      | none => .error .RuntimeError
      | some h => .ok ⟨true, h ++ rest⟩
    else .ok p
  | _, _ => .ok p

theorem Shelf.expanduser_self {shelf : Shelf} {p : Path Str} (h : ¬ Tilde p) :
    shelf.expanduser p = .ok p := by
  unfold expanduser
  split
  · rename_i x rest habsolute hcomps
    rw [if_neg]
    exact fun hx => h ⟨habsolute, x, rest, hcomps, hx⟩
  · rfl

theorem Shelf.expanduser_tilde {shelf : Shelf} {p p' : Path Str} (h : Tilde p)
    (hok : shelf.expanduser p = .ok p') : ∃ x h rest, shelf.home x = some h
      ∧ p.comps.tail = rest ∧ p' = ⟨true, h ++ rest⟩ := by
  obtain ⟨habsolute, x, rest, hcomps, hx⟩ := h
  unfold expanduser at hok
  rw [habsolute, hcomps] at hok
  dsimp only at hok
  rw [if_pos hx] at hok
  cases hhome : shelf.home x.tail with
  | none =>
    rw [hhome] at hok
    cases hok
  | some h =>
    rw [hhome] at hok
    cases hok
    exact ⟨x.tail, h, rest, hhome, by rw [hcomps, List.tail_cons], rfl⟩

theorem not_tilde_absolute {p : Path Str} (h : p.absolute = true) : ¬ Tilde p := by
  rintro ⟨habsolute, -⟩
  rw [h] at habsolute
  cases habsolute

theorem Shelf.expanduser_not_tilde {shelf : Shelf} {p p' : Path Str} (h : shelf.expanduser p = .ok p') :
    ¬ Tilde p' := by
  by_cases htilde : Tilde p
  · obtain ⟨x, home, rest, -, -, rfl⟩ := expanduser_tilde htilde h
    exact not_tilde_absolute rfl
  · rw [expanduser_self htilde] at h
    cases h
    exact htilde

/-! ## the store -/

/-- its `root` has been expanded -/
structure DtjSessionStore where
  root : Path Str
  expanded : ¬ Tilde root

def DtjSessionStore.init (shelf : Shelf) (store_dir : Path Str) : Except Exc DtjSessionStore :=
  match h : shelf.expanduser store_dir with
  | .ok root => .ok ⟨root, Shelf.expanduser_not_tilde h⟩
  | .error e => .error e

structure DtjSessionMeta where
  session_id : Str
  session_path : Path Str
  event_count : Int
  chunks_committed : Int
  torn_tail : Bool
  producer_name : Py
  producer_version : Py
  session_id_hex : Py
  start_utc_unix_ms : Py
  domains : List Str
  categories : List Str
  event_names : List Str
  correlations : List Str
  size_bytes : Int

def texted (names : List Str) : Py := .list (names.map .str)

section
variable (host : Host Str) (shelf : Shelf) (store : DtjSessionStore) (fs : Fs Str)

def is_file (p : Path Str) : Bool := (fs.read p).isSome

/-- a file with the suffix of a session -/
def isSession (p : Path Str) : Bool := is_file fs p && suffix p == lit ".dtj"

def indexes_dir : Path Str := child store.root "indexes"

def sessions_dir : Path Str := child store.root "sessions"

def resolve_session_path (session_id_or_path : Str) : Except Exc (Option (Path Str)) := do
  let candidate ← shelf.expanduser (ofStr session_id_or_path)
  if isSession fs candidate then
    return some candidate
  return [join store.root (ofStr (session_id_or_path ++ lit ".dtj")),
    join (sessions_dir store) (ofStr (session_id_or_path ++ lit ".dtj")),
    join store.root (ofStr session_id_or_path)].find? (isSession fs)

def index_path_for (session_path : Path Str) : Path Str :=
  join (indexes_dir store) (ofStr (stem session_path ++ lit ".idx.json"))

/-- the loop of `iter_session_paths`; `seen` is a set -/
def unseen (seen : List (Path Str)) : List (Path Str) → Except Exc (List (Path Str))
  | [] => .ok []
  | path :: rest => do
    let resolved ← shelf.resolve fs path
    if resolved ∈ seen then
      unseen seen rest
    else do
      let others ← unseen (resolved :: seen) rest
      return path :: others

/-- the files with the suffix, of the directory and then of its `sessions` -/
def globbed : List (Path Str) :=
  (shelf.glob fs store.root).map (child store.root) ++
    (shelf.glob fs (sessions_dir store)).map (child (sessions_dir store))

def iter_session_paths : Except Exc (List (Path Str)) :=
  if fs.isDir store.root then unseen shelf fs [] (globbed shelf store fs) else .ok []

/-! ## one session -/

/-- what `open_session_meta` gives for a session that decodes -/
structure OpenedSession where
  adapter : Py
  session : DtjSessionMeta
  header : Dict

/-- the values under a key that are true, as a sorted set; the decoder gives texts -/
def truthyUnder (key : Str) (events : List Dict) : Except Exc (List Str) := do
  let values ← (events.filter fun e => (get e key).truthy).mapM fun e => counted host.python (get e key)
  return sorted values
where
  sorted (values : List Str) : List Str := values.dedup.mergeSort fun a b => decide (a ≤ b)

/-- the texts under `correlation`, an empty one too -/
def correlationsOf (events : List Dict) : List Str :=
  (events.flatMap fun e => texts (get e "correlation")).dedup.mergeSort fun a b => decide (a ≤ b)

/-- `decoded.get("header") or {}` -/
def headerOf (decoded : Dict) : Except Exc Dict :=
  match (get decoded "header").orElse (.dict []) with
  | .dict header => .ok header
  | _ => .error .AttributeError

def storeError (session : Path Str) (kind : String) (message : Str) : Dict :=
  [("ok", .bool false), ("adapter", adapter), ("session_path", .str (host.str session)),
    ("error", .dict [("kind", .str kind), ("message", .str message)])]

/-- of a file that decodes -/
def metaOf (path : Path Str) (decoded : Dict) : Except Exc OpenedSession := do
  let events ← _events decoded
  let domains ← truthyUnder host "domain" events
  let categories ← truthyUnder host "category" events
  let event_names ← truthyUnder host "event_name" events
  let event_count ← host.python.toInt ((get decoded "event_count").orElse (.int 0))
  let chunks_committed ← host.python.toInt ((get decoded "chunks_committed").orElse (.int 0))
  let header ← headerOf decoded
  return {
    adapter := (get decoded "adapter").orElse adapter
    session := {
      session_id := stem path
      session_path := path
      event_count := event_count
      chunks_committed := chunks_committed
      torn_tail := (get decoded "torn_tail").truthy
      producer_name := get header "producer_name"
      producer_version := get header "producer_version"
      session_id_hex := get header "session_id_hex"
      start_utc_unix_ms := get header "start_utc_unix_ms"
      domains := domains
      categories := categories
      event_names := event_names
      correlations := correlationsOf events
      size_bytes := ((host.stat fs path).map Identity.source_size).getD 0 }
    header := header }

/-- a session, or the dictionary of an error -/
def open_session_meta (session_path : Path Str) : Except Exc (Except Dict OpenedSession) := do
  let path ← shelf.expanduser session_path
  if !is_file fs path then
    return .error (storeError host path "MissingSession" (lit "session not found: " ++ host.str path))
  if suffix path ≠ lit ".dtj" then
    return .error (storeError host path "InvalidPath"
      (lit "session path must end with .dtj: " ++ host.str path))
  let decoded ← read_session_dtj host fs path
  if !(get decoded "ok").truthy then
    return .error decoded
  let opened ← metaOf host fs path decoded
  return .ok opened

def DtjSessionMeta.to_dict (m : DtjSessionMeta) : Dict :=
  [("session_id", .str m.session_id), ("session_path", .str (host.str m.session_path)),
    ("event_count", .int m.event_count), ("chunks_committed", .int m.chunks_committed),
    ("torn_tail", .bool m.torn_tail), ("producer_name", m.producer_name),
    ("producer_version", m.producer_version), ("session_id_hex", m.session_id_hex),
    ("start_utc_unix_ms", m.start_utc_unix_ms), ("domains", texted m.domains),
    ("categories", texted m.categories), ("event_names", texted m.event_names),
    ("correlations", texted m.correlations), ("size_bytes", .int m.size_bytes)]

def OpenedSession.toDict (o : OpenedSession) : Dict :=
  [("ok", .bool true), ("adapter", o.adapter),
    ("session_path", .str (host.str o.session.session_path)),
    ("torn_tail", .bool o.session.torn_tail), ("session", .dict (o.session.to_dict host)),
    ("header", .dict o.header)]

/-! ## the list -/

structure Listing where
  sessions : List DtjSessionMeta
  decode_errors : List Dict

/-- the loop over the paths -/
def listed : List (Path Str) → Except Exc Listing
  | [] => .ok ⟨[], []⟩
  | path :: rest => do
    let opened ← open_session_meta host shelf fs path
    let others ← listed rest
    match opened with
    | .ok o => return ⟨o.session :: others.sessions, others.decode_errors⟩
    | .error e => return ⟨others.sessions, [("session_path", .str (host.str path)), ("error", get e "error")] ::
        others.decode_errors⟩

def noStore (message : String) : Dict :=
  [("ok", .bool false), ("adapter", adapter), ("store_dir", .str (host.str store.root)),
    ("error", .dict [("kind", .str "InvalidPath"),
      ("message", .str (lit message ++ host.str store.root))])]

def list_sessions : Except Exc (Except Dict Listing) :=
  if !(is_file fs store.root || fs.isDir store.root) then
    .ok (.error (noStore host store "store_dir does not exist: "))
  else if !fs.isDir store.root then
    .ok (.error (noStore host store "store_dir is not a directory: "))
  else do
    let paths ← iter_session_paths shelf store fs
    let found ← listed host shelf fs (paths.mergeSort fun p q => decide (nameOf p ≤ nameOf q))
    return .ok found

def Listing.toDict (l : Listing) : Dict :=
  [("ok", .bool true), ("adapter", adapter), ("store_dir", .str (host.str store.root)),
    ("count", .int l.sessions.length),
    ("sessions", .list (l.sessions.map fun m => .dict (m.to_dict host))),
    ("decode_errors", .list (l.decode_errors.map .dict))]

/-! ## the index of a session -/

variable (disk : Disk Str)

/-- `path.mkdir(parents=True, exist_ok=True)` -/
def makeDirs (p : Path Str) : Fs Str × Bool := fs.mkdirs disk.mkdirs p.absolute p.comps.length p.comps

def ensure : Fs Str × Bool :=
  match makeDirs fs disk store.root with
  | (fs, false) => (fs, false)
  | (fs, true) => makeDirs fs disk (indexes_dir store)

def ensure_index (session_path : Path Str) (rebuild : Bool) : Fs Str × Except Exc Dict :=
  match shelf.expanduser session_path with
  | .error e => (fs, .error e)
  | .ok path =>
  match ensure store fs disk with
  | (fs, false) => (fs, .error .OSError)
  | (fs, true) => index_session_dtj host disk fs path (index_path_for store path) rebuild

end

/-! ## names -/

theorem ofStr_name {x : Str} (hslash : SLASH ∉ x) (hlong : 2 < x.length) :
    ofStr x = ⟨false, [.name x]⟩ := by
  have hempty : x ≠ [] := List.ne_nil_of_length_pos (by omega)
  have hdot : x ≠ [DOT] := by
    rintro rfl
    exact absurd hlong (by decide)
  have hup : x ≠ [DOT, DOT] := by
    rintro rfl
    exact absurd hlong (by decide)
  have hhead : decide (x.head? = some SLASH) = false := by
    rw [decide_eq_false_iff_not]
    exact fun h => hslash (List.mem_of_head? h)
  rw [ofStr, List.splitOn_eq_singleton hslash, hhead]
  simp [hempty, hdot, hup]

theorem join_name {p : Path Str} {x : Str} (hslash : SLASH ∉ x) (hlong : 2 < x.length) :
    join p (ofStr x) = child p x := by
  rw [ofStr_name hslash hlong]
  rfl

theorem nameOf_child (p : Path Str) (x : Str) : nameOf (child p x) = x := by
  rw [nameOf, child, List.getLast?_concat]

theorem lastDot_dtj {s : Str} (hs : s ≠ []) : lastDot (s ++ lit ".dtj") = some s.length := by
  have hafter : (s ++ lit ".dtj").reverse.idxOf DOT = 3 := by
    rw [List.reverse_append, show (lit ".dtj").reverse = [106, 116, 100, DOT] from rfl]
    rfl
  have hlen : (s ++ lit ".dtj").length = s.length + 4 := List.length_append
  have hpos : 0 < s.length := List.length_pos_iff.mpr hs
  rw [lastDot, hafter, hlen, if_pos (by omega)]
  congr 1

/-- a path with the suffix of a session has a name with it, and a stem -/
theorem suffix_dtj {p : Path Str} (h : suffix p = lit ".dtj") :
    nameOf p = stem p ++ lit ".dtj" ∧ stem p ≠ [] := by
  unfold suffix at h
  unfold stem
  cases hdot : lastDot (nameOf p) with
  | none =>
    rw [hdot] at h
    cases h
  | some i =>
    rw [hdot] at h
    dsimp only at h ⊢
    refine ⟨by rw [← h, List.take_append_drop], ?_⟩
    unfold lastDot at hdot
    dsimp only at hdot
    split at hdot
    · rename_i hrange
      cases hdot
      apply List.ne_nil_of_length_pos
      rw [List.length_take]
      omega
    · cases hdot

theorem suffix_child {p : Path Str} {s : Str} (hs : s ≠ []) :
    suffix (child p (s ++ lit ".dtj")) = lit ".dtj" ∧ stem (child p (s ++ lit ".dtj")) = s := by
  unfold suffix stem
  rw [nameOf_child, lastDot_dtj hs]
  exact ⟨List.drop_left, List.take_left⟩

theorem child_inj {p q : Path Str} {x y : Str} (h : child p x = child q y) : p = q ∧ x = y := by
  obtain ⟨habsolute, hcomps⟩ := Posix.Path.mk.inj h
  obtain ⟨hfront, hlast⟩ := List.append_inj' hcomps rfl
  cases p
  cases q
  cases habsolute
  cases hfront
  cases hlast
  exact ⟨rfl, rfl⟩

/-- the two directories have no path in common -/
theorem child_ne_sessions (store : DtjSessionStore) (x y : Str) :
    child store.root x ≠ child (sessions_dir store) y := by
  intro h
  have hlen := congrArg (fun p : Path Str => p.comps.length) h
  simp [child, sessions_dir] at hlen

/-! ## what is listed -/

section
variable {host : Host Str} {shelf : Shelf} {store : DtjSessionStore} {fs : Fs Str}

theorem open_spec {q : Path Str} {o : OpenedSession}
    (h : open_session_meta host shelf fs q = .ok (.ok o)) :
    ∃ p, shelf.expanduser q = .ok p ∧ isSession fs p = true ∧ o.session.session_path = p
      ∧ o.session.session_id = stem p := by
  unfold open_session_meta at h
  obtain ⟨p, hp, h⟩ := bind_eq_ok h
  refine ⟨p, hp, ?_⟩
  split at h
  · cases h
  rename_i hfile
  split at h
  · cases h
  rename_i hsuffix
  obtain ⟨decoded, -, h⟩ := bind_eq_ok h
  split at h
  · cases h
  obtain ⟨opened, hopened, h⟩ := bind_eq_ok h
  cases h
  unfold metaOf at hopened
  obtain ⟨_, _, hopened⟩ := bind_eq_ok hopened
  obtain ⟨_, _, hopened⟩ := bind_eq_ok hopened
  obtain ⟨_, _, hopened⟩ := bind_eq_ok hopened
  obtain ⟨_, _, hopened⟩ := bind_eq_ok hopened
  obtain ⟨_, _, hopened⟩ := bind_eq_ok hopened
  obtain ⟨_, _, hopened⟩ := bind_eq_ok hopened
  obtain ⟨_, _, hopened⟩ := bind_eq_ok hopened
  cases hopened
  refine ⟨?_, rfl, rfl⟩
  rw [isSession, Bool.and_eq_true, beq_iff_eq]
  exact ⟨by simpa using hfile, not_not.mp hsuffix⟩

/-- the session that a path is listed as -/
def sessionOf (host : Host Str) (shelf : Shelf) (fs : Fs Str) (q : Path Str) : Option DtjSessionMeta :=
  match open_session_meta host shelf fs q with
  | .ok (.ok o) => some o.session
  | _ => none

theorem listed_sessions {paths : List (Path Str)} {l : Listing}
    (h : listed host shelf fs paths = .ok l) : l.sessions = paths.filterMap (sessionOf host shelf fs) := by
  induction paths generalizing l with
  | nil =>
    cases h
    rfl
  | cons path rest ih =>
    rw [listed] at h
    obtain ⟨opened, hopened, h⟩ := bind_eq_ok h
    obtain ⟨others, hothers, h⟩ := bind_eq_ok h
    rw [List.filterMap_cons, ← ih hothers]
    cases opened with
    | ok o =>
      have hsession : sessionOf host shelf fs path = some o.session := by rw [sessionOf, hopened]
      rw [hsession]
      cases h
      rfl
    | error e =>
      have hnone : sessionOf host shelf fs path = none := by rw [sessionOf, hopened]
      rw [hnone]
      cases h
      rfl

theorem unseen_sublist {seen paths found : List (Path Str)} (h : unseen shelf fs seen paths = .ok found) :
    found.Sublist paths := by
  induction paths generalizing seen found with
  | nil =>
    cases h
    exact List.Sublist.refl _
  | cons path rest ih =>
    rw [unseen] at h
    obtain ⟨resolved, -, h⟩ := bind_eq_ok h
    split at h
    · exact (ih h).cons path
    · obtain ⟨others, hothers, h⟩ := bind_eq_ok h
      cases h
      exact (ih hothers).cons_cons path

theorem globbed_nodup (shelf : Shelf) (store : DtjSessionStore) (fs : Fs Str) :
    (globbed shelf store fs).Nodup := by
  unfold globbed
  rw [List.nodup_append]
  refine ⟨(shelf.nodup fs _).map fun x y h => (child_inj h).2,
    (shelf.nodup fs _).map fun x y h => (child_inj h).2, ?_⟩
  intro p hp q hq
  obtain ⟨x, -, rfl⟩ := List.mem_map.mp hp
  obtain ⟨y, -, rfl⟩ := List.mem_map.mp hq
  exact child_ne_sessions store x y

/-- what is listed comes from the two directories, each path once -/
theorem list_spec {l : Listing} (h : list_sessions host shelf store fs = .ok (.ok l)) :
    ∃ paths : List (Path Str), paths.Nodup ∧ (∀ q ∈ paths, q ∈ globbed shelf store fs)
      ∧ l.sessions = paths.filterMap (sessionOf host shelf fs) := by
  unfold list_sessions at h
  split at h
  · cases h
  split at h
  · cases h
  obtain ⟨found, hfound, h⟩ := bind_eq_ok h
  obtain ⟨l', hl, h⟩ := bind_eq_ok h
  cases h
  have hsub : found.Sublist (globbed shelf store fs) := by
    unfold iter_session_paths at hfound
    split at hfound
    · exact unseen_sublist hfound
    · cases hfound
      exact List.nil_sublist _
  have hperm := List.mergeSort_perm found fun p q => decide (nameOf p ≤ nameOf q)
  refine ⟨_, hperm.nodup_iff.mpr ((globbed_nodup shelf store fs).sublist hsub), ?_, listed_sessions hl⟩
  intro q hq
  exact hsub.mem (hperm.mem_iff.mp hq)

/-- homes are no files -/
def HomesAreDirectories (shelf : Shelf) (fs : Fs Str) : Prop :=
  ∀ user h, shelf.home user = some h → fs.read ⟨true, h⟩ = none

theorem not_tilde_sessions (store : DtjSessionStore) (x : Str) : ¬ Tilde (child (sessions_dir store) x) := by
  rintro ⟨habsolute, y, rest, hcomps, hy⟩
  cases hroot : store.root.comps with
  | nil =>
    rw [child, sessions_dir, child, hroot] at hcomps
    cases hcomps
    cases hy
  | cons c cs =>
    rw [child, sessions_dir, child, hroot] at hcomps
    refine store.expanded ⟨habsolute, y, cs, ?_, hy⟩
    rw [hroot, (List.cons.inj hcomps).1]

/-- a path of the store that is a session after the expansion has not been expanded -/
theorem expanded_self (hhome : HomesAreDirectories shelf fs) {q p : Path Str}
    (hq : q ∈ globbed shelf store fs) (hp : shelf.expanduser q = .ok p) (hsession : isSession fs p = true) :
    p = q := by
  have hself : ¬ Tilde q → p = q := by
    intro h
    rw [Shelf.expanduser_self h] at hp
    cases hp
    rfl
  rcases List.mem_append.mp hq with hq | hq
  · obtain ⟨x, -, rfl⟩ := List.mem_map.mp hq
    by_cases htilde : Tilde (child store.root x)
    · exfalso
      have hroot : store.root.comps = [] := by
        cases hroot : store.root.comps with
        | nil => rfl
        | cons c cs =>
          obtain ⟨habsolute, y, rest, hcomps, hy⟩ := htilde
          rw [child, hroot] at hcomps
          exact absurd ⟨habsolute, y, cs, by rw [hroot, (List.cons.inj hcomps).1], hy⟩ store.expanded
      obtain ⟨user, h, rest, hhome', hrest, rfl⟩ := Shelf.expanduser_tilde htilde hp
      have hnil : rest = [] := by
        rw [← hrest, child, hroot]
        rfl
      rw [hnil, List.append_nil, isSession, is_file, hhome user h hhome'] at hsession
      cases hsession
    · exact hself htilde
  · obtain ⟨x, -, rfl⟩ := List.mem_map.mp hq
    exact hself (not_tilde_sessions store x)

/-- a session of a listed path -/
theorem session_spec (hhome : HomesAreDirectories shelf fs) {q : Path Str} {m : DtjSessionMeta}
    (hq : q ∈ globbed shelf store fs) (hm : sessionOf host shelf fs q = some m) :
    isSession fs q = true ∧ m.session_path = q ∧ m.session_id = stem q := by
  unfold sessionOf at hm
  split at hm
  · rename_i o hopen
    cases hm
    obtain ⟨p, hp, hsession, hpath, hid⟩ := open_spec hopen
    have hself := expanded_self hhome hq hp hsession
    subst hself
    exact ⟨hsession, hpath, hid⟩
  · cases hm

/-! ## an id is looked up -/

theorem globbed_child {q : Path Str} (hq : q ∈ globbed shelf store fs) (hsuffix : suffix q = lit ".dtj") :
    SLASH ∉ stem q ++ lit ".dtj" ∧ stem q ≠ []
      ∧ (q = child store.root (stem q ++ lit ".dtj")
        ∨ q = child (sessions_dir store) (stem q ++ lit ".dtj")) := by
  obtain ⟨hname, hstem⟩ := suffix_dtj hsuffix
  rw [← hname]
  rcases List.mem_append.mp hq with hq | hq
  · obtain ⟨x, hx, rfl⟩ := List.mem_map.mp hq
    rw [nameOf_child]
    exact ⟨shelf.plain fs _ x hx, hstem, .inl rfl⟩
  · obtain ⟨x, hx, rfl⟩ := List.mem_map.mp hq
    rw [nameOf_child]
    exact ⟨shelf.plain fs _ x hx, hstem, .inr rfl⟩

/-- a text without a slash is one part at most -/
theorem ofStr_comps {s : Str} (h : SLASH ∉ s) :
    (ofStr s).comps = [] ∨ (ofStr s).comps = [.up] ∨ (ofStr s).comps = [.name s] := by
  rw [ofStr, List.splitOn_eq_singleton h]
  by_cases hempty : s = []
  · simp [hempty]
  by_cases hdot : s = [DOT]
  · simp [hdot]
  by_cases hup : s = [DOT, DOT]
  · right
    left
    rw [hup]
    rfl
  · simp [hempty, hdot, hup]

/-- the file that an id names by itself is none of the listed ones -/
theorem candidate_ne (hhome : HomesAreDirectories shelf fs) {s : Str} (hslash : SLASH ∉ s) {c p : Path Str}
    (hc : shelf.expanduser (ofStr s) = .ok c) (hsession : isSession fs c = true) :
    c ≠ child p (s ++ lit ".dtj") := by
  by_cases htilde : Tilde (ofStr s)
  · obtain ⟨user, h, rest, hhome', hrest, rfl⟩ := Shelf.expanduser_tilde htilde hc
    have hnil : rest = [] := by
      rcases ofStr_comps hslash with hcomps | hcomps | hcomps
      · rw [← hrest, hcomps, List.tail_nil]
      · rw [← hrest, hcomps, List.tail_cons]
      · rw [← hrest, hcomps, List.tail_cons]
    rw [hnil, List.append_nil, isSession, is_file, hhome user h hhome'] at hsession
    cases hsession
  · rw [Shelf.expanduser_self htilde] at hc
    cases hc
    intro h
    have hcomps : (ofStr s).comps = p.comps ++ [.name (s ++ lit ".dtj")] := congrArg Posix.Path.comps h
    have hlast := congrArg List.getLast? hcomps
    rw [List.getLast?_concat] at hlast
    rcases ofStr_comps hslash with hone | hone | hone
    · rw [hone] at hlast
      cases hlast
    · rw [hone] at hlast
      cases hlast
    · rw [hone] at hlast
      have hname : s = s ++ lit ".dtj" := Comp.name.inj (Option.some.inj hlast)
      have hlen := congrArg List.length hname
      rw [List.length_append] at hlen
      have hfour : (lit ".dtj").length = 4 := rfl
      omega

theorem resolve_eq {s : Str} (hslash : SLASH ∉ s ++ lit ".dtj") (hs : s ≠ []) {c : Path Str}
    (hc : shelf.expanduser (ofStr s) = .ok c) (hno : isSession fs c = false) :
    resolve_session_path shelf store fs s = .ok ([child store.root (s ++ lit ".dtj"),
      child (sessions_dir store) (s ++ lit ".dtj"), join store.root (ofStr s)].find? (isSession fs)) := by
  have hlong : 2 < (s ++ lit ".dtj").length := by
    rw [List.length_append, show (lit ".dtj").length = 4 from rfl]
    omega
  unfold resolve_session_path
  rw [hc]
  dsimp only [bind, Except.bind]
  rw [hno, join_name hslash hlong, join_name hslash hlong]
  rfl

/-- no other file comes before the one of a session when its id is looked up -/
structure StemFound (shelf : Shelf) (store : DtjSessionStore) (fs : Fs Str) (m : DtjSessionMeta) :
    Prop where
  candidate : ∃ c, shelf.expanduser (ofStr m.session_id) = .ok c ∧ isSession fs c = false
  root : ∀ x, m.session_path = child (sessions_dir store) x → is_file fs (child store.root x) = false

/-- **the id of a session leads back to it exactly when no other file comes before it** -/
theorem stem_resolves_iff (hhome : HomesAreDirectories shelf fs) {q : Path Str} {m : DtjSessionMeta}
    (hq : q ∈ globbed shelf store fs) (hm : sessionOf host shelf fs q = some m) :
    resolve_session_path shelf store fs m.session_id = .ok (some m.session_path)
      ↔ StemFound shelf store fs m := by
  obtain ⟨hsession, hpath, hid⟩ := session_spec hhome hq hm
  have hsuffix : suffix q = lit ".dtj" := by
    rw [isSession, Bool.and_eq_true, beq_iff_eq] at hsession
    exact hsession.2
  obtain ⟨hslash, hstem, hplace⟩ := globbed_child hq hsuffix
  have hslash' : SLASH ∉ stem q := fun h => hslash (List.mem_append_left _ h)
  rw [hpath, hid]
  constructor
  · intro h
    obtain ⟨c, hc, -⟩ := bind_eq_ok h
    have hno : isSession fs c = false := by
      rw [← Bool.not_eq_true]
      intro hyes
      unfold resolve_session_path at h
      rw [hc] at h
      dsimp only [bind, Except.bind] at h
      rw [if_pos hyes] at h
      cases h
      rcases hplace with hroot | hsub
      · exact candidate_ne hhome hslash' hc hyes hroot
      · exact candidate_ne hhome hslash' hc hyes hsub
    rw [resolve_eq hslash hstem hc hno, Except.ok.injEq] at h
    refine ⟨⟨c, by rw [hid]; exact hc, hno⟩, ?_⟩
    intro x hx
    rw [hpath] at hx
    have hxs : x = stem q ++ lit ".dtj" := by
      rcases hplace with hroot | hsub
      · exact absurd (hroot.symm.trans hx) (child_ne_sessions store _ _)
      · exact (child_inj (hx.symm.trans hsub)).2
    rw [← Bool.not_eq_true]
    intro hfile
    have hfirst : isSession fs (child store.root (stem q ++ lit ".dtj")) = true := by
      rw [isSession, ← hxs, hfile, hxs, (suffix_child hstem).1]
      rfl
    rw [List.find?_cons_of_pos hfirst, Option.some.injEq] at h
    exact child_ne_sessions store _ _ (h.trans hx)
  · rintro ⟨⟨c, hc, hno⟩, hroot⟩
    rw [hid] at hc
    rw [resolve_eq hslash hstem hc hno]
    rcases hplace with hplace | hplace
    · rw [← hplace, List.find?_cons_of_pos hsession]
    · have hfirst : ¬ isSession fs (child store.root (stem q ++ lit ".dtj")) = true := by
        rw [isSession, hroot _ (hpath.trans hplace)]
        exact Bool.false_ne_true
      rw [List.find?_cons_of_neg hfirst, ← hplace, List.find?_cons_of_pos hsession]

/-- sessions that are found by their stems have different stems -/
theorem stems_differ (hhome : HomesAreDirectories shelf fs) {q q' : Path Str} {m m' : DtjSessionMeta}
    (hq : q ∈ globbed shelf store fs) (hq' : q' ∈ globbed shelf store fs)
    (hm : sessionOf host shelf fs q = some m) (hm' : sessionOf host shelf fs q' = some m')
    (hfound : StemFound shelf store fs m) (hfound' : StemFound shelf store fs m')
    (hid : m.session_id = m'.session_id) : q = q' := by
  have hback := (stem_resolves_iff hhome hq hm).mpr hfound
  have hback' := (stem_resolves_iff hhome hq' hm').mpr hfound'
  rw [hid, hback', Except.ok.injEq, Option.some.injEq] at hback
  rw [← (session_spec hhome hq hm).2.1, ← (session_spec hhome hq' hm').2.1, hback]

end

/-! ## the index of another session -/

/-- an index that is built leaves every entry that has another name -/
theorem index_keeps_entry {ν : Type} [DecidableEq ν] (host : Host ν) (disk : Disk ν) {fs : Fs ν}
    {session index : Path ν} {rebuild : Bool}
    (hnew : ∀ name ∈ index.comps.getLast?, Unused (makeParent disk fs index).1 (disk.temp name))
    {e : Ino × ν} {k : Ino} (he : fs.child e = some k) (hname : index.comps.getLast? ≠ some (.name e.2)) :
    (index_session_dtj host disk fs session index rebuild).1.child e = some k := by
  unfold index_session_dtj
  split
  · exact he
  split
  · split
    · exact he
    · exact he
  have hparent := keeps_makeParent disk fs index (ν := ν)
  have hends := build_ends host disk fs session index
  generalize _build_index_atomic host disk fs session index = w at hends
  have htemp : ∀ {made : Fs ν} {t : ν}, Unused made t → made.child e = some k → e.2 ≠ t := by
    rintro made t ht hmade rfl
    rw [ht e.1] at hmade
    cases hmade
  cases hends with
  | kept r hr => exact he
  | made r hr => exact hparent.child he id
  | failed decoded doc events made fs' name hbuilds exc hpublish r hr =>
    have ht := hnew name hbuilds.name
    rw [hbuilds.made] at ht hparent
    have hmade := hparent.child he id
    obtain ⟨C, hclean, hC⟩ := keeps_cleanup disk fs' index (disk.temp name)
    refine hclean.child ((publish_error host disk ht hpublish).child hmade id) ?_
    exact fun hmem => htemp ht hmade (hC e hmem)
  | published decoded doc events made fs' name hbuilds hpublish r =>
    have ht := hnew name hbuilds.name
    rw [hbuilds.made] at ht hparent
    have hmade := hparent.child he id
    obtain ⟨-, text, e', j, -, hpublished⟩ := publish_ok host disk ht hpublish
    refine hpublished.keeps.child hmade ?_
    rintro (rfl | rfl)
    · exact htemp ht hmade rfl
    · obtain ⟨trail, hlast, -⟩ := entry_eq_some hpublished.entry
      exact hname hlast

/-- the name of the index of a session -/
def indexName (session_path : Path Str) : Str := stem session_path ++ lit ".idx.json"

theorem index_path_eq (store : DtjSessionStore) {p : Path Str} (h : SLASH ∉ stem p) :
    index_path_for store p = child (indexes_dir store) (indexName p) := by
  apply join_name
  · rw [List.mem_append, not_or]
    exact ⟨h, by decide⟩
  · rw [List.length_append, show (lit ".idx.json").length = 9 from rfl]
    omega

theorem keeps_ensure (store : DtjSessionStore) (fs : Fs Str) (disk : Disk Str) :
    Keeps ∅ ∅ fs (ensure store fs disk).1 := by
  have hroot : Keeps ∅ ∅ fs (makeDirs fs disk store.root).1 := keeps_mkdirs _ _ _ _ _
  unfold ensure
  generalize makeDirs fs disk store.root = made at hroot
  obtain ⟨fs', ok⟩ := made
  cases ok with
  | false => exact hroot
  | true =>
    have hindexes : Keeps ∅ ∅ fs' (makeDirs fs' disk (indexes_dir store)).1 := keeps_mkdirs _ _ _ _ _
    exact (hroot.trans hindexes).mono (by simp) (by simp)

/-- `ensure_index` on one path leaves the entries with the name of another index -/
def Leaves (host : Host Str) (shelf : Shelf) (store : DtjSessionStore) (fs : Fs Str) (disk : Disk Str)
    (p other : Path Str) : Prop :=
  ∀ rebuild d k,
    (∀ name ∈ (index_path_for store p).comps.getLast?,
      Unused (makeParent disk (ensure store fs disk).1 (index_path_for store p)).1 (disk.temp name)) →
    fs.child (d, indexName other) = some k →
    (ensure_index host shelf store fs disk p rebuild).1.child (d, indexName other) = some k

theorem ensure_leaves (host : Host Str) (shelf : Shelf) (store : DtjSessionStore) (fs : Fs Str)
    (disk : Disk Str) {p other : Path Str} (hslash : SLASH ∉ stem p) (hne : stem p ≠ stem other)
    (hself : shelf.expanduser p = .ok p) : Leaves host shelf store fs disk p other := by
  intro rebuild d k hnew hk
  have hkeeps := keeps_ensure store fs disk
  unfold ensure_index
  rw [hself]
  dsimp only
  generalize ensure store fs disk = made at hkeeps hnew
  obtain ⟨fs', ok⟩ := made
  have hk' : fs'.child (d, indexName other) = some k := hkeeps.child hk id
  cases ok with
  | false => exact hk'
  | true =>
    refine index_keeps_entry host disk hnew hk' ?_
    rw [index_path_eq store hslash, child, List.getLast?_concat]
    intro h
    exact hne (List.append_cancel_right (Comp.name.inj (Option.some.inj h)))

section
variable (host : Host Str) (shelf : Shelf) (store : DtjSessionStore) (fs : Fs Str) (disk : Disk Str)

/-- **The ids of the listed sessions are different, lead back to their paths and give each an index of
its own exactly when no other file comes before one of them.** -/
theorem ids_unique_iff (hhome : HomesAreDirectories shelf fs) {l : Listing}
    (hlist : list_sessions host shelf store fs = .ok (.ok l)) :
    ((l.sessions.map DtjSessionMeta.session_id).Nodup
      ∧ (∀ m ∈ l.sessions,
        resolve_session_path shelf store fs m.session_id = .ok (some m.session_path))
      ∧ ∀ m ∈ l.sessions, ∀ m' ∈ l.sessions, m.session_path ≠ m'.session_path →
        index_path_for store m.session_path ≠ index_path_for store m'.session_path
        ∧ Leaves host shelf store fs disk m.session_path m'.session_path)
    ↔ ∀ m ∈ l.sessions, StemFound shelf store fs m := by
  obtain ⟨paths, hnodup, hglobbed, hsessions⟩ := list_spec hlist
  have hfrom : ∀ m ∈ l.sessions, ∃ q ∈ paths, sessionOf host shelf fs q = some m := by
    intro m hm
    rw [hsessions] at hm
    exact List.mem_filterMap.mp hm
  constructor
  · rintro ⟨-, hback, -⟩ m hm
    obtain ⟨q, hq, hqm⟩ := hfrom m hm
    exact (stem_resolves_iff hhome (hglobbed q hq) hqm).mp (hback m hm)
  · intro hfound
    refine ⟨?_, ?_, ?_⟩
    · rw [hsessions, List.Nodup, List.pairwise_map, List.pairwise_filterMap]
      refine hnodup.imp_of_mem ?_
      intro q q' hq hq' hne m hm m' hm' hid
      have hin : m ∈ l.sessions := hsessions ▸ List.mem_filterMap.mpr ⟨q, hq, hm⟩
      have hin' : m' ∈ l.sessions := hsessions ▸ List.mem_filterMap.mpr ⟨q', hq', hm'⟩
      exact hne (stems_differ hhome (hglobbed q hq) (hglobbed q' hq') hm hm' (hfound m hin)
        (hfound m' hin') hid)
    · intro m hm
      obtain ⟨q, hq, hqm⟩ := hfrom m hm
      exact (stem_resolves_iff hhome (hglobbed q hq) hqm).mpr (hfound m hm)
    · intro m hm m' hm' hne
      obtain ⟨q, hq, hqm⟩ := hfrom m hm
      obtain ⟨q', hq', hqm'⟩ := hfrom m' hm'
      obtain ⟨hsession, hpath, hid⟩ := session_spec hhome (hglobbed q hq) hqm
      obtain ⟨hsession', hpath', hid'⟩ := session_spec hhome (hglobbed q' hq') hqm'
      have hstems : stem q ≠ stem q' := by
        intro h
        rw [← hid, ← hid'] at h
        have hsame := stems_differ hhome (hglobbed q hq) (hglobbed q' hq') hqm hqm' (hfound m hm)
          (hfound m' hm') h
        exact hne (hpath.trans (hsame.trans hpath'.symm))
      have hslash : ∀ {p : Path Str}, p ∈ globbed shelf store fs → isSession fs p = true →
          SLASH ∉ stem p := by
        intro p hp hsession h
        rw [isSession, Bool.and_eq_true, beq_iff_eq] at hsession
        exact (globbed_child hp hsession.2).1 (List.mem_append_left _ h)
      have hself : shelf.expanduser q = .ok q := by
        unfold sessionOf at hqm
        split at hqm
        · rename_i o hopen
          obtain ⟨p, hp, hp', -, -⟩ := open_spec hopen
          rwa [expanded_self hhome (hglobbed q hq) hp hp'] at hp
        · cases hqm
      rw [hpath, hpath', index_path_eq store (hslash (hglobbed q hq) hsession),
        index_path_eq store (hslash (hglobbed q' hq') hsession')]
      refine ⟨?_, ensure_leaves host shelf store fs disk (hslash (hglobbed q hq) hsession) hstems hself⟩
      intro h
      exact hstems (List.append_cancel_right (child_inj h).2)

end

/-! ## a name in both directories -/

/-- `/st` with a session `a.dtj`, and another one in its `sessions` or none -/
def storeFs (both : Bool) : Fs Str where
  nodes
    | 0 => some (.dir (fun x => if x = lit "st" then some 1 else none) 0)
    | 1 => some (.dir (fun x =>
        if x = lit "a.dtj" then some 2 else if x = lit "sessions" then some 3 else none) 0)
    | 2 => some (.file journalBytes)
    | 3 => some (.dir (fun x => if x = lit "a.dtj" ∧ both = true then some 4 else none) 1)
    | 4 => some (.file journalBytes)
    | _ => none
  root := 0
  cwd := 0
  limit := 40
  next := 5
  free
    | 0, hi => absurd hi (by decide : ¬ 5 ≤ 0)
    | 1, hi => absurd hi (by decide : ¬ 5 ≤ 1)
    | 2, hi => absurd hi (by decide : ¬ 5 ≤ 2)
    | 3, hi => absurd hi (by decide : ¬ 5 ≤ 3)
    | 4, hi => absurd hi (by decide : ¬ 5 ≤ 4)
    | _ + 5, _ => rfl

def exampleShelf : Shelf where
  home _ := none
  resolve _ p := .ok p
  glob fs p := [lit "a.dtj"].filter fun x => is_file fs (child p x)
  nodup _ _ := (List.nodup_singleton _).filter _
  plain := by
    intro fs p x hx
    rw [List.mem_singleton.mp (List.mem_filter.mp hx).1]
    decide

def exampleStore : DtjSessionStore where
  root := ⟨true, [.name "st"]⟩
  expanded := not_tilde_absolute rfl

def storeHost : Host Str where
  python := examplePython
  str p := List.intercalate (lit "/") ([] :: p.comps.map fun c =>
    match c with
    | .up => lit ".."
    | .name x => x)
  read_session _ bytes :=
    if bytes.take 4 = [0x44, 0x54, 0x4a, 0x31] then .ok exampleDecoded
    else .ok [("ok", .bool false), ("error", .dict [("kind", .str "BadMagic")])]
  stat _ _ := some exampleIdentity
  dump v := (exampleText v, true)
  dump_indent v := (exampleText v, true)
  load _ := .error (.inl "Expecting value: line 1 column 1 (char 0)")

def rootPath : Path Str := child exampleStore.root "a.dtj"

def subPath : Path Str := child (sessions_dir exampleStore) "a.dtj"

def storeDisk : Disk Str where
  before := some exampleIdentity
  after := some exampleIdentity
  mkdirs _ := true
  temp _ := ".tmp"
  unlinks := true
  opens := true
  kept := none
  reopens := true
  replaces := true
  cleans := true

theorem exampleShelf_homes (fs : Fs Str) : HomesAreDirectories exampleShelf fs := by
  intro user h hhome
  cases hhome

theorem ids_unique_example : resolve_session_path exampleShelf exampleStore (storeFs false) "a"
    = .ok (some rootPath) := by
  have hpaths : iter_session_paths exampleShelf exampleStore (storeFs false) = .ok [rootPath] := rfl
  have hlist : ∃ l, list_sessions storeHost exampleShelf exampleStore (storeFs false) = .ok (.ok l)
      ∧ ∃ m, l.sessions = [m] ∧ m.session_id = lit "a" ∧ m.session_path = rootPath := by
    unfold list_sessions
    rw [hpaths]
    dsimp only [bind, Except.bind]
    rw [List.mergeSort_singleton]
    exact ⟨_, rfl, _, rfl, rfl, rfl⟩
  obtain ⟨l, hl, m, hm, hid, hpath⟩ := hlist
  have hall := (ids_unique_iff storeHost exampleShelf exampleStore (storeFs false) storeDisk
    (exampleShelf_homes _) hl).mpr
  have hback := (hall ?_).2.1 m (by rw [hm]; exact List.mem_singleton_self m)
  · rwa [hid, hpath] at hback
  · intro m' hm'
    rw [hm, List.mem_singleton] at hm'
    subst hm'
    refine ⟨⟨ofStr (lit "a"), by rw [hid]; rfl, rfl⟩, ?_⟩
    intro x hx
    rw [hpath] at hx
    exact absurd hx (child_ne_sessions exampleStore _ x)

/-- **Two sessions of one name: one id, which leads to the first, and one index.** -/
theorem ids_shared : ∃ l, list_sessions storeHost exampleShelf exampleStore (storeFs true) = .ok (.ok l)
    ∧ l.sessions.map DtjSessionMeta.session_id = [lit "a", lit "a"]
    ∧ l.sessions.map DtjSessionMeta.session_path = [rootPath, subPath]
    ∧ resolve_session_path exampleShelf exampleStore (storeFs true) "a" = .ok (some rootPath)
    ∧ index_path_for exampleStore rootPath = index_path_for exampleStore subPath := by
  have hpaths : iter_session_paths exampleShelf exampleStore (storeFs true)
      = .ok [rootPath, subPath] := rfl
  have hsort : [rootPath, subPath].mergeSort (fun p q => decide (nameOf p ≤ nameOf q))
      = [rootPath, subPath] := by
    apply List.mergeSort_of_pairwise
    simp [nameOf_child, rootPath, subPath]
  unfold list_sessions
  rw [hpaths]
  dsimp only [bind, Except.bind]
  rw [hsort]
  exact ⟨_, rfl, rfl, rfl, rfl, rfl⟩

end Dtj.Mcp
