import Dtj.Mcp.Index

/-!
# Files derived from a session

`index_session_dtj` and `baseline_save_dtj` write to a path that the caller gives.  The session is left
as it is unless the index takes the place of an entry on the way to it, or the baseline path, when its
directories are there, leads to the same file.

* `baseline_save_dtj`   the baseline of a session;
* `Call`, `run`         one call of either tool;
* `Overwrites`          when it writes over the session;
* `journal_kept_iff`    **the bytes of the session are left exactly when it does not**.
-/

namespace Dtj.Mcp

open Posix

section
variable {ν : Type} [DecidableEq ν] (host : Host ν) (disk : Disk ν)
  (_baseline_build : List Dict → Except Exc Dict)

def _fail (session : Path ν) (error : Dict) : Dict :=
  [("ok", .bool false), ("adapter", adapter), ("session_path", .str (host.str session)),
    ("error", .dict error)]

/-- the objects among the decoded events -/
def _events (decoded : Dict) : Except Exc (List Dict) :=
  match (get decoded "events").orElse (.list []) with
  | .list raw => .ok (raw.filterMap fun e =>
      match e with
      | .dict e => some e
      | _ => none)
  | .str _ => .ok []
  | .dict _ => .ok []
  | _ => .error .TypeError

/-- `d[key] = value` -/
def setItem (key : Str) (value : Py) : Dict → Dict
  | [] => [(key, value)]
  | (k, v) :: rest => if k = key then (key, value) :: rest else (k, v) :: setItem key value rest

/-- the baseline of a session that decodes -/
def baseline (decoded : Dict) (session : Path ν) : Except Exc Dict := do
  let events ← _events decoded
  let data ← _baseline_build events
  return setItem "session_path" (.str (host.str session)) data

/-- `blank` says that `baseline_path` has only white space -/
def baseline_save_dtj (fs : Fs ν) (session base_path : Path ν) (blank : Bool) :
    Fs ν × Except Exc Dict :=
  let failed : Dict := _fail host session [("kind", .str "Io"),
    ("message", .str "failed to write baseline"), ("baseline_path", .str (host.str base_path))]
  if blank then
    (fs, .ok (_fail host session [("kind", .str "InvalidPath"),
      ("message", .str "baseline_path must be an explicit non-empty path")]))
  else
    match read_session_dtj host fs session with
    | .error e => (fs, .error e)
    | .ok decoded =>
    if !(get decoded "ok").truthy then (fs, .ok decoded)
    else
      match baseline host _baseline_build decoded session with
      | .error e => (fs, .error e)
      | .ok data =>
      match makeParent disk fs base_path with
      | (fs, false) => (fs, .ok failed)
      | (fs, true) =>
      match writeText disk fs base_path (host.dump_indent (.dict data)) with
      | (fs, .error .OSError) => (fs, .ok failed)
      | (fs, .error e) => (fs, .error e)
      | (fs, .ok ()) =>
        (fs, .ok [("ok", .bool true), ("adapter", (get decoded "adapter").orElse adapter),
          ("session_path", .str (host.str session)), ("torn_tail", .bool (get decoded "torn_tail").truthy),
          ("baseline_path", .str (host.str base_path)), ("baseline", .dict data),
          ("text", .str (lit "baseline saved: " ++ host.str base_path ++ lit "  lines=" ++
            host.python.str (get data "lines")))])

/-! ## a call of either tool -/

inductive Call (ν : Type) where
  | index (index_path : Path ν) (rebuild : Bool)
  | baseline (baseline_path : Path ν) (blank : Bool)

def Call.path : Call ν → Path ν
  | .index index_path _ => index_path
  | .baseline baseline_path _ => baseline_path

def run (fs : Fs ν) (session : Path ν) : Call ν → Fs ν × Except Exc Dict
  | .index index_path rebuild => index_session_dtj host disk fs session index_path rebuild
  | .baseline baseline_path blank =>
    baseline_save_dtj host disk _baseline_build fs session baseline_path blank

/-- the index is published over an entry on the way to the session: its last name, or a link -/
structure Replaces (fs : Fs ν) (session index : Path ν) (rebuild : Bool) : Prop where
  rebuild : rebuild = true
  works : Works disk
  published : ∃ decoded doc events made name text, Builds host disk fs session index decoded doc events made name ∧
    host.dump (.dict doc) = (text, true) ∧
    ∃ e, made.entry index = some e ∧ (∀ k, made.child e = some k → made.isDirectory k = false) ∧
      ∃ trail i, fs.resolve session = some (trail, .node i) ∧ e ∈ trail

/-- the baseline is written to the file that the session is -/
structure Truncates (fs : Fs ν) (session base_path : Path ν) (blank : Bool) : Prop where
  blank : blank = false
  opens : disk.opens = true
  written : ∃ decoded data made, read_session_dtj host fs session = .ok decoded ∧
    (get decoded "ok").truthy = true ∧ baseline host _baseline_build decoded session = .ok data ∧
    makeParent disk fs base_path = (made, true) ∧
    ∃ trail trail' i, fs.resolve session = some (trail, .node i) ∧
      made.resolve base_path = some (trail', .node i)

def Overwrites (fs : Fs ν) (session : Path ν) : Call ν → Prop
  | .index index_path rebuild => Replaces host disk fs session index_path rebuild
  | .baseline baseline_path blank => Truncates host disk _baseline_build fs session baseline_path blank

/-- a session that decodes starts as a journal does, and no JSON text starts so -/
structure Distinct : Prop where
  dump : ∀ d, (host.dump (.dict d)).1.head? ≠ some 0x44
  dump_indent : ∀ d, (host.dump_indent (.dict d)).1.head? ≠ some 0x44
  magic : ∀ session bytes decoded, host.read_session session bytes = .ok decoded →
    (get decoded "ok").truthy = true → bytes.head? = some 0x44

variable {fs fs' : Fs ν} {session index : Path ν}

theorem keeps_makeParent (fs : Fs ν) (p : Path ν) : Keeps ∅ ∅ fs (makeParent disk fs p).1 :=
  keeps_mkdirs _ _ _ _ _

omit [DecidableEq ν] in
/-- an entry on the way of a path has no new name -/
theorem ne_temp {made : Fs ν} {t : ν} (ht : Unused made t) (hmade : Keeps ∅ ∅ fs made)
    {trail : List (Ino × ν)} {i : Ino} (hp : fs.resolve session = some (trail, .node i)) :
    ∀ e ∈ trail, e.2 ≠ t := by
  rintro e he rfl
  obtain ⟨k, hk⟩ := walk_trail hp e he
  have hnone := ht e.1
  rw [hmade.child hk id] at hnone
  cases hnone

theorem keeps_cleanup (fs : Fs ν) (index : Path ν) (t : ν) :
    ∃ C, Keeps C ∅ fs (cleanup disk fs (with_name index t)) ∧ ∀ e ∈ C, e.2 = t := by
  unfold cleanup
  split
  case isFalse => exact ⟨∅, Keeps.refl _ _ _, fun e he => he.elim⟩
  cases hunlink : fs.unlink (with_name index t) with
  | none => exact ⟨∅, Keeps.refl _ _ _, fun e he => he.elim⟩
  | some fs' =>
    obtain ⟨e, he, hkeeps⟩ := keeps_unlink hunlink
    refine ⟨{e}, hkeeps, ?_⟩
    rintro e' rfl
    obtain ⟨_, hlast, _⟩ := entry_eq_some he
    rw [with_name, List.getLast?_concat] at hlast
    cases hlast
    rfl

/-- **an index that does not come over an entry of the session leaves it** -/
theorem index_keeps {rebuild : Bool}
    (hnew : ∀ name ∈ index.comps.getLast?, Unused (makeParent disk fs index).1 (disk.temp name))
    (h : ¬ Replaces host disk fs session index rebuild) :
    (index_session_dtj host disk fs session index rebuild).1.read session = fs.read session := by
  unfold index_session_dtj
  split
  · rfl
  rename_i hfile
  split
  · split
    · rfl
    · rfl
  rename_i hrebuild
  cases hread : fs.read session with
  | none =>
    rw [hread] at hfile
    exact absurd rfl hfile
  | some bytes =>
  obtain ⟨trail, i, hp, hi⟩ := read_eq_some hread
  have hparent := keeps_makeParent disk fs index
  have hends := build_ends host disk fs session index
  generalize _build_index_atomic host disk fs session index = w at hends
  cases hends with
  | kept r hr => exact hread
  | made r hr => exact read_keeps hparent hp hi (fun _ _ => id) id
  | failed decoded doc events made fs' name hbuilds e hpublish r hr =>
    have ht := hnew name hbuilds.name
    rw [hbuilds.made] at ht hparent
    have herror := publish_error host disk ht hpublish
    obtain ⟨C, hclean, hC⟩ := keeps_cleanup disk fs' index (disk.temp name)
    refine read_keeps ((hparent.trans herror).trans hclean) hp hi ?_ (by simp)
    intro e he hmem
    rcases hmem with hmem | hmem
    · simp at hmem
    · exact ne_temp ht hparent hp e he (hC e hmem)
  | published decoded doc events made fs' name hbuilds hpublish r =>
    have ht := hnew name hbuilds.name
    rw [hbuilds.made] at ht hparent
    obtain ⟨hworks, text, e, j, hdump, hpublished⟩ := publish_ok host disk ht hpublish
    have havoid : e ∉ trail := fun he =>
      h ⟨by simpa using hrebuild, hworks, decoded, doc, events, made, name, text, hbuilds, hdump, e,
        hpublished.entry, hpublished.old, trail, i, hp, he⟩
    refine read_keeps (hparent.trans hpublished.keeps) hp hi ?_ (by simp)
    rintro e' he' (hmem | rfl | rfl)
    · exact hmem.elim
    · exact ne_temp ht hparent hp _ he' rfl
    · exact havoid he'

omit [DecidableEq ν] in
theorem checks_of_document {python : Python} {identity : Identity} {decoded doc : Dict} {events : List Py}
    (h : _build_document python identity decoded events = .ok doc) :
    get doc "schema_version" = .int INDEX_SCHEMA_VERSION ∧
      getD doc "event_count" (.int (-1)) = .int events.length := by
  unfold _build_document at h
  obtain ⟨normalized, hnormalized, h⟩ := bind_eq_ok h
  obtain ⟨chunks_committed, hchunks, h⟩ := bind_eq_ok h
  rw [← map_dict_of_projections hnormalized, List.length_map]
  cases h
  exact ⟨rfl, rfl⟩

/-- **a publication of which no call fails ends well** -/
theorem publish_works {t : ν} (ht : Unused fs t) (hworks : Works disk) {doc : Dict} {n : Nat}
    {text : List UInt8} (hdump : host.dump (.dict doc) = (text, true))
    (hload : host.load (text ++ [0x0a]) = .ok (.dict doc))
    (hversion : get doc "schema_version" = .int INDEX_SCHEMA_VERSION)
    (hcount : getD doc "event_count" (.int (-1)) = .int n) {e : Ino × ν} {i : Ino}
    (he : fs.entry index = some e) (hi : fs.child e = some i)
    (hold : ∀ k, fs.child e = some k → fs.isDirectory k = false) :
    ∃ fs', publish host disk fs (with_name index t) index doc n = (fs', .ok ()) := by
  obtain ⟨trail, hlast, hwalk⟩ := entry_eq_some he
  obtain ⟨entries, par, hd, hx⟩ := nodes_of_child hi
  have hnone : entries t = none := by
    have hchild := ht e.1
    rw [Fs.child, hd] at hchild
    exact hchild
  have hlimit : fs.limit - 1 + 1 = fs.limit := by
    cases hl : fs.limit with
    | zero =>
      rw [hl] at hwalk
      cases hwalk
    | succ m => rfl
  have hp : fs.resolve (with_name index t) = some (trail, .absent e.1 t) := by
    have hsnoc := (walk_snoc hwalk hd t).1 hnone
    rw [hlimit] at hsnoc
    exact hsnoc
  unfold publish
  rw [isPresent_unused ht, if_neg Bool.false_ne_true]
  dsimp only
  have hspec : Written disk fs index t (host.dump (.dict doc)) _ :=
    writeText_spec disk ht _
  generalize writeText disk fs (with_name index t) (host.dump (.dict doc)) = w at hspec
  cases hspec with
  | closed hdisk =>
    exfalso
    rcases hdisk with hclosed | hwrite
    · rw [hworks.opens] at hclosed
      cases hclosed
    · rw [Fs.write, hp] at hwrite
      cases hwrite
  | created trail' d bytes r hopens hp' hr hok =>
    rw [hp] at hp'
    cases hp'
    have hr' : r = .ok () := hok hworks.kept (by rw [hdump])
    obtain ⟨_, _, rfl⟩ := hr hr'
    subst hr'
    rw [hdump]
    dsimp only
    have hadd : Keeps ∅ ∅ fs (fs.add e.1 t (.file (text ++ [0x0a]))) := keeps_add hd hnone _
    have hwalk' := walk_keeps hadd hwalk fun _ _ => id
    have hchild := child_add hd t (.file (text ++ [0x0a]))
    have hcontent : (fs.add e.1 t (.file (text ++ [0x0a]))).content fs.next = some (text ++ [0x0a]) :=
      content_add e.1 t _
    have hback (k : Ino) (h : (fs.add e.1 t (.file (text ++ [0x0a]))).isDirectory k = true) :
        fs.isDirectory k = true := isDirectory_add h
    have hstart := hadd.start index
    have hlimit' := hadd.limit
    generalize fs.add e.1 t (.file (text ++ [0x0a])) = added at *
    have hread : added.read (with_name index t) = some (text ++ [0x0a]) := by
      obtain ⟨entries', par', hd', hx'⟩ := nodes_of_child hchild
      have hsnoc := (walk_snoc hwalk' hd' t).2 _ _ hx' (nodes_of_content hcontent)
      rw [hlimit, ← hlimit', ← hstart] at hsnoc
      have hp' : added.resolve (with_name index t) = some (trail ++ [(e.1, t)], .node fs.next) := hsnoc
      exact (read_of_resolve hp').trans hcontent
    rw [hworks.reopens, hread]
    dsimp only
    rw [hload]
    dsimp only
    rw [hversion, hcount]
    have hrename : (added.rename (with_name index t) index).isSome := by
      rw [← hlimit', ← hstart] at hwalk'
      have hentry : added.entry index = some e := by rw [Fs.entry, hlast, hwalk']
      refine rename_isSome (entry_with_name hwalk') hentry hchild ?_ ?_ ?_
      · rw [Fs.isDirectory, nodes_of_content hcontent]
      · exact hadd.isDirectory (by rw [Fs.isDirectory, hd])
      · intro k hk
        rw [hadd.child hi id] at hk
        cases hk
        have hfile := hold i hi
        by_contra hdir
        rw [hback i (by simpa using hdir)] at hfile
        cases hfile
    obtain ⟨fs', hfs'⟩ := Option.isSome_iff_exists.mp hrename
    rw [hworks.replaces, hfs']
    refine ⟨fs', ?_⟩
    simp [Python.isInt, Python.toInt]

omit [DecidableEq ν] in
/-- a text, or a part of it, does not start as a journal does -/
theorem head_take {text : List UInt8 × Bool} (h : text.1.head? ≠ some 0x44) (k : Nat) :
    ((if text.2 then text.1 ++ [0x0a] else text.1).take k).head? ≠ some 0x44 := by
  cases k with
  | zero =>
    rw [List.take_zero]
    exact nofun
  | succ k =>
    rw [List.head?_take, if_neg (Nat.succ_ne_zero k)]
    split
    · cases htext : text.1 with
      | nil => decide
      | cons b rest =>
        rw [htext] at h
        exact h
    · exact h

/-- **an index that comes over an entry of the session puts other bytes, or nothing, in its place** -/
theorem index_replaces {rebuild : Bool} (hreal : Distinct host) (hround : RoundTrips host disk fs session)
    (hnew : ∀ name ∈ index.comps.getLast?, Unused (makeParent disk fs index).1 (disk.temp name))
    (h : Replaces host disk fs session index rebuild) :
    (index_session_dtj host disk fs session index rebuild).1.read session ≠ fs.read session := by
  obtain ⟨rfl, hworks, decoded, doc, events, made, name, text, hbuilds, hdump, e, he, hold, trail, i, hp, hmem⟩ := h
  obtain ⟨before, hbefore, hafter, hdoc⟩ := hbuilds.before
  have ht := hnew name hbuilds.name
  have hparent := keeps_makeParent disk fs index
  rw [hbuilds.made] at ht hparent
  obtain ⟨k, hk⟩ := walk_trail hp e hmem
  obtain ⟨hversion, hcount⟩ := checks_of_document hdoc
  obtain ⟨fs', hpublish⟩ := publish_works host disk ht hworks hdump
    (hround before decoded events doc text hbefore hbuilds.read hbuilds.events hdoc hdump) hversion hcount he
    (hparent.child hk id) hold
  have hfs' : (index_session_dtj host disk fs session index true).1 = fs' := by
    have hfile : (fs.read session).isNone = false := by
      cases hread : fs.read session with
      | some bytes => rfl
      | none =>
        have hfails := hbuilds.read
        rw [read_session_dtj, hread] at hfails
        cases hfails
    simp only [index_session_dtj, hfile, _build_index_atomic, hbefore, hbuilds.read, hbuilds.ok, hafter,
      hbuilds.events, hdoc, hbuilds.made, hbuilds.name, hpublish]
    simp
  rw [hfs']
  intro hsame
  obtain ⟨_, text', e', j, hdump', hpublished⟩ := publish_ok host disk ht hpublish
  cases he.symm.trans hpublished.entry
  cases hread : fs.read session with
  | none =>
    have hfails := hbuilds.read
    rw [read_session_dtj, hread] at hfails
    cases hfails
  | some bytes =>
    rw [hread] at hsame
    obtain ⟨trail', i', hp', hi'⟩ := read_eq_some hsame
    have hp₁ := resolve_keeps hparent hp fun _ _ => id
    have hij : i' = j := by
      rw [Fs.resolve, hpublished.keeps.limit, hpublished.keeps.start, ← List.append_nil session.comps] at hp'
      exact walk_replaced hpublished.keeps hpublished.only (by rw [hpublished.content]; rfl) hp₁
        ⟨e, hmem, .inr rfl⟩ hp'
    rw [hij, hpublished.content] at hi'
    have hbytes : bytes.head? = some 0x44 := by
      have hdecodes := hbuilds.read
      rw [read_session_dtj, hread] at hdecodes
      exact hreal.magic session bytes decoded hdecodes hbuilds.ok
    have hhead := head_take (hreal.dump doc) (text'.length + 1)
    rw [hdump', if_pos rfl, List.take_of_length_le (by simp), Option.some.inj hi'] at hhead
    exact hhead hbytes

/-! ## the baseline -/

/-- what is left in the file: all the text or a part of it -/
def leftIn (text : List UInt8 × Bool) : List UInt8 :=
  let bytes := if text.2 then text.1 ++ [0x0a] else text.1
  bytes.take (disk.kept.getD bytes.length)

theorem writeText_fst (fs : Fs ν) (p : Path ν) (text : List UInt8 × Bool) :
    (writeText disk fs p text).1 =
      if disk.opens then (fs.write p (leftIn disk text)).getD fs else fs := by
  unfold writeText leftIn
  dsimp only
  cases disk.opens with
  | false => rfl
  | true =>
    cases fs.write p _ with
    | none => rfl
    | some fs' => rfl

/-- the baseline of a session that decodes goes to the file that the path leads to -/
theorem baseline_save_fst {base_path : Path ν} {decoded data : Dict} {made : Fs ν}
    (hread : read_session_dtj host fs session = .ok decoded) (hok : (get decoded "ok").truthy = true)
    (hdata : baseline host _baseline_build decoded session = .ok data)
    (hmade : makeParent disk fs base_path = (made, true)) :
    (baseline_save_dtj host disk _baseline_build fs session base_path false).1 =
      (writeText disk made base_path (host.dump_indent (.dict data))).1 := by
  simp only [baseline_save_dtj, hread, hok, hdata, hmade]
  rcases writeText disk made base_path (host.dump_indent (.dict data)) with ⟨fs', e | u⟩
  · cases e
    all_goals rfl
  · rfl

theorem baseline_keeps {base_path : Path ν} {blank : Bool}
    (h : ¬ Truncates host disk _baseline_build fs session base_path blank) :
    (baseline_save_dtj host disk _baseline_build fs session base_path blank).1.read session =
      fs.read session := by
  cases blank with
  | true => rfl
  | false =>
  cases hread : read_session_dtj host fs session with
  | error e => simp [baseline_save_dtj, hread]
  | ok decoded =>
  cases hok : (get decoded "ok").truthy with
  | false => simp [baseline_save_dtj, hread, hok]
  | true =>
  cases hdata : baseline host _baseline_build decoded session with
  | error e => simp [baseline_save_dtj, hread, hok, hdata]
  | ok data =>
  cases hfile : fs.read session with
  | none =>
    rw [read_session_dtj, hfile] at hread
    cases hread
  | some bytes =>
  obtain ⟨trail, i, hp, hi⟩ := read_eq_some hfile
  have hparent := keeps_makeParent disk fs base_path
  cases hmade : makeParent disk fs base_path with
  | mk made ok =>
  rw [hmade] at hparent
  cases ok with
  | false =>
    have hsame : (baseline_save_dtj host disk _baseline_build fs session base_path false).1 = made := by
      simp [baseline_save_dtj, hread, hok, hdata, hmade]
    rw [hsame]
    exact read_keeps hparent hp hi (fun _ _ => id) id
  | true =>
    rw [baseline_save_fst host disk _baseline_build hread hok hdata hmade, writeText_fst]
    split
    case isFalse => exact read_keeps hparent hp hi (fun _ _ => id) id
    rename_i hopens
    cases hwrite : made.write base_path (leftIn disk (host.dump_indent (.dict data))) with
    | none => exact read_keeps hparent hp hi (fun _ _ => id) id
    | some fs' =>
      obtain ⟨W, hkeeps, hW⟩ := keeps_write hwrite
      refine read_keeps (hparent.trans hkeeps) hp hi (by simp) ?_
      rintro (hmem | hmem)
      · exact hmem
      · obtain ⟨trail', hbase⟩ := hW i hmem
        exact h ⟨rfl, hopens, decoded, data, made, hread, hok, hdata, hmade, trail, trail', i, hp, hbase⟩

theorem baseline_truncates {base_path : Path ν} {blank : Bool} (hreal : Distinct host)
    (h : Truncates host disk _baseline_build fs session base_path blank) :
    (baseline_save_dtj host disk _baseline_build fs session base_path blank).1.read session ≠
      fs.read session := by
  obtain ⟨rfl, hopens, decoded, data, made, hread, hok, hdata, hmade, trail, trail', i, hp, hbase⟩ := h
  have hparent := keeps_makeParent disk fs base_path
  rw [hmade] at hparent
  cases hfile : fs.read session with
  | none =>
    rw [read_session_dtj, hfile] at hread
    cases hread
  | some bytes =>
  have hi : fs.content i = some bytes := (read_of_resolve hp).symm.trans hfile
  have hmagic : bytes.head? = some 0x44 := by
    rw [read_session_dtj, hfile] at hread
    exact hreal.magic session bytes decoded hread hok
  have hi' := hparent.content hi id
  have hwrite : made.write base_path (leftIn disk (host.dump_indent (.dict data))) =
      some (made.put i (.file (leftIn disk (host.dump_indent (.dict data))))) := by
    rw [Fs.write, hbase]
    dsimp only
    rw [hi']
    exact if_pos rfl
  rw [baseline_save_fst host disk _baseline_build hread hok hdata hmade, writeText_fst, if_pos hopens,
    hwrite, Option.getD_some]
  have hp' := resolve_keeps (hparent.trans (keeps_put hi' (leftIn disk (host.dump_indent (.dict data)))))
    hp (by simp)
  rw [read_of_resolve hp', Fs.content, put_self]
  intro hsame
  have hhead := head_take (hreal.dump_indent data) (disk.kept.getD
    (if (host.dump_indent (.dict data)).2 then (host.dump_indent (.dict data)).1 ++ [0x0a]
      else (host.dump_indent (.dict data)).1).length)
  have hleft : leftIn disk (host.dump_indent (.dict data)) = bytes := Option.some.inj hsame
  rw [← hleft] at hmagic
  exact hhead hmagic

/-- **the bytes of the session are left exactly when the call does not write over it** -/
theorem journal_kept_iff (fs : Fs ν) (session : Path ν) (call : Call ν) (hreal : Distinct host)
    (hround : RoundTrips host disk fs session)
    (hnew : ∀ name ∈ call.path.comps.getLast?, Unused (makeParent disk fs call.path).1 (disk.temp name)) :
    (run host disk _baseline_build fs session call).1.read session = fs.read session ↔
      ¬ Overwrites host disk _baseline_build fs session call := by
  cases call with
  | index index_path rebuild =>
    exact ⟨fun hsame h => index_replaces host disk hreal hround hnew h hsame, index_keeps host disk hnew⟩
  | baseline baseline_path blank =>
    exact ⟨fun hsame h => baseline_truncates host disk _baseline_build hreal h hsame,
      baseline_keeps host disk _baseline_build⟩

end

/-! ## the example's session under its own path -/

def exampleBaseline (events : List Dict) : Except Exc Dict :=
  .ok [("version", .int 1), ("format", .str "dtj-baseline-v1"), ("lines", .int events.length)]

theorem exampleHost_distinct : Distinct exampleHost where
  dump d := by
    show ((json (.dict d)).map UInt32.toUInt8).head? ≠ some 0x44
    rw [json, List.append_assoc]
    exact (by decide : (0x7b : UInt8) ≠ 0x44) ∘ Option.some.inj
  dump_indent d := by
    show ((json (.dict d)).map UInt32.toUInt8).head? ≠ some 0x44
    rw [json, List.append_assoc]
    exact (by decide : (0x7b : UInt8) ≠ 0x44) ∘ Option.some.inj
  magic _ bytes decoded h hok := by
    dsimp only [exampleHost] at h
    split at h
    · rename_i htake
      cases bytes with
      | nil => cases htake
      | cons b rest => exact congrArg List.head? htake
    · cases h
      cases hok

set_option maxRecDepth 100000 in
/-- an index next to the session does not come over it -/
theorem journal_kept_example :
    ¬ Overwrites exampleHost exampleDisk exampleBaseline exampleFs (examplePath "s.dtj")
      (.index (examplePath "i.json") true) := by
  have hnew : ∀ name ∈ (examplePath "i.json").comps.getLast?,
      Unused (makeParent exampleDisk exampleFs (examplePath "i.json")).1 (exampleDisk.temp name) := by
    rintro name hname
    cases hname
    exact exampleFs_unused (by decide)
  exact (journal_kept_iff exampleHost exampleDisk exampleBaseline exampleFs (examplePath "s.dtj")
    (.index (examplePath "i.json") true) exampleHost_distinct exampleHost_roundTrips hnew).mp
    (by decide +kernel)

set_option maxRecDepth 100000 in
/-- the session's own path: the index takes its place, and the baseline is written into it -/
theorem journal_lost :
    (run exampleHost exampleDisk exampleBaseline exampleFs (examplePath "s.dtj")
        (.index (examplePath "s.dtj") true)).1.read (examplePath "s.dtj") ≠
      exampleFs.read (examplePath "s.dtj") ∧
    (run exampleHost exampleDisk exampleBaseline exampleFs (examplePath "s.dtj")
        (.baseline (examplePath "s.dtj") false)).1.read (examplePath "s.dtj") ≠
      exampleFs.read (examplePath "s.dtj") := by
  constructor
  · decide +kernel
  · decide +kernel

end Dtj.Mcp
