import Dtj.Agent.Grammar
import Dtj.Agent.Handle

/-!
# The requests of the document, and those that the agent lets pass

The agent looks at the bytes that it needs.  It does not look behind the last field, for a NUL in a
name, at the reserved bytes, at which byte stands for `true`, or at the limit of BYTES.

* `internDoc`, `openDoc`, `appendDoc`            the bodies of `docs/dtj-agent-protocol-v1.md`;
* `internPast`, `openPast`, `appendPast`         the bodies that get past parsing;
* `internStrays`, `openStrays`, `appendStrays`   where the agent is more lenient;
* `core_value`                                   the core decodes the same value;
* `requests_exact_iff`                           **nothing else makes a difference**.
-/

namespace Dtj.Agent
open Wire Checked

/-- what passes is what is documented, if nothing strays -/
theorem exact_iff {past doc strays : Prop} (hdoc : doc ↔ past ∧ ¬ strays) (hpast : strays → past) :
    (past ↔ doc) ↔ ¬ strays := by
  rw [hdoc]
  constructor
  · intro h hs
    exact (h.mp (hpast hs)).2 hs
  · intro hs
    exact (and_iff_left hs).symm

/-! ## Intern -/

def internPast (body : Bytes) : Prop :=
  ∃ dictKind name kind, parseIntern body = .ok (dictKind, name) ∧ kindOf dictKind = some kind

/-- a name, as `Intern` takes it -/
structure InternName (dictKind : UInt8) (name : String) : Prop where
  kind : kindOf dictKind ≠ none
  nonempty : name ≠ ""
  length : (utf8 name).length ≤ 1024

def internDoc (body : Bytes) : Prop :=
  ∃ dictKind name, InternName dictKind name ∧ 0 ∉ utf8 name ∧ body = internBody dictKind (utf8 name)

/-- there is a NUL in the name, or something behind it -/
def internStrays (body : Bytes) : Prop :=
  ∃ dictKind name rest, InternName dictKind name ∧ body = internBody dictKind (utf8 name) ++ rest ∧
    (0 ∈ utf8 name ∨ rest ≠ [])

theorem internPast_iff {body : Bytes} : internPast body ↔
    ∃ dictKind name rest, InternName dictKind name ∧ body = internBody dictKind (utf8 name) ++ rest := by
  constructor
  · rintro ⟨dictKind, name, kind, hp, hk⟩
    obtain ⟨hne, hlen, rest, hbody⟩ := parseIntern_iff.mp hp
    exact ⟨dictKind, name, rest, ⟨by rw [hk]; exact Option.some_ne_none _, hne, hlen⟩, hbody⟩
  · rintro ⟨dictKind, name, rest, hn, hbody⟩
    obtain ⟨kind, hk⟩ := Option.ne_none_iff_exists'.mp hn.kind
    exact ⟨dictKind, name, kind, parseIntern_iff.mpr ⟨hn.nonempty, hn.length, rest, hbody⟩, hk⟩

/-- a body says its name in one way -/
theorem internBody_inj {dictKind dictKind' : UInt8} {name name' : String} {rest rest' : Bytes}
    (h : InternName dictKind name) (h' : InternName dictKind' name')
    (heq : internBody dictKind (utf8 name) ++ rest = internBody dictKind' (utf8 name') ++ rest') :
    name = name' ∧ rest = rest' := by
  have hp : parseIntern (internBody dictKind (utf8 name) ++ rest) = .ok (dictKind, name) :=
    parseIntern_iff.mpr ⟨h.nonempty, h.length, rest, rfl⟩
  rw [heq, parseIntern_iff.mpr ⟨h'.nonempty, h'.length, rest', rfl⟩] at hp
  cases hp
  exact ⟨rfl, List.append_cancel_left heq⟩

theorem internDoc_iff {body : Bytes} : internDoc body ↔ internPast body ∧ ¬ internStrays body := by
  rw [internPast_iff]
  constructor
  · rintro ⟨dictKind, name, hn, hnul, hbody⟩
    refine ⟨⟨dictKind, name, [], hn, by rw [hbody, List.append_nil]⟩, ?_⟩
    rintro ⟨dictKind', name', rest, hn', hbody', hstray⟩
    rw [hbody, ← List.append_nil (internBody dictKind (utf8 name))] at hbody'
    obtain ⟨rfl, rfl⟩ := internBody_inj hn hn' hbody'
    exact hstray.elim hnul fun h => h rfl
  · rintro ⟨⟨dictKind, name, rest, hn, hbody⟩, hno⟩
    refine ⟨dictKind, name, hn, fun hnul => hno ⟨dictKind, name, rest, hn, hbody, .inl hnul⟩, ?_⟩
    by_cases hrest : rest = []
    · rw [hbody, hrest, List.append_nil]
    · exact absurd ⟨dictKind, name, rest, hn, hbody, .inr hrest⟩ hno

theorem internStrays_past {body : Bytes} (h : internStrays body) : internPast body := by
  obtain ⟨dictKind, name, rest, hn, hbody, -⟩ := h
  exact internPast_iff.mpr ⟨dictKind, name, rest, hn, hbody⟩

/-- in a session a request that gets past parsing is a call of the writer, and another is refused -/
theorem intern_past {body : Bytes} {st : AgentState} {d : Disk} {w : SessionWriter}
    (hst : st.helloDone = true ∧ st.sessionOpened = true) (hw : st.writer = some w) :
    (∀ dictKind name kind, parseIntern body = .ok (dictKind, name) → kindOf dictKind = some kind →
      (intern body).run (st, d) = (callWriter w (SessionWriter.intern kind name) internReply
        "intern failed: ").run (st, d)) ∧
    (¬ internPast body → ∃ text, (intern body).run (st, d) = .error (.error (.again text)) (st, d)) := by
  have hopen : ¬ (¬ st.helloDone ∨ ¬ st.sessionOpened) := by simp [hst.1, hst.2]
  unfold intern
  simp only [EStateM.run_bind, EStateM.run_get, run_ite]
  rw [if_neg hopen, parseIntern_eq, ← EStateM.run_bind, parsed_run]
  constructor
  · intro dictKind name kind hp hk
    rw [lift_eq_ok] at hp
    rw [hp]
    dsimp only
    rw [hw, hk]
    rfl
  · intro hno
    cases hp : internOf body with
    | error text => exact ⟨_, rfl⟩
    | ok x =>
      obtain ⟨dictKind, name⟩ := x
      dsimp only
      rw [hw]
      cases hk : kindOf dictKind with
      | none => exact ⟨utf8 "unknown dictionary kind", rfl⟩
      | some kind =>
        refine absurd ⟨dictKind, name, kind, ?_, hk⟩ hno
        rw [parseIntern_eq, hp]
        rfl

/-! ## OpenSession -/

def openPast (body : Bytes) : Prop := ∃ req, parseOpen body = .ok req

def openDoc (body : Bytes) : Prop := ∃ req, Acceptable req ∧ body = req.bytes

/-- there is something behind the request -/
def openStrays (body : Bytes) : Prop := ∃ req rest, Acceptable req ∧ body = req.bytes ++ rest ∧ rest ≠ []

theorem openDoc_iff {body : Bytes} (hbody : body.length < 2^63) :
    openDoc body ↔ openPast body ∧ ¬ openStrays body := by
  constructor
  · rintro ⟨req, hreq, rfl⟩
    have hp := (parseOpen_iff hbody).mpr ⟨hreq, [], (List.append_nil _).symm⟩
    refine ⟨⟨req, hp⟩, ?_⟩
    rintro ⟨req', rest, hreq', heq, hrest⟩
    rw [(parseOpen_iff hbody).mpr ⟨hreq', rest, heq⟩] at hp
    cases hp
    exact hrest (List.self_eq_append_right.mp heq)
  · rintro ⟨⟨req, hp⟩, hno⟩
    obtain ⟨hreq, rest, heq⟩ := (parseOpen_iff hbody).mp hp
    refine ⟨req, hreq, ?_⟩
    by_cases hrest : rest = []
    · rw [heq, hrest, List.append_nil]
    · exact absurd ⟨req, rest, hreq, heq, hrest⟩ hno

theorem openStrays_past {body : Bytes} (hbody : body.length < 2^63) (h : openStrays body) :
    openPast body := by
  obtain ⟨req, rest, hreq, heq, -⟩ := h
  exact ⟨req, (parseOpen_iff hbody).mpr ⟨hreq, rest, heq⟩⟩

/-- a request that gets past parsing has a header, and the agent goes on to its file -/
theorem open_past {dataDir : String} {body : Bytes} (hbody : body.length < 2^63) {st : AgentState}
    {d : Disk} (hst : st.helloDone = true) :
    (∀ req, parseOpen body = .ok req → ∃ header, req.header = .ok header ∧
      (openSession dataDir body).run (st, d) = (openFile dataDir req header).run (st, d)) ∧
    (¬ openPast body →
      ∃ text, (openSession dataDir body).run (st, d) = .error (.error (.again text)) (st, d)) := by
  unfold openSession
  simp only [EStateM.run_bind, EStateM.run_get, run_ite]
  rw [if_neg (by simp [hst])]
  constructor
  · intro req hp
    have hreq := ((parseOpen_iff hbody).mp hp).1
    obtain ⟨header, hh⟩ : ∃ header, req.header = .ok header := by
      unfold OpenRequest.header FileHeader.create
      rw [if_neg (not_lt.mpr hreq.producer_name), if_neg (not_lt.mpr hreq.producer_version)]
      exact ⟨_, rfl⟩
    refine ⟨header, hh, ?_⟩
    rw [hp]
    dsimp only [parsed, EStateM.run]
    rw [hh]
  · intro hno
    have hsafe := parseOpen_total hbody
    cases hp : parseOpen body with
    | ok req => exact absurd ⟨req, hp⟩ hno
    | error a =>
      rw [hp] at hsafe
      cases a with
      | error text => exact ⟨_, rfl⟩
      | panic => exact absurd hsafe id
      | diverge => exact absurd hsafe id

/-! ## AppendEvent -/

def appendPast (body : Bytes) : Prop := ∃ ev, parseAppend body = .ok ev

/-- the bytes of a request, field by field -/
structure AppendFields where
  monotonicNs : Nat
  domainId : Nat
  categoryId : Nat
  eventNameId : Nat
  correlationId : Nat
  severity : UInt8
  fieldCount : Nat
  nameId : Nat
  typeTag : UInt8
  reserved : Bytes
  value : Bytes

def AppendFields.bytes (f : AppendFields) : Bytes :=
  le 8 f.monotonicNs ++ (le 4 f.domainId ++ (le 4 f.categoryId ++ (le 4 f.eventNameId ++
    (le 4 f.correlationId ++ ([f.severity] ++ (le 2 f.fieldCount ++ (le 4 f.nameId ++
      ([f.typeTag] ++ (f.reserved ++ f.value)))))))))

def fieldsAt (body : Bytes) : AppendFields where
  monotonicNs := leAt body 0 8
  domainId := leAt body 8 4
  categoryId := leAt body 12 4
  eventNameId := leAt body 16 4
  correlationId := leAt body 20 4
  severity := body.getD 24 0
  fieldCount := leAt body 25 2
  nameId := leAt body 27 4
  typeTag := body.getD 31 0
  reserved := (body.drop 32).take 3
  value := body.drop 35

/-- the request of the document for an event with one field -/
def docFields (ev : AppendEvent) (nameId : UInt32) (v : Value) : AppendFields where
  monotonicNs := ev.monotonicNs.toNat
  domainId := ev.domainId.toNat
  categoryId := ev.categoryId.toNat
  eventNameId := ev.eventNameId.toNat
  correlationId := ev.correlationId.toNat
  severity := ev.severity.toU8
  fieldCount := 1
  nameId := nameId.toNat
  typeTag := v.tag
  reserved := [0, 0, 0]
  value := v.raw

def appendBody (ev : AppendEvent) (nameId : UInt32) (v : Value) : Bytes := (docFields ev nameId v).bytes

def appendDoc (body : Bytes) : Prop := ∃ ev nameId v, Value.Fits v ∧ body = appendBody ev nameId v

/-- all the bytes of a request are there, and something behind them, a reserved byte that is not
zero, a boolean that is neither 0 nor 1, or BYTES over the limit -/
def appendStrays (body : Bytes) : Prop :=
  ∃ n, valueSize (body.getD 31 0) (body.drop 35) = some n ∧ 35 + n ≤ body.length ∧
    body.getD 24 0 ≤ 5 ∧ leAt body 25 2 = 1 ∧
    (35 + n < body.length ∨ (body.drop 32).take 3 ≠ [0, 0, 0] ∨
      (body.getD 31 0 = 0x01 ∧ 1 < body.getD 35 0) ∨ (body.getD 31 0 = 0x0C ∧ 4096 < leAt body 35 4))

theorem fieldsAt_bytes {body : Bytes} (h : 35 ≤ body.length) : (fieldsAt body).bytes = body := by
  have h8 : le 8 (leAt body 0 8) = (body.drop 0).take 8 := (take_le rfl (by omega)).symm
  have h4 : ∀ i, i + 4 ≤ 35 → le 4 (leAt body i 4) = (body.drop i).take 4 := fun i hi =>
    (take_le rfl (by omega)).symm
  have h2 : le 2 (leAt body 25 2) = (body.drop 25).take 2 := (take_le rfl (by omega)).symm
  have h1 : ∀ i, i < 35 → [body.getD i 0] = (body.drop i).take 1 := fun i hi =>
    (take_one (by omega)).symm
  unfold AppendFields.bytes fieldsAt
  dsimp only
  rw [h8, h4 8 (by norm_num), h4 12 (by norm_num), h4 16 (by norm_num), h4 20 (by norm_num),
    h1 24 (by norm_num), h2, h4 27 (by norm_num), h1 31 (by norm_num), ← drop_window body 32,
    ← drop_window body 31, ← drop_window body 27, ← drop_window body 25, ← drop_window body 24,
    ← drop_window body 20, ← drop_window body 16, ← drop_window body 12, ← drop_window body 8,
    ← drop_window body 0, List.drop_zero]

theorem AppendFields.bytes_length {f : AppendFields} (h : f.reserved.length = 3) :
    f.bytes.length = 35 + f.value.length := by
  simp only [AppendFields.bytes, List.length_append, le_length, List.length_singleton, h]
  omega

/-- the numbers of a request are those that fit into their bytes -/
structure AppendFields.InRange (f : AppendFields) : Prop where
  monotonicNs : f.monotonicNs < 256^8
  domainId : f.domainId < 256^4
  categoryId : f.categoryId < 256^4
  eventNameId : f.eventNameId < 256^4
  correlationId : f.correlationId < 256^4
  fieldCount : f.fieldCount < 256^2
  nameId : f.nameId < 256^4
  reserved : f.reserved.length = 3

theorem AppendFields.bytes_inj {f g : AppendFields} (hf : f.InRange) (hg : g.InRange)
    (h : f.bytes = g.bytes) : f = g := by
  unfold AppendFields.bytes at h
  obtain ⟨h1, h⟩ := List.append_inj h (by simp)
  obtain ⟨h2, h⟩ := List.append_inj h (by simp)
  obtain ⟨h3, h⟩ := List.append_inj h (by simp)
  obtain ⟨h4, h⟩ := List.append_inj h (by simp)
  obtain ⟨h5, h⟩ := List.append_inj h (by simp)
  obtain ⟨h6, h⟩ := List.append_inj h (by simp)
  obtain ⟨h7, h⟩ := List.append_inj h (by simp)
  obtain ⟨h8, h⟩ := List.append_inj h (by simp)
  obtain ⟨h9, h⟩ := List.append_inj h (by simp)
  obtain ⟨h10, h11⟩ := List.append_inj h (by rw [hf.reserved, hg.reserved])
  have e1 := le_inj hf.monotonicNs hg.monotonicNs h1
  have e2 := le_inj hf.domainId hg.domainId h2
  have e3 := le_inj hf.categoryId hg.categoryId h3
  have e4 := le_inj hf.eventNameId hg.eventNameId h4
  have e5 := le_inj hf.correlationId hg.correlationId h5
  have e6 := (List.cons.inj h6).1
  have e7 := le_inj hf.fieldCount hg.fieldCount h7
  have e8 := le_inj hf.nameId hg.nameId h8
  have e9 := (List.cons.inj h9).1
  cases f
  cases g
  simp_all

theorem fieldsAt_inRange {body : Bytes} (h : 35 ≤ body.length) : (fieldsAt body).InRange where
  monotonicNs := leAt_lt body 0 8
  domainId := leAt_lt body 8 4
  categoryId := leAt_lt body 12 4
  eventNameId := leAt_lt body 16 4
  correlationId := leAt_lt body 20 4
  fieldCount := leAt_lt body 25 2
  nameId := leAt_lt body 27 4
  reserved := List.length_take_of_le (by rw [List.length_drop]; omega)

theorem docFields_inRange (ev : AppendEvent) (nameId : UInt32) (v : Value) :
    (docFields ev nameId v).InRange where
  monotonicNs := ev.monotonicNs.toNat_lt
  domainId := ev.domainId.toNat_lt
  categoryId := ev.categoryId.toNat_lt
  eventNameId := ev.eventNameId.toNat_lt
  correlationId := ev.correlationId.toNat_lt
  fieldCount := by show 1 < 256^2; norm_num
  nameId := nameId.toNat_lt
  reserved := rfl

/-- **a body is that of a document exactly when its fields are** -/
theorem appendBody_iff {body : Bytes} {ev : AppendEvent} {nameId : UInt32} {v : Value} :
    body = appendBody ev nameId v ↔ 35 ≤ body.length ∧ fieldsAt body = docFields ev nameId v := by
  constructor
  · intro h
    have hlen : 35 ≤ body.length := by
      have hl := (docFields ev nameId v).bytes_length rfl
      rw [h, appendBody]
      omega
    refine ⟨hlen, AppendFields.bytes_inj (fieldsAt_inRange hlen) (docFields_inRange ev nameId v) ?_⟩
    rw [fieldsAt_bytes hlen, h, appendBody]
  · rintro ⟨hlen, h⟩
    rw [appendBody, ← h, fieldsAt_bytes hlen]

theorem Severity.fromU8_ok {v : UInt8} {s : Severity} : Severity.fromU8 v = .ok s ↔ v = s.toU8 := by
  constructor
  · intro h
    unfold Severity.fromU8 at h
    split at h
    · cases h
      assumption
    split at h
    · cases h
      assumption
    split at h
    · cases h
      assumption
    split at h
    · cases h
      assumption
    split at h
    · cases h
      assumption
    split at h
    · cases h
      assumption
    · cases h
  · rintro rfl
    exact Severity.fromU8_toU8 s

theorem severity_le {v : UInt8} : v ≤ 5 ↔ ∃ s : Severity, v = s.toU8 := by
  constructor
  · intro h
    have hn : v.toNat ≤ 5 := UInt8.le_iff_toNat_le.mp h
    have hall : ∀ n ≤ 5, ∃ s ∈ [Severity.trace, .debug, .info, .warn, .error, .fatal],
        UInt8.ofNat n = s.toU8 := by decide
    obtain ⟨s, -, hs⟩ := hall v.toNat hn
    exact ⟨s, by rw [← hs, UInt8.ofNat_toNat]⟩
  · rintro ⟨s, rfl⟩
    cases s <;> decide

/-! ## the value of an event -/

/-- a value takes as many bytes as its encoding has -/
theorem valueSize_raw {v : Value} (h : v.Fits) : valueSize v.tag v.raw = some v.raw.length := by
  cases v with
  | bytes b =>
    have hb : b.length ≤ 4096 := h
    have hat : leAt (le 4 b.length ++ b) 0 4 = b.length := leAt_head 4 _ _ (by omega)
    show some (4 + leAt (le 4 b.length ++ b) 0 4) = some (le 4 b.length ++ b).length
    rw [hat, List.length_append, le_length]
  | vec2F32 x y => simp [Value.tag, Value.raw, valueSize, typeVec2F32]
  | vec3F32 x y z => simp [Value.tag, Value.raw, valueSize, typeVec3F32]
  | _ => rfl

/-- a value that takes all the bytes, none of them out of range, is encoded as these bytes -/
theorem taken_raw {tag : UInt8} {s : Bytes} {v : Value} (h : Taken tag s v)
    (hsize : valueSize tag s = some s.length) (hbool : tag = 0x01 → s.getD 0 0 ≤ 1) : v.raw = s := by
  obtain ⟨-, n, hn, -, hraw⟩ := h
  rw [hsize] at hn
  obtain rfl := Option.some.inj hn
  rw [hraw, valueBytes]
  by_cases htag : tag = 0x01
  · subst htag
    have hlen : 1 = s.length := Option.some.inj hsize
    obtain ⟨b, rfl⟩ := List.length_eq_one_iff.mp hlen.symm
    rw [if_pos rfl]
    have hb : b.toNat ≤ 1 := UInt8.le_iff_toNat_le.mp (hbool rfl)
    have hall : ∀ k ≤ 1, [if UInt8.ofNat k = 0 then (0 : UInt8) else 1] = [UInt8.ofNat k] := by decide
    have hk := hall b.toNat hb
    rwa [UInt8.ofNat_toNat] at hk
  · rw [if_neg htag, List.take_length]

theorem taken_fits {tag : UInt8} {s : Bytes} {v : Value} (h : Taken tag s v)
    (hbytes : tag = 0x0C → leAt s 0 4 ≤ 4096) : v.Fits := by
  obtain ⟨htag, n, hn, hle, hraw⟩ := h
  cases v with
  | bytes b =>
    have h12 : tag = 0x0C := htag.symm
    subst h12
    have hn4 : 4 + leAt s 0 4 = n := Option.some.inj hn
    have hlen := congrArg List.length hraw
    rw [valueBytes, if_neg (by decide), List.length_take_of_le hle] at hlen
    have hb : (Value.bytes b).raw.length = 4 + b.length := by
      rw [Value.raw, List.length_append, le_length]
    have hmax := hbytes rfl
    show b.length ≤ 4096
    omega
  | _ => exact Nat.zero_le _

/-- **the core decodes the value that the agent read** -/
theorem core_value {tag : UInt8} {s : Bytes} {v : Value} (h : valueOf tag s = .ok v) (hf : v.Fits) :
    ∃ n, decodeValue tag s = .ok (v, n) := by
  obtain ⟨htag, n, hn, hle, hraw⟩ := valueOf_ok h
  by_cases hbool : tag = 0x01
  · subst hbool
    have h1 : 1 = n := Option.some.inj hn
    have hfixed : fixedOf 1 "bool truncated" (fun s => .bool (s.getD 0 0 != 0)) s = .ok v := h
    have hv := (fixedOf_ok.mp hfixed).2
    refine ⟨1, ?_⟩
    show decodeBool s = _
    rw [decodeBool, if_neg (by omega), idx_getD (by omega), ok_bind, hv]
  · have hsplit : s = v.raw ++ s.drop n := by
      rw [hraw, valueBytes, if_neg hbool, List.take_append_drop]
    have hp := valueP_raw v hf (s.drop n)
    rw [← hsplit, htag] at hp
    exact ⟨_, by rw [decodeValue_eq, hp]; rfl⟩

/-! ## AppendEvent, as a whole -/

theorem appendOf_ok {body : Bytes} {ev : AppendEvent} (h : appendOf body = .ok ev) :
    35 ≤ body.length ∧ (∃ s : Severity, body.getD 24 0 = s.toU8) ∧ leAt body 25 2 = 1 ∧
      ∃ v, valueOf (body.getD 31 0) (body.drop 35) = .ok v ∧
        ev.payload.fields = [⟨UInt32.ofNat (leAt body 27 4), v⟩] := by
  unfold appendOf at h
  split at h
  · cases h
  cases hs : Severity.fromU8 (body.getD 24 0) with
  | error e => rw [hs] at h; cases h
  | ok s =>
    rw [hs] at h
    dsimp only at h
    split at h
    · cases h
    rename_i hone
    split at h
    · cases h
    rename_i hlen
    cases hv : valueOf (body.getD 31 0) (body.drop 35) with
    | error e => rw [hv] at h; cases h
    | ok v =>
      rw [hv] at h
      cases h
      exact ⟨not_lt.mp hlen, ⟨s, Severity.fromU8_ok.mp hs⟩, not_not.mp hone, v, rfl, rfl⟩

theorem appendPast_iff {body : Bytes} (hbody : body.length < 2^63) : appendPast body ↔
    ∃ n, valueSize (body.getD 31 0) (body.drop 35) = some n ∧ 35 + n ≤ body.length ∧
      body.getD 24 0 ≤ 5 ∧ leAt body 25 2 = 1 := by
  unfold appendPast
  rw [parseAppend_eq hbody]
  constructor
  · rintro ⟨ev, hev⟩
    obtain ⟨hlen, hsev, hone, v, hv, -⟩ := appendOf_ok (lift_eq_ok.mp hev)
    obtain ⟨-, n, hn, hle, -⟩ := valueOf_ok hv
    rw [List.length_drop] at hle
    exact ⟨n, hn, by omega, severity_le.mpr hsev, hone⟩
  · rintro ⟨n, hn, hlen, hsev, hone⟩
    obtain ⟨s, hs⟩ := severity_le.mp hsev
    obtain ⟨v, hv⟩ := valueOf_some hn (by rw [List.length_drop]; omega)
    cases hap : appendOf body with
    | ok ev => exact ⟨ev, rfl⟩
    | error e =>
      unfold appendOf at hap
      rw [if_neg (by omega), hs, Severity.fromU8_toU8] at hap
      dsimp only at hap
      rw [if_neg (not_not.mpr hone), if_neg (by omega), hv] at hap
      cases hap

/-- in a session a request that gets past parsing is a call of the writer, and another is refused -/
theorem append_past {body : Bytes} (hbody : body.length < 2^63) {st : AgentState} {d : Disk}
    {w : SessionWriter} (hst : st.helloDone = true ∧ st.sessionOpened = true) (hw : st.writer = some w) :
    (∀ ev, parseAppend body = .ok ev → (appendEvent body).run (st, d)
      = (callWriter w (appendFlush st.config.flushEveryEvent ev) appendReply
        "append_event failed: ").run (st, d)) ∧
    (¬ appendPast body →
      ∃ text, (appendEvent body).run (st, d) = .error (.error (.again text)) (st, d)) := by
  have hopen : ¬ (¬ st.helloDone ∨ ¬ st.sessionOpened) := by simp [hst.1, hst.2]
  have hrun : (appendEvent body).run (st, d) = match appendOf body with
      | .error text => .error (.error (.again (utf8 text))) (st, d)
      | .ok ev => (callWriter w (appendFlush st.config.flushEveryEvent ev) appendReply
          "append_event failed: ").run (st, d) := by
    unfold appendEvent
    simp only [EStateM.run_bind, EStateM.run_get, run_ite]
    rw [if_neg hopen, parseAppend_eq hbody, ← EStateM.run_bind, parsed_run]
    cases appendOf body with
    | error text => rfl
    | ok ev =>
      dsimp only
      rw [hw]
      rfl
  rw [hrun]
  constructor
  · intro ev hp
    rw [parseAppend_eq hbody, lift_eq_ok] at hp
    rw [hp]
  · intro hno
    cases hp : appendOf body with
    | error text => exact ⟨_, rfl⟩
    | ok ev =>
      refine absurd ⟨ev, ?_⟩ hno
      rw [parseAppend_eq hbody, hp]
      rfl

theorem getD_drop (body : Bytes) (i : Nat) : (body.drop i).getD 0 0 = body.getD i 0 := by
  rw [List.getD_eq_getElem?_getD, List.getElem?_drop, Nat.add_zero, List.getD_eq_getElem?_getD]

theorem appendDoc_iff {body : Bytes} (hbody : body.length < 2^63) :
    appendDoc body ↔ appendPast body ∧ ¬ appendStrays body := by
  rw [appendPast_iff hbody]
  constructor
  · rintro ⟨ev, nameId, v, hf, hb⟩
    obtain ⟨hlen, hfields⟩ := appendBody_iff.mp hb
    have hsev : body.getD 24 0 = ev.severity.toU8 := congrArg AppendFields.severity hfields
    have hone : leAt body 25 2 = 1 := congrArg AppendFields.fieldCount hfields
    have htag : body.getD 31 0 = v.tag := congrArg AppendFields.typeTag hfields
    have hres : (body.drop 32).take 3 = [0, 0, 0] := congrArg AppendFields.reserved hfields
    have hval : body.drop 35 = v.raw := congrArg AppendFields.value hfields
    have hsize : valueSize (body.getD 31 0) (body.drop 35) = some v.raw.length := by
      rw [htag, hval, valueSize_raw hf]
    have hvlen := congrArg List.length hval
    rw [List.length_drop] at hvlen
    refine ⟨⟨_, hsize, by omega, severity_le.mpr ⟨_, hsev⟩, hone⟩, ?_⟩
    rintro ⟨n, hn, -, -, -, h | h | ⟨h1, h⟩ | ⟨h1, h⟩⟩
    · rw [hsize] at hn
      have := Option.some.inj hn
      omega
    · exact h hres
    · rw [← getD_drop, hval] at h
      rw [h1] at htag
      cases v with
      | bool b => cases b <;> exact absurd h (by decide)
      | _ => exact absurd htag (by simp only [Value.tag]; decide)
    · rw [show (35 : Nat) = 35 + 0 from rfl, ← leAt_drop, hval] at h
      rw [h1] at htag
      cases v with
      | bytes b =>
        have hb4 : b.length ≤ 4096 := hf
        have hat : leAt (le 4 b.length ++ b) 0 4 = b.length := leAt_head 4 _ _ (by omega)
        rw [Value.raw, hat] at h
        omega
      | _ => exact absurd htag (by simp only [Value.tag]; decide)
  · rintro ⟨⟨n, hn, hlen, hsev, hone⟩, hno⟩
    obtain ⟨s, hs⟩ := severity_le.mp hsev
    have hstray : ¬ (35 + n < body.length ∨ (body.drop 32).take 3 ≠ [0, 0, 0] ∨
        (body.getD 31 0 = 0x01 ∧ 1 < body.getD 35 0) ∨
        (body.getD 31 0 = 0x0C ∧ 4096 < leAt body 35 4)) :=
      fun h => hno ⟨n, hn, hlen, hsev, hone, h⟩
    simp only [not_or, not_and, not_not, not_lt] at hstray
    obtain ⟨hend, hres, hbool, hbytes⟩ := hstray
    obtain ⟨v, hv⟩ := valueOf_some hn (by rw [List.length_drop]; omega)
    have htaken := valueOf_ok hv
    have hsize : valueSize (body.getD 31 0) (body.drop 35) = some (body.drop 35).length := by
      rw [hn, List.length_drop]
      congr 1
      omega
    have hraw := taken_raw htaken hsize fun h => by rw [getD_drop]; exact UInt8.not_lt.mp (hbool h)
    have hfits := taken_fits htaken fun h => by rw [leAt_drop]; exact hbytes h
    refine ⟨⟨UInt64.ofNat (leAt body 0 8), UInt32.ofNat (leAt body 8 4),
      UInt32.ofNat (leAt body 12 4), UInt32.ofNat (leAt body 16 4), UInt32.ofNat (leAt body 20 4),
      s, ⟨[]⟩⟩, UInt32.ofNat (leAt body 27 4), v, hfits, appendBody_iff.mpr ⟨by omega, ?_⟩⟩
    unfold fieldsAt docFields
    simp only [toNat_leAt8, toNat_leAt4, hs, hone, hres, htaken.1, hraw]

/-- **What the agent lets pass is what the document says, except where a body strays**, and the value
of an event is what the core decodes from the same type and bytes -/
theorem requests_exact_iff {body : Bytes} (hbody : body.length < 2^63) :
    ((internPast body ↔ internDoc body) ↔ ¬ internStrays body) ∧
    ((openPast body ↔ openDoc body) ↔ ¬ openStrays body) ∧
    (((appendPast body ↔ appendDoc body) ∧ ∀ ev, parseAppend body = .ok ev →
      ∃ nameId v n, ev.payload.fields = [⟨nameId, v⟩] ∧
        decodeValue (body.getD 31 0) (body.drop 35) = .ok (v, n)) ↔ ¬ appendStrays body) := by
  refine ⟨exact_iff internDoc_iff internStrays_past,
    exact_iff (openDoc_iff hbody) (openStrays_past hbody), ?_⟩
  have hpast : appendStrays body → appendPast body := by
    rintro ⟨n, hn, hlen, hsev, hone, -⟩
    exact (appendPast_iff hbody).mpr ⟨n, hn, hlen, hsev, hone⟩
  have happend := exact_iff (appendDoc_iff hbody) hpast
  rw [← happend]
  refine ⟨And.left, fun h => ⟨h, fun ev hev => ?_⟩⟩
  have hno := happend.mp h
  rw [parseAppend_eq hbody] at hev
  obtain ⟨hlen, hsev, hone, v, hv, hfields⟩ := appendOf_ok (lift_eq_ok.mp hev)
  have htaken := valueOf_ok hv
  have hfits : v.Fits := by
    refine taken_fits htaken fun htag => ?_
    obtain ⟨-, n, hn, hle, -⟩ := htaken
    rw [List.length_drop] at hle
    by_contra hbig
    rw [leAt_drop] at hbig
    exact hno ⟨n, hn, by omega, severity_le.mpr hsev, hone, .inr (.inr (.inr ⟨htag, not_le.mp hbig⟩))⟩
  obtain ⟨n, hn⟩ := core_value hv hfits
  exact ⟨_, v, n, hfields, hn⟩

/-- a name, acceptable and then with a NUL in it -/
theorem requests_exact_example :
    ((internPast [1, 1, 0, 0x61] ↔ internDoc [1, 1, 0, 0x61]) ↔ ¬ internStrays [1, 1, 0, 0x61]) ∧
    ((openPast [1, 1, 0, 0x61] ↔ openDoc [1, 1, 0, 0x61]) ↔ ¬ openStrays [1, 1, 0, 0x61]) ∧
    (((appendPast [1, 1, 0, 0x61] ↔ appendDoc [1, 1, 0, 0x61]) ∧
      ∀ ev, parseAppend [1, 1, 0, 0x61] = .ok ev →
        ∃ nameId v n, ev.payload.fields = [⟨nameId, v⟩] ∧
          decodeValue (List.getD [1, 1, 0, 0x61] 31 0) (List.drop 35 [1, 1, 0, 0x61]) = .ok (v, n)) ↔
      ¬ appendStrays [1, 1, 0, 0x61]) :=
  requests_exact_iff (by decide)

/-- an `Intern` of a name with a NUL, one with a byte behind the name, and an event with the boolean 2 -/
theorem stray_requests :
    ¬ (internPast [1, 3, 0, 0x61, 0, 0x62] ↔ internDoc [1, 3, 0, 0x61, 0, 0x62]) ∧
    ¬ (internPast [1, 1, 0, 0x61, 0] ↔ internDoc [1, 1, 0, 0x61, 0]) ∧
    ¬ (appendPast (List.replicate 25 0 ++ [1, 0, 0, 0, 0, 0, 1, 0, 0, 0, 2]) ↔
      appendDoc (List.replicate 25 0 ++ [1, 0, 0, 0, 0, 0, 1, 0, 0, 0, 2])) := by
  refine ⟨?_, ?_, ?_⟩
  · rw [exact_iff internDoc_iff internStrays_past, not_not]
    exact ⟨1, "a\x00b", [], ⟨by decide, by decide, by decide +kernel⟩, by decide +kernel,
      .inl (by decide +kernel)⟩
  · rw [exact_iff internDoc_iff internStrays_past, not_not]
    exact ⟨1, "a", [0], ⟨by decide, by decide, by decide +kernel⟩, by decide +kernel,
      .inr (by decide)⟩
  · have hstrays : appendStrays (List.replicate 25 0 ++ [1, 0, 0, 0, 0, 0, 1, 0, 0, 0, 2]) :=
      ⟨1, by decide +kernel⟩
    intro h
    have hbody : (List.replicate 25 0 ++ [1, 0, 0, 0, 0, 0, 1, 0, 0, 0, 2] : Bytes).length < 2^63 := by
      decide
    have hpast : appendPast (List.replicate 25 0 ++ [1, 0, 0, 0, 0, 0, 1, 0, 0, 0, 2]) :=
      (appendPast_iff hbody).mpr ⟨1, by decide +kernel⟩
    exact ((appendDoc_iff hbody).mp (h.mp hpast)).2 hstrays

end Dtj.Agent
