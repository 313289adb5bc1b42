import Dtj.Core.Event
import Dtj.Core.Dict

/-!
# The payloads of a journal, by the tables of the format

`specs/dtj-format-v1.md` describes a record by a table: offset, size, field.  Here a record is the
set of the byte strings that its table allows; reserved bytes are free.

* `ValueBytes`, `FieldBytes`, `PayloadBytes`, `EventBytes`, `EntryBytes`   the tables;
* `entriesOf_iff`, `eventsOf_iff`   **the decoders accept what the tables allow, and nothing else**;
* `entriesOf_fails`, `eventsOf_fails`   their errors are not the error of a chunk's magic.
-/

namespace Dtj.Spec
open Wire Checked

/-! ## the tables -/

/-- type tags and the encoding of the value; a BOOL byte other than 0 counts as true -/
inductive ValueBytes : UInt8 → Value → Bytes → Prop
  | bool (b : UInt8) : ValueBytes 0x01 (.bool (b != 0)) [b]
  | i32 {bs} (h : bs.length = 4) : ValueBytes 0x02 (.i32 (UInt32.ofNat (leNat bs)).toInt32) bs
  | i64 {bs} (h : bs.length = 8) : ValueBytes 0x03 (.i64 (UInt64.ofNat (leNat bs)).toInt64) bs
  | u32 {bs} (h : bs.length = 4) : ValueBytes 0x04 (.u32 (UInt32.ofNat (leNat bs))) bs
  | u64 {bs} (h : bs.length = 8) : ValueBytes 0x05 (.u64 (UInt64.ofNat (leNat bs))) bs
  | f32 {bs} (h : bs.length = 4) : ValueBytes 0x06 (.f32 ⟨UInt32.ofNat (leNat bs)⟩) bs
  | f64 {bs} (h : bs.length = 8) : ValueBytes 0x07 (.f64 ⟨UInt64.ofNat (leNat bs)⟩) bs
  | enum {bs} (h : bs.length = 4) : ValueBytes 0x08 (.enum (UInt32.ofNat (leNat bs))) bs
  | vec2 {x y} (hx : x.length = 4) (hy : y.length = 4) : ValueBytes 0x09
      (.vec2F32 ⟨UInt32.ofNat (leNat x)⟩ ⟨UInt32.ofNat (leNat y)⟩) (x ++ y)
  | vec3 {x y z} (hx : x.length = 4) (hy : y.length = 4) (hz : z.length = 4) : ValueBytes 0x0A
      (.vec3F32 ⟨UInt32.ofNat (leNat x)⟩ ⟨UInt32.ofNat (leNat y)⟩ ⟨UInt32.ofNat (leNat z)⟩)
      (x ++ y ++ z)
  | interned {bs} (h : bs.length = 4) :
      ValueBytes 0x0B (.internedString (UInt32.ofNat (leNat bs))) bs
  | bytes {bs} (h : bs.length ≤ 4096) : ValueBytes 0x0C (.bytes bs) (le 4 bs.length ++ bs)

structure FieldBytes (f : Field) (bs : Bytes) : Prop where
  header : 6 ≤ bs.length
  name_id : leAt bs 0 4 = f.nameId.toNat
  value : ValueBytes (bs.getD 4 0) f.value (bs.drop 6)

structure PayloadBytes (p : TypedPayload) (bs : Bytes) : Prop where
  header : 2 ≤ bs.length
  field_count : leAt bs 0 2 = p.fields.length
  fields : Concat FieldBytes p.fields (bs.drop 2)

/-- severity values -/
def severityCode : Severity → UInt8
  | .trace => 0
  | .debug => 1
  | .info => 2
  | .warn => 3
  | .error => 4
  | .fatal => 5

structure EventBytes (ev : EventRecord) (bs : Bytes) : Prop where
  monotonic_ns : leAt bs 0 8 = ev.monotonicNs.toNat
  event_sequence : leAt bs 8 8 = ev.eventSequence.toNat
  domain_id : leAt bs 16 4 = ev.domainId.toNat
  category_id : leAt bs 20 4 = ev.categoryId.toNat
  event_name_id : leAt bs 24 4 = ev.eventNameId.toNat
  correlation_id : leAt bs 28 4 = ev.correlationId.toNat
  severity : bs.getD 32 0 = severityCode ev.severity
  payload_len : bs.length = 40 + leAt bs 36 4
  payload_max : leAt bs 36 4 ≤ 65535
  payload : PayloadBytes ev.payload (bs.drop 40)

/-- dictionary kinds -/
def kindCode : DictKind → UInt8
  | .domain => 1
  | .category => 2
  | .eventName => 3
  | .string => 4

structure EntryBytes (e : DictEntry) (bs : Bytes) : Prop where
  kind : bs.getD 0 0 = kindCode e.kind
  id : leAt bs 1 4 = e.id.toNat
  name_len : bs.length = 7 + leAt bs 5 2
  name : bs.drop 7 = utf8 e.name

/-! ## values -/

/-- the arm of a value of a fixed length -/
theorem valueP_fixed (v : Value) {n : Nat} {msg : String} {mk : Bytes → Value} {bs r : Bytes}
    (hp : v.parser = takeFixed n msg mk) (hn : bs.length = n) (hv : mk (bs ++ r) = v) :
    valueP v.tag (bs ++ r) = .ok (v, r) := by
  rw [valueP_tag, hp]
  exact takeFixed_append hn hv

/-- the first bytes of a string, as the decoders read them -/
theorem leAt_left {bs r : Bytes} {n : Nat} (h : bs.length = n) : leAt (bs ++ r) 0 n = leNat bs := by
  show leNat ((bs ++ r).take n) = _
  rw [List.take_left' h]

theorem getD_left {bs : Bytes} {i : Nat} (r : Bytes) (h : i < bs.length) :
    (bs ++ r).getD i 0 = bs.getD i 0 := by
  rw [List.getD_eq_getElem?_getD, List.getElem?_append_left h, ← List.getD_eq_getElem?_getD]

/-- **the decoder of a value reads the table of its tag** -/
theorem valueP_reads (tag : UInt8) : Reads (valueP tag) (ValueBytes tag) := by
  intro s v r
  constructor
  · intro h
    have fixed : ∀ {n : Nat} {msg : String} {mk : Bytes → Value},
        takeFixed n msg mk s = .ok (v, r) →
        ((s.take n).length = n → ValueBytes tag (mk s) (s.take n)) →
        ∃ bs, ValueBytes tag v bs ∧ s = bs ++ r := by
      intro n msg mk hp hb
      obtain ⟨hn, rfl, rfl⟩ := takeFixed_ok hp
      exact ⟨s.take n, hb (List.length_take_of_le hn), (List.take_append_drop n s).symm⟩
    unfold valueP at h
    refine ite_ok h (fun e h => fixed h fun hn => ?_) fun h => ?_
    · subst e
      cases s with
      | nil => cases hn
      | cons b bs =>
        have hb : UInt8.ofNat (leAt (b :: bs) 0 1) = b := by
          show UInt8.ofNat (b.toNat + 256 * 0) = b
          rw [Nat.mul_zero, Nat.add_zero, UInt8.ofNat_toNat]
        show ValueBytes 0x01 (.bool (UInt8.ofNat (leAt (b :: bs) 0 1) != 0)) [b]
        rw [hb]
        exact .bool b
    refine ite_ok h (fun e h => fixed h fun hn => e ▸ .i32 hn) fun h => ?_
    refine ite_ok h (fun e h => fixed h fun hn => e ▸ .i64 hn) fun h => ?_
    refine ite_ok h (fun e h => fixed h fun hn => e ▸ .u32 hn) fun h => ?_
    refine ite_ok h (fun e h => fixed h fun hn => e ▸ .u64 hn) fun h => ?_
    refine ite_ok h (fun e h => fixed h fun hn => e ▸ .f32 hn) fun h => ?_
    refine ite_ok h (fun e h => fixed h fun hn => e ▸ .f64 hn) fun h => ?_
    refine ite_ok h (fun e h => fixed h fun hn => e ▸ .enum hn) fun h => ?_
    refine ite_ok h (fun e h => fixed h fun hn => ?_) fun h => ?_
    · have hs : s.take (4 + 4) = s.take 4 ++ (s.drop 4).take 4 := List.take_add
      rw [List.length_take] at hn
      rw [e]
      show ValueBytes 0x09 _ (s.take (4 + 4))
      rw [hs]
      exact .vec2 (List.length_take_of_le (by rw [List.length_drop]; omega))
        (List.length_take_of_le (by rw [List.length_drop]; omega))
    refine ite_ok h (fun e h => fixed h fun hn => ?_) fun h => ?_
    · have hs : s.take (4 + 4 + 4) = s.take 4 ++ (s.drop 4).take 4 ++ (s.drop (4 + 4)).take 4 := by
        rw [List.take_add, @List.take_add _ s 4 4]
      rw [List.length_take] at hn
      rw [e]
      show ValueBytes 0x0A _ (s.take (4 + 4 + 4))
      rw [hs]
      exact .vec3 (List.length_take_of_le (by rw [List.length_drop]; omega))
        (List.length_take_of_le (by rw [List.length_drop]; omega))
        (List.length_take_of_le (by rw [List.length_drop]; omega))
    refine ite_ok h (fun e h => fixed h fun hn => e ▸ .interned hn) fun h => ?_
    refine ite_ok h (fun e h => ?_) fun h => by cases h
    obtain ⟨hmax, hlen, rfl, rfl⟩ := bytesP_ok h
    have hl : ((s.drop 4).take (leAt s 0 4)).length = leAt s 0 4 :=
      List.length_take_of_le (by rw [List.length_drop]; omega)
    refine ⟨le 4 ((s.drop 4).take (leAt s 0 4)).length ++ (s.drop 4).take (leAt s 0 4), ?_, ?_⟩
    · rw [e]
      exact .bytes (by omega)
    · have hhead : le 4 (leAt s 0 4) = s.take 4 := by
        have h4 : (s.take 4).length = 4 := List.length_take_of_le (by omega)
        have := le_leNat (s.take 4)
        rwa [h4] at this
      rw [hl, hhead, List.append_assoc, ← List.drop_drop, List.take_append_drop,
        List.take_append_drop]
  · rintro ⟨bs, hb, rfl⟩
    cases hb with
    | bool b =>
      refine valueP_fixed (.bool _) rfl rfl ?_
      show Value.bool (UInt8.ofNat (b.toNat + 256 * 0) != 0) = _
      rw [Nat.mul_zero, Nat.add_zero, UInt8.ofNat_toNat]
    | i32 h =>
      apply valueP_fixed (.i32 _) rfl h
      exact congrArg (fun k => Value.i32 (UInt32.ofNat k).toInt32) (leAt_left h)
    | i64 h =>
      apply valueP_fixed (.i64 _) rfl h
      exact congrArg (fun k => Value.i64 (UInt64.ofNat k).toInt64) (leAt_left h)
    | u32 h =>
      apply valueP_fixed (.u32 _) rfl h
      exact congrArg (fun k => Value.u32 (UInt32.ofNat k)) (leAt_left h)
    | u64 h =>
      apply valueP_fixed (.u64 _) rfl h
      exact congrArg (fun k => Value.u64 (UInt64.ofNat k)) (leAt_left h)
    | f32 h =>
      apply valueP_fixed (.f32 _) rfl h
      exact congrArg (fun k => Value.f32 ⟨UInt32.ofNat k⟩) (leAt_left h)
    | f64 h =>
      apply valueP_fixed (.f64 _) rfl h
      exact congrArg (fun k => Value.f64 ⟨UInt64.ofNat k⟩) (leAt_left h)
    | enum h =>
      apply valueP_fixed (.enum _) rfl h
      exact congrArg (fun k => Value.enum (UInt32.ofNat k)) (leAt_left h)
    | @vec2 x y hx hy =>
      refine valueP_fixed (.vec2F32 _ _) rfl (by rw [List.length_append, hx, hy]) ?_
      show Value.vec2F32 (f32At (x ++ y ++ r) 0) (f32At (x ++ y ++ r) 4) = _
      rw [List.append_assoc, f32At, f32At, leAt_left hx, leAt_skip (by omega), hx, leAt_left hy]
    | @vec3 x y z hx hy hz =>
      refine valueP_fixed (.vec3F32 _ _ _) rfl (by rw [List.length_append, List.length_append, hx, hy, hz]) ?_
      show Value.vec3F32 (f32At (x ++ y ++ z ++ r) 0) (f32At (x ++ y ++ z ++ r) 4)
        (f32At (x ++ y ++ z ++ r) 8) = _
      rw [List.append_assoc, List.append_assoc, f32At, f32At, f32At, leAt_left hx,
        leAt_skip (by omega), hx, leAt_left hy, leAt_skip (by omega), hx, leAt_skip (by omega), hy,
        leAt_left hz]
    | interned h =>
      apply valueP_fixed (.internedString _) rfl h
      exact congrArg (fun k => Value.internedString (UInt32.ofNat k)) (leAt_left h)
    | @bytes bs h =>
      exact valueP_raw (.bytes bs) h r

/-! ## records -/

theorem fieldP_reads : Reads fieldP FieldBytes := by
  intro s f r
  constructor
  · intro h
    obtain ⟨h6, hid, hv⟩ := fieldP_ok h
    obtain ⟨vs, hvs, hs⟩ := (valueP_reads _ _ _ _).mp hv
    have h6' : (s.take 6).length = 6 := List.length_take_of_le h6
    have hsplit : s.take 6 ++ s.drop 6 = s := List.take_append_drop 6 s
    refine ⟨s.take 6 ++ vs, ⟨?_, ?_, ?_⟩, ?_⟩
    · rw [List.length_append]
      omega
    · rw [leAt_append_left _ (by omega), leAt_take (by omega), hid, toNat_leAt4]
    · have htag : (s.take 6 ++ vs).getD 4 0 = s.getD 4 0 := by
        rw [getD_left vs (by omega), ← getD_left (s.drop 6) (by omega), hsplit]
      rw [htag, List.drop_left' h6']
      exact hvs
    · rw [List.append_assoc, ← hs, hsplit]
  · rintro ⟨bs, ⟨h6, hid, hv⟩, rfl⟩
    have hval := (valueP_reads _ _ _ _).mpr ⟨bs.drop 6, hv, @rfl _ (bs.drop 6 ++ r)⟩
    unfold fieldP
    rw [if_neg (by rw [List.length_append]; omega), List.drop_append_of_le_length h6,
      leAt_append_left _ (by omega), hid, UInt32.ofNat_toNat]
    rw [getD_left r (by omega), hval]

/-- **a payload is accepted exactly when it is as its table says** -/
theorem payloadOf_iff {s : Bytes} {p : TypedPayload} : payloadOf s = .ok p ↔ PayloadBytes p s := by
  unfold payloadOf
  constructor
  · intro h
    split at h
    · cases h
    rename_i h2
    cases hw : whole (times fieldP (leAt s 0 2))
      (fun k => .malformedRecord s!"payload has {k} trailing bytes") (s.drop 2) with
    | error e => rw [hw] at h; cases h
    | ok fs =>
      rw [hw] at h
      cases h
      have hlen := times_length (whole_ok.mp hw)
      rw [← hlen] at hw
      exact ⟨not_lt.mp h2, hlen.symm, (fieldP_reads.whole _ _ _).mp hw⟩
  · rintro ⟨h2, hcount, hfields⟩
    rw [if_neg (not_lt.mpr h2), hcount, (fieldP_reads.whole _ _ _).mpr hfields]
    rfl

theorem severity_iff {v : UInt8} {sev : Severity} :
    Severity.fromU8 v = .ok sev ↔ v = severityCode sev := by
  constructor
  · intro h
    unfold Severity.fromU8 at h
    split at h
    · cases h; assumption
    split at h
    · cases h; assumption
    split at h
    · cases h; assumption
    split at h
    · cases h; assumption
    split at h
    · cases h; assumption
    split at h
    · cases h; assumption
    · cases h
  · intro h
    rw [h]
    exact Severity.fromU8_toU8 sev

theorem kind_iff {v : UInt8} {kind : DictKind} :
    DictKind.fromU8 v = .ok kind ↔ v = kindCode kind := by
  constructor
  · intro h
    unfold DictKind.fromU8 at h
    split at h
    · cases h; assumption
    split at h
    · cases h; assumption
    split at h
    · cases h; assumption
    split at h
    · cases h; assumption
    · cases h
  · intro h
    rw [h]
    exact DictKind.fromU8_toU8 kind

/-- the decoder of an event, on as many bytes as the record declares -/
theorem eventP_bytes {bs r : Bytes} {ev : EventRecord} (hlen : bs.length = 40 + leAt bs 36 4) :
    eventP (bs ++ r) = .ok (ev, r) ↔ EventBytes ev bs := by
  have hread : ∀ a n, a + n ≤ 40 → leAt (bs ++ r) a n = leAt bs a n := by
    intro a n h
    exact leAt_append_left r (by omega)
  have hsev : (bs ++ r).getD 32 0 = bs.getD 32 0 := getD_left r (by omega)
  have hpay : ((bs ++ r).drop 40).take (leAt bs 36 4) = bs.drop 40 := by
    rw [List.drop_append_of_le_length (by omega), List.take_left']
    rw [List.length_drop]
    omega
  have hrest : (bs ++ r).drop (40 + leAt bs 36 4) = r := List.drop_left' hlen
  have hshort : ¬ (bs ++ r).length < 40 + leAt bs 36 4 := by
    rw [List.length_append]
    omega
  unfold eventP
  rw [if_neg (by omega), hsev, hread 36 4 (by omega), hpay, hrest]
  simp only [if_neg hshort]
  constructor
  · intro h
    cases hs : Severity.fromU8 (bs.getD 32 0) with
    | error e => rw [hs] at h; cases h
    | ok sev =>
      rw [hs] at h
      dsimp only at h
      split at h
      · cases h
      rename_i hmax
      cases hp : payloadOf (bs.drop 40) with
      | error e => rw [hp] at h; cases h
      | ok p =>
        rw [hp] at h
        cases h
        refine ⟨?_, ?_, ?_, ?_, ?_, ?_, severity_iff.mp hs, hlen, by omega, payloadOf_iff.mp hp⟩
        · rw [← hread 0 8 (by omega), toNat_leAt8]
        · rw [← hread 8 8 (by omega), toNat_leAt8]
        · rw [← hread 16 4 (by omega), toNat_leAt4]
        · rw [← hread 20 4 (by omega), toNat_leAt4]
        · rw [← hread 24 4 (by omega), toNat_leAt4]
        · rw [← hread 28 4 (by omega), toNat_leAt4]
  · rintro ⟨hns, hseq, hdom, hcat, hname, hcor, hs, _, hmax, hp⟩
    rw [severity_iff.mpr hs]
    dsimp only
    rw [if_neg (not_lt.mpr hmax), payloadOf_iff.mpr hp, hread 0 8 (by omega),
      hread 8 8 (by omega), hread 16 4 (by omega), hread 20 4 (by omega), hread 24 4 (by omega),
      hread 28 4 (by omega), hns, hseq, hdom, hcat, hname, hcor]
    simp only [UInt64.ofNat_toNat, UInt32.ofNat_toNat]

theorem eventP_reads : Reads eventP EventBytes := by
  intro s ev r
  constructor
  · intro h
    obtain ⟨hlen, _, hr, _⟩ := eventP_ok h
    have hs : s.take (40 + leAt s 36 4) ++ r = s := by rw [hr, List.take_append_drop]
    have hl : (s.take (40 + leAt s 36 4)).length = 40 + leAt (s.take (40 + leAt s 36 4)) 36 4 := by
      rw [leAt_take (by omega), List.length_take_of_le hlen]
    rw [← hs] at h
    refine ⟨s.take (40 + leAt s 36 4), (eventP_bytes hl).mp h, hs.symm⟩
  · rintro ⟨bs, hb, rfl⟩
    exact (eventP_bytes hb.payload_len).mpr hb

/-- the decoder of an entry, on as many bytes as the record declares -/
theorem entryP_bytes {bs r : Bytes} {e : DictEntry} (hlen : bs.length = 7 + leAt bs 5 2) :
    entryP (bs ++ r) = .ok (e, r) ↔ EntryBytes e bs := by
  have hkind : (bs ++ r).getD 0 0 = bs.getD 0 0 := getD_left r (by omega)
  have hid : leAt (bs ++ r) 1 4 = leAt bs 1 4 := leAt_append_left r (by omega)
  have hname : leAt (bs ++ r) 5 2 = leAt bs 5 2 := leAt_append_left r (by omega)
  have hbytes : ((bs ++ r).drop 7).take (leAt bs 5 2) = bs.drop 7 := by
    rw [List.drop_append_of_le_length (by omega), List.take_left']
    rw [List.length_drop]
    omega
  have hrest : (bs ++ r).drop (7 + leAt bs 5 2) = r := List.drop_left' hlen
  have htotal : (bs ++ r).length = 7 + leAt bs 5 2 + r.length := by
    rw [List.length_append, hlen]
  have h7 : ¬ (bs ++ r).length < 7 := by omega
  have hshort : ¬ (bs ++ r).length < 7 + leAt bs 5 2 := by omega
  unfold entryP
  rw [if_neg (by omega), hkind, hid, hname, hbytes, hrest]
  simp only [if_neg h7, if_neg hshort]
  constructor
  · intro h
    cases hk : DictKind.fromU8 (bs.getD 0 0) with
    | error e => rw [hk] at h; cases h
    | ok kind =>
      rw [hk] at h
      dsimp only at h
      cases hn : fromUtf8 (bs.drop 7) with
      | none => rw [hn] at h; cases h
      | some name =>
        rw [hn] at h
        cases h
        exact ⟨kind_iff.mp hk, (toNat_leAt4 ..).symm, hlen, (fromUtf8_eq_some.mp hn).symm⟩
  · rintro ⟨hk, he, _, hn⟩
    rw [kind_iff.mpr hk, hn, fromUtf8_utf8, he]
    simp only [UInt32.ofNat_toNat]

theorem entryP_reads : Reads entryP EntryBytes := by
  intro s e r
  constructor
  · intro h
    obtain ⟨hlen, _, hr⟩ := entryP_ok h
    have hs : s.take (7 + leAt s 5 2) ++ r = s := by rw [hr, List.take_append_drop]
    have hl : (s.take (7 + leAt s 5 2)).length = 7 + leAt (s.take (7 + leAt s 5 2)) 5 2 := by
      rw [leAt_take (by omega), List.length_take_of_le hlen]
    rw [← hs] at h
    exact ⟨s.take (7 + leAt s 5 2), (entryP_bytes hl).mp h, hs.symm⟩
  · rintro ⟨bs, hb, rfl⟩
    exact (entryP_bytes hb.name_len).mpr hb

/-! ## chunks -/

/-- **a dictionary payload is accepted exactly when it is as its table says** -/
theorem entriesOf_iff {s : Bytes} {es : List DictEntry} :
    entriesOf s = .ok es ↔ Counted EntryBytes 65535 es s := entryP_reads.listOf es s

/-- **an event payload is accepted exactly when it is as its table says** -/
theorem eventsOf_iff {s : Bytes} {evs : List EventRecord} :
    eventsOf s = .ok evs ↔ Counted EventBytes 65535 evs s := eventP_reads.listOf evs s

/-! ## errors -/

/-- an error that is not the one of a chunk's magic -/
abbrev Rejects (e : Error) : Prop := e ≠ .invalidChunkMagic

theorem takeFixed_fails {n : Nat} {msg : String} {mk : Bytes → Value} :
    Fails (takeFixed n msg mk) Rejects := by
  intro s e h
  unfold takeFixed at h
  split at h
  · cases h
    exact Error.noConfusion
  · cases h

theorem bytesP_fails : Fails bytesP Rejects := by
  intro s e h
  unfold bytesP at h
  split at h
  · cases h
    exact Error.noConfusion
  split at h
  · cases h
    exact Error.noConfusion
  split at h
  · cases h
    exact Error.noConfusion
  · cases h

theorem valueP_fails (tag : UInt8) : Fails (valueP tag) Rejects := by
  have arm : ∀ {c : Prop} [Decidable c] {p q : Parser Error Value}, Fails p Rejects →
      Fails q Rejects → Fails (if c then p else q) Rejects := by
    intro c _ p q hp hq
    by_cases hc : c
    · rwa [if_pos hc]
    · rwa [if_neg hc]
  have unknown : Fails (fun _ => .error (.unknownTypeTag tag) : Parser Error Value) Rejects := by
    intro s e h
    cases h
    exact Error.noConfusion
  have fixed := @takeFixed_fails
  exact arm fixed (arm fixed (arm fixed (arm fixed (arm fixed (arm fixed (arm fixed (arm fixed
    (arm fixed (arm fixed (arm fixed (arm bytesP_fails unknown)))))))))))

theorem fieldP_fails : Fails fieldP Rejects := by
  intro s e h
  unfold fieldP at h
  split at h
  · cases h
    exact Error.noConfusion
  cases hv : valueP (s.getD 4 0) (s.drop 6) with
  | error e' =>
    rw [hv] at h
    cases h
    exact valueP_fails _ _ _ hv
  | ok x => rw [hv] at h; cases h

theorem payloadOf_fails {s : Bytes} {e : Error} (h : payloadOf s = .error e) : Rejects e := by
  unfold payloadOf at h
  split at h
  · cases h
    exact Error.noConfusion
  cases hw : whole (times fieldP (leAt s 0 2))
      (fun k => .malformedRecord s!"payload has {k} trailing bytes") (s.drop 2) with
  | error e' =>
    rw [hw] at h
    cases h
    exact (fieldP_fails.times _).whole (fun _ => Error.noConfusion) hw
  | ok fs => rw [hw] at h; cases h

theorem eventP_fails : Fails eventP Rejects := by
  intro s e h
  unfold eventP at h
  split at h
  · cases h
    exact Error.noConfusion
  cases hs : Severity.fromU8 (s.getD 32 0) with
  | error e' =>
    rw [hs] at h
    cases h
    unfold Severity.fromU8 at hs
    repeat (split at hs; · cases hs)
    cases hs
    exact Error.noConfusion
  | ok sev =>
    rw [hs] at h
    dsimp only at h
    split at h
    · cases h
      exact Error.noConfusion
    split at h
    · cases h
      exact Error.noConfusion
    cases hp : payloadOf ((s.drop 40).take (leAt s 36 4)) with
    | error e' =>
      rw [hp] at h
      cases h
      exact payloadOf_fails hp
    | ok p => rw [hp] at h; cases h

theorem entryP_fails : Fails entryP Rejects := by
  intro s e h
  unfold entryP at h
  split at h
  · cases h
    exact Error.noConfusion
  cases hk : DictKind.fromU8 (s.getD 0 0) with
  | error e' =>
    rw [hk] at h
    cases h
    unfold DictKind.fromU8 at hk
    repeat (split at hk; · cases hk)
    cases hk
    exact Error.noConfusion
  | ok kind =>
    rw [hk] at h
    dsimp only at h
    split at h
    · cases h
      exact Error.noConfusion
    split at h
    · cases h
      exact Error.noConfusion
    cases hn : fromUtf8 ((s.drop 7).take (leAt s 5 2)) with
    | none =>
      rw [hn] at h
      cases h
      exact Error.noConfusion
    | some name => rw [hn] at h; cases h

theorem entriesOf_fails {s : Bytes} {e : Error} (h : entriesOf s = .error e) : Rejects e :=
  entryP_fails.listOf Error.noConfusion Error.noConfusion (fun _ => Error.noConfusion) h

theorem eventsOf_fails {s : Bytes} {e : Error} (h : eventsOf s = .error e) : Rejects e :=
  eventP_fails.listOf Error.noConfusion Error.noConfusion (fun _ => Error.noConfusion) h

end Dtj.Spec
