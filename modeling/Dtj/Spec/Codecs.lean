import Dtj.Spec.Grammar

/-!
# The codecs of payloads, events and dictionary entries

* `Value.edit`, `Field.edit`, `TypedPayload.edit`, `EventRecord.edit`   what becomes of each byte of
  a record that is read and written again: reserved bytes are cleared, a boolean is 0 or 1;
* `payload_decode_encode`, `events_decode_encode`, `entries_decode_encode`   what was encoded is
  decoded to the same value;
* `events_encode_decode`   **what was decoded is encoded to the same bytes, but for these**;
* `codecs_round_trip`      the four together.
-/

namespace Dtj
open Wire Checked Spec

/-! ## decoding what was encoded -/

theorem payload_decode_encode {p : TypedPayload} {out : Bytes} (h : p.encode = .ok out) :
    TypedPayload.decode out = .ok p := by
  obtain ⟨hfit, rfl⟩ := TypedPayload.encode_ok.mp h
  have hlen := hfit.raw_length
  rw [TypedPayload.decode_eq (by omega), payloadOf_raw hfit]
  rfl

theorem events_decode_encode {evs : List EventRecord} {out : Bytes} (hn : evs.length < 2^32)
    (h : EventRecord.encode evs = .ok out) : EventRecord.decodeMany out = .ok evs := by
  obtain ⟨hcount, hfit, hout⟩ := EventRecord.encode_ok.mp h
  rw [Nat.mod_eq_of_lt hn] at hcount hout
  have hraw : ∀ ev ∈ evs, ev.raw.length ≤ 65575 := by
    intro ev hev
    have hp := (hfit ev hev).2
    rw [EventRecord.raw_length]
    omega
  have hlen := flatMap_length_le evs hraw
  have hsize : out.length < 2^63 := by
    rw [hout, List.length_append, le_length]
    omega
  rw [EventRecord.decodeMany_eq hsize, hout]
  exact congrArg lift (eventsOf_raw hcount hfit)

theorem entries_decode_encode {es : List DictEntry} {out : Bytes} (hn : es.length < 2^32)
    (h : Dictionary.encodeEntries es = .ok out) : Dictionary.decodeEntries out = .ok es := by
  obtain ⟨hcount, hfit, hout⟩ := Dictionary.encodeEntries_ok.mp h
  rw [Nat.mod_eq_of_lt hn] at hcount hout
  have hraw : ∀ e ∈ es, e.raw.length ≤ 1031 := by
    intro e he
    have hname := hfit e he
    rw [DictEntry.raw_length]
    omega
  have hlen := flatMap_length_le es hraw
  have hsize : out.length < 2^63 := by
    rw [hout, List.length_append, le_length]
    omega
  rw [Dictionary.decodeEntries_eq hsize, hout]
  exact congrArg lift (entriesOf_raw hcount hfit)

/-! ## encoding what was decoded -/

/-- a boolean is written as 0 or 1 -/
def truth (b : UInt8) : UInt8 := if b = 0 then 0 else 1

def Value.edit : Value → List (UInt8 → UInt8)
  | .bool _ => [truth]
  | v => kept v.raw.length

/-- the byte behind the type tag is reserved -/
def Field.edit (f : Field) : List (UInt8 → UInt8) := kept 5 ++ (cleared 1 ++ f.value.edit)

def TypedPayload.edit (p : TypedPayload) : List (UInt8 → UInt8) :=
  kept 2 ++ p.fields.flatMap Field.edit

/-- the flags and two reserved bytes stand behind the severity -/
def EventRecord.edit (ev : EventRecord) : List (UInt8 → UInt8) :=
  kept 33 ++ (cleared 3 ++ (kept 4 ++ ev.payload.edit))

def eventsEdit (evs : List EventRecord) : List (UInt8 → UInt8) :=
  kept 4 ++ evs.flatMap EventRecord.edit

theorem Spec.ValueBytes.edits {tag : UInt8} {v : Value} {bs : Bytes} (h : ValueBytes tag v bs) :
    v.tag = tag ∧ Edits v.edit bs v.raw := by
  have hle : ∀ {n : Nat} {s : Bytes}, s.length = n → le n (leNat s) = s := by
    intro n s hs
    rw [← hs, le_leNat]
  have h4 : ∀ {s : Bytes}, s.length = 4 → le 4 (UInt32.ofNat (leNat s)).toNat = s := by
    intro s hs
    have hlt := leNat_lt s
    rw [hs] at hlt
    rw [UInt32.toNat_ofNat', Nat.mod_eq_of_lt (by omega), hle hs]
  have h8 : ∀ {s : Bytes}, s.length = 8 → le 8 (UInt64.ofNat (leNat s)).toNat = s := by
    intro s hs
    have hlt := leNat_lt s
    rw [hs] at hlt
    rw [UInt64.toNat_ofNat', Nat.mod_eq_of_lt (by omega), hle hs]
  -- a value whose bytes are those that were read
  have same : ∀ {v : Value}, (∀ b, v ≠ .bool b) → v.raw = bs → Edits v.edit bs v.raw := by
    intro v hv hraw
    have hedit : v.edit = kept v.raw.length := by
      cases v with
      | bool b => exact absurd rfl (hv b)
      | _ => rfl
    rw [hedit, hraw]
    exact edits_kept rfl
  cases h with
  | bool b =>
    refine ⟨rfl, rfl, ?_⟩
    by_cases hb : b = 0
    · rw [hb]
      rfl
    · simp [Value.raw, Value.edit, truth, hb]
  | i32 h => exact ⟨rfl, same (fun b => Value.noConfusion) (h4 h)⟩
  | i64 h => exact ⟨rfl, same (fun b => Value.noConfusion) (h8 h)⟩
  | u32 h => exact ⟨rfl, same (fun b => Value.noConfusion) (h4 h)⟩
  | u64 h => exact ⟨rfl, same (fun b => Value.noConfusion) (h8 h)⟩
  | f32 h => exact ⟨rfl, same (fun b => Value.noConfusion) (h4 h)⟩
  | f64 h => exact ⟨rfl, same (fun b => Value.noConfusion) (h8 h)⟩
  | enum h => exact ⟨rfl, same (fun b => Value.noConfusion) (h4 h)⟩
  | vec2 hx hy =>
    refine ⟨rfl, same (fun b => Value.noConfusion) ?_⟩
    rw [Value.raw, h4 hx, h4 hy]
  | vec3 hx hy hz =>
    refine ⟨rfl, same (fun b => Value.noConfusion) ?_⟩
    rw [Value.raw, h4 hx, h4 hy, h4 hz]
  | interned h => exact ⟨rfl, same (fun b => Value.noConfusion) (h4 h)⟩
  | bytes h => exact ⟨rfl, same (fun b => Value.noConfusion) rfl⟩

theorem Spec.FieldBytes.edits {f : Field} {bs : Bytes} (h : FieldBytes f bs) :
    Edits f.edit bs f.raw := by
  obtain ⟨h6, hid, hv⟩ := h
  obtain ⟨htag, hvalue⟩ := hv.edits
  have hhead : bs.take 5 = le 4 f.nameId.toNat ++ [f.value.tag] := by
    rw [show 5 = 4 + 1 from rfl, List.take_add, take_one (by omega), htag]
    exact congrArg (· ++ _) (take_le hid (by omega))
  have hsplit : bs = bs.take 5 ++ ((bs.drop 5).take 1 ++ bs.drop 6) := by
    rw [show bs.drop 6 = (bs.drop 5).drop 1 by rw [List.drop_drop], List.take_append_drop,
      List.take_append_drop]
  have hraw : f.raw = bs.take 5 ++ (List.replicate 1 0 ++ f.value.raw) := by
    rw [hhead]
    simp only [Field.raw, List.append_assoc]
    rfl
  have h5 : (bs.take 5).length = 5 := List.length_take_of_le (by omega)
  have h1 : ((bs.drop 5).take 1).length = 1 := by
    rw [List.length_take, List.length_drop]
    omega
  have hedits := (edits_kept h5).append ((edits_cleared h1).append hvalue)
  rw [← hsplit, ← hraw] at hedits
  exact hedits

theorem Spec.PayloadBytes.edits {p : TypedPayload} {bs : Bytes} (h : PayloadBytes p bs) :
    Edits p.edit bs p.raw := by
  obtain ⟨h2, hcount, hfields⟩ := h
  have hhead : bs.take 2 = le 2 p.fields.length := take_le hcount (by omega)
  have hsplit : bs = bs.take 2 ++ bs.drop 2 := (List.take_append_drop 2 bs).symm
  have hraw : p.raw = bs.take 2 ++ p.fields.flatMap Field.raw := by
    rw [hhead]
    rfl
  have hedits := (edits_kept (List.length_take_of_le h2)).append
    (hfields.edits fun _ _ => FieldBytes.edits)
  rw [← hsplit, ← hraw] at hedits
  exact hedits

theorem Spec.EventBytes.edits {ev : EventRecord} {bs : Bytes} (h : EventBytes ev bs) :
    Edits ev.edit bs ev.raw := by
  have hlen := h.payload_len
  have hpay := h.payload.edits
  have hplen : ev.payload.raw.length = leAt bs 36 4 := by
    have hd := congrArg List.length hpay.result
    rw [List.length_zipWith, hpay.length, List.length_drop] at hd
    omega
  have hhead : bs.take 33 = le 8 ev.monotonicNs.toNat ++ le 8 ev.eventSequence.toNat ++
      le 4 ev.domainId.toNat ++ le 4 ev.categoryId.toNat ++ le 4 ev.eventNameId.toNat ++
      le 4 ev.correlationId.toNat ++ [ev.severity.toU8] := by
    rw [show 33 = 8 + 8 + 4 + 4 + 4 + 4 + 1 from rfl, List.take_add, List.take_add, List.take_add,
      List.take_add, List.take_add, List.take_add, take_one (by omega),
      take_le h.event_sequence (by omega), take_le h.domain_id (by omega),
      take_le h.category_id (by omega), take_le h.event_name_id (by omega),
      take_le h.correlation_id (by omega), h.severity]
    have hfirst : bs.take 8 = le 8 ev.monotonicNs.toNat := take_le h.monotonic_ns (by omega)
    rw [hfirst]
    cases ev.severity <;> rfl
  have htail : (bs.drop 36).take 4 = le 4 ev.payload.raw.length := by
    rw [hplen]
    exact take_le rfl (by omega)
  have hsplit : bs = bs.take 33 ++ ((bs.drop 33).take 3 ++ ((bs.drop 36).take 4 ++ bs.drop 40)) := by
    rw [show bs.drop 40 = (bs.drop 36).drop 4 by rw [List.drop_drop], List.take_append_drop,
      show bs.drop 36 = (bs.drop 33).drop 3 by rw [List.drop_drop], List.take_append_drop,
      List.take_append_drop]
  have hraw : ev.raw = bs.take 33 ++ (List.replicate 3 0 ++ ((bs.drop 36).take 4 ++ ev.payload.raw)) := by
    rw [hhead, htail]
    simp only [EventRecord.raw, EventRecord.head, List.append_assoc]
    rfl
  have h33 : (bs.take 33).length = 33 := List.length_take_of_le (by omega)
  have h3 : ((bs.drop 33).take 3).length = 3 := by
    rw [List.length_take, List.length_drop]
    omega
  have h4 : ((bs.drop 36).take 4).length = 4 := by
    rw [List.length_take, List.length_drop]
    omega
  have hedits := (edits_kept h33).append
    ((edits_cleared h3).append ((edits_kept h4).append hpay))
  rw [← hsplit, ← hraw] at hedits
  exact hedits

/-- **Events that were decoded are encoded to the same bytes, but for the flags, the reserved bytes
and the booleans** -/
theorem events_encode_decode {buf : Bytes} {evs : List EventRecord} (hbuf : buf.length < 2^63)
    (h : EventRecord.decodeMany buf = .ok evs) :
    ∃ out, EventRecord.encode evs = .ok out ∧ Edits (eventsEdit evs) buf out := by
  rw [EventRecord.decodeMany_eq hbuf, lift_eq_ok] at h
  obtain ⟨hfit, hmax, -, -⟩ := eventsOf_ok h
  obtain ⟨h4, hcount, -, hvalues⟩ := eventsOf_iff.mp h
  have hhead : buf.take 4 = le 4 evs.length := take_le hcount (by omega)
  refine ⟨buf.take 4 ++ evs.flatMap EventRecord.raw, ?_, ?_⟩
  · rw [EventRecord.encode_ok, Nat.mod_eq_of_lt (by omega), hhead]
    exact ⟨hmax, hfit, rfl⟩
  · nth_rewrite 1 [← List.take_append_drop 4 buf]
    exact (edits_kept (List.length_take_of_le h4)).append
      (hvalues.edits fun _ _ => EventBytes.edits)

/-- **The codecs of payloads, events and dictionary entries** -/
theorem codecs_round_trip :
    (∀ p out, TypedPayload.encode p = .ok out → TypedPayload.decode out = .ok p) ∧
    (∀ evs out, evs.length < 2^32 → EventRecord.encode evs = .ok out →
      EventRecord.decodeMany out = .ok evs) ∧
    (∀ es out, es.length < 2^32 → Dictionary.encodeEntries es = .ok out →
      Dictionary.decodeEntries out = .ok es) ∧
    ∀ buf evs, buf.length < 2^63 → EventRecord.decodeMany buf = .ok evs →
      ∃ out, EventRecord.encode evs = .ok out ∧ Edits (eventsEdit evs) buf out :=
  ⟨fun _ _ h => payload_decode_encode h, fun _ _ hn h => events_decode_encode hn h,
    fun _ _ hn h => entries_decode_encode hn h, fun _ _ hbuf h => events_encode_decode hbuf h⟩

/-- an event whose boolean was written as 7, with flags -/
def flaggedEvents : Bytes :=
  le 4 1 ++ (le 8 5 ++ le 8 1 ++ le 4 1 ++ le 4 1 ++ le 4 1 ++ le 4 0 ++ [2, 1, 2, 3] ++ le 4 9) ++
    (le 2 1 ++ le 4 1 ++ [0x01, 9, 7])

theorem codecs_round_trip_example : ∃ evs out, EventRecord.decodeMany flaggedEvents = .ok evs ∧
    EventRecord.encode evs = .ok out ∧ Edits (eventsEdit evs) flaggedEvents out ∧
    EventRecord.decodeMany out = .ok evs ∧
    TypedPayload.decode [1, 0, 1, 0, 0, 0, 1, 0, 1] = .ok ⟨[⟨1, .bool true⟩]⟩ ∧
    Dictionary.decodeEntries [1, 0, 0, 0, 1, 1, 0, 0, 0, 1, 0, 110] = .ok [⟨.domain, 1, "n"⟩] := by
  obtain ⟨hpayload, hevents, hentries, hback⟩ := codecs_round_trip
  have hdec : EventRecord.decodeMany flaggedEvents =
      .ok [⟨5, 1, 1, 1, 1, 0, .info, ⟨[⟨1, .bool true⟩]⟩⟩] := by decide +kernel
  obtain ⟨out, henc, hedits⟩ := hback _ _ (by decide) hdec
  refine ⟨_, out, hdec, henc, hedits, hevents _ _ (by decide) henc, ?_, ?_⟩
  · exact hpayload _ _ (by decide +kernel)
  · exact hentries _ _ (by decide) (by decide +kernel)

end Dtj
