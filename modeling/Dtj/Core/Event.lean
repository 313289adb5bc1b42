import Dtj.Core.Payload

/-!
# Event records

`crates/dtj/src/event.rs`.

* `EventRecord.encode`, `EventRecord.decodeMany`   the source;
* `EventRecord.raw`, `EventRecord.Fits`            the bytes of an event, and what is encoded;
* `eventP`, `eventsOf`                             the decoder over the rest of the buffer;
* `EventRecord.encode_ok`, `EventRecord.decodeMany_eq`, `eventP_inverts`, `eventP_sized`.
-/

namespace Dtj
open Wire Checked

inductive Severity where
  | trace
  | debug
  | info
  | warn
  | error
  | fatal
deriving DecidableEq, Repr

def Severity.toU8 : Severity → UInt8
  | .trace => 0
  | .debug => 1
  | .info => 2
  | .warn => 3
  | .error => 4
  | .fatal => 5

def Severity.fromU8 (v : UInt8) : Except Error Severity :=
  if v = 0 then .ok .trace
  else if v = 1 then .ok .debug
  else if v = 2 then .ok .info
  else if v = 3 then .ok .warn
  else if v = 4 then .ok .error
  else if v = 5 then .ok .fatal
  else .error (.invalidSeverity v)

@[simp] theorem Severity.fromU8_toU8 (s : Severity) : Severity.fromU8 s.toU8 = .ok s := by
  cases s <;> rfl

structure EventRecord where
  monotonicNs : UInt64
  eventSequence : UInt64
  domainId : UInt32
  categoryId : UInt32
  eventNameId : UInt32
  correlationId : UInt32
  severity : Severity
  payload : TypedPayload
deriving DecidableEq, Repr

/-! ## the source -/

/-- the loop of `EventRecord::encode` -/
def encodeEvents : List EventRecord → Bytes → Except Error Bytes
  | [], out => .ok out
  | ev :: evs, out => do
    let payload ← ev.payload.encode
    if UInt32.ofNat payload.length > maxEventPayload then
      .error (.limitExceeded "event payload too large")
    else
      encodeEvents evs (out
        ++ le 8 ev.monotonicNs.toNat
        ++ le 8 ev.eventSequence.toNat
        ++ le 4 ev.domainId.toNat
        ++ le 4 ev.categoryId.toNat
        ++ le 4 ev.eventNameId.toNat
        ++ le 4 ev.correlationId.toNat
        ++ [ev.severity.toU8]
        ++ [0] -- flags
        ++ le 2 0
        ++ le 4 (UInt32.ofNat payload.length).toNat
        ++ payload)

def EventRecord.encode (events : List EventRecord) : Except Error Bytes :=
  if UInt32.ofNat events.length > maxEventsPerChunk then
    .error (.limitExceeded "too many events in Event chunk")
  else encodeEvents events (le 4 (UInt32.ofNat events.length).toNat)

/-- the body of the loop of `EventRecord::decode_many` -/
def decodeEventAt (buf : Bytes) : Nat × List EventRecord → Res Error (Nat × List EventRecord)
  | (offset, events) => do
    let stop ← add64 offset 40
    if stop > buf.length then fail (.malformedRecord "truncated event header")
    let monotonicNs ← window buf offset 0 8 >>= fromLe 8
    let eventSequence ← window buf offset 8 16 >>= fromLe 8
    let domainId ← window buf offset 16 20 >>= fromLe 4
    let categoryId ← window buf offset 20 24 >>= fromLe 4
    let eventNameId ← window buf offset 24 28 >>= fromLe 4
    let correlationId ← window buf offset 28 32 >>= fromLe 4
    let severity ← lift (Severity.fromU8 (← idx buf (← add64 offset 32)))
    -- flags and reserved at 33..36 ignored
    let payloadLen ← window buf offset 36 40 >>= fromLe 4
    let offset ← add64 offset 40
    if UInt32.ofNat payloadLen > maxEventPayload then
      fail (.limitExceeded "event payload too large")
    let stop ← add64 offset payloadLen
    if stop > buf.length then fail (.malformedRecord "truncated event payload")
    let payload ← TypedPayload.decode (← slice buf offset stop)
    .ok (stop, events ++ [⟨UInt64.ofNat monotonicNs, UInt64.ofNat eventSequence,
      UInt32.ofNat domainId, UInt32.ofNat categoryId, UInt32.ofNat eventNameId,
      UInt32.ofNat correlationId, severity, payload⟩])

def EventRecord.decodeMany (buf : Bytes) : Res Error (List EventRecord) :=
  decodeCounted maxEventsPerChunk (.malformedRecord "event chunk too short")
    (.limitExceeded "too many events in Event chunk")
    (fun left => .malformedRecord s!"event chunk has {left} trailing bytes") decodeEventAt buf

/-! ## the bytes of an event -/

/-- the 40 bytes before the payload -/
def EventRecord.head (ev : EventRecord) : Bytes :=
  le 8 ev.monotonicNs.toNat ++ (le 8 ev.eventSequence.toNat ++ (le 4 ev.domainId.toNat ++
    (le 4 ev.categoryId.toNat ++ (le 4 ev.eventNameId.toNat ++ (le 4 ev.correlationId.toNat ++
      ([ev.severity.toU8, 0, 0, 0] ++ le 4 ev.payload.raw.length))))))

def EventRecord.raw (ev : EventRecord) : Bytes := ev.head ++ ev.payload.raw

@[simp] theorem EventRecord.head_length (ev : EventRecord) : ev.head.length = 40 := by
  simp [EventRecord.head]

theorem EventRecord.raw_length (ev : EventRecord) : ev.raw.length = 40 + ev.payload.raw.length := by
  rw [EventRecord.raw, List.length_append, EventRecord.head_length]

/-- what the encoder of events accepts -/
def EventRecord.Fits (ev : EventRecord) : Prop :=
  ev.payload.Fits ∧ ev.payload.raw.length ≤ 65535

instance (ev : EventRecord) : Decidable ev.Fits :=
  inferInstanceAs (Decidable (ev.payload.Fits ∧ ev.payload.raw.length ≤ 65535))

theorem Value.raw_length_le (v : Value) : v.raw.length ≤ 12 + v.bytesLen := by
  cases v <;> simp [Value.raw, Value.bytesLen]

theorem Value.Fits.raw_length {v : Value} (h : v.Fits) : v.raw.length ≤ 4108 := by
  have h1 := v.raw_length_le
  have h2 : v.bytesLen ≤ 4096 := h
  omega

theorem Field.raw_length (f : Field) : f.raw.length = 6 + f.value.raw.length := by
  rw [Field.raw, List.length_append, le_length, List.length_append]
  show 4 + (2 + f.value.raw.length) = _
  omega

theorem flatMap_length_le {α : Type} {g : α → Bytes} {k : Nat} (l : List α)
    (h : ∀ a ∈ l, (g a).length ≤ k) : (l.flatMap g).length ≤ l.length * k := by
  induction l with
  | nil => simp
  | cons a l ih =>
    have h1 := h a (List.mem_cons_self ..)
    have h2 := ih fun b hb => h b (List.mem_cons_of_mem _ hb)
    rw [List.flatMap_cons, List.length_append, List.length_cons, Nat.succ_mul]
    omega

/-- the cast of a payload's length to `u32` loses nothing -/
theorem TypedPayload.Fits.raw_length {p : TypedPayload} (h : p.Fits) : p.raw.length < 2^32 := by
  have h1 := @flatMap_length_le Field Field.raw 4114 p.fields fun f hf => by
    have := (h.2 f hf).raw_length
    rw [Field.raw_length]
    omega
  have h2 := h.1
  rw [TypedPayload.raw, List.length_append, le_length]
  omega

theorem encodeEvents_ok {evs : List EventRecord} {out out' : Bytes} :
    encodeEvents evs out = .ok out' ↔
      (∀ ev ∈ evs, ev.Fits) ∧ out' = out ++ evs.flatMap EventRecord.raw := by
  induction evs generalizing out with
  | nil => simp [encodeEvents, eq_comm]
  | cons ev evs ih =>
    rw [encodeEvents]
    by_cases hp : ev.payload.Fits
    · have henc : ev.payload.encode = .ok ev.payload.raw := TypedPayload.encode_ok.mpr ⟨hp, rfl⟩
      have hlt := hp.raw_length
      have hlen : (UInt32.ofNat ev.payload.raw.length).toNat = ev.payload.raw.length := by
        rw [UInt32.toNat_ofNat', Nat.mod_eq_of_lt hlt]
      rw [henc]
      show (if UInt32.ofNat ev.payload.raw.length > maxEventPayload then _ else _) = _ ↔ _
      by_cases hbig : ev.payload.raw.length ≤ 65535
      · have hng : ¬ UInt32.ofNat ev.payload.raw.length > maxEventPayload := by
          rw [ofNat_gt hlt]; exact not_lt.mpr hbig
        have hf : ev.Fits := ⟨hp, hbig⟩
        rw [if_neg hng, ih, hlen]
        simp [hf, EventRecord.raw, EventRecord.head, le]
      · have hg : UInt32.ofNat ev.payload.raw.length > maxEventPayload := by
          rw [ofNat_gt hlt]; exact not_le.mp hbig
        rw [if_pos hg]
        constructor
        · intro h; cases h
        · rintro ⟨h, _⟩; exact absurd (h ev (List.mem_cons_self ..)).2 hbig
    · constructor
      · intro h
        cases he : ev.payload.encode with
        | error e => rw [he] at h; cases h
        | ok b => exact absurd (TypedPayload.encode_ok.mp he).1 hp
      · rintro ⟨h, _⟩; exact absurd (h ev (List.mem_cons_self ..)).1 hp

/-- **the encoder of events, with the count that it checks after the cast to `u32`** -/
theorem EventRecord.encode_ok {evs : List EventRecord} {out : Bytes} :
    EventRecord.encode evs = .ok out ↔ evs.length % 2^32 ≤ 65535 ∧ (∀ ev ∈ evs, ev.Fits) ∧
      out = le 4 (evs.length % 2^32) ++ evs.flatMap EventRecord.raw := by
  have hcount : UInt32.ofNat evs.length > maxEventsPerChunk ↔ 65535 < evs.length % 2^32 := by
    rw [gt_iff_lt, UInt32.lt_iff_toNat_lt, UInt32.toNat_ofNat']; rfl
  unfold EventRecord.encode
  by_cases h : 65535 < evs.length % 2^32
  · rw [if_pos (hcount.mpr h)]
    constructor
    · intro e; cases e
    · rintro ⟨h', _⟩; omega
  · rw [if_neg (mt hcount.mp h), encodeEvents_ok, UInt32.toNat_ofNat']
    constructor
    · rintro ⟨h1, h2⟩; exact ⟨by omega, h1, h2⟩
    · rintro ⟨_, h1, h2⟩; exact ⟨h1, h2⟩

/-! ## the decoder over the rest of the buffer -/

def eventP : Parser Error EventRecord := fun s =>
  if s.length < 40 then .error (.malformedRecord "truncated event header")
  else match Severity.fromU8 (s.getD 32 0) with
    | .error e => .error e
    | .ok severity =>
      if 65535 < leAt s 36 4 then .error (.limitExceeded "event payload too large")
      else if s.length < 40 + leAt s 36 4 then .error (.malformedRecord "truncated event payload")
      else match payloadOf ((s.drop 40).take (leAt s 36 4)) with
        | .error e => .error e
        | .ok payload => .ok (⟨UInt64.ofNat (leAt s 0 8), UInt64.ofNat (leAt s 8 8),
            UInt32.ofNat (leAt s 16 4), UInt32.ofNat (leAt s 20 4), UInt32.ofNat (leAt s 24 4),
            UInt32.ofNat (leAt s 28 4), severity, payload⟩, s.drop (40 + leAt s 36 4))

def eventsOf (s : Bytes) : Except Error (List EventRecord) :=
  listOf maxEventsPerChunk (.malformedRecord "event chunk too short")
    (.limitExceeded "too many events in Event chunk")
    (fun left => .malformedRecord s!"event chunk has {left} trailing bytes") eventP s

theorem eventP_ok {s r : Bytes} {ev : EventRecord} (h : eventP s = .ok (ev, r)) :
    40 + leAt s 36 4 ≤ s.length ∧ leAt s 36 4 ≤ 65535 ∧ r = s.drop (40 + leAt s 36 4) ∧
      payloadOf ((s.drop 40).take (leAt s 36 4)) = .ok ev.payload := by
  unfold eventP at h
  split at h
  · cases h
  cases hsev : Severity.fromU8 (s.getD 32 0) with
  | error e => rw [hsev] at h; cases h
  | ok sev =>
    rw [hsev] at h
    simp only at h
    split at h
    · cases h
    split at h
    · cases h
    cases hp : payloadOf ((s.drop 40).take (leAt s 36 4)) with
    | error e => rw [hp] at h; cases h
    | ok p =>
      rw [hp] at h
      cases h
      exact ⟨by omega, by omega, rfl, rfl⟩

theorem eventP_sized : Sized eventP EventRecord.raw EventRecord.Fits := by
  intro s ev r h
  obtain ⟨hlen, hmax, rfl, hp⟩ := eventP_ok h
  obtain ⟨hfit, hraw⟩ := payloadOf_ok hp
  rw [List.length_take, List.length_drop] at hraw
  refine ⟨⟨hfit, by omega⟩, List.drop_suffix _ _, ?_⟩
  rw [EventRecord.raw_length, List.length_drop]
  omega

/-- **an event that fits is read back, whatever follows it** -/
theorem eventP_inverts : Inverts eventP EventRecord.raw EventRecord.Fits := by
  intro ev hf t
  obtain ⟨hfit, hmax⟩ := hf
  have hraw : ev.raw ++ t = ev.head ++ (ev.payload.raw ++ t) := List.append_assoc ..
  have hlen : leAt (ev.raw ++ t) 36 4 = ev.payload.raw.length := by
    simp only [hraw, EventRecord.head, List.append_assoc]
    simp (disch := simp) only [leAt_skip]
    exact leAt_head 4 _ _ (by omega)
  have hsev : (ev.raw ++ t).getD 32 0 = ev.severity.toU8 := by
    simp [hraw, EventRecord.head, List.getD_eq_getElem?_getD, List.getElem?_append_right]
  have hdrop : (ev.raw ++ t).drop 40 = ev.payload.raw ++ t := by
    rw [hraw, List.drop_left' ev.head_length]
  have hp : payloadOf (((ev.raw ++ t).drop 40).take ev.payload.raw.length) = .ok ev.payload := by
    rw [hdrop, List.take_left' rfl, payloadOf_raw hfit]
  have hrest : (ev.raw ++ t).drop (40 + ev.payload.raw.length) = t := by
    rw [← List.drop_drop, hdrop, List.drop_left' rfl]
  have htotal : (ev.raw ++ t).length = 40 + ev.payload.raw.length + t.length := by
    rw [List.length_append, EventRecord.raw_length]
  unfold eventP
  rw [if_neg (by omega), hsev, Severity.fromU8_toU8, hlen]
  simp only [if_neg (not_lt.mpr hmax), htotal, hp, hrest]
  rw [if_neg (by omega)]
  simp only [hraw, EventRecord.head, List.append_assoc]
  simp (disch := simp) only [leAt_skip, le_length, Nat.reduceSub, uint64_le, uint32_le]

/-! ## the decoder with offsets reads the rest of the buffer -/

theorem decodeEventAt_eq {buf : Bytes} (hbuf : buf.length < 2^63) (off : Nat)
    (acc : List EventRecord) (hoff : off ≤ buf.length) : decodeEventAt buf (off, acc)
      = resume buf (fun ev => acc ++ [ev]) (eventP (buf.drop off)) := by
  have hstop : (add64 off 40 : Res Error Nat) = .ok (off + 40) := add64_eq (by omega)
  unfold eventP
  by_cases h : (buf.drop off).length < 40
  · rw [if_pos h]
    rw [List.length_drop] at h
    have hgt : off + 40 > buf.length := by omega
    simp only [decodeEventAt, hstop, ok_bind, if_pos hgt, fail_bind, resume]
  rw [if_neg h]
  rw [List.length_drop] at h
  have hgt : ¬ off + 40 > buf.length := by omega
  have h32 : (add64 off 32 : Res Error Nat) = .ok (off + 32) := add64_eq (by omega)
  have hsev : (idx buf (off + 32) : Res Error UInt8) = .ok ((buf.drop off).getD 32 0) := by
    rw [idx_eq (by omega), List.getD_eq_getElem?_getD, List.getElem?_drop,
      List.getElem?_eq_getElem (by omega)]
    rfl
  have hread : ∀ a b n, a + n = b → b ≤ 40 →
      (window buf off a b >>= fromLe n : Res Error Nat) = .ok (leAt (buf.drop off) a n) :=
    fun a b n hn hb => window_fromLe hbuf hn (by omega)
  have hlt := leAt_lt (buf.drop off) 36 4
  have hbig : UInt32.ofNat (leAt (buf.drop off) 36 4) > maxEventPayload
      ↔ 65535 < leAt (buf.drop off) 36 4 := ofNat_gt hlt
  simp only [decodeEventAt, hstop, ok_bind, if_neg hgt, h32, hsev,
    hread 0 8 8 rfl (by norm_num), hread 8 16 8 rfl (by norm_num), hread 16 20 4 rfl (by norm_num),
    hread 20 24 4 rfl (by norm_num), hread 24 28 4 rfl (by norm_num),
    hread 28 32 4 rfl (by norm_num), hread 36 40 4 rfl (by norm_num)]
  cases Severity.fromU8 ((buf.drop off).getD 32 0) with
  | error e => rfl
  | ok sev =>
    simp only [lift_ok, ok_bind, hbig]
    by_cases hb : 65535 < leAt (buf.drop off) 36 4
    · rw [if_pos hb, if_pos hb]; rfl
    have hadd : (add64 (off + 40) (leAt (buf.drop off) 36 4) : Res Error Nat)
        = .ok (off + 40 + leAt (buf.drop off) 36 4) := add64_eq (by omega)
    rw [if_neg hb, if_neg hb, hadd]
    simp only [ok_bind]
    by_cases ht : (buf.drop off).length < 40 + leAt (buf.drop off) 36 4
    · rw [if_pos ht]
      rw [List.length_drop] at ht
      rw [if_pos (by omega)]
      rfl
    rw [if_neg ht]
    rw [List.length_drop] at ht
    have hs : (slice buf (off + 40) (off + 40 + leAt (buf.drop off) 36 4) : Res Error Bytes)
        = .ok (((buf.drop off).drop 40).take (leAt (buf.drop off) 36 4)) := by
      rw [slice_eq (by omega) (by omega), List.drop_drop, Nat.add_sub_cancel_left]
    have hwin : (((buf.drop off).drop 40).take (leAt (buf.drop off) 36 4)).length < 2^63 := by
      rw [List.length_take]; omega
    rw [if_neg (by omega), hs, ok_bind, TypedPayload.decode_eq hwin]
    cases payloadOf (((buf.drop off).drop 40).take (leAt (buf.drop off) 36 4)) with
    | error e => rfl
    | ok p =>
      have he : buf.length - ((buf.drop off).drop (40 + leAt (buf.drop off) 36 4)).length
          = off + 40 + leAt (buf.drop off) 36 4 := by
        rw [List.length_drop, List.length_drop]; omega
      simp only [resume, lift_ok, ok_bind, he]

theorem EventRecord.decodeMany_eq {buf : Bytes} (hbuf : buf.length < 2^63) :
    EventRecord.decodeMany buf = lift (eventsOf buf) :=
  decodeCounted_eq eventP_sized.suffix (decodeEventAt_eq hbuf)

/-- events that fit are read back from the bytes of their chunk -/
theorem eventsOf_raw {evs : List EventRecord} (hn : evs.length ≤ 65535)
    (hf : ∀ ev ∈ evs, ev.Fits) : eventsOf (listRaw EventRecord.raw evs) = .ok evs :=
  listOf_raw eventP_inverts hn hf

theorem eventsOf_ok {s : Bytes} {evs : List EventRecord} (h : eventsOf s = .ok evs) :
    (∀ ev ∈ evs, ev.Fits) ∧ evs.length ≤ 65535 ∧ evs.length = leAt s 0 4 ∧
      (listRaw EventRecord.raw evs).length = s.length :=
  listOf_ok eventP_sized h

end Dtj
