import Dtj.Core.Format

/-!
# Typed payloads

`crates/dtj/src/payload.rs`.  A float is its bit pattern: the codec moves the bytes of a float and
never looks at its value.

* `TypedPayload.encode`, `TypedPayload.decode`, `encodeValue`, `decodeValue`   the source;
* `Value.raw`, `Field.raw`, `TypedPayload.raw`    the bytes that the encoders write;
* `valueP`, `fieldP`, `payloadOf`                 the decoders over the rest of the buffer;
* `decode_eq`      the decoder with offsets is `payloadOf`, and no slice of it is out of range;
* `fieldP_inverts`, `fieldP_sized`                the two codec laws.
-/

namespace Dtj
open Wire Checked

/-- `f32`, by its bits -/
structure F32 where
  bits : UInt32
deriving DecidableEq, Repr

/-- `f64`, by its bits -/
structure F64 where
  bits : UInt64
deriving DecidableEq, Repr

inductive Value where
  | bool (v : Bool)
  | i32 (v : Int32)
  | i64 (v : Int64)
  | u32 (v : UInt32)
  | u64 (v : UInt64)
  | f32 (v : F32)
  | f64 (v : F64)
  | enum (v : UInt32)
  | vec2F32 (x y : F32)
  | vec3F32 (x y z : F32)
  | internedString (id : UInt32)
  | bytes (v : Bytes)
deriving DecidableEq, Repr

structure Field where
  nameId : UInt32
  value : Value
deriving DecidableEq, Repr

structure TypedPayload where
  fields : List Field
deriving DecidableEq, Repr

/-! ## the source -/

def encodeValue : Value → Except Error (UInt8 × Bytes)
  | .bool v => .ok (typeBool, [if v then 1 else 0])
  | .i32 v => .ok (typeI32, le 4 v.toUInt32.toNat)
  | .i64 v => .ok (typeI64, le 8 v.toUInt64.toNat)
  | .u32 v => .ok (typeU32, le 4 v.toNat)
  | .u64 v => .ok (typeU64, le 8 v.toNat)
  | .f32 v => .ok (typeF32, le 4 v.bits.toNat)
  | .f64 v => .ok (typeF64, le 8 v.bits.toNat)
  | .enum v => .ok (typeEnum, le 4 v.toNat)
  | .vec2F32 x y => .ok (typeVec2F32, le 4 x.bits.toNat ++ le 4 y.bits.toNat)
  | .vec3F32 x y z =>
    .ok (typeVec3F32, le 4 x.bits.toNat ++ le 4 y.bits.toNat ++ le 4 z.bits.toNat)
  | .internedString id => .ok (typeInterned, le 4 id.toNat)
  | .bytes v =>
    if v.length > maxBytesValue.toNat then .error (.limitExceeded "bytes value too long")
    else .ok (typeBytes, le 4 (UInt32.ofNat v.length).toNat ++ v)

/-- the loop of `TypedPayload::encode` -/
def encodeFields : List Field → Bytes → Except Error Bytes
  | [], out => .ok out
  | f :: fs, out => do
    let (tag, body) ← encodeValue f.value
    encodeFields fs (out ++ le 4 f.nameId.toNat ++ [tag] ++ [0] ++ body)

def TypedPayload.encode (p : TypedPayload) : Except Error Bytes :=
  if p.fields.length > 65535 then .error (.limitExceeded "field_count")
  else encodeFields p.fields (le 2 (UInt16.ofNat p.fields.length).toNat)

/-- the arm of a type with one number of `n` bytes -/
def decodeFixed (n : Nat) (msg : String) (mk : Nat → Value) (buf : Bytes) :
    Res Error (Value × Nat) := do
  if buf.length < n then fail (.malformedRecord msg)
  let v ← slice buf 0 n >>= fromLe n
  .ok (mk v, n)

def decodeBool (buf : Bytes) : Res Error (Value × Nat) := do
  if buf.length = 0 then fail (.malformedRecord "bool value truncated")
  let b ← idx buf 0
  .ok (.bool (b != 0), 1)

def decodeVec2F32 (buf : Bytes) : Res Error (Value × Nat) := do
  if buf.length < 8 then fail (.malformedRecord "vec2_f32 value truncated")
  let x ← slice buf 0 4 >>= fromLe 4
  let y ← slice buf 4 8 >>= fromLe 4
  .ok (.vec2F32 ⟨UInt32.ofNat x⟩ ⟨UInt32.ofNat y⟩, 8)

def decodeVec3F32 (buf : Bytes) : Res Error (Value × Nat) := do
  if buf.length < 12 then fail (.malformedRecord "vec3_f32 value truncated")
  let x ← slice buf 0 4 >>= fromLe 4
  let y ← slice buf 4 8 >>= fromLe 4
  let z ← slice buf 8 12 >>= fromLe 4
  .ok (.vec3F32 ⟨UInt32.ofNat x⟩ ⟨UInt32.ofNat y⟩ ⟨UInt32.ofNat z⟩, 12)

def decodeBytes (buf : Bytes) : Res Error (Value × Nat) := do
  if buf.length < 4 then fail (.malformedRecord "bytes value truncated (length)")
  let len ← slice buf 0 4 >>= fromLe 4
  if len > maxBytesValue.toNat then fail (.limitExceeded "bytes value too long")
  let stop ← add64 4 len
  if buf.length < stop then fail (.malformedRecord "bytes value truncated (data)")
  let v ← slice buf 4 stop
  .ok (.bytes v, stop)

/-- the value and how many bytes it took -/
def decodeValue (tag : UInt8) (buf : Bytes) : Res Error (Value × Nat) :=
  if tag = typeBool then decodeBool buf
  else if tag = typeI32 then
    decodeFixed 4 "i32 value truncated" (fun v => .i32 (UInt32.ofNat v).toInt32) buf
  else if tag = typeI64 then
    decodeFixed 8 "i64 value truncated" (fun v => .i64 (UInt64.ofNat v).toInt64) buf
  else if tag = typeU32 then
    decodeFixed 4 "u32 value truncated" (fun v => .u32 (UInt32.ofNat v)) buf
  else if tag = typeU64 then
    decodeFixed 8 "u64 value truncated" (fun v => .u64 (UInt64.ofNat v)) buf
  else if tag = typeF32 then
    decodeFixed 4 "f32 value truncated" (fun v => .f32 ⟨UInt32.ofNat v⟩) buf
  else if tag = typeF64 then
    decodeFixed 8 "f64 value truncated" (fun v => .f64 ⟨UInt64.ofNat v⟩) buf
  else if tag = typeEnum then
    decodeFixed 4 "enum value truncated" (fun v => .enum (UInt32.ofNat v)) buf
  else if tag = typeVec2F32 then decodeVec2F32 buf
  else if tag = typeVec3F32 then decodeVec3F32 buf
  else if tag = typeInterned then
    decodeFixed 4 "interned_string value truncated" (fun v => .internedString (UInt32.ofNat v)) buf
  else if tag = typeBytes then decodeBytes buf
  else fail (.unknownTypeTag tag)

/-- the body of the loop of `TypedPayload::decode` -/
def decodeFieldAt (buf : Bytes) : Nat × List Field → Res Error (Nat × List Field)
  | (offset, fields) => do
    let stop ← add64 offset 6
    if stop > buf.length then fail (.malformedRecord "truncated field header")
    let nameId ← slice buf offset (← add64 offset 4) >>= fromLe 4
    let tag ← idx buf (← add64 offset 4)
    -- reserved at offset + 5
    let offset ← add64 offset 6
    let (value, consumed) ← decodeValue tag (← slice buf offset buf.length)
    let offset ← add64 offset consumed
    .ok (offset, fields ++ [⟨UInt32.ofNat nameId, value⟩])

def TypedPayload.decode (buf : Bytes) : Res Error TypedPayload := do
  if buf.length < 2 then fail (.malformedRecord "payload shorter than field_count")
  let fieldCount ← le16At buf 0
  let (offset, fields) ← forRange (decodeFieldAt buf) fieldCount.toNat (2, [])
  if offset ≠ buf.length then
    let left ← sub64 buf.length offset
    fail (.malformedRecord s!"payload has {left} trailing bytes")
  .ok ⟨fields⟩

/-! ## the bytes of a value -/

def Value.tag : Value → UInt8
  | .bool _ => typeBool
  | .i32 _ => typeI32
  | .i64 _ => typeI64
  | .u32 _ => typeU32
  | .u64 _ => typeU64
  | .f32 _ => typeF32
  | .f64 _ => typeF64
  | .enum _ => typeEnum
  | .vec2F32 .. => typeVec2F32
  | .vec3F32 .. => typeVec3F32
  | .internedString _ => typeInterned
  | .bytes _ => typeBytes

def Value.raw : Value → Bytes
  | .bool v => [if v then 1 else 0]
  | .i32 v => le 4 v.toUInt32.toNat
  | .i64 v => le 8 v.toUInt64.toNat
  | .u32 v => le 4 v.toNat
  | .u64 v => le 8 v.toNat
  | .f32 v => le 4 v.bits.toNat
  | .f64 v => le 8 v.bits.toNat
  | .enum v => le 4 v.toNat
  | .vec2F32 x y => le 4 x.bits.toNat ++ le 4 y.bits.toNat
  | .vec3F32 x y z => le 4 x.bits.toNat ++ le 4 y.bits.toNat ++ le 4 z.bits.toNat
  | .internedString id => le 4 id.toNat
  | .bytes v => le 4 v.length ++ v

def Value.bytesLen : Value → Nat
  | .bytes v => v.length
  | _ => 0

/-- a `BYTES` value within its limit; every other value -/
def Value.Fits (v : Value) : Prop := v.bytesLen ≤ 4096

instance (v : Value) : Decidable v.Fits := inferInstanceAs (Decidable (v.bytesLen ≤ 4096))

def Field.raw (f : Field) : Bytes := le 4 f.nameId.toNat ++ ([f.value.tag, 0] ++ f.value.raw)

def TypedPayload.raw (p : TypedPayload) : Bytes :=
  le 2 p.fields.length ++ p.fields.flatMap Field.raw

/-- what the encoder of a payload accepts -/
def TypedPayload.Fits (p : TypedPayload) : Prop :=
  p.fields.length ≤ 65535 ∧ ∀ f ∈ p.fields, f.value.Fits

instance (p : TypedPayload) : Decidable p.Fits :=
  inferInstanceAs (Decidable (p.fields.length ≤ 65535 ∧ ∀ f ∈ p.fields, f.value.Fits))

theorem encodeValue_eq (v : Value) : encodeValue v
    = if v.Fits then .ok (v.tag, v.raw) else .error (.limitExceeded "bytes value too long") := by
  cases v with
  | bytes b =>
    by_cases h : b.length ≤ 4096
    · have hlt : ¬ b.length > maxBytesValue.toNat := by simpa using h
      have hlen : (UInt32.ofNat b.length).toNat = b.length := by
        rw [UInt32.toNat_ofNat', Nat.mod_eq_of_lt (by omega)]
      have hf : (Value.bytes b).Fits := h
      rw [if_pos hf]
      show (if b.length > maxBytesValue.toNat then _ else _) = _
      rw [if_neg hlt, hlen]
      rfl
    · have hlt : b.length > maxBytesValue.toNat := by simpa using h
      have hf : ¬ (Value.bytes b).Fits := h
      rw [if_neg hf]
      exact if_pos hlt
  | _ => rfl

theorem encodeFields_eq (fs : List Field) (out : Bytes) : encodeFields fs out
    = if ∀ f ∈ fs, f.value.Fits then .ok (out ++ fs.flatMap Field.raw)
      else .error (.limitExceeded "bytes value too long") := by
  induction fs generalizing out with
  | nil => simp [encodeFields]
  | cons f fs ih =>
    rw [encodeFields, encodeValue_eq]
    by_cases h : f.value.Fits
    · rw [if_pos h]
      show encodeFields fs (out ++ le 4 f.nameId.toNat ++ [f.value.tag] ++ [0] ++ f.value.raw) = _
      rw [ih]
      simp [h, Field.raw]
    · rw [if_neg h]
      have h' : ¬ ∀ g ∈ f :: fs, g.value.Fits := fun hall => h (hall f (List.mem_cons_self ..))
      rw [if_neg h']
      rfl

/-- **the encoder writes the bytes of the payload exactly when the payload fits** -/
theorem TypedPayload.encode_ok {p : TypedPayload} {out : Bytes} :
    p.encode = .ok out ↔ p.Fits ∧ out = p.raw := by
  unfold TypedPayload.encode TypedPayload.Fits
  by_cases hn : p.fields.length ≤ 65535
  · have hlen : (UInt16.ofNat p.fields.length).toNat = p.fields.length := by
      rw [UInt16.toNat_ofNat', Nat.mod_eq_of_lt (by omega)]
    rw [if_neg (by omega), encodeFields_eq, hlen]
    by_cases h : ∀ f ∈ p.fields, f.value.Fits
    · rw [if_pos h]
      constructor
      · intro e; cases e; exact ⟨⟨hn, h⟩, rfl⟩
      · rintro ⟨_, rfl⟩; rfl
    · rw [if_neg h]
      constructor
      · intro e; cases e
      · rintro ⟨⟨_, h'⟩, _⟩; exact absurd h' h
  · rw [if_pos (by omega)]
    constructor
    · intro e; cases e
    · rintro ⟨⟨h', _⟩, _⟩; exact absurd h' hn

/-! ## the decoders over the rest of the buffer -/

def takeFixed (n : Nat) (msg : String) (mk : Bytes → Value) : Parser Error Value := fun s =>
  if s.length < n then .error (.malformedRecord msg) else .ok (mk s, s.drop n)

def bytesP : Parser Error Value := fun s =>
  if s.length < 4 then .error (.malformedRecord "bytes value truncated (length)")
  else if leAt s 0 4 > 4096 then .error (.limitExceeded "bytes value too long")
  else if s.length < 4 + leAt s 0 4 then .error (.malformedRecord "bytes value truncated (data)")
  else .ok (.bytes ((s.drop 4).take (leAt s 0 4)), s.drop (4 + leAt s 0 4))

def f32At (s : Bytes) (i : Nat) : F32 := ⟨UInt32.ofNat (leAt s i 4)⟩

def valueP (tag : UInt8) : Parser Error Value :=
  if tag = typeBool then
    takeFixed 1 "bool value truncated" fun s => .bool (UInt8.ofNat (leAt s 0 1) != 0)
  else if tag = typeI32 then
    takeFixed 4 "i32 value truncated" fun s => .i32 (UInt32.ofNat (leAt s 0 4)).toInt32
  else if tag = typeI64 then
    takeFixed 8 "i64 value truncated" fun s => .i64 (UInt64.ofNat (leAt s 0 8)).toInt64
  else if tag = typeU32 then
    takeFixed 4 "u32 value truncated" fun s => .u32 (UInt32.ofNat (leAt s 0 4))
  else if tag = typeU64 then
    takeFixed 8 "u64 value truncated" fun s => .u64 (UInt64.ofNat (leAt s 0 8))
  else if tag = typeF32 then takeFixed 4 "f32 value truncated" fun s => .f32 (f32At s 0)
  else if tag = typeF64 then
    takeFixed 8 "f64 value truncated" fun s => .f64 ⟨UInt64.ofNat (leAt s 0 8)⟩
  else if tag = typeEnum then
    takeFixed 4 "enum value truncated" fun s => .enum (UInt32.ofNat (leAt s 0 4))
  else if tag = typeVec2F32 then
    takeFixed 8 "vec2_f32 value truncated" fun s => .vec2F32 (f32At s 0) (f32At s 4)
  else if tag = typeVec3F32 then
    takeFixed 12 "vec3_f32 value truncated" fun s =>
      .vec3F32 (f32At s 0) (f32At s 4) (f32At s 8)
  else if tag = typeInterned then
    takeFixed 4 "interned_string value truncated" fun s =>
      .internedString (UInt32.ofNat (leAt s 0 4))
  else if tag = typeBytes then bytesP
  else fun _ => .error (.unknownTypeTag tag)

def fieldP : Parser Error Field := fun s =>
  if s.length < 6 then .error (.malformedRecord "truncated field header")
  else match valueP (s.getD 4 0) (s.drop 6) with
    | .error e => .error e
    | .ok (v, r) => .ok (⟨UInt32.ofNat (leAt s 0 4), v⟩, r)

def payloadOf (s : Bytes) : Except Error TypedPayload :=
  if s.length < 2 then .error (.malformedRecord "payload shorter than field_count")
  else (whole (times fieldP (leAt s 0 2))
    (fun k => .malformedRecord s!"payload has {k} trailing bytes") (s.drop 2)).map .mk

/-! ## the decoder with offsets reads the rest of the buffer -/

/-- the result of a parser, with the number of bytes it took in place of the rest -/
def counted {α : Type} (s : Bytes) : Except Error (α × Bytes) → Res Error (α × Nat)
  | .error e => fail e
  | .ok (a, r) => .ok (a, s.length - r.length)

theorem counted_takeFixed (n : Nat) (msg : String) (mk : Bytes → Value) (buf : Bytes) :
    counted buf (takeFixed n msg mk buf)
      = if buf.length < n then fail (.malformedRecord msg) else .ok (mk buf, n) := by
  unfold takeFixed
  by_cases h : buf.length < n
  · rw [if_pos h, if_pos h]; rfl
  · rw [if_neg h, if_neg h]
    show Except.ok (mk buf, buf.length - (buf.drop n).length) = _
    rw [List.length_drop, Nat.sub_sub_self (by omega)]

theorem decodeFixed_eq (n : Nat) (msg : String) (mk : Nat → Value) (buf : Bytes) :
    decodeFixed n msg mk buf = counted buf (takeFixed n msg (fun s => mk (leAt s 0 n)) buf) := by
  rw [counted_takeFixed]
  unfold decodeFixed
  by_cases h : buf.length < n
  · rw [if_pos h, if_pos h]; rfl
  · rw [if_neg h, if_neg h, slice_fromLe (by omega) (by omega)]
    rfl

theorem decodeBool_eq (buf : Bytes) : decodeBool buf
    = counted buf (takeFixed 1 "bool value truncated"
        (fun s => .bool (UInt8.ofNat (leAt s 0 1) != 0)) buf) := by
  rw [counted_takeFixed]
  unfold decodeBool
  cases buf with
  | nil => rfl
  | cons b bs =>
    have hb : UInt8.ofNat (leAt (b :: bs) 0 1) = b := by
      show UInt8.ofNat (b.toNat + 256 * 0) = b
      rw [Nat.mul_zero, Nat.add_zero, UInt8.ofNat_toNat]
    rw [hb]
    rfl

theorem decodeVec2F32_eq (buf : Bytes) : decodeVec2F32 buf
    = counted buf (takeFixed 8 "vec2_f32 value truncated"
        (fun s => .vec2F32 (f32At s 0) (f32At s 4)) buf) := by
  rw [counted_takeFixed]
  unfold decodeVec2F32
  by_cases h : buf.length < 8
  · rw [if_pos h, if_pos h]; rfl
  · rw [if_neg h, if_neg h, slice_fromLe (by omega) (by omega), slice_fromLe (by omega) (by omega)]
    rfl

theorem decodeVec3F32_eq (buf : Bytes) : decodeVec3F32 buf
    = counted buf (takeFixed 12 "vec3_f32 value truncated"
        (fun s => .vec3F32 (f32At s 0) (f32At s 4) (f32At s 8)) buf) := by
  rw [counted_takeFixed]
  unfold decodeVec3F32
  by_cases h : buf.length < 12
  · rw [if_pos h, if_pos h]; rfl
  · rw [if_neg h, if_neg h, slice_fromLe (by omega) (by omega), slice_fromLe (by omega) (by omega),
      slice_fromLe (by omega) (by omega)]
    rfl

theorem decodeBytes_eq (buf : Bytes) : decodeBytes buf = counted buf (bytesP buf) := by
  unfold decodeBytes bytesP
  by_cases h : buf.length < 4
  · rw [if_pos h, if_pos h]; rfl
  rw [if_neg h, if_neg h, slice_fromLe (by omega) (by omega)]
  by_cases hmax : leAt buf 0 4 > 4096
  · rw [if_pos hmax]
    simp [hmax, counted, fail, bind, Except.bind]
  have hadd : (add64 4 (leAt buf 0 4) : Res Error Nat) = .ok (4 + leAt buf 0 4) :=
    add64_eq (by omega)
  rw [if_neg hmax]
  by_cases hlen : buf.length < 4 + leAt buf 0 4
  · rw [if_pos hlen]
    simp [hmax, hadd, hlen, counted, fail, bind, Except.bind]
  · rw [if_neg hlen]
    have hs : (slice buf 4 (4 + leAt buf 0 4) : Res Error Bytes)
        = .ok ((buf.drop 4).take (leAt buf 0 4)) := by
      rw [slice_eq (by omega) (by omega), Nat.add_sub_cancel_left]
    have hc : buf.length - (buf.length - (4 + leAt buf 0 4)) = 4 + leAt buf 0 4 := by omega
    simp [hmax, hadd, hlen, hs, hc, counted, bind, Except.bind]

theorem counted_ite (c : Prop) [Decidable c] (p q : Parser Error Value) (buf : Bytes) :
    counted buf ((if c then p else q) buf)
      = if c then counted buf (p buf) else counted buf (q buf) := by
  split <;> rfl

theorem decodeValue_eq (tag : UInt8) (buf : Bytes) :
    decodeValue tag buf = counted buf (valueP tag buf) := by
  unfold decodeValue valueP
  simp only [counted_ite, decodeFixed_eq, decodeBool_eq, decodeVec2F32_eq, decodeVec3F32_eq,
    decodeBytes_eq]
  rfl

theorem takeFixed_ok {n : Nat} {msg : String} {mk : Bytes → Value} {s r : Bytes} {v : Value}
    (h : takeFixed n msg mk s = .ok (v, r)) : n ≤ s.length ∧ v = mk s ∧ r = s.drop n := by
  unfold takeFixed at h
  split at h
  · cases h
  · cases h
    exact ⟨by omega, rfl, rfl⟩

theorem bytesP_ok {s r : Bytes} {v : Value} (h : bytesP s = .ok (v, r)) :
    leAt s 0 4 ≤ 4096 ∧ 4 + leAt s 0 4 ≤ s.length ∧ v = .bytes ((s.drop 4).take (leAt s 0 4)) ∧
      r = s.drop (4 + leAt s 0 4) := by
  unfold bytesP at h
  split at h
  · cases h
  split at h
  · cases h
  split at h
  · cases h
  · cases h
    exact ⟨by omega, by omega, rfl, rfl⟩

/-! ## the two laws of the codec -/

/-- the arm of a chain of type tags that was taken -/
theorem ite_ok {c P : Prop} [Decidable c] {p q : Parser Error Value} {s : Bytes}
    {x : Value × Bytes} (h : (if c then p else q) s = .ok x) (hp : c → p s = .ok x → P)
    (hq : q s = .ok x → P) : P := by
  by_cases hc : c
  · rw [if_pos hc] at h; exact hp hc h
  · rw [if_neg hc] at h; exact hq h

/-- **a value that was read has its tag, fits, and took the bytes of its encoding** -/
theorem valueP_ok {tag : UInt8} {s r : Bytes} {v : Value} (h : valueP tag s = .ok (v, r)) :
    v.tag = tag ∧ v.Fits ∧ r <:+ s ∧ s.length = v.raw.length + r.length := by
  have fixed : ∀ {n : Nat} {msg : String} {mk : Bytes → Value},
      takeFixed n msg mk s = .ok (v, r) → (mk s).tag = tag → (mk s).bytesLen = 0 →
      (mk s).raw.length = n →
      v.tag = tag ∧ v.Fits ∧ r <:+ s ∧ s.length = v.raw.length + r.length := by
    intro n msg mk hp htag hlen hraw
    obtain ⟨hn, rfl, rfl⟩ := takeFixed_ok hp
    refine ⟨htag, ?_, List.drop_suffix _ _, ?_⟩
    · show (mk s).bytesLen ≤ 4096
      omega
    · rw [hraw, List.length_drop]; omega
  unfold valueP at h
  refine ite_ok h (fun e h => fixed h e.symm rfl rfl) fun h => ?_
  refine ite_ok h (fun e h => fixed h e.symm rfl (le_length ..)) fun h => ?_
  refine ite_ok h (fun e h => fixed h e.symm rfl (le_length ..)) fun h => ?_
  refine ite_ok h (fun e h => fixed h e.symm rfl (le_length ..)) fun h => ?_
  refine ite_ok h (fun e h => fixed h e.symm rfl (le_length ..)) fun h => ?_
  refine ite_ok h (fun e h => fixed h e.symm rfl (le_length ..)) fun h => ?_
  refine ite_ok h (fun e h => fixed h e.symm rfl (le_length ..)) fun h => ?_
  refine ite_ok h (fun e h => fixed h e.symm rfl (le_length ..)) fun h => ?_
  refine ite_ok h (fun e h => fixed h e.symm rfl (by simp [Value.raw])) fun h => ?_
  refine ite_ok h (fun e h => fixed h e.symm rfl (by simp [Value.raw])) fun h => ?_
  refine ite_ok h (fun e h => fixed h e.symm rfl (le_length ..)) fun h => ?_
  refine ite_ok h (fun e h => ?_) fun h => by cases h
  obtain ⟨hmax, hlen, rfl, rfl⟩ := bytesP_ok h
  have hl : ((s.drop 4).take (leAt s 0 4)).length = leAt s 0 4 := by
    rw [List.length_take, List.length_drop]; omega
  refine ⟨e.symm, ?_, List.drop_suffix _ _, ?_⟩
  · show ((s.drop 4).take (leAt s 0 4)).length ≤ 4096
    omega
  · show s.length = (le 4 _ ++ _).length + _
    rw [List.length_append, le_length, hl, List.length_drop]
    omega

theorem takeFixed_append {n : Nat} {msg : String} {mk : Bytes → Value} {raw t : Bytes} {v : Value}
    (hn : raw.length = n) (hmk : mk (raw ++ t) = v) :
    takeFixed n msg mk (raw ++ t) = .ok (v, t) := by
  unfold takeFixed
  rw [if_neg (by rw [List.length_append]; omega), hmk, List.drop_left' hn]

theorem f32At_mid (v : F32) (pre t : Bytes) (i : Nat) (hi : pre.length = i) :
    f32At (pre ++ (le 4 v.bits.toNat ++ t)) i = v := by
  unfold f32At
  rw [leAt_mid 4 _ t hi v.bits.toNat_lt, UInt32.ofNat_toNat]

/-- the arm of `valueP` for the tag of a value -/
def Value.parser : Value → Parser Error Value
  | .bool _ => takeFixed 1 "bool value truncated" fun s => .bool (UInt8.ofNat (leAt s 0 1) != 0)
  | .i32 _ =>
    takeFixed 4 "i32 value truncated" fun s => .i32 (UInt32.ofNat (leAt s 0 4)).toInt32
  | .i64 _ =>
    takeFixed 8 "i64 value truncated" fun s => .i64 (UInt64.ofNat (leAt s 0 8)).toInt64
  | .u32 _ => takeFixed 4 "u32 value truncated" fun s => .u32 (UInt32.ofNat (leAt s 0 4))
  | .u64 _ => takeFixed 8 "u64 value truncated" fun s => .u64 (UInt64.ofNat (leAt s 0 8))
  | .f32 _ => takeFixed 4 "f32 value truncated" fun s => .f32 (f32At s 0)
  | .f64 _ => takeFixed 8 "f64 value truncated" fun s => .f64 ⟨UInt64.ofNat (leAt s 0 8)⟩
  | .enum _ => takeFixed 4 "enum value truncated" fun s => .enum (UInt32.ofNat (leAt s 0 4))
  | .vec2F32 _ _ =>
    takeFixed 8 "vec2_f32 value truncated" fun s => .vec2F32 (f32At s 0) (f32At s 4)
  | .vec3F32 _ _ _ =>
    takeFixed 12 "vec3_f32 value truncated" fun s => .vec3F32 (f32At s 0) (f32At s 4) (f32At s 8)
  | .internedString _ =>
    takeFixed 4 "interned_string value truncated" fun s =>
      .internedString (UInt32.ofNat (leAt s 0 4))
  | .bytes _ => bytesP

theorem valueP_tag (v : Value) : valueP v.tag = v.parser := by
  cases v <;> rfl

/-- **a value that fits is read back, whatever follows it** -/
theorem valueP_raw (v : Value) (h : v.Fits) (t : Bytes) :
    valueP v.tag (v.raw ++ t) = .ok (v, t) := by
  rw [valueP_tag]
  cases v with
  | bool b =>
    rw [Value.parser, Value.raw]
    refine takeFixed_append rfl ?_
    cases b <;> rfl
  | i32 v =>
    rw [Value.parser, Value.raw]
    refine takeFixed_append (le_length ..) ?_
    show Value.i32 (UInt32.ofNat (leAt (le 4 v.toUInt32.toNat ++ t) 0 4)).toInt32 = _
    rw [uint32_le, Int32.toInt32_toUInt32]
  | i64 v =>
    rw [Value.parser, Value.raw]
    refine takeFixed_append (le_length ..) ?_
    show Value.i64 (UInt64.ofNat (leAt (le 8 v.toUInt64.toNat ++ t) 0 8)).toInt64 = _
    rw [uint64_le, Int64.toInt64_toUInt64]
  | u32 v =>
    rw [Value.parser, Value.raw]
    refine takeFixed_append (le_length ..) ?_
    exact congrArg Value.u32 (uint32_le v t)
  | u64 v =>
    rw [Value.parser, Value.raw]
    refine takeFixed_append (le_length ..) ?_
    exact congrArg Value.u64 (uint64_le v t)
  | f32 v =>
    rw [Value.parser, Value.raw]
    refine takeFixed_append (le_length ..) ?_
    exact congrArg Value.f32 (f32At_mid v [] t 0 rfl)
  | f64 v =>
    rw [Value.parser, Value.raw]
    refine takeFixed_append (le_length ..) ?_
    exact congrArg (fun b => Value.f64 ⟨b⟩) (uint64_le v.bits t)
  | enum v =>
    rw [Value.parser, Value.raw]
    refine takeFixed_append (le_length ..) ?_
    exact congrArg Value.enum (uint32_le v t)
  | vec2F32 x y =>
    rw [Value.parser, Value.raw]
    refine takeFixed_append (by simp only [List.length_append, le_length]) ?_
    rw [List.append_assoc, f32At_mid y _ t 4 (le_length ..)]
    exact congrArg (Value.vec2F32 · y) (f32At_mid x [] _ 0 rfl)
  | vec3F32 x y z =>
    rw [Value.parser, Value.raw]
    refine takeFixed_append (by simp only [List.length_append, le_length]) ?_
    rw [List.append_assoc, f32At_mid z _ t 8 (by simp), List.append_assoc,
      f32At_mid y _ _ 4 (le_length ..)]
    exact congrArg (Value.vec3F32 · y z) (f32At_mid x [] _ 0 rfl)
  | internedString v =>
    rw [Value.parser, Value.raw]
    refine takeFixed_append (le_length ..) ?_
    exact congrArg Value.internedString (uint32_le v t)
  | bytes b =>
    have hb : b.length ≤ 4096 := h
    have hl : leAt (le 4 b.length ++ (b ++ t)) 0 4 = b.length := leAt_head 4 _ _ (by omega)
    show bytesP (le 4 b.length ++ b ++ t) = _
    unfold bytesP
    rw [List.append_assoc, hl, if_neg (by simp), if_neg (by omega), if_neg (by simp),
      List.drop_left' (le_length ..), List.take_left' rfl, ← List.append_assoc,
      List.drop_left' (by simp)]

theorem fieldP_ok {s r : Bytes} {f : Field} (h : fieldP s = .ok (f, r)) :
    6 ≤ s.length ∧ f.nameId = UInt32.ofNat (leAt s 0 4) ∧
      valueP (s.getD 4 0) (s.drop 6) = .ok (f.value, r) := by
  unfold fieldP at h
  split at h
  · cases h
  cases hv : valueP (s.getD 4 0) (s.drop 6) with
  | error e => rw [hv] at h; cases h
  | ok x =>
    rw [hv] at h
    cases h
    exact ⟨by omega, rfl, rfl⟩

theorem fieldP_sized : Sized fieldP Field.raw (fun f => f.value.Fits) := by
  intro s f r h
  obtain ⟨h6, _, hv⟩ := fieldP_ok h
  obtain ⟨_, hfit, hsuf, hlen⟩ := valueP_ok hv
  refine ⟨hfit, hsuf.trans (List.drop_suffix _ _), ?_⟩
  rw [List.length_drop] at hlen
  simp only [Field.raw, List.length_append, le_length, List.length_cons, List.length_nil]
  omega

theorem fieldP_inverts : Inverts fieldP Field.raw (fun f => f.value.Fits) := by
  intro f hf t
  have hs : Field.raw f ++ t = le 4 f.nameId.toNat ++ (f.value.tag :: 0 :: (f.value.raw ++ t)) := by
    simp [Field.raw]
  have htag : (Field.raw f ++ t).getD 4 0 = f.value.tag := by
    rw [hs, List.getD_eq_getElem?_getD, List.getElem?_append_right (by simp)]
    simp
  have hdrop : (Field.raw f ++ t).drop 6 = f.value.raw ++ t := by
    rw [hs, List.drop_append]
    simp
  have hid : UInt32.ofNat (leAt (Field.raw f ++ t) 0 4) = f.nameId := by
    rw [hs]; exact uint32_le _ _
  unfold fieldP
  rw [if_neg (by rw [hs]; simp; omega), htag, hdrop, valueP_raw f.value hf t]
  simp only [hid]

/-! ## whole payloads -/

/-- the body of the field loop at an offset is `fieldP` on the rest -/
theorem decodeFieldAt_eq {buf : Bytes} (hbuf : buf.length < 2^63) (off : Nat) (acc : List Field)
    (hoff : off ≤ buf.length) :
    decodeFieldAt buf (off, acc) = resume buf (fun f => acc ++ [f]) (fieldP (buf.drop off)) := by
  have hstop : (add64 off 6 : Res Error Nat) = .ok (off + 6) := add64_eq (by omega)
  have h4 : (add64 off 4 : Res Error Nat) = .ok (off + 4) := add64_eq (by omega)
  unfold fieldP
  by_cases h : (buf.drop off).length < 6
  · rw [if_pos h]
    rw [List.length_drop] at h
    have hgt : off + 6 > buf.length := by omega
    simp only [decodeFieldAt, hstop, ok_bind, if_pos hgt, fail_bind, resume]
  rw [if_neg h]
  rw [List.length_drop] at h
  have hgt : ¬ off + 6 > buf.length := by omega
  have hid : (slice buf off (off + 4) >>= fromLe 4 : Res Error Nat)
      = .ok (leAt (buf.drop off) 0 4) := by
    rw [slice_fromLe rfl (by omega), leAt_drop]; rfl
  have htag : (idx buf (off + 4) : Res Error UInt8) = .ok ((buf.drop off).getD 4 0) := by
    rw [idx_eq (by omega), List.getD_eq_getElem?_getD, List.getElem?_drop,
      List.getElem?_eq_getElem (by omega)]
    rfl
  have hrest : (slice buf (off + 6) buf.length : Res Error Bytes)
      = .ok ((buf.drop off).drop 6) := by
    rw [slice_eq (by omega) (le_refl _), List.drop_drop, List.take_of_length_le]
    rw [List.length_drop]
  simp only [decodeFieldAt, hstop, ok_bind, if_neg hgt, h4, hid, htag, hrest, decodeValue_eq]
  cases hv : valueP ((buf.drop off).getD 4 0) ((buf.drop off).drop 6) with
  | error e => rfl
  | ok x =>
    obtain ⟨v, r⟩ := x
    have hlen := (valueP_ok hv).2.2.1.length_le
    rw [List.length_drop, List.length_drop] at hlen
    have hoff' : off + 6 + (((buf.drop off).drop 6).length - r.length) = buf.length - r.length := by
      rw [List.length_drop, List.length_drop]; omega
    simp only [counted, ok_bind]
    rw [add64_eq (by rw [hoff']; omega), hoff']
    rfl

/-- **the decoder with offsets is `payloadOf`; no index, slice or sum of it is out of range** -/
theorem TypedPayload.decode_eq {buf : Bytes} (hbuf : buf.length < 2^63) :
    TypedPayload.decode buf = lift (payloadOf buf) := by
  unfold TypedPayload.decode payloadOf
  by_cases h : buf.length < 2
  · rw [if_pos h, if_pos h]; rfl
  rw [if_neg h, if_neg h, le16At_eq (by omega)]
  simp only [ok_bind, toNat_leAt2]
  rw [forRange_eq_times fieldP_sized.suffix (decodeFieldAt_eq hbuf) _ 2 [] (not_lt.mp h)]
  unfold whole
  cases ht : times fieldP (leAt buf 0 2) (buf.drop 2) with
  | error e => rfl
  | ok x =>
    obtain ⟨fs, r⟩ := x
    have hle := (fieldP_sized.suffix.times _ _ _ _ ht).length_le
    rw [List.length_drop] at hle
    by_cases hr : r.length = 0
    · have he : ¬ buf.length - r.length ≠ buf.length := by omega
      simp only [resume, ok_bind, if_neg he, if_pos hr]
      rfl
    · have he : buf.length - r.length ≠ buf.length := by omega
      have hs : (sub64 buf.length (buf.length - r.length) : Res Error Nat) = .ok r.length := by
        rw [sub64_eq (Nat.sub_le _ _), Nat.sub_sub_self (by omega)]
      simp only [resume, ok_bind, if_pos he, hs, if_neg hr]
      rfl

/-- a payload that fits is read back from its bytes -/
theorem payloadOf_raw {p : TypedPayload} (h : p.Fits) : payloadOf p.raw = .ok p := by
  have hcount : leAt p.raw 0 2 = p.fields.length := leAt_head 2 _ _ (by have := h.1; omega)
  have hfields := fieldP_inverts.times p.fields h.2 []
  rw [List.append_nil] at hfields
  unfold payloadOf
  rw [if_neg (by rw [TypedPayload.raw, List.length_append, le_length]; omega), hcount,
    show p.raw.drop 2 = p.fields.flatMap Field.raw from List.drop_left' (le_length ..),
    whole_ok.mpr hfields]
  rfl

/-- a payload that was read fits, and its bytes are as many as were read -/
theorem payloadOf_ok {s : Bytes} {p : TypedPayload} (h : payloadOf s = .ok p) :
    p.Fits ∧ p.raw.length = s.length := by
  unfold payloadOf at h
  split at h
  · cases h
  rename_i h2
  cases hw : whole (times fieldP (leAt s 0 2))
    (fun k => .malformedRecord s!"payload has {k} trailing bytes") (s.drop 2) with
  | error e => rw [hw] at h; cases h
  | ok fs =>
    rw [hw] at h
    cases h
    obtain ⟨hfit, hn, _, hlen⟩ := fieldP_sized.times _ _ _ _ (whole_ok.mp hw)
    have hlt := leAt_lt s 0 2
    refine ⟨⟨by rw [hn]; omega, hfit⟩, ?_⟩
    rw [List.length_drop, List.length_nil] at hlen
    rw [TypedPayload.raw, List.length_append, le_length]
    show 2 + (fs.flatMap Field.raw).length = s.length
    omega

end Dtj
