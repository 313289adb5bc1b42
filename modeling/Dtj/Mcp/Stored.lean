import Dtj.Core.Dict
import Dtj.Core.Payload
import Dtj.Lib.Ieee
import Dtj.Lib.Text
import Dtj.Mcp.Candidate

/-!
# Kept values in the journal

`_value_matches_type` looks at the Python type of a value and at its sign.  The core encoder writes
values of a fixed width and texts and bytes of a bounded length.

* `Reads`, `Stored`     a value of the journal is a Python value; the encoder writes it and the
                        decoder reads it back;
* `Fits`                the bounds that the type test leaves out;
* `stored_iff_fits`     **of a declared type, what can be stored is what fits**;
* `kept_stored_iff`     and so for the kept fields of a candidate.
-/

namespace Dtj.Mcp

open Checked Wire

/-! ## what the encoder can write -/

/-- what a number is worth -/
def Obj.num : Obj → Option Ieee.Num
  | .int n => some (.finite n)
  | .float bits => some (Ieee.value Ieee.double bits.toNat)
  | _ => Option.none

def F32.num (v : F32) : Ieee.Num := Ieee.value Ieee.single v.bits.toNat

/-- a decoded value is the same as a value of a payload -/
inductive Reads : Dtj.Value → Obj → Prop where
  | bool (b : Bool) : Reads (.bool b) (.bool b)
  | i32 (v : Int32) : Reads (.i32 v) (.int v.toInt)
  | i64 (v : Int64) : Reads (.i64 v) (.int v.toInt)
  | u32 (v : UInt32) : Reads (.u32 v) (.int v.toNat)
  | u64 (v : UInt64) : Reads (.u64 v) (.int v.toNat)
  | enum (v : UInt32) : Reads (.enum v) (.int v.toNat)
  | f32 (v : F32) (value : Obj) (h : value.num = some (F32.num v)) : Reads (.f32 v) value
  | f64 (v : F64) (value : Obj) (h : value.num = some (Ieee.value Ieee.double v.bits.toNat)) :
      Reads (.f64 v) value
  | list2 (x y : F32) (a b : Obj) (hx : a.num = some (F32.num x)) (hy : b.num = some (F32.num y)) :
      Reads (.vec2F32 x y) (.list [a, b])
  | tuple2 (x y : F32) (a b : Obj) (hx : a.num = some (F32.num x)) (hy : b.num = some (F32.num y)) :
      Reads (.vec2F32 x y) (.tuple [a, b])
  | list3 (x y z : F32) (a b c : Obj) (hx : a.num = some (F32.num x)) (hy : b.num = some (F32.num y))
      (hz : c.num = some (F32.num z)) : Reads (.vec3F32 x y z) (.list [a, b, c])
  | tuple3 (x y z : F32) (a b c : Obj) (hx : a.num = some (F32.num x)) (hy : b.num = some (F32.num y))
      (hz : c.num = some (F32.num z)) : Reads (.vec3F32 x y z) (.tuple [a, b, c])
  | id (v : UInt32) : Reads (.internedString v) (.int v.toNat)
  | bytes (bs : List UInt8) : Reads (.bytes bs) (.bytes bs)
  | bytearray (bs : List UInt8) : Reads (.bytes bs) (.bytearray bs)

/-- the tag of a type on the wire -/
def ValueType.tag : ValueType → UInt8
  | .Bool => typeBool
  | .I32 => typeI32
  | .I64 => typeI64
  | .U32 => typeU32
  | .U64 => typeU64
  | .F32 => typeF32
  | .F64 => typeF64
  | .Enum => typeEnum
  | .Vec2F32 => typeVec2F32
  | .Vec3F32 => typeVec3F32
  | .InternedString => typeInterned
  | .Bytes => typeBytes

/-- the encoder writes a value of the type, and the decoder reads the same one back; a text is
written once, as an entry of the dictionary -/
inductive Stored (t : ValueType) (value : Obj) : Prop where
  | value (v : Dtj.Value) (raw : Bytes) (htag : v.tag = t.tag) (hreads : Reads v value)
      (hencode : encodeValue v = .ok (t.tag, raw)) (hdecode : decodeValue t.tag raw = .ok (v, raw.length))
  | text (name : String) (raw : Bytes) (htype : t = .InternedString) (hname : value = .str (lit name))
      (hencode : Dictionary.encodeEntries [⟨.string, 1, name⟩] = .ok raw)
      (hdecode : Dictionary.decodeEntries raw = .ok [⟨.string, 1, name⟩])

/-! ## the bounds -/

/-- the bytes of a code point in UTF-8 -/
def utf8Size (c : UInt32) : Nat :=
  if c ≤ 0x7F then 1 else if c ≤ 0x7FF then 2 else if c ≤ 0xFFFF then 3 else 4

/-- a number of a floating-point format -/
def Obj.FitsFloat (value : Obj) (f : Ieee.Format) : Prop := ∃ n, value.num = some n ∧ f.Holds n

/-- the numbers of a list or a tuple are 32-bit floats -/
def Obj.FitsVector : Obj → Prop
  | .list xs => ∀ x ∈ xs, x.FitsFloat Ieee.single
  | .tuple xs => ∀ x ∈ xs, x.FitsFloat Ieee.single
  | _ => True

/-- what the type test leaves out -/
def Fits : ValueType → Obj → Prop
  | .I32, .int n => -2^31 ≤ n ∧ n < 2^31
  | .I64, .int n => -2^63 ≤ n ∧ n < 2^63
  | .U32, .int n => n < 2^32
  | .U64, .int n => n < 2^64
  | .Enum, .int n => n < 2^32
  | .F32, value => value.FitsFloat Ieee.single
  | .F64, value => value.FitsFloat Ieee.double
  | .Vec2F32, value => value.FitsVector
  | .Vec3F32, value => value.FitsVector
  | .InternedString, .int n => n < 2^32
  | .InternedString, .str s => (∀ c ∈ s, c.isValidChar) ∧ (s.map utf8Size).sum ≤ 1024
  | .Bytes, .bytes bs => bs.length ≤ 4096
  | .Bytes, .bytearray bs => bs.length ≤ 4096
  -- a text passes the test when it starts with "0x", but no byte string is that text
  | .Bytes, .str _ => False
  | _, _ => True

/-! ## the encoder -/

/-- the type of a value on the wire -/
def valueType : Dtj.Value → ValueType
  | .bool _ => .Bool
  | .i32 _ => .I32
  | .i64 _ => .I64
  | .u32 _ => .U32
  | .u64 _ => .U64
  | .f32 _ => .F32
  | .f64 _ => .F64
  | .enum _ => .Enum
  | .vec2F32 .. => .Vec2F32
  | .vec3F32 .. => .Vec3F32
  | .internedString _ => .InternedString
  | .bytes _ => .Bytes

theorem tag_valueType (v : Dtj.Value) : (valueType v).tag = v.tag := by
  cases v <;> rfl

theorem tag_inj {s t : ValueType} (h : s.tag = t.tag) : s = t := by
  revert h
  cases s <;> cases t <;> decide

theorem stored_of_reads {value : Obj} {v : Dtj.Value} (hreads : Reads v value) (hfits : v.Fits) :
    Stored (valueType v) value := by
  refine .value v v.raw (tag_valueType v).symm hreads ?_ ?_
  · rw [encodeValue_eq, if_pos hfits, tag_valueType]
  · rw [tag_valueType, decodeValue_eq, ← List.append_nil v.raw, valueP_raw v hfits []]
    rfl

/-- a stored value other than a text -/
theorem stored_reads {t : ValueType} {value : Obj} (hs : Stored t value)
    (hvalue : ∀ name : String, value ≠ .str (lit name)) :
    ∃ v : Dtj.Value, valueType v = t ∧ Reads v value ∧ v.Fits := by
  cases hs with
  | value v raw htag hreads hencode =>
    refine ⟨v, tag_inj ((tag_valueType v).trans htag), hreads, ?_⟩
    rw [encodeValue_eq] at hencode
    by_contra hfits
    rw [if_neg hfits] at hencode
    cases hencode
  | text name raw htype hname => exact absurd hname (hvalue name)

/-! ## texts -/

theorem utf8_length (name : String) : (utf8 name).length = ((lit name).map utf8Size).sum := by
  have hname : utf8 name = name.toList.flatMap String.utf8EncodeChar := by
    rw [← utf8_ofList, String.ofList_toList]
  rw [hname, List.length_flatMap, lit, List.map_map]
  congr 1
  apply List.map_congr_left
  intro c _
  exact String.length_utf8EncodeChar c

theorem exists_lit {s : Str} : (∃ name : String, lit name = s) ↔ ∀ c ∈ s, c.isValidChar := by
  constructor
  · rintro ⟨name, rfl⟩ c hc
    obtain ⟨d, -, rfl⟩ := List.mem_map.mp hc
    exact d.valid
  · intro h
    have hchars : ∃ cs : List Char, cs.map Char.val = s := by
      induction s with
      | nil => exact ⟨[], rfl⟩
      | cons c s ih =>
        obtain ⟨cs, rfl⟩ := ih fun d hd => h d (List.mem_cons_of_mem _ hd)
        exact ⟨⟨c, h c List.mem_cons_self⟩ :: cs, rfl⟩
    obtain ⟨cs, rfl⟩ := hchars
    exact ⟨String.ofList cs, by rw [lit, String.toList_ofList]⟩

/-- an entry for a short name is read back -/
theorem entry_read {e : DictEntry} (h : (utf8 e.name).length ≤ 1024) :
    ∃ raw, Dictionary.encodeEntries [e] = .ok raw ∧ Dictionary.decodeEntries raw = .ok [e] := by
  have hshort : ∀ d ∈ [e], (utf8 d.name).length ≤ 1024 := by simpa using h
  refine ⟨listRaw DictEntry.raw [e], Dictionary.encodeEntries_ok.mpr ⟨by simp, hshort, rfl⟩, ?_⟩
  have hlen : (listRaw DictEntry.raw [e]).length < 2^63 := by
    simp only [listRaw, List.flatMap_cons, List.flatMap_nil, List.length_append, le_length,
      DictEntry.raw_length, List.length_nil]
    omega
  rw [Dictionary.decodeEntries_eq hlen, entriesOf_raw (by simp) hshort]
  rfl

theorem stored_text_iff (s : Str) : Stored .InternedString (.str s) ↔ Fits .InternedString (.str s) := by
  constructor
  · intro hs
    cases hs with
    | value v raw htag hreads hencode =>
      cases hreads with
      | f32 v _ h => cases h
      | f64 v _ h => cases h
    | text name raw _ hname hencode =>
      cases hname
      have hshort := (Dictionary.encodeEntries_ok.mp hencode).2.1 _ List.mem_cons_self
      rw [utf8_length] at hshort
      exact ⟨exists_lit.mp ⟨name, rfl⟩, hshort⟩
  · rintro ⟨hvalid, hsize⟩
    obtain ⟨name, rfl⟩ := exists_lit.mpr hvalid
    rw [← utf8_length] at hsize
    obtain ⟨raw, hencode, hdecode⟩ := entry_read (e := ⟨.string, 1, name⟩) hsize
    exact .text name raw rfl rfl hencode hdecode

/-! ## numbers -/

/-- every number of the format is some 32-bit pattern -/
theorem single_num {value : Obj} :
    value.FitsFloat Ieee.single ↔ ∃ v : F32, value.num = some (F32.num v) := by
  constructor
  · rintro ⟨n, hn, hholds⟩
    obtain ⟨bits, hbits, hval⟩ := (Ieee.holds_iff Ieee.single (by decide) (by decide) n).mpr hholds
    refine ⟨⟨UInt32.ofNat bits⟩, ?_⟩
    rw [hn, F32.num, UInt32.toNat_ofNat', Nat.mod_eq_of_lt (show bits < 2^32 from hbits), hval]
  · rintro ⟨v, hv⟩
    exact ⟨F32.num v, hv, Ieee.value_holds Ieee.single (by decide) _⟩

theorem double_num {value : Obj} : value.FitsFloat Ieee.double
    ↔ ∃ v : F64, value.num = some (Ieee.value Ieee.double v.bits.toNat) := by
  constructor
  · rintro ⟨n, hn, hholds⟩
    obtain ⟨bits, hbits, hval⟩ := (Ieee.holds_iff Ieee.double (by decide) (by decide) n).mpr hholds
    refine ⟨⟨UInt64.ofNat bits⟩, ?_⟩
    rw [hn, UInt64.toNat_ofNat', Nat.mod_eq_of_lt (show bits < 2^64 from hbits), hval]
  · rintro ⟨v, hv⟩
    exact ⟨_, hv, Ieee.value_holds Ieee.double (by decide) _⟩

/-- a double is one of its own numbers -/
theorem float_fits (bits : UInt64) : Fits .F64 (.float bits) :=
  double_num.mpr ⟨⟨bits⟩, rfl⟩

/-! ## what can be stored -/

section
variable {n : Int}

theorem stored_int {t : ValueType} (hs : Stored t (.int n)) :
    ∃ v : Dtj.Value, valueType v = t ∧ Reads v (.int n) ∧ v.Fits :=
  stored_reads hs fun name h => by cases h

theorem stored_i32_iff : Stored .I32 (.int n) ↔ -2^31 ≤ n ∧ n < 2^31 := by
  constructor
  · intro hs
    obtain ⟨v, htype, hreads, -⟩ := stored_int hs
    cases hreads with
    | i32 v => exact ⟨v.le_toInt, v.toInt_lt⟩
    | _ => cases htype
  · rintro ⟨hlow, hhigh⟩
    have hv : (Int32.ofInt n).toInt = n := Int32.toInt_ofInt_of_le hlow hhigh
    rw [← hv]
    exact stored_of_reads (.i32 _) (Nat.zero_le _)

theorem stored_i64_iff : Stored .I64 (.int n) ↔ -2^63 ≤ n ∧ n < 2^63 := by
  constructor
  · intro hs
    obtain ⟨v, htype, hreads, -⟩ := stored_int hs
    cases hreads with
    | i64 v => exact ⟨v.le_toInt, v.toInt_lt⟩
    | _ => cases htype
  · rintro ⟨hlow, hhigh⟩
    have hv : (Int64.ofInt n).toInt = n := Int64.toInt_ofInt_of_le hlow hhigh
    rw [← hv]
    exact stored_of_reads (.i64 _) (Nat.zero_le _)

/-- a 32-bit word, whichever type it is written as -/
theorem word_toNat (h : 0 ≤ n) (hlt : n < 2^32) : ∃ v : UInt32, (v.toNat : Int) = n := by
  refine ⟨UInt32.ofNat n.toNat, ?_⟩
  rw [UInt32.toNat_ofNat', Nat.mod_eq_of_lt (by omega)]
  omega

theorem stored_u32_iff (h : 0 ≤ n) : Stored .U32 (.int n) ↔ n < 2^32 := by
  constructor
  · intro hs
    obtain ⟨v, htype, hreads, -⟩ := stored_int hs
    cases hreads with
    | u32 v => exact_mod_cast v.toNat_lt
    | _ => cases htype
  · intro hlt
    obtain ⟨v, rfl⟩ := word_toNat h hlt
    exact stored_of_reads (.u32 v) (Nat.zero_le _)

theorem stored_enum_iff (h : 0 ≤ n) : Stored .Enum (.int n) ↔ n < 2^32 := by
  constructor
  · intro hs
    obtain ⟨v, htype, hreads, -⟩ := stored_int hs
    cases hreads with
    | enum v => exact_mod_cast v.toNat_lt
    | _ => cases htype
  · intro hlt
    obtain ⟨v, rfl⟩ := word_toNat h hlt
    exact stored_of_reads (.enum v) (Nat.zero_le _)

theorem stored_id_iff (h : 0 ≤ n) : Stored .InternedString (.int n) ↔ n < 2^32 := by
  constructor
  · intro hs
    obtain ⟨v, htype, hreads, -⟩ := stored_int hs
    cases hreads with
    | id v => exact_mod_cast v.toNat_lt
    | _ => cases htype
  · intro hlt
    obtain ⟨v, rfl⟩ := word_toNat h hlt
    exact stored_of_reads (.id v) (Nat.zero_le _)

theorem stored_u64_iff (h : 0 ≤ n) : Stored .U64 (.int n) ↔ n < 2^64 := by
  constructor
  · intro hs
    obtain ⟨v, htype, hreads, -⟩ := stored_int hs
    cases hreads with
    | u64 v => exact_mod_cast v.toNat_lt
    | _ => cases htype
  · intro hlt
    have hv : ((UInt64.ofNat n.toNat).toNat : Int) = n := by
      rw [UInt64.toNat_ofNat', Nat.mod_eq_of_lt (by omega)]
      omega
    rw [← hv]
    exact stored_of_reads (.u64 _) (Nat.zero_le _)

end

theorem stored_f32_iff {value : Obj} (h : Number value) :
    Stored .F32 value ↔ value.FitsFloat Ieee.single := by
  rw [single_num]
  constructor
  · intro hs
    obtain ⟨v, htype, hreads, -⟩ := stored_reads hs fun name hname => by
      rw [hname] at h
      cases h
    cases hreads with
    | f32 v _ hv => exact ⟨v, hv⟩
    | _ => cases htype
  · rintro ⟨v, hv⟩
    exact stored_of_reads (.f32 v value hv) (Nat.zero_le _)

theorem stored_f64_iff {value : Obj} (h : Number value) :
    Stored .F64 value ↔ value.FitsFloat Ieee.double := by
  rw [double_num]
  constructor
  · intro hs
    obtain ⟨v, htype, hreads, -⟩ := stored_reads hs fun name hname => by
      rw [hname] at h
      cases h
    cases hreads with
    | f64 v _ hv => exact ⟨v, hv⟩
    | _ => cases htype
  · rintro ⟨v, hv⟩
    exact stored_of_reads (.f64 v value hv) (Nat.zero_le _)

/-- the numbers of a vector, in a list or in a tuple -/
theorem stored_vec2_iff {a b value : Obj} (hvalue : value = .list [a, b] ∨ value = .tuple [a, b]) :
    Stored .Vec2F32 value ↔ a.FitsFloat Ieee.single ∧ b.FitsFloat Ieee.single := by
  rw [single_num, single_num]
  constructor
  · intro hs
    obtain ⟨v, htype, hreads, -⟩ := stored_reads hs fun name hname => by
      rw [hname] at hvalue
      cases hvalue <;> rename_i h <;> cases h
    cases hreads with
    | list2 x y a' b' hx hy =>
      cases hvalue with
      | inl h =>
        cases h
        exact ⟨⟨x, hx⟩, y, hy⟩
      | inr h => cases h
    | tuple2 x y a' b' hx hy =>
      cases hvalue with
      | inl h => cases h
      | inr h =>
        cases h
        exact ⟨⟨x, hx⟩, y, hy⟩
    | _ => cases htype
  · rintro ⟨⟨x, hx⟩, y, hy⟩
    cases hvalue with
    | inl h =>
      rw [h]
      exact stored_of_reads (.list2 x y a b hx hy) (Nat.zero_le _)
    | inr h =>
      rw [h]
      exact stored_of_reads (.tuple2 x y a b hx hy) (Nat.zero_le _)

theorem stored_vec3_iff {a b c value : Obj}
    (hvalue : value = .list [a, b, c] ∨ value = .tuple [a, b, c]) :
    Stored .Vec3F32 value
      ↔ a.FitsFloat Ieee.single ∧ b.FitsFloat Ieee.single ∧ c.FitsFloat Ieee.single := by
  rw [single_num, single_num, single_num]
  constructor
  · intro hs
    obtain ⟨v, htype, hreads, -⟩ := stored_reads hs fun name hname => by
      rw [hname] at hvalue
      cases hvalue <;> rename_i h <;> cases h
    cases hreads with
    | list3 x y z a' b' c' hx hy hz =>
      cases hvalue with
      | inl h =>
        cases h
        exact ⟨⟨x, hx⟩, ⟨y, hy⟩, z, hz⟩
      | inr h => cases h
    | tuple3 x y z a' b' c' hx hy hz =>
      cases hvalue with
      | inl h => cases h
      | inr h =>
        cases h
        exact ⟨⟨x, hx⟩, ⟨y, hy⟩, z, hz⟩
    | _ => cases htype
  · rintro ⟨⟨x, hx⟩, ⟨y, hy⟩, z, hz⟩
    cases hvalue with
    | inl h =>
      rw [h]
      exact stored_of_reads (.list3 x y z a b c hx hy hz) (Nat.zero_le _)
    | inr h =>
      rw [h]
      exact stored_of_reads (.tuple3 x y z a b c hx hy hz) (Nat.zero_le _)

theorem stored_bytes_iff {bs : List UInt8} {value : Obj}
    (hvalue : value = .bytes bs ∨ value = .bytearray bs) :
    Stored .Bytes value ↔ bs.length ≤ 4096 := by
  constructor
  · intro hs
    obtain ⟨v, htype, hreads, hfits⟩ := stored_reads hs fun name hname => by
      rw [hname] at hvalue
      cases hvalue <;> rename_i h <;> cases h
    cases hreads with
    | bytes bs' =>
      cases hvalue with
      | inl h =>
        cases h
        exact hfits
      | inr h => cases h
    | bytearray bs' =>
      cases hvalue with
      | inl h => cases h
      | inr h =>
        cases h
        exact hfits
    | _ => cases htype
  · intro hlen
    cases hvalue with
    | inl h =>
      rw [h]
      exact stored_of_reads (.bytes bs) hlen
    | inr h =>
      rw [h]
      exact stored_of_reads (.bytearray bs) hlen

/-- no byte string is a text -/
theorem not_stored_hex (s : Str) : ¬ Stored .Bytes (.str s) := by
  intro hs
  cases hs with
  | value v raw htag hreads =>
    cases hreads with
    | f32 v _ h => cases h
    | f64 v _ h => cases h
  | text name raw htype => cases htype

/-- **Of a declared type, what can be stored is what fits.** -/
theorem stored_iff_fits {t : ValueType} {value : Obj} (h : HasType t value) :
    Stored t value ↔ Fits t value := by
  cases h with
  | bool b => exact iff_of_true (stored_of_reads (.bool b) (Nat.zero_le _)) trivial
  | i32 n => exact stored_i32_iff
  | i64 n => exact stored_i64_iff
  | u32 n h => exact stored_u32_iff h
  | u64 n h => exact stored_u64_iff h
  | enum n h => exact stored_enum_iff h
  | f32 value h => exact stored_f32_iff h
  | f64 value h => exact stored_f64_iff h
  | text s => exact stored_text_iff s
  | id n h => exact stored_id_iff (by omega)
  | bytes bs => exact stored_bytes_iff (.inl rfl)
  | bytearray bs => exact stored_bytes_iff (.inr rfl)
  | hex s => exact iff_of_false (not_stored_hex _) id
  | list2 xs hn h =>
    obtain ⟨a, b, rfl⟩ := List.length_eq_two.mp hn
    rw [stored_vec2_iff (.inl rfl)]
    simp [Fits, Obj.FitsVector]
  | tuple2 xs hn h =>
    obtain ⟨a, b, rfl⟩ := List.length_eq_two.mp hn
    rw [stored_vec2_iff (.inr rfl)]
    simp [Fits, Obj.FitsVector]
  | list3 xs hn h =>
    obtain ⟨a, b, c, rfl⟩ := List.length_eq_three.mp hn
    rw [stored_vec3_iff (.inl rfl)]
    simp [Fits, Obj.FitsVector]
  | tuple3 xs hn h =>
    obtain ⟨a, b, c, rfl⟩ := List.length_eq_three.mp hn
    rw [stored_vec3_iff (.inr rfl)]
    simp [Fits, Obj.FitsVector]

/-! ## the kept fields of a candidate -/

/-- **The kept values of an accepted candidate can all be stored exactly when the values that are
declared and not dropped fit.** -/
theorem kept_stored_iff (python : Python) (r : LoadedRegistry) (c : Candidate) (s : EventSchema)
    (hs : r.resolve c.key = some s) (hacc : (validate_candidate python r c).accepted = true) :
    ∃ found, split_payload python s.compatibility_policy s.field_map c.payload_map ⟨[], [], []⟩
        = .ok found
      ∧ ((∀ e ∈ found.kept, ∀ f, s.field_map.lookup e.1 = some f → Stored f.value_type e.2)
        ↔ ∀ e ∈ c.payload_map, ∀ f, s.field_map.lookup e.1 = some f →
          f.redaction_action ≠ .drop_field → Fits f.value_type e.2) := by
  unfold validate_candidate at hacc
  rw [hs] at hacc
  obtain ⟨-, -, -, found, hfound⟩ := accepted_run hacc
  obtain ⟨hpass, hafter⟩ := split_payload_ok.mp hfound
  have hkept : ∀ e, e ∈ found.kept ↔ e ∈ c.payload_map ∧ drops s.field_map e = false := by
    intro e
    rw [hafter]
    simp [Split.after]
  have hdrops : ∀ e f, s.field_map.lookup e.1 = some f →
      (drops s.field_map e = false ↔ f.redaction_action ≠ .drop_field) := by
    intro e f hf
    simp [drops, hf]
  refine ⟨found, hfound, ?_⟩
  constructor
  · intro hstored e he f hf hdrop
    have hin := (hkept e).mpr ⟨he, (hdrops e f hf).mpr hdrop⟩
    exact (stored_iff_fits ((hpass e he).2 f hf)).mp (hstored e hin f hf)
  · intro hfits e he f hf
    obtain ⟨hin, hdrop⟩ := (hkept e).mp he
    exact (stored_iff_fits ((hpass e hin).2 f hf)).mpr (hfits e hin f hf ((hdrops e f hf).mp hdrop))

theorem kept_stored_iff_example :
    ∃ s, exampleRegistry.resolve (exampleCandidate (.int 7) "x").key = some s
      ∧ ∃ found, split_payload registryPython s.compatibility_policy s.field_map
          (exampleCandidate (.int 7) "x").payload_map ⟨[], [], []⟩ = .ok found
        ∧ ((∀ e ∈ found.kept, ∀ f, s.field_map.lookup e.1 = some f → Stored f.value_type e.2)
          ↔ ∀ e ∈ (exampleCandidate (.int 7) "x").payload_map, ∀ f,
            s.field_map.lookup e.1 = some f → f.redaction_action ≠ .drop_field →
            Fits f.value_type e.2) := by
  cases hs : exampleRegistry.resolve (exampleCandidate (.int 7) "x").key with
  | none => exact absurd hs (by decide +kernel)
  | some s => exact ⟨s, rfl, kept_stored_iff registryPython exampleRegistry
      (exampleCandidate (.int 7) "x") s hs (by decide +kernel)⟩

/-- a number just past the range of its type passes the type test -/
theorem past_the_range :
    (validate_candidate registryPython exampleRegistry
      (exampleCandidate (.int (2^31)) "x")).accepted = true
    ∧ ∃ s found, exampleRegistry.resolve (exampleCandidate (.int (2^31)) "x").key = some s
      ∧ split_payload registryPython s.compatibility_policy s.field_map
          (exampleCandidate (.int (2^31)) "x").payload_map ⟨[], [], []⟩ = .ok found
      ∧ ∃ e ∈ found.kept, ∃ f, s.field_map.lookup e.1 = some f ∧ ¬ Stored f.value_type e.2 := by
  refine ⟨by decide +kernel, exampleSchemas.head (by decide +kernel),
    ⟨[], [lit "token"], [(lit "n", .int (2^31))]⟩, rfl, rfl, (lit "n", .int (2^31)),
    List.mem_singleton.mpr rfl, _, rfl, ?_⟩
  intro hstored
  have hrange : (2^31 : Int) < 2^31 := (stored_i32_iff.mp hstored).2
  exact absurd hrange (by norm_num)

end Dtj.Mcp
