import Dtj.Agent.Strict
import Dtj.Lib.Ieee
import Dtj.Sdk.Python
import Dtj.Sdk.Requests
import Dtj.Spec.Codecs

/-!
# The values that callers pass

`encodeValue` of the SDKs for TypeScript, Python and Go, then the parser of the agent, then the codec
of the core.  `setBigInt64` wraps, and the agent does not look at the limit of BYTES.

* `Go.widen_value`, `TypeScript.integer_value`   the conversions of numbers;
* `Passed.Same`        the value of the core that says the same as the caller's;
* `Kept`, `kept_iff`   it is decoded in the end, or the request is refused;
* `values_kept_iff`    **which values are kept**.
-/

namespace Dtj.Sdk
open Wire Checked Agent Ieee

/-! ## numbers -/

theorem toNat_parts {sign exp mant : Nat} (hsign : sign < 2) (hexp : exp < 2^11) (hmant : mant < 2^52) :
    (UInt64.ofNat (sign * 2^63 + exp * 2^52 + mant)).toNat
      = sign * 2^(double.exponent + double.mantissa) + exp * 2^double.mantissa + mant := by
  rw [UInt64.toNat_ofNat', Nat.mod_eq_of_lt (by omega)]
  rfl

/-- **`float64(v)` is the number `v`** -/
theorem Go.widen_value (bits : UInt32) : value double (Go.widen bits).toNat = value single bits.toNat := by
  have hb := bits.toNat_lt
  have hsign : bits.toNat / 2^31 < 2 := by omega
  have hexp : bits.toNat / 2^23 % 2^8 < 2^8 := by omega
  have hmant : bits.toNat % 2^23 < 2^23 := by omega
  have hparts : bits.toNat = bits.toNat / 2^31 * 2^(single.exponent + single.mantissa) +
      bits.toNat / 2^23 % 2^8 * 2^single.mantissa + bits.toNat % 2^23 := by
    show bits.toNat = bits.toNat / 2^31 * 2^31 + bits.toNat / 2^23 % 2^8 * 2^23 + bits.toNat % 2^23
    omega
  have hsingle := value_parts single hsign hexp hmant
  rw [← hparts] at hsingle
  rw [hsingle, Go.widen]
  generalize bits.toNat / 2^31 = sign at hsign
  generalize bits.toNat / 2^23 % 2^8 = exp at hexp
  generalize bits.toNat % 2^23 = mant at hmant
  by_cases h255 : exp = 255
  · rw [if_pos h255]
    have hm : (if mant = 0 then 0 else (mant % 2^22 + 2^22) * 2^29) < 2^52 := by
      split <;> omega
    rw [toNat_parts hsign (by norm_num) hm, value_parts double hsign (by decide) hm, worth, worth,
      if_pos (show 2047 = 2^double.exponent - 1 from rfl), if_pos (show exp = 2^single.exponent - 1 from h255)]
    by_cases h0 : mant = 0
    · rw [if_pos h0, if_pos h0, if_pos rfl]
    · rw [if_neg h0, if_neg h0, if_neg (by omega)]
  rw [if_neg h255]
  by_cases hzero : exp = 0
  · rw [if_pos hzero]
    by_cases h0 : mant = 0
    · rw [if_pos h0]
      have hbits := @toNat_parts sign 0 0 hsign (by norm_num) (by norm_num)
      rw [Nat.zero_mul, Nat.add_zero, Nat.add_zero] at hbits
      rw [hbits, Nat.zero_mul, Nat.add_zero, hzero, h0]
      have hvalue := @value_parts double sign 0 0 hsign (by decide) (by decide)
      rw [Nat.zero_mul, Nat.add_zero] at hvalue
      rw [hvalue]
      refine worth_eq 925 (by decide) (by decide) ?_ (by decide)
      rw [Format.significand, Format.significand, if_pos rfl, if_pos rfl, Nat.zero_mul]
    · -- the first bit of the mantissa moves to the place of the one that is left out
      rw [if_neg h0]
      have hlog : mant.log2 < 23 := (Nat.log2_lt h0).mpr hmant
      have hle : 2^52 ≤ mant * 2^(52 - mant.log2) := by
        calc 2^52 = 2^mant.log2 * 2^(52 - mant.log2) := by rw [← pow_add]; congr 1; omega
          _ ≤ mant * 2^(52 - mant.log2) := Nat.mul_le_mul_right _ (Nat.log2_self_le h0)
      have hlt : mant * 2^(52 - mant.log2) < 2 * 2^52 := by
        calc mant * 2^(52 - mant.log2) < 2^(mant.log2 + 1) * 2^(52 - mant.log2) :=
              Nat.mul_lt_mul_of_pos_right Nat.lt_log2_self (by positivity)
          _ = 2 * 2^52 := by rw [← pow_add, ← pow_succ']; congr 1; omega
      have hmod : (mant * 2^(52 - mant.log2)) % 2^52 + 2^52 = mant * 2^(52 - mant.log2) := by
        omega
      rw [toNat_parts hsign (by omega) (by omega), value_parts double hsign (by show _ < 2^11; omega)
        (by show _ < 2^52; omega)]
      refine worth_eq (52 - mant.log2) h255 (by show 874 + mant.log2 ≠ 2047; omega) ?_ ?_
      · rw [Format.significand, Format.significand, if_neg (by omega), if_pos hzero, Nat.add_zero]
        exact hmod
      · rw [hzero]
        show ((max (874 + mant.log2) 1 : Nat) : ℤ) - 1075 + (52 - mant.log2 : Nat) = (max 0 1 : Nat) - 150
        omega
  · rw [if_neg hzero, toNat_parts hsign (by omega) (by omega), value_parts double hsign
      (by show exp + 896 < 2^11; omega) (by show mant * 2^29 < 2^52; omega)]
    refine worth_eq 29 h255 (by show exp + 896 ≠ 2047; omega) ?_ ?_
    · rw [Format.significand, Format.significand, if_neg (by omega), if_neg hzero]
      show mant * 2^29 + 2^52 = (mant + 2^23) * 2^29
      ring
    · show ((max (exp + 896) 1 : Nat) : ℤ) - 1075 + 29 = (max exp 1 : Nat) - 150
      omega

/-- **`BigInt(value)` is the number `value`** -/
theorem TypeScript.integer_value {bits : UInt64} {v : Int} (hfin : TypeScript.isFinite bits = true)
    (h : TypeScript.integer bits = some v) : value double bits.toNat = .finite v := by
  have hlt := bits.toNat_lt
  have hexp : bits.toNat / 2^52 % 2^11 ≠ 2^double.exponent - 1 := of_decide_eq_true hfin
  have hsign : bits.toNat / 2^63 % 2 = bits.toNat / 2^63 := by omega
  rw [value]
  show worth double (bits.toNat / 2^63 % 2 = 1) (bits.toNat / 2^52 % 2^11) (bits.toNat % 2^52) = _
  rw [hsign, worth, if_neg hexp, Format.significand]
  show Num.finite (_ * ((bits.toNat % 2^52 + if bits.toNat / 2^52 % 2^11 = 0 then 0 else 2^52 : Nat) : ℚ) *
    2^((max (bits.toNat / 2^52 % 2^11) 1 : Nat) - (1075 : Nat) : ℤ)) = _
  unfold TypeScript.integer at h
  dsimp only at h
  generalize (bits.toNat % 2^52 + if bits.toNat / 2^52 % 2^11 = 0 then 0 else 2^52) = mant at h ⊢
  generalize bits.toNat / 2^52 % 2^11 = exp at h
  have hq : ((if decide (bits.toNat / 2^63 = 1) = true then -1 else 1 : ℚ)) =
      ((if bits.toNat / 2^63 = 1 then -1 else 1 : Int) : ℚ) := by
    simp
  rw [hq]
  generalize (if bits.toNat / 2^63 = 1 then -1 else 1 : Int) = sign at h
  congr 1
  by_cases hbig : 1075 ≤ exp
  · rw [if_pos hbig] at h
    rw [← Option.some.inj h, Nat.max_eq_left (by omega), ← Nat.cast_sub hbig, zpow_natCast]
    push_cast
    ring
  · rw [if_neg hbig] at h
    split at h
    · rename_i hmod
      have hexp' : max exp 1 < 1075 := by omega
      have hpow : ((2 : ℚ)^(1075 - max exp 1)) ≠ 0 := by positivity
      have hmant : (mant : ℚ) = (mant / 2^(1075 - max exp 1) : Nat) * 2^(1075 - max exp 1) := by
        exact_mod_cast (Nat.div_mul_cancel (Nat.dvd_of_mod_eq_zero hmod)).symm
      have hneg : ((max exp 1 : Nat) - (1075 : Nat) : ℤ) = -((1075 - max exp 1 : Nat) : ℤ) := by omega
      generalize mant / 2^(1075 - max exp 1) = q at h hmant
      rw [← Option.some.inj h, hneg, zpow_neg, zpow_natCast, hmant, mul_assoc, mul_assoc,
        mul_inv_cancel₀ hpow]
      push_cast
      ring
    · cases h

/-! ## what callers pass -/

/-- a boolean, an integer, a double or a single by its bits, or bytes -/
inductive Passed where
  | bool (b : Bool)
  | int (v : Int)
  | double (bits : UInt64)
  | single (bits : UInt32)
  | bytes (bs : Bytes)

/-- **the value of the core is the same boolean, the same number or the same bytes** -/
def Passed.Same : Passed → Value → Prop
  | .bool b, .bool v => v = b
  | .int n, .i64 v => v.toInt = n
  | .int n, .u64 v => v.toNat = n
  | .double bits, .i64 v => value Ieee.double bits.toNat = .finite v.toInt
  | .double bits, .f64 v => v.bits = bits
  | .single bits, .f64 v => value Ieee.double v.bits.toNat = value Ieee.single bits.toNat
  | .bytes bs, .bytes v => v = bs
  | _, _ => False

/-- a value in the language of its caller -/
inductive CallerValue where
  | typeScript (v : TypeScript.TsValue)
  | python (v : Python.PyValue)
  | go (v : Go.GoValue)

/-- `encodeValue` of the three SDKs, when it succeeds -/
def CallerValue.encoded : CallerValue → Option (UInt8 × Bytes)
  | typeScript v => (TypeScript.encodeValue v).toOption
  | python v => (Python.encodeValue v).toOption
  | go v => (Go.encodeValue v).toOption

def CallerValue.passed : CallerValue → Option Passed
  | typeScript (.boolean b) => some (.bool b)
  | typeScript (.bigint v) => some (.int v)
  | typeScript (.number bits) => some (.double bits)
  | typeScript (.uint8Array bs) => some (.bytes bs)
  | python (.bool b) => some (.bool b)
  | python (.int v) => some (.int v)
  | python (.float bits) => some (.double bits)
  | python (.bytes bs) => some (.bytes bs)
  | go (.bool b) => some (.bool b)
  | go (.int v) => some (.int v.toInt)
  | go (.uint v) => some (.int v.toNat)
  | go (.float32 bits) => some (.single bits)
  | go (.float64 bits) => some (.double bits)
  | go (.bytes bs) => some (.bytes bs)
  | _ => none

/-- **a `bigint` in the range of `i64`, and no more bytes than the core takes** -/
def CallerValue.Fits : CallerValue → Prop
  | typeScript (.bigint v) => -(2^63) ≤ v ∧ v < 2^63
  | typeScript (.uint8Array bs) => bs.length ≤ 4096
  | python (.bytes bs) => bs.length ≤ 4096
  | go (.bytes bs) => bs.length ≤ 4096
  | _ => True

/-- the agent refuses the request, or the core decodes what it encodes for it to what was passed -/
def Kept (p : Passed) (a : Appended) : Prop :=
  (∃ text, parseAppend a.request.tail = .error (.error text)) ∨
    ∃ ev out payload v, parseAppend a.request.tail = .ok ev ∧ ev.payload.encode = .ok out ∧
      TypedPayload.decode out = .ok payload ∧ payload.fields = [⟨a.fieldNameId, v⟩] ∧ p.Same v

/-! ## what the agent and the core make of them -/

/-- the agent reads the bytes of a value of the core as that value -/
theorem valueOf_raw {v : Value} (h : v.Fits) : valueOf v.tag v.raw = .ok v := by
  obtain ⟨v', hv'⟩ := valueOf_some (valueSize_raw h) (le_refl _)
  have hfits : v'.Fits := by
    refine taken_fits (valueOf_ok hv') fun htag => ?_
    cases v with
    | bytes b =>
      have hb : b.length ≤ 4096 := h
      have hat : leAt (le 4 b.length ++ b) 0 4 = b.length := leAt_head 4 _ _ (by omega)
      rw [Value.raw, hat]
      exact hb
    | _ => exact absurd htag (by simp only [Value.tag]; decide)
  obtain ⟨n, hn⟩ := core_value hv' hfits
  have hp := valueP_raw v h []
  rw [List.append_nil] at hp
  rw [decodeValue_eq, hp] at hn
  cases hn
  exact hv'

/-- **an event of a valid severity is kept when its value is that of the core, and only then** -/
theorem kept_iff {p : Passed} {a : Appended} {s : Severity} (hlen : a.request.tail.length < 2^63)
    (hs : Severity.fromU8 a.severity = .ok s) {v : Value} (hv : valueOf a.typeTag a.valueBody = .ok v) :
    Kept p a ↔ v.Fits ∧ p.Same v := by
  have hparse : parseAppend a.request.tail = .ok (a.event s v) :=
    (parseAppend_request hlen).mpr ⟨s, v, hs, hv, rfl⟩
  have hfit : (a.event s v).payload.Fits ↔ v.Fits := by
    constructor
    · exact fun h => h.2 _ (List.mem_singleton_self _)
    · refine fun h => ⟨by show 1 ≤ 65535; norm_num, fun f hf => ?_⟩
      rw [List.mem_singleton.mp hf]
      exact h
  constructor
  · rintro (⟨text, h⟩ | ⟨ev, out, payload, v', h, henc, hdec, hfields, hsame⟩)
    · rw [hparse] at h
      cases h
    · rw [hparse] at h
      cases h
      rw [payload_decode_encode henc] at hdec
      cases hdec
      cases hfields
      exact ⟨hfit.mp (TypedPayload.encode_ok.mp henc).1, hsame⟩
  · rintro ⟨hv', hsame⟩
    have henc := TypedPayload.encode_ok.mpr ⟨hfit.mpr hv', rfl⟩
    exact .inr ⟨_, _, _, v, hparse, henc, payload_decode_encode henc, rfl, hsame⟩

/-- an integer is wrapped into the 8 bytes of an `i64` -/
theorem i64_bytes (n : Int) : le 8 (n % 2^64).toNat = (Value.i64 (Int64.ofInt n)).raw := by
  have hnat : (Int64.ofInt n).toUInt64.toNat = (n % 2^64).toNat := by
    rw [← Int64.toNat_toBitVec]
    exact BitVec.toNat_ofInt ..
  rw [Value.raw, hnat]

theorem i64_iff {n : Int} : (Int64.ofInt n).toInt = n ↔ -(2^63) ≤ n ∧ n < 2^63 := by
  constructor
  · intro h
    rw [← h]
    exact ⟨Int64.le_toInt _, Int64.toInt_lt _⟩
  · rintro ⟨hlo, hhi⟩
    exact Int64.toInt_ofInt_of_le hlo hhi

/-- bytes are read as they are, also when there are too many for the core -/
theorem bytes_value {bs : Bytes} (h : bs.length < 2^32) :
    valueOf 0x0C (le 4 bs.length ++ bs) = .ok (.bytes bs) := by
  have hat : leAt (le 4 bs.length ++ bs) 0 4 = bs.length := leAt_head 4 _ _ h
  have hbytes : ∀ s, valueOf 0x0C s = bytesOf s := fun _ => rfl
  rw [hbytes, bytesOf, hat, if_neg (by rw [List.length_append, le_length]; omega),
    if_neg (by rw [List.length_append, le_length]; omega), List.drop_left' (le_length 4 _),
    List.take_length]

/-- what was passed is read as the value `v` -/
structure Read (x : CallerValue) (tag : UInt8) (body : Bytes) (p : Passed) (v : Value) : Prop where
  passed : x.passed = some p
  value : valueOf tag body = .ok v
  fits : v.Fits ∧ p.Same v ↔ x.Fits

theorem read_fixed {x : CallerValue} {tag : UInt8} {body : Bytes} {p : Passed} {v : Value}
    (hpassed : x.passed = some p) (htag : v.tag = tag) (hraw : body = v.raw) (hfit : v.Fits)
    (hsame : p.Same v ↔ x.Fits) : Read x tag body p v := by
  refine ⟨hpassed, ?_, ?_⟩
  · rw [← htag, hraw]
    exact valueOf_raw hfit
  · rw [and_iff_right hfit]
    exact hsame

theorem read_bytes {x : CallerValue} {bs : Bytes} (hpassed : x.passed = some (.bytes bs))
    (hlen : (le 4 bs.length ++ bs).length < 2^32) (hfit : bs.length ≤ 4096 ↔ x.Fits) :
    Read x 0x0C (le 4 bs.length ++ bs) (.bytes bs) (.bytes bs) := by
  rw [List.length_append, le_length] at hlen
  refine ⟨hpassed, bytes_value (by omega), ?_⟩
  rw [← hfit]
  exact and_iff_left rfl

theorem typeScript_read {x : TypeScript.TsValue} {tag : UInt8} {body : Bytes} (hlen : body.length < 2^32)
    (h : TypeScript.encodeValue x = .ok (tag, body)) : ∃ p v, Read (.typeScript x) tag body p v := by
  cases x with
  | boolean b =>
    cases h
    exact ⟨_, .bool b, read_fixed rfl rfl rfl (Nat.zero_le _) (iff_of_true rfl trivial)⟩
  | bigint n =>
    cases h
    exact ⟨_, .i64 (Int64.ofInt n), read_fixed rfl rfl (i64_bytes n) (Nat.zero_le _) i64_iff⟩
  | number bits =>
    have hdouble : Read (.typeScript (.number bits)) 0x07 (le 8 bits.toNat) (.double bits) (.f64 ⟨bits⟩) :=
      read_fixed rfl rfl rfl (Nat.zero_le _) (iff_of_true rfl trivial)
    rw [TypeScript.encodeValue] at h
    split at h
    · cases h
    rename_i hfin
    split at h
    · rename_i n hn
      split at h
      · rename_i hrange
        cases h
        refine ⟨_, .i64 (Int64.ofInt n), read_fixed rfl rfl (i64_bytes n) (Nat.zero_le _) ?_⟩
        have hint : (Int64.ofInt n).toInt = n := i64_iff.mpr ⟨hrange.1, by omega⟩
        refine iff_of_true ?_ trivial
        show value Ieee.double bits.toNat = .finite (Int64.ofInt n).toInt
        rw [hint]
        exact TypeScript.integer_value (by simpa using hfin) hn
      · cases h
        exact ⟨_, _, hdouble⟩
    · cases h
      exact ⟨_, _, hdouble⟩
  | string s => cases h
  | uint8Array bs =>
    cases h
    exact ⟨_, _, read_bytes rfl hlen Iff.rfl⟩
  | other typeof => cases h

theorem python_read {x : Python.PyValue} {tag : UInt8} {body : Bytes} (hlen : body.length < 2^32)
    (h : Python.encodeValue x = .ok (tag, body)) : ∃ p v, Read (.python x) tag body p v := by
  cases x with
  | bool b =>
    cases h
    exact ⟨_, .bool b, read_fixed rfl rfl rfl (Nat.zero_le _) (iff_of_true rfl trivial)⟩
  | int n =>
    rw [Python.encodeValue] at h
    split at h
    · rename_i hrange
      cases h
      exact ⟨_, .i64 (Int64.ofInt n), read_fixed rfl rfl (i64_bytes n) (Nat.zero_le _)
        (iff_of_true (i64_iff.mpr hrange) trivial)⟩
    split at h
    · rename_i hrange
      have hnat : (UInt64.ofNat n.toNat).toNat = n.toNat := by
        rw [UInt64.toNat_ofNat', Nat.mod_eq_of_lt (by omega)]
      cases h
      refine ⟨_, .u64 (UInt64.ofNat n.toNat), read_fixed rfl rfl ?_ (Nat.zero_le _) (iff_of_true ?_ trivial)⟩
      · rw [Value.raw, hnat]
      · show ((UInt64.ofNat n.toNat).toNat : Int) = n
        rw [hnat]
        omega
    · cases h
  | float bits =>
    cases h
    exact ⟨_, .f64 ⟨bits⟩, read_fixed rfl rfl rfl (Nat.zero_le _) (iff_of_true rfl trivial)⟩
  | str s => cases h
  | bytes bs =>
    rw [Python.encodeValue] at h
    split at h
    · cases h
    cases h
    exact ⟨_, _, read_bytes rfl hlen Iff.rfl⟩
  | other type => cases h

theorem go_read {x : Go.GoValue} {tag : UInt8} {body : Bytes} (hlen : body.length < 2^32)
    (h : Go.encodeValue x = .ok (tag, body)) : ∃ p v, Read (.go x) tag body p v := by
  cases x with
  | bool b =>
    cases h
    exact ⟨_, .bool b, read_fixed rfl rfl rfl (Nat.zero_le _) (iff_of_true rfl trivial)⟩
  | int n =>
    cases h
    exact ⟨_, .i64 n, read_fixed rfl rfl rfl (Nat.zero_le _) (iff_of_true rfl trivial)⟩
  | uint n =>
    cases h
    exact ⟨_, .u64 n, read_fixed rfl rfl rfl (Nat.zero_le _) (iff_of_true rfl trivial)⟩
  | float32 bits =>
    cases h
    exact ⟨_, .f64 ⟨Go.widen bits⟩, read_fixed rfl rfl rfl (Nat.zero_le _)
      (iff_of_true (Go.widen_value bits) trivial)⟩
  | float64 bits =>
    cases h
    exact ⟨_, .f64 ⟨bits⟩, read_fixed rfl rfl rfl (Nat.zero_le _) (iff_of_true rfl trivial)⟩
  | string s => cases h
  | bytes bs =>
    rw [Go.encodeValue] at h
    split at h
    · cases h
    cases h
    exact ⟨_, _, read_bytes rfl hlen Iff.rfl⟩
  | other type => cases h

theorem toOption_some {ε α : Type} {x : Except ε α} {a : α} (h : x.toOption = some a) : x = .ok a := by
  cases x with
  | error e => cases h
  | ok b =>
    cases h
    rfl

theorem encoded_read {x : CallerValue} {tag : UInt8} {body : Bytes} (hlen : body.length < 2^32)
    (h : x.encoded = some (tag, body)) : ∃ p v, Read x tag body p v := by
  cases x with
  | typeScript v => exact typeScript_read hlen (toOption_some h)
  | python v => exact python_read hlen (toOption_some h)
  | go v => exact go_read hlen (toOption_some h)

/-- **What a caller passes is kept, or its request is refused, exactly when a `bigint` is in the range
of `i64` and bytes are at most 4096**, or the severity is none -/
theorem values_kept_iff {x : CallerValue} {a : Appended} (henc : x.encoded = some (a.typeTag, a.valueBody))
    (hlen : a.request.length ≤ maxFrameSize) :
    (∃ p, x.passed = some p ∧ Kept p a) ↔ x.Fits ∨ 5 < a.severity := by
  have hmax : maxFrameSize = 1048576 := rfl
  have hsize := a.request_length
  have htail : a.request.tail.length < 2^63 := by
    rw [List.length_tail]
    omega
  obtain ⟨p, v, hread⟩ := encoded_read (by omega) henc
  by_cases hsev : 5 < a.severity
  · refine iff_of_true ⟨p, hread.passed, .inl ?_⟩ (.inr hsev)
    cases hap : appendOf a.request.tail with
    | error text =>
      refine ⟨text, ?_⟩
      rw [parseAppend_eq htail, hap]
      rfl
    | ok ev =>
      obtain ⟨s, v', hs, -⟩ := appendOf_request.mp hap
      rw [← fromU8_ok hs] at hsev
      cases s <;> exact absurd hsev (by decide)
  · obtain ⟨s, hs⟩ := fromU8_some hsev
    rw [or_iff_left hsev, ← hread.fits, ← kept_iff htail hs hread.value]
    constructor
    · rintro ⟨p', hp', hkept⟩
      rw [hread.passed] at hp'
      cases hp'
      exact hkept
    · exact fun h => ⟨p, hread.passed, h⟩

/-- the integer 7, in Python -/
theorem values_kept_seven : (∃ p, CallerValue.passed (.python (.int 7)) = some p ∧
    Kept p ⟨0, 1, 1, 1, 0, 2, 1, 0x03, le 8 7⟩) ↔ CallerValue.Fits (.python (.int 7)) ∨ (5 : UInt8) < 2 :=
  values_kept_iff (by decide +kernel) (by decide +kernel)

/-- a `bigint` behind the last `i64` is sent as the first one -/
theorem bigint_wraps : ∃ a : Appended, a.request.length ≤ maxFrameSize ∧
    CallerValue.encoded (.typeScript (.bigint (2^63))) = some (a.typeTag, a.valueBody) ∧
    ¬ ∃ p, CallerValue.passed (.typeScript (.bigint (2^63))) = some p ∧ Kept p a := by
  refine ⟨⟨0, 1, 1, 1, 0, 2, 1, 0x03, le 8 (2^63)⟩, by decide +kernel, by decide +kernel, ?_⟩
  rintro ⟨p, hp, hkept⟩
  cases hp
  have hv : valueOf 0x03 (le 8 (2^63)) = .ok (.i64 (Int64.ofInt (2^63))) := by decide +kernel
  have hsame := ((kept_iff (by decide +kernel) (show Severity.fromU8 2 = .ok .info from rfl) hv).mp hkept).2
  exact absurd (show (Int64.ofInt (2^63)).toInt = 2^63 from hsame) (by decide +kernel)

end Dtj.Sdk
