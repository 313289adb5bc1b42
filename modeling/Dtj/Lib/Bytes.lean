import Dtj.Lib.Checked

/-!
# Byte strings: little-endian numbers, windows, text

* `le n v`, `leNat bs`      the `n` little-endian bytes of a number, and back;
* `leAt s i n`              the number in the window `s[i..i + n]`;
* `fromLe`, `putAt`         `T::from_le_bytes(s.try_into().unwrap())` and `copy_from_slice`;
* `utf8`, `fromUtf8`        the UTF-8 bytes of a string and the strict decoder;
* `fromUtf8Lossy`           the decoder that puts U+FFFD for each malformed part.
-/

namespace Wire
open Checked

abbrev Bytes := List UInt8

/-! ## little-endian numbers -/

def le : Nat → Nat → Bytes
  | 0, _ => []
  | n + 1, v => UInt8.ofNat v :: le n (v / 256)

def leNat : Bytes → Nat
  | [] => 0
  | b :: bs => b.toNat + 256 * leNat bs

@[simp] theorem le_length (n v : Nat) : (le n v).length = n := by
  induction n generalizing v with
  | zero => rfl
  | succ n ih => rw [le, List.length_cons, ih]

theorem leNat_le (n v : Nat) (h : v < 256^n) : leNat (le n v) = v := by
  induction n generalizing v with
  | zero => simp only [le, leNat]; omega
  | succ n ih =>
    have hq : v / 256 < 256^n := by
      rw [Nat.div_lt_iff_lt_mul (by norm_num), ← pow_succ]; exact h
    rw [le, leNat, ih _ hq, UInt8.toNat_ofNat']
    omega

theorem leNat_lt (bs : Bytes) : leNat bs < 256^bs.length := by
  induction bs with
  | nil => simp [leNat]
  | cons b bs ih =>
    have hb := b.toNat_lt
    rw [leNat, List.length_cons, pow_succ]
    omega

theorem le_leNat (bs : Bytes) : le bs.length (leNat bs) = bs := by
  induction bs with
  | nil => rfl
  | cons b bs ih =>
    have hb := b.toNat_lt
    have h1 : UInt8.ofNat (b.toNat + 256 * leNat bs) = b := by
      apply UInt8.toNat_inj.mp
      rw [UInt8.toNat_ofNat']
      omega
    have h2 : (b.toNat + 256 * leNat bs) / 256 = leNat bs := by omega
    rw [List.length_cons, leNat, le, h1, h2, ih]

theorem le_inj {n a b : Nat} (ha : a < 256^n) (hb : b < 256^n) (h : le n a = le n b) : a = b := by
  rw [← leNat_le n a ha, h, leNat_le n b hb]

/-- a number in `n` bytes keeps its low `n` bytes -/
theorem le_mod (n v : Nat) : le n (v % 256^n) = le n v := by
  induction n generalizing v with
  | zero => rfl
  | succ n ih =>
    have hhead : UInt8.ofNat (v % 256^(n + 1)) = UInt8.ofNat v := by
      apply UInt8.toNat_inj.mp
      rw [UInt8.toNat_ofNat', UInt8.toNat_ofNat']
      exact Nat.mod_mod_of_dvd v (dvd_pow_self 256 (Nat.succ_ne_zero n))
    have htail : v % 256^(n + 1) / 256 = v / 256 % 256^n := by
      rw [pow_succ', Nat.mod_mul_right_div_self]
    rw [le, le, hhead, htail, ih]

/-! ## windows -/

def leAt (s : Bytes) (i n : Nat) : Nat := leNat ((s.drop i).take n)

/-- the bytes of a number that was read -/
theorem take_le {s : Bytes} {i n k : Nat} (h : leAt s i n = k) (hn : i + n ≤ s.length) :
    (s.drop i).take n = le n k := by
  have hlen : ((s.drop i).take n).length = n := by
    rw [List.length_take, List.length_drop]
    omega
  have hle := le_leNat ((s.drop i).take n)
  rw [hlen] at hle
  rw [← h, leAt, hle]

theorem take_one {s : Bytes} {i : Nat} (hi : i < s.length) : (s.drop i).take 1 = [s.getD i 0] := by
  rw [List.drop_eq_getElem_cons hi, List.getD_eq_getElem?_getD, List.getElem?_eq_getElem hi]
  rfl

/-- a window, and the rest behind it -/
theorem drop_window (s : Bytes) (i n : Nat) : s.drop i = (s.drop i).take n ++ s.drop (i + n) := by
  rw [← List.drop_drop, List.take_append_drop]

theorem leAt_lt (s : Bytes) (i n : Nat) : leAt s i n < 256^n := by
  have h := leNat_lt ((s.drop i).take n)
  exact lt_of_lt_of_le h (Nat.pow_le_pow_right (by norm_num) (List.length_take_le _ _))

@[simp] theorem toNat_leAt2 (s : Bytes) (i : Nat) : (UInt16.ofNat (leAt s i 2)).toNat = leAt s i 2 := by
  rw [UInt16.toNat_ofNat']
  exact Nat.mod_eq_of_lt (leAt_lt s i 2)

@[simp] theorem toNat_leAt4 (s : Bytes) (i : Nat) : (UInt32.ofNat (leAt s i 4)).toNat = leAt s i 4 := by
  rw [UInt32.toNat_ofNat']
  exact Nat.mod_eq_of_lt (leAt_lt s i 4)

@[simp] theorem toNat_leAt8 (s : Bytes) (i : Nat) : (UInt64.ofNat (leAt s i 8)).toNat = leAt s i 8 := by
  rw [UInt64.toNat_ofNat']
  exact Nat.mod_eq_of_lt (leAt_lt s i 8)

theorem leAt_drop (s : Bytes) (k i n : Nat) : leAt (s.drop k) i n = leAt s (k + i) n := by
  unfold leAt
  rw [List.drop_drop]

theorem leAt_take {s : Bytes} {i n k : Nat} (h : i + n ≤ k) : leAt (s.take k) i n = leAt s i n := by
  unfold leAt
  rw [List.drop_take, List.take_take, min_eq_left (by omega)]

theorem leAt_append_left {s : Bytes} {i n : Nat} (t : Bytes) (h : i + n ≤ s.length) :
    leAt (s ++ t) i n = leAt s i n := by
  unfold leAt
  rw [List.drop_append_of_le_length (by omega), List.take_append_of_le_length]
  rw [List.length_drop]
  omega

/-- a number that was written at the front of the window -/
theorem leAt_mid {pre : Bytes} {i : Nat} (n v : Nat) (t : Bytes) (hi : pre.length = i)
    (hv : v < 256^n) : leAt (pre ++ (le n v ++ t)) i n = v := by
  unfold leAt
  rw [← hi, List.drop_left, List.take_left' (le_length n v), leNat_le n v hv]

theorem leAt_head (n v : Nat) (t : Bytes) (hv : v < 256^n) : leAt (le n v ++ t) 0 n = v :=
  @leAt_mid [] 0 n v t rfl hv

theorem uint32_le (v : UInt32) (t : Bytes) : UInt32.ofNat (leAt (le 4 v.toNat ++ t) 0 4) = v := by
  rw [leAt_head 4 _ t v.toNat_lt, UInt32.ofNat_toNat]

theorem uint64_le (v : UInt64) (t : Bytes) : UInt64.ofNat (leAt (le 8 v.toNat ++ t) 0 8) = v := by
  rw [leAt_head 8 _ t v.toNat_lt, UInt64.ofNat_toNat]

/-- a window behind the first part of a string -/
theorem leAt_skip {xs s : Bytes} {i n : Nat} (h : xs.length ≤ i) :
    leAt (xs ++ s) i n = leAt s (i - xs.length) n := by
  unfold leAt
  rw [List.drop_append, List.drop_eq_nil_of_le h, List.nil_append]

section
variable {ε : Type}

/-- `T::from_le_bytes(bs.try_into().unwrap())` for a type of `n` bytes -/
def fromLe (n : Nat) (bs : Bytes) : Res ε Nat := if bs.length = n then .ok (leNat bs) else crash

theorem slice_fromLe {buf : Bytes} {a b n : Nat} (hn : a + n = b) (h : b ≤ buf.length) :
    (slice buf a b >>= fromLe n : Res ε Nat) = .ok (leAt buf a n) := by
  subst hn
  rw [slice_eq (by omega) h]
  show fromLe n ((buf.drop a).take (a + n - a)) = _
  rw [Nat.add_sub_cancel_left]
  exact if_pos (by rw [List.length_take, List.length_drop]; omega)

/-- `&buf[off + a..off + b]` -/
def window (buf : Bytes) (off a b : Nat) : Res ε Bytes := do
  slice buf (← add64 off a) (← add64 off b)

theorem window_eq {buf : Bytes} {off a b : Nat} (hbuf : buf.length < 2^63) (hab : a ≤ b)
    (h : off + b ≤ buf.length) :
    (window buf off a b : Res ε Bytes) = .ok (((buf.drop off).drop a).take (b - a)) := by
  unfold window
  rw [add64_eq (by omega), add64_eq (by omega), ok_bind, ok_bind, slice_eq (by omega) h,
    List.drop_drop, Nat.add_sub_add_left]

theorem window_fromLe {buf : Bytes} {off a b n : Nat} (hbuf : buf.length < 2^63) (hn : a + n = b)
    (h : off + b ≤ buf.length) :
    (window buf off a b >>= fromLe n : Res ε Nat) = .ok (leAt (buf.drop off) a n) := by
  rw [window_eq hbuf (by omega) h, ok_bind]
  unfold fromLe leAt
  rw [if_pos (by rw [List.length_take, List.length_drop, List.length_drop]; omega),
    show b - a = n by omega]

/-- `u16::from_le_bytes([buf[i], buf[i + 1]])` -/
def le16At (buf : Bytes) (i : Nat) : Res ε UInt16 := do
  let a ← idx buf i
  let b ← idx buf (i + 1)
  .ok (UInt16.ofNat (leNat [a, b]))

/-- `u32::from_le_bytes([buf[i], buf[i + 1], buf[i + 2], buf[i + 3]])` -/
def le32At (buf : Bytes) (i : Nat) : Res ε UInt32 := do
  let a ← idx buf i
  let b ← idx buf (i + 1)
  let c ← idx buf (i + 2)
  let d ← idx buf (i + 3)
  .ok (UInt32.ofNat (leNat [a, b, c, d]))

theorem le16At_eq {buf : Bytes} {i : Nat} (h : i + 2 ≤ buf.length) :
    (le16At buf i : Res ε UInt16) = .ok (UInt16.ofNat (leAt buf i 2)) := by
  unfold le16At leAt
  rw [idx_eq (by omega), idx_eq (by omega), List.drop_eq_getElem_cons (by omega),
    List.drop_eq_getElem_cons (by omega)]
  rfl

theorem le32At_eq {buf : Bytes} {i : Nat} (h : i + 4 ≤ buf.length) :
    (le32At buf i : Res ε UInt32) = .ok (UInt32.ofNat (leAt buf i 4)) := by
  unfold le32At leAt
  rw [idx_eq (by omega), idx_eq (by omega), idx_eq (by omega), idx_eq (by omega),
    List.drop_eq_getElem_cons (by omega), List.drop_eq_getElem_cons (by omega),
    List.drop_eq_getElem_cons (by omega), List.drop_eq_getElem_cons (by omega)]
  rfl

/-- `buf[i..i + xs.len()].copy_from_slice(xs)` -/
def putAt (buf : Bytes) (i : Nat) (xs : Bytes) : Res ε Bytes :=
  if i + xs.length ≤ buf.length then .ok (buf.take i ++ xs ++ buf.drop (i + xs.length)) else crash

theorem putAt_eq {buf xs : Bytes} {i : Nat} (h : i + xs.length ≤ buf.length) :
    (putAt buf i xs : Res ε Bytes) = .ok (buf.take i ++ xs ++ buf.drop (i + xs.length)) :=
  if_pos h

theorem putAt_length {buf xs out : Bytes} {i : Nat} (h : (putAt buf i xs : Res ε Bytes) = .ok out) :
    out.length = buf.length := by
  unfold putAt at h
  split at h
  · cases h
    simp only [List.length_append, List.length_take, List.length_drop]
    omega
  · cases h

/-- the bytes before the place that `putAt` writes stay -/
theorem putAt_take {buf xs out : Bytes} {i k : Nat} (hk : k ≤ i)
    (h : (putAt buf i xs : Res ε Bytes) = .ok out) : out.take k = buf.take k := by
  unfold putAt at h
  split at h
  · rename_i hle
    cases h
    rw [List.append_assoc, List.take_append_of_le_length, List.take_take, min_eq_left hk]
    rw [List.length_take]
    omega
  · cases h

/-- a write to the zeros behind what is written already -/
theorem putAt_zeros {pre xs : Bytes} {i n : Nat} (hi : pre.length = i) :
    (putAt (pre ++ List.replicate (xs.length + n) 0) i xs : Res ε Bytes)
      = .ok (pre ++ xs ++ List.replicate n 0) := by
  subst hi
  have hd : (pre ++ List.replicate (xs.length + n) (0 : UInt8)).drop (pre.length + xs.length)
      = List.replicate n 0 := by
    rw [← List.drop_drop, List.drop_left' rfl, List.drop_replicate, Nat.add_sub_cancel_left]
  rw [putAt_eq (by simp), List.take_left' rfl, hd]

theorem putAt_fill {pre xs : Bytes} {i k : Nat} (n : Nat) (hi : pre.length = i)
    (hk : xs.length + n = k) : (putAt (pre ++ List.replicate k 0) i xs : Res ε Bytes)
      = .ok (pre ++ xs ++ List.replicate n 0) := by
  rw [← hk, putAt_zeros hi]

end

/-! ## text -/

def utf8 (s : String) : Bytes := s.toByteArray.data.toList

/-- strict decoding: `None` for malformed bytes -/
def fromUtf8 (bs : Bytes) : Option String := String.fromUTF8? ⟨bs.toArray⟩

@[simp] theorem fromUtf8_utf8 (s : String) : fromUtf8 (utf8 s) = some s := by
  unfold fromUtf8 utf8 String.fromUTF8?
  have h : (⟨s.toByteArray.data.toList.toArray⟩ : ByteArray) = s.toByteArray := rfl
  rw [dif_pos (h ▸ s.isValidUTF8)]
  rfl

theorem fromUtf8_eq_some {bs : Bytes} {s : String} : fromUtf8 bs = some s ↔ utf8 s = bs := by
  constructor
  · intro h
    unfold fromUtf8 String.fromUTF8? at h
    split at h
    · cases h; rfl
    · cases h
  · intro h; rw [← h, fromUtf8_utf8]

theorem utf8_inj {s t : String} (h : utf8 s = utf8 t) : s = t := by
  have h1 := fromUtf8_utf8 s
  rw [h, fromUtf8_utf8] at h1
  exact (Option.some.inj h1).symm

theorem utf8_length (s : String) : (utf8 s).length = s.utf8ByteSize := rfl

/-- what may follow a lead byte: how many bytes, and the range of the first of them -/
def utf8Tail (b : UInt8) : Option (Nat × UInt8 × UInt8) :=
  if b < 0x80 then some (0, 0x80, 0xBF)
  else if 0xC2 ≤ b ∧ b ≤ 0xDF then some (1, 0x80, 0xBF)
  else if b = 0xE0 then some (2, 0xA0, 0xBF)
  else if b = 0xED then some (2, 0x80, 0x9F)
  else if 0xE1 ≤ b ∧ b ≤ 0xEF then some (2, 0x80, 0xBF)
  else if b = 0xF0 then some (3, 0x90, 0xBF)
  else if 0xF1 ≤ b ∧ b ≤ 0xF3 then some (3, 0x80, 0xBF)
  else if b = 0xF4 then some (3, 0x80, 0x8F)
  else none

/-- how many of the at most `n` bytes that should follow are there -/
def utf8Run : Nat → UInt8 → UInt8 → Bytes → Nat
  | n + 1, lo, hi, b :: bs => if lo ≤ b ∧ b ≤ hi then 1 + utf8Run n 0x80 0xBF bs else 0
  | _, _, _, _ => 0

/-- the bytes of the next character or of the next malformed part -/
def utf8Part (b : UInt8) (bs : Bytes) : Nat :=
  match utf8Tail b with
  | some (n, lo, hi) => utf8Run n lo hi bs
  | none => 0

def utf8Lossy : Nat → Bytes → String
  | n + 1, b :: bs =>
    let k := utf8Part b bs
    (fromUtf8 (b :: bs.take k)).getD "\uFFFD" ++ utf8Lossy n (bs.drop k)
  | _, _ => ""

/-- `String::from_utf8_lossy`: each maximal part that begins like a character and is none
becomes one U+FFFD -/
def fromUtf8Lossy (bs : Bytes) : String := utf8Lossy bs.length bs

example : fromUtf8Lossy [0x61, 0xE2, 0x82, 0x62, 0xC0, 0x80] = "a\uFFFDb\uFFFD\uFFFD" := by
  decide +kernel

end Wire
