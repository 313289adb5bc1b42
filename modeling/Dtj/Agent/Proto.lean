import Dtj.Journal.Open
import Dtj.Core.Writer

/-!
# The agent protocol: frames and requests

`crates/dtj/src/bin/dtj-agent.rs`: the frames, and what `handle_client` reads from the body of a
request before it does anything.  A check that fails gives the text of the Error frame.

* `Cmd`, `Resp`, `Reply`                     the opcodes, and a frame that is sent back;
* `parseIntern`, `parseOpen`, `parseAppend`  the source, with its indices and slices;
* `internOf`, `appendOf`                     the same without them: `parseIntern_eq`, `parseAppend_eq`;
* `parseOpen_total`                          no index or slice of `OpenSession` is out of range.
-/

namespace Dtj.Agent
open Wire Checked

def protocolVersion : UInt32 := 1

/-- 1 MiB -/
def maxFrameSize : Nat := 1048576

inductive Cmd where
  | hello
  | openSession
  | appendEvent
  | finishSession
  | ping
  | intern
  | flush

def Cmd.toU8 : Cmd → UInt8
  | .hello => 0x01
  | .openSession => 0x02
  | .appendEvent => 0x03
  | .finishSession => 0x04
  | .ping => 0x05
  | .intern => 0x06
  | .flush => 0x07

inductive Resp where
  | helloOk
  | openSessionOk
  | appendEventOk
  | finishSessionOk
  | pong
  | internOk
  | flushOk
  | error
deriving DecidableEq

def Resp.toU8 : Resp → UInt8
  | .helloOk => 0x81
  | .openSessionOk => 0x82
  | .appendEventOk => 0x83
  | .finishSessionOk => 0x84
  | .pong => 0x85
  | .internOk => 0x86
  | .flushOk => 0x87
  | .error => 0xFF

/-- what `write_frame` is given -/
structure Reply where
  resp : Resp
  body : Bytes
deriving DecidableEq

/-- the bytes that `write_frame` sends: the length includes the opcode -/
def Reply.bytes (r : Reply) : Bytes := le 4 (1 + r.body.length) ++ [r.resp.toU8] ++ r.body

/-! ## Intern -/

/-- `str::from_utf8`, or the text of the Error frame -/
def utf8Text (bad : String) (bs : Bytes) : Res String String :=
  match fromUtf8 bs with
  | some s => .ok s
  | none => fail bad

/-- kind and name -/
def parseIntern (body : Bytes) : Res String (UInt8 × String) := do
  if body.length < 3 then fail "Intern payload too short"
  let dictKind ← idx body 0
  let nameLen ← le16At body 1
  let stop ← add64 3 nameLen.toNat
  if body.length < stop then fail "Intern name truncated"
  let name ← slice body 3 stop >>= utf8Text "Intern name not valid UTF-8"
  if name = "" ∨ nameLen.toNat > 1024 then fail "Intern name empty or too long"
  .ok (dictKind, name)

/-- the kinds of the dictionary that a request can name -/
def kindOf (dictKind : UInt8) : Option DictKind :=
  if dictKind = 1 then some .domain
  else if dictKind = 2 then some .category
  else if dictKind = 3 then some .eventName
  else if dictKind = 4 then some .string
  else none

def textOf (bad : String) (bs : Bytes) : Except String String :=
  match fromUtf8 bs with
  | some s => .ok s
  | none => .error bad

def internOf (body : Bytes) : Except String (UInt8 × String) :=
  if body.length < 3 then .error "Intern payload too short"
  else if body.length < 3 + leAt body 1 2 then .error "Intern name truncated"
  else match textOf "Intern name not valid UTF-8" ((body.drop 3).take (leAt body 1 2)) with
    | .error e => .error e
    | .ok name =>
      if name = "" ∨ leAt body 1 2 > 1024 then .error "Intern name empty or too long"
      else .ok (body.getD 0 0, name)

theorem utf8Text_eq (bad : String) (bs : Bytes) : utf8Text bad bs = lift (textOf bad bs) := by
  unfold utf8Text textOf
  cases fromUtf8 bs <;> rfl

theorem idx_getD {ε : Type} {buf : Bytes} {i : Nat} (h : i < buf.length) :
    (idx buf i : Res ε UInt8) = .ok (buf.getD i 0) := by
  rw [idx_eq h, List.getD_eq_getElem?_getD, List.getElem?_eq_getElem h]
  rfl

theorem parseIntern_eq (body : Bytes) : parseIntern body = lift (internOf body) := by
  have hlt := leAt_lt body 1 2
  unfold parseIntern internOf
  by_cases h3 : body.length < 3
  · rw [if_pos h3, if_pos h3]
    rfl
  have hadd : (add64 3 (leAt body 1 2) : Res String Nat) = .ok (3 + leAt body 1 2) :=
    add64_eq (by omega)
  rw [if_neg h3, if_neg h3, idx_getD (by omega), le16At_eq (by omega)]
  simp only [ok_bind, toNat_leAt2, hadd]
  by_cases hlen : body.length < 3 + leAt body 1 2
  · rw [if_pos hlen, if_pos hlen]
    rfl
  have hs : (slice body 3 (3 + leAt body 1 2) : Res String Bytes)
      = .ok ((body.drop 3).take (leAt body 1 2)) := by
    rw [slice_eq (by omega) (by omega), Nat.add_sub_cancel_left]
  rw [if_neg hlen, if_neg hlen, hs, ok_bind, utf8Text_eq]
  cases textOf "Intern name not valid UTF-8" ((body.drop 3).take (leAt body 1 2)) with
  | error e => rfl
  | ok name =>
    simp only [lift_ok, ok_bind]
    by_cases hn : name = "" ∨ leAt body 1 2 > 1024
    · rw [if_pos hn, if_pos hn]
      rfl
    · rw [if_neg hn, if_neg hn]
      rfl

/-! ## OpenSession -/

structure OpenRequest where
  fileName : String
  sessionId : SessionId
  startUtcUnixMs : Int64
  monoOriginNs : UInt64
  producerName : String
  producerVersion : String

/-- a text behind its length, and where it ends: `what` is its field -/
def parseText (what : String) (body : Bytes) (off : Nat) : Res String (String × Nat) := do
  if body.length < off + 2 then fail s!"OpenSession: missing {what}_len"
  let len ← le16At body off
  let stop ← add64 (off + 2) len.toNat
  if body.length < stop then fail s!"OpenSession: {what} truncated"
  let text ← slice body (off + 2) stop >>= utf8Text s!"OpenSession: {what} not valid UTF-8"
  .ok (text, stop)

/-- NUL, empty, path separators, traversal, absolute -/
def invalidFileName (name : String) : Bool :=
  name.toList.contains (Char.ofNat 0) || name == "" || name.toList.contains '/'
    || name.toList.contains (Char.ofNat 0x5C) || decide (['.', '.'] <:+: name.toList)
    || name.toList.head? == some '/'

def parseOpen (body : Bytes) : Res String OpenRequest := do
  let (fileName, off) ← parseText "file_name" body 0
  if invalidFileName fileName then fail "OpenSession: invalid file name"
  if body.length < off + 16 then fail "OpenSession: session_id truncated"
  let sessionId ← slice body off (off + 16) >>= toSessionId
  let off := off + 16
  if body.length < off + 8 + 8 then fail "OpenSession: timestamps truncated"
  let startUtcUnixMs ← slice body off (off + 8) >>= fromLe 8
  let monoOriginNs ← slice body (off + 8) (off + 16) >>= fromLe 8
  let (producerName, off) ← parseText "producer_name" body (off + 16)
  let (producerVersion, _) ← parseText "producer_version" body off
  if (utf8 producerName).length > 32 then
    fail "OpenSession: producer_name longer than 32 bytes"
  if (utf8 producerVersion).length > 16 then
    fail "OpenSession: producer_version longer than 16 bytes"
  .ok ⟨fileName, sessionId, (UInt64.ofNat startUtcUnixMs).toInt64, UInt64.ofNat monoOriginNs,
    producerName, producerVersion⟩

theorem safe_idx {buf : Bytes} {i : Nat} (h : i < buf.length) :
    Safe (fun _ => True) (idx buf i : Res String UInt8) := by
  rw [idx_eq h]
  trivial

theorem safe_slice {buf : Bytes} {a b : Nat} (hab : a ≤ b) (h : b ≤ buf.length) :
    Safe (fun bs => bs.length = b - a) (slice buf a b : Res String Bytes) := by
  rw [slice_eq hab h]
  show ((buf.drop a).take (b - a)).length = b - a
  rw [List.length_take, List.length_drop]
  omega

theorem safe_fromLe {n : Nat} {bs : Bytes} (h : bs.length = n) :
    Safe (fun _ => True) (fromLe n bs : Res String Nat) := by
  unfold fromLe
  rw [if_pos h]
  trivial

theorem parseText_total (what : String) {body : Bytes} {off : Nat} (hbody : body.length < 2^63) :
    Safe (fun x => x.2 ≤ body.length) (parseText what body off) := by
  unfold parseText
  refine safe_ite (fun _ => trivial) fun h2 => ?_
  have hlt := leAt_lt body off 2
  have hadd : (add64 (off + 2) (leAt body off 2) : Res String Nat)
      = .ok (off + 2 + leAt body off 2) := add64_eq (by omega)
  rw [le16At_eq (by omega)]
  simp only [ok_bind, toNat_leAt2, hadd]
  refine safe_ite (fun _ => trivial) fun hlen => ?_
  rw [slice_eq (by omega) (by omega), ok_bind, utf8Text_eq]
  refine Safe.bind (safe_lift fun _ _ => trivial) fun text _ => ?_
  show off + 2 + leAt body off 2 ≤ body.length
  omega

/-- **no index or slice of `OpenSession` is out of range** -/
theorem parseOpen_total {body : Bytes} (hbody : body.length < 2^63) :
    Safe (fun _ => True) (parseOpen body) := by
  unfold parseOpen
  refine Safe.bind (parseText_total _ hbody) fun ⟨fileName, off⟩ hoff => ?_
  refine safe_ite (fun _ => trivial) fun _ => ?_
  refine safe_ite (fun _ => trivial) fun h16 => ?_
  refine @Safe.bind _ _ _ (fun _ => True) _ _ _ ?_ fun sessionId _ => ?_
  · refine Safe.bind (safe_slice (by omega) (by omega)) fun bs hbs => ?_
    unfold toSessionId
    rw [dif_pos (by omega)]
    trivial
  refine safe_ite (fun _ => trivial) fun h32 => ?_
  refine @Safe.bind _ _ _ (fun _ => True) _ _ _ ?_ fun start _ => ?_
  · exact Safe.bind (safe_slice (by omega) (by omega)) fun bs hbs => safe_fromLe (by omega)
  refine @Safe.bind _ _ _ (fun _ => True) _ _ _ ?_ fun mono _ => ?_
  · exact Safe.bind (safe_slice (by omega) (by omega)) fun bs hbs => safe_fromLe (by omega)
  refine Safe.bind (parseText_total _ hbody) fun ⟨producerName, off'⟩ _ => ?_
  refine Safe.bind (parseText_total _ hbody) fun ⟨producerVersion, off''⟩ _ => ?_
  refine safe_ite (fun _ => trivial) fun _ => ?_
  exact safe_ite (fun _ => trivial) fun _ => trivial

/-! ## AppendEvent -/

/-- the arm of a type with one number of `n` bytes -/
def fixedValue (n : Nat) (bad : String) (mk : Nat → Value) (body : Bytes) (off : Nat) :
    Res String Value := do
  if off + n > body.length then fail bad
  let v ← slice body off (off + n) >>= fromLe n
  .ok (mk v)

def boolValue (body : Bytes) (off : Nat) : Res String Value := do
  if off + 1 > body.length then fail "bool truncated"
  let v ← idx body off
  .ok (.bool (v != 0))

def vec2Value (body : Bytes) (off : Nat) : Res String Value := do
  if off + 8 > body.length then fail "vec2 truncated"
  let x ← slice body off (off + 4) >>= fromLe 4
  let y ← slice body (off + 4) (off + 8) >>= fromLe 4
  .ok (.vec2F32 ⟨UInt32.ofNat x⟩ ⟨UInt32.ofNat y⟩)

def vec3Value (body : Bytes) (off : Nat) : Res String Value := do
  if off + 12 > body.length then fail "vec3 truncated"
  let x ← slice body off (off + 4) >>= fromLe 4
  let y ← slice body (off + 4) (off + 8) >>= fromLe 4
  let z ← slice body (off + 8) (off + 12) >>= fromLe 4
  .ok (.vec3F32 ⟨UInt32.ofNat x⟩ ⟨UInt32.ofNat y⟩ ⟨UInt32.ofNat z⟩)

def bytesValue (body : Bytes) (off : Nat) : Res String Value := do
  if off + 4 > body.length then fail "bytes len truncated"
  let len ← slice body off (off + 4) >>= fromLe 4
  let stop ← add64 (off + 4) len
  if stop > body.length then fail "bytes data truncated"
  let v ← slice body (off + 4) stop
  .ok (.bytes v)

/-- the value body, by its type tag -/
def parseValue (tag : UInt8) (body : Bytes) (off : Nat) : Res String Value :=
  if tag = 0x01 then boolValue body off
  else if tag = 0x02 then
    fixedValue 4 "i32 truncated" (fun v => .i32 (UInt32.ofNat v).toInt32) body off
  else if tag = 0x03 then
    fixedValue 8 "i64 truncated" (fun v => .i64 (UInt64.ofNat v).toInt64) body off
  else if tag = 0x04 then fixedValue 4 "u32 truncated" (fun v => .u32 (UInt32.ofNat v)) body off
  else if tag = 0x05 then fixedValue 8 "u64 truncated" (fun v => .u64 (UInt64.ofNat v)) body off
  else if tag = 0x06 then fixedValue 4 "f32 truncated" (fun v => .f32 ⟨UInt32.ofNat v⟩) body off
  else if tag = 0x07 then fixedValue 8 "f64 truncated" (fun v => .f64 ⟨UInt64.ofNat v⟩) body off
  else if tag = 0x08 then fixedValue 4 "enum truncated" (fun v => .enum (UInt32.ofNat v)) body off
  else if tag = 0x09 then vec2Value body off
  else if tag = 0x0A then vec3Value body off
  else if tag = 0x0B then
    fixedValue 4 "interned truncated" (fun v => .internedString (UInt32.ofNat v)) body off
  else if tag = 0x0C then bytesValue body off
  else fail "unsupported type tag"

/-- one event with one field; bytes behind the value are not looked at -/
def parseAppend (body : Bytes) : Res String AppendEvent := do
  if body.length < 8 + 4 + 4 + 4 + 4 + 1 + 2 then fail "AppendEvent body too short"
  let monotonicNs ← slice body 0 8 >>= fromLe 8
  let domainId ← slice body 8 12 >>= fromLe 4
  let categoryId ← slice body 12 16 >>= fromLe 4
  let eventNameId ← slice body 16 20 >>= fromLe 4
  let correlationId ← slice body 20 24 >>= fromLe 4
  let severity ← match Severity.fromU8 (← idx body 24) with
    | .ok s => Except.ok s
    | .error _ => fail "bad severity"
  let fieldCount ← slice body 25 27 >>= fromLe 2
  if fieldCount ≠ 1 then fail "MVP supports exactly one field"
  if 27 + 4 + 1 + 3 > body.length then fail "field header truncated"
  let nameId ← slice body 27 31 >>= fromLe 4
  let typeTag ← idx body 31
  -- reserved at 32..35
  let value ← parseValue typeTag body 35
  .ok ⟨UInt64.ofNat monotonicNs, UInt32.ofNat domainId, UInt32.ofNat categoryId,
    UInt32.ofNat eventNameId, UInt32.ofNat correlationId, severity,
    ⟨[⟨UInt32.ofNat nameId, value⟩]⟩⟩

/-! ## AppendEvent, without indices -/

def fixedOf (n : Nat) (bad : String) (mk : Bytes → Value) (s : Bytes) : Except String Value :=
  if s.length < n then .error bad else .ok (mk s)

def bytesOf (s : Bytes) : Except String Value :=
  if s.length < 4 then .error "bytes len truncated"
  else if s.length < 4 + leAt s 0 4 then .error "bytes data truncated"
  else .ok (.bytes ((s.drop 4).take (leAt s 0 4)))

def valueOf (tag : UInt8) (s : Bytes) : Except String Value :=
  if tag = 0x01 then fixedOf 1 "bool truncated" (fun s => .bool (s.getD 0 0 != 0)) s
  else if tag = 0x02 then
    fixedOf 4 "i32 truncated" (fun s => .i32 (UInt32.ofNat (leAt s 0 4)).toInt32) s
  else if tag = 0x03 then
    fixedOf 8 "i64 truncated" (fun s => .i64 (UInt64.ofNat (leAt s 0 8)).toInt64) s
  else if tag = 0x04 then fixedOf 4 "u32 truncated" (fun s => .u32 (UInt32.ofNat (leAt s 0 4))) s
  else if tag = 0x05 then fixedOf 8 "u64 truncated" (fun s => .u64 (UInt64.ofNat (leAt s 0 8))) s
  else if tag = 0x06 then fixedOf 4 "f32 truncated" (fun s => .f32 (f32At s 0)) s
  else if tag = 0x07 then fixedOf 8 "f64 truncated" (fun s => .f64 ⟨UInt64.ofNat (leAt s 0 8)⟩) s
  else if tag = 0x08 then fixedOf 4 "enum truncated" (fun s => .enum (UInt32.ofNat (leAt s 0 4))) s
  else if tag = 0x09 then
    fixedOf 8 "vec2 truncated" (fun s => .vec2F32 (f32At s 0) (f32At s 4)) s
  else if tag = 0x0A then
    fixedOf 12 "vec3 truncated" (fun s => .vec3F32 (f32At s 0) (f32At s 4) (f32At s 8)) s
  else if tag = 0x0B then
    fixedOf 4 "interned truncated" (fun s => .internedString (UInt32.ofNat (leAt s 0 4))) s
  else if tag = 0x0C then bytesOf s
  else .error "unsupported type tag"

def appendOf (body : Bytes) : Except String AppendEvent :=
  if body.length < 27 then .error "AppendEvent body too short"
  else match Severity.fromU8 (body.getD 24 0) with
    | .error _ => .error "bad severity"
    | .ok severity =>
      if leAt body 25 2 ≠ 1 then .error "MVP supports exactly one field"
      else if body.length < 35 then .error "field header truncated"
      else match valueOf (body.getD 31 0) (body.drop 35) with
        | .error e => .error e
        | .ok value => .ok ⟨UInt64.ofNat (leAt body 0 8), UInt32.ofNat (leAt body 8 4),
            UInt32.ofNat (leAt body 12 4), UInt32.ofNat (leAt body 16 4),
            UInt32.ofNat (leAt body 20 4), severity, ⟨[⟨UInt32.ofNat (leAt body 27 4), value⟩]⟩⟩

section
variable {body : Bytes} {off : Nat}

theorem slice_le (n : Nat) (h : off + n ≤ body.length) :
    (slice body off (off + n) >>= fromLe n : Res String Nat) = .ok (leAt body off n) :=
  slice_fromLe rfl h

/-- a number in the rest of the body -/
theorem leAt_rest (body : Bytes) (off i n : Nat) : leAt body (off + i) n = leAt (body.drop off) i n :=
  (leAt_drop body off i n).symm

theorem short_iff (n : Nat) (hoff : off ≤ body.length) :
    off + n > body.length ↔ (body.drop off).length < n := by
  rw [List.length_drop]
  omega

theorem fixedValue_eq (hoff : off ≤ body.length) (n : Nat) (bad : String) (mk : Nat → Value) :
    fixedValue n bad mk body off
      = lift (fixedOf n bad (fun s => mk (leAt s 0 n)) (body.drop off)) := by
  unfold fixedValue fixedOf
  by_cases h : (body.drop off).length < n
  · rw [if_pos h, if_pos ((short_iff n hoff).mpr h)]
    rfl
  · have h' := mt (short_iff n hoff).mp h
    rw [if_neg h, if_neg h']
    simp only [slice_le n (show off + n ≤ body.length by omega), ok_bind, leAt_drop, Nat.add_zero,
      lift_ok]

theorem boolValue_eq (hoff : off ≤ body.length) : boolValue body off
    = lift (fixedOf 1 "bool truncated" (fun s => .bool (s.getD 0 0 != 0)) (body.drop off)) := by
  unfold boolValue fixedOf
  by_cases h : (body.drop off).length < 1
  · rw [if_pos h, if_pos ((short_iff 1 hoff).mpr h)]
    rfl
  · have h' := mt (short_iff 1 hoff).mp h
    rw [if_neg h, if_neg h']
    simp only [@idx_getD String body off (by omega), ok_bind, List.getD_eq_getElem?_getD,
      List.getElem?_drop, Nat.add_zero, lift_ok]

theorem vec2Value_eq (hoff : off ≤ body.length) : vec2Value body off
    = lift (fixedOf 8 "vec2 truncated" (fun s => .vec2F32 (f32At s 0) (f32At s 4))
        (body.drop off)) := by
  unfold vec2Value fixedOf
  by_cases h : (body.drop off).length < 8
  · rw [if_pos h, if_pos ((short_iff 8 hoff).mpr h)]
    rfl
  · have h' := mt (short_iff 8 hoff).mp h
    have hy : (slice body (off + 4) (off + 8) >>= fromLe 4 : Res String Nat)
        = .ok (leAt body (off + 4) 4) := slice_fromLe rfl (by omega)
    rw [if_neg h, if_neg h']
    simp only [slice_le 4 (show off + 4 ≤ body.length by omega), hy, ok_bind, f32At, leAt_drop,
      Nat.add_zero, lift_ok]

theorem vec3Value_eq (hoff : off ≤ body.length) : vec3Value body off
    = lift (fixedOf 12 "vec3 truncated" (fun s => .vec3F32 (f32At s 0) (f32At s 4) (f32At s 8))
        (body.drop off)) := by
  unfold vec3Value fixedOf
  by_cases h : (body.drop off).length < 12
  · rw [if_pos h, if_pos ((short_iff 12 hoff).mpr h)]
    rfl
  · have h' := mt (short_iff 12 hoff).mp h
    have hy : (slice body (off + 4) (off + 8) >>= fromLe 4 : Res String Nat)
        = .ok (leAt body (off + 4) 4) := slice_fromLe rfl (by omega)
    have hz : (slice body (off + 8) (off + 12) >>= fromLe 4 : Res String Nat)
        = .ok (leAt body (off + 8) 4) := slice_fromLe rfl (by omega)
    rw [if_neg h, if_neg h']
    simp only [slice_le 4 (show off + 4 ≤ body.length by omega), hy, hz, ok_bind, f32At, leAt_drop,
      Nat.add_zero, lift_ok]

theorem bytesValue_eq (hbody : body.length < 2^63) (hoff : off ≤ body.length) :
    bytesValue body off = lift (bytesOf (body.drop off)) := by
  unfold bytesValue bytesOf
  by_cases h : (body.drop off).length < 4
  · rw [if_pos h, if_pos ((short_iff 4 hoff).mpr h)]
    rfl
  have h' := mt (short_iff 4 hoff).mp h
  have hlt := leAt_lt body off 4
  have hadd : (add64 (off + 4) (leAt body off 4) : Res String Nat)
      = .ok (off + 4 + leAt body off 4) := add64_eq (by omega)
  rw [if_neg h, if_neg h']
  simp only [slice_le 4 (show off + 4 ≤ body.length by omega), ok_bind, hadd, leAt_drop,
    Nat.add_zero]
  by_cases hlen : (body.drop off).length < 4 + leAt body off 4
  · rw [if_pos hlen]
    rw [List.length_drop] at hlen
    rw [if_pos (by omega)]
    rfl
  · rw [if_neg hlen]
    rw [List.length_drop] at hlen
    rw [if_neg (by omega), slice_eq (by omega) (by omega), ok_bind, List.drop_drop,
      Nat.add_sub_cancel_left]
    rfl

theorem lift_ite {ε α : Type} (c : Prop) [Decidable c] (x y : Except ε α) :
    lift (if c then x else y) = if c then lift x else lift y := by
  split <;> rfl

theorem parseValue_eq (hbody : body.length < 2^63) (hoff : off ≤ body.length) (tag : UInt8) :
    parseValue tag body off = lift (valueOf tag (body.drop off)) := by
  unfold parseValue valueOf
  simp only [lift_ite, fixedValue_eq hoff, boolValue_eq hoff, vec2Value_eq hoff, vec3Value_eq hoff,
    bytesValue_eq hbody hoff]
  rfl

/-- **no index or slice of `AppendEvent` is out of range** -/
theorem parseAppend_eq (hbody : body.length < 2^63) : parseAppend body = lift (appendOf body) := by
  unfold parseAppend appendOf
  by_cases h27 : body.length < 27
  · rw [if_pos h27, if_pos h27]
    rfl
  have hn : ∀ a b n, a + n = b → b ≤ 27 →
      (slice body a b >>= fromLe n : Res String Nat) = .ok (leAt body a n) :=
    fun a b n hab hb => slice_fromLe hab (by omega)
  have hcount : (slice body 25 27 >>= fromLe 2 : Res String Nat) = .ok (leAt body 25 2) :=
    hn 25 27 2 rfl (by omega)
  rw [if_neg h27, if_neg h27]
  simp only [hn 0 8 8 rfl (by omega), hn 8 12 4 rfl (by omega), hn 12 16 4 rfl (by omega),
    hn 16 20 4 rfl (by omega), hn 20 24 4 rfl (by omega), ok_bind,
    @idx_getD String body 24 (by omega)]
  cases Severity.fromU8 (body.getD 24 0) with
  | error e => rfl
  | ok severity =>
    simp only [ok_bind, hcount]
    by_cases hone : leAt body 25 2 ≠ 1
    · rw [if_pos hone, if_pos hone]
      rfl
    rw [if_neg hone, if_neg hone]
    by_cases h35 : body.length < 35
    · rw [if_pos h35, if_pos (by omega)]
      rfl
    have hname : (slice body 27 31 >>= fromLe 4 : Res String Nat) = .ok (leAt body 27 4) :=
      slice_fromLe rfl (by omega)
    rw [if_neg h35, if_neg (by omega), hname, ok_bind, idx_getD (by omega), ok_bind,
      parseValue_eq hbody (by omega)]
    cases valueOf (body.getD 31 0) (body.drop 35) <;> rfl

end

end Dtj.Agent
