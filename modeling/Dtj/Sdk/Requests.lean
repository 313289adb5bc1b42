import Dtj.Agent.Grammar
import Dtj.Lib.Decimals
import Dtj.Sdk.Frames

/-!
# The requests of three SDKs, and what the agent reads

The encoders of `Intern`, `OpenSession` and `AppendEvent` in `packages/dtj-rust/src/protocol.rs`,
`packages/dtj-go/protocol.go` and `packages/dtj-typescript/src/protocol.ts`, against the parsers of
`crates/dtj/src/bin/dtj-agent.rs`.

* `TypeScript.units`, `TypeScript.lone`     the strings of JavaScript, and which ones are no text;
* `Request`, `Request.encoded`, `Request.ReadBack`   a call of an encoder, and what it is read as;
* `interned_iff`, `opened_iff`, `appended_iff`       when a body is refused or read back;
* `requests_agree_iff`   **the exact condition**: a length that does not fit into its two bytes is
  wrapped, and so is a number.
-/

namespace Dtj.Sdk
open Wire Checked Agent

/-! ## the strings of JavaScript -/

namespace TypeScript

/-- a code unit that stands alone -/
def char (u : UInt16) : Char := if isHigh u ∨ isLow u then '\uFFFD' else Char.ofNat u.toNat

def pair (u v : UInt16) : Char :=
  Char.ofNat (0x10000 + u.toNat % 2^10 * 2^10 + v.toNat % 2^10)

/-- the characters that are encoded -/
def chars : Str → List Char
  | [] => []
  | [u] => [char u]
  | u :: v :: rest =>
    if isHigh u ∧ isLow v then pair u v :: chars rest else char u :: chars (v :: rest)

/-- the code units of a character -/
def unitsOf (c : Char) : Str :=
  if c.toNat < 0x10000 then [UInt16.ofNat c.toNat]
  else [UInt16.ofNat (0xD800 + (c.toNat - 0x10000) / 2^10),
    UInt16.ofNat (0xDC00 + (c.toNat - 0x10000) % 2^10)]

/-- the string of a text -/
def units (text : String) : Str := text.toList.flatMap unitsOf

/-- there is a lone surrogate -/
def lone : Str → Bool
  | [] => false
  | [u] => isHigh u || isLow u
  | u :: v :: rest =>
    if isHigh u ∧ isLow v then lone rest else isHigh u || isLow u || lone (v :: rest)

theorem encode_eq (s : Str) : encode s = utf8 (String.ofList (chars s)) := by
  have hutf8 : ∀ cs : List Char, utf8 (String.ofList cs) = cs.flatMap String.utf8EncodeChar := by
    intro cs
    rw [utf8, String.toByteArray_ofList, List.utf8Encode, List.data_toByteArray]
  rw [hutf8]
  fun_induction chars s with
  | case1 => rfl
  | case2 u => simp [encode, char]
  | case3 u v rest h ih => rw [encode, if_pos h, ih]; rfl
  | case4 u v rest h ih => rw [encode, if_neg h, ih]; rfl

theorem isHigh_iff {u : UInt16} : isHigh u = true ↔ 0xD800 ≤ u.toNat ∧ u.toNat < 0xDC00 := by
  simp [isHigh, UInt16.le_iff_toNat_le, UInt16.lt_iff_toNat_lt]

theorem isLow_iff {u : UInt16} : isLow u = true ↔ 0xDC00 ≤ u.toNat ∧ u.toNat < 0xE000 := by
  simp [isLow, UInt16.le_iff_toNat_le, UInt16.lt_iff_toNat_lt]

theorem toNat_ofNat {n : Nat} (h : n.isValidChar) : (Char.ofNat n).toNat = n := by
  rw [Char.ofNat, dif_pos h]
  rfl

theorem unitsOf_char {u : UInt16} (h : isHigh u = false) (h' : isLow u = false) :
    unitsOf (char u) = [u] := by
  have hu := mt isHigh_iff.mpr (by rw [h]; decide)
  have hu' := mt isLow_iff.mpr (by rw [h']; decide)
  have hlt := u.toNat_lt
  have hc : (char u).toNat = u.toNat := by
    rw [char, if_neg (by rw [h, h']; decide)]
    exact toNat_ofNat (by unfold Nat.isValidChar; omega)
  rw [unitsOf, hc, if_pos hlt, UInt16.ofNat_toNat]

theorem unitsOf_pair {u v : UInt16} (hu : isHigh u = true) (hv : isLow v = true) :
    unitsOf (pair u v) = [u, v] := by
  obtain ⟨hu₁, hu₂⟩ := isHigh_iff.mp hu
  obtain ⟨hv₁, hv₂⟩ := isLow_iff.mp hv
  have hc : (pair u v).toNat = 0x10000 + u.toNat % 2^10 * 2^10 + v.toNat % 2^10 :=
    toNat_ofNat (by unfold Nat.isValidChar; omega)
  rw [unitsOf, hc, if_neg (by omega),
    show 0xD800 + (0x10000 + u.toNat % 2^10 * 2^10 + v.toNat % 2^10 - 0x10000) / 2^10 = u.toNat by
      omega,
    show 0xDC00 + (0x10000 + u.toNat % 2^10 * 2^10 + v.toNat % 2^10 - 0x10000) % 2^10 = v.toNat by
      omega, UInt16.ofNat_toNat, UInt16.ofNat_toNat]

/-- a character of one code unit -/
theorem alone {c : Char} (hc : c.toNat < 0x10000) : (UInt16.ofNat c.toNat).toNat = c.toNat ∧
    isHigh (UInt16.ofNat c.toNat) = false ∧ isLow (UInt16.ofNat c.toNat) = false := by
  have hvalid : c.toNat < 0xD800 ∨ 0xDFFF < c.toNat ∧ c.toNat < 0x110000 := c.valid
  have hn : (UInt16.ofNat c.toNat).toNat = c.toNat := by
    rw [UInt16.toNat_ofNat', Nat.mod_eq_of_lt hc]
  refine ⟨hn, Bool.eq_false_iff.mpr fun h => ?_, Bool.eq_false_iff.mpr fun h => ?_⟩
  · obtain ⟨h₁, h₂⟩ := isHigh_iff.mp h
    omega
  · obtain ⟨h₁, h₂⟩ := isLow_iff.mp h
    omega

/-- a character of two code units -/
theorem paired {c : Char} (hc : ¬ c.toNat < 0x10000) :
    (UInt16.ofNat (0xD800 + (c.toNat - 0x10000) / 2^10)).toNat
        = 0xD800 + (c.toNat - 0x10000) / 2^10 ∧
      isHigh (UInt16.ofNat (0xD800 + (c.toNat - 0x10000) / 2^10)) = true ∧
      (UInt16.ofNat (0xDC00 + (c.toNat - 0x10000) % 2^10)).toNat
        = 0xDC00 + (c.toNat - 0x10000) % 2^10 ∧
      isLow (UInt16.ofNat (0xDC00 + (c.toNat - 0x10000) % 2^10)) = true := by
  have hvalid : c.toNat < 0xD800 ∨ 0xDFFF < c.toNat ∧ c.toNat < 0x110000 := c.valid
  have hn : (UInt16.ofNat (0xD800 + (c.toNat - 0x10000) / 2^10)).toNat
      = 0xD800 + (c.toNat - 0x10000) / 2^10 := by
    rw [UInt16.toNat_ofNat', Nat.mod_eq_of_lt (by omega)]
  have hn' : (UInt16.ofNat (0xDC00 + (c.toNat - 0x10000) % 2^10)).toNat
      = 0xDC00 + (c.toNat - 0x10000) % 2^10 := by
    rw [UInt16.toNat_ofNat', Nat.mod_eq_of_lt (by omega)]
  exact ⟨hn, isHigh_iff.mpr (by omega), hn', isLow_iff.mpr (by omega)⟩

/-- the code units of a character do not pair with others -/
theorem lone_unitsOf (c : Char) (s : Str) : lone (unitsOf c ++ s) = lone s := by
  rw [unitsOf]
  split
  · rename_i hc
    obtain ⟨-, hhigh, hlow⟩ := alone hc
    cases s with
    | nil =>
      show (isHigh (UInt16.ofNat c.toNat) || isLow (UInt16.ofNat c.toNat)) = false
      rw [hhigh, hlow]
      rfl
    | cons v rest =>
      rw [List.singleton_append, lone, if_neg (by rw [hhigh]; simp), hhigh, hlow]
      rfl
  · rename_i hc
    obtain ⟨-, hhigh, -, hlow⟩ := paired hc
    show lone (_ :: _ :: s) = _
    rw [lone, if_pos ⟨hhigh, hlow⟩]

theorem lone_units (text : String) : lone (units text) = false := by
  unfold units
  induction text.toList with
  | nil => rfl
  | cons c cs ih => rw [List.flatMap_cons, lone_unitsOf, ih]

theorem units_chars {s : Str} (h : lone s = false) : units (String.ofList (chars s)) = s := by
  rw [units, String.toList_ofList]
  fun_induction chars s with
  | case1 => rfl
  | case2 u =>
    obtain ⟨hu, hu'⟩ := Bool.or_eq_false_iff.mp h
    rw [List.flatMap_singleton, unitsOf_char hu hu']
  | case3 u v rest hp ih =>
    rw [lone, if_pos hp] at h
    rw [List.flatMap_cons, unitsOf_pair hp.1 hp.2, ih h]
    rfl
  | case4 u v rest hp ih =>
    rw [lone, if_neg hp] at h
    obtain ⟨hu, hrest⟩ := Bool.or_eq_false_iff.mp h
    obtain ⟨hu, hu'⟩ := Bool.or_eq_false_iff.mp hu
    rw [List.flatMap_cons, unitsOf_char hu hu', ih hrest]
    rfl

theorem unitsOf_ascii {c : Char} (h : c.toNat < 0x10000) : unitsOf c = [UInt16.ofNat c.toNat] := if_pos h

/-- the digits of a number -/
theorem units_nat (n : Nat) : units (toString n) = Json.natText n := by
  have hone : ∀ c ∈ Nat.toDigits 10 n, unitsOf c = [UInt16.ofNat c.toNat] := by
    intro c hc
    have hdigit := Nat.isDigit_of_mem_toDigits (by decide) (by decide) hc
    rw [Char.isDigit, Bool.and_eq_true, decide_eq_true_eq, decide_eq_true_eq] at hdigit
    have hhigh : c.toNat ≤ 57 := hdigit.2
    exact unitsOf_ascii (by omega)
  show units (Nat.repr n) = _
  rw [units, Nat.toList_repr, List.flatMap_congr hone, Json.natText, List.map_eq_flatMap]

/-- the characters of a text -/
theorem chars_unitsOf (c : Char) (s : Str) : chars (unitsOf c ++ s) = c :: chars s := by
  have hvalid : c.toNat < 0xD800 ∨ 0xDFFF < c.toNat ∧ c.toNat < 0x110000 := c.valid
  rw [unitsOf]
  split
  · rename_i hc
    obtain ⟨hn, hhigh, hlow⟩ := alone hc
    have hchar : char (UInt16.ofNat c.toNat) = c := by
      rw [char, if_neg (by rw [hhigh, hlow]; decide), hn, Char.ofNat_toNat]
    cases s with
    | nil => exact congrArg (fun c => [c]) hchar
    | cons v rest => rw [List.singleton_append, chars, if_neg (by rw [hhigh]; simp), hchar]
  · rename_i hc
    obtain ⟨hn, hhigh, hn', hlow⟩ := paired hc
    show chars (_ :: _ :: s) = _
    rw [chars, if_pos ⟨hhigh, hlow⟩, pair, hn, hn',
      show 0x10000 + (0xD800 + (c.toNat - 0x10000) / 2^10) % 2^10 * 2^10 +
        (0xDC00 + (c.toNat - 0x10000) % 2^10) % 2^10 = c.toNat by omega, Char.ofNat_toNat]

theorem chars_units (text : String) : chars (units text) = text.toList := by
  unfold units
  induction text.toList with
  | nil => rfl
  | cons c cs ih => rw [List.flatMap_cons, chars_unitsOf, ih]

/-- the texts are the strings without a lone surrogate -/
theorem text_iff {s : Str} : (∃ text, units text = s) ↔ lone s = false := by
  constructor
  · rintro ⟨text, rfl⟩
    exact lone_units text
  · intro h
    exact ⟨_, units_chars h⟩

theorem chars_eq_nil {s : Str} (h : chars s = []) : s = [] := by
  fun_cases chars s with
  | case1 => rfl
  | case2 u => simp [chars] at h
  | case3 u v rest hp => simp [chars, hp] at h
  | case4 u v rest hp => simp [chars, hp] at h

theorem encode_units (text : String) : encode (units text) = utf8 text := by
  rw [encode_eq, chars_units, String.ofList_toList]

/-! ## the numbers of JavaScript -/

/-- a finite number without its fraction -/
def truncate (bits : UInt64) : Int :=
  let exp := bits.toNat / 2^52 % 2^11
  let mant := bits.toNat % 2^52 + (if exp = 0 then 0 else 2^52)
  let sign : Int := if bits.toNat / 2^63 = 1 then -1 else 1
  if 1075 ≤ exp then sign * (mant * 2^(exp - 1075) : Nat)
  else sign * (mant / 2^(1075 - max exp 1) : Nat)

/-- `ToUint32`, as in `setUint32` -/
def toUint32 (bits : UInt64) : UInt32 :=
  if isFinite bits then UInt32.ofNat (truncate bits % 2^32).toNat else 0

/-- the number is `v` -/
def IsNumber (bits : UInt64) (v : UInt32) : Prop :=
  isFinite bits = true ∧ integer bits = some (v.toNat : Int)

theorem truncate_integer {bits : UInt64} {v : Int} (h : integer bits = some v) :
    truncate bits = v := by
  unfold integer at h
  unfold truncate
  dsimp only at h ⊢
  generalize (bits.toNat % 2^52 + if bits.toNat / 2^52 % 2^11 = 0 then 0 else 2^52) = mant at h ⊢
  by_cases hexp : 1075 ≤ bits.toNat / 2^52 % 2^11
  · rw [if_pos hexp] at h ⊢
    exact Option.some.inj h
  rw [if_neg hexp] at h ⊢
  split at h
  · exact Option.some.inj h
  · cases h

/-- a number in the range of a u32 is written as it is -/
theorem IsNumber.toUint32 {bits : UInt64} {v : UInt32} (h : IsNumber bits v) :
    toUint32 bits = v := by
  obtain ⟨hfin, hint⟩ := h
  have hlt := v.toNat_lt
  rw [TypeScript.toUint32, if_pos hfin, truncate_integer hint,
    Int.emod_eq_of_lt (by omega) (by omega), Int.toNat_natCast, UInt32.ofNat_toNat]

end TypeScript

/-! ## the source -/

namespace Rust

structure OpenSessionPayload where
  fileName : String
  sessionId : SessionId
  startUtcUnixMs : Int64
  monoOriginNs : UInt64
  producerName : String
  producerVersion : String

/-- what `write_intern` writes -/
def internFrame (kind : UInt8) (name : String) : Res Error Bytes :=
  let nameBytes := utf8 name
  frame Cmd.intern.toU8 (kind :: (le 2 (UInt16.ofNat nameBytes.length).toNat ++ nameBytes))

/-- what `write_open_session` writes -/
def openSessionFrame (p : OpenSessionPayload) : Res Error Bytes :=
  let fileName := utf8 p.fileName
  let producerName := utf8 p.producerName
  let producerVersion := utf8 p.producerVersion
  frame Cmd.openSession.toU8 (le 2 (UInt16.ofNat fileName.length).toNat ++ fileName ++
    p.sessionId.1 ++ le 8 p.startUtcUnixMs.toUInt64.toNat ++ le 8 p.monoOriginNs.toNat ++
    le 2 (UInt16.ofNat producerName.length).toNat ++ producerName ++
    le 2 (UInt16.ofNat producerVersion.length).toNat ++ producerVersion)

/-- what `write_append_event` writes -/
def appendEventFrame (a : Appended) : Res Error Bytes := frame Cmd.appendEvent.toU8 a.request.tail

/-- `write_all` of a frame -/
def send {S : Server} (i : Nat) (bytes : Res Error Bytes) : Call S Unit := do
  let bytes ← Prog.of bytes
  let s ← get
  if s.link.closed then throw (.error .ioError)
  else set { s with link := s.link.send i bytes }

theorem writeFrame_eq {S : Server} (i : Nat) (opcode : UInt8) (payload : Bytes) :
    (writeFrame i opcode payload : Call S Unit) = send i (frame opcode payload) := by
  funext s
  refine (writeFrame_run i opcode payload s).trans ?_
  cases frame opcode payload with
  | error e => rfl
  | ok bytes =>
    show (if s.link.closed then _ else _) = (send i (.ok bytes)).run s
    rw [send, EStateM.run_bind, Prog.of_ok]
    simp only [EStateM.run_bind, EStateM.run_get, run_ite]
    rfl

/-- the writers send these frames -/
theorem writeIntern_eq {S : Server} (i : Nat) (kind : UInt8) (name : String) :
    (writeIntern i kind name : Call S Unit) = send i (internFrame kind name) :=
  writeFrame_eq i _ _

theorem writeAppendEvent_eq {S : Server} (i : Nat) (a : Appended) :
    (writeAppendEvent i a : Call S Unit) = send i (appendEventFrame a) :=
  writeFrame_eq i _ _

end Rust

namespace Go

structure OpenSessionMetadata where
  fileName : Bytes
  sessionId : SessionId
  startUtcUnixMs : Int64
  monoOriginNs : UInt64
  producerName : Bytes
  producerVersion : Bytes

def encodeOpenSession (m : OpenSessionMetadata) : Except GoError Bytes :=
  encodeFrame Cmd.openSession.toU8 (le 2 (UInt16.ofNat m.fileName.length).toNat ++ m.fileName ++
    m.sessionId.1 ++ le 8 m.startUtcUnixMs.toUInt64.toNat ++ le 8 m.monoOriginNs.toNat ++
    le 2 (UInt16.ofNat m.producerName.length).toNat ++ m.producerName ++
    le 2 (UInt16.ofNat m.producerVersion.length).toNat ++ m.producerVersion)

end Go

namespace TypeScript

structure OpenSessionMetadata where
  fileName : Str
  sessionId : Bytes
  startUtcUnixMs : Int
  monoOriginNs : Int
  producerName : Str
  producerVersion : Str

/-- `setUint16`, `setBigInt64` and `setBigUint64` wrap -/
def encodeOpenSession (m : OpenSessionMetadata) : Except TsError Bytes :=
  if m.sessionId.length ≠ 16 then .error (.error "sessionId must be 16 bytes")
  else
    let producerName := encode m.producerName
    if producerName.length > 32 then .error (.error "producerName must be <= 32 bytes")
    else
      let producerVersion := encode m.producerVersion
      if producerVersion.length > 16 then .error (.error "producerVersion must be <= 16 bytes")
      else
        let fileName := encode m.fileName
        encodeFrame Cmd.openSession.toU8 (le 2 (UInt16.ofNat fileName.length).toNat ++ fileName ++
          m.sessionId ++ le 8 (m.startUtcUnixMs % 2^64).toNat ++
          le 8 (m.monoOriginNs % 2^64).toNat ++
          le 2 (UInt16.ofNat producerName.length).toNat ++ producerName ++
          le 2 (UInt16.ofNat producerVersion.length).toNat ++ producerVersion)

/-- the arguments of `encodeAppendEvent`; the numbers are their bits, and the constants of severities
and type tags are bytes -/
structure AppendArguments where
  monotonicNs : Int
  domainId : UInt64
  categoryId : UInt64
  eventNameId : UInt64
  correlationId : UInt64
  severity : UInt8
  fieldNameId : UInt64
  typeTag : UInt8
  valueBody : Bytes

/-- what `setBigUint64` and `setUint32` write -/
def AppendArguments.appended (a : AppendArguments) : Appended :=
  ⟨UInt64.ofNat (a.monotonicNs % 2^64).toNat, toUint32 a.domainId, toUint32 a.categoryId,
    toUint32 a.eventNameId, toUint32 a.correlationId, a.severity, toUint32 a.fieldNameId,
    a.typeTag, a.valueBody⟩

end TypeScript

/-! ## what a request is read as -/

/-- the strings of an SDK: their bytes in a request, and the string of a text -/
structure Strings (τ : Type) where
  bytes : τ → Bytes
  ofText : String → τ
  bytes_ofText : ∀ text, bytes (ofText text) = utf8 text

def Rust.strings : Strings String := ⟨utf8, id, fun _ => rfl⟩

def Go.strings : Strings Bytes := ⟨id, utf8, fun _ => rfl⟩

def TypeScript.strings : Strings TypeScript.Str :=
  ⟨TypeScript.encode, TypeScript.units, TypeScript.encode_units⟩

/-- what a session is opened with -/
structure Metadata (τ : Type) where
  fileName : τ
  sessionId : Bytes
  startUtcUnixMs : Int
  monoOriginNs : Int
  producerName : τ
  producerVersion : τ

def Rust.OpenSessionPayload.metadata (p : Rust.OpenSessionPayload) : Metadata String :=
  ⟨p.fileName, p.sessionId.1, p.startUtcUnixMs.toInt, p.monoOriginNs.toNat, p.producerName,
    p.producerVersion⟩

def Go.OpenSessionMetadata.metadata (m : Go.OpenSessionMetadata) : Metadata Bytes :=
  ⟨m.fileName, m.sessionId.1, m.startUtcUnixMs.toInt, m.monoOriginNs.toNat, m.producerName,
    m.producerVersion⟩

def TypeScript.OpenSessionMetadata.metadata (m : TypeScript.OpenSessionMetadata) :
    Metadata TypeScript.Str :=
  ⟨m.fileName, m.sessionId, m.startUtcUnixMs, m.monoOriginNs, m.producerName, m.producerVersion⟩

section
variable {τ : Type} (S : Strings τ)

/-- the string is one of a text -/
def Strings.Text (x : τ) : Prop := ∃ text, S.ofText text = x

/-- a name is refused, or it is read back with its kind, and its length is the one that was sent -/
def InternRead (kind : UInt8) (name : τ) (body : Bytes) : Prop :=
  ∀ k text, parseIntern body = .ok (k, text) →
    k = kind ∧ S.ofText text = name ∧ leAt body 1 2 = (S.bytes name).length

/-- the metadata is what was read, and the lengths are those that were sent -/
structure Metadata.Is (m : Metadata τ) (body : Bytes) (req : OpenRequest) : Prop where
  fileName : S.ofText req.fileName = m.fileName
  sessionId : req.sessionId.1 = m.sessionId
  startUtcUnixMs : req.startUtcUnixMs.toInt = m.startUtcUnixMs
  monoOriginNs : (req.monoOriginNs.toNat : Int) = m.monoOriginNs
  producerName : S.ofText req.producerName = m.producerName
  producerVersion : S.ofText req.producerVersion = m.producerVersion
  fileNameLen : leAt body 0 2 = (S.bytes m.fileName).length
  producerNameLen :
    leAt body (2 + (S.bytes m.fileName).length + 32) 2 = (S.bytes m.producerName).length
  producerVersionLen : leAt body (2 + (S.bytes m.fileName).length + 32 + 2 +
    (S.bytes m.producerName).length) 2 = (S.bytes m.producerVersion).length

def OpenRead (m : Metadata τ) (body : Bytes) : Prop :=
  ∀ req, parseOpen body = .ok req → m.Is S body req

end

/-- the arguments of an encoder are what was read, the whole value among them -/
def Appended.Is (a : Appended) (ev : AppendEvent) : Prop :=
  ∃ severity value, severity.toU8 = a.severity ∧ value.tag = a.typeTag ∧
    value.raw = a.valueBody ∧ ev = a.event severity value

/-- the same for numbers of JavaScript -/
structure TypeScript.AppendArguments.Is (a : TypeScript.AppendArguments) (ev : AppendEvent) :
    Prop where
  appended : a.appended.Is ev
  monotonicNs : (ev.monotonicNs.toNat : Int) = a.monotonicNs
  domainId : TypeScript.IsNumber a.domainId ev.domainId
  categoryId : TypeScript.IsNumber a.categoryId ev.categoryId
  eventNameId : TypeScript.IsNumber a.eventNameId ev.eventNameId
  correlationId : TypeScript.IsNumber a.correlationId ev.correlationId
  fieldNameId : ∀ f ∈ ev.payload.fields, TypeScript.IsNumber a.fieldNameId f.nameId

/-- a call of an encoder -/
inductive Request where
  | rustIntern (kind : UInt8) (name : String)
  | goIntern (kind : UInt8) (name : Bytes)
  | typeScriptIntern (kind : DictKind) (name : TypeScript.Str)
  | rustOpen (p : Rust.OpenSessionPayload)
  | goOpen (m : Go.OpenSessionMetadata)
  | typeScriptOpen (m : TypeScript.OpenSessionMetadata)
  | rustAppend (a : Appended)
  | goAppend (a : Appended)
  | typeScriptAppend (a : TypeScript.AppendArguments)

namespace Request

/-- the frame, unless the encoder fails -/
def encoded : Request → Option Bytes
  | .rustIntern kind name => (Rust.internFrame kind name).toOption
  | .goIntern kind name => (Go.encodeIntern kind name).toOption
  | .typeScriptIntern kind name => (TypeScript.encodeIntern kind name).toOption
  | .rustOpen p => (Rust.openSessionFrame p).toOption
  | .goOpen m => (Go.encodeOpenSession m).toOption
  | .typeScriptOpen m => (TypeScript.encodeOpenSession m).toOption
  | .rustAppend a => (Rust.appendEventFrame a).toOption
  | .goAppend a => (Go.encodeAppendEvent a).toOption
  | .typeScriptAppend a => (TypeScript.encodeAppendEvent a.appended).toOption

/-- the request that the agent sees -/
def cmd : Request → Cmd
  | .rustIntern .. | .goIntern .. | .typeScriptIntern .. => .intern
  | .rustOpen _ | .goOpen _ | .typeScriptOpen _ => .openSession
  | .rustAppend _ | .goAppend _ | .typeScriptAppend _ => .appendEvent

/-- the parser of the agent refuses the body, or it reads the arguments of the encoder -/
def ReadBack (body : Bytes) : Request → Prop
  | .rustIntern kind name => InternRead Rust.strings kind name body
  | .goIntern kind name => InternRead Go.strings kind name body
  | .typeScriptIntern kind name => InternRead TypeScript.strings kind.toU8 name body
  | .rustOpen p => OpenRead Rust.strings p.metadata body
  | .goOpen m => OpenRead Go.strings m.metadata body
  | .typeScriptOpen m => OpenRead TypeScript.strings m.metadata body
  | .rustAppend a | .goAppend a => ∀ ev, parseAppend body = .ok ev → a.Is ev
  | .typeScriptAppend a => ∀ ev, parseAppend body = .ok ev → a.Is ev

/-- a frame of at most 1 MiB is the request, and its body is refused or read back -/
def Agrees (r : Request) : Prop :=
  ∀ bytes, r.encoded = some bytes → bytes.length ≤ 4 + maxFrameSize →
    ∃ body, bytes = frameBytes (r.cmd.toU8 :: body) ∧ r.ReadBack body

end Request

/-! ## which requests are read back -/

/-- the body of `OpenSession`, in its parts; its lengths and its numbers are wrapped -/
def Metadata.body {τ : Type} (S : Strings τ) (m : Metadata τ) : Bytes :=
  openBody (S.bytes m.fileName) m.sessionId (UInt64.ofNat (m.startUtcUnixMs % 2^64).toNat)
    (UInt64.ofNat (m.monoOriginNs % 2^64).toNat) (S.bytes m.producerName)
    (S.bytes m.producerVersion)

/-- the first bytes of a name, as far as its wrapped length goes, are a name -/
def CutAccepted (bytes : Bytes) : Prop :=
  bytes.length % 2^16 ≠ 0 ∧ bytes.length % 2^16 ≤ 1024 ∧
    (fromUtf8 (bytes.take (bytes.length % 2^16))).isSome

instance (bytes : Bytes) : Decidable (CutAccepted bytes) :=
  inferInstanceAs (Decidable (_ ∧ _ ∧ _))

/-- the body starts with an acceptable request -/
def OpenAccepted (body : Bytes) : Prop := ∃ req rest, Acceptable req ∧ body = req.bytes ++ rest

/-- nothing is wrapped, and every string is a text -/
structure Metadata.Exact {τ : Type} (S : Strings τ) (m : Metadata τ) : Prop where
  fileName : (S.bytes m.fileName).length < 2^16 ∧ S.Text m.fileName
  producerName : (S.bytes m.producerName).length < 2^16 ∧ S.Text m.producerName
  producerVersion : (S.bytes m.producerVersion).length < 2^16 ∧ S.Text m.producerVersion
  startUtcUnixMs : -2^63 ≤ m.startUtcUnixMs ∧ m.startUtcUnixMs < 2^63
  monoOriginNs : 0 ≤ m.monoOriginNs ∧ m.monoOriginNs < 2^64

/-- the severity is none, or the value is not there -/
def Appended.Refused (a : Appended) : Prop :=
  5 < a.severity ∨ ∀ n, valueSize a.typeTag a.valueBody = some n → a.valueBody.length < n

/-- the value takes the whole body, and a boolean is 0 or 1 -/
def Appended.Whole (a : Appended) : Prop :=
  valueSize a.typeTag a.valueBody = some a.valueBody.length ∧
    (a.typeTag = 0x01 → a.valueBody.getD 0 0 ≤ 1)

/-- the numbers are in the range of their fields -/
structure TypeScript.AppendArguments.InRange (a : TypeScript.AppendArguments) : Prop where
  monotonicNs : 0 ≤ a.monotonicNs ∧ a.monotonicNs < 2^64
  domainId : ∃ v, TypeScript.IsNumber a.domainId v
  categoryId : ∃ v, TypeScript.IsNumber a.categoryId v
  eventNameId : ∃ v, TypeScript.IsNumber a.eventNameId v
  correlationId : ∃ v, TypeScript.IsNumber a.correlationId v
  fieldNameId : ∃ v, TypeScript.IsNumber a.fieldNameId v

namespace Request

/-- the body that is sent -/
def body : Request → Bytes
  | .rustIntern kind name => internBody kind (utf8 name)
  | .goIntern kind name => internBody kind name
  | .typeScriptIntern kind name => internBody kind.toU8 (TypeScript.encode name)
  | .rustOpen p => p.metadata.body Rust.strings
  | .goOpen m => m.metadata.body Go.strings
  | .typeScriptOpen m => m.metadata.body TypeScript.strings
  | .rustAppend a | .goAppend a => a.request.tail
  | .typeScriptAppend a => a.appended.request.tail

/-- the checks of the encoders -/
def Checked : Request → Prop
  | .goIntern _ name => name.length ≤ 1024
  | .typeScriptIntern _ name => (TypeScript.encode name).length ≤ 1024
  | .typeScriptOpen m => m.sessionId.length = 16 ∧ (TypeScript.encode m.producerName).length ≤ 32 ∧
      (TypeScript.encode m.producerVersion).length ≤ 16
  | _ => True

/-- the parser refuses the body, or nothing that was sent was changed by its encoding -/
def Faithful : Request → Prop
  | .rustIntern _ name => (utf8 name).length < 2^16 ∨ ¬ CutAccepted (utf8 name)
  | .goIntern .. => True
  | .typeScriptIntern _ name => TypeScript.lone name = false
  | .rustOpen p => p.metadata.Exact Rust.strings ∨ ¬ OpenAccepted (p.metadata.body Rust.strings)
  | .goOpen m => m.metadata.Exact Go.strings ∨ ¬ OpenAccepted (m.metadata.body Go.strings)
  | .typeScriptOpen m => m.metadata.Exact TypeScript.strings ∨
      ¬ OpenAccepted (m.metadata.body TypeScript.strings)
  | .rustAppend a | .goAppend a => a.Whole ∨ a.Refused
  | .typeScriptAppend a => a.appended.Whole ∧ a.InRange ∨ a.appended.Refused

end Request

/-! ## names -/

theorem textBytes_inj {a b r r' : Bytes} (ha : a.length < 2^16) (hb : b.length < 2^16)
    (h : textBytes a ++ r = textBytes b ++ r') : a = b ∧ r = r' := by
  have hlen : a.length = b.length := by
    have ha' := textBytes_len a r
    rw [h, textBytes_len, Nat.mod_eq_of_lt ha, Nat.mod_eq_of_lt hb] at ha'
    exact ha'.symm
  rw [textBytes, textBytes, hlen, List.append_assoc, List.append_assoc] at h
  exact List.append_inj (List.append_cancel_left h) hlen

section
variable {τ : Type} {S : Strings τ}

/-- the string of the text whose bytes were sent -/
theorem Strings.Text.of {x : τ} (h : S.Text x) {text : String} (hb : S.bytes x = utf8 text) :
    S.ofText text = x := by
  obtain ⟨t, rfl⟩ := h
  rw [S.bytes_ofText] at hb
  rw [utf8_inj hb]

/-- a body that starts with a name -/
theorem intern_accepted {bytes : Bytes} {kind k : UInt8} {text : String} :
    parseIntern (internBody kind bytes) = .ok (k, text) ↔ k = kind ∧ text ≠ "" ∧
      (utf8 text).length ≤ 1024 ∧ (utf8 text).length = bytes.length % 2^16 ∧
      bytes.take (bytes.length % 2^16) = utf8 text := by
  rw [parseIntern_iff]
  constructor
  · rintro ⟨hne, hmax, rest, h⟩
    obtain ⟨rfl, htail⟩ := List.cons.inj h
    change textBytes bytes = textBytes (utf8 text) ++ rest at htail
    have hlen : (utf8 text).length = bytes.length % 2^16 := by
      have hat := textBytes_len bytes []
      rw [List.append_nil, htail, textBytes_len, Nat.mod_eq_of_lt (by omega)] at hat
      exact hat
    refine ⟨rfl, hne, hmax, hlen, ?_⟩
    rw [textBytes, textBytes, hlen, List.append_assoc, ← le_mod 2 bytes.length] at htail
    rw [← hlen, List.append_cancel_left htail, List.take_left' rfl]
  · rintro ⟨rfl, hne, hmax, hlen, htake⟩
    refine ⟨hne, hmax, bytes.drop (bytes.length % 2^16), ?_⟩
    rw [internBody, internBody, textBytes, textBytes, List.cons_append, List.append_assoc, ← htake,
      List.take_append_drop, htake, hlen]
    exact congrArg (fun l => k :: (l ++ bytes)) (le_mod 2 _).symm

/-- a short text that is no name is empty -/
theorem cut_text {text : String} (hshort : (utf8 text).length < 2^16)
    (hmax : (utf8 text).length ≤ 1024) (h : ¬ CutAccepted (utf8 text)) : text = "" := by
  by_contra hne
  refine h ⟨?_, ?_, ?_⟩
  · rw [Nat.mod_eq_of_lt hshort]
    exact fun h0 => hne (utf8_inj (List.length_eq_zero_iff.mp h0))
  · rwa [Nat.mod_eq_of_lt hshort]
  · rw [Nat.mod_eq_of_lt hshort, List.take_length, fromUtf8_utf8]
    rfl

/-- **a name is refused or read back exactly when it is a text whose length fits, or when the part
that its wrapped length leaves is no name** -/
theorem interned_iff {kind : UInt8} {name : τ} :
    InternRead S kind name (internBody kind (S.bytes name)) ↔
      ((S.bytes name).length < 2^16 ∧ S.Text name) ∨ ¬ CutAccepted (S.bytes name) := by
  constructor
  · intro h
    rw [Classical.or_iff_not_imp_right, not_not]
    rintro ⟨hpos, hmax, hsome⟩
    obtain ⟨text, htext⟩ := Option.isSome_iff_exists.mp hsome
    have hu := fromUtf8_eq_some.mp htext
    have hlen : (utf8 text).length = (S.bytes name).length % 2^16 := by
      rw [hu]
      exact List.length_take_of_le (Nat.mod_le _ _)
    have hne : text ≠ "" := by
      rintro rfl
      exact hpos hlen.symm
    obtain ⟨-, hback, hfield⟩ := h kind text
      (intern_accepted.mpr ⟨rfl, hne, by omega, hlen, hu.symm⟩)
    have hlt := leAt_lt (internBody kind (S.bytes name)) 1 2
    exact ⟨by omega, text, hback⟩
  · rintro h k text hp
    obtain ⟨rfl, hne, hmax, hlen, htake⟩ := intern_accepted.mp hp
    rcases h with ⟨hshort, htext⟩ | hcut
    · rw [Nat.mod_eq_of_lt hshort, List.take_length] at htake
      refine ⟨rfl, htext.of htake, ?_⟩
      have hat := textBytes_len (S.bytes name) []
      rw [List.append_nil, Nat.mod_eq_of_lt hshort] at hat
      rw [← hat]
      exact (leAt_drop (internBody k (S.bytes name)) 1 0 2).symm
    · refine absurd ⟨?_, by omega, ?_⟩ hcut
      · intro h0
        rw [h0] at hlen
        exact hne (utf8_inj (List.length_eq_zero_iff.mp hlen))
      · rw [htake, fromUtf8_utf8]
        rfl

end

/-! ## metadata -/

/-- two bodies whose texts are not wrapped -/
theorem openBody_inj {fn fn' sid sid' pn pn' pv pv' rest : Bytes} {start start' mono mono' : UInt64}
    (hfn : fn.length < 2^16 ∧ fn'.length < 2^16) (hsid : sid.length = 16 ∧ sid'.length = 16)
    (hpn : pn.length < 2^16 ∧ pn'.length < 2^16) (hpv : pv.length < 2^16 ∧ pv'.length < 2^16)
    (h : openBody fn sid start mono pn pv = openBody fn' sid' start' mono' pn' pv' ++ rest) :
    fn = fn' ∧ sid = sid' ∧ start = start' ∧ mono = mono' ∧ pn = pn' ∧ pv = pv' := by
  have number : ∀ {v v' : UInt64}, le 8 v.toNat = le 8 v'.toNat → v = v' := fun h =>
    UInt64.toNat_inj.mp (le_inj (UInt64.toNat_lt _) (UInt64.toNat_lt _) h)
  simp only [openBody, List.append_assoc] at h
  obtain ⟨heq₁, h₁⟩ := textBytes_inj hfn.1 hfn.2 h
  obtain ⟨heq₂, h₂⟩ := List.append_inj h₁ (hsid.1.trans hsid.2.symm)
  obtain ⟨heq₃, h₃⟩ := List.append_inj h₂ (by rw [le_length, le_length])
  obtain ⟨heq₄, h₄⟩ := List.append_inj h₃ (by rw [le_length, le_length])
  obtain ⟨heq₅, h₅⟩ := textBytes_inj hpn.1 hpn.2 h₄
  rw [← List.append_nil (textBytes pv)] at h₅
  obtain ⟨heq₆, -⟩ := textBytes_inj hpv.1 hpv.2 h₅
  exact ⟨heq₁, heq₂, number heq₃, number heq₄, heq₅, heq₆⟩

theorem toInt_bmod (x : Int64) : x.toInt = Int.bmod x.toUInt64.toNat (2^64) :=
  BitVec.toInt_eq_toNat_bmod x.toBitVec

theorem toNat_wrapped (v : Int) : ((UInt64.ofNat (v % 2^64).toNat).toNat : Int) = v % 2^64 := by
  have h0 : 0 ≤ v % 2^64 := Int.emod_nonneg _ (by norm_num)
  have hlt : v % 2^64 < 2^64 := Int.emod_lt_of_pos _ (by norm_num)
  rw [UInt64.toNat_ofNat', Nat.mod_eq_of_lt (by omega), Int.toNat_of_nonneg h0]

/-- a number in the range of an i64 is written as it is -/
theorem toInt_wrapped {v : Int} (h : -2^63 ≤ v ∧ v < 2^63) {x : Int64}
    (hx : UInt64.ofNat (v % 2^64).toNat = x.toUInt64) : x.toInt = v := by
  have hmod : Int.bmod (v % 2^64) (2^64 : Nat) = Int.bmod v (2^64 : Nat) := Int.emod_bmod v _
  rw [toInt_bmod, ← hx, toNat_wrapped, hmod]
  exact Int.bmod_eq_of_le (by simpa using h.1) (by simpa using h.2)

theorem wrapped_toInt (x : Int64) : UInt64.ofNat (x.toInt % 2^64).toNat = x.toUInt64 := by
  have hmod : Int.bmod x.toUInt64.toNat (2^64) % (2^64 : Nat) = x.toUInt64.toNat % (2^64 : Nat) :=
    Int.bmod_emod
  have hlt := x.toUInt64.toNat_lt
  refine UInt64.toNat_inj.mp (Int.ofNat_inj.mp ?_)
  rw [toNat_wrapped, toInt_bmod]
  exact hmod.trans (Int.emod_eq_of_lt (by omega) (by exact_mod_cast hlt))

theorem wrapped_toNat (v : UInt64) : UInt64.ofNat ((v.toNat : Int) % 2^64).toNat = v := by
  have hlt := v.toNat_lt
  rw [Int.emod_eq_of_lt (by omega) (by omega), Int.toNat_natCast, UInt64.ofNat_toNat]

section
variable {τ : Type} {S : Strings τ} {m : Metadata τ}

/-- **the metadata is refused or read back exactly when nothing is wrapped, or when the body does not
start with an acceptable request** -/
theorem opened_iff (hsid : m.sessionId.length = 16) (hlen : (m.body S).length < 2^63) :
    OpenRead S m (m.body S) ↔ m.Exact S ∨ ¬ OpenAccepted (m.body S) := by
  constructor
  · intro h
    rw [Classical.or_iff_not_imp_right, not_not]
    rintro ⟨req, hacc⟩
    have hreq := h req ((parseOpen_iff hlen).mpr (by simpa using hacc))
    have hrange := req.startUtcUnixMs
    have hfn := leAt_lt (m.body S) 0 2
    have hpn := leAt_lt (m.body S) (2 + (S.bytes m.fileName).length + 32) 2
    have hpv := leAt_lt (m.body S) (2 + (S.bytes m.fileName).length + 32 + 2 +
      (S.bytes m.producerName).length) 2
    rw [hreq.fileNameLen] at hfn
    rw [hreq.producerNameLen] at hpn
    rw [hreq.producerVersionLen] at hpv
    refine ⟨⟨hfn, _, hreq.fileName⟩, ⟨hpn, _, hreq.producerName⟩, ⟨hpv, _, hreq.producerVersion⟩,
      ?_, ?_⟩
    · rw [← hreq.startUtcUnixMs]
      exact ⟨Int64.le_toInt _, Int64.toInt_lt _⟩
    · rw [← hreq.monoOriginNs]
      have := req.monoOriginNs.toNat_lt
      omega
  · intro h req hp
    obtain ⟨hacc, rest, hbody⟩ := (parseOpen_iff hlen).mp hp
    rcases h with hx | hn
    · obtain ⟨hfn, hid, hstart, hmono, hpn, hpv⟩ := openBody_inj ⟨hx.fileName.1, hacc.file_name_len⟩
        ⟨hsid, req.sessionId.2⟩
        ⟨hx.producerName.1, lt_of_le_of_lt hacc.producer_name (by norm_num)⟩
        ⟨hx.producerVersion.1, lt_of_le_of_lt hacc.producer_version (by norm_num)⟩ hbody
      obtain ⟨hfnAt, -, -, -, hpnAt, hpvAt⟩ :=
        @openBody_at (m.body S) _ _ _ _ [] _ _ hsid (List.append_nil _).symm
      have field : ∀ {off : Nat} {text rest : Bytes}, text.length < 2^16 →
          (m.body S).drop off = textBytes text ++ rest → leAt (m.body S) off 2 = text.length :=
        fun ht hb => (textBytes_at ht hb).1
      constructor
      · exact hx.fileName.2.of hfn
      · exact hid.symm
      · exact toInt_wrapped hx.startUtcUnixMs hstart
      · rw [← hmono, toNat_wrapped, Int.emod_eq_of_lt hx.monoOriginNs.1 hx.monoOriginNs.2]
      · exact hx.producerName.2.of hpn
      · exact hx.producerVersion.2.of hpv
      · exact field hx.fileName.1 hfnAt
      · exact field hx.producerName.1 hpnAt
      · exact field hx.producerVersion.1 hpvAt
    · exact absurd ⟨req, rest, hacc, hbody⟩ hn

end

/-! ## events -/

theorem fromU8_ok {v : UInt8} {severity : Severity} (h : Severity.fromU8 v = .ok severity) :
    severity.toU8 = v := by
  unfold Severity.fromU8 at h
  repeat' split at h
  all_goals
    first
      | (rename_i hv; cases h; exact hv.symm)
      | cases h

theorem fromU8_some {v : UInt8} (h : ¬ 5 < v) : ∃ severity, Severity.fromU8 v = .ok severity := by
  unfold Severity.fromU8
  repeat' split
  all_goals
    first
      | exact ⟨_, rfl⟩
      | skip
  simp only [UInt8.lt_iff_toNat_lt, ← UInt8.toNat_inj] at *
  simp at *
  omega

/-- a byte that is written as a boolean -/
theorem truth_iff {b : UInt8} : (if b = 0 then 0 else 1) = b ↔ b ≤ 1 := by
  rw [UInt8.le_iff_toNat_le, ← UInt8.toNat_inj]
  split
  · rename_i h
    rw [h]
    decide
  · rename_i h
    have h0 : b.toNat ≠ 0 := fun h0 => h (UInt8.toNat_inj.mp h0)
    show 1 = b.toNat ↔ b.toNat ≤ 1
    omega

section
variable {a : Appended}

/-- the body has at least 35 bytes, and it is not longer than the memory -/
theorem parseAppend_request (hlen : a.request.tail.length < 2^63) {ev : AppendEvent} :
    parseAppend a.request.tail = .ok ev ↔ ∃ severity value,
      Severity.fromU8 a.severity = .ok severity ∧ valueOf a.typeTag a.valueBody = .ok value ∧
      ev = a.event severity value := by
  rw [parseAppend_eq hlen, lift_eq_ok, appendOf_request]

/-- an event is refused or accepted -/
theorem refused_iff : a.Refused ↔ ¬ ∃ severity value, Severity.fromU8 a.severity = .ok severity ∧
    valueOf a.typeTag a.valueBody = .ok value := by
  constructor
  · rintro h ⟨severity, value, hs, hv⟩
    obtain ⟨-, n, hsize, hn, -⟩ := valueOf_ok hv
    rcases h with h | h
    · have hsev := fromU8_ok hs
      rw [← hsev] at h
      cases severity <;> exact absurd h (by decide)
    · exact absurd (h n hsize) (not_lt.mpr hn)
  · intro h
    by_cases hsev : 5 < a.severity
    · exact .inl hsev
    · refine .inr fun n hsize => not_le.mp fun hn => h ?_
      obtain ⟨severity, hs⟩ := fromU8_some hsev
      obtain ⟨value, hv⟩ := valueOf_some hsize hn
      exact ⟨severity, value, hs, hv⟩

/-- a value is written as it was read exactly when it takes the whole body -/
theorem whole_iff {value : Value} (hv : valueOf a.typeTag a.valueBody = .ok value) :
    value.raw = a.valueBody ↔ a.Whole := by
  obtain ⟨-, n, hsize, hn, hraw⟩ := valueOf_ok hv
  rw [hraw, valueBytes]
  by_cases htag : a.typeTag = 0x01
  · have h1 : valueSize a.typeTag a.valueBody = some 1 := if_pos htag
    rw [if_pos htag, Appended.Whole, h1]
    rw [h1] at hsize
    cases hsize
    constructor
    · intro h
      have hlen := congrArg List.length h
      rw [List.length_singleton] at hlen
      refine ⟨congrArg some hlen, fun _ => truth_iff.mp ?_⟩
      exact congrArg (fun l => l.getD 0 0) h
    · rintro ⟨hw, hb⟩
      obtain ⟨b, hbody⟩ := List.length_eq_one_iff.mp (Option.some.inj hw).symm
      rw [hbody] at hb ⊢
      exact congrArg (fun b => [b]) (truth_iff.mpr (hb htag))
  · rw [if_neg htag]
    constructor
    · intro h
      have hlen := congrArg List.length h
      rw [List.length_take_of_le hn] at hlen
      exact ⟨by rw [hsize, hlen], fun h => absurd h htag⟩
    · rintro ⟨hw, -⟩
      rw [hsize] at hw
      rw [Option.some.inj hw, List.take_length]

/-- **an event is refused or read back exactly when its value takes the whole body** -/
theorem appended_iff (hlen : a.request.tail.length < 2^63) :
    (∀ ev, parseAppend a.request.tail = .ok ev → a.Is ev) ↔ a.Whole ∨ a.Refused := by
  constructor
  · intro h
    rw [Classical.or_iff_not_imp_right, refused_iff, not_not]
    rintro ⟨severity, value, hs, hv⟩
    obtain ⟨severity', value', -, -, hraw, hev⟩ :=
      h _ ((parseAppend_request hlen).mpr ⟨severity, value, hs, hv, rfl⟩)
    have hvalue : value = value' := by
      injection hev with _ _ _ _ _ _ hp
      injection hp with hp
      injection hp with hp
      injection hp
    rw [← hvalue] at hraw
    exact (whole_iff hv).mp hraw
  · intro h ev hp
    obtain ⟨severity, value, hs, hv, rfl⟩ := (parseAppend_request hlen).mp hp
    rcases h with h | h
    · exact ⟨severity, value, fromU8_ok hs, (valueOf_ok hv).1, (whole_iff hv).mpr h, rfl⟩
    · exact absurd ⟨severity, value, hs, hv⟩ (refused_iff.mp h)

end

/-- **numbers of JavaScript are read back exactly when they are in the range of their fields** -/
theorem typeScript_appended_iff {a : TypeScript.AppendArguments}
    (hlen : a.appended.request.tail.length < 2^63) :
    (∀ ev, parseAppend a.appended.request.tail = .ok ev → a.Is ev) ↔
      a.appended.Whole ∧ a.InRange ∨ a.appended.Refused := by
  constructor
  · intro h
    rw [Classical.or_iff_not_imp_right]
    intro hacc
    have hwhole := ((appended_iff hlen).mp fun ev hp => (h ev hp).appended).resolve_right hacc
    rw [refused_iff, not_not] at hacc
    obtain ⟨severity, value, hs, hv⟩ := hacc
    have hev := h _ ((parseAppend_request hlen).mpr ⟨severity, value, hs, hv, rfl⟩)
    refine ⟨hwhole, ?_, ⟨_, hev.domainId⟩, ⟨_, hev.categoryId⟩, ⟨_, hev.eventNameId⟩,
      ⟨_, hev.correlationId⟩, ⟨_, hev.fieldNameId _ List.mem_cons_self⟩⟩
    rw [← hev.monotonicNs]
    have hlt := (a.appended.event severity value).monotonicNs.toNat_lt
    omega
  · intro h ev hp
    obtain ⟨severity, value, hs, hv, rfl⟩ := (parseAppend_request hlen).mp hp
    rcases h with ⟨hwhole, hrange⟩ | h
    · have number : ∀ {bits : UInt64}, (∃ v, TypeScript.IsNumber bits v) →
          TypeScript.IsNumber bits (TypeScript.toUint32 bits) := by
        rintro bits ⟨v, hv⟩
        rw [hv.toUint32]
        exact hv
      refine ⟨(appended_iff hlen).mpr (.inl hwhole) _ hp, ?_, number hrange.domainId,
        number hrange.categoryId, number hrange.eventNameId, number hrange.correlationId, ?_⟩
      · exact (toNat_wrapped a.monotonicNs).trans
          (Int.emod_eq_of_lt hrange.monotonicNs.1 hrange.monotonicNs.2)
      · intro f hf
        rw [List.mem_singleton.mp hf]
        exact number hrange.fieldNameId
    · exact absurd ⟨severity, value, hs, hv⟩ (refused_iff.mp h)

/-! ## the frames -/

/-- the frames of Rust that fit -/
theorem rust_frame_iff {opcode : UInt8} {body bytes : Bytes} :
    ((Rust.frame opcode body).toOption = some bytes ∧ bytes.length ≤ 4 + maxFrameSize) ↔
      1 + body.length ≤ maxFrameSize ∧ bytes = frameBytes (opcode :: body) := by
  have hmax : maxFrameSize = 1048576 := rfl
  constructor
  · rintro ⟨h, hlen⟩
    cases hi : (incr32 (UInt32.ofNat body.length) : Res Rust.Error UInt32) with
    | error e =>
      rw [Rust.frame, hi] at h
      cases h
    | ok len =>
      rw [Rust.frame, hi] at h
      cases h
      rw [List.length_append, le_length, List.length_cons] at hlen
      have hbody : (UInt32.ofNat body.length).toNat = body.length := by
        rw [UInt32.toNat_ofNat', Nat.mod_eq_of_lt (by omega)]
      rw [incr32_eq (by rw [hbody]; omega)] at hi
      cases hi
      have hone : (UInt32.ofNat body.length + 1).toNat = body.length + 1 := by
        rw [UInt32.toNat_add, hbody]
        exact Nat.mod_eq_of_lt (by show body.length + 1 < 2^32; omega)
      exact ⟨by omega, by rw [hone]; rfl⟩
  · rintro ⟨hlen, rfl⟩
    refine ⟨?_, ?_⟩
    · rw [rust_frame_fits hlen]
      rfl
    · rw [frameBytes, List.length_append, le_length, List.length_cons]
      omega

/-- the frames of Go and TypeScript -/
theorem checked_frame_iff {ε : Type} {e : ε} {opcode : UInt8} {body bytes : Bytes} :
    ((if 1 + body.length > maxFrameSize then .error e
      else .ok (frameBytes (opcode :: body)) : Except ε Bytes).toOption = some bytes ∧
      bytes.length ≤ 4 + maxFrameSize) ↔
      1 + body.length ≤ maxFrameSize ∧ bytes = frameBytes (opcode :: body) := by
  split
  · rename_i hlarge
    constructor
    · rintro ⟨h, -⟩
      cases h
    · rintro ⟨h, -⟩
      exact absurd hlarge (not_lt.mpr h)
  · rename_i hfits
    constructor
    · rintro ⟨h, -⟩
      cases h
      exact ⟨not_lt.mp hfits, rfl⟩
    · rintro ⟨h, rfl⟩
      refine ⟨rfl, ?_⟩
      rw [frameBytes, List.length_append, le_length, List.length_cons]
      omega

theorem go_frame_iff {opcode : UInt8} {body bytes : Bytes} :
    ((Go.encodeFrame opcode body).toOption = some bytes ∧ bytes.length ≤ 4 + maxFrameSize) ↔
      1 + body.length ≤ maxFrameSize ∧ bytes = frameBytes (opcode :: body) :=
  checked_frame_iff

theorem typeScript_frame_iff {opcode : UInt8} {body bytes : Bytes} :
    ((TypeScript.encodeFrame opcode body).toOption = some bytes ∧
      bytes.length ≤ 4 + maxFrameSize) ↔
      1 + body.length ≤ maxFrameSize ∧ bytes = frameBytes (opcode :: body) :=
  checked_frame_iff

/-- an encoder that checks its argument first -/
theorem check_toOption {ε : Type} {c : Prop} [Decidable c] {e : ε} {x : Except ε Bytes}
    {bytes : Bytes} : (if c then .error e else x : Except ε Bytes).toOption = some bytes ↔
      ¬ c ∧ x.toOption = some bytes := by
  split
  · rename_i hc
    constructor
    · intro h
      cases h
    · intro h
      exact absurd hc h.1
  · rename_i hc
    exact (and_iff_right hc).symm

/-- the texts of `OpenSession`, as all encoders write them -/
theorem openBody_eq {fn sid pn pv : Bytes} {start mono : UInt64} :
    le 2 (UInt16.ofNat fn.length).toNat ++ fn ++ sid ++ le 8 start.toNat ++ le 8 mono.toNat ++
      le 2 (UInt16.ofNat pn.length).toNat ++ pn ++ le 2 (UInt16.ofNat pv.length).toNat ++ pv =
    openBody fn sid start mono pn pv := by
  have h16 : ∀ n, le 2 (UInt16.ofNat n).toNat = le 2 n := fun n => by
    rw [UInt16.toNat_ofNat']
    exact le_mod 2 n
  simp only [h16, openBody, textBytes, List.append_assoc]

namespace Request

/-- **the frames of at most 1 MiB**: the arguments pass the checks of their encoder -/
theorem encoded_iff (r : Request) {bytes : Bytes} :
    (r.encoded = some bytes ∧ bytes.length ≤ 4 + maxFrameSize) ↔
      r.Checked ∧ 1 + r.body.length ≤ maxFrameSize ∧ bytes = frameBytes (r.cmd.toU8 :: r.body) := by
  have h16 : ∀ n, le 2 (UInt16.ofNat n).toNat = le 2 n := fun n => by
    rw [UInt16.toNat_ofNat']
    exact le_mod 2 n
  cases r with
  | rustIntern kind name =>
    have hframe : Rust.internFrame kind name
        = Rust.frame Cmd.intern.toU8 (internBody kind (utf8 name)) := by
      simp only [Rust.internFrame, h16]
      rfl
    rw [encoded, hframe]
    exact rust_frame_iff.trans (and_iff_right trivial).symm
  | goIntern kind name =>
    rw [encoded, Go.encodeIntern, check_toOption, and_assoc, not_lt]
    exact and_congr_right fun _ => go_frame_iff
  | typeScriptIntern kind name =>
    rw [encoded, TypeScript.encodeIntern, check_toOption, and_assoc, not_lt]
    exact and_congr_right fun _ => typeScript_frame_iff
  | rustOpen p =>
    have hframe : Rust.openSessionFrame p
        = Rust.frame Cmd.openSession.toU8 (p.metadata.body Rust.strings) := by
      rw [Rust.openSessionFrame, openBody_eq, Metadata.body, Rust.OpenSessionPayload.metadata,
        wrapped_toInt, wrapped_toNat]
      rfl
    rw [encoded, hframe]
    exact rust_frame_iff.trans (and_iff_right trivial).symm
  | goOpen m =>
    have hframe : Go.encodeOpenSession m
        = Go.encodeFrame Cmd.openSession.toU8 (m.metadata.body Go.strings) := by
      rw [Go.encodeOpenSession, openBody_eq, Metadata.body, Go.OpenSessionMetadata.metadata,
        wrapped_toInt, wrapped_toNat]
      rfl
    rw [encoded, hframe]
    exact go_frame_iff.trans (and_iff_right trivial).symm
  | typeScriptOpen m =>
    have hbody : ∀ fn pn pv : Bytes,
        le 2 (UInt16.ofNat fn.length).toNat ++ fn ++ m.sessionId ++
          le 8 (m.startUtcUnixMs % 2^64).toNat ++ le 8 (m.monoOriginNs % 2^64).toNat ++
          le 2 (UInt16.ofNat pn.length).toNat ++ pn ++ le 2 (UInt16.ofNat pv.length).toNat ++ pv =
        openBody fn m.sessionId (UInt64.ofNat (m.startUtcUnixMs % 2^64).toNat)
          (UInt64.ofNat (m.monoOriginNs % 2^64).toNat) pn pv := by
      intro fn pn pv
      have hnat : ∀ v : Int, (UInt64.ofNat (v % 2^64).toNat).toNat = (v % 2^64).toNat := fun v =>
        Int.ofNat_inj.mp ((toNat_wrapped v).trans
          (Int.toNat_of_nonneg (Int.emod_nonneg _ (by norm_num))).symm)
      rw [← openBody_eq, hnat, hnat]
    rw [encoded, TypeScript.encodeOpenSession]
    simp only [check_toOption, not_lt, not_not, hbody]
    rw [and_assoc, and_assoc, and_assoc, typeScript_frame_iff]
    simp only [Checked, and_assoc]
    rfl
  | rustAppend a => exact rust_frame_iff.trans (and_iff_right trivial).symm
  | goAppend a => exact go_frame_iff.trans (and_iff_right trivial).symm
  | typeScriptAppend a => exact typeScript_frame_iff.trans (and_iff_right trivial).symm

theorem readBack_iff {r : Request} (hc : r.Checked) (hlen : r.body.length < 2^63) :
    r.ReadBack r.body ↔ r.Faithful := by
  cases r with
  | rustIntern kind name =>
    have hiff := @interned_iff String Rust.strings kind name
    rw [and_iff_left (show Rust.strings.Text name from ⟨name, rfl⟩)] at hiff
    exact hiff
  | goIntern kind name =>
    refine iff_of_true ((@interned_iff Bytes Go.strings kind name).mpr ?_) trivial
    have hshort : name.length < 2^16 := lt_of_le_of_lt hc (by norm_num)
    rw [Classical.or_iff_not_imp_right, not_not]
    rintro ⟨-, -, hsome⟩
    change (fromUtf8 (name.take (name.length % 2^16))).isSome = true at hsome
    rw [Nat.mod_eq_of_lt hshort, List.take_length] at hsome
    obtain ⟨text, htext⟩ := Option.isSome_iff_exists.mp hsome
    exact ⟨hshort, text, fromUtf8_eq_some.mp htext⟩
  | typeScriptIntern kind name =>
    have hiff := @interned_iff TypeScript.Str TypeScript.strings kind.toU8 name
    have hshort : (TypeScript.encode name).length < 2^16 := lt_of_le_of_lt hc (by norm_num)
    refine hiff.trans ⟨?_, fun h => .inl ⟨hshort, TypeScript.text_iff.mpr h⟩⟩
    rintro (⟨-, h⟩ | h)
    · exact TypeScript.text_iff.mp h
    · -- only the empty name is refused
      change ¬ CutAccepted (TypeScript.encode name) at h
      change (TypeScript.encode name).length ≤ 1024 at hc
      rw [TypeScript.encode_eq] at h hshort hc
      rw [TypeScript.chars_eq_nil (String.ofList_eq_empty_iff.mp (cut_text hshort hc h))]
      rfl
  | rustOpen p => exact opened_iff p.sessionId.2 hlen
  | goOpen m => exact opened_iff m.sessionId.2 hlen
  | typeScriptOpen m => exact opened_iff hc.1 hlen
  | rustAppend a => exact appended_iff hlen
  | goAppend a => exact appended_iff hlen
  | typeScriptAppend a => exact typeScript_appended_iff hlen

end Request

/-- **A frame of at most 1 MiB is refused or read back exactly when nothing is wrapped, or when what
is left after wrapping is no request** -/
theorem requests_agree_iff (r : Request) :
    r.Agrees ↔ (r.Checked → 1 + r.body.length ≤ maxFrameSize → r.Faithful) := by
  constructor
  · intro h hc hlen
    obtain ⟨body, hbytes, hread⟩ := h _ (r.encoded_iff.mpr ⟨hc, hlen, rfl⟩).1
      (r.encoded_iff.mpr ⟨hc, hlen, rfl⟩).2
    obtain ⟨-, rfl⟩ := List.cons.inj (frameBytes_inj hbytes)
    have hmax : maxFrameSize = 1048576 := rfl
    exact (Request.readBack_iff hc (by omega)).mp hread
  · intro h bytes hb hmax
    obtain ⟨hc, hlen, rfl⟩ := r.encoded_iff.mp ⟨hb, hmax⟩
    have hmax : maxFrameSize = 1048576 := rfl
    exact ⟨r.body, rfl, (Request.readBack_iff hc (by omega)).mpr (h hc hlen)⟩

/-- `(name_bytes.len() as u16)` is 1 -/
theorem wrapped_length {name : String} (hbytes : utf8 name = List.replicate 65537 0x61) :
    ¬ (Request.rustIntern 1 name).Agrees := by
  intro h
  have hmax : maxFrameSize = 1048576 := rfl
  have hlen : (internBody 1 (List.replicate 65537 0x61)).length = 65540 := by
    rw [internBody, List.length_cons, textBytes_length, List.length_replicate]
  obtain ⟨hb, hfits⟩ := (Request.encoded_iff (.rustIntern 1 name)).mpr
    ⟨trivial, by rw [Request.body, hbytes, hlen]; omega, rfl⟩
  obtain ⟨body, hframe, hread⟩ := h _ hb hfits
  obtain ⟨-, rfl⟩ := List.cons.inj (frameBytes_inj hframe)
  rw [Request.body, hbytes] at hread
  obtain ⟨-, -, hfield⟩ := hread 1 "a" (intern_accepted.mpr (by
    rw [List.length_replicate]
    exact ⟨rfl, by decide, by decide, rfl, rfl⟩))
  change _ = (utf8 name).length at hfield
  rw [hbytes, List.length_replicate] at hfield
  have hlt := leAt_lt (internBody 1 (List.replicate 65537 0x61)) 1 2
  omega

theorem utf8_replicate (n : Nat) :
    utf8 (String.ofList (List.replicate n 'a')) = List.replicate n 0x61 := by
  rw [utf8, String.toByteArray_ofList, List.utf8Encode, List.data_toByteArray, List.toList_toArray]
  induction n with
  | zero => rfl
  | succ n ih =>
    rw [List.replicate_succ, List.flatMap_cons, ih]
    rfl

/-- **a name of 65537 bytes is interned as its first byte** -/
theorem name_wrapped :
    ¬ (Request.rustIntern 1 (String.ofList (List.replicate 65537 'a'))).Agrees :=
  wrapped_length (utf8_replicate 65537)

end Dtj.Sdk
