import Dtj.Core.Chunk
import Dtj.Core.Dict
import Dtj.Mcp.Python

/-!
# The Python reader of DTJ files

`packages/dtj-mcp/src/debug_trace_mcp/dtj_native.py`.  Slices of `bytes` are cut to what is there;
`struct.unpack_from` and an index behind the end raise.

* `Raised`                     what the reader raises: its own `DtjError`, and what Python raises;
* `decode_header`, `_decode_…`  the parts of a file, each from its bytes;
* `open_session`               a file of these bytes;
* `session_to_projection`      the dictionary that the tools return.
-/

namespace Dtj.Mcp.Native
open Wire

/-- the `kind` of a `DtjError` -/
inductive Kind where
  | ChecksumMismatch
  | DuplicateDictionaryId
  | InvalidChunkMagic
  | InvalidEndian
  | InvalidHeaderSize
  | InvalidMagic
  | InvalidSeverity
  | Io
  | LimitExceeded
  | MalformedRecord
  | PayloadTooLarge
  | SequenceGap
  | UnknownDictionaryId
  | UnknownTypeTag
  | UnsupportedVersion
deriving DecidableEq, Repr

def Kind.name : Kind → Str
  | ChecksumMismatch => "ChecksumMismatch"
  | DuplicateDictionaryId => "DuplicateDictionaryId"
  | InvalidChunkMagic => "InvalidChunkMagic"
  | InvalidEndian => "InvalidEndian"
  | InvalidHeaderSize => "InvalidHeaderSize"
  | InvalidMagic => "InvalidMagic"
  | InvalidSeverity => "InvalidSeverity"
  | Io => "Io"
  | LimitExceeded => "LimitExceeded"
  | MalformedRecord => "MalformedRecord"
  | PayloadTooLarge => "PayloadTooLarge"
  | SequenceGap => "SequenceGap"
  | UnknownDictionaryId => "UnknownDictionaryId"
  | UnknownTypeTag => "UnknownTypeTag"
  | UnsupportedVersion => "UnsupportedVersion"

/-- the names of the keyword arguments of `DtjError` -/
inductive Key where
  | dict_kind
  | expected
  | format_version
  | found
  | header_size
  | id
  | len
  | max
  | sequence
  | severity
  | tag
deriving DecidableEq, Repr

def Key.name : Key → Str
  | dict_kind => "dict_kind"
  | expected => "expected"
  | format_version => "format_version"
  | found => "found"
  | header_size => "header_size"
  | id => "id"
  | len => "len"
  | max => "max"
  | sequence => "sequence"
  | severity => "severity"
  | tag => "tag"

structure DtjError where
  kind : Kind
  message : Str
  fields : List (Key × Nat)

inductive Raised where
  | DtjError (exc : DtjError)
  | OSError (text : Str)
  /-- any other exception, with its text -/
  | Other (text : Str)

abbrev Raises (α : Type) := Except Raised α

def error {α : Type} (kind : Kind) (message : Str) (fields : List (Key × Nat)) : Raises α :=
  .error (.DtjError ⟨kind, message, fields⟩)

def malformed {α : Type} (what : Str) : Raises α :=
  error .MalformedRecord (lit "malformed record: " ++ what) []

def limit {α : Type} (what : Str) : Raises α :=
  error .LimitExceeded (lit "limit exceeded: " ++ what) []

def nat (n : Nat) : Str := Str.ofInt n

/-! ## bytes -/

/-- `struct.unpack_from` of one little-endian number of `n` bytes -/
def unpack (n : Nat) (buf : Bytes) (offset : Nat) : Raises Nat :=
  if offset + n ≤ buf.length then .ok (leAt buf offset n)
  else .error (.Other "unpack_from requires a larger buffer")

/-- `buf[i]` -/
def item (buf : Bytes) (i : Nat) : Raises UInt8 :=
  if i < buf.length then .ok (buf.getD i 0) else .error (.Other "index out of range")

/-- `buf[a:b]` -/
def between (buf : Bytes) (a b : Nat) : Bytes := (buf.take b).drop a

def signed (bits n : Nat) : Int := if n < 2^(bits - 1) then n else (n : Int) - 2^bits

def _nul_terminated (raw : Bytes) : Str := lit (fromUtf8Lossy (raw.takeWhile (· != 0)))

def hexDigit (n : Nat) : UInt32 := UInt32.ofNat (if n < 10 then 0x30 + n else 0x57 + n)

def _hex_bytes (data : Bytes) : Str := data.flatMap fun b => [hexDigit (b.toNat / 16), hexDigit (b.toNat % 16)]

/-! ## the header -/

structure FileHeader where
  format_version : Nat
  flags : Nat
  session_id : Bytes
  start_utc_unix_ms : Int
  mono_origin_ns : Nat
  producer_name : Str
  producer_version : Str

def decode_header (buf : Bytes) : Raises FileHeader := do
  if buf.length < 128 then malformed "file shorter than header"
  if between buf 0 4 ≠ fileMagic then error .InvalidMagic "invalid DTJ file magic" []
  let format_version ← unpack 2 buf 4
  if format_version ≠ 1 then
    error .UnsupportedVersion (lit "unsupported DTJ format_version " ++ nat format_version)
      [(.format_version, format_version)]
  let header_size ← unpack 2 buf 6
  if header_size ≠ 128 then
    error .InvalidHeaderSize (lit "invalid header_size " ++ nat header_size)
      [(.header_size, header_size)]
  if (← unpack 4 buf 8) ≠ 0x01020304 then
    error .InvalidEndian "invalid endian_magic (expected LE 0x01020304)" []
  let flags ← unpack 4 buf 12
  let session_id := between buf 16 32
  let start_utc_unix_ms ← unpack 8 buf 32
  let mono_origin_ns ← unpack 8 buf 40
  .ok ⟨format_version, flags, session_id, signed 64 start_utc_unix_ms, mono_origin_ns,
    _nul_terminated (between buf 48 80), _nul_terminated (between buf 80 96)⟩

/-! ## the dictionary -/

structure DictEntry where
  kind : DictKind
  id : Nat
  name : Str

/-- `by_key`, in the order of its insertions -/
structure Dictionary where
  by_key : List ((DictKind × Nat) × Str)

def DictKind.from_u8 (v : UInt8) : Raises DictKind :=
  if v = 1 then .ok .domain
  else if v = 2 then .ok .category
  else if v = 3 then .ok .eventName
  else if v = 4 then .ok .string
  else malformed (lit "unknown dict kind " ++ nat v.toNat)

def Dictionary.get_name (d : Dictionary) (kind : DictKind) (id : Nat) : Option Str :=
  d.by_key.lookup (kind, id)

def Dictionary.require (d : Dictionary) (kind : DictKind) (id : Nat) : Raises Str :=
  match d.get_name kind id with
  | some name => .ok name
  | none =>
    error .UnknownDictionaryId
      (lit "unknown dictionary id kind=" ++ nat kind.toU8.toNat ++ lit " id=" ++ nat id)
      [(.dict_kind, kind.toU8.toNat), (.id, id)]

def Dictionary.insert (d : Dictionary) (entry : DictEntry) : Raises Dictionary := do
  if entry.id = 0 then malformed "dictionary id must be >= 1"
  if entry.name.length > 1024 then limit "dictionary name too long"
  match d.get_name entry.kind entry.id with
  | some existing =>
    if existing ≠ entry.name then
      error .DuplicateDictionaryId
        (lit "dictionary id conflict kind=" ++ nat entry.kind.toU8.toNat ++ lit " id=" ++ nat entry.id)
        [(.dict_kind, entry.kind.toU8.toNat), (.id, entry.id)]
    .ok d
  | none => .ok ⟨d.by_key ++ [((entry.kind, entry.id), entry.name)]⟩

/-- the loop of `_decode_dict_entries`, for so many entries from an offset on -/
def decodeEntriesAt (buf : Bytes) : Nat → Nat → List DictEntry → Raises (Nat × List DictEntry)
  | 0, offset, entries => .ok (offset, entries)
  | count + 1, offset, entries => do
    if offset + 10 > buf.length then malformed "truncated dictionary entry"
    let kind ← DictKind.from_u8 (← item buf offset)
    let id ← unpack 4 buf (offset + 4)
    let name_len ← unpack 2 buf (offset + 8)
    let offset := offset + 10
    if name_len > 1024 then limit "dictionary name too long"
    if offset + name_len > buf.length then malformed "dictionary name truncated"
    match fromUtf8 (between buf offset (offset + name_len)) with
    | none => malformed "dictionary name not UTF-8"
    | some name => decodeEntriesAt buf count (offset + name_len) (entries ++ [⟨kind, id, lit name⟩])

def _decode_dict_entries (buf : Bytes) : Raises (List DictEntry) := do
  if buf.length < 4 then malformed "dictionary payload too short"
  let count ← unpack 4 buf 0
  if count > 65535 then limit "too many dictionary entries"
  let (offset, entries) ← decodeEntriesAt buf count 4 []
  if offset ≠ buf.length then malformed "dictionary payload has trailing bytes"
  .ok entries

/-! ## values -/

structure FieldValue where
  type_name : Str
  value : Py
  id : Option Nat
  hex : Option Str

structure Field where
  name_id : Nat
  value : FieldValue

structure EventRecord where
  monotonic_ns : Nat
  event_sequence : Nat
  domain_id : Nat
  category_id : Nat
  event_name_id : Nat
  correlation_id : Nat
  severity : UInt8
  payload : List Field

/-- the bits of the double that a single is unpacked to; a NaN stays one -/
def widen (bits : Nat) : UInt64 :=
  let sign := bits / 2^31
  let exponent := bits / 2^23 % 2^8
  let mantissa := bits % 2^23
  UInt64.ofNat <| sign * 2^63 +
    if exponent = 255 then 0x7ff * 2^52 + mantissa * 2^29
    else if exponent ≠ 0 then (exponent + 896) * 2^52 + mantissa * 2^29
    else if mantissa = 0 then 0
    else (mantissa.log2 + 874) * 2^52 + (mantissa - 2^mantissa.log2) * 2^(52 - mantissa.log2)

/-- one, and the smallest single below zero -/
example : widen 0x3f800000 = 0x3ff0000000000000 ∧ widen 0x80000001 = 0xb6a0000000000000 := by
  decide

/-- `struct.unpack_from("<f", buf, offset)` -/
def unpackFloat (buf : Bytes) (offset : Nat) : Raises Py := do
  let bits ← unpack 4 buf offset
  .ok (.float (widen bits))

def truncated (what : Str) (n : Nat) (buf : Bytes) : Raises Unit :=
  if buf.length < n then malformed (what ++ lit " truncated") else .ok ()

def _decode_value (tag : UInt8) (buf : Bytes) : Raises (FieldValue × Nat) :=
  if tag = typeBool then do
    if buf = [] then malformed "bool truncated"
    if (← item buf 0) = 0 then .ok (⟨"bool", .bool false, none, none⟩, 1)
    else if (← item buf 0) = 1 then .ok (⟨"bool", .bool true, none, none⟩, 1)
    else malformed "bool not 0/1"
  else if tag = typeI32 then do
    truncated "i32" 4 buf
    let v ← unpack 4 buf 0
    .ok (⟨"i32", .int (signed 32 v), none, none⟩, 4)
  else if tag = typeI64 then do
    truncated "i64" 8 buf
    let v ← unpack 8 buf 0
    .ok (⟨"i64", .int (signed 64 v), none, none⟩, 8)
  else if tag = typeU32 then do
    truncated "u32" 4 buf
    let v ← unpack 4 buf 0
    .ok (⟨"u32", .int v, none, none⟩, 4)
  else if tag = typeU64 then do
    truncated "u64" 8 buf
    let v ← unpack 8 buf 0
    .ok (⟨"u64", .int v, none, none⟩, 8)
  else if tag = typeF32 then do
    truncated "f32" 4 buf
    let v ← unpackFloat buf 0
    .ok (⟨"f32", v, none, none⟩, 4)
  else if tag = typeF64 then do
    truncated "f64" 8 buf
    let v ← unpack 8 buf 0
    .ok (⟨"f64", .float (UInt64.ofNat v), none, none⟩, 8)
  else if tag = typeEnum then do
    truncated "enum" 4 buf
    let v ← unpack 4 buf 0
    .ok (⟨"enum", .int v, none, none⟩, 4)
  else if tag = typeVec2F32 then do
    truncated "vec2" 8 buf
    let x ← unpackFloat buf 0
    let y ← unpackFloat buf 4
    .ok (⟨"vec2_f32", .list [x, y], none, none⟩, 8)
  else if tag = typeVec3F32 then do
    truncated "vec3" 12 buf
    let x ← unpackFloat buf 0
    let y ← unpackFloat buf 4
    let z ← unpackFloat buf 8
    .ok (⟨"vec3_f32", .list [x, y, z], none, none⟩, 12)
  else if tag = typeInterned then do
    truncated "interned" 4 buf
    let sid ← unpack 4 buf 0
    .ok (⟨"interned_string", .none, some sid, none⟩, 4)
  else if tag = typeBytes then do
    truncated "bytes len" 2 buf
    let length ← unpack 2 buf 0
    if length > 4096 then limit "Bytes value > 4096"
    truncated "bytes" (2 + length) buf
    .ok (⟨"bytes", .none, none, some (_hex_bytes (between buf 2 (2 + length)))⟩, 2 + length)
  else
    error .UnknownTypeTag (lit "unknown typed payload tag 0x"
      ++ (_hex_bytes [tag]).map (fun c => if 0x61 ≤ c then c - 0x20 else c))
      [(.tag, tag.toNat)]

/-- the loop of `_decode_payload` -/
def decodeFieldsAt (buf : Bytes) : Nat → Nat → List Field → Raises (Nat × List Field)
  | 0, offset, fields => .ok (offset, fields)
  | count + 1, offset, fields => do
    if offset + 6 > buf.length then malformed "truncated field header"
    let name_id ← unpack 4 buf offset
    let tag ← item buf (offset + 4)
    let offset := offset + 6
    let (value, consumed) ← _decode_value tag (buf.drop offset)
    decodeFieldsAt buf count (offset + consumed) (fields ++ [⟨name_id, value⟩])

def _decode_payload (buf : Bytes) : Raises (List Field) := do
  if buf.length < 2 then malformed "payload shorter than field_count"
  let field_count ← unpack 2 buf 0
  let (offset, fields) ← decodeFieldsAt buf field_count 2 []
  if offset ≠ buf.length then
    malformed (lit "payload has " ++ Str.ofInt ((buf.length : Int) - offset) ++ lit " trailing bytes")
  .ok fields

/-! ## events -/

/-- the loop of `_decode_events` -/
def decodeEventsAt (buf : Bytes) : Nat → Nat → List EventRecord → Raises (Nat × List EventRecord)
  | 0, offset, events => .ok (offset, events)
  | count + 1, offset, events => do
    if offset + 40 > buf.length then malformed "truncated event header"
    let monotonic_ns ← unpack 8 buf offset
    let event_sequence ← unpack 8 buf (offset + 8)
    let domain_id ← unpack 4 buf (offset + 16)
    let category_id ← unpack 4 buf (offset + 20)
    let event_name_id ← unpack 4 buf (offset + 24)
    let correlation_id ← unpack 4 buf (offset + 28)
    let severity_byte ← item buf (offset + 32)
    if severity_byte > 5 then
      error .InvalidSeverity (lit "invalid severity " ++ nat severity_byte.toNat)
        [(.severity, severity_byte.toNat)]
    let payload_len ← unpack 4 buf (offset + 36)
    let offset := offset + 40
    if payload_len > 65535 then limit "event payload too large"
    if offset + payload_len > buf.length then malformed "event payload truncated"
    let payload ← _decode_payload (between buf offset (offset + payload_len))
    decodeEventsAt buf count (offset + payload_len) (events ++ [⟨monotonic_ns, event_sequence,
      domain_id, category_id, event_name_id, correlation_id, severity_byte, payload⟩])

def _decode_events (buf : Bytes) : Raises (List EventRecord) := do
  if buf.length < 4 then malformed "event chunk too short"
  let count ← unpack 4 buf 0
  if count > 65535 then limit "too many events in Event chunk"
  let (offset, events) ← decodeEventsAt buf count 4 []
  if offset ≠ buf.length then malformed "event chunk has trailing bytes"
  .ok events

def requireFields (d : Dictionary) : List Field → Raises Unit
  | [] => .ok ()
  | fld :: rest => do
    let _ ← d.require .string fld.name_id
    match fld.value.id with
    | some id => if fld.value.type_name = lit "interned_string" then let _ ← d.require .string id
    | none => pure ()
    requireFields d rest

def _validate_event_refs (d : Dictionary) (ev : EventRecord) : Raises Unit := do
  let _ ← d.require .domain ev.domain_id
  let _ ← d.require .category ev.category_id
  let _ ← d.require .eventName ev.event_name_id
  if ev.correlation_id ≠ 0 then let _ ← d.require .string ev.correlation_id
  requireFields d ev.payload

/-! ## the file -/

structure SessionReader where
  header : FileHeader
  dictionary : Dictionary
  events : List EventRecord
  chunks_committed : Nat
  torn_tail : Bool

/-- the locals of the loop of `open_session` -/
structure Scan where
  dictionary : Dictionary
  events : List EventRecord
  offset : Nat
  expected_chunk_seq : Nat
  expected_event_seq : Nat

def gap {α : Type} (expected found : Nat) : Raises α :=
  error .SequenceGap (lit "sequence gap: expected " ++ nat expected ++ lit ", found " ++ nat found)
    [(.expected, expected), (.found, found)]

def insertAll : Dictionary → List DictEntry → Raises Dictionary
  | d, [] => .ok d
  | d, entry :: rest => do insertAll (← d.insert entry) rest

/-- the loop over the events of a chunk, with the sequence number that it ends on -/
def checkEvents (d : Dictionary) : Nat → List EventRecord → Raises Nat
  | expected, [] => .ok expected
  | expected, ev :: rest => do
    if ev.event_sequence ≠ expected then gap expected ev.event_sequence
    _validate_event_refs d ev
    checkEvents d (expected + 1) rest

/-- what a committed chunk adds; a type that is not known adds nothing -/
def take (chunk_type : Nat) (payload : Bytes) (s : Scan) : Raises Scan :=
  if chunk_type = 1 then do
    let entries ← _decode_dict_entries payload
    let dictionary ← insertAll s.dictionary entries
    .ok { s with dictionary }
  else if chunk_type = 2 then do
    let decoded ← _decode_events payload
    let expected_event_seq ← checkEvents s.dictionary s.expected_event_seq decoded
    .ok { s with
      events := s.events ++ decoded
      expected_event_seq }
  else .ok s

/-- one pass of the loop; no scan where it breaks off at a torn tail -/
def chunk (data : Bytes) (s : Scan) : Raises (Option Scan) :=
  let hdr := between data s.offset (s.offset + 24)
  if between hdr 0 4 ≠ chunkMagic then
    if s.offset = 128 then error .InvalidChunkMagic "invalid chunk magic" [] else .ok none
  else do
    let chunk_type ← unpack 2 hdr 4
    let sequence ← unpack 8 hdr 8
    let payload_len ← unpack 4 hdr 16
    let need := 24 + payload_len + 8
    if need > data.length - s.offset then .ok none
    else if payload_len > 16777216 then
      error .PayloadTooLarge
        (lit "payload_len " ++ nat payload_len ++ lit " exceeds max " ++ nat 16777216)
        [(.len, payload_len), (.max, 16777216)]
    else do
      let payload_end := s.offset + 24 + payload_len
      let payload := between data (s.offset + 24) payload_end
      let trailer := between data payload_end (payload_end + 8)
      let checksum ← unpack 4 trailer 0
      let committed ← unpack 4 trailer 4
      if committed ≠ 0xD7C0FFEE then .ok none
      else if checksum ≠ (crc32 payload).toNat then
        error .ChecksumMismatch (lit "checksum mismatch for chunk sequence " ++ nat sequence)
          [(.sequence, sequence)]
      else if sequence ≠ s.expected_chunk_seq then gap s.expected_chunk_seq sequence
      else do
        let taken ← take chunk_type payload
          { s with expected_chunk_seq := s.expected_chunk_seq + 1 }
        .ok (some { taken with offset := s.offset + need })

theorem chunk_some {data : Bytes} {s s' : Scan} (h : chunk data s = .ok (some s')) :
    s.offset + 32 ≤ s'.offset ∧ s'.offset ≤ s.offset + (data.length - s.offset) := by
  simp only [chunk] at h
  split at h
  · split at h <;> cases h
  obtain ⟨chunk_type, _, h⟩ := bind_eq_ok h
  obtain ⟨sequence, _, h⟩ := bind_eq_ok h
  obtain ⟨payload_len, _, h⟩ := bind_eq_ok h
  split at h
  · cases h
  split at h
  · cases h
  obtain ⟨checksum, _, h⟩ := bind_eq_ok h
  obtain ⟨committed, _, h⟩ := bind_eq_ok h
  split at h
  · cases h
  split at h
  · cases h
  split at h
  · cases h
  obtain ⟨taken, _, h⟩ := bind_eq_ok h
  cases h
  show s.offset + 32 ≤ s.offset + (24 + payload_len + 8) ∧ _ ≤ _
  constructor
  · omega
  · show s.offset + (24 + payload_len + 8) ≤ s.offset + (data.length - s.offset)
    omega

/-- the loop, with what it leaves of its locals, and whether it broke off -/
def chunks (data : Bytes) (s : Scan) : Raises (Scan × Bool) :=
  if data.length - s.offset < 32 then .ok (s, false)
  else
    match h : chunk data s with
    | .error e => .error e
    | .ok none => .ok (s, true)
    | .ok (some s') =>
      have := chunk_some h
      chunks data s'
termination_by data.length - s.offset

/-- `open_session`, with what `read_bytes` gave -/
def open_session (read : Raises Bytes) : Raises SessionReader :=
  match read with
  | .error (.OSError text) => error .Io (lit "I/O error: " ++ text) []
  | .error e => .error e
  | .ok data => do
    if data.length < 128 then malformed "file shorter than header"
    let header ← decode_header (between data 0 128)
    let (s, torn_tail) ← chunks data
      { dictionary := ⟨[]⟩
        events := []
        offset := 128
        expected_chunk_seq := 1
        expected_event_seq := 1 }
    .ok
      { header
        dictionary := s.dictionary
        events := s.events
        chunks_committed := s.expected_chunk_seq - 1
        torn_tail := if data.length > s.offset ∧ !torn_tail then true else torn_tail }

end Dtj.Mcp.Native
