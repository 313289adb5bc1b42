import Dtj.Core.Chunk
import Dtj.Core.Dict

/-!
# The session reader

`crates/dtj/src/reader.rs`, on the bytes of the file.  Nothing else writes the file while it is
read, and a read fails only for want of bytes.

* `SessionReader.open`   the source: the header, then `scanChunk` until it says stop;
* `Scan`                 the variables of its loop;
* `validateEventRefs`    the references of one event (`requireRefs` is shared with the writer);
* `refsOf`, `EventRecord.refs`, `Resolves`   which names an event refers to, and that they are there.
-/

namespace Dtj
open Wire Checked

structure SessionReader where
  header : FileHeader
  dictionary : Dictionary
  events : List EventRecord
  chunksCommitted : UInt64
  tornTail : Bool

/-- the fields of a payload name strings of the dictionary -/
def requireFields (d : Dictionary) : List Field → Except Error Unit
  | [] => .ok ()
  | field :: fields => do
    let _ ← d.require .string field.nameId
    match field.value with
    | .internedString sid =>
      let _ ← d.require .string sid
      requireFields d fields
    | _ => requireFields d fields

def requireRefs (d : Dictionary) (domainId categoryId eventNameId correlationId : UInt32)
    (payload : TypedPayload) : Except Error Unit := do
  let _ ← d.require .domain domainId
  let _ ← d.require .category categoryId
  let _ ← d.require .eventName eventNameId
  if correlationId ≠ 0 then
    let _ ← d.require .string correlationId
    requireFields d payload.fields
  else requireFields d payload.fields

def validateEventRefs (d : Dictionary) (ev : EventRecord) : Except Error Unit :=
  requireRefs d ev.domainId ev.categoryId ev.eventNameId ev.correlationId ev.payload

/-- the variables of the loop of `open` -/
structure Scan where
  dictionary : Dictionary
  events : List EventRecord
  offset : Nat
  expectedChunkSeq : UInt64
  expectedEventSeq : UInt64
  tornTail : Bool

/-- `file.read_exact` of `n` bytes at a position -/
def readExact (data : Bytes) (pos n : Nat) : Res Error Bytes :=
  if pos + n ≤ data.length then .ok ((data.drop pos).take n)
  else fail (.io "failed to fill whole buffer")

/-- `for ev in &decoded`: the next sequence number -/
def checkEvents (d : Dictionary) : List EventRecord → UInt64 → Res Error UInt64
  | [], seq => .ok seq
  | ev :: evs, seq => do
    if ev.eventSequence ≠ seq then fail (.sequenceGap seq ev.eventSequence)
    let seq ← incr64 seq
    lift (validateEventRefs d ev)
    checkEvents d evs seq

/-- `24.checked_add(payload_len)?.checked_add(8)?` -/
def chunkNeed (payloadLen : UInt32) : Res Error Nat :=
  if chunkHeaderSize + payloadLen.toNat + chunkTrailerSize < 2^64 then
    .ok (chunkHeaderSize + payloadLen.toNat + chunkTrailerSize)
  else fail (.malformedRecord "chunk size overflow")

/-- the `match` on the type of a committed chunk -/
def acceptChunk (chunkType : UInt16) (payload : Bytes) : Prog Scan Error Unit := do
  let s ← get
  if chunkType = chunkTypeDictionary then
    let entries ← Prog.of (Dictionary.decodeEntries payload)
    let dictionary ← Prog.of (lift (s.dictionary.insertAll entries))
    set { s with dictionary := dictionary }
  else if chunkType = chunkTypeEvent then
    let decoded ← Prog.of (EventRecord.decodeMany payload)
    let seq ← Prog.of (checkEvents s.dictionary decoded s.expectedEventSeq)
    set { s with expectedEventSeq := seq, events := s.events ++ decoded }
  -- unknown and reserved types are skipped

/-- `torn_tail = true; break` -/
def tear : Prog Scan Error Bool := do
  modify fun s => { s with tornTail := true }
  return false

/-- the end of a round: a frame that carries the committed marker -/
def scanCommitted (chunkHdr : ChunkHeader) (payload : Bytes) (checksum : UInt32) (need : Nat) :
    Prog Scan Error Bool := do
  let s ← get
  if checksum ≠ crc32 payload then throw (.error (.checksumMismatch chunkHdr.sequence))
  else if chunkHdr.sequence ≠ s.expectedChunkSeq then
    throw (.error (.sequenceGap s.expectedChunkSeq chunkHdr.sequence))
  else
    let seq ← Prog.of (incr64 s.expectedChunkSeq)
    modify fun s => { s with expectedChunkSeq := seq }
    acceptChunk chunkHdr.chunkType payload
    let offset ← Prog.of (add64 s.offset need)
    modify fun s => { s with offset := offset }
    return true

/-- the middle of a round: a chunk header was read -/
def scanFrame (data : Bytes) (chunkHdr : ChunkHeader) : Prog Scan Error Bool := do
  let s ← get
  let need ← Prog.of (chunkNeed chunkHdr.payloadLen)
  -- a frame that is not all there is torn, whatever length it declares
  if need > data.length - s.offset then tear
  else if chunkHdr.payloadLen > maxChunkPayload then
    throw (.error (.payloadTooLarge chunkHdr.payloadLen maxChunkPayload))
  else
    let pos := s.offset + chunkHeaderSize
    let payload ← Prog.of (readExact data pos chunkHdr.payloadLen.toNat)
    let trailer ← Prog.of (readExact data (pos + chunkHdr.payloadLen.toNat) chunkTrailerSize)
    let checksum ← Prog.of (le32At trailer 0)
    let committed ← Prog.of (le32At trailer 4)
    if committed ≠ committedMarker then tear
    else scanCommitted chunkHdr payload checksum need

/-- one round of the loop of `open`: whether to go on -/
def scanChunk (data : Bytes) : Prog Scan Error Bool := do
  let s ← get
  if data.length - s.offset < chunkHeaderSize + chunkTrailerSize then return false
  else
    let hdrBuf ← Prog.of (readExact data s.offset chunkHeaderSize)
    let magic ← Prog.of (slice hdrBuf 0 4)
    if magic ≠ chunkMagic then
      if s.offset = headerSizeUsize then throw (.error .invalidChunkMagic)
      else tear
    else
      let chunkHdr ← Prog.of (ChunkHeader.decode hdrBuf)
      scanFrame data chunkHdr

def Scan.start : Scan := ⟨Dictionary.new, [], headerSizeUsize, 1, 1, false⟩

/-- the loop of `open` -/
def scan (data : Bytes) : Res Error Scan :=
  match (loop (scanChunk data) data.length).run .start with
  | .ok _ s => .ok s
  | .error e _ => .error e

def SessionReader.open (data : Bytes) : Res Error SessionReader := do
  let headerBuf ← readExact data 0 headerSizeUsize
  let header ← FileHeader.decode headerBuf
  let s ← scan data
  let tornTail := if data.length > s.offset ∧ ¬ s.tornTail then true else s.tornTail
  -- `saturating_sub`
  let chunksCommitted := UInt64.ofNat (s.expectedChunkSeq.toNat - 1)
  .ok ⟨header, s.dictionary, s.events, chunksCommitted, tornTail⟩

/-! ## the references of an event -/

def Field.refs (f : Field) : List (DictKind × UInt32) :=
  (.string, f.nameId) :: match f.value with
    | .internedString sid => [(.string, sid)]
    | _ => []

def refsOf (domainId categoryId eventNameId correlationId : UInt32) (payload : TypedPayload) :
    List (DictKind × UInt32) :=
  [(.domain, domainId), (.category, categoryId), (.eventName, eventNameId)]
    ++ (if correlationId ≠ 0 then [(.string, correlationId)] else [])
    ++ payload.fields.flatMap Field.refs

def EventRecord.refs (ev : EventRecord) : List (DictKind × UInt32) :=
  refsOf ev.domainId ev.categoryId ev.eventNameId ev.correlationId ev.payload

/-- every reference of the list has its name in the dictionary -/
def Resolves (d : Dictionary) (refs : List (DictKind × UInt32)) : Prop :=
  ∀ r ∈ refs, ∃ name, d.getName r.1 r.2 = some name

theorem resolves_cons {d : Dictionary} {r : DictKind × UInt32} {refs : List (DictKind × UInt32)} :
    Resolves d (r :: refs) ↔ (∃ name, d.getName r.1 r.2 = some name) ∧ Resolves d refs := by
  unfold Resolves
  rw [List.forall_mem_cons]

theorem resolves_append {d : Dictionary} {refs refs' : List (DictKind × UInt32)} :
    Resolves d (refs ++ refs') ↔ Resolves d refs ∧ Resolves d refs' := by
  unfold Resolves
  rw [List.forall_mem_append]

theorem resolves_nil (d : Dictionary) : Resolves d [] := fun r hr => by cases hr

/-- a check of one reference, and what comes after it -/
theorem require_bind_ok {d : Dictionary} {kind : DictKind} {id : UInt32}
    {k : String → Except Error Unit} {P : Prop} (hk : ∀ name, k name = .ok () ↔ P) :
    (d.require kind id >>= k) = .ok () ↔ (∃ name, d.getName kind id = some name) ∧ P := by
  unfold Dictionary.require
  cases d.getName kind id with
  | none => simp
  | some name => simp [hk]

theorem requireFields_ok {d : Dictionary} {fields : List Field} :
    requireFields d fields = .ok () ↔ Resolves d (fields.flatMap Field.refs) := by
  induction fields with
  | nil => exact ⟨fun _ => resolves_nil d, fun _ => rfl⟩
  | cons f fields ih =>
    rw [requireFields, List.flatMap_cons, resolves_append, Field.refs, resolves_cons, and_assoc]
    refine require_bind_ok fun _ => ?_
    cases f.value with
    | internedString sid =>
      rw [resolves_cons, and_assoc]
      refine require_bind_ok fun _ => ?_
      rw [ih, and_iff_right (resolves_nil d)]
    | _ =>
      simp only
      rw [ih, and_iff_right (resolves_nil d)]

/-- **the checks of an event succeed exactly when all its references resolve** -/
theorem requireRefs_ok {d : Dictionary} {domainId categoryId eventNameId correlationId : UInt32}
    {payload : TypedPayload} :
    requireRefs d domainId categoryId eventNameId correlationId payload = .ok ()
      ↔ Resolves d (refsOf domainId categoryId eventNameId correlationId payload) := by
  unfold requireRefs refsOf
  rw [List.append_assoc, List.cons_append, List.cons_append, List.cons_append, List.nil_append,
    resolves_cons, resolves_cons, resolves_cons, resolves_append]
  refine require_bind_ok fun _ => require_bind_ok fun _ => require_bind_ok fun _ => ?_
  by_cases h : correlationId ≠ 0
  · rw [if_pos h, if_pos h, resolves_cons, and_assoc, and_iff_right (resolves_nil d)]
    exact require_bind_ok fun _ => requireFields_ok
  · rw [if_neg h, if_neg h, and_iff_right (resolves_nil d)]
    exact requireFields_ok

theorem validateEventRefs_ok {d : Dictionary} {ev : EventRecord} :
    validateEventRefs d ev = .ok () ↔ Resolves d ev.refs := requireRefs_ok

theorem Resolves.mono {d d' : Dictionary} {refs : List (DictKind × UInt32)}
    (hd : ∀ {kind id name}, d.getName kind id = some name → d'.getName kind id = some name)
    (h : Resolves d refs) : Resolves d' refs := by
  intro r hr
  obtain ⟨name, hname⟩ := h r hr
  exact ⟨name, hd hname⟩

/-- why an event was not taken -/
def Error.isRef : Error → Bool
  | .unknownDictionaryId _ _ => true
  | .sessionClosed => true
  | _ => false

theorem require_error {dict : Dictionary} {kind : DictKind} {id : UInt32} {e : Error}
    (h : dict.require kind id = .error e) : e.isRef = true := by
  unfold Dictionary.require at h
  split at h
  · cases h
  · cases h; rfl

/-- a check of one reference fails by itself, or what comes after it does -/
theorem require_bind_error {dict : Dictionary} {kind : DictKind} {id : UInt32}
    {k : String → Except Error Unit} {e : Error} (h : (dict.require kind id >>= k) = .error e)
    (hk : ∀ name, k name = .error e → e.isRef = true) : e.isRef = true := by
  cases hr : dict.require kind id with
  | error e' =>
    rw [hr] at h
    cases h
    exact require_error hr
  | ok name =>
    rw [hr, ok_bind] at h
    exact hk name h

theorem requireFields_error {dict : Dictionary} {fields : List Field} {e : Error}
    (h : requireFields dict fields = .error e) : e.isRef = true := by
  induction fields with
  | nil => cases h
  | cons f fields ih =>
    rw [requireFields] at h
    refine require_bind_error h fun _ h => ?_
    split at h
    · exact require_bind_error h fun _ h => ih h
    · exact ih h

theorem requireRefs_error {dict : Dictionary} {domainId categoryId eventNameId correlationId : UInt32}
    {payload : TypedPayload} {e : Error}
    (h : requireRefs dict domainId categoryId eventNameId correlationId payload = .error e) :
    e.isRef = true := by
  unfold requireRefs at h
  refine require_bind_error h fun _ h => require_bind_error h fun _ h =>
    require_bind_error h fun _ h => ?_
  split at h
  · exact require_bind_error h fun _ h => requireFields_error h
  · exact requireFields_error h

end Dtj
