import Dtj.Core.Reader
import Dtj.Sys.Disk

/-!
# The session writer

`crates/dtj/src/writer.rs`.  A call that fails keeps what it changed before; a writer that is
dropped writes its file buffer, and nothing of its pending entries and events.

* `SessionWriter.create`, `intern`, `appendEvent`, `flushChunk`, `finish`   the source;
* `SessionWriter.dropped`   the disk after the writer is dropped.
-/

namespace Dtj
open Wire Checked

structure AppendEvent where
  monotonicNs : UInt64
  domainId : UInt32
  categoryId : UInt32
  eventNameId : UInt32
  correlationId : UInt32
  severity : Severity
  payload : TypedPayload
deriving DecidableEq, Repr

structure SessionWriter where
  file : BufWriter
  header : FileHeader
  dictionary : Dictionary
  pendingDict : List DictEntry
  pendingEvents : List EventRecord
  nextChunkSeq : UInt64
  nextEventSeq : UInt64
  finished : Bool

/-- a method of the writer -/
abbrev WriterM (α : Type) := Prog (SessionWriter × Disk) Error α

namespace SessionWriter

/-- a call on `self.file` -/
def onFile {α : Type} (p : Prog (BufWriter × Disk) Error α) : WriterM α := fun (w, d) =>
  match p.run (w.file, d) with
  | .ok a (f, d) => .ok a ({ w with file := f }, d)
  | .error e (f, d) => .error e ({ w with file := f }, d)

/-- a call on `self.dictionary` -/
def onDictionary {α : Type} (p : Prog Dictionary Error α) : WriterM α := fun (w, d) =>
  match p.run w.dictionary with
  | .ok a dict => .ok a ({ w with dictionary := dict }, d)
  | .error e dict => .error e ({ w with dictionary := dict }, d)

def update (f : SessionWriter → SessionWriter) : WriterM Unit := modify fun (w, d) => (f w, d)

theorem onFile_run {α : Type} (p : Prog (BufWriter × Disk) Error α) (w : SessionWriter) (d : Disk) :
    (onFile p).run (w, d) = match p.run (w.file, d) with
      | .ok a (f, d) => .ok a ({ w with file := f }, d)
      | .error e (f, d) => .error e ({ w with file := f }, d) := rfl

theorem onDictionary_run {α : Type} (p : Prog Dictionary Error α) (w : SessionWriter) (d : Disk) :
    (onDictionary p).run (w, d) = match p.run w.dictionary with
      | .ok a dict => .ok a ({ w with dictionary := dict }, d)
      | .error e dict => .error e ({ w with dictionary := dict }, d) := rfl

@[simp] theorem update_run (f : SessionWriter → SessionWriter) (w : SessionWriter) (d : Disk) :
    (update f).run (w, d) = .ok () (f w, d) := rfl

/-- `file.write_all(&header.encode())?; file.flush()?` -/
def writeHeader (header : FileHeader) : Prog (BufWriter × Disk) Error Unit := do
  let bytes ← Prog.of header.encode
  BufWriter.writeAll bytes
  BufWriter.flush

/-- the writer of a new file -/
def fresh (file : BufWriter) (header : FileHeader) : SessionWriter where
  file := file
  header := header
  dictionary := Dictionary.new
  pendingDict := []
  pendingEvents := []
  nextChunkSeq := 1
  nextEventSeq := 1
  finished := false

/-- a call on a new file, which is dropped when the call fails -/
def onNew (p : Prog (BufWriter × Disk) Error Unit) (header : FileHeader) (file : BufWriter) :
    Prog Disk Error SessionWriter := fun d =>
  match p.run (file, d) with
  | .error e (file, d) => .error e (file.dropped d)
  | .ok _ (file, d) => .ok (fresh file header) d

theorem onNew_run (p : Prog (BufWriter × Disk) Error Unit) (header : FileHeader) (file : BufWriter)
    (d : Disk) : (onNew p header file).run d = match p.run (file, d) with
      | .error e (file, d) => .error e (file.dropped d)
      | .ok _ (file, d) => .ok (fresh file header) d := rfl

def openNew (path : String) (header : FileHeader) : Prog Disk Error SessionWriter := do
  let file ← BufWriter.create path
  onNew (writeHeader header) header file

def create (path : String) (header : FileHeader) : Prog Disk Error SessionWriter :=
  openNew path header

def ensureOpen : WriterM Unit := do
  let (w, _) ← get
  if w.finished then throw (.error .sessionClosed) else return ()

def intern (kind : DictKind) (name : String) : WriterM UInt32 := do
  ensureOpen
  let (id, newly) ← onDictionary (Dictionary.intern kind name)
  if newly then
    update fun w => { w with pendingDict := w.pendingDict ++ [⟨kind, id, name⟩] }
    return id
  else return id

def internDomain (name : String) : WriterM UInt32 := intern .domain name
def internCategory (name : String) : WriterM UInt32 := intern .category name
def internEventName (name : String) : WriterM UInt32 := intern .eventName name
def internString (name : String) : WriterM UInt32 := intern .string name

/-- a payload, when its encoder accepts it, as the next committed chunk of the file -/
def commitChunk (chunkType : UInt16) (payload : Except Error Bytes) : WriterM Unit := do
  let (w, _) ← get
  let payload ← Prog.of (lift payload)
  let bytes ← Prog.of (encodeCommittedChunk chunkType w.nextChunkSeq payload)
  onFile (BufWriter.writeAll bytes)
  let seq ← Prog.of (incr64 w.nextChunkSeq)
  update fun w => { w with nextChunkSeq := seq }

/-- the first half of `flush_chunk` -/
def flushDict : WriterM Unit := do
  let (w, _) ← get
  if w.pendingDict ≠ [] then
    commitChunk chunkTypeDictionary (Dictionary.encodeEntries w.pendingDict)
    update fun w => { w with pendingDict := [] }
  else return ()

/-- the second half of `flush_chunk` -/
def flushEvents : WriterM Unit := do
  let (w, _) ← get
  if w.pendingEvents ≠ [] then
    commitChunk chunkTypeEvent (EventRecord.encode w.pendingEvents)
    update fun w => { w with pendingEvents := [] }
  else return ()

def flushChunk : WriterM Unit := do
  ensureOpen
  flushDict
  flushEvents
  onFile BufWriter.flush

def appendEvent (event : AppendEvent) : WriterM UInt64 := do
  ensureOpen
  let (w, _) ← get
  Prog.of (lift (requireRefs w.dictionary event.domainId event.categoryId event.eventNameId
    event.correlationId event.payload))
  let eventSequence := w.nextEventSeq
  let seq ← Prog.of (incr64 w.nextEventSeq)
  update fun w => { w with
    nextEventSeq := seq
    pendingEvents := w.pendingEvents ++ [⟨event.monotonicNs, eventSequence, event.domainId,
      event.categoryId, event.eventNameId, event.correlationId, event.severity, event.payload⟩] }
  if UInt32.ofNat (w.pendingEvents.length + 1) ≥ maxEventsPerChunk then
    flushChunk
    return eventSequence
  else return eventSequence

def finish : WriterM Unit := do
  let (w, _) ← get
  if w.finished then throw (.error .sessionClosed)
  else
    flushChunk
    onFile BufWriter.flush
    update fun w => { w with finished := true }

def pendingEventsLen (w : SessionWriter) : Nat := w.pendingEvents.length

/-- the disk after the writer is dropped -/
def dropped (w : SessionWriter) (d : Disk) : Disk := w.file.dropped d

end SessionWriter

end Dtj
