import Dtj.Core.Reader

/-!
# Reading a journal, chunk by chunk

What `SessionReader.open` does to the bytes behind the header, without its offsets: `readChunk`
decides about the first chunk of a byte string, `walk` goes on with the rest.

* `View`                  what has been read so far;
* `absorb`                a committed chunk, added to a view;
* `walk_next`, `walk_done`, `walk_error`, `walk_induction`   one step of `walk`, and its induction.
-/

namespace Dtj
open Wire Checked

structure View where
  dictionary : Dictionary
  events : List EventRecord
  chunks : Nat

def View.empty : View := ⟨Dictionary.new, [], 0⟩

/-- the events of a chunk carry on the numbering and name entries of the dictionary -/
def checkAll (d : Dictionary) : Nat → List EventRecord → Except Error Unit
  | _, [] => .ok ()
  | n, ev :: evs =>
    if ev.eventSequence.toNat ≠ n then .error (.sequenceGap (UInt64.ofNat n) ev.eventSequence)
    else match validateEventRefs d ev with
      | .error e => .error e
      | .ok _ => checkAll d (n + 1) evs

/-- one committed chunk -/
def absorb (v : View) (ty : UInt16) (payload : Bytes) : Except Error View :=
  if ty = 1 then do
    let entries ← entriesOf payload
    let d ← v.dictionary.insertAll entries
    .ok ⟨d, v.events, v.chunks + 1⟩
  else if ty = 2 then do
    let decoded ← eventsOf payload
    checkAll v.dictionary (v.events.length + 1) decoded
    .ok ⟨v.dictionary, v.events ++ decoded, v.chunks + 1⟩
  else .ok ⟨v.dictionary, v.events, v.chunks + 1⟩

/-- a chunk that carries the committed marker: checksum, number, content -/
def accept (v : View) (h : ChunkHeader) (payload : Bytes) (checksum : UInt32) : Except Error View :=
  if checksum ≠ crc32 payload then .error (.checksumMismatch h.sequence)
  else if h.sequence.toNat ≠ v.chunks + 1 then
    .error (.sequenceGap (UInt64.ofNat (v.chunks + 1)) h.sequence)
  else absorb v h.chunkType payload

/-- what the first chunk of a byte string decides -/
inductive Step where
  | done (torn : Bool)
  | next (v : View) (rest : Bytes)

def readChunk (v : View) (s : Bytes) : Except Error Step :=
  if s.length < 32 then .ok (.done (decide (0 < s.length)))
  else if windowAt s 0 4 ≠ chunkMagic then
    if v.chunks = 0 then .error .invalidChunkMagic else .ok (.done true)
  else if s.length < 32 + leAt s 16 4 then .ok (.done true)
  else if 16777216 < leAt s 16 4 then
    .error (.payloadTooLarge (UInt32.ofNat (leAt s 16 4)) maxChunkPayload)
  else if leAt s (28 + leAt s 16 4) 4 ≠ committedMarker.toNat then .ok (.done true)
  else match accept v (headerAt s) (windowAt s 24 (leAt s 16 4))
      (UInt32.ofNat (leAt s (24 + leAt s 16 4) 4)) with
    | .error e => .error e
    | .ok v' => .ok (.next v' (s.drop (32 + leAt s 16 4)))

theorem accept_ok {v v' : View} {h : ChunkHeader} {payload : Bytes} {checksum : UInt32} :
    accept v h payload checksum = .ok v' ↔ checksum = crc32 payload ∧
      h.sequence.toNat = v.chunks + 1 ∧ absorb v h.chunkType payload = .ok v' := by
  unfold accept
  by_cases hc : checksum = crc32 payload
  · by_cases hs : h.sequence.toNat = v.chunks + 1
    · simp [hc, hs]
    · simp [hc, hs]
  · simp [hc]

/-- a chunk that was accepted: all there, within the limit, sealed, in order -/
theorem readChunk_next {v v' : View} {s r : Bytes} (h : readChunk v s = .ok (.next v' r)) :
    32 + leAt s 16 4 ≤ s.length ∧ leAt s 16 4 ≤ 16777216 ∧ r = s.drop (32 + leAt s 16 4) ∧
      accept v (headerAt s) (windowAt s 24 (leAt s 16 4))
        (UInt32.ofNat (leAt s (24 + leAt s 16 4) 4)) = .ok v' := by
  unfold readChunk at h
  split at h
  · cases h
  split at h
  · split at h <;> cases h
  split at h
  · cases h
  split at h
  · cases h
  split at h
  · cases h
  cases ha : accept v (headerAt s) (windowAt s 24 (leAt s 16 4))
    (UInt32.ofNat (leAt s (24 + leAt s 16 4) 4)) with
  | error e => rw [ha] at h; cases h
  | ok v₁ =>
    rw [ha] at h
    cases h
    exact ⟨by omega, by omega, rfl, rfl⟩

theorem readChunk_lt {v v' : View} {s r : Bytes} (h : readChunk v s = .ok (.next v' r)) :
    r.length + 32 ≤ s.length := by
  obtain ⟨hlen, _, rfl, _⟩ := readChunk_next h
  rw [List.length_drop]
  omega

/-- all chunks from the front on; the view, and whether the tail is torn -/
def walk (v : View) (s : Bytes) : Except Error (View × Bool) :=
  match h : readChunk v s with
  | .error e => .error e
  | .ok (.done torn) => .ok (v, torn)
  | .ok (.next v' r) =>
    have := readChunk_lt h
    walk v' r
termination_by s.length

theorem walk_error {v : View} {s : Bytes} {e : Error} (h : readChunk v s = .error e) :
    walk v s = .error e := by
  rw [walk]
  split
  · rename_i h'; rw [h] at h'; cases h'; rfl
  · rename_i h'; rw [h] at h'; cases h'
  · rename_i h'; rw [h] at h'; cases h'

theorem walk_done {v : View} {s : Bytes} {torn : Bool} (h : readChunk v s = .ok (.done torn)) :
    walk v s = .ok (v, torn) := by
  rw [walk]
  split
  · rename_i h'; rw [h] at h'; cases h'
  · rename_i h'; rw [h] at h'; cases h'; rfl
  · rename_i h'; rw [h] at h'; cases h'

theorem walk_next {v v' : View} {s r : Bytes} (h : readChunk v s = .ok (.next v' r)) :
    walk v s = walk v' r := by
  rw [walk]
  split
  · rename_i h'; rw [h] at h'; cases h'
  · rename_i h'; rw [h] at h'; cases h'
  · rename_i h'; rw [h] at h'; cases h'; rfl

/-- **the induction of `walk`**: on the chunks that it accepts -/
theorem walk_induction {P : View → Bytes → Prop}
    (error : ∀ v s e, readChunk v s = .error e → P v s)
    (done : ∀ v s torn, readChunk v s = .ok (.done torn) → P v s)
    (next : ∀ v s v' r, readChunk v s = .ok (.next v' r) → P v' r → P v s) :
    ∀ v s, P v s := by
  intro v s
  induction hn : s.length using Nat.strong_induction_on generalizing v s with
  | _ n ih =>
    cases h : readChunk v s with
    | error e => exact error v s e h
    | ok st =>
      cases st with
      | done torn => exact done v s torn h
      | next v' r =>
        have hlt := readChunk_lt h
        exact next v s v' r h (ih r.length (by omega) v' r rfl)

end Dtj
