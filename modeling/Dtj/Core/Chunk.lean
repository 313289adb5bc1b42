import Dtj.Core.Header

/-!
# Chunks and their checksum

`crates/dtj/src/crc32.rs` and `crates/dtj/src/chunk.rs`.

* `crc32`, `ChunkHeader.encode`, `ChunkHeader.decode`, `encodeCommittedChunk`   the source;
* `ChunkHeader.decode_eq`        the decoder without its slices;
* `ChunkHeader.raw`, `chunkRaw`  the bytes of a chunk that is committed;
* `encodeCommittedChunk_ok`      the limit is checked after the cast to `u32`.
-/

namespace Dtj
open Wire Checked

/-! ## CRC-32 ISO-HDLC (reflected polynomial `0xEDB88320`) -/

def crc32Poly : UInt32 := 0xEDB88320

def crc32Bit (crc : UInt32) : UInt32 :=
  if crc &&& 1 ≠ 0 then (crc >>> 1) ^^^ crc32Poly else crc >>> 1

/-- the body of the outer loop: one byte, eight bits -/
def crc32Byte (crc : UInt32) (b : UInt8) : UInt32 := crc32Bit^[8] (crc ^^^ b.toUInt32)

def crc32 (data : Bytes) : UInt32 := ~~~ (data.foldl crc32Byte 0xFFFFFFFF)

/-- the check value of the standard, for the bytes of `123456789` -/
example : crc32 [0x31, 0x32, 0x33, 0x34, 0x35, 0x36, 0x37, 0x38, 0x39] = 0xCBF43926 := by
  decide +kernel

/-! ## the source -/

structure ChunkHeader where
  chunkType : UInt16
  sequence : UInt64
  payloadLen : UInt32
deriving DecidableEq, Repr

def ChunkHeader.encode (h : ChunkHeader) : Res Error Bytes := do
  let buf := List.replicate 24 (0 : UInt8)
  let buf ← putAt buf 0 chunkMagic
  let buf ← putAt buf 4 (le 2 h.chunkType.toNat)
  let buf ← putAt buf 6 (le 2 0)
  let buf ← putAt buf 8 (le 8 h.sequence.toNat)
  let buf ← putAt buf 16 (le 4 h.payloadLen.toNat)
  putAt buf 20 (le 4 0)

def ChunkHeader.decode (buf : Bytes) : Res Error ChunkHeader := do
  if buf.length < chunkHeaderSize then fail (.malformedRecord "chunk header truncated")
  if (← slice buf 0 4) ≠ chunkMagic then fail .invalidChunkMagic
  let chunkType ← le16At buf 4
  let sequence ← slice buf 8 16 >>= fromLe 8
  let payloadLen ← slice buf 16 20 >>= fromLe 4
  .ok ⟨chunkType, UInt64.ofNat sequence, UInt32.ofNat payloadLen⟩

def encodeCommittedChunk (chunkType : UInt16) (sequence : UInt64) (payload : Bytes) :
    Res Error Bytes := do
  if UInt32.ofNat payload.length > maxChunkPayload then
    fail (.payloadTooLarge (UInt32.ofNat payload.length) maxChunkPayload)
  let header : ChunkHeader := ⟨chunkType, sequence, UInt32.ofNat payload.length⟩
  let out ← header.encode
  .ok (out ++ payload ++ le 4 (crc32 payload).toNat ++ le 4 committedMarker.toNat)

/-! ## the bytes of a chunk -/

def ChunkHeader.raw (h : ChunkHeader) : Bytes :=
  chunkMagic ++ (le 2 h.chunkType.toNat ++ (le 2 0 ++ (le 8 h.sequence.toNat ++
    (le 4 h.payloadLen.toNat ++ le 4 0))))

@[simp] theorem ChunkHeader.raw_length (h : ChunkHeader) : h.raw.length = 24 := by
  simp [ChunkHeader.raw]

theorem ChunkHeader.encode_eq (h : ChunkHeader) : h.encode = .ok h.raw := by
  have p0 : (putAt (List.replicate 24 0) 0 chunkMagic : Res Error Bytes)
      = .ok (chunkMagic ++ List.replicate 20 0) := @putAt_zeros Error [] chunkMagic 0 20 rfl
  unfold ChunkHeader.encode
  dsimp only
  rw [p0, ok_bind, putAt_fill 18 (by simp) (by simp), ok_bind, putAt_fill 16 (by simp) (by simp),
    ok_bind, putAt_fill 8 (by simp) (by simp), ok_bind, putAt_fill 4 (by simp) (by simp), ok_bind,
    putAt_fill 0 (by simp) (by simp)]
  simp only [ChunkHeader.raw, List.append_assoc, List.replicate_zero, List.append_nil]

/-- the header in the first 24 bytes -/
def headerAt (s : Bytes) : ChunkHeader :=
  ⟨UInt16.ofNat (leAt s 4 2), UInt64.ofNat (leAt s 8 8), UInt32.ofNat (leAt s 16 4)⟩

theorem headerAt_raw (h : ChunkHeader) (t : Bytes) : headerAt (h.raw ++ t) = h := by
  unfold headerAt ChunkHeader.raw
  simp only [List.append_assoc]
  simp (disch := simp [chunkMagic]) only [leAt_skip, le_length, chunkMagic_length, Nat.reduceSub, uint64_le,
    uint32_le]
  rw [leAt_head 2 _ _ h.chunkType.toNat_lt, UInt16.ofNat_toNat]

theorem headerAt_take {s : Bytes} {k : Nat} (h : 24 ≤ k) : headerAt (s.take k) = headerAt s := by
  unfold headerAt
  rw [leAt_take (by omega), leAt_take (by omega), leAt_take (by omega)]

theorem headerAt_payloadLen (s : Bytes) : (headerAt s).payloadLen.toNat = leAt s 16 4 :=
  toNat_leAt4 s 16

theorem headerAt_append {s : Bytes} (t : Bytes) (h : 24 ≤ s.length) :
    headerAt (s ++ t) = headerAt s := by
  unfold headerAt
  rw [leAt_append_left t (by omega), leAt_append_left t (by omega), leAt_append_left t (by omega)]

/-- **the decoder of a chunk header never panics** -/
theorem ChunkHeader.decode_eq (buf : Bytes) : ChunkHeader.decode buf
    = if buf.length < 24 then fail (.malformedRecord "chunk header truncated")
      else if windowAt buf 0 4 ≠ chunkMagic then fail .invalidChunkMagic
      else .ok (headerAt buf) := by
  unfold ChunkHeader.decode
  by_cases h : buf.length < 24
  · rw [if_pos h]
    show (if buf.length < 24 then _ else _) = _
    rw [if_pos h]; rfl
  have hle : ¬ buf.length < chunkHeaderSize := h
  rw [if_neg hle, if_neg h, slice_windowAt 4 rfl (by omega), ok_bind]
  by_cases hmagic : windowAt buf 0 4 = chunkMagic
  swap
  · rw [if_pos hmagic, if_pos hmagic]; rfl
  have hseq : (slice buf 8 16 >>= fromLe 8 : Res Error Nat) = .ok (leAt buf 8 8) :=
    slice_fromLe rfl (by omega)
  have hlen : (slice buf 16 20 >>= fromLe 4 : Res Error Nat) = .ok (leAt buf 16 4) :=
    slice_fromLe rfl (by omega)
  rw [if_neg (not_not.mpr hmagic), if_neg (not_not.mpr hmagic), le16At_eq (by omega)]
  simp only [ok_bind, hseq, hlen]
  rfl

/-- header, payload, checksum, marker -/
def chunkRaw (h : ChunkHeader) (payload : Bytes) : Bytes :=
  h.raw ++ (payload ++ (le 4 (crc32 payload).toNat ++ le 4 committedMarker.toNat))

theorem chunkRaw_length (h : ChunkHeader) (payload : Bytes) :
    (chunkRaw h payload).length = 32 + payload.length := by
  simp only [chunkRaw, List.length_append, ChunkHeader.raw_length, le_length]
  omega

theorem windowAt_left {xs s : Bytes} {i n : Nat} (hi : xs.length = i) :
    windowAt (xs ++ s) i n = s.take n := by
  rw [windowAt, List.drop_left' hi]

/-- a chunk with some checksum, and what follows it -/
def framed (h : ChunkHeader) (payload : Bytes) (checksum : UInt32) (t : Bytes) : Bytes :=
  h.raw ++ (payload ++ (le 4 checksum.toNat ++ (le 4 committedMarker.toNat ++ t)))

theorem chunkRaw_append (h : ChunkHeader) (payload t : Bytes) :
    chunkRaw h payload ++ t = framed h payload (crc32 payload) t := by
  simp only [chunkRaw, framed, List.append_assoc]

/-- the parts of a chunk, as the reader finds them -/
structure Framed (s : Bytes) (h : ChunkHeader) (data : Bytes) (sum : UInt32) (t : Bytes) : Prop where
  length : s.length = 32 + data.length + t.length
  magic : windowAt s 0 4 = chunkMagic
  header : headerAt s = h
  len : leAt s 16 4 = data.length
  payload : windowAt s 24 data.length = data
  checksum : UInt32.ofNat (leAt s (24 + data.length) 4) = sum
  marker : leAt s (28 + data.length) 4 = committedMarker.toNat
  rest : s.drop (32 + data.length) = t

theorem framed_framed {h : ChunkHeader} {payload : Bytes} (hlen : h.payloadLen.toNat = payload.length)
    (checksum : UInt32) (t : Bytes) :
    Framed (framed h payload checksum t) h payload checksum t where
  length := by
    simp only [framed, List.length_append, ChunkHeader.raw_length, le_length]
    omega
  magic := rfl
  header := headerAt_raw h _
  len := by rw [← headerAt_payloadLen, framed, headerAt_raw, hlen]
  payload := by rw [framed, windowAt_left (ChunkHeader.raw_length _), List.take_left' rfl]
  checksum := by
    rw [framed, leAt_skip (by simp), ChunkHeader.raw_length, Nat.add_sub_cancel_left,
      leAt_skip (le_refl _), Nat.sub_self, uint32_le]
  marker := by
    rw [framed, leAt_skip (by simp; omega), ChunkHeader.raw_length, leAt_skip (by omega),
      leAt_skip (by rw [le_length]; omega), le_length,
      show 28 + payload.length - 24 - payload.length - 4 = 0 by omega]
    exact leAt_head 4 _ _ committedMarker.toNat_lt
  rest := by
    have hsplit : framed h payload checksum t
        = (h.raw ++ (payload ++ (le 4 checksum.toNat ++ le 4 committedMarker.toNat))) ++ t := by
      simp only [framed, List.append_assoc]
    rw [hsplit, List.drop_left']
    simp only [List.length_append, ChunkHeader.raw_length, le_length]
    omega

/-- **a chunk is committed when its length, cast to `u32`, is within the limit** -/
theorem encodeCommittedChunk_ok {ty : UInt16} {seq : UInt64} {payload out : Bytes} :
    encodeCommittedChunk ty seq payload = .ok out ↔ payload.length % 2^32 ≤ 16777216 ∧
      out = chunkRaw ⟨ty, seq, UInt32.ofNat payload.length⟩ payload := by
  have hmax : UInt32.ofNat payload.length > maxChunkPayload ↔ 16777216 < payload.length % 2^32 := by
    rw [gt_iff_lt, UInt32.lt_iff_toNat_lt, UInt32.toNat_ofNat']; rfl
  unfold encodeCommittedChunk
  by_cases h : 16777216 < payload.length % 2^32
  · rw [if_pos (hmax.mpr h)]
    constructor
    · intro e; cases e
    · rintro ⟨h', _⟩; omega
  · rw [if_neg (mt hmax.mp h)]
    simp only [ChunkHeader.encode_eq, ok_bind, List.append_assoc]
    constructor
    · intro e; cases e; exact ⟨not_lt.mp h, rfl⟩
    · rintro ⟨_, rfl⟩; rfl

/-- a chunk that is refused is refused for its length, never with a panic -/
theorem encodeCommittedChunk_error {ty : UInt16} {seq : UInt64} {payload : Bytes}
    {e : Abort Error} (h : encodeCommittedChunk ty seq payload = .error e) :
    e = .error (.payloadTooLarge (UInt32.ofNat payload.length) maxChunkPayload) := by
  unfold encodeCommittedChunk at h
  split at h
  · cases h; rfl
  · simp only [ChunkHeader.encode_eq, ok_bind] at h
    cases h

end Dtj
