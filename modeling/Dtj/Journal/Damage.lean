import Dtj.Journal.Session
import Dtj.Lib.Crc

/-!
# Journals with damaged payloads

`crc32` is a shift register of 32 bits, so a burst that is no longer than that is seen.  Bits are
counted as the register takes them: the lowest bit of a byte is its first one.

* `bits`, `crc32_feed`        `crc32` as the register of `Crc`;
* `crc32_affine`, `crc32_burst`   what follows for the checksums of two payloads;
* `walk_damaged`              the reader comes to the chunk, and tells its number;
* `bursts_seen`               **every short burst in a chunk of a session is reported**.
-/

namespace Dtj
open Wire Checked Crc

/-! ## the register -/

def byteBits (b : UInt8) : List Bool := (List.range 8).map b.toNat.testBit

/-- the bits of a payload, in the order in which they are taken -/
def bits (data : Bytes) : List Bool := data.flatMap byteBits

theorem byteBits_length (b : UInt8) : (byteBits b).length = 8 := by
  rw [byteBits, List.length_map, List.length_range]

theorem bits_length (data : Bytes) : (bits data).length = 8 * data.length := by
  induction data with
  | nil => rfl
  | cons b data ih =>
    rw [bits, List.flatMap_cons, List.length_append, byteBits_length, ← bits, ih, List.length_cons]
    omega

theorem crc32Bit_step (c : UInt32) : (crc32Bit c).toBitVec = step crc32Poly.toBitVec c.toBitVec := by
  have hlow : c &&& 1 ≠ 0 ↔ c.toBitVec.getLsbD 0 = true := by
    rw [Ne, ← UInt32.toNat_inj, UInt32.toNat_and]
    show ¬ c.toNat &&& 1 = 0 ↔ c.toNat.testBit 0 = true
    rw [Nat.and_one_is_mod, Nat.testBit_zero, decide_eq_true_eq]
    omega
  rw [crc32Bit, step]
  by_cases h : c &&& 1 ≠ 0
  · rw [if_pos h, if_pos (hlow.mp h)]
    rfl
  · rw [if_neg h, if_neg (mt hlow.mpr h)]
    rfl

theorem crc32Bit_steps (n : Nat) (c : UInt32) :
    (crc32Bit^[n] c).toBitVec = (step crc32Poly.toBitVec)^[n] c.toBitVec :=
  (Function.Semiconj.iterate_right (f := UInt32.toBitVec) crc32Bit_step n) c

theorem word_byteBits (b : UInt8) : (word (byteBits b) : BitVec 32) = b.toUInt32.toBitVec := by
  apply BitVec.eq_of_getLsbD_eq
  intro i hi
  rw [word_getLsbD _ hi, byteBits, List.getD_eq_getElem?_getD, List.getElem?_map, UInt8.toBitVec_toUInt32,
    BitVec.getLsbD_setWidth]
  by_cases h : i < 8
  · rw [List.getElem?_range h, decide_eq_true hi]
    rfl
  · rw [List.getElem?_eq_none (by rw [List.length_range]; omega), BitVec.getLsbD_of_ge _ i (by omega)]
    simp

theorem crc32Byte_feed (c : UInt32) (b : UInt8) :
    (crc32Byte c b).toBitVec = feed crc32Poly.toBitVec c.toBitVec (byteBits b) := by
  rw [feed_word _ _ (by rw [byteBits_length]; decide), byteBits_length, word_byteBits, crc32Byte,
    crc32Bit_steps, UInt32.toBitVec_xor]

theorem crc32_feed (data : Bytes) :
    (crc32 data).toBitVec = ~~~ feed crc32Poly.toBitVec (0xFFFFFFFF : UInt32).toBitVec (bits data) := by
  have hfold : ∀ c : UInt32, (data.foldl crc32Byte c).toBitVec
      = feed crc32Poly.toBitVec c.toBitVec (bits data) := by
    induction data with
    | nil => exact fun c => rfl
    | cons b data ih =>
      intro c
      rw [List.foldl_cons, ih, crc32Byte_feed, ← feed_append]
      rfl
  rw [crc32, UInt32.toBitVec_not, hfold]

/-- **a short burst changes the checksum** -/
theorem crc32_burst {data data' : Bytes} (h : Burst 32 (bits data) (bits data')) :
    crc32 data' ≠ crc32 data := by
  intro heq
  have hbits := congrArg UInt32.toBitVec heq
  rw [crc32_feed, crc32_feed, BitVec.not_inj] at hbits
  exact feed_burst _ (by decide) _ h hbits

theorem byteBits_xor (a b : UInt8) : byteBits (a ^^^ b) = (byteBits a).zipWith xor (byteBits b) := by
  rw [byteBits, byteBits, byteBits, List.zipWith_map, List.zipWith_self]
  refine List.map_congr_left fun i _ => ?_
  rw [UInt8.toNat_xor, Nat.testBit_xor]

theorem bits_xor (xs ys : Bytes) : bits (xs.zipWith (· ^^^ ·) ys) = (bits xs).zipWith xor (bits ys) := by
  induction xs generalizing ys with
  | nil => rfl
  | cons x xs ih =>
    cases ys with
    | nil =>
      show [] = (bits (x :: xs)).zipWith xor []
      rw [List.zipWith_nil_right]
    | cons y ys =>
      have hlen : (byteBits x).length = (byteBits y).length := by rw [byteBits_length, byteBits_length]
      show byteBits (x ^^^ y) ++ bits (xs.zipWith (· ^^^ ·) ys)
        = (byteBits x ++ bits xs).zipWith xor (byteBits y ++ bits ys)
      rw [List.zipWith_append hlen, byteBits_xor, ih]

/-- **the checksum is affine** -/
theorem crc32_affine {xs ys : Bytes} (h : xs.length = ys.length) :
    crc32 (xs.zipWith (· ^^^ ·) ys) = crc32 xs ^^^ crc32 ys ^^^ crc32 (List.replicate xs.length 0) := by
  have hnot : ∀ x y z : BitVec 32, ~~~(x ^^^ y ^^^ z) = ~~~x ^^^ ~~~y ^^^ ~~~z := by
    intro x y z
    ext i hi
    simp only [BitVec.getElem_not, BitVec.getElem_xor]
    cases x[i] <;> cases y[i] <;> cases z[i] <;> rfl
  have hzeros : bits ((xs.zipWith (· ^^^ ·) ys).zipWith (· ^^^ ·) (List.replicate xs.length 0))
      = bits (xs.zipWith (· ^^^ ·) ys) := by
    have hself : ∀ zs : Bytes, zs.zipWith (· ^^^ ·) (List.replicate zs.length 0) = zs := by
      intro zs
      induction zs with
      | nil => rfl
      | cons z zs ih =>
        show (z ^^^ 0) :: zs.zipWith (· ^^^ ·) (List.replicate zs.length 0) = z :: zs
        rw [UInt8.xor_zero, ih]
    have hall := hself (xs.zipWith (· ^^^ ·) ys)
    rw [List.length_zipWith, ← h, Nat.min_self] at hall
    rw [hall]
  have hlen : (bits xs).length = (bits ys).length := by rw [bits_length, bits_length, h]
  have hlen' : ((bits xs).zipWith xor (bits ys)).length = (bits (List.replicate xs.length 0)).length := by
    rw [List.length_zipWith, ← hlen, Nat.min_self, bits_length, bits_length, List.length_replicate]
  apply UInt32.toBitVec_inj.mp
  generalize hc : (0xFFFFFFFF : UInt32).toBitVec = c
  have hthree : c ^^^ c ^^^ c = c := by rw [BitVec.xor_self, BitVec.zero_xor]
  rw [UInt32.toBitVec_xor, UInt32.toBitVec_xor, crc32_feed, crc32_feed, crc32_feed, crc32_feed, hc, ← hnot,
    ← feed_xor _ c c hlen, ← feed_xor _ (c ^^^ c) c hlen', hthree, ← bits_xor, ← bits_xor, hzeros]

/-! ## the damaged journal -/

/-- other bytes in the place of some -/
def overwrite (s : Bytes) (offset : Nat) (data : Bytes) : Bytes :=
  s.take offset ++ (data ++ s.drop (offset + data.length))

/-- a payload of the same length with another checksum -/
structure Damaged (payload data : Bytes) : Prop where
  length : data.length = payload.length
  checksum : crc32 data ≠ crc32 payload

theorem readChunk_damaged {v : View} {b : Batch} {seq : Nat} {data : Bytes}
    (hmax : b.payload.length ≤ 16777216) (hd : Damaged b.payload data) (t : Bytes) :
    readChunk v (framed (b.header seq) data (crc32 b.payload) t)
      = .error (.checksumMismatch (UInt64.ofNat seq)) := by
  have hlen : (b.header seq).payloadLen.toNat = data.length := by
    show (UInt32.ofNat b.payload.length).toNat = _
    rw [UInt32.toNat_ofNat', Nat.mod_eq_of_lt (by omega), hd.length]
  have hdata : data.length ≤ 16777216 := by
    rw [hd.length]
    exact hmax
  have hf := framed_framed hlen (crc32 b.payload) t
  have haccept : accept v (b.header seq) data (crc32 b.payload)
      = .error (.checksumMismatch (UInt64.ofNat seq)) := if_pos hd.checksum.symm
  unfold readChunk
  rw [hf.len, hf.header, hf.payload, hf.checksum, hf.marker, if_neg (by rw [hf.length]; omega),
    if_neg (not_not.mpr hf.magic), if_neg (by rw [hf.length]; omega), if_neg (not_lt.mpr hdata),
    if_neg (not_not.mpr rfl), haccept]

/-- **the reader comes to the chunk**: those before it are whole -/
theorem walk_damaged {v ve : View} {bs : List Batch} (hr : replay v bs = .ok ve)
    (hbs : ∀ b ∈ bs, b.Committable ∧ b.payload.length ≤ 16777216)
    (hv : v.chunks + bs.length < 2^64) {i : Nat} (hi : i < bs.length) {data : Bytes}
    (hd : Damaged bs[i].payload data) (t : Bytes) :
    walk v (layout (v.chunks + 1) (bs.take i) ++
      framed (bs[i].header (v.chunks + 1 + i)) data (crc32 bs[i].payload) t)
      = .error (.checksumMismatch (UInt64.ofNat (v.chunks + 1 + i))) := by
  induction bs generalizing v i with
  | nil => cases hi
  | cons b bs ih =>
    obtain ⟨v₁, h1, h2⟩ := replay_cons_ok hr
    obtain ⟨hb, hmax⟩ := hbs b (List.mem_cons_self ..)
    rw [List.length_cons] at hv
    cases i with
    | zero =>
      have hread := @readChunk_damaged v b (v.chunks + 1) data hmax hd t
      rw [List.take_zero, layout, List.nil_append]
      exact walk_error hread
    | succ i =>
      have hc := View.add_chunks h1
      have hi' : i < bs.length := Nat.lt_of_succ_lt_succ hi
      rw [List.getElem_cons_succ] at hd ⊢
      have hrest := ih h2 (fun b' hb' => hbs b' (List.mem_cons_of_mem _ hb')) (by omega) hi' hd
      rw [hc, show v.chunks + 1 + 1 + i = v.chunks + 1 + (i + 1) by omega] at hrest
      have hread := @readChunk_raw v b hb hmax (by omega) (layout (v.chunks + 1 + 1) (bs.take i) ++
        framed (bs[i].header (v.chunks + 1 + (i + 1))) data (crc32 bs[i].payload) t)
      rw [h1] at hread
      rw [List.take_succ_cons, layout, List.append_assoc, walk_next hread]
      exact hrest

theorem overwrite_append {pre old data t : Bytes} (h : data.length = old.length) :
    overwrite (pre ++ (old ++ t)) pre.length data = pre ++ (data ++ t) := by
  rw [overwrite, List.take_left' rfl, h, ← List.append_assoc pre old,
    List.drop_left' (List.length_append ..)]

/-- a file that holds the whole of a chunk -/
theorem file_chunk {hdr file : Bytes} {bs : List Batch} (hpart : file <+: hdr ++ layout 1 bs) {i : Nat}
    (hi : i < bs.length) (hwhole : hdr.length + boundary bs (i + 1) ≤ file.length) :
    ∃ t, file = hdr ++ (layout 1 (bs.take i) ++ (bs[i].raw (1 + i) ++ t)) := by
  have hsplit : layout 1 bs = layout 1 (bs.take i) ++
      (bs[i].raw (1 + i) ++ layout (1 + i + 1) (bs.drop (i + 1))) := by
    have happend := layout_append 1 (bs.take i) (bs.drop i)
    rw [List.take_append_drop, List.drop_eq_getElem_cons hi, List.length_take_of_le (by omega)] at happend
    exact happend
  have hlen : (hdr ++ (layout 1 (bs.take i) ++ bs[i].raw (1 + i))).length
      = hdr.length + boundary bs (i + 1) := by
    have hsum : boundary bs (i + 1) = boundary bs i + bs[i].size := by
      rw [boundary, boundary, List.take_succ_eq_append_getElem hi, List.map_append, List.sum_append,
        List.map_singleton, List.sum_singleton]
    rw [List.length_append, List.length_append, layout_length, boundary, List.take_length, Batch.raw_length,
      hsum, boundary, Batch.size]
  obtain ⟨rest, hrest⟩ := hpart
  have hfile : file ++ rest = (hdr ++ (layout 1 (bs.take i) ++ bs[i].raw (1 + i))) ++
      layout (1 + i + 1) (bs.drop (i + 1)) := by
    rw [hrest, hsplit]
    simp only [List.append_assoc]
  obtain ⟨t, ht⟩ : hdr ++ (layout 1 (bs.take i) ++ bs[i].raw (1 + i)) <+: file := by
    refine List.prefix_of_prefix_length_le ⟨_, hfile.symm⟩ ⟨rest, rfl⟩ ?_
    rw [hlen]
    exact hwhole
  refine ⟨t, ?_⟩
  rw [← ht]
  simp only [List.append_assoc]

/-- **a damaged payload is reported as such, with the number of its chunk** -/
theorem open_damaged {hdr file : Bytes} {header : FileHeader} {bs : List Batch} {v : View}
    (he : header.encode = .ok hdr) (hr : replay .empty bs = .ok v)
    (hbs : ∀ b ∈ bs, b.Committable ∧ b.payload.length ≤ 16777216) (hsmall : bs.length < 2^64)
    (hpart : file <+: hdr ++ layout 1 bs) (h64 : file.length < 2^64) {i : Nat} (hi : i < bs.length)
    (hwhole : 128 + boundary bs (i + 1) ≤ file.length) {data : Bytes} (hd : Damaged bs[i].payload data) :
    SessionReader.open (overwrite file (128 + boundary bs i + 24) data)
      = .error (.error (.checksumMismatch (UInt64.ofNat (i + 1)))) := by
  have hhdr := (FileHeader.encode_ok he).1
  obtain ⟨header', hh, -⟩ := FileHeader.headerOf_encode he
  obtain ⟨t, rfl⟩ := file_chunk hpart hi (by rw [hhdr]; exact hwhole)
  have hpre : (hdr ++ (layout 1 (bs.take i) ++ (bs[i].header (1 + i)).raw)).length
      = 128 + boundary bs i + 24 := by
    rw [List.length_append, List.length_append, layout_length, boundary, List.take_length, hhdr,
      ChunkHeader.raw_length, boundary, Nat.add_assoc]
  have hover : overwrite (hdr ++ (layout 1 (bs.take i) ++ (bs[i].raw (1 + i) ++ t)))
      (128 + boundary bs i + 24) data = hdr ++ (layout 1 (bs.take i) ++
        framed (bs[i].header (1 + i)) data (crc32 bs[i].payload) t) := by
    have hput := @overwrite_append (hdr ++ (layout 1 (bs.take i) ++ (bs[i].header (1 + i)).raw))
      bs[i].payload data (le 4 (crc32 bs[i].payload).toNat ++ (le 4 committedMarker.toNat ++ t)) hd.length
    rw [hpre] at hput
    rw [Batch.raw, chunkRaw_append]
    simpa only [framed, List.append_assoc] using hput
  have hlen : (hdr ++ (layout 1 (bs.take i) ++
      framed (bs[i].header (1 + i)) data (crc32 bs[i].payload) t)).length < 2^64 := by
    rw [Batch.raw, chunkRaw_append] at h64
    simp only [framed, List.length_append, hd.length] at h64 ⊢
    exact h64
  rw [hover, open_eq hlen, openOf, if_neg (by rw [List.length_append, hhdr]; omega), List.take_left' hhdr,
    List.drop_left' hhdr, hh]
  dsimp only
  have hwalk := walk_damaged hr hbs (by show 0 + bs.length < 2^64; omega) hi hd t
  rw [show View.empty.chunks + 1 = 1 from rfl] at hwalk
  rw [hwalk, Nat.add_comm 1 i]
  rfl

/-- **Every short burst in a chunk of a session is reported**, whatever calls were made and however the
session ended: the checksum is affine, and no burst of at most 32 bits leaves it as it is -/
theorem bursts_seen {path : String} {header : FileHeader} {d₀ d : Disk} {w : SessionWriter}
    (hc : (SessionWriter.create path header).run d₀ = .ok w d) (ops : List Op) (last : Last) :
    (∀ xs ys : Bytes, xs.length = ys.length → crc32 (xs.zipWith (· ^^^ ·) ys)
      = crc32 xs ^^^ crc32 ys ^^^ crc32 (List.replicate xs.length 0)) ∧
    (∀ xs ys : Bytes, Burst 32 (bits xs) (bits ys) → crc32 ys ≠ crc32 xs) ∧
    ∃ hdr bs file, header.encode = .ok hdr ∧
      ((runOps ops w d).close last).files path = some file ∧
      Written hdr (runOps ops w d) last d₀ bs file ∧
      ((∀ b ∈ bs, b.payload.length ≤ maxChunkPayload.toNat) → file.length < 2^64 →
        ∀ (i : Nat) (hi : i < bs.length), 128 + boundary bs (i + 1) ≤ file.length →
          ∀ data, Burst 32 (bits bs[i].payload) (bits data) →
            SessionReader.open (overwrite file (128 + boundary bs i + 24) data)
              = .error (.error (.checksumMismatch (UInt64.ofNat (i + 1))))) := by
  obtain ⟨hdr, bs, file, he, hfile, hw, hcut⟩ := session_written hc ops last
  obtain ⟨v, hv⟩ := hcut.replayed
  refine ⟨fun _ _ => crc32_affine, fun _ _ => crc32_burst, hdr, bs, file, he, hfile, hw,
    fun hmax h64 i hi hwhole data hburst => ?_⟩
  have hlen := hburst.length
  rw [bits_length, bits_length] at hlen
  exact open_damaged he hv (fun b hb => ⟨(hcut.batches b hb).1, hmax b hb⟩) hcut.small hw.part h64 hi
    hwhole ⟨by omega, crc32_burst hburst⟩

set_option maxRecDepth 20000 in
/-- the same for a session of one event -/
theorem bursts_seen_one :
    (∀ xs ys : Bytes, xs.length = ys.length → crc32 (xs.zipWith (· ^^^ ·) ys)
      = crc32 xs ^^^ crc32 ys ^^^ crc32 (List.replicate xs.length 0)) ∧
    (∀ xs ys : Bytes, Burst 32 (bits xs) (bits ys) → crc32 ys ≠ crc32 xs) ∧
    ∃ hdr bs file, journalHeader.encode = .ok hdr ∧
      ((runOps (exampleOps 7 ++ [.flush]) exampleStart.1 exampleStart.2).close .drop).files "s"
        = some file ∧
      Written hdr (runOps (exampleOps 7 ++ [.flush]) exampleStart.1 exampleStart.2) .drop exampleDisk
        bs file ∧
      ((∀ b ∈ bs, b.payload.length ≤ maxChunkPayload.toNat) → file.length < 2^64 →
        ∀ (i : Nat) (hi : i < bs.length), 128 + boundary bs (i + 1) ≤ file.length →
          ∀ data, Burst 32 (bits bs[i].payload) (bits data) →
            SessionReader.open (overwrite file (128 + boundary bs i + 24) data)
              = .error (.error (.checksumMismatch (UInt64.ofNat (i + 1))))) :=
  bursts_seen exampleStart_run (exampleOps 7 ++ [.flush]) .drop

end Dtj
