import Dtj.Core.Format

/-!
# The file header

`crates/dtj/src/header.rs`.  The fields of `FileHeader` are public, so a header need not have
passed `FileHeader.create`; `encode` panics when a name does not fit into the 128 bytes.

* `FileHeader.create`, `encode`, `decode`   the source (`create` is its `new`);
* `headerOf`, `FileHeader.decode_eq`        the decoder without its slices;
* `FileHeader.encode_ok`                    what `encode` writes, when it does not panic;
* `FileHeader.headerOf_encode`              a header that was written is accepted and read back;
* `FileHeader.encode_create`                a header from `create` is written without a panic.
-/

namespace Dtj
open Wire Checked

/-- `[u8; 16]` -/
abbrev SessionId := { bs : Bytes // bs.length = 16 }

structure FileHeader where
  formatVersion : UInt16
  flags : UInt32
  sessionId : SessionId
  startUtcUnixMs : Int64
  monoOriginNs : UInt64
  producerName : String
  producerVersion : String
deriving DecidableEq, Repr

/-! ## the source -/

def FileHeader.create (sessionId : SessionId) (startUtcUnixMs : Int64) (monoOriginNs : UInt64)
    (producerName producerVersion : String) : Except Error FileHeader :=
  if (utf8 producerName).length > 32 then
    .error (.limitExceeded "producer_name longer than 32 bytes")
  else if (utf8 producerVersion).length > 16 then
    .error (.limitExceeded "producer_version longer than 16 bytes")
  else .ok ⟨Dtj.formatVersion, 0, sessionId, startUtcUnixMs, monoOriginNs, producerName,
    producerVersion⟩

/-- the bytes `0..48` that every header starts with -/
def FileHeader.fixed (h : FileHeader) : Bytes :=
  fileMagic ++ (le 2 Dtj.formatVersion.toNat ++ (le 2 headerSize.toNat ++ (le 4 endianMagic.toNat ++
    (le 4 h.flags.toNat ++ (h.sessionId.1 ++ (le 8 h.startUtcUnixMs.toUInt64.toNat ++
      le 8 h.monoOriginNs.toNat))))))

def FileHeader.encode (h : FileHeader) : Res Error Bytes := do
  let buf := List.replicate 128 (0 : UInt8)
  let buf ← putAt buf 0 fileMagic
  let buf ← putAt buf 4 (le 2 Dtj.formatVersion.toNat)
  let buf ← putAt buf 6 (le 2 headerSize.toNat)
  let buf ← putAt buf 8 (le 4 endianMagic.toNat)
  let buf ← putAt buf 12 (le 4 h.flags.toNat)
  let buf ← putAt buf 16 h.sessionId.1
  let buf ← putAt buf 32 (le 8 h.startUtcUnixMs.toUInt64.toNat)
  let buf ← putAt buf 40 (le 8 h.monoOriginNs.toNat)
  let buf ← putAt buf 48 (utf8 h.producerName)
  putAt buf 80 (utf8 h.producerVersion)

def nulTerminated (bytes : Bytes) : String := fromUtf8Lossy (bytes.takeWhile (· != 0))

/-- `session_id.copy_from_slice(bs)` -/
def toSessionId {ε : Type} (bs : Bytes) : Res ε SessionId :=
  if h : bs.length = 16 then .ok ⟨bs, h⟩ else crash

def FileHeader.decode (buf : Bytes) : Res Error FileHeader := do
  if buf.length < headerSizeUsize then fail (.malformedRecord "file shorter than header")
  if (← slice buf 0 4) ≠ fileMagic then fail .invalidMagic
  let version ← le16At buf 4
  if version ≠ Dtj.formatVersion then fail (.unsupportedVersion version)
  let size ← le16At buf 6
  if size ≠ headerSize then fail (.invalidHeaderSize size)
  if (← slice buf 8 12) ≠ le 4 endianMagic.toNat then fail .invalidEndian
  let flags ← slice buf 12 16 >>= fromLe 4
  let sessionId ← slice buf 16 32 >>= toSessionId
  let startUtcUnixMs ← slice buf 32 40 >>= fromLe 8
  let monoOriginNs ← slice buf 40 48 >>= fromLe 8
  let name ← slice buf 48 80
  let version' ← slice buf 80 96
  .ok ⟨version, UInt32.ofNat flags, sessionId, (UInt64.ofNat startUtcUnixMs).toInt64,
    UInt64.ofNat monoOriginNs, nulTerminated name, nulTerminated version'⟩

/-! ## the decoder without its slices -/

def windowAt (s : Bytes) (i n : Nat) : Bytes := (s.drop i).take n

def sessionIdOf (s : Bytes) (h : 128 ≤ s.length) : SessionId :=
  ⟨windowAt s 16 16, by rw [windowAt, List.length_take, List.length_drop]; omega⟩

def headerFields (s : Bytes) (h : 128 ≤ s.length) : FileHeader :=
  ⟨UInt16.ofNat (leAt s 4 2), UInt32.ofNat (leAt s 12 4), sessionIdOf s h,
    (UInt64.ofNat (leAt s 32 8)).toInt64, UInt64.ofNat (leAt s 40 8),
    nulTerminated (windowAt s 48 32), nulTerminated (windowAt s 80 16)⟩

def headerOf (s : Bytes) : Except Error FileHeader :=
  if h : s.length < 128 then .error (.malformedRecord "file shorter than header")
  else if windowAt s 0 4 ≠ fileMagic then .error .invalidMagic
  else if UInt16.ofNat (leAt s 4 2) ≠ formatVersion then
    .error (.unsupportedVersion (UInt16.ofNat (leAt s 4 2)))
  else if UInt16.ofNat (leAt s 6 2) ≠ headerSize then
    .error (.invalidHeaderSize (UInt16.ofNat (leAt s 6 2)))
  else if windowAt s 8 4 ≠ le 4 endianMagic.toNat then .error .invalidEndian
  else .ok (headerFields s (not_lt.mp h))

theorem slice_windowAt {ε : Type} {s : Bytes} {a b : Nat} (n : Nat) (hn : a + n = b)
    (h : b ≤ s.length) : (slice s a b : Res ε Bytes) = .ok (windowAt s a n) := by
  rw [slice_eq (by omega) h, windowAt, show b - a = n by omega]

theorem windowAt_take {s : Bytes} {i n k : Nat} (h : i + n ≤ k) :
    windowAt (s.take k) i n = windowAt s i n := by
  unfold windowAt
  rw [List.drop_take, List.take_take, min_eq_left (by omega)]

theorem windowAt_append {s : Bytes} {i n : Nat} (t : Bytes) (h : i + n ≤ s.length) :
    windowAt (s ++ t) i n = windowAt s i n := by
  unfold windowAt
  rw [List.drop_append_of_le_length (by omega), List.take_append_of_le_length]
  rw [List.length_drop]
  omega

/-- **the decoder of the header never panics** -/
theorem FileHeader.decode_eq (buf : Bytes) : FileHeader.decode buf = lift (headerOf buf) := by
  unfold FileHeader.decode headerOf
  by_cases h : buf.length < 128
  · rw [dif_pos h]
    show (if buf.length < 128 then _ else _) = _
    rw [if_pos h]; rfl
  have hid : (slice buf 16 32 >>= toSessionId : Res Error SessionId)
      = .ok (sessionIdOf buf (not_lt.mp h)) := by
    rw [slice_windowAt 16 rfl (by omega), ok_bind]
    exact dif_pos _
  have hle : ¬ buf.length < headerSizeUsize := h
  rw [if_neg hle, dif_neg h, slice_windowAt 4 rfl (by omega), ok_bind]
  by_cases hmagic : windowAt buf 0 4 = fileMagic
  swap
  · rw [if_pos hmagic, if_pos hmagic]; rfl
  rw [if_neg (not_not.mpr hmagic), if_neg (not_not.mpr hmagic), le16At_eq (by omega), ok_bind]
  by_cases hver : UInt16.ofNat (leAt buf 4 2) = Dtj.formatVersion
  swap
  · rw [if_pos hver, if_pos hver]; rfl
  rw [if_neg (not_not.mpr hver), if_neg (not_not.mpr hver), le16At_eq (by omega), ok_bind]
  by_cases hsize : UInt16.ofNat (leAt buf 6 2) = headerSize
  swap
  · rw [if_pos hsize, if_pos hsize]; rfl
  rw [if_neg (not_not.mpr hsize), if_neg (not_not.mpr hsize), slice_windowAt 4 rfl (by omega),
    ok_bind]
  by_cases hend : windowAt buf 8 4 = le 4 endianMagic.toNat
  swap
  · rw [if_pos hend, if_pos hend]; rfl
  rw [if_neg (not_not.mpr hend), if_neg (not_not.mpr hend)]
  have hflags : (slice buf 12 16 >>= fromLe 4 : Res Error Nat) = .ok (leAt buf 12 4) :=
    slice_fromLe rfl (by omega)
  have hstart : (slice buf 32 40 >>= fromLe 8 : Res Error Nat) = .ok (leAt buf 32 8) :=
    slice_fromLe rfl (by omega)
  have hmono : (slice buf 40 48 >>= fromLe 8 : Res Error Nat) = .ok (leAt buf 40 8) :=
    slice_fromLe rfl (by omega)
  have hname : (slice buf 48 80 : Res Error Bytes) = .ok (windowAt buf 48 32) :=
    slice_windowAt 32 rfl (by omega)
  have hversion : (slice buf 80 96 : Res Error Bytes) = .ok (windowAt buf 80 16) :=
    slice_windowAt 16 rfl (by omega)
  simp only [hflags, hid, hstart, hmono, hname, hversion, ok_bind, lift_ok, headerFields]

/-! ## what `encode` writes -/

@[simp] theorem FileHeader.fixed_length (h : FileHeader) : h.fixed.length = 48 := by
  simp [FileHeader.fixed, fileMagic, h.sessionId.2]

theorem FileHeader.encode_eq (h : FileHeader) : h.encode = (do
    let buf ← putAt (h.fixed ++ List.replicate 80 0) 48 (utf8 h.producerName)
    putAt buf 80 (utf8 h.producerVersion)) := by
  have p0 : (putAt (List.replicate 128 0) 0 fileMagic : Res Error Bytes)
      = .ok (fileMagic ++ List.replicate 124 0) := @putAt_zeros Error [] fileMagic 0 124 rfl
  unfold FileHeader.encode FileHeader.fixed
  dsimp only
  rw [p0, ok_bind, putAt_fill 122 (by simp [fileMagic]) (by simp), ok_bind,
    putAt_fill 120 (by simp [fileMagic]) (by simp), ok_bind,
    putAt_fill 116 (by simp [fileMagic]) (by simp), ok_bind,
    putAt_fill 112 (by simp [fileMagic]) (by simp), ok_bind,
    putAt_fill 96 (by simp [fileMagic]) (by simp [h.sessionId.2]), ok_bind,
    putAt_fill 88 (by simp [fileMagic, h.sessionId.2]) (by simp), ok_bind,
    putAt_fill 80 (by simp [fileMagic, h.sessionId.2]) (by simp), ok_bind]
  simp only [List.append_assoc]

/-- **what `encode` writes**: 128 bytes, the first 48 of them by the fields -/
theorem FileHeader.encode_ok {h : FileHeader} {out : Bytes} (he : h.encode = .ok out) :
    out.length = 128 ∧ ∃ rest, out = h.fixed ++ rest := by
  rw [FileHeader.encode_eq] at he
  obtain ⟨buf, h1, h2⟩ := bind_eq_ok.mp he
  have hlen : out.length = 128 := by
    rw [putAt_length h2, putAt_length h1]
    simp
  have htake : out.take 48 = h.fixed := by
    rw [putAt_take (by norm_num) h2, putAt_take (by norm_num) h1,
      List.take_left' h.fixed_length]
  refine ⟨hlen, out.drop 48, ?_⟩
  rw [← htake, List.take_append_drop]

/-- **a header that was written is accepted, with the numbers that were put in** -/
theorem FileHeader.headerOf_encode {h : FileHeader} {out : Bytes} (he : h.encode = .ok out) :
    ∃ h', headerOf out = .ok h' ∧ h'.flags = h.flags ∧ h'.sessionId = h.sessionId ∧
      h'.startUtcUnixMs = h.startUtcUnixMs ∧ h'.monoOriginNs = h.monoOriginNs := by
  obtain ⟨hlen, rest, hout⟩ := FileHeader.encode_ok he
  have hr : out = fileMagic ++ (le 2 Dtj.formatVersion.toNat ++ (le 2 headerSize.toNat ++
      (le 4 endianMagic.toNat ++ (le 4 h.flags.toNat ++ (h.sessionId.1 ++
        (le 8 h.startUtcUnixMs.toUInt64.toNat ++ (le 8 h.monoOriginNs.toNat ++ rest))))))) := by
    simp only [hout, FileHeader.fixed, List.append_assoc]
  have hmagic : windowAt out 0 4 = fileMagic := by rw [hr]; rfl
  have hend : windowAt out 8 4 = le 4 endianMagic.toNat := by rw [hr]; rfl
  have hver : UInt16.ofNat (leAt out 4 2) = Dtj.formatVersion := by rw [hr]; rfl
  have hsize : UInt16.ofNat (leAt out 6 2) = headerSize := by rw [hr]; rfl
  have hid : windowAt out 16 16 = h.sessionId.1 := by
    have hsplit : out = (fileMagic ++ (le 2 Dtj.formatVersion.toNat ++ (le 2 headerSize.toNat ++
        (le 4 endianMagic.toNat ++ le 4 h.flags.toNat)))) ++ (h.sessionId.1 ++
        (le 8 h.startUtcUnixMs.toUInt64.toNat ++ (le 8 h.monoOriginNs.toNat ++ rest))) := by
      simp only [hr, List.append_assoc]
    rw [hsplit, windowAt, List.drop_left' (by simp [fileMagic]), List.take_left' h.sessionId.2]
  have hflags : UInt32.ofNat (leAt out 12 4) = h.flags := by
    rw [hr]
    simp (disch := simp [fileMagic]) only [leAt_skip, le_length]
    exact uint32_le _ _
  have hstart : UInt64.ofNat (leAt out 32 8) = h.startUtcUnixMs.toUInt64 := by
    rw [hr]
    simp (disch := simp [fileMagic, h.sessionId.2]) only [leAt_skip, le_length, h.sessionId.2]
    exact uint64_le _ _
  have hmono : UInt64.ofNat (leAt out 40 8) = h.monoOriginNs := by
    rw [hr]
    simp (disch := simp [fileMagic, h.sessionId.2]) only [leAt_skip, le_length, h.sessionId.2]
    exact uint64_le _ _
  have h128 : ¬ out.length < 128 := by omega
  refine ⟨headerFields out (not_lt.mp h128), ?_, hflags, Subtype.ext hid, ?_, hmono⟩
  · unfold headerOf
    rw [dif_neg h128, if_neg (not_not.mpr hmagic), if_neg (not_not.mpr hver),
      if_neg (not_not.mpr hsize), if_neg (not_not.mpr hend)]
  · show (UInt64.ofNat (leAt out 32 8)).toInt64 = _
    rw [hstart, Int64.toInt64_toUInt64]

/-- a header that `create` made is written without a panic -/
theorem FileHeader.encode_create {sid : SessionId} {start : Int64} {mono : UInt64}
    {name version : String} {h : FileHeader}
    (hc : FileHeader.create sid start mono name version = .ok h) : ∃ out, h.encode = .ok out := by
  unfold FileHeader.create at hc
  split at hc
  · cases hc
  split at hc
  · cases hc
  rename_i hname hversion
  cases hc
  rw [FileHeader.encode_eq, putAt_eq (by simp; omega), ok_bind]
  exact ⟨_, putAt_eq (by simp; omega)⟩

end Dtj
