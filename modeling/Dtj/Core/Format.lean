import Dtj.Lib.Parse

/-!
# The normative constants of DTJ v1 and the structured errors

`crates/dtj/src/format.rs` and `crates/dtj/src/error.rs`.
-/

namespace Dtj
open Wire Checked

/-- ASCII `DTJ1` -/
def fileMagic : Bytes := [0x44, 0x54, 0x4A, 0x31]
/-- ASCII `DTJC` -/
def chunkMagic : Bytes := [0x44, 0x54, 0x4A, 0x43]
def formatVersion : UInt16 := 1
def headerSize : UInt16 := 128
def headerSizeUsize : Nat := 128
def chunkHeaderSize : Nat := 24
def chunkTrailerSize : Nat := 8
def endianMagic : UInt32 := 0x01020304
def committedMarker : UInt32 := 0xD7C0FFEE

def maxChunkPayload : UInt32 := 16777216
def maxDictNameLen : UInt16 := 1024
def maxDictEntries : UInt32 := 65535
def maxEventsPerChunk : UInt32 := 65535
def maxEventPayload : UInt32 := 65535
def maxBytesValue : UInt16 := 4096

def chunkTypeDictionary : UInt16 := 1
def chunkTypeEvent : UInt16 := 2

def typeBool : UInt8 := 0x01
def typeI32 : UInt8 := 0x02
def typeI64 : UInt8 := 0x03
def typeU32 : UInt8 := 0x04
def typeU64 : UInt8 := 0x05
def typeF32 : UInt8 := 0x06
def typeF64 : UInt8 := 0x07
def typeEnum : UInt8 := 0x08
def typeVec2F32 : UInt8 := 0x09
def typeVec3F32 : UInt8 := 0x0A
def typeInterned : UInt8 := 0x0B
def typeBytes : UInt8 := 0x0C

inductive Error where
  | io (msg : String)
  | invalidMagic
  | unsupportedVersion (v : UInt16)
  | invalidHeaderSize (n : UInt16)
  | invalidEndian
  | invalidChunkMagic
  | checksumMismatch (sequence : UInt64)
  | sequenceGap (expected found : UInt64)
  | payloadTooLarge (len max : UInt32)
  | malformedRecord (msg : String)
  | unknownDictionaryId (kind : UInt8) (id : UInt32)
  | duplicateDictionaryId (kind : UInt8) (id : UInt32)
  | unknownTypeTag (t : UInt8)
  | invalidSeverity (s : UInt8)
  | limitExceeded (msg : String)
  | sessionClosed
deriving DecidableEq, Repr

@[simp] theorem maxChunkPayload_toNat : maxChunkPayload.toNat = 16777216 := rfl
@[simp] theorem maxDictNameLen_toNat : maxDictNameLen.toNat = 1024 := rfl
@[simp] theorem maxDictEntries_toNat : maxDictEntries.toNat = 65535 := rfl
@[simp] theorem maxEventsPerChunk_toNat : maxEventsPerChunk.toNat = 65535 := rfl
@[simp] theorem maxEventPayload_toNat : maxEventPayload.toNat = 65535 := rfl
@[simp] theorem maxBytesValue_toNat : maxBytesValue.toNat = 4096 := rfl
@[simp] theorem chunkMagic_length : chunkMagic.length = 4 := rfl

/-- `n as u32 > max` for a length that fits -/
theorem ofNat_gt {n : Nat} {max : UInt32} (h : n < 2^32) :
    UInt32.ofNat n > max ↔ max.toNat < n := by
  rw [gt_iff_lt, UInt32.lt_iff_toNat_lt, UInt32.toNat_ofNat', Nat.mod_eq_of_lt h]

end Dtj
