import Dtj.Sdk.Go
import Dtj.Sdk.Python
import Dtj.Sdk.Rust
import Dtj.Sdk.TypeScript

/-!
# One frame, five decoders

`read_frame` of `packages/dtj-rust`, `DecodeFrame` of `packages/dtj-go`, `decode_frame` of
`packages/dtj-python`, `decodeFrame` of `packages/dtj-typescript`, and `dtj_decode_frame` of
`packages/dtj-c`, on the bytes of a peer.

* `Rust.frame`, `Rust.readBytes`, `Go.decodeFrame`, `C.encodeFrame`, `C.decodeFrame`   the source;
* `firstFrame`     what a decoder is to make of its bytes;
* `decodes_of`     every decoder does it, unless the frame is declared to be empty;
* `zero_length`    what the decoders do then;
* `decoders_agree_iff`   **the decoders agree exactly on the other byte strings**.
-/

namespace Dtj.Sdk
open Wire Checked Agent

/-- what a decoder makes of its bytes -/
inductive Decoded where
  | refused
  | frame (opcode : UInt8) (body : Bytes)
  | crashed
deriving DecidableEq

def Decoded.of {ε : Type} : Res ε (UInt8 × Bytes) → Decoded
  | .ok (opcode, body) => .frame opcode body
  | .error (.error _) => .refused
  | .error _ => .crashed

/-! ## Rust -/

/-- an agent that answers nothing -/
def Server.mute : Server where
  State := Unit
  start := ()
  answer _ _ := none
  fits h := by cases h

namespace Rust

/-- what `write_frame` writes -/
def frame (opcode : UInt8) (payload : Bytes) : Res Error Bytes := do
  let len ← incr32 (UInt32.ofNat payload.length)
  return le 4 len.toNat ++ opcode :: payload

theorem writeFrame_run {S : Server} (i : Nat) (opcode : UInt8) (payload : Bytes) (s : Session S) :
    (writeFrame i opcode payload).run s = match frame opcode payload with
      | .error e => .error e s
      | .ok bytes =>
        if s.link.closed then .error (.error .ioError) s
        else .ok () { s with link := s.link.send i bytes } := by
  unfold writeFrame frame
  rw [EStateM.run_bind]
  cases (incr32 (UInt32.ofNat payload.length) : Res Error UInt32) with
  | error e => rfl
  | ok len =>
    rw [Prog.of_ok]
    simp only [EStateM.run_bind, EStateM.run_get, run_ite]
    rfl

/-- `read_frame` on a connection that ends after these bytes -/
def readBytes (data : Bytes) : Res Error (UInt8 × Bytes) :=
  resOf (readFrame.run
    { Session.opened .mute with link := { Link.start .mute with closed := true, unread := data } })

end Rust

/-! ## Go -/

namespace Go

/-- `io.ReadFull` on the bytes that are left -/
def readAll (what : String) (n : Nat) : Prog Bytes GoError Bytes := fun data =>
  if n ≤ data.length then .ok (data.take n) (data.drop n)
  else
    let eof := if data = [] then "EOF" else "unexpected EOF"
    .error (.error (.protocolError 0 (utf8 (what ++ eof)))) []

def decodeFrame : Prog Bytes GoError (UInt8 × Bytes) := do
  let length := leNat (← readAll "failed to read frame length: " 4)
  if length > maxFrameSize then
    throw (.error (.protocolError 0 (utf8 s!"frame too large: {length}")))
  else
    let payload ← readAll "failed to read frame payload: " length
    return (← Prog.of (idx payload 0), ← Prog.of (slice payload 1 payload.length))

end Go

/-! ## C -/

namespace C

/-- `dtj_frame`; `body` is NULL or points to these bytes -/
structure Frame where
  opcode : UInt8
  body : Option Bytes
  bodyLen : Nat
deriving DecidableEq

/-- `malloc` fails where `malloc n` is false -/
def encodeFrame (malloc : Nat → Bool) (opcode : UInt8) (body : Bytes) : Option Bytes :=
  if body.length + 1 > maxFrameSize then none
  else
    let frameLen := UInt32.ofNat (body.length + 1)
    if malloc (4 + frameLen.toNat) then some (le 4 frameLen.toNat ++ opcode :: body)
    else none

/-- `frame_len - 1` is a `uint32_t`, and `memcpy` behind the end of `data` is undefined -/
def decodeFrame (malloc : Nat → Bool) (data : Bytes) : Res Empty Frame := do
  if data.length < 5 then return ⟨0, none, 0⟩
  else
    let frameLen := UInt32.ofNat (leAt data 0 4)
    if frameLen.toNat > maxFrameSize ∨ data.length < (4 + frameLen).toNat then return ⟨0, none, 0⟩
    else
      let opcode ← idx data 4
      let bodyLen := (frameLen - 1).toNat
      if bodyLen > 0 then
        if malloc bodyLen then
          let body ← slice data 5 (5 + bodyLen)
          return ⟨opcode, some body, bodyLen⟩
        else return ⟨opcode, none, bodyLen⟩
      else return ⟨opcode, none, 0⟩

/-- a frame as its caller sees it: refused bytes and a frame of the opcode 0 without a body are the
same -/
def Frame.Shows (f : Frame) : Decoded → Prop
  | .refused => f = ⟨0, none, 0⟩
  | .frame opcode body => f = ⟨opcode, if body = [] then none else some body, body.length⟩
  | .crashed => False

instance (f : Frame) (d : Decoded) : Decidable (f.Shows d) := by
  cases d <;> unfold Frame.Shows <;> infer_instance

end C

/-! ## what a decoder is to do -/

/-- the first frame of a byte string: it is refused if it is incomplete, empty or above 1 MiB -/
def firstFrame (data : Bytes) : Decoded :=
  if data.length < 4 ∨ leAt data 0 4 = 0 ∨ leAt data 0 4 > maxFrameSize ∨
      data.length < 4 + leAt data 0 4 then .refused
  else .frame (data.getD 4 0) ((data.drop 5).take (leAt data 0 4 - 1))

/-- all five decoders do it -/
structure Agree (malloc : Nat → Bool) (data : Bytes) : Prop where
  rust : Decoded.of (Rust.readBytes data) = firstFrame data
  go : Decoded.of (resOf (Go.decodeFrame.run data)) = firstFrame data
  python : Decoded.of (lift (Python.decodeFrame data)) = firstFrame data
  typeScript : Decoded.of (lift (TypeScript.decodeFrame data)) = firstFrame data
  c : ∃ f, C.decodeFrame malloc data = .ok f ∧ f.Shows (firstFrame data)

/-- every decoder inverts the encoder of its own SDK -/
structure Inverse (malloc : Nat → Bool) (opcode : UInt8) (body : Bytes) : Prop where
  rust : ∃ bytes, Rust.frame opcode body = .ok bytes ∧
    Decoded.of (Rust.readBytes bytes) = .frame opcode body
  go : ∃ bytes, Go.encodeFrame opcode body = .ok bytes ∧
    Decoded.of (resOf (Go.decodeFrame.run bytes)) = .frame opcode body
  python : ∃ bytes, Python.encodeFrame opcode body = .ok bytes ∧
    Decoded.of (lift (Python.decodeFrame bytes)) = .frame opcode body
  typeScript : ∃ bytes, TypeScript.encodeFrame opcode body = .ok bytes ∧
    Decoded.of (lift (TypeScript.decodeFrame bytes)) = .frame opcode body
  c : ∃ bytes f, C.encodeFrame malloc opcode body = some bytes ∧
    C.decodeFrame malloc bytes = .ok f ∧ f.Shows (.frame opcode body)

/-! ## every decoder does it -/

section
variable {data : Bytes}

/-- the bytes of a frame behind its length -/
theorem payload_head {n : Nat} (h0 : n ≠ 0) :
    ((data.drop 4).take n).getD 0 0 = data.getD 4 0 ∧
      ((data.drop 4).take n).drop 1 = (data.drop 5).take (n - 1) := by
  constructor
  · rw [List.getD_eq_getElem?_getD, List.getElem?_take_of_lt (by omega), List.getElem?_drop,
      ← List.getD_eq_getElem?_getD]
  · rw [List.drop_take, List.drop_drop]

theorem firstFrame_short (h : data.length < 4) : firstFrame data = .refused := if_pos (.inl h)

theorem firstFrame_large (h : leAt data 0 4 > maxFrameSize) : firstFrame data = .refused :=
  if_pos (.inr (.inr (.inl h)))

theorem firstFrame_cut (h : data.length < 4 + leAt data 0 4) : firstFrame data = .refused :=
  if_pos (.inr (.inr (.inr h)))

theorem firstFrame_whole (h0 : leAt data 0 4 ≠ 0) (hmax : ¬ leAt data 0 4 > maxFrameSize)
    (hlen : ¬ data.length < 4 + leAt data 0 4) : firstFrame data =
      .frame (data.getD 4 0) ((data.drop 5).take (leAt data 0 4 - 1)) :=
  if_neg (by rintro (h | h | h | h) <;> omega)

/-- Rust refuses an empty frame, too -/
theorem rust_decodes (data : Bytes) : Decoded.of (Rust.readBytes data) = firstFrame data := by
  unfold Rust.readBytes
  generalize hs : ({ Rust.Session.opened .mute with
    link := { Link.start .mute with closed := true, unread := data } } : Rust.Session .mute) = s
  have hun : s.link.unread = data := by rw [← hs]
  have hc : s.link.closed = true := by rw [← hs]
  -- the bytes are not there
  have cut : ∀ {n : Nat} {s' : Rust.Session .mute}, s'.link.closed = true →
      s'.link.unread.length < n → (Rust.readExact n).run s' =
        .error (.error .ioError) { s' with link := { s'.link with unread := [] } } := by
    intro n s' hc' hn
    show (if n ≤ s'.link.unread.length then _ else if s'.link.closed = true then _ else _) = _
    rw [if_neg (not_le.mpr hn), if_pos hc']
  rw [Rust.readFrame, EStateM.run_bind]
  by_cases h4 : data.length < 4
  · rw [cut hc (by rwa [hun]), firstFrame_short h4]
    rfl
  rw [Rust.readExact_run (by rw [hun]; omega), hun]
  dsimp only
  rw [show leNat (data.take 4) = leAt data 0 4 from rfl, run_ite]
  by_cases hbad : leAt data 0 4 = 0 ∨ leAt data 0 4 > 1024 * 1024
  · rw [if_pos hbad]
    refine Eq.symm (if_pos (.inr ?_))
    rcases hbad with h | h
    · exact .inl h
    · exact .inr (.inl h)
  rw [if_neg hbad, EStateM.run_bind]
  by_cases hcut : data.length < 4 + leAt data 0 4
  · rw [@cut (leAt data 0 4) { s with link := { s.link with unread := data.drop 4 } } hc
      (by rw [List.length_drop]; omega), firstFrame_cut hcut]
    rfl
  obtain ⟨hop, hbody⟩ := @payload_head data _ fun h => hbad (.inl h)
  rw [Rust.readExact_run (by rw [List.length_drop]; omega),
    firstFrame_whole (fun h => hbad (.inl h)) (fun h => hbad (.inr h)) hcut]
  show Decoded.frame (((data.drop 4).take (leAt data 0 4)).getD 0 0)
    (((data.drop 4).take (leAt data 0 4)).drop 1) = _
  rw [hop, hbody]

theorem go_decodes (h : 4 ≤ data.length → leAt data 0 4 ≠ 0) :
    Decoded.of (resOf (Go.decodeFrame.run data)) = firstFrame data := by
  have cut : ∀ {what : String} {n : Nat} {s : Bytes}, s.length < n →
      ∃ e, (Go.readAll what n).run s = .error (.error e) [] := by
    intro what n s hn
    exact ⟨_, if_neg (not_le.mpr hn)⟩
  have all : ∀ {what : String} {n : Nat} {s : Bytes}, n ≤ s.length →
      (Go.readAll what n).run s = .ok (s.take n) (s.drop n) := fun hn => if_pos hn
  rw [Go.decodeFrame, EStateM.run_bind]
  by_cases h4 : data.length < 4
  · obtain ⟨e, hr⟩ := @cut "failed to read frame length: " 4 data h4
    rw [hr, firstFrame_short h4]
    rfl
  rw [all (by omega)]
  dsimp only
  rw [show leNat (data.take 4) = leAt data 0 4 from rfl, run_ite]
  by_cases hmax : leAt data 0 4 > maxFrameSize
  · rw [if_pos hmax, firstFrame_large hmax]
    rfl
  rw [if_neg hmax, EStateM.run_bind]
  by_cases hcut : data.length < 4 + leAt data 0 4
  · obtain ⟨e, hr⟩ := @cut "failed to read frame payload: " (leAt data 0 4) (data.drop 4)
      (by rw [List.length_drop]; omega)
    rw [hr, firstFrame_cut hcut]
    rfl
  have h0 := h (not_lt.mp h4)
  obtain ⟨hop, hbody⟩ := @payload_head data _ h0
  have hlen : ((data.drop 4).take (leAt data 0 4)).length = leAt data 0 4 :=
    List.length_take_of_le (by rw [List.length_drop]; omega)
  rw [all (by rw [List.length_drop]; omega), firstFrame_whole h0 hmax hcut]
  dsimp only
  rw [EStateM.run_bind, idx_getD (by omega), Prog.of_ok]
  dsimp only
  rw [EStateM.run_bind, slice_eq (by omega) (le_refl _), Prog.of_ok]
  show Decoded.frame (((data.drop 4).take (leAt data 0 4)).getD 0 0)
    ((((data.drop 4).take (leAt data 0 4)).drop 1).take _) = _
  rw [hop, List.take_of_length_le (by rw [List.length_drop]), hbody]

/-- a decoder that has all bytes in a buffer -/
theorem buffer_decodes {ε : Type} {short cut : ε} {large : Nat → ε}
    (h : 4 ≤ data.length → leAt data 0 4 ≠ 0) :
    Decoded.of (lift (if data.length < 5 then .error short
      else if leAt data 0 4 > maxFrameSize then .error (large (leAt data 0 4))
      else if data.length < 4 + leAt data 0 4 then .error cut
      else .ok (data.getD 4 0, (data.drop 5).take (leAt data 0 4 - 1)))) = firstFrame data := by
  by_cases h5 : data.length < 5
  · rw [if_pos h5]
    by_cases h4 : data.length < 4
    · exact (firstFrame_short h4).symm
    · have h0 := h (not_lt.mp h4)
      exact (firstFrame_cut (by omega)).symm
  rw [if_neg h5]
  by_cases hmax : leAt data 0 4 > maxFrameSize
  · rw [if_pos hmax]
    exact (firstFrame_large hmax).symm
  rw [if_neg hmax]
  by_cases hcut : data.length < 4 + leAt data 0 4
  · rw [if_pos hcut]
    exact (firstFrame_cut hcut).symm
  · rw [if_neg hcut]
    exact (firstFrame_whole (h (by omega)) hmax hcut).symm

theorem python_decodes (h : 4 ≤ data.length → leAt data 0 4 ≠ 0) :
    Decoded.of (lift (Python.decodeFrame data)) = firstFrame data :=
  @buffer_decodes data Python.PyError _ _ (fun n => .protocolError s!"Frame too large: {n}") h

theorem typeScript_decodes (h : 4 ≤ data.length → leAt data 0 4 ≠ 0) :
    Decoded.of (lift (TypeScript.decodeFrame data)) = firstFrame data :=
  @buffer_decodes data TypeScript.TsError _ _ (fun n => .protocolError s!"Frame too large: {n}") h

/-- the length of a body, counted in 32 bits -/
theorem sub_one_toNat {n : Nat} (h0 : n ≠ 0) (hn : n < 2^32) :
    (UInt32.ofNat n - 1).toNat = n - 1 := by
  have hle : (1 : UInt32) ≤ UInt32.ofNat n := by
    rw [UInt32.le_iff_toNat_le, UInt32.toNat_ofNat', Nat.mod_eq_of_lt hn]
    show 1 ≤ n
    omega
  rw [UInt32.toNat_sub_of_le _ _ hle, UInt32.toNat_ofNat', Nat.mod_eq_of_lt hn]
  rfl

theorem c_decodes {malloc : Nat → Bool} (hm : ∀ n ≤ 4 + maxFrameSize, malloc n = true)
    (h : 4 ≤ data.length → leAt data 0 4 ≠ 0) :
    ∃ f, C.decodeFrame malloc data = .ok f ∧ f.Shows (firstFrame data) := by
  have hlt : leAt data 0 4 < 2^32 := leAt_lt data 0 4
  have hlen : (UInt32.ofNat (leAt data 0 4)).toNat = leAt data 0 4 := by
    rw [UInt32.toNat_ofNat', Nat.mod_eq_of_lt hlt]
  unfold C.decodeFrame
  by_cases h5 : data.length < 5
  · rw [if_pos h5]
    refine ⟨_, rfl, ?_⟩
    by_cases h4 : data.length < 4
    · rw [firstFrame_short h4]
      rfl
    · have h0 := h (not_lt.mp h4)
      rw [firstFrame_cut (by omega)]
      rfl
  have h0 := h (by omega)
  rw [if_neg h5]
  dsimp only
  by_cases hmax : leAt data 0 4 > maxFrameSize
  · rw [if_pos (.inl (by rwa [hlen]))]
    refine ⟨_, rfl, ?_⟩
    rw [firstFrame_large hmax]
    rfl
  have hmax' : maxFrameSize = 1048576 := rfl
  have hfour : (4 + UInt32.ofNat (leAt data 0 4)).toNat = 4 + leAt data 0 4 := by
    rw [UInt32.toNat_add, hlen]
    exact Nat.mod_eq_of_lt (by show 4 + leAt data 0 4 < 2^32; omega)
  rw [hlen, hfour, sub_one_toNat h0 hlt]
  by_cases hcut : data.length < 4 + leAt data 0 4
  · rw [if_pos (.inr hcut)]
    refine ⟨_, rfl, ?_⟩
    rw [firstFrame_cut hcut]
    rfl
  rw [if_neg (by omega), firstFrame_whole h0 hmax hcut, idx_getD (by omega), ok_bind]
  have hbody : ((data.drop 5).take (leAt data 0 4 - 1)).length = leAt data 0 4 - 1 :=
    List.length_take_of_le (by rw [List.length_drop]; omega)
  by_cases hone : leAt data 0 4 - 1 > 0
  · rw [if_pos hone, hm _ (by omega), if_pos rfl, slice_eq (by omega) (by omega), ok_bind,
      Nat.add_sub_cancel_left]
    refine ⟨_, rfl, ?_⟩
    have hne : (data.drop 5).take (leAt data 0 4 - 1) ≠ [] := by
      intro he
      rw [he] at hbody
      rw [← hbody] at hone
      cases hone
    show (⟨_, _, _⟩ : C.Frame) = ⟨_, _, _⟩
    rw [if_neg hne, hbody]
  · rw [if_neg hone]
    refine ⟨_, rfl, ?_⟩
    have he : (data.drop 5).take (leAt data 0 4 - 1) = [] :=
      List.length_eq_zero_iff.mp (by omega)
    show (⟨_, _, _⟩ : C.Frame) = ⟨_, _, _⟩
    rw [he, if_pos rfl]
    rfl

end

/-! ## agreement -/

/-- there is memory for a frame -/
def Provides (malloc : Nat → Bool) : Prop := ∀ n ≤ 4 + maxFrameSize, malloc n = true

/-- the length of the first frame is there, and it is 0 -/
def ZeroLength (data : Bytes) : Prop := 4 ≤ data.length ∧ leAt data 0 4 = 0

instance (data : Bytes) : Decidable (ZeroLength data) :=
  inferInstanceAs (Decidable (4 ≤ data.length ∧ leAt data 0 4 = 0))

/-- **a frame that is declared to be empty**: Rust refuses it, `payload[0]` of Go is out of range,
Python and TypeScript accept the byte behind its length, and C counts its body from 0 down to
2^32 - 1 -/
theorem zero_length {malloc : Nat → Bool} {data : Bytes} (h : ZeroLength data) :
    Decoded.of (Rust.readBytes data) = .refused ∧
      Decoded.of (resOf (Go.decodeFrame.run data)) = .crashed ∧
      (5 ≤ data.length →
        Decoded.of (lift (Python.decodeFrame data)) = .frame (data.getD 4 0) [] ∧
        Decoded.of (lift (TypeScript.decodeFrame data)) = .frame (data.getD 4 0) [] ∧
        (malloc (2^32 - 1) = true → data.length < 2^32 + 4 →
          C.decodeFrame malloc data = .error .panic)) := by
  obtain ⟨h4, h0⟩ := h
  refine ⟨?_, ?_, fun h5 => ⟨?_, ?_, fun hm hlen => ?_⟩⟩
  · rw [rust_decodes]
    exact if_pos (.inr (.inl h0))
  · have hall : (Go.readAll "failed to read frame length: " 4).run data
        = .ok (data.take 4) (data.drop 4) := if_pos h4
    rw [Go.decodeFrame, EStateM.run_bind, hall]
    dsimp only
    rw [show leNat (data.take 4) = leAt data 0 4 from rfl, h0]
    rfl
  · rw [Python.decodeFrame, if_neg (by omega)]
    dsimp only
    rw [h0, if_neg (by decide), if_neg (by omega)]
    rfl
  · rw [TypeScript.decodeFrame, if_neg (by omega)]
    dsimp only
    rw [h0, if_neg (by decide), if_neg (by omega)]
    rfl
  · unfold C.decodeFrame
    rw [if_neg (by omega), h0]
    dsimp only
    have hfour : (4 + UInt32.ofNat 0).toNat = 4 := rfl
    have hbody : (UInt32.ofNat 0 - 1).toNat = 2^32 - 1 := rfl
    have hfits : ¬ ((UInt32.ofNat 0).toNat > maxFrameSize ∨ data.length < 4) := by
      rintro (h | h)
      · cases h
      · omega
    rw [hfour, hbody, if_neg hfits, idx_getD (by omega), ok_bind, if_pos (by norm_num), hm,
      if_pos rfl]
    have hout : (slice data 5 (5 + (2^32 - 1)) : Res Empty Bytes) = .error .panic :=
      if_neg (by rintro ⟨-, h⟩; omega)
    rw [hout]
    rfl

/-- a frame of Rust that fits -/
theorem rust_frame_fits {opcode : UInt8} {body : Bytes} (hlen : 1 + body.length ≤ maxFrameSize) :
    Rust.frame opcode body = .ok (frameBytes (opcode :: body)) := by
  have hmax : maxFrameSize = 1048576 := rfl
  have hbody : (UInt32.ofNat body.length).toNat = body.length := by
    rw [UInt32.toNat_ofNat', Nat.mod_eq_of_lt (by omega)]
  have hone : (UInt32.ofNat body.length + 1).toNat = body.length + 1 := by
    rw [UInt32.toNat_add, hbody]
    exact Nat.mod_eq_of_lt (by show body.length + 1 < 2^32; omega)
  rw [Rust.frame, incr32_eq (by rw [hbody]; omega), ok_bind, hone]
  rfl

/-- every decoder inverts the encoder of its SDK -/
theorem inverse {malloc : Nat → Bool} (hm : Provides malloc) {opcode : UInt8} {body : Bytes}
    (hlen : 1 + body.length ≤ maxFrameSize) : Inverse malloc opcode body := by
  have hmax : maxFrameSize = 1048576 := rfl
  have hhead : leAt (frameBytes (opcode :: body)) 0 4 = body.length + 1 := by
    rw [frameBytes, leAt_head 4 _ _ (by rw [List.length_cons]; omega), List.length_cons]
  have hsize : (frameBytes (opcode :: body)).length = 4 + (body.length + 1) := by
    rw [frameBytes, List.length_append, le_length, List.length_cons]
  have hfirst : firstFrame (frameBytes (opcode :: body)) = .frame opcode body := by
    rw [firstFrame_whole (by omega) (by omega) (by omega), hhead]
    have hop : (frameBytes (opcode :: body)).getD 4 0 = opcode := by
      rw [frameBytes, List.getD_eq_getElem?_getD, List.getElem?_append_right (by rw [le_length]),
        le_length]
      rfl
    have hbody : (frameBytes (opcode :: body)).drop 5 = body := by
      rw [frameBytes, show 5 = (le 4 (opcode :: body).length).length + 1 by rw [le_length],
        List.drop_append]
      rfl
    rw [hop, hbody, Nat.add_sub_cancel, List.take_length]
  have hpos : 4 ≤ (frameBytes (opcode :: body)).length →
      leAt (frameBytes (opcode :: body)) 0 4 ≠ 0 := fun _ => by omega
  constructor
  · exact ⟨_, rust_frame_fits hlen, by rw [rust_decodes, hfirst]⟩
  · exact ⟨_, if_neg (by omega), by rw [go_decodes hpos, hfirst]⟩
  · exact ⟨_, if_neg (by omega), by rw [python_decodes hpos, hfirst]⟩
  · exact ⟨_, if_neg (by omega), by rw [typeScript_decodes hpos, hfirst]⟩
  · obtain ⟨f, hf, hshows⟩ := c_decodes hm hpos
    rw [hfirst] at hshows
    refine ⟨frameBytes (opcode :: body), f, ?_, hf, hshows⟩
    have hlen32 : (UInt32.ofNat (body.length + 1)).toNat = body.length + 1 := by
      rw [UInt32.toNat_ofNat', Nat.mod_eq_of_lt (by omega)]
    rw [C.encodeFrame, if_neg (by omega)]
    dsimp only
    rw [hlen32, hm _ (by omega), if_pos rfl]
    rfl

/-- **The five decoders agree on a byte string exactly when its first frame is not declared to be
empty**, and each inverts the encoder of its own SDK -/
theorem decoders_agree_iff {malloc : Nat → Bool} (hm : Provides malloc) (data : Bytes) :
    (Agree malloc data ∧ ∀ opcode body, 1 + body.length ≤ maxFrameSize →
      Inverse malloc opcode body) ↔ ¬ ZeroLength data := by
  constructor
  · rintro ⟨h, -⟩ hz
    obtain ⟨hrust, hgo, -⟩ := @zero_length malloc data hz
    have heq := h.rust.trans h.go.symm
    rw [hrust, hgo] at heq
    cases heq
  · intro h
    have hpos : 4 ≤ data.length → leAt data 0 4 ≠ 0 := fun h4 h0 => h ⟨h4, h0⟩
    exact ⟨⟨rust_decodes data, go_decodes hpos, python_decodes hpos, typeScript_decodes hpos,
      c_decodes hm hpos⟩, fun _ _ hlen => inverse hm hlen⟩

/-- a frame of the opcode 0x85 with two bytes more than its own behind it -/
theorem decoders_agree_pong : (Agree (fun _ => true) [1, 0, 0, 0, 0x85, 1, 2] ∧
    ∀ opcode body, 1 + body.length ≤ maxFrameSize → Inverse (fun _ => true) opcode body) ↔
      ¬ ZeroLength [1, 0, 0, 0, 0x85, 1, 2] :=
  decoders_agree_iff (fun _ _ => rfl) _

/-- **five bytes that Rust refuses and Python accepts** -/
theorem decoders_disagree : ¬ Agree (fun _ => true) [0, 0, 0, 0, 7] := by
  intro h
  have hpython := h.python
  revert hpython
  decide +kernel

end Dtj.Sdk
