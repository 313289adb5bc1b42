import Dtj.Journal.Walk

/-!
# The reader is the walk

* `Tracks`          what the variables of the loop of `open` stand for between two rounds;
* `scanChunk_eq`    a round of the loop is `readChunk` on the bytes from the offset on;
* `loop_eq_walk`    the loop ends, with the outcome of `walk`;
* `open_eq`         **`SessionReader.open` is the walk over the chunks**;
* `reader_total`    the reader and its decoders never panic and always end.
-/

namespace Dtj
open Wire Checked

/-! ## one round of the loop is one step of the walk -/

theorem checkEvents_eq (d : Dictionary) (evs : List EventRecord) (n : Nat) (seq : UInt64)
    (hseq : seq.toNat = n) (hmax : n + evs.length < 2^64) :
    checkEvents d evs seq = match checkAll d n evs with
      | .error e => fail e
      | .ok _ => .ok (UInt64.ofNat (n + evs.length)) := by
  induction evs generalizing n seq with
  | nil =>
    rw [checkEvents, checkAll]
    simp only [List.length_nil, Nat.add_zero, ← hseq, UInt64.ofNat_toNat]
  | cons ev evs ih =>
    rw [List.length_cons] at hmax
    have hne : ev.eventSequence ≠ seq ↔ ev.eventSequence.toNat ≠ n := by
      rw [← hseq, ne_eq, ne_eq, UInt64.toNat_inj]
    unfold checkEvents checkAll
    by_cases hs : ev.eventSequence.toNat ≠ n
    · rw [if_pos hs, if_pos (hne.mpr hs), ← hseq, UInt64.ofNat_toNat]
      rfl
    · have hincr : (incr64 seq : Res Error UInt64) = .ok (seq + 1) := incr64_eq (by omega)
      have hseq' : (seq + 1).toNat = n + 1 := by rw [incr64_ok hincr, hseq]
      rw [if_neg hs, if_neg (mt hne.mp hs)]
      simp only [hincr, ok_bind]
      cases validateEventRefs d ev with
      | error e => rfl
      | ok u =>
        rw [lift_ok, ok_bind, ih (n + 1) (seq + 1) hseq' (by omega), List.length_cons,
          Nat.add_right_comm, Nat.add_assoc]

/-- there are no more events than bytes -/
theorem eventsOf_length {s : Bytes} {evs : List EventRecord} (h : eventsOf s = .ok evs) :
    evs.length ≤ s.length := by
  obtain ⟨_, _, _, hlen⟩ := eventsOf_ok h
  have hle : ∀ l : List EventRecord, l.length ≤ (l.flatMap EventRecord.raw).length := by
    intro l
    induction l with
    | nil => simp
    | cons ev l ih =>
      rw [List.flatMap_cons, List.length_append, EventRecord.raw_length, List.length_cons]
      omega
  have := hle evs
  rw [listRaw, List.length_append, le_length] at hlen
  omega

/-- the variables of the loop stand for a view of what was read -/
structure Tracks (sc : Scan) (v : View) : Prop where
  dictionary : sc.dictionary = v.dictionary
  events : sc.events = v.events
  chunkSeq : sc.expectedChunkSeq.toNat = v.chunks + 1
  eventSeq : sc.expectedEventSeq.toNat = v.events.length + 1
  notTorn : sc.tornTail = false
  offset : 128 ≤ sc.offset
  start : sc.offset = 128 ↔ v.chunks = 0
  small : v.chunks + v.events.length + 128 ≤ sc.offset

theorem tracks_start : Tracks .start .empty :=
  ⟨rfl, rfl, rfl, rfl, rfl, le_refl _, ⟨fun _ => rfl, fun _ => rfl⟩, le_refl _⟩

/-- the `match` on the type of a chunk is `absorb` -/
theorem acceptChunk_eq {sc : Scan} {v : View} {ty : UInt16} {payload : Bytes}
    (hd : sc.dictionary = v.dictionary) (he : sc.events = v.events)
    (hseq : sc.expectedEventSeq.toNat = v.events.length + 1) (hp : payload.length < 2^63)
    (hmax : v.events.length + payload.length + 1 < 2^64) :
    match absorb v ty payload with
    | .error e => (acceptChunk ty payload).run sc = .error (.error e) sc
    | .ok v' => ∃ seq : UInt64, seq.toNat = v'.events.length + 1 ∧ v'.chunks = v.chunks + 1 ∧
        v'.events.length ≤ v.events.length + payload.length ∧ (acceptChunk ty payload).run sc
          = .ok () { sc with
              dictionary := v'.dictionary, events := v'.events, expectedEventSeq := seq } := by
  unfold absorb
  simp only [acceptChunk, EStateM.run_bind, EStateM.run_get]
  by_cases h1 : ty = 1
  · have h1' : ty = chunkTypeDictionary := h1
    rw [if_pos h1, if_pos h1']
    simp only [EStateM.run_bind, Dictionary.decodeEntries_eq hp]
    cases entriesOf payload with
    | error e => rfl
    | ok entries =>
      simp only [lift_ok, Prog.of_ok, hd, ok_bind]
      cases v.dictionary.insertAll entries with
      | error e => rfl
      | ok d =>
        refine ⟨sc.expectedEventSeq, hseq, rfl, Nat.le_add_right _ _, ?_⟩
        simp only [lift_ok, Prog.of_ok, EStateM.run_set, ← he]
  have h1' : ¬ ty = chunkTypeDictionary := h1
  rw [if_neg h1, if_neg h1']
  by_cases h2 : ty = 2
  · have h2' : ty = chunkTypeEvent := h2
    rw [if_pos h2, if_pos h2']
    simp only [EStateM.run_bind, EventRecord.decodeMany_eq hp]
    cases hdec : eventsOf payload with
    | error e => rfl
    | ok decoded =>
      have hlen := eventsOf_length hdec
      simp only [lift_ok, Prog.of_ok, ok_bind, hd,
        checkEvents_eq v.dictionary decoded (v.events.length + 1) _ hseq (by omega)]
      cases checkAll v.dictionary (v.events.length + 1) decoded with
      | error e => rfl
      | ok u =>
        have hnat : (UInt64.ofNat (v.events.length + 1 + decoded.length)).toNat
            = v.events.length + 1 + decoded.length := by
          rw [UInt64.toNat_ofNat', Nat.mod_eq_of_lt (by omega)]
        refine ⟨UInt64.ofNat (v.events.length + 1 + decoded.length), ?_, rfl, ?_, ?_⟩
        · rw [hnat, List.length_append, Nat.add_right_comm]
        · show (v.events ++ decoded).length ≤ _
          rw [List.length_append]; omega
        · simp only [Prog.of_ok, EStateM.run_set, he]
  · have h2' : ¬ ty = chunkTypeEvent := h2
    rw [if_neg h2, if_neg h2']
    refine ⟨sc.expectedEventSeq, hseq, rfl, Nat.le_add_right _ _, ?_⟩
    rw [← hd, ← he]
    rfl

/-- the end of a round is `accept` -/
theorem scanCommitted_eq {sc : Scan} {v : View} (ht : Tracks sc v) {h : ChunkHeader}
    {payload : Bytes} {checksum : UInt32} {need : Nat} (hneed : payload.length + 32 ≤ need)
    (hmax : sc.offset + need < 2^64) (hp : payload.length < 2^63) :
    match accept v h payload checksum with
    | .error e => ∃ sc', (scanCommitted h payload checksum need).run sc = .error (.error e) sc'
    | .ok v' => ∃ sc', (scanCommitted h payload checksum need).run sc = .ok true sc' ∧
        Tracks sc' v' ∧ sc'.offset = sc.offset + need := by
  have hsmall := ht.small
  have hseq : h.sequence ≠ sc.expectedChunkSeq ↔ h.sequence.toNat ≠ v.chunks + 1 := by
    rw [← ht.chunkSeq, ne_eq, ne_eq, UInt64.toNat_inj]
  have hexp : UInt64.ofNat (v.chunks + 1) = sc.expectedChunkSeq := by
    rw [← ht.chunkSeq, UInt64.ofNat_toNat]
  unfold accept
  simp only [scanCommitted, EStateM.run_bind, EStateM.run_get]
  by_cases hc : checksum ≠ crc32 payload
  · rw [if_pos hc, if_pos hc]
    exact ⟨sc, rfl⟩
  rw [if_neg hc, if_neg hc]
  by_cases hs : h.sequence.toNat ≠ v.chunks + 1
  · rw [if_pos hs, if_pos (hseq.mpr hs), hexp]
    exact ⟨sc, rfl⟩
  rw [if_neg hs, if_neg (mt hseq.mp hs)]
  have hincr : (incr64 sc.expectedChunkSeq : Res Error UInt64) = .ok (sc.expectedChunkSeq + 1) :=
    incr64_eq (by have := ht.chunkSeq; omega)
  have hnext := incr64_ok hincr
  have hadd : (add64 sc.offset need : Res Error Nat) = .ok (sc.offset + need) := add64_eq hmax
  have hacc := @acceptChunk_eq { sc with expectedChunkSeq := sc.expectedChunkSeq + 1 } v
    h.chunkType payload ht.dictionary ht.events ht.eventSeq hp (by omega)
  simp only [EStateM.run_bind, hincr, Prog.of_ok, EStateM.run_modify]
  cases ha : absorb v h.chunkType payload with
  | error e =>
    rw [ha] at hacc
    simp only at hacc
    rw [hacc]
    exact ⟨_, rfl⟩
  | ok v' =>
    rw [ha] at hacc
    simp only at hacc
    obtain ⟨seq, hv, hchunks, hlen, hrun⟩ := hacc
    simp only [hrun, hadd, Prog.of_ok]
    refine ⟨_, rfl, ⟨rfl, rfl, ?_, hv, ht.notTorn, ?_, ?_, ?_⟩, rfl⟩
    · rw [hnext, ht.chunkSeq, hchunks]
    · have := ht.offset
      show 128 ≤ sc.offset + need
      omega
    · have := ht.offset
      show sc.offset + need = 128 ↔ v'.chunks = 0
      omega
    · show v'.chunks + v'.events.length + 128 ≤ sc.offset + need
      omega

/-- a read from the file, by the bytes from the offset on -/
theorem readExact_eq {data : Bytes} {off i n : Nat} (h : off + i + n ≤ data.length) :
    readExact data (off + i) n = .ok (windowAt (data.drop off) i n) := by
  unfold readExact windowAt
  rw [if_pos h, List.drop_drop]

/-- **a round of the loop is `readChunk` on the bytes from the offset on** -/
theorem scanChunk_eq {data : Bytes} {sc : Scan} {v : View} (ht : Tracks sc v)
    (hdata : data.length < 2^64) (hoff : sc.offset ≤ data.length) :
    match readChunk v (data.drop sc.offset) with
    | .error e => ∃ sc', (scanChunk data).run sc = .error (.error e) sc'
    | .ok (.done torn) => ∃ t, (scanChunk data).run sc = .ok false { sc with tornTail := t } ∧
        torn = (t || decide (sc.offset < data.length))
    | .ok (.next v' r) => ∃ sc', (scanChunk data).run sc = .ok true sc' ∧ Tracks sc' v' ∧
        sc'.offset ≤ data.length ∧ r = data.drop sc'.offset := by
  have hs : (data.drop sc.offset).length = data.length - sc.offset := List.length_drop ..
  have hrest : ∀ n, (data.drop sc.offset).drop n = data.drop (sc.offset + n) :=
    fun n => List.drop_drop ..
  have hread : ∀ i n, sc.offset + i + n ≤ data.length →
      readExact data (sc.offset + i) n = .ok (windowAt (data.drop sc.offset) i n) :=
    fun i n h => readExact_eq h
  generalize data.drop sc.offset = s at hs hrest hread ⊢
  unfold readChunk
  simp only [scanChunk, EStateM.run_bind, EStateM.run_get, run_ite]
  by_cases h32 : s.length < 32
  · have h32' : data.length - sc.offset < chunkHeaderSize + chunkTrailerSize := hs ▸ h32
    rw [if_pos h32, if_pos h32']
    refine ⟨false, ?_, ?_⟩
    · rw [← ht.notTorn]; rfl
    · simp only [Bool.false_or, decide_eq_decide, hs]
      omega
  have h32' : ¬ data.length - sc.offset < chunkHeaderSize + chunkTrailerSize := hs ▸ h32
  rw [if_neg h32, if_neg h32']
  have hhdr : readExact data sc.offset chunkHeaderSize = .ok (windowAt s 0 24) :=
    hread 0 24 (by omega)
  have hmagic : (slice (windowAt s 0 24) 0 4 : Res Error Bytes) = .ok (windowAt s 0 4) := by
    rw [slice_windowAt 4 rfl (by rw [windowAt, List.length_take, List.drop_zero]; omega)]
    exact congrArg _ (windowAt_take (by norm_num))
  simp only [hhdr, Prog.of_ok, hmagic]
  by_cases hm : windowAt s 0 4 ≠ chunkMagic
  · rw [if_pos hm, if_pos hm]
    have hstart : sc.offset = headerSizeUsize ↔ v.chunks = 0 := ht.start
    by_cases h0 : v.chunks = 0
    · rw [if_pos h0, if_pos (hstart.mpr h0)]
      exact ⟨sc, rfl⟩
    · rw [if_neg h0, if_neg (mt hstart.mp h0)]
      exact ⟨true, rfl, rfl⟩
  have hdec : ChunkHeader.decode (windowAt s 0 24) = .ok (headerAt s) := by
    have hlen : ¬ (windowAt s 0 24).length < 24 := by
      rw [windowAt, List.length_take, List.drop_zero]; omega
    have hm' : windowAt (windowAt s 0 24) 0 4 = windowAt s 0 4 := windowAt_take (by norm_num)
    rw [ChunkHeader.decode_eq, if_neg hlen, hm', if_neg hm]
    exact congrArg _ (headerAt_take (le_refl 24))
  have hlt := leAt_lt s 16 4
  have hneed : chunkNeed (headerAt s).payloadLen = .ok (32 + leAt s 16 4) := by
    unfold chunkNeed
    rw [headerAt_payloadLen, if_pos (by simp only [chunkHeaderSize, chunkTrailerSize]; omega)]
    exact congrArg _ (by simp only [chunkHeaderSize, chunkTrailerSize]; omega)
  rw [if_neg hm, if_neg hm]
  simp only [hdec, Prog.of_ok, scanFrame, EStateM.run_bind, EStateM.run_get, hneed]
  by_cases hfull : s.length < 32 + leAt s 16 4
  · have hgt : 32 + leAt s 16 4 > data.length - sc.offset := by omega
    rw [if_pos hfull, if_pos hgt]
    exact ⟨true, rfl, rfl⟩
  have hgt : ¬ 32 + leAt s 16 4 > data.length - sc.offset := by omega
  rw [if_neg hfull, if_neg hgt]
  have hmax : (headerAt s).payloadLen > maxChunkPayload ↔ 16777216 < leAt s 16 4 := by
    rw [gt_iff_lt, UInt32.lt_iff_toNat_lt, headerAt_payloadLen]; rfl
  by_cases hbig : 16777216 < leAt s 16 4
  · rw [if_pos hbig, if_pos (hmax.mpr hbig)]
    exact ⟨sc, rfl⟩
  rw [if_neg hbig, if_neg (mt hmax.mp hbig)]
  have hpay : readExact data (sc.offset + chunkHeaderSize) (headerAt s).payloadLen.toNat
      = .ok (windowAt s 24 (leAt s 16 4)) := by
    rw [headerAt_payloadLen]
    exact hread 24 _ (by omega)
  have htr : readExact data (sc.offset + chunkHeaderSize + (headerAt s).payloadLen.toNat)
      chunkTrailerSize = .ok (windowAt s (24 + leAt s 16 4) 8) := by
    rw [headerAt_payloadLen, Nat.add_assoc]
    exact hread (24 + leAt s 16 4) 8 (by omega)
  have htlen : (windowAt s (24 + leAt s 16 4) 8).length = 8 := by
    rw [windowAt, List.length_take, List.length_drop]; omega
  have hsum : (le32At (windowAt s (24 + leAt s 16 4) 8) 0 : Res Error UInt32)
      = .ok (UInt32.ofNat (leAt s (24 + leAt s 16 4) 4)) := by
    rw [le32At_eq (by omega), windowAt, leAt_take (by norm_num), leAt_drop, Nat.add_zero]
  have hcom : (le32At (windowAt s (24 + leAt s 16 4) 8) 4 : Res Error UInt32)
      = .ok (UInt32.ofNat (leAt s (28 + leAt s 16 4) 4)) := by
    rw [le32At_eq (by omega), windowAt, leAt_take (by norm_num), leAt_drop,
      Nat.add_right_comm]
  have hmark : UInt32.ofNat (leAt s (28 + leAt s 16 4) 4) ≠ committedMarker
      ↔ leAt s (28 + leAt s 16 4) 4 ≠ committedMarker.toNat := by
    rw [ne_eq, ne_eq, ← UInt32.toNat_inj, toNat_leAt4]
  simp only [EStateM.run_bind, hpay, htr, Prog.of_ok, hsum, hcom]
  by_cases hc : leAt s (28 + leAt s 16 4) 4 ≠ committedMarker.toNat
  · rw [if_pos hc, if_pos (hmark.mpr hc)]
    exact ⟨true, rfl, rfl⟩
  rw [if_neg hc, if_neg (mt hmark.mp hc)]
  have hplen : (windowAt s 24 (leAt s 16 4)).length = leAt s 16 4 := by
    rw [windowAt, List.length_take, List.length_drop]; omega
  have hstep := @scanCommitted_eq sc v ht (headerAt s) (windowAt s 24 (leAt s 16 4))
    (UInt32.ofNat (leAt s (24 + leAt s 16 4) 4)) (32 + leAt s 16 4) (by omega) (by omega) (by omega)
  cases ha : accept v (headerAt s) (windowAt s 24 (leAt s 16 4))
    (UInt32.ofNat (leAt s (24 + leAt s 16 4) 4)) with
  | error e =>
    rw [ha] at hstep
    exact hstep
  | ok v' =>
    rw [ha] at hstep
    obtain ⟨sc', hrun, ht', hoff'⟩ := hstep
    refine ⟨sc', hrun, ht', by omega, ?_⟩
    rw [hoff', hrest]

/-! ## the reader is the walk -/

/-- **the loop ends, with the outcome of the walk** -/
theorem loop_eq_walk {data : Bytes} (hdata : data.length < 2^64) (n : Nat) (sc : Scan) (v : View)
    (ht : Tracks sc v) (hoff : sc.offset ≤ data.length) (hn : data.length - sc.offset < n) :
    match walk v (data.drop sc.offset) with
    | .error e => ∃ sc', (loop (scanChunk data) n).run sc = .error (.error e) sc'
    | .ok (v', torn) => ∃ sc' t, (loop (scanChunk data) n).run sc
        = .ok () { sc' with tornTail := t } ∧ Tracks sc' v' ∧
        torn = (t || decide (sc'.offset < data.length)) := by
  induction n generalizing sc v with
  | zero => omega
  | succ n ih =>
    have hstep := scanChunk_eq ht hdata hoff
    rw [loop_succ]
    cases hr : readChunk v (data.drop sc.offset) with
    | error e =>
      rw [hr] at hstep
      obtain ⟨sc', hrun⟩ := hstep
      rw [walk_error hr, hrun]
      exact ⟨sc', rfl⟩
    | ok st =>
      rw [hr] at hstep
      cases st with
      | done torn =>
        obtain ⟨t, hrun, htorn⟩ := hstep
        rw [walk_done hr, hrun]
        exact ⟨sc, t, rfl, ht, htorn⟩
      | next v' r =>
        obtain ⟨sc', hrun, ht', hoff', hr'⟩ := hstep
        have hlt := readChunk_lt hr
        rw [hr', List.length_drop, List.length_drop] at hlt
        rw [walk_next hr, hrun, hr']
        exact ih sc' v' ht' hoff' (by omega)

/-- what `open` returns, without its loop -/
def openOf (data : Bytes) : Except Error SessionReader :=
  if data.length < 128 then .error (.io "failed to fill whole buffer")
  else match headerOf (data.take 128) with
    | .error e => .error e
    | .ok header =>
      match walk .empty (data.drop 128) with
      | .error e => .error e
      | .ok (v, torn) => .ok ⟨header, v.dictionary, v.events, UInt64.ofNat v.chunks, torn⟩

/-- **The reader is the walk over the chunks: it never panics and always ends** -/
theorem open_eq {data : Bytes} (hdata : data.length < 2^64) :
    SessionReader.open data = lift (openOf data) := by
  unfold SessionReader.open openOf
  by_cases h : data.length < 128
  · have hread : readExact data 0 headerSizeUsize = fail (.io "failed to fill whole buffer") :=
      if_neg (by simp only [headerSizeUsize]; omega)
    rw [if_pos h, hread]
    rfl
  have hread : readExact data 0 headerSizeUsize = .ok (data.take 128) :=
    if_pos (by simp only [headerSizeUsize]; omega)
  rw [if_neg h, hread, ok_bind, FileHeader.decode_eq]
  cases headerOf (data.take 128) with
  | error e => rfl
  | ok header =>
    rw [lift_ok, ok_bind]
    have hloop := @loop_eq_walk data hdata data.length .start .empty tracks_start
      (by show 128 ≤ _; omega) (by show data.length - 128 < _; omega)
    change match walk .empty (data.drop 128) with
      | .error e => _
      | .ok (v', torn) => _ at hloop
    unfold scan
    cases hw : walk .empty (data.drop 128) with
    | error e =>
      rw [hw] at hloop
      obtain ⟨sc', hrun⟩ := hloop
      rw [hrun]
      rfl
    | ok x =>
      obtain ⟨v, torn⟩ := x
      rw [hw] at hloop
      obtain ⟨sc', t, hrun, ht, htorn⟩ := hloop
      rw [hrun]
      have hc : sc'.expectedChunkSeq.toNat - 1 = v.chunks := by rw [ht.chunkSeq]; rfl
      have ht' : (if data.length > sc'.offset ∧ ¬ t = true then true else t) = torn := by
        rw [htorn]
        cases t with
        | true => simp
        | false => simp
      simp only [ok_bind, ht.dictionary, ht.events, hc, ht']
      rfl

/-! ## no panic, no endless loop -/

/-- a byte slice of the target: never more than `isize::MAX` bytes -/
abbrev Slice := { bs : Bytes // bs.length < 2^63 }

/-- the call ended with a value or with an error of its type -/
def Total {α : Type} (r : Res Error α) : Prop := (∃ a, r = .ok a) ∨ ∃ e, r = .error (.error e)

theorem total_lift {α : Type} (x : Except Error α) : Total (lift x) := by
  cases x with
  | error e => exact .inr ⟨e, rfl⟩
  | ok a => exact .inl ⟨a, rfl⟩

/-- **The reader and every decoder under it end with a value or an error, whatever the bytes** -/
theorem reader_total (buf : Slice) :
    Total (SessionReader.open buf.1) ∧ Total (FileHeader.decode buf.1) ∧
    Total (ChunkHeader.decode buf.1) ∧ Total (Dictionary.decodeEntries buf.1) ∧
    Total (EventRecord.decodeMany buf.1) ∧ Total (TypedPayload.decode buf.1) ∧
    ∀ tag, Total (decodeValue tag buf.1) := by
  have hlt := buf.2
  refine ⟨?_, ?_, ?_, ?_, ?_, ?_, fun tag => ?_⟩
  · rw [open_eq (by omega)]
    exact total_lift _
  · rw [FileHeader.decode_eq]
    exact total_lift _
  · rw [ChunkHeader.decode_eq]
    split
    · exact .inr ⟨_, rfl⟩
    split
    · exact .inr ⟨_, rfl⟩
    · exact .inl ⟨_, rfl⟩
  · rw [Dictionary.decodeEntries_eq hlt]
    exact total_lift _
  · rw [EventRecord.decodeMany_eq hlt]
    exact total_lift _
  · rw [TypedPayload.decode_eq hlt]
    exact total_lift _
  · rw [decodeValue_eq]
    cases valueP tag buf.1 with
    | error e => exact .inr ⟨e, rfl⟩
    | ok x => exact .inl ⟨_, rfl⟩

end Dtj
