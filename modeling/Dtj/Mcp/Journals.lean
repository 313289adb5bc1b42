import Dtj.Journal.Session
import Dtj.Mcp.Native

/-!
# Journals of the Rust writer, in the Python reader

The two sides lay out the entry of a name differently: the writer puts seven bytes before a name, and the Python
reader takes ten.

* `decode_dict_entries_ok`   the entries of a payload, and how many bytes they take;
* `chunk_framed`             a chunk in the Python reader;
* `chunks_layout`            the names that it takes from the chunks of the writer;
* `SameNames`                both readers show the same names;
* `names_agree_iff`          **they do exactly when there are none**.
-/

namespace Dtj.Mcp.Native
open Wire

/-! ## texts -/

/-- the string of code points -/
def unlit (t : Str) : String := String.ofList (t.map fun u => Char.ofNat u.toNat)

theorem unlit_lit (s : String) : unlit (lit s) = s := by
  have hchars : (s.toList.map Char.val).map (fun u => Char.ofNat u.toNat) = s.toList := by
    rw [List.map_map]
    exact (List.map_congr_left fun c _ => Char.ofNat_toNat c).trans (List.map_id _)
  rw [unlit, lit, hchars, String.ofList_toList]

theorem lit_injective : Function.Injective lit := Function.LeftInverse.injective unlit_lit

/-- the bytes of a name -/
def width (t : Str) : Nat := (utf8 (unlit t)).length

theorem width_lit (s : String) : width (lit s) = (utf8 s).length := by rw [width, unlit_lit]

/-! ## entries -/

/-- the key and the name of an entry -/
def DictEntry.pair (e : DictEntry) : (DictKind × Nat) × Str := ((e.kind, e.id), e.name)

theorem decodeEntriesAt_ok {buf : Bytes} {count offset stop : Nat} {entries out : List DictEntry}
    (h : decodeEntriesAt buf count offset entries = .ok (stop, out)) : ∃ es, out = entries ++ es ∧ es.length = count ∧
      stop = offset + (es.map fun e => 10 + width e.name).sum := by
  induction count generalizing offset entries with
  | zero =>
    cases h
    exact ⟨[], (List.append_nil _).symm, rfl, rfl⟩
  | succ count ih =>
    rw [decodeEntriesAt] at h
    split at h
    · cases h
    obtain ⟨first, -, h⟩ := bind_eq_ok h
    obtain ⟨kind, -, h⟩ := bind_eq_ok h
    obtain ⟨id, -, h⟩ := bind_eq_ok h
    obtain ⟨name_len, -, h⟩ := bind_eq_ok h
    dsimp only at h
    split at h
    · cases h
    split at h
    · cases h
    rename_i hlong hinside
    cases hname : fromUtf8 (between buf (offset + 10) (offset + 10 + name_len)) with
    | none => rw [hname] at h; cases h
    | some name =>
      rw [hname] at h
      have hbytes := congrArg List.length (fromUtf8_eq_some.mp hname)
      rw [between, List.length_drop, List.length_take] at hbytes
      obtain ⟨es, hout, hlen, hstop⟩ := ih h
      refine ⟨⟨kind, id, lit name⟩ :: es, ?_, congrArg Nat.succ hlen, ?_⟩
      · rw [hout, List.append_assoc]
        rfl
      · rw [List.map_cons, List.sum_cons, hstop, width_lit]
        omega

theorem decode_dict_entries_ok {buf : Bytes} {es : List DictEntry} (h : _decode_dict_entries buf = .ok es) :
    es.length = leAt buf 0 4 ∧ buf.length = 4 + (es.map fun e => 10 + width e.name).sum := by
  unfold _decode_dict_entries at h
  split at h
  · cases h
  obtain ⟨count, hcount, h⟩ := bind_eq_ok h
  split at h
  · cases h
  obtain ⟨⟨stop, out⟩, hentries, h⟩ := bind_eq_ok h
  dsimp only at h
  split at h
  · cases h
  rename_i hstop
  cases h
  obtain ⟨es', hout, hlen, hend⟩ := decodeEntriesAt_ok hentries
  rw [List.nil_append] at hout
  rw [hout]
  unfold unpack at hcount
  split at hcount
  · cases hcount
    exact ⟨hlen, (not_not.mp hstop).symm.trans hend⟩
  · cases hcount

/-- what the insertion of some entries leaves -/
structure Inserted (d d' : Dictionary) (es : List DictEntry) : Prop where
  nodup : (d'.by_key.map Prod.fst).Nodup
  from_ : ∀ p ∈ d'.by_key, p ∈ d.by_key ∨ p ∈ es.map DictEntry.pair

theorem insert_ok {d d' : Dictionary} {e : DictEntry} (h : d.insert e = .ok d') (hnd : (d.by_key.map Prod.fst).Nodup) :
    Inserted d d' [e] := by
  unfold Dictionary.insert at h
  split at h
  · dsimp only at h
    split at h
    · cases h
    split at h
    · cases h
    split at h
    · cases h
    · cases h
      exact ⟨hnd, fun p hp => .inl hp⟩
  · rename_i hget
    dsimp only at h
    split at h
    · cases h
    split at h
    · cases h
    cases h
    refine ⟨?_, fun p hp => ?_⟩
    · have hnew : (e.kind, e.id) ∉ d.by_key.map Prod.fst := by
        intro hmem
        obtain ⟨p, hp, hkey⟩ := List.mem_map.mp hmem
        have hnone : d.by_key.lookup (e.kind, e.id) = none := hget
        have hother := List.lookup_eq_none_iff.mp hnone p hp
        rw [hkey, bne_self_eq_false] at hother
        exact Bool.noConfusion hother
      rw [List.map_append, List.nodup_append]
      refine ⟨hnd, List.nodup_singleton _, fun a ha b hb => ?_⟩
      rw [List.mem_singleton.mp hb]
      rintro rfl
      exact hnew ha
    · rcases List.mem_append.mp hp with hp | hp
      · exact .inl hp
      · exact .inr hp

theorem insertAll_ok {d d' : Dictionary} {es : List DictEntry} (h : insertAll d es = .ok d')
    (hnd : (d.by_key.map Prod.fst).Nodup) : Inserted d d' es := by
  induction es generalizing d with
  | nil =>
    cases h
    exact ⟨hnd, fun p hp => .inl hp⟩
  | cons e es ih =>
    obtain ⟨d₁, hins, hrest⟩ := bind_eq_ok h
    have hfirst := insert_ok hins hnd
    have hlast := ih hrest hfirst.nodup
    refine ⟨hlast.nodup, fun p hp => ?_⟩
    rcases hlast.from_ p hp with hp | hp
    · rcases hfirst.from_ p hp with hp | hp
      · exact .inl hp
      · exact .inr (List.mem_cons.mpr (.inl (List.mem_singleton.mp hp)))
    · exact .inr (List.mem_cons_of_mem _ hp)

theorem insertAll_append {d d' : Dictionary} {es more : List DictEntry} (h : insertAll d es = .ok d') :
    insertAll d (es ++ more) = insertAll d' more := by
  induction es generalizing d with
  | nil =>
    cases h
    rfl
  | cons e es ih =>
    obtain ⟨d₁, hins, hrest⟩ := bind_eq_ok h
    rw [List.cons_append, insertAll, hins]
    exact ih hrest

/-! ## chunks -/

theorem between_windowAt (data : Bytes) (o i j : Nat) :
    between data (o + i) (o + j) = windowAt (data.drop o) i (j - i) := by
  rw [between, windowAt, List.drop_drop, List.drop_take, show o + j - (o + i) = j - i by omega]

theorem unpack_eq {n offset : Nat} {buf : Bytes} (h : offset + n ≤ buf.length) :
    unpack n buf offset = .ok (leAt buf offset n) := if_pos h

theorem leAt_windowAt (s : Bytes) {i n k m : Nat} (h : k + m ≤ n) : leAt (windowAt s i n) k m = leAt s (i + k) m := by
  rw [windowAt, leAt_take h, leAt_drop]

/-- **a chunk of the writer, in the Python reader** -/
theorem chunk_framed {data payload t : Bytes} {s : Scan} {h : ChunkHeader}
    (hf : Framed (data.drop s.offset) h payload (crc32 payload) t) (hmax : payload.length ≤ 16777216)
    (hseq : h.sequence.toNat = s.expected_chunk_seq) :
    chunk data s = (do
      let taken ← take h.chunkType.toNat payload { s with expected_chunk_seq := s.expected_chunk_seq + 1 }
      .ok (some { taken with offset := s.offset + (24 + payload.length + 8) })) := by
  have hlength := hf.length
  rw [List.length_drop] at hlength
  have hhdr : between data s.offset (s.offset + 24) = windowAt (data.drop s.offset) 0 24 :=
    between_windowAt data s.offset 0 24
  have htrailer : between data (s.offset + 24 + payload.length) (s.offset + 24 + payload.length + 8)
      = windowAt (data.drop s.offset) (24 + payload.length) 8 := by
    rw [Nat.add_assoc s.offset 24, Nat.add_assoc s.offset (24 + payload.length), between_windowAt,
      Nat.add_sub_cancel_left]
  have hpayload : between data (s.offset + 24) (s.offset + 24 + payload.length) = payload := by
    rw [Nat.add_assoc s.offset 24, between_windowAt, Nat.add_sub_cancel_left, hf.payload]
  -- a number of a part of the chunk is one of the chunk
  have hunpack : ∀ start n i m, start + n ≤ data.length - s.offset → i + m ≤ n →
      unpack m (windowAt (data.drop s.offset) start n) i = .ok (leAt (data.drop s.offset) (start + i) m) := by
    intro start n i m hpart him
    have hsize : (windowAt (data.drop s.offset) start n).length = n := by
      rw [windowAt, List.length_take, List.length_drop, List.length_drop]
      omega
    rw [unpack_eq (by rw [hsize]; exact him), leAt_windowAt _ him]
  have hmagic : between (windowAt (data.drop s.offset) 0 24) 0 4 = chunkMagic := by
    rw [← hf.magic, between, windowAt, windowAt, List.drop_zero, List.drop_zero, List.take_take]
    rfl
  have htype : leAt (data.drop s.offset) 4 2 = h.chunkType.toNat := by
    rw [← hf.header]
    exact (toNat_leAt2 _ _).symm
  have hsequence : leAt (data.drop s.offset) 8 8 = s.expected_chunk_seq := by
    rw [← hseq, ← hf.header]
    exact (toNat_leAt8 _ _).symm
  have hsum : leAt (data.drop s.offset) (24 + payload.length) 4 = (crc32 payload).toNat := by
    rw [← hf.checksum]
    exact (toNat_leAt4 _ _).symm
  have hmarker : leAt (data.drop s.offset) (28 + payload.length) 4 = 0xD7C0FFEE := hf.marker
  unfold chunk
  dsimp only
  rw [hhdr, hmagic, if_neg (not_not.mpr rfl), hunpack 0 24 4 2 (by omega) (by omega),
    hunpack 0 24 8 8 (by omega) (by omega), hunpack 0 24 16 4 (by omega) (by omega), Nat.zero_add, Nat.zero_add,
    Nat.zero_add, htype, hsequence, hf.len]
  dsimp only [bind, Except.bind]
  rw [if_neg (by omega), if_neg (not_lt.mpr hmax), htrailer, hunpack _ 8 0 4 (by omega) (by omega),
    hunpack _ 8 4 4 (by omega) (by omega), Nat.add_zero, hsum, show 24 + payload.length + 4 = 28 + payload.length by omega,
    hmarker]
  dsimp only
  rw [if_neg (not_not.mpr rfl), hpayload, if_neg (not_not.mpr rfl), if_neg (not_not.mpr rfl)]

/-- as many entries as the writer wrote, of as many bytes -/
structure Decoded (d d' : Dictionary) (written : List Dtj.DictEntry) (es : List DictEntry) : Prop where
  inserted : insertAll d es = .ok d'
  count : es.length = written.length
  bytes : (es.map fun e => 10 + width e.name).sum = (written.map fun e => 7 + (utf8 e.name).length).sum

theorem Decoded.append {d d₁ d' : Dictionary} {written more : List Dtj.DictEntry} {es es' : List DictEntry}
    (h : Decoded d d₁ written es) (h' : Decoded d₁ d' more es') : Decoded d d' (written ++ more) (es ++ es') where
  inserted := (insertAll_append h.inserted).trans h'.inserted
  count := by rw [List.length_append, List.length_append, h.count, h'.count]
  bytes := by rw [List.map_append, List.map_append, List.sum_append, List.sum_append, h.bytes, h'.bytes]

/-- what the Python reader takes from the payload of a batch -/
theorem take_batch {b : Batch} (hcount : b.count < 2^32) {s s' : Scan}
    (h : take b.chunkType.toNat b.payload s = .ok s') : s'.expected_chunk_seq = s.expected_chunk_seq ∧
      ∃ es, Decoded s.dictionary s'.dictionary b.entries es := by
  have hnum : leAt b.payload 0 4 = b.count := by
    rw [Batch.payload, Nat.mod_eq_of_lt hcount]
    exact leAt_head 4 _ _ hcount
  have hlength := b.payload_length
  cases b with
  | dict written =>
    rw [show (Batch.dict written).chunkType.toNat = 1 from rfl, take, if_pos rfl] at h
    obtain ⟨es, hes, h⟩ := bind_eq_ok h
    obtain ⟨dictionary, hins, h⟩ := bind_eq_ok h
    cases h
    obtain ⟨hlen, hsize⟩ := decode_dict_entries_ok hes
    refine ⟨rfl, es, hins, hlen.trans hnum, ?_⟩
    have hbody : (Batch.dict written).body.length = (written.map fun e => 7 + (utf8 e.name).length).sum := by
      rw [Batch.body, List.length_flatMap]
      exact congrArg List.sum (List.map_congr_left fun e _ => e.raw_length)
    show _ = (written.map _).sum
    omega
  | events evs =>
    rw [show (Batch.events evs).chunkType.toNat = 2 from rfl, take, if_neg (by decide), if_pos rfl] at h
    obtain ⟨decoded, -, h⟩ := bind_eq_ok h
    obtain ⟨expected, -, h⟩ := bind_eq_ok h
    cases h
    exact ⟨rfl, [], rfl, rfl, rfl⟩

/-- **the names that the Python reader takes from the chunks of the writer** -/
theorem chunks_layout {data : Bytes} {bs : List Batch} {s s' : Scan} {torn : Bool}
    (hdata : data.drop s.offset = layout s.expected_chunk_seq bs) (hcount : s.expected_chunk_seq + bs.length < 2^64)
    (hmax : ∀ b ∈ bs, b.payload.length ≤ 16777216) (h : chunks data s = .ok (s', torn)) :
    ∃ es, Decoded s.dictionary s'.dictionary (bs.flatMap Batch.entries) es := by
  induction bs generalizing s with
  | nil =>
    have hend : data.length - s.offset = 0 := by
      rw [← List.length_drop, hdata]
      rfl
    rw [chunks, if_pos (by omega)] at h
    cases h
    exact ⟨[], rfl, rfl, rfl⟩
  | cons b bs ih =>
    have hsmall := hmax b (List.mem_cons_self ..)
    have hitems := b.count_le
    have hlen := b.payload_length
    rw [layout, Batch.raw, chunkRaw_append] at hdata
    rw [List.length_cons] at hcount
    have hframed : Framed (data.drop s.offset) (b.header s.expected_chunk_seq) b.payload (crc32 b.payload)
        (layout (s.expected_chunk_seq + 1) bs) := by
      rw [hdata]
      refine framed_framed ?_ _ _
      rw [Batch.header, UInt32.toNat_ofNat', Nat.mod_eq_of_lt (by omega)]
    have hseq : (b.header s.expected_chunk_seq).sequence.toNat = s.expected_chunk_seq := by
      rw [Batch.header, UInt64.toNat_ofNat', Nat.mod_eq_of_lt (by omega)]
    have hroom := hframed.length
    rw [List.length_drop] at hroom
    have hchunk := chunk_framed hframed hsmall hseq
    rw [chunks, if_neg (by omega)] at h
    cases htake : take (b.header s.expected_chunk_seq).chunkType.toNat b.payload
        { s with expected_chunk_seq := s.expected_chunk_seq + 1 } with
    | error e =>
      rw [htake] at hchunk
      split at h
      · cases h
      · rename_i hnone
        rw [hnone] at hchunk
        cases hchunk
      · rename_i hsome
        rw [hsome] at hchunk
        cases hchunk
    | ok taken =>
      obtain ⟨hexpected, es, hes⟩ := take_batch (by omega) htake
      rw [htake] at hchunk
      split at h
      · rename_i hfails
        rw [hfails] at hchunk
        cases hchunk
      · rename_i hnone
        rw [hnone] at hchunk
        cases hchunk
      · rename_i next hsome
        rw [hsome] at hchunk
        cases hchunk
        have hnext : data.drop (s.offset + (24 + b.payload.length + 8)) = layout taken.expected_chunk_seq bs := by
          rw [hexpected, ← List.drop_drop, show 24 + b.payload.length + 8 = 32 + b.payload.length by omega]
          exact hframed.rest
        obtain ⟨es', hes'⟩ := ih (s := { taken with offset := s.offset + (24 + b.payload.length + 8) }) hnext
          (by show taken.expected_chunk_seq + _ < _; rw [hexpected]; show s.expected_chunk_seq + 1 + _ < _; omega)
          (fun c hc => hmax c (List.mem_cons_of_mem _ hc)) h
        exact ⟨es ++ es', hes.append hes'⟩

/-! ## the names of both readers -/

/-- both readers show the same names -/
def SameNames (d : Dtj.Dictionary) (p : Dictionary) : Prop :=
  ∀ kind n t, p.get_name kind n = some t ↔ ∃ id name, d.getName kind id = some name ∧ id.toNat = n ∧ lit name = t

theorem get_name_mem {p : Dictionary} (hnd : (p.by_key.map Prod.fst).Nodup) {kind : DictKind} {n : Nat} {t : Str} :
    p.get_name kind n = some t ↔ ((kind, n), t) ∈ p.by_key := by
  rw [Dictionary.get_name, List.lookup_eq_some_iff]
  constructor
  · rintro ⟨before, after, hsplit, -⟩
    rw [hsplit]
    exact List.mem_append_right _ (List.mem_cons_self ..)
  · intro hmem
    obtain ⟨before, after, hsplit⟩ := List.append_of_mem hmem
    refine ⟨before, after, hsplit, fun q hq => ?_⟩
    rw [hsplit, List.map_append, List.nodup_append] at hnd
    have hne := hnd.2.2 q.1 (List.mem_map_of_mem hq) (kind, n) (List.mem_cons_self ..)
    exact bne_iff_ne.mpr hne.symm

/-- the key and the name of an entry of the writer -/
def written (e : Dtj.DictEntry) : (DictKind × Nat) × Str := ((e.kind, e.id.toNat), lit e.name)

theorem written_injective : Function.Injective written := by
  rintro ⟨kind, id, name⟩ ⟨kind', id', name'⟩ h
  rw [written, written, Prod.mk.injEq, Prod.mk.injEq] at h
  obtain ⟨⟨rfl, hid⟩, hname⟩ := h
  obtain rfl := UInt32.toNat_inj.mp hid
  obtain rfl := lit_injective hname
  rfl

/-- **a dictionary that was decoded is not the one that was written**, when there is a name -/
theorem decoded_differs {d : Dictionary} {entries : List Dtj.DictEntry} {es : List DictEntry}
    (h : Decoded ⟨[]⟩ d entries es) (hnd : entries.Nodup) (hsame : ∀ p, p ∈ d.by_key ↔ p ∈ entries.map written) :
    entries = [] := by
  have hins := insertAll_ok h.inserted List.nodup_nil
  have hkeys : d.by_key.Nodup := hins.nodup.of_map _
  -- all that was decoded is in the dictionary, for there are no fewer names in it
  have hperm : d.by_key.Perm (entries.map written) :=
    (List.perm_ext_iff_of_nodup hkeys (hnd.map written_injective)).mpr hsame
  have hsub : d.by_key.Subperm (es.map DictEntry.pair) := by
    refine hkeys.subperm fun p hp => ?_
    rcases hins.from_ p hp with hp | hp
    · cases hp
    · exact hp
  have hlen : (es.map DictEntry.pair).length ≤ d.by_key.length := by
    rw [hperm.length_eq, List.length_map, List.length_map, h.count]
  have hall : (entries.map written).Perm (es.map DictEntry.pair) := hperm.symm.trans (hsub.perm_of_length_le hlen)
  -- so that the names have as many bytes on both sides
  have hwidths : (entries.map fun e => (utf8 e.name).length).sum = (es.map fun e => width e.name).sum := by
    have hsum := (hall.map fun p => width p.2).sum_eq
    rw [List.map_map, List.map_map] at hsum
    rw [← List.map_congr_left fun e _ => width_lit e.name]
    exact hsum
  have hbytes := h.bytes
  rw [List.sum_map_add, List.sum_map_add, List.map_const', List.map_const', List.sum_replicate, List.sum_replicate,
    hwidths, h.count] at hbytes
  refine List.eq_nil_of_length_eq_zero ?_
  simp only [smul_eq_mul] at hbytes
  omega

/-! ## a journal without names -/

/-- a header that the Rust reader accepts -/
theorem decode_header_of {s : Bytes} {h : Dtj.FileHeader} (hs : Dtj.headerOf s = .ok h) :
    128 ≤ s.length ∧ ∃ header, decode_header s = .ok header := by
  unfold Dtj.headerOf at hs
  split at hs
  · cases hs
  split at hs
  · cases hs
  split at hs
  · cases hs
  split at hs
  · cases hs
  split at hs
  · cases hs
  rename_i hlen hmagic hversion hsize hendian
  rw [not_not] at hmagic hversion hsize hendian
  have hbetween : between s 0 4 = fileMagic := by
    rw [← hmagic, between, windowAt, List.drop_zero, List.drop_zero]
  have hversion' : leAt s 4 2 = 1 := by
    rw [← toNat_leAt2 s 4, hversion]
    rfl
  have hsize' : leAt s 6 2 = 128 := by
    rw [← toNat_leAt2 s 6, hsize]
    rfl
  have hendian' : leAt s 8 4 = 0x01020304 := by
    have hnum : leNat (windowAt s 8 4) = leNat (le 4 endianMagic.toNat) := congrArg leNat hendian
    rw [leNat_le 4 _ (by decide)] at hnum
    exact hnum
  refine ⟨not_lt.mp hlen, ?_⟩
  unfold decode_header
  rw [if_neg hlen, hbetween, if_neg (not_not.mpr rfl), unpack_eq (by omega), hversion']
  dsimp only [bind, Except.bind]
  rw [if_neg (by decide), unpack_eq (by omega), hsize']
  dsimp only
  rw [if_neg (by decide), unpack_eq (by omega), hendian']
  dsimp only
  rw [if_neg (by decide), unpack_eq (by omega), unpack_eq (by omega), unpack_eq (by omega)]
  exact ⟨_, rfl⟩

/-- a header alone -/
theorem open_header {s : Bytes} {h : Dtj.FileHeader} (hs : Dtj.headerOf s = .ok h) (hlen : s.length = 128) :
    ∃ reader, open_session (.ok s) = .ok reader ∧ reader.dictionary = ⟨[]⟩ := by
  obtain ⟨-, header, hheader⟩ := decode_header_of hs
  have hall : between s 0 128 = s := by
    rw [between, List.drop_zero, List.take_of_length_le hlen.le]
  have hchunks : ∀ scan : Scan, scan.offset = 128 → chunks s scan = .ok (scan, false) := by
    intro scan hoffset
    rw [chunks, if_pos (by omega)]
  unfold open_session
  dsimp only
  rw [if_neg (by omega), hall, hheader]
  dsimp only [bind, Except.bind]
  rw [hchunks _ rfl]
  exact ⟨_, rfl, rfl⟩

/-- an event has names, so that a journal without names has no chunk -/
theorem replay_no_names {bs : List Batch} {v : View} (hv : replay .empty bs = .ok v) (hne : ∀ b ∈ bs, b.count ≠ 0)
    (hentries : bs.flatMap Batch.entries = []) : bs = [] := by
  cases bs with
  | nil => rfl
  | cons b bs =>
    rw [List.flatMap_cons, List.append_eq_nil_iff] at hentries
    have hcount := hne b (List.mem_cons_self ..)
    cases b with
    | dict es =>
      rw [show es = [] from hentries.1] at hcount
      exact absurd rfl hcount
    | events evs =>
      cases evs with
      | nil => exact absurd rfl hcount
      | cons ev evs =>
        obtain ⟨v₁, hadd, -⟩ := bind_eq_ok hv
        obtain ⟨u, hcheck, -⟩ := bind_eq_ok hadd
        have hrefs := (checkAll_ok.mp hcheck).2 ev (List.mem_cons_self ..)
        obtain ⟨name, hname⟩ := hrefs (.domain, ev.domainId) (List.mem_cons_self ..)
        exact absurd hname (by simp [View.empty])

/-! ## the journals of the writer -/

/-- the writer keeps each name once -/
theorem recordOf_nodup (cs : List Dtj.Call) : (recordOf cs).entries.Nodup := by
  have hadd : ∀ (es : List Dtj.DictEntry) (e : Dtj.DictEntry), es.Nodup → (addEntry es e).Nodup := by
    intro es e hes
    unfold addEntry
    split
    · exact hes
    · rename_i hnew
      rw [List.nodup_append]
      refine ⟨hes, List.nodup_singleton e, fun a ha b hb => ?_⟩
      rw [List.mem_singleton.mp hb]
      rintro rfl
      exact hnew ha
  have hcall : ∀ (r : Record) (c : Dtj.Call), r.entries.Nodup → (r.call c).entries.Nodup := by
    intro r c hr
    unfold Record.call
    split
    · exact hadd _ _ hr
    · split
      · exact hr
      · exact hr
    · exact hr
  have hfold : ∀ (cs : List Dtj.Call) (r : Record), r.entries.Nodup → (cs.foldl Record.call r).entries.Nodup := by
    intro cs
    induction cs with
    | nil => exact fun r hr => hr
    | cons c cs ih => exact fun r hr => ih _ (hcall r c hr)
  exact hfold cs ⟨[], []⟩ List.nodup_nil

/-- **Both readers show the same names exactly when there are none**: of every journal that a writer leaves, after
whatever calls, on a disk that works, the Rust reader shows the names of its chunks, and the Python reader shows
these names only when there are none -/
theorem names_agree_iff {path : String} {header : Dtj.FileHeader} {d₀ d : Dtj.Disk} {w : SessionWriter}
    (hc : (SessionWriter.create path header).run d₀ = .ok w d) (hd : d₀.Reliable) (ops : List Op)
    (hgoes : (runOps ops w d).stopped = false) :
    ∃ hdr bs file, header.encode = .ok hdr ∧ ((runOps ops w d).close .drop).files path = some file ∧
      Dtj.Written hdr (runOps ops w d) .drop d₀ bs file ∧
      ((∀ b ∈ bs, b.payload.length ≤ maxChunkPayload.toNat) → file.length < 2^64 →
        ∃ r, Dtj.SessionReader.open file = .ok r ∧ Dtj.Shows bs r ∧
          ((∃ p, open_session (.ok file) = .ok p ∧ SameNames r.dictionary p.dictionary) ↔
            bs.flatMap Batch.entries = [])) := by
  obtain ⟨hdr, bs, file, henc, hfile, hwritten, hcut⟩ := session_written hc ops .drop
  refine ⟨hdr, bs, file, henc, hfile, hwritten, fun hmax h64 => ?_⟩
  have hwhole := hwritten.whole rfl hd hgoes
  have hhdr := (FileHeader.encode_ok henc).1
  have hlen : file.length = 128 + boundary bs bs.length := by
    rw [hwhole, List.length_append, layout_length, hhdr]
  obtain ⟨v, hv⟩ := hcut.replayed
  obtain ⟨r, hopen, hshows, -⟩ := open_layout_take henc hv (fun b hb => (hcut.batches b hb).1) hcut.small hmax
    (le_refl _) (by omega)
  rw [← layout_length 1 bs, List.take_length, ← hwhole] at hopen
  rw [wholeChunks_boundary bs _ (le_refl _), List.take_length] at hshows
  refine ⟨r, hopen, hshows, fun ⟨p, hp, hsame⟩ => ?_, fun hempty => ?_⟩
  · -- what the Python reader takes from the chunks
    unfold open_session at hp
    dsimp only at hp
    rw [if_neg (by omega)] at hp
    obtain ⟨pheader, -, hp⟩ := bind_eq_ok hp
    obtain ⟨⟨s, torn⟩, hchunks, hp⟩ := bind_eq_ok hp
    cases hp
    have hdata : file.drop 128 = layout 1 bs := by
      rw [hwhole, ← hhdr, List.drop_left]
    have hfew : bs.length ≤ boundary bs bs.length := by
      rw [boundary, List.take_length, ← @List.length_map _ _ bs Batch.size]
      refine List.length_le_sum_of_one_le _ fun n hn => ?_
      obtain ⟨b, -, rfl⟩ := List.mem_map.mp hn
      rw [Batch.size]
      omega
    obtain ⟨es, hes⟩ := chunks_layout hdata (show 1 + bs.length < 2^64 by omega) hmax hchunks
    have hins := insertAll_ok hes.inserted List.nodup_nil
    refine decoded_differs hes (hwritten.entries.sublist.nodup (recordOf_nodup _)) fun q => ?_
    obtain ⟨⟨kind, n⟩, t⟩ := q
    rw [← get_name_mem hins.nodup, hsame kind n t, List.mem_map]
    constructor
    · rintro ⟨id, name, hname, rfl, rfl⟩
      exact ⟨⟨kind, id, name⟩, (hshows.names kind id name).mp hname, rfl⟩
    · rintro ⟨e, he, hq⟩
      cases hq
      exact ⟨e.id, e.name, (hshows.names e.kind e.id e.name).mpr he, rfl, rfl⟩
  · have hnil := replay_no_names hv (fun b hb => (hcut.batches b hb).2) hempty
    rw [hnil] at hshows hwhole
    rw [show layout 1 [] = [] from rfl, List.append_nil] at hwhole
    obtain ⟨h', hheader, -⟩ := FileHeader.headerOf_encode henc
    rw [← hwhole] at hheader hhdr
    obtain ⟨p, hp, hdict⟩ := open_header hheader hhdr
    refine ⟨p, hp, fun kind n t => ?_⟩
    rw [hdict]
    constructor
    · intro hget
      cases hget
    · rintro ⟨id, name, hname, -, -⟩
      have hmem := (hshows.names kind id name).mp hname
      cases hmem

set_option maxRecDepth 20000 in
/-- the names of a session of one event, in the two readers -/
theorem names_agree_example : ∃ file r,
    ((runOps (exampleOps 7 ++ [.flush]) exampleStart.1 exampleStart.2).close .drop).files "s" = some file ∧
    Dtj.SessionReader.open file = .ok r ∧ ∀ p, open_session (.ok file) = .ok p → ¬ SameNames r.dictionary p.dictionary := by
  have hgoes : (runOps (exampleOps 7 ++ [.flush]) exampleStart.1 exampleStart.2).stopped = false := by decide +kernel
  obtain ⟨hdr, bs, file, henc, hfile, hwritten, hagree⟩ :=
    names_agree_iff exampleStart_run exampleDisk_reliable (exampleOps 7 ++ [.flush]) hgoes
  have hsize : file.length < 2^16 := by
    have hlen : (((runOps (exampleOps 7 ++ [.flush]) exampleStart.1 exampleStart.2).close .drop).files "s").elim 0
        List.length < 2^16 := by decide +kernel
    rw [hfile] at hlen
    exact hlen
  have hwhole := hwritten.whole rfl exampleDisk_reliable hgoes
  have hmax : ∀ b ∈ bs, b.payload.length ≤ maxChunkPayload.toNat := by
    intro b hb
    have hle : b.size ≤ (bs.map Batch.size).sum := List.le_sum_of_mem (List.mem_map_of_mem hb)
    rw [hwhole, List.length_append, layout_length, boundary, List.take_length] at hsize
    rw [Batch.size] at hle
    show _ ≤ 16777216
    omega
  obtain ⟨r, hopen, -, hiff⟩ := hagree hmax (by omega)
  refine ⟨file, r, hfile, hopen, fun p hp hsame => ?_⟩
  have hnone := hiff.mp ⟨p, hp, hsame⟩
  -- the names were committed
  have hpending := (hwritten.pending hgoes).1
  rw [hnone, List.nil_append] at hpending
  revert hpending
  decide +kernel

end Dtj.Mcp.Native
