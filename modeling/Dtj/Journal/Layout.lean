import Dtj.Journal.Frames

/-!
# The journal that a writer leaves behind

A flush writes a batch of entries or of events as one chunk.

* `Batch`, `Batch.payload`, `Batch.raw`, `layout`   the bytes of a list of batches;
* `Batch.Committable`, `encode_ok`                  what the encoders accept, after their casts;
* `View.add`, `replay`                              what the batches amount to for a reader;
* `readChunk_raw`, `readChunk_cut`                  a whole chunk is read, a cut one is torn;
* `walk_take`   **a prefix of a layout shows the chunks that lie wholly inside it**.
-/

namespace Dtj
open Wire Checked

inductive Batch where
  | dict (es : List DictEntry)
  | events (evs : List EventRecord)

namespace Batch

def entries : Batch → List DictEntry
  | .dict es => es
  | .events _ => []

def evs : Batch → List EventRecord
  | .dict _ => []
  | .events evs => evs

def chunkType : Batch → UInt16
  | .dict _ => 1
  | .events _ => 2

/-- the encoder that the writer calls -/
def encode : Batch → Except Error Bytes
  | .dict es => Dictionary.encodeEntries es
  | .events evs => EventRecord.encode evs

/-- how many items the batch has -/
def count : Batch → Nat
  | .dict es => es.length
  | .events evs => evs.length

def body : Batch → Bytes
  | .dict es => es.flatMap DictEntry.raw
  | .events evs => evs.flatMap EventRecord.raw

def payload (b : Batch) : Bytes := le 4 (b.count % 2^32) ++ b.body

/-- each item by itself is within the limits -/
def ItemsFit : Batch → Prop
  | .dict es => ∀ e ∈ es, (utf8 e.name).length ≤ 1024
  | .events evs => ∀ ev ∈ evs, ev.Fits

instance (b : Batch) : Decidable b.ItemsFit :=
  match b with
  | .dict es => inferInstanceAs (Decidable (∀ e ∈ es, (utf8 e.name).length ≤ 1024))
  | .events evs => inferInstanceAs (Decidable (∀ ev ∈ evs, ev.Fits))

/-- what the encoders check, after their casts to `u32` -/
structure Committable (b : Batch) : Prop where
  count : b.count % 2^32 ≤ 65535
  items : b.ItemsFit
  payload : b.payload.length % 2^32 ≤ 16777216

theorem encode_ok {b : Batch} {out : Bytes} :
    b.encode = .ok out ↔ b.count % 2^32 ≤ 65535 ∧ b.ItemsFit ∧ out = b.payload := by
  cases b with
  | dict es => exact Dictionary.encodeEntries_ok
  | events evs => exact EventRecord.encode_ok

def header (seq : Nat) (b : Batch) : ChunkHeader :=
  ⟨b.chunkType, UInt64.ofNat seq, UInt32.ofNat b.payload.length⟩

def raw (seq : Nat) (b : Batch) : Bytes := chunkRaw (b.header seq) b.payload

theorem raw_length (seq : Nat) (b : Batch) : (b.raw seq).length = 32 + b.payload.length :=
  chunkRaw_length _ _

/-- there are no more items than bytes -/
theorem count_le (b : Batch) : b.count ≤ b.body.length := by
  have hle : ∀ {α : Type} {g : α → Bytes}, (∀ a, 0 < (g a).length) →
      ∀ l : List α, l.length ≤ (l.flatMap g).length := by
    intro α g hg l
    induction l with
    | nil => simp
    | cons a l ih =>
      have := hg a
      rw [List.flatMap_cons, List.length_append, List.length_cons]
      omega
  cases b with
  | dict es => exact hle (fun e => by rw [DictEntry.raw_length]; omega) es
  | events evs => exact hle (fun ev => by rw [EventRecord.raw_length]; omega) evs

theorem payload_length (b : Batch) : b.payload.length = 4 + b.body.length := by
  rw [payload, List.length_append, le_length]

end Batch

/-- the chunks one after the other, numbered from `n` on -/
def layout : Nat → List Batch → Bytes
  | _, [] => []
  | n, b :: bs => b.raw n ++ layout (n + 1) bs

theorem layout_append (n : Nat) (bs cs : List Batch) :
    layout n (bs ++ cs) = layout n bs ++ layout (n + bs.length) cs := by
  induction bs generalizing n with
  | nil => rfl
  | cons b bs ih =>
    rw [List.cons_append, layout, layout, ih, List.append_assoc, List.length_cons, Nat.add_assoc,
      Nat.add_comm 1]

/-! ## what the batches amount to -/

/-- a batch, added to a view -/
def View.add (v : View) : Batch → Except Error View
  | .dict es => do
    let d ← v.dictionary.insertAll es
    .ok ⟨d, v.events, v.chunks + 1⟩
  | .events evs => do
    checkAll v.dictionary (v.events.length + 1) evs
    .ok ⟨v.dictionary, v.events ++ evs, v.chunks + 1⟩

def replay : View → List Batch → Except Error View
  | v, [] => .ok v
  | v, b :: bs => do
    let v' ← v.add b
    replay v' bs

theorem replay_append {v v' : View} {bs cs : List Batch} (h : replay v bs = .ok v') :
    replay v (bs ++ cs) = replay v' cs := by
  induction bs generalizing v with
  | nil => cases h; rfl
  | cons b bs ih =>
    rw [List.cons_append, replay]
    rw [replay] at h
    cases ha : v.add b with
    | error e => rw [ha] at h; cases h
    | ok v₁ =>
      rw [ha] at h
      exact ih h

theorem View.add_chunks {v v' : View} {b : Batch} (h : v.add b = .ok v') :
    v'.chunks = v.chunks + 1 := by
  cases b with
  | dict es =>
    rw [View.add] at h
    cases hd : v.dictionary.insertAll es with
    | error e => rw [hd] at h; cases h
    | ok d => rw [hd] at h; cases h; rfl
  | events evs =>
    rw [View.add] at h
    cases hc : checkAll v.dictionary (v.events.length + 1) evs with
    | error e => rw [hc] at h; cases h
    | ok u => rw [hc] at h; cases h; rfl

/-- **everything that adding a batch does** -/
theorem View.add_ok {v v' : View} {b : Batch} (h : v.add b = .ok v') :
    v.dictionary.insertAll b.entries = .ok v'.dictionary ∧ v'.events = v.events ++ b.evs ∧
      v'.chunks = v.chunks + 1 := by
  refine ⟨?_, ?_, View.add_chunks h⟩
  · cases b with
    | dict es =>
      rw [View.add] at h
      cases hd : v.dictionary.insertAll es with
      | error e => rw [hd] at h; cases h
      | ok d => rw [hd] at h; cases h; exact hd
    | events evs =>
      rw [View.add] at h
      cases hc : checkAll v.dictionary (v.events.length + 1) evs with
      | error e => rw [hc] at h; cases h
      | ok u => rw [hc] at h; cases h; rfl
  · cases b with
    | dict es =>
      rw [View.add] at h
      cases hd : v.dictionary.insertAll es with
      | error e => rw [hd] at h; cases h
      | ok d => rw [hd] at h; cases h; exact (List.append_nil _).symm
    | events evs =>
      rw [View.add] at h
      cases hc : checkAll v.dictionary (v.events.length + 1) evs with
      | error e => rw [hc] at h; cases h
      | ok u => rw [hc] at h; cases h; rfl

theorem replay_cons_ok {v v' : View} {b : Batch} {bs : List Batch}
    (h : replay v (b :: bs) = .ok v') : ∃ v₁, v.add b = .ok v₁ ∧ replay v₁ bs = .ok v' := by
  rw [replay] at h
  cases ha : v.add b with
  | error e => rw [ha] at h; cases h
  | ok v₁ => rw [ha] at h; exact ⟨v₁, rfl, h⟩

theorem replay_ok {v v' : View} {bs : List Batch} (h : replay v bs = .ok v') :
    v.dictionary.insertAll (bs.flatMap Batch.entries) = .ok v'.dictionary ∧
      v'.events = v.events ++ bs.flatMap Batch.evs ∧ v'.chunks = v.chunks + bs.length := by
  induction bs generalizing v with
  | nil => cases h; exact ⟨rfl, (List.append_nil _).symm, rfl⟩
  | cons b bs ih =>
    obtain ⟨v₁, h1, h2⟩ := replay_cons_ok h
    obtain ⟨hd, he, hc⟩ := View.add_ok h1
    obtain ⟨hd', he', hc'⟩ := ih h2
    refine ⟨?_, ?_, ?_⟩
    · rw [List.flatMap_cons, Dictionary.insertAll_append, hd]
      exact hd'
    · rw [he', he, List.flatMap_cons, List.append_assoc]
    · rw [hc', hc, List.length_cons]
      omega

/-- the events of the batches are numbered from 1 on -/
theorem replay_numbered {v v' : View} {bs : List Batch} (h : replay v bs = .ok v')
    (hv : Numbered 1 v.events) : Numbered 1 v'.events := by
  induction bs generalizing v with
  | nil => cases h; exact hv
  | cons b bs ih =>
    obtain ⟨v₁, h1, h2⟩ := replay_cons_ok h
    refine ih h2 ?_
    rw [(View.add_ok h1).2.1]
    refine numbered_append.mpr ⟨hv, ?_⟩
    cases b with
    | dict es => exact numbered_nil _
    | events evs =>
      rw [View.add] at h1
      rw [Nat.add_comm]
      cases hc : checkAll v.dictionary (v.events.length + 1) evs with
      | error e => rw [hc] at h1; cases h1
      | ok u => exact (checkAll_ok.mp hc).1

/-! ## a whole chunk is read, a cut one is torn -/

/-- a batch within the real limits is what its payload is read as -/
theorem absorb_batch {v : View} {b : Batch} (hb : b.Committable)
    (hmax : b.payload.length ≤ 16777216) : absorb v b.chunkType b.payload = v.add b := by
  have hle := b.count_le
  have hlen := b.payload_length
  have hcount := hb.count
  have hmod : b.count % 2^32 = b.count := Nat.mod_eq_of_lt (by omega)
  rw [hmod] at hcount
  have hpay : b.payload = le 4 b.count ++ b.body := by rw [Batch.payload, hmod]
  cases b with
  | dict es =>
    have hread : entriesOf (Batch.dict es).payload = .ok es := by
      rw [hpay]
      exact entriesOf_raw hcount hb.items
    show (if (1 : UInt16) = 1 then _ else _) = _
    rw [if_pos rfl, hread, ok_bind]
    rfl
  | events evs =>
    have hread : eventsOf (Batch.events evs).payload = .ok evs := by
      rw [hpay]
      exact eventsOf_raw hcount hb.items
    show (if (2 : UInt16) = 1 then _ else if (2 : UInt16) = 2 then _ else _) = _
    rw [if_neg (by decide), if_pos rfl, hread, ok_bind]
    rfl

/-- the fields of a chunk that was written, as the reader finds them -/
structure RawFields (b : Batch) (seq : Nat) (s : Bytes) : Prop where
  magic : windowAt s 0 4 = chunkMagic
  len : leAt s 16 4 = b.payload.length
  header : headerAt s = b.header seq

theorem rawFields_of_part {b : Batch} {seq : Nat} {s t : Bytes}
    (hmax : b.payload.length < 2^32) (hs : 24 ≤ s.length)
    (h : s <+: b.raw seq ++ t) : RawFields b seq s := by
  obtain ⟨r, hr⟩ := h
  have hraw : b.raw seq ++ t = (b.header seq).raw ++ (b.payload ++
      (le 4 (crc32 b.payload).toNat ++ le 4 committedMarker.toNat) ++ t) := by
    simp only [Batch.raw, chunkRaw, List.append_assoc]
  have hhead : headerAt s = b.header seq := by
    rw [← headerAt_append r hs, hr, hraw, headerAt_raw]
  refine ⟨?_, ?_, hhead⟩
  · rw [← windowAt_append r (by omega), hr, hraw]
    rfl
  · rw [← headerAt_payloadLen, hhead]
    show (UInt32.ofNat b.payload.length).toNat = _
    rw [UInt32.toNat_ofNat', Nat.mod_eq_of_lt hmax]

/-- **a chunk that was written is read whole, whatever follows it** -/
theorem readChunk_raw {v : View} {b : Batch} (hb : b.Committable)
    (hmax : b.payload.length ≤ 16777216) (hv : v.chunks + 1 < 2^64) (t : Bytes) :
    readChunk v (b.raw (v.chunks + 1) ++ t) = match v.add b with
      | .error e => .error e
      | .ok v' => .ok (.next v' t) := by
  have hlen : (b.header (v.chunks + 1)).payloadLen.toNat = b.payload.length := by
    show (UInt32.ofNat b.payload.length).toNat = _
    rw [UInt32.toNat_ofNat', Nat.mod_eq_of_lt (by omega)]
  have hf : Framed (b.raw (v.chunks + 1) ++ t) (b.header (v.chunks + 1)) b.payload
      (crc32 b.payload) t := by
    rw [Batch.raw, chunkRaw_append]
    exact framed_framed hlen _ _
  have hadm : accept v (b.header (v.chunks + 1)) b.payload (crc32 b.payload) = v.add b := by
    have hseq : (b.header (v.chunks + 1)).sequence.toNat = v.chunks + 1 := by
      show (UInt64.ofNat (v.chunks + 1)).toNat = _
      rw [UInt64.toNat_ofNat', Nat.mod_eq_of_lt hv]
    unfold accept
    rw [if_neg (not_not.mpr rfl), if_neg (not_not.mpr hseq)]
    exact absorb_batch hb hmax
  have h32 : ¬ (b.raw (v.chunks + 1) ++ t).length < 32 := by rw [hf.length]; omega
  have hfull : ¬ (b.raw (v.chunks + 1) ++ t).length < 32 + b.payload.length := by
    rw [hf.length]
    omega
  unfold readChunk
  rw [hf.len, hf.header, hf.payload, hf.checksum, hf.marker, hf.rest, if_neg h32,
    if_neg (not_not.mpr hf.magic),
    if_neg hfull, if_neg (not_lt.mpr hmax), if_neg (not_not.mpr rfl)]
  cases hadd : v.add b with
  | error e =>
    rw [hadd] at hadm
    simp only [hadm]
  | ok v' =>
    rw [hadd] at hadm
    simp only [hadm]

/-- **a chunk that is cut off is torn** -/
theorem readChunk_cut {v : View} {b : Batch} {seq : Nat} {s : Bytes}
    (hmax : b.payload.length < 2^32) (h : s <+: b.raw seq)
    (hs : s.length < 32 + b.payload.length) :
    readChunk v s = .ok (.done (decide (0 < s.length))) := by
  unfold readChunk
  by_cases h32 : s.length < 32
  · rw [if_pos h32]
  have hf := @rawFields_of_part b seq s [] hmax (by omega) (by simpa using h)
  have hmagic : ¬ windowAt s 0 4 ≠ chunkMagic := not_not.mpr hf.magic
  have hfull : s.length < 32 + leAt s 16 4 := by rw [hf.len]; exact hs
  have hpos : decide (0 < s.length) = true := by
    rw [decide_eq_true_eq]
    omega
  rw [if_neg h32, if_neg hmagic, if_pos hfull, hpos]

/-! ## prefixes of a layout -/

def Batch.size (b : Batch) : Nat := 32 + b.payload.length

/-- where the first `k` chunks end -/
def boundary (bs : List Batch) (k : Nat) : Nat := ((bs.take k).map Batch.size).sum

/-- how many chunks lie wholly inside the first `n` bytes -/
def wholeChunks : List Batch → Nat → Nat
  | [], _ => 0
  | b :: bs, n => if b.size ≤ n then wholeChunks bs (n - b.size) + 1 else 0

theorem layout_length (n : Nat) (bs : List Batch) :
    (layout n bs).length = boundary bs bs.length := by
  induction bs generalizing n with
  | nil => rfl
  | cons b bs ih =>
    rw [layout, List.length_append, Batch.raw_length, ih, boundary, List.take_length, boundary,
      List.take_length, List.map_cons, List.sum_cons, Batch.size]

@[simp] theorem boundary_zero (bs : List Batch) : boundary bs 0 = 0 := rfl

theorem boundary_cons (b : Batch) (bs : List Batch) (k : Nat) :
    boundary (b :: bs) (k + 1) = b.size + boundary bs k := rfl

theorem wholeChunks_le (bs : List Batch) (n : Nat) : wholeChunks bs n ≤ bs.length := by
  induction bs generalizing n with
  | nil => exact le_refl _
  | cons b bs ih =>
    rw [wholeChunks]
    split
    · exact Nat.succ_le_succ (ih _)
    · exact Nat.zero_le _

theorem boundary_wholeChunks (bs : List Batch) (n : Nat) : boundary bs (wholeChunks bs n) ≤ n := by
  induction bs generalizing n with
  | nil => exact Nat.zero_le _
  | cons b bs ih =>
    rw [wholeChunks]
    split
    · rename_i h
      have := ih (n - b.size)
      rw [boundary_cons]
      omega
    · exact Nat.zero_le _

theorem wholeChunks_boundary (bs : List Batch) (j : Nat) (hj : j ≤ bs.length) :
    wholeChunks bs (boundary bs j) = j := by
  induction bs generalizing j with
  | nil => exact (Nat.le_zero.mp hj).symm
  | cons b bs ih =>
    cases j with
    | zero => exact if_neg (by show ¬ b.size ≤ 0; rw [Batch.size]; omega)
    | succ j =>
      rw [boundary_cons, wholeChunks, if_pos (Nat.le_add_right _ _), Nat.add_sub_cancel_left,
        ih j (Nat.le_of_succ_le_succ hj)]

/-- a cut inside a chunk is a cut on no boundary -/
theorem boundary_lt_iff (bs : List Batch) (n : Nat) :
    boundary bs (wholeChunks bs n) < n ↔ ¬ ∃ j ≤ bs.length, n = boundary bs j := by
  have hle := boundary_wholeChunks bs n
  constructor
  · rintro hlt ⟨j, hj, rfl⟩
    rw [wholeChunks_boundary bs j hj] at hlt
    exact absurd hlt (lt_irrefl _)
  · intro h
    have hne : n ≠ boundary bs (wholeChunks bs n) :=
      fun e => h ⟨_, wholeChunks_le bs n, e⟩
    omega

/-- **a prefix of a layout shows the chunks that lie wholly inside it**; the tail is torn when
something of the next chunk is left -/
theorem walk_take {v ve : View} {bs : List Batch} (hr : replay v bs = .ok ve)
    (hbs : ∀ b ∈ bs, b.Committable ∧ b.payload.length ≤ 16777216)
    (hv : v.chunks + bs.length < 2^64) (n : Nat) (hn : n ≤ boundary bs bs.length) :
    ∃ v', replay v (bs.take (wholeChunks bs n)) = .ok v' ∧
      walk v ((layout (v.chunks + 1) bs).take n)
        = .ok (v', decide (boundary bs (wholeChunks bs n) < n)) := by
  induction bs generalizing v n with
  | nil =>
    have hn0 : n = 0 := Nat.le_zero.mp hn
    subst hn0
    exact ⟨v, rfl, walk_done rfl⟩
  | cons b bs ih =>
    obtain ⟨v₁, h1, h2⟩ := replay_cons_ok hr
    obtain ⟨hb, hmax⟩ := hbs b (List.mem_cons_self ..)
    have hc := View.add_chunks h1
    rw [List.length_cons] at hv hn
    by_cases hsize : b.size ≤ n
    · rw [boundary_cons] at hn
      obtain ⟨v', hr', hw'⟩ := ih h2 (fun b' hb' => hbs b' (List.mem_cons_of_mem _ hb'))
        (by omega) (n - b.size) (by omega)
      have hread := @readChunk_raw v b hb hmax (by omega)
        ((layout (v₁.chunks + 1) bs).take (n - b.size))
      rw [h1] at hread
      have htake : (layout (v.chunks + 1) (b :: bs)).take n
          = b.raw (v.chunks + 1) ++ (layout (v₁.chunks + 1) bs).take (n - b.size) := by
        rw [layout, hc, List.take_append, Batch.raw_length, List.take_of_length_le, Batch.size]
        rw [Batch.raw_length]
        exact hsize
      have hlt : boundary bs (wholeChunks bs (n - b.size)) < n - b.size
          ↔ b.size + boundary bs (wholeChunks bs (n - b.size)) < n := by omega
      rw [wholeChunks, if_pos hsize, List.take_succ_cons, htake, walk_next hread, boundary_cons]
      refine ⟨v', ?_, ?_⟩
      · rw [replay, h1]
        exact hr'
      · rw [hw']
        simp only [hlt]
    · have htake : (layout (v.chunks + 1) (b :: bs)).take n = (b.raw (v.chunks + 1)).take n := by
        rw [layout, List.take_append_of_le_length]
        rw [Batch.raw_length, ← Batch.size]
        omega
      have hlen : ((b.raw (v.chunks + 1)).take n).length = n := by
        rw [List.length_take, Batch.raw_length, ← Batch.size]
        omega
      have hcut := @readChunk_cut v b (v.chunks + 1) ((b.raw (v.chunks + 1)).take n) (by omega)
        (List.take_prefix _ _) (by rw [hlen]; exact not_le.mp hsize)
      rw [hlen] at hcut
      rw [wholeChunks, if_neg hsize, htake, walk_done hcut]
      exact ⟨v, rfl, rfl⟩

end Dtj
