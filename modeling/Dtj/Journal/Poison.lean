import Dtj.Journal.Limits

/-!
# A refusal by the encoders lasts

For batches of fewer than 2³² items whose events have one field each, the casts to `u32` lose
nothing.  What is pending then only grows until a flush succeeds, so that a flush that was refused
is refused for ever.

* `Batch.Plain`, `Plain.within_iff`   such batches;
* `Within.part`                       a part of a batch is within the limits if the batch is;
* `ready_iff`, `ready_of_grown`       what is pending, and what was pending before it;
* `boundary_le`                       how long a file of such batches is.
-/

namespace Dtj
open Wire Checked SessionWriter

/-- a batch whose lengths fit in 32 bits, and whose events have one field each -/
structure Batch.Plain (b : Batch) : Prop where
  count : b.count < 2^32
  fields : ∀ ev ∈ b.evs, ev.payload.fields.length = 1

theorem EventRecord.raw_length_le {ev : EventRecord} (hf : ev.Fits)
    (h1 : ev.payload.fields.length = 1) : ev.raw.length ≤ 4156 := by
  have hfields := @flatMap_length_le Field Field.raw 4114 ev.payload.fields fun f hm => by
    have := (hf.1.2 f hm).raw_length
    rw [Field.raw_length]
    omega
  rw [h1] at hfields
  rw [EventRecord.raw_length, TypedPayload.raw, List.length_append, le_length]
  omega

theorem Batch.Plain.body_length {b : Batch} (hb : b.Plain) (hi : b.ItemsFit) :
    b.body.length ≤ b.count * 4156 := by
  cases b with
  | dict es =>
    refine @flatMap_length_le DictEntry DictEntry.raw 4156 es fun e he => ?_
    have := hi e he
    rw [DictEntry.raw_length]
    omega
  | events evs =>
    exact @flatMap_length_le EventRecord EventRecord.raw 4156 evs fun ev hev =>
      EventRecord.raw_length_le (hi ev hev) (hb.fields ev hev)

theorem Batch.Plain.within_iff {b : Batch} (hb : b.Plain) : b.Within ↔ b.Committable := by
  constructor
  · exact Within.committable
  · intro h
    have hcount := h.count
    rw [Nat.mod_eq_of_lt hb.count] at hcount
    have hlen := hb.body_length h.items
    refine (Batch.within_iff ?_).mpr h
    rw [Batch.payload_length]
    omega

/-! ## what is pending only grows -/

theorem Batch.Within.part {b c : Batch} (h : c.Within) (hcount : b.count ≤ c.count)
    (hitems : c.ItemsFit → b.ItemsFit) (hbody : b.body <+: c.body) : b.Within where
  count := hcount.trans h.count
  items := hitems h.items
  payload := by
    have hle := hbody.length_le
    have hp := h.payload
    rw [Batch.payload_length] at hp ⊢
    omega

theorem within_dict_of {es es' : List DictEntry} (hp : es <+: es')
    (h : (Batch.dict es').Within) : (Batch.dict es).Within :=
  h.part hp.length_le (fun hi e he => hi e (hp.subset he)) (flatMap_mono _ hp)

theorem within_events_of {evs evs' : List EventRecord} (hp : evs <+: evs')
    (h : (Batch.events evs').Within) : (Batch.events evs).Within :=
  h.part hp.length_le (fun hi ev hev => hi ev (hp.subset hev)) (flatMap_mono _ hp)

theorem ready_iff {w : SessionWriter} : Ready w ↔
    (Batch.dict w.pendingDict).Committable ∧ (Batch.events w.pendingEvents).Committable := by
  have hnilDict : (Batch.dict []).Committable :=
    Batch.Within.committable (by decide)
  have hnilEvents : (Batch.events []).Committable :=
    Batch.Within.committable (by decide)
  unfold Ready dictBatch eventBatch
  by_cases hd : w.pendingDict = []
  · by_cases he : w.pendingEvents = []
    · simp [hd, he, hnilDict, hnilEvents]
    · simp [hd, he, hnilDict]
  · by_cases he : w.pendingEvents = []
    · simp [hd, he, hnilEvents]
    · simp [hd, he]

/-- the batches that are pending are plain -/
def PlainPending (w : SessionWriter) : Prop :=
  (Batch.dict w.pendingDict).Plain ∧ (Batch.events w.pendingEvents).Plain

/-- **what is pending cannot be written once a part of it could not** -/
theorem ready_of_grown {w w' : SessionWriter} (hp : PlainPending w')
    (hd : w.pendingDict <+: w'.pendingDict) (he : w.pendingEvents <+: w'.pendingEvents)
    (h : Ready w') : Ready w := by
  obtain ⟨hd', he'⟩ := ready_iff.mp h
  exact ready_iff.mpr ⟨(within_dict_of hd (hp.1.within_iff.mpr hd')).committable,
    (within_events_of he (hp.2.within_iff.mpr he')).committable⟩

/-! ## the length of a file -/

/-- a chunk is at most 16 MiB and its header -/
theorem boundary_le {bs : List Batch} (h : ∀ b ∈ bs, b.Within) (k : Nat) :
    boundary bs k ≤ bs.length * 16777248 := by
  have hsum : ∀ cs : List Batch, (∀ b ∈ cs, b.Within) →
      (cs.map Batch.size).sum ≤ cs.length * 16777248 := by
    intro cs hcs
    induction cs with
    | nil => exact Nat.zero_le _
    | cons b cs ih =>
      have hb := (hcs b (List.mem_cons_self ..)).payload
      have hrest := ih fun c hc => hcs c (List.mem_cons_of_mem _ hc)
      rw [List.map_cons, List.sum_cons, List.length_cons, Batch.size]
      omega
  have htake := hsum (bs.take k) fun b hb => h b (List.mem_of_mem_take hb)
  have hlen : (bs.take k).length ≤ bs.length := List.length_take_le' _ _
  unfold boundary
  exact htake.trans (Nat.mul_le_mul_right _ hlen)

theorem Batch.count_eq (b : Batch) : b.count = b.entries.length + b.evs.length := by
  cases b with
  | dict es => rfl
  | events evs => exact (Nat.zero_add _).symm

/-- how many items the chunks have -/
def items (bs : List Batch) : Nat := (bs.flatMap Batch.entries).length + (bs.flatMap Batch.evs).length

theorem items_cons (b : Batch) (bs : List Batch) : items (b :: bs) = b.count + items bs := by
  unfold items
  rw [List.flatMap_cons, List.flatMap_cons, List.length_append, List.length_append, Batch.count_eq]
  omega

theorem count_le_items {bs : List Batch} {b : Batch} (hb : b ∈ bs) : b.count ≤ items bs := by
  induction bs with
  | nil => cases hb
  | cons c bs ih =>
    rw [items_cons]
    rcases List.mem_cons.mp hb with rfl | hb
    · exact Nat.le_add_right _ _
    · exact (ih hb).trans (Nat.le_add_left _ _)

/-- there are no more chunks than items -/
theorem length_le_items {bs : List Batch} (h : ∀ b ∈ bs, b.count ≠ 0) : bs.length ≤ items bs := by
  induction bs with
  | nil => exact Nat.zero_le _
  | cons b bs ih =>
    have hb := h b (List.mem_cons_self ..)
    have hrest := ih fun c hc => h c (List.mem_cons_of_mem _ hc)
    rw [List.length_cons, items_cons]
    omega

end Dtj
