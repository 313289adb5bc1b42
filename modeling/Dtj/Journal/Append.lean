import Dtj.Journal.Frames

/-!
# Reading a journal while it grows

More bytes behind a journal change nothing of what was decided before.

* `readChunk_append_error`, `readChunk_append_next`   a decision about a chunk stands;
* `View.Extends`, `walk_extends`                      what a walk adds to a view;
* `open_append`                                       **reading is monotone under appending**.
-/

namespace Dtj
open Wire Checked

/-- with the whole first chunk in `s`, the bytes behind it do not matter -/
theorem readChunk_append {v : View} {s : Bytes} (t : Bytes) (h : 32 + leAt s 16 4 ≤ s.length) :
    readChunk v (s ++ t) = match readChunk v s with
      | .error e => .error e
      | .ok (.done torn) => .ok (.done torn)
      | .ok (.next v' r) => .ok (.next v' (r ++ t)) := by
  have hlen : leAt (s ++ t) 16 4 = leAt s 16 4 := leAt_append_left t (by omega)
  have hall : (s ++ t).length = s.length + t.length := List.length_append
  unfold readChunk
  rw [hlen, headerAt_append t (by omega), windowAt_append t (by omega),
    windowAt_append t (by omega), leAt_append_left t (by omega), leAt_append_left t (by omega),
    List.drop_append_of_le_length (by omega)]
  have h32 : ¬ s.length < 32 := by omega
  have h32' : ¬ (s ++ t).length < 32 := by omega
  have hfull : ¬ s.length < 32 + leAt s 16 4 := by omega
  have hfull' : ¬ (s ++ t).length < 32 + leAt s 16 4 := by omega
  rw [if_neg h32, if_neg h32']
  by_cases hm : windowAt s 0 4 ≠ chunkMagic
  · rw [if_pos hm, if_pos hm]
    by_cases h0 : v.chunks = 0
    · rw [if_pos h0]
    · rw [if_neg h0]
  rw [if_neg hm, if_neg hm, if_neg hfull, if_neg hfull']
  by_cases hbig : 16777216 < leAt s 16 4
  · rw [if_pos hbig, if_pos hbig]
  rw [if_neg hbig, if_neg hbig]
  by_cases hc : leAt s (28 + leAt s 16 4) 4 ≠ committedMarker.toNat
  · rw [if_pos hc, if_pos hc]
  rw [if_neg hc, if_neg hc]
  cases accept v (headerAt s) (windowAt s 24 (leAt s 16 4))
    (UInt32.ofNat (leAt s (24 + leAt s 16 4) 4)) with
  | error e => rfl
  | ok v' => rfl

theorem readChunk_append_next {v v' : View} {s r : Bytes} (t : Bytes)
    (h : readChunk v s = .ok (.next v' r)) : readChunk v (s ++ t) = .ok (.next v' (r ++ t)) := by
  rw [readChunk_append t (readChunk_next h).1, h]

theorem readChunk_append_error {v : View} {s : Bytes} {e : Error} (t : Bytes)
    (h : readChunk v s = .error e) : readChunk v (s ++ t) = .error e := by
  by_cases hfull : 32 + leAt s 16 4 ≤ s.length
  · rw [readChunk_append t hfull, h]
  -- an error about an incomplete chunk can only be its magic, at the start
  have hall : (s ++ t).length = s.length + t.length := List.length_append
  unfold readChunk at h ⊢
  by_cases h32 : s.length < 32
  · rw [if_pos h32] at h; cases h
  rw [if_neg h32] at h
  rw [if_neg (by omega), windowAt_append t (by omega)]
  by_cases hm : windowAt s 0 4 ≠ chunkMagic
  · rw [if_pos hm] at h
    rw [if_pos hm]
    exact h
  · rw [if_neg hm, if_pos (by omega)] at h
    cases h

/-- what a later view shows beyond an earlier one -/
structure View.Extends (v v' : View) : Prop where
  events : v.events <+: v'.events
  names : ∀ {kind id name}, v.dictionary.getName kind id = some name →
    v'.dictionary.getName kind id = some name
  chunks : v.chunks ≤ v'.chunks

theorem View.Extends.refl (v : View) : v.Extends v := ⟨List.prefix_refl _, id, le_refl _⟩

theorem View.Extends.trans {v v' v'' : View} (h : v.Extends v') (h' : v'.Extends v'') :
    v.Extends v'' :=
  ⟨h.events.trans h'.events, fun hn => h'.names (h.names hn), h.chunks.trans h'.chunks⟩

theorem readChunk_extends {v v' : View} {s r : Bytes} (h : readChunk v s = .ok (.next v' r)) :
    v.Extends v' := by
  obtain ⟨c, _, hadm⟩ := readChunk_frame h
  have ha := absorb_ok (accept_ok.mp hadm).2.2
  refine ⟨?_, Dictionary.insertAll_mono ha.dictionary, ?_⟩
  · rw [ha.events]
    exact List.prefix_append _ _
  · rw [ha.chunks]
    omega

theorem walk_extends {v v' : View} {s : Bytes} {torn : Bool} (h : walk v s = .ok (v', torn)) :
    v.Extends v' := by
  induction v, s using walk_induction with
  | error v s e he => rw [walk_error he] at h; cases h
  | done v s t hd => rw [walk_done hd] at h; cases h; exact .refl _
  | next v s v₁ r hn ih =>
    rw [walk_next hn] at h
    exact (readChunk_extends hn).trans (ih h)

theorem walk_append_error {v : View} {s : Bytes} {e : Error} (t : Bytes)
    (h : walk v s = .error e) : walk v (s ++ t) = .error e := by
  induction v, s using walk_induction with
  | error v s e' he =>
    rw [walk_error he] at h
    rw [walk_error (readChunk_append_error t he), h]
  | done v s t' hd => rw [walk_done hd] at h; cases h
  | next v s v₁ r hn ih =>
    rw [walk_next hn] at h
    rw [walk_next (readChunk_append_next t hn)]
    exact ih h

/-- the walk over more bytes goes through the view of the walk over fewer -/
theorem walk_append_ok {v v' v'' : View} {s t : Bytes} {torn torn' : Bool}
    (h : walk v s = .ok (v', torn)) (h' : walk v (s ++ t) = .ok (v'', torn')) :
    v'.Extends v'' := by
  induction v, s using walk_induction with
  | error v s e he => rw [walk_error he] at h; cases h
  | done v s t' hd =>
    rw [walk_done hd] at h
    cases h
    exact walk_extends h'
  | next v s v₁ r hn ih =>
    rw [walk_next hn] at h
    rw [walk_next (readChunk_append_next t hn)] at h'
    exact ih h h'

theorem openOf_append_error {s t : Bytes} (hs : 128 ≤ s.length) {e : Error}
    (h : openOf s = .error e) : openOf (s ++ t) = .error e := by
  unfold openOf at h ⊢
  rw [if_neg (by omega)] at h
  rw [if_neg (by rw [List.length_append]; omega), List.take_append_of_le_length hs,
    List.drop_append_of_le_length hs]
  cases hh : headerOf (s.take 128) with
  | error e' => rw [hh] at h; exact h
  | ok header =>
    rw [hh] at h
    simp only at h ⊢
    cases hw : walk .empty (s.drop 128) with
    | error e' =>
      rw [hw] at h
      rw [walk_append_error t hw]
      exact h
    | ok x => rw [hw] at h; cases h

/-- **Reading is monotone under appending**: an error stays, and what a shorter journal shows
the longer one shows too -/
theorem open_append (s t : Bytes) (hs : 128 ≤ s.length) (hst : (s ++ t).length < 2^64) :
    (∀ e, SessionReader.open s = .error e → SessionReader.open (s ++ t) = .error e) ∧
    ∀ r r', SessionReader.open s = .ok r → SessionReader.open (s ++ t) = .ok r' →
      r.events <+: r'.events ∧
      (∀ kind id name, r.dictionary.getName kind id = some name →
        r'.dictionary.getName kind id = some name) ∧
      r.chunksCommitted ≤ r'.chunksCommitted := by
  have hs64 : s.length < 2^64 := by
    rw [List.length_append] at hst
    omega
  rw [open_eq hs64, open_eq hst]
  constructor
  · intro e he
    cases ho : openOf s with
    | error e' =>
      rw [openOf_append_error hs ho, ← ho]
      exact he
    | ok r => rw [ho] at he; cases he
  · intro r r' hr hr'
    rw [lift_eq_ok] at hr hr'
    obtain ⟨_, _, v, hw, hd, he, hc⟩ := openOf_ok hr
    obtain ⟨_, _, v', hw', hd', he', hc'⟩ := openOf_ok hr'
    rw [List.drop_append_of_le_length hs] at hw'
    have hext := walk_append_ok hw hw'
    have hlen := frames_length (s.drop 128 ++ t)
    have hchunks : v'.chunks = (frames (s.drop 128 ++ t)).length := (absorbed_empty.walk hw').chunks
    rw [List.length_append, List.length_drop] at hlen
    rw [List.length_append] at hst
    refine ⟨by rw [he, he']; exact hext.events, ?_, ?_⟩
    · intro kind id name hn
      rw [hd] at hn
      rw [hd']
      exact hext.names hn
    · have := hext.chunks
      rw [hc, hc', UInt64.le_iff_toNat_le, UInt64.toNat_ofNat', UInt64.toNat_ofNat',
        Nat.mod_eq_of_lt (by omega), Nat.mod_eq_of_lt (by omega)]
      exact this

set_option maxRecDepth 100000 in
/-- a journal that was cut inside its second chunk, and the whole of it -/
theorem journalBytes_append : ∃ r r', SessionReader.open (journalBytes.take 250) = .ok r ∧
    r.events = [] ∧
    SessionReader.open (journalBytes.take 250 ++ journalBytes.drop 250) = .ok r' ∧
    r'.events = [journalEvent] ∧
    (∀ kind id name, r.dictionary.getName kind id = some name →
      r'.dictionary.getName kind id = some name) ∧
    r.chunksCommitted ≤ r'.chunksCommitted := by
  obtain ⟨r, hr, he⟩ := @exists_ok SessionReader (fun r => decide (r.events = []))
    (SessionReader.open (journalBytes.take 250)) (by decide +kernel)
  obtain ⟨r', hr', he'⟩ := @exists_ok SessionReader (fun r => decide (r.events = [journalEvent]))
    (SessionReader.open (journalBytes.take 250 ++ journalBytes.drop 250)) (by decide +kernel)
  have h := open_append (journalBytes.take 250) (journalBytes.drop 250) (by decide +kernel)
    (by decide +kernel)
  exact ⟨r, r', hr, of_decide_eq_true he, hr', of_decide_eq_true he', (h.2 r r' hr hr').2⟩

end Dtj
