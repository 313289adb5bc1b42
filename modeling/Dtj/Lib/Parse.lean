import Dtj.Lib.Bytes

/-!
# Parsers of byte strings, and the two laws of a codec

A `Parser ε α` takes a value from the front of a byte string and hands back the rest.  A codec is
a parser `p` with an encoder `enc : α → Bytes` and the set `ok` of the values it is meant for:

* `Inverts p enc ok`   `p` reads back every encoded value of `ok`, whatever follows it;
* `Sized p enc ok`     whatever `p` accepts lies in `ok`, and took as many bytes as its encoding.

`times p n` reads `n` values; both laws lift to it (`Inverts.times`, `Sized.times`).  A program
that keeps an offset into a buffer instead of a rest reads the same values
(`forRange_eq_times`): its counted loop over `(offset, values so far)` is `times` on the rest.
`listOf` is a whole buffer of a count and as many values, `decodeCounted` its decoder with an offset.

A grammar `B : α → Bytes → Prop` says which byte strings stand for a value.  `Reads p B`: the parser
accepts exactly the strings that start with the bytes of a value; it lifts to lists
(`Reads.times`, `Reads.listOf`).  `Fails p Q`: every error of the parser satisfies `Q`.
`Edits es s t`: the bytes `t` are those of `s`, each changed as `es` says.
-/

namespace Wire
open Checked

abbrev Parser (ε α : Type) := Bytes → Except ε (α × Bytes)

section
variable {ε α : Type}

/-- `n` values, one after the other -/
def times (p : Parser ε α) : Nat → Parser ε (List α)
  | 0, s => .ok ([], s)
  | n + 1, s =>
    match p s with
    | .error e => .error e
    | .ok (a, s') =>
      match times p n s' with
      | .error e => .error e
      | .ok (as, r) => .ok (a :: as, r)

/-- the parser hands back a suffix of its input -/
def Suffix (p : Parser ε α) : Prop := ∀ s a r, p s = .ok (a, r) → r <:+ s

def Inverts (p : Parser ε α) (enc : α → Bytes) (ok : α → Prop) : Prop :=
  ∀ a, ok a → ∀ t, p (enc a ++ t) = .ok (a, t)

def Sized (p : Parser ε α) (enc : α → Bytes) (ok : α → Prop) : Prop :=
  ∀ s a r, p s = .ok (a, r) → ok a ∧ r <:+ s ∧ s.length = (enc a).length + r.length

theorem Sized.suffix {p : Parser ε α} {enc : α → Bytes} {ok : α → Prop} (h : Sized p enc ok) :
    Suffix p := fun s a r hp => (h s a r hp).2.1

theorem times_succ_ok {p : Parser ε α} {n : Nat} {s r : Bytes} {l : List α}
    (h : times p (n + 1) s = .ok (l, r)) :
    ∃ a s' as, p s = .ok (a, s') ∧ times p n s' = .ok (as, r) ∧ l = a :: as := by
  rw [times] at h
  cases hp : p s with
  | error e => rw [hp] at h; cases h
  | ok x =>
    obtain ⟨a, s'⟩ := x
    rw [hp] at h
    simp only at h
    cases ht : times p n s' with
    | error e => rw [ht] at h; cases h
    | ok y =>
      obtain ⟨as, r'⟩ := y
      rw [ht] at h
      cases h
      exact ⟨a, s', as, rfl, ht, rfl⟩

theorem Suffix.times {p : Parser ε α} (h : Suffix p) (n : Nat) : Suffix (times p n) := by
  induction n with
  | zero => intro s l r hs; cases hs; exact List.suffix_refl s
  | succ n ih =>
    intro s l r hs
    obtain ⟨a, s', as, h1, h2, _⟩ := times_succ_ok hs
    exact (ih s' as r h2).trans (h s a s' h1)

theorem Inverts.times {p : Parser ε α} {enc : α → Bytes} {ok : α → Prop} (h : Inverts p enc ok)
    (l : List α) (hl : ∀ a ∈ l, ok a) (t : Bytes) :
    times p l.length (l.flatMap enc ++ t) = .ok (l, t) := by
  induction l with
  | nil => rfl
  | cons a l ih =>
    have h1 := h a (hl a (List.mem_cons_self ..)) (l.flatMap enc ++ t)
    have h2 := ih (fun b hb => hl b (List.mem_cons_of_mem _ hb))
    rw [List.flatMap_cons, List.append_assoc, List.length_cons, Wire.times, h1]
    simp only [h2]

theorem Sized.times {p : Parser ε α} {enc : α → Bytes} {ok : α → Prop} (h : Sized p enc ok)
    (n : Nat) (s : Bytes) (l : List α) (r : Bytes) (hs : times p n s = .ok (l, r)) :
    (∀ a ∈ l, ok a) ∧ l.length = n ∧ r <:+ s ∧ s.length = (l.flatMap enc).length + r.length := by
  induction n generalizing s l with
  | zero =>
    cases hs
    exact ⟨by simp, rfl, List.suffix_refl _, by simp⟩
  | succ n ih =>
    obtain ⟨a, s', as, h1, h2, rfl⟩ := times_succ_ok hs
    obtain ⟨ha, hsuf, hlen⟩ := h s a s' h1
    obtain ⟨has, hn, hsuf', hlen'⟩ := ih s' as h2
    refine ⟨?_, ?_, hsuf'.trans hsuf, ?_⟩
    · intro b hb
      rcases List.mem_cons.mp hb with e | e
      · rw [e]; exact ha
      · exact has b e
    · rw [List.length_cons, hn]
    · rw [List.flatMap_cons, List.length_append]
      omega

/-! ## a whole buffer -/

/-- parse everything; `junk k` is the error when `k` bytes are left -/
def whole (p : Parser ε α) (junk : Nat → ε) (s : Bytes) : Except ε α :=
  match p s with
  | .error e => .error e
  | .ok (a, r) => if r.length = 0 then .ok a else .error (junk r.length)

theorem whole_ok {p : Parser ε α} {junk : Nat → ε} {s : Bytes} {a : α} :
    whole p junk s = .ok a ↔ p s = .ok (a, []) := by
  unfold whole
  cases hp : p s with
  | error e => simp
  | ok x =>
    obtain ⟨b, r⟩ := x
    by_cases hr : r = []
    · simp [hr]
    · simp [hr]

/-! ## the loop with an offset -/

/-- the suffix that an offset stands for -/
theorem drop_of_suffix {buf r : Bytes} {off : Nat} (h : r <:+ buf.drop off) :
    buf.drop (buf.length - r.length) = r := by
  have h' : r <:+ buf := h.trans (List.drop_suffix off buf)
  rw [List.suffix_iff_eq_drop] at h'
  exact h'.symm

/-- the result of a parser, with the offset it stopped at in place of the rest -/
def resume {β : Type} (buf : Bytes) (g : α → β) : Except ε (α × Bytes) → Res ε (Nat × β)
  | .error e => fail e
  | .ok (a, r) => .ok (buf.length - r.length, g a)

/-- **A counted loop over `(offset, values so far)` whose body reads one value at the offset
reads what `times` reads.** -/
theorem forRange_eq_times {buf : Bytes} {p : Parser ε α} (hp : Suffix p)
    {body : Nat × List α → Res ε (Nat × List α)}
    (hbody : ∀ off acc, off ≤ buf.length →
      body (off, acc) = resume buf (fun a => acc ++ [a]) (p (buf.drop off))) (n : Nat) :
    ∀ off acc, off ≤ buf.length → forRange body n (off, acc)
      = resume buf (fun as => acc ++ as) (times p n (buf.drop off)) := by
  induction n with
  | zero =>
    intro off acc hoff
    have e : buf.length - (buf.drop off).length = off := by
      rw [List.length_drop]; omega
    rw [forRange, times, resume]
    simp only [e, List.append_nil]
  | succ n ih =>
    intro off acc hoff
    rw [forRange, hbody off acc hoff, times]
    cases h1 : p (buf.drop off) with
    | error e => rfl
    | ok x =>
      obtain ⟨a, s'⟩ := x
      have hs' := hp _ _ _ h1
      show forRange body n (buf.length - s'.length, acc ++ [a]) = _
      rw [ih _ _ (Nat.sub_le _ _), drop_of_suffix hs']
      simp only
      cases times p n s' with
      | error e => rfl
      | ok y => simp only [resume, List.append_assoc, List.singleton_append]

/-! ## counted lists

A 32-bit count, at most `max`, then as many values, then nothing. -/

def listRaw (enc : α → Bytes) (l : List α) : Bytes := le 4 l.length ++ l.flatMap enc

/-- the decoder with an offset; `body` reads one value -/
def decodeCounted (max : UInt32) (short tooMany : ε) (junk : Nat → ε)
    (body : Bytes → Nat × List α → Res ε (Nat × List α)) (buf : Bytes) : Res ε (List α) := do
  if buf.length < 4 then fail short
  let count ← le32At buf 0
  if count > max then fail tooMany
  let (offset, as) ← forRange (body buf) count.toNat (4, [])
  if offset ≠ buf.length then
    let left ← sub64 buf.length offset
    fail (junk left)
  .ok as

def listOf (max : UInt32) (short tooMany : ε) (junk : Nat → ε) (p : Parser ε α) (s : Bytes) :
    Except ε (List α) :=
  if s.length < 4 then .error short
  else if max.toNat < leAt s 0 4 then .error tooMany
  else whole (times p (leAt s 0 4)) junk (s.drop 4)

theorem decodeCounted_eq {max : UInt32} {short tooMany : ε} {junk : Nat → ε} {p : Parser ε α}
    (hp : Suffix p) {body : Bytes → Nat × List α → Res ε (Nat × List α)} {buf : Bytes}
    (hbody : ∀ off acc, off ≤ buf.length →
      body buf (off, acc) = resume buf (fun a => acc ++ [a]) (p (buf.drop off))) :
    decodeCounted max short tooMany junk body buf
      = lift (listOf max short tooMany junk p buf) := by
  unfold decodeCounted listOf
  by_cases h : buf.length < 4
  · rw [if_pos h, if_pos h]; rfl
  have hmax : UInt32.ofNat (leAt buf 0 4) > max ↔ max.toNat < leAt buf 0 4 := by
    rw [gt_iff_lt, UInt32.lt_iff_toNat_lt, toNat_leAt4]
  rw [if_neg h, if_neg h, le32At_eq (by omega)]
  simp only [ok_bind, toNat_leAt4, hmax]
  by_cases hbig : max.toNat < leAt buf 0 4
  · rw [if_pos hbig, if_pos hbig]; rfl
  rw [if_neg hbig, if_neg hbig, forRange_eq_times hp hbody _ 4 [] (not_lt.mp h)]
  unfold whole
  cases ht : times p (leAt buf 0 4) (buf.drop 4) with
  | error e => rfl
  | ok x =>
    obtain ⟨as, r⟩ := x
    have hle := (hp.times _ _ _ _ ht).length_le
    rw [List.length_drop] at hle
    by_cases hr : r.length = 0
    · have he : ¬ buf.length - r.length ≠ buf.length := by omega
      simp only [resume, ok_bind, if_neg he, if_pos hr]
      rfl
    · have he : buf.length - r.length ≠ buf.length := by omega
      have hs : (sub64 buf.length (buf.length - r.length) : Res ε Nat) = .ok r.length := by
        rw [sub64_eq (Nat.sub_le _ _), Nat.sub_sub_self (by omega)]
      simp only [resume, ok_bind, if_pos he, hs, if_neg hr]
      rfl

theorem listOf_raw {max : UInt32} {short tooMany : ε} {junk : Nat → ε} {p : Parser ε α}
    {enc : α → Bytes} {ok : α → Prop} (h : Inverts p enc ok) {l : List α}
    (hmax : l.length ≤ max.toNat) (hl : ∀ a ∈ l, ok a) :
    listOf max short tooMany junk p (listRaw enc l) = .ok l := by
  have hlt := max.toNat_lt
  have hcount : leAt (listRaw enc l) 0 4 = l.length := leAt_head 4 _ _ (by omega)
  have htimes := h.times l hl []
  rw [List.append_nil] at htimes
  unfold listOf
  rw [if_neg (by rw [listRaw, List.length_append, le_length]; omega), hcount,
    if_neg (by omega), show (listRaw enc l).drop 4 = l.flatMap enc from
      List.drop_left' (le_length ..), whole_ok.mpr htimes]

theorem listOf_ok {max : UInt32} {short tooMany : ε} {junk : Nat → ε} {p : Parser ε α}
    {enc : α → Bytes} {ok : α → Prop} (h : Sized p enc ok) {s : Bytes} {l : List α}
    (hs : listOf max short tooMany junk p s = .ok l) :
    (∀ a ∈ l, ok a) ∧ l.length ≤ max.toNat ∧ l.length = leAt s 0 4 ∧
      (listRaw enc l).length = s.length := by
  unfold listOf at hs
  split at hs
  · cases hs
  split at hs
  · cases hs
  obtain ⟨hok, hn, _, hlen⟩ := h.times _ _ _ _ (whole_ok.mp hs)
  rw [List.length_drop, List.length_nil] at hlen
  refine ⟨hok, by omega, hn, ?_⟩
  rw [listRaw, List.length_append, le_length]
  omega

/-! ## grammars -/

/-- the bytes of a list: those of its values, one after the other -/
inductive Concat (B : α → Bytes → Prop) : List α → Bytes → Prop
  | nil : Concat B [] []
  | cons {a as bs cs} (head : B a bs) (tail : Concat B as cs) : Concat B (a :: as) (bs ++ cs)

/-- the parser accepts exactly the strings that start with the bytes of a value -/
def Reads (p : Parser ε α) (B : α → Bytes → Prop) : Prop :=
  ∀ s a r, p s = .ok (a, r) ↔ ∃ bs, B a bs ∧ s = bs ++ r

theorem Reads.times {p : Parser ε α} {B : α → Bytes → Prop} (h : Reads p B) (l : List α)
    (s r : Bytes) : times p l.length s = .ok (l, r) ↔ ∃ bs, Concat B l bs ∧ s = bs ++ r := by
  induction l generalizing s with
  | nil =>
    constructor
    · intro hs
      cases hs
      exact ⟨[], .nil, rfl⟩
    · rintro ⟨bs, hb, rfl⟩
      cases hb
      rfl
  | cons a l ih =>
    constructor
    · intro hs
      obtain ⟨a', s', as, h1, h2, e⟩ := times_succ_ok hs
      cases e
      obtain ⟨bs, hb, rfl⟩ := (h s a s').mp h1
      obtain ⟨cs, hc, rfl⟩ := (ih s').mp h2
      exact ⟨bs ++ cs, .cons hb hc, (List.append_assoc ..).symm⟩
    · rintro ⟨bs, hb, rfl⟩
      cases hb with
      | @cons _ _ bs cs head tail =>
        have h1 : p (bs ++ cs ++ r) = .ok (a, cs ++ r) :=
          (h _ _ _).mpr ⟨bs, head, List.append_assoc ..⟩
        have h2 := (ih (cs ++ r)).mpr ⟨cs, tail, rfl⟩
        rw [List.length_cons, Wire.times, h1]
        simp only [h2]

/-- a parser of as many values as were asked for -/
theorem times_length {p : Parser ε α} {n : Nat} {s r : Bytes} {l : List α}
    (h : times p n s = .ok (l, r)) : l.length = n := by
  induction n generalizing s l with
  | zero => cases h; rfl
  | succ n ih =>
    obtain ⟨a, s', as, h1, h2, rfl⟩ := times_succ_ok h
    rw [List.length_cons, ih h2]

theorem Reads.whole {p : Parser ε α} {B : α → Bytes → Prop} (h : Reads p B) (junk : Nat → ε)
    (l : List α) (s : Bytes) : whole (Wire.times p l.length) junk s = .ok l ↔ Concat B l s := by
  rw [whole_ok, h.times]
  constructor
  · rintro ⟨bs, hb, rfl⟩
    rwa [List.append_nil]
  · intro hb
    exact ⟨s, hb, (List.append_nil s).symm⟩

/-- a whole buffer of a count and as many values, by its grammar -/
structure Counted (B : α → Bytes → Prop) (max : Nat) (l : List α) (s : Bytes) : Prop where
  short : 4 ≤ s.length
  count : leAt s 0 4 = l.length
  limit : l.length ≤ max
  values : Concat B l (s.drop 4)

theorem Reads.listOf {max : UInt32} {short tooMany : ε} {junk : Nat → ε} {p : Parser ε α}
    {B : α → Bytes → Prop} (h : Reads p B) (l : List α) (s : Bytes) :
    listOf max short tooMany junk p s = .ok l ↔ Counted B max.toNat l s := by
  unfold Wire.listOf
  constructor
  · intro hs
    split at hs
    · cases hs
    split at hs
    · cases hs
    rename_i h4 hmax
    have hlen := times_length (whole_ok.mp hs)
    rw [← hlen] at hs
    exact ⟨not_lt.mp h4, hlen.symm, by omega, (h.whole junk l _).mp hs⟩
  · rintro ⟨h4, hcount, hmax, hvalues⟩
    rw [if_neg (not_lt.mpr h4), hcount, if_neg (not_lt.mpr hmax)]
    exact (h.whole junk l _).mpr hvalues

/-! ## edits -/

/-- the bytes of `t` are those of `s`, each changed by its function -/
structure Edits (es : List (UInt8 → UInt8)) (s t : Bytes) : Prop where
  length : es.length = s.length
  result : t = es.zipWith (fun e b => e b) s

/-- `n` bytes that stay as they are -/
def kept (n : Nat) : List (UInt8 → UInt8) := List.replicate n id

/-- `n` bytes that become 0 -/
def cleared (n : Nat) : List (UInt8 → UInt8) := List.replicate n fun _ => 0

theorem edits_nil : Edits [] [] [] := ⟨rfl, rfl⟩

theorem edits_kept {n : Nat} {s : Bytes} (h : s.length = n) : Edits (kept n) s s := by
  induction s generalizing n with
  | nil =>
    cases h
    exact edits_nil
  | cons b s ih =>
    cases h
    obtain ⟨hl, hr⟩ := ih rfl
    exact ⟨by rw [kept, List.length_replicate], congrArg (b :: ·) hr⟩

theorem edits_cleared {n : Nat} {s : Bytes} (h : s.length = n) :
    Edits (cleared n) s (List.replicate n 0) := by
  induction s generalizing n with
  | nil =>
    cases h
    exact edits_nil
  | cons b s ih =>
    cases h
    obtain ⟨hl, hr⟩ := ih rfl
    exact ⟨by rw [cleared, List.length_replicate], congrArg (0 :: ·) hr⟩

theorem Edits.append {es fs : List (UInt8 → UInt8)} {s t s' t' : Bytes} (h : Edits es s t)
    (h' : Edits fs s' t') : Edits (es ++ fs) (s ++ s') (t ++ t') where
  length := by rw [List.length_append, List.length_append, h.length, h'.length]
  result := by rw [List.zipWith_append h.length, ← h.result, ← h'.result]

/-- the values of a list, one after the other -/
theorem Concat.edits {B : α → Bytes → Prop} {es : α → List (UInt8 → UInt8)} {enc : α → Bytes}
    {l : List α} {s : Bytes} (h : Concat B l s) (hB : ∀ a bs, B a bs → Edits (es a) bs (enc a)) :
    Edits (l.flatMap es) s (l.flatMap enc) := by
  induction h with
  | nil => exact edits_nil
  | cons head _ ih => exact (hB _ _ head).append ih

/-! ## errors -/

def Fails (p : Parser ε α) (Q : ε → Prop) : Prop := ∀ s e, p s = .error e → Q e

theorem Fails.times {p : Parser ε α} {Q : ε → Prop} (h : Fails p Q) (n : Nat) :
    Fails (times p n) Q := by
  induction n with
  | zero =>
    intro s e hs
    cases hs
  | succ n ih =>
    intro s e hs
    rw [Wire.times] at hs
    cases h1 : p s with
    | error e' =>
      rw [h1] at hs
      cases hs
      exact h s e h1
    | ok x =>
      obtain ⟨a, s'⟩ := x
      rw [h1] at hs
      dsimp only at hs
      cases h2 : Wire.times p n s' with
      | error e' =>
        rw [h2] at hs
        cases hs
        exact ih s' e h2
      | ok y => rw [h2] at hs; cases hs

theorem Fails.whole {p : Parser ε α} {Q : ε → Prop} (h : Fails p Q) {junk : Nat → ε}
    (hj : ∀ k, Q (junk k)) {s : Bytes} {e : ε} (hs : whole p junk s = .error e) : Q e := by
  unfold Wire.whole at hs
  cases hp : p s with
  | error e' =>
    rw [hp] at hs
    cases hs
    exact h s e hp
  | ok x =>
    obtain ⟨a, r⟩ := x
    rw [hp] at hs
    dsimp only at hs
    split at hs
    · cases hs
    · cases hs
      exact hj _

theorem Fails.listOf {max : UInt32} {short tooMany : ε} {junk : Nat → ε} {p : Parser ε α}
    {Q : ε → Prop} (h : Fails p Q) (hshort : Q short) (hmany : Q tooMany) (hj : ∀ k, Q (junk k))
    {s : Bytes} {e : ε} (hs : listOf max short tooMany junk p s = .error e) : Q e := by
  unfold Wire.listOf at hs
  split at hs
  · cases hs
    exact hshort
  split at hs
  · cases hs
    exact hmany
  · exact (h.times _).whole hj hs

end

end Wire
