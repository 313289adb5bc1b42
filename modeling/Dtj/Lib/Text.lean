import Dtj.Lib.Bytes

/-!
# What the lossy decoder does to text

* `Encodes`                 the bytes of a character are a lead byte and as many others as it announces;
* `lossy_utf8`              what is UTF-8 already is kept;
* `lossy_cut`               a character that is cut off becomes one U+FFFD;
* `lossy_nul`               no NUL byte comes in;
* `lossy_take_eq`           **which text is the same again when all but its first bytes are lost**.
-/

namespace Wire
open Checked

theorem utf8_ofList (cs : List Char) : utf8 (String.ofList cs) = cs.flatMap String.utf8EncodeChar := by
  rw [utf8, String.toByteArray_ofList, List.utf8Encode, List.data_toByteArray]

@[simp] theorem utf8_append (s t : String) : utf8 (s ++ t) = utf8 s ++ utf8 t := by
  rw [utf8, String.toByteArray_append]
  simp [utf8]

@[simp] theorem utf8_singleton (c : Char) : utf8 (String.singleton c) = String.utf8EncodeChar c := by
  rw [show String.singleton c = String.ofList [c] from rfl, utf8_ofList]
  simp

theorem utf8_eq_nil {s : String} : utf8 s = [] ↔ s = "" := by
  constructor
  · intro h
    exact utf8_inj h
  · rintro rfl
    rfl

/-! ## the bytes of a character -/

theorem byte_range {lo hi : UInt8} {n : Nat} (hlo : lo.toNat ≤ n) (hhi : n ≤ hi.toNat) :
    lo ≤ UInt8.ofNat n ∧ UInt8.ofNat n ≤ hi := by
  have hlt := hi.toNat_lt
  rw [UInt8.le_iff_toNat_le, UInt8.le_iff_toNat_le, UInt8.toNat_ofNat', Nat.mod_eq_of_lt (by omega)]
  exact ⟨hlo, hhi⟩

theorem utf8Run_cons {lo hi b : UInt8} (n : Nat) (bs : Bytes) (h : lo ≤ b ∧ b ≤ hi) :
    utf8Run (n + 1) lo hi (b :: bs) = 1 + utf8Run n 0x80 0xBF bs := if_pos h

theorem continues (v : Nat) : 0x80 ≤ UInt8.ofNat (v % 64 + 0x80) ∧ UInt8.ofNat (v % 64 + 0x80) ≤ 0xBF :=
  byte_range (show 0x80 ≤ _ by omega) (show _ ≤ 0xBF by omega)

theorem lead_one : ∀ n < 0x80, utf8Tail (UInt8.ofNat n) = some (0, 0x80, 0xBF) := by
  decide +kernel

theorem lead_two : ∀ n < 0xE0, 0xC2 ≤ n → utf8Tail (UInt8.ofNat n) = some (1, 0x80, 0xBF) := by
  decide +kernel

theorem lead_three : ∀ n < 0xF0, 0xE0 < n ∧ n ≠ 0xED →
    utf8Tail (UInt8.ofNat n) = some (2, 0x80, 0xBF) := by
  decide +kernel

theorem lead_four : ∀ n < 0xF4, 0xF0 < n → utf8Tail (UInt8.ofNat n) = some (3, 0x80, 0xBF) := by
  decide +kernel

/-- a character is one lead byte and as many others as that announces -/
structure Encodes (c : Char) (b : UInt8) (tail : Bytes) (lo hi : UInt8) : Prop where
  bytes : String.utf8EncodeChar c = b :: tail
  lead : utf8Tail b = some (tail.length, lo, hi)
  run : utf8Run tail.length lo hi tail = tail.length

theorem encodes (c : Char) : ∃ b tail lo hi, Encodes c b tail lo hi := by
  have hv : c.toNat < 0xD800 ∨ 0xDFFF < c.toNat ∧ c.toNat < 0x110000 := c.valid
  have hnat : c.val.toNat = c.toNat := rfl
  by_cases h1 : c.toNat ≤ 0x7f
  · refine ⟨_, [], _, _, ?_, lead_one c.toNat (by omega), rfl⟩
    simp [String.utf8EncodeChar, hnat, h1]
  by_cases h2 : c.toNat ≤ 0x7ff
  · refine ⟨_, [_], _, _, ?_, lead_two (c.toNat / 64 % 32 + 0xc0) (by omega) (by omega),
      utf8Run_cons _ _ (continues c.toNat)⟩
    simp [String.utf8EncodeChar, hnat, h1, h2]
  by_cases h3 : c.toNat ≤ 0xffff
  · have hbytes : String.utf8EncodeChar c = [UInt8.ofNat (c.toNat / 4096 % 16 + 0xe0),
        UInt8.ofNat (c.toNat / 64 % 64 + 0x80), UInt8.ofNat (c.toNat % 64 + 0x80)] := by
      simp [String.utf8EncodeChar, hnat, h1, h2, h3]
    have hrun : ∀ {lo hi : UInt8}, lo.toNat ≤ c.toNat / 64 % 64 + 0x80 →
        c.toNat / 64 % 64 + 0x80 ≤ hi.toNat →
        utf8Run 2 lo hi [UInt8.ofNat (c.toNat / 64 % 64 + 0x80), UInt8.ofNat (c.toNat % 64 + 0x80)]
          = 2 := by
      intro lo hi hlo hhi
      rw [utf8Run_cons 1 _ (byte_range hlo hhi), utf8Run_cons 0 _ (continues c.toNat)]
      rfl
    by_cases hE0 : c.toNat / 4096 = 0
    · exact ⟨_, [_, _], 0xA0, 0xBF, hbytes, by rw [hE0]; rfl,
        hrun (show 0xA0 ≤ _ by omega) (show _ ≤ 0xBF by omega)⟩
    by_cases hED : c.toNat / 4096 = 13
    · exact ⟨_, [_, _], 0x80, 0x9F, hbytes, by rw [hED]; rfl,
        hrun (show 0x80 ≤ _ by omega) (show _ ≤ 0x9F by omega)⟩
    · exact ⟨_, [_, _], 0x80, 0xBF, hbytes, lead_three _ (by omega) (by omega),
        hrun (show 0x80 ≤ _ by omega) (show _ ≤ 0xBF by omega)⟩
  · have hbytes : String.utf8EncodeChar c = [UInt8.ofNat (c.toNat / 262144 % 8 + 0xf0),
        UInt8.ofNat (c.toNat / 4096 % 64 + 0x80), UInt8.ofNat (c.toNat / 64 % 64 + 0x80),
        UInt8.ofNat (c.toNat % 64 + 0x80)] := by
      simp [String.utf8EncodeChar, hnat, h1, h2, h3]
    have hrun : ∀ {lo hi : UInt8}, lo.toNat ≤ c.toNat / 4096 % 64 + 0x80 →
        c.toNat / 4096 % 64 + 0x80 ≤ hi.toNat →
        utf8Run 3 lo hi [UInt8.ofNat (c.toNat / 4096 % 64 + 0x80),
          UInt8.ofNat (c.toNat / 64 % 64 + 0x80), UInt8.ofNat (c.toNat % 64 + 0x80)] = 3 := by
      intro lo hi hlo hhi
      rw [utf8Run_cons 2 _ (byte_range hlo hhi), utf8Run_cons 1 _ (continues (c.toNat / 64)),
        utf8Run_cons 0 _ (continues c.toNat)]
      rfl
    by_cases hF0 : c.toNat / 262144 = 0
    · exact ⟨_, [_, _, _], 0x90, 0xBF, hbytes, by rw [hF0]; rfl,
        hrun (show 0x90 ≤ _ by omega) (show _ ≤ 0xBF by omega)⟩
    by_cases hF4 : c.toNat / 262144 = 4
    · exact ⟨_, [_, _, _], 0x80, 0x8F, hbytes, by rw [hF4]; rfl,
        hrun (show 0x80 ≤ _ by omega) (show _ ≤ 0x8F by omega)⟩
    · exact ⟨_, [_, _, _], 0x80, 0xBF, hbytes, lead_four _ (by omega) (by omega),
        hrun (show 0x80 ≤ _ by omega) (show _ ≤ 0xBF by omega)⟩

theorem Encodes.length {c : Char} {b : UInt8} {tail : Bytes} {lo hi : UInt8} (h : Encodes c b tail lo hi) :
    c.utf8Size = tail.length + 1 := by
  rw [← String.length_utf8EncodeChar, h.bytes, List.length_cons]

theorem utf8Run_append {tail : Bytes} (rest : Bytes) :
    ∀ {lo hi : UInt8}, utf8Run tail.length lo hi tail = tail.length →
      utf8Run tail.length lo hi (tail ++ rest) = tail.length := by
  induction tail with
  | nil => intro lo hi _; cases rest <;> rfl
  | cons b bs ih =>
    intro lo hi h
    rw [List.length_cons, utf8Run] at h
    split at h
    · rename_i hb
      rw [List.cons_append, List.length_cons, utf8Run_cons _ _ hb, ih (by omega)]
      omega
    · cases h

theorem utf8Run_take {tail : Bytes} :
    ∀ {k : Nat} {lo hi : UInt8}, utf8Run tail.length lo hi tail = tail.length → k ≤ tail.length →
      utf8Run tail.length lo hi (tail.take k) = k := by
  induction tail with
  | nil =>
    intro k lo hi _ hk
    rw [Nat.le_zero.mp hk]
    rfl
  | cons b bs ih =>
    intro k lo hi h hk
    rw [List.length_cons, utf8Run] at h
    split at h
    · rename_i hb
      cases k with
      | zero => rfl
      | succ k =>
        rw [List.take_succ_cons, List.length_cons, utf8Run_cons _ _ hb,
          ih (by omega) (by simpa using hk)]
        omega
    · cases h

theorem Encodes.part {c : Char} {b : UInt8} {tail : Bytes} {lo hi : UInt8} (h : Encodes c b tail lo hi)
    (rest : Bytes) : utf8Part b (tail ++ rest) = tail.length := by
  unfold utf8Part
  rw [h.lead]
  exact utf8Run_append rest h.run

theorem Encodes.part_take {c : Char} {b : UInt8} {tail : Bytes} {lo hi : UInt8}
    (h : Encodes c b tail lo hi) {k : Nat} (hk : k ≤ tail.length) : utf8Part b (tail.take k) = k := by
  unfold utf8Part
  rw [h.lead]
  exact utf8Run_take h.run hk

/-! ## part by part -/

theorem utf8Lossy_fuel : ∀ (n : Nat) (bs : Bytes), bs.length ≤ n → utf8Lossy n bs = fromUtf8Lossy bs := by
  have h : ∀ (n m : Nat) (bs : Bytes), bs.length ≤ n → bs.length ≤ m → utf8Lossy n bs = utf8Lossy m bs := by
    intro n
    induction n with
    | zero =>
      intro m bs hn _
      rw [List.eq_nil_of_length_eq_zero (Nat.le_zero.mp hn)]
      cases m <;> rfl
    | succ n ih =>
      intro m bs hn hm
      cases bs with
      | nil => cases m <;> rfl
      | cons b bs =>
        cases m with
        | zero => simp at hm
        | succ m =>
          simp only [List.length_cons, Nat.add_le_add_iff_right] at hn hm
          rw [utf8Lossy, utf8Lossy, ih m _ (by rw [List.length_drop]; omega)
            (by rw [List.length_drop]; omega)]
  intro n bs hn
  exact h n bs.length bs hn le_rfl

@[simp] theorem lossy_nil : fromUtf8Lossy [] = "" := rfl

theorem lossy_cons (b : UInt8) (bs : Bytes) : fromUtf8Lossy (b :: bs)
    = (fromUtf8 (b :: bs.take (utf8Part b bs))).getD "\uFFFD"
      ++ fromUtf8Lossy (bs.drop (utf8Part b bs)) := by
  rw [fromUtf8Lossy, List.length_cons, utf8Lossy, utf8Lossy_fuel _ _ (by rw [List.length_drop]; omega)]

theorem lossy_char (c : Char) (rest : Bytes) :
    fromUtf8Lossy (String.utf8EncodeChar c ++ rest) = String.singleton c ++ fromUtf8Lossy rest := by
  obtain ⟨b, tail, lo, hi, h⟩ := encodes c
  have hself : fromUtf8 (b :: tail) = some (String.singleton c) := by
    rw [fromUtf8_eq_some, utf8_singleton, h.bytes]
  rw [h.bytes, List.cons_append, lossy_cons, h.part, List.take_left, List.drop_left, hself]
  rfl

/-- **what is UTF-8 already is kept** -/
theorem lossy_utf8_append (s : String) (rest : Bytes) :
    fromUtf8Lossy (utf8 s ++ rest) = s ++ fromUtf8Lossy rest := by
  have hlist : ∀ cs : List Char,
      fromUtf8Lossy (utf8 (String.ofList cs) ++ rest) = String.ofList cs ++ fromUtf8Lossy rest := by
    intro cs
    induction cs with
    | nil => rw [utf8_ofList]; simp
    | cons c cs ih =>
      have hcons : String.ofList (c :: cs) = String.singleton c ++ String.ofList cs := by simp
      rw [hcons, utf8_append, List.append_assoc, utf8_singleton, lossy_char, ih, String.append_assoc]
  have h := hlist s.toList
  rwa [String.ofList_toList] at h

@[simp] theorem lossy_utf8 (s : String) : fromUtf8Lossy (utf8 s) = s := by
  have h := lossy_utf8_append s []
  simpa using h

/-- **a character that is cut off becomes one U+FFFD** -/
theorem lossy_cut {c : Char} {k : Nat} (h0 : 0 < k) (hk : k < c.utf8Size) :
    fromUtf8Lossy ((String.utf8EncodeChar c).take k) = "\uFFFD" := by
  obtain ⟨b, tail, lo, hi, h⟩ := encodes c
  obtain ⟨k, rfl⟩ : ∃ j, k = j + 1 := ⟨k - 1, by omega⟩
  rw [h.length] at hk
  have hnone : fromUtf8 (b :: tail.take k) = none := by
    cases hs : fromUtf8 (b :: tail.take k) with
    | none => rfl
    | some s =>
      rw [fromUtf8_eq_some, ← String.ofList_toList (s := s), utf8_ofList] at hs
      cases hcs : s.toList with
      | nil => rw [hcs] at hs; cases hs
      | cons c' cs =>
        -- the lead byte announces more than is there
        rw [hcs, List.flatMap_cons] at hs
        obtain ⟨b', tail', lo', hi', h'⟩ := encodes c'
        rw [h'.bytes, List.cons_append] at hs
        obtain ⟨hb, htail⟩ := List.cons.inj hs
        have hlead := h'.lead
        rw [hb, h.lead] at hlead
        have hlen := congrArg List.length htail
        rw [List.length_append, List.length_take] at hlen
        have heq : tail.length = tail'.length := (Prod.mk.inj (Option.some.inj hlead)).1
        omega
  rw [h.bytes, List.take_succ_cons, lossy_cons, h.part_take (by omega), List.take_take, Nat.min_self,
    hnone, List.drop_eq_nil_of_le (by rw [List.length_take]; omega)]
  rfl

/-- **no NUL byte comes in** -/
theorem lossy_nul {bs : Bytes} (h : 0 ∉ bs) : 0 ∉ utf8 (fromUtf8Lossy bs) := by
  have hfuel : ∀ (n : Nat) (bs : Bytes), 0 ∉ bs → 0 ∉ utf8 (utf8Lossy n bs) := by
    intro n
    induction n with
    | zero => intro bs _; simp [utf8Lossy, utf8_eq_nil.mpr]
    | succ n ih =>
      intro bs hbs
      cases bs with
      | nil => simp [utf8Lossy, utf8_eq_nil.mpr]
      | cons b bs =>
        rw [utf8Lossy, utf8_append, List.mem_append]
        rintro (hz | hz)
        · cases hs : fromUtf8 (b :: bs.take (utf8Part b bs)) with
          | none =>
            rw [hs] at hz
            exact absurd hz (by decide +kernel)
          | some s =>
            rw [hs, Option.getD_some, fromUtf8_eq_some.mp hs] at hz
            rcases List.mem_cons.mp hz with rfl | hz
            · exact hbs List.mem_cons_self
            · exact hbs (List.mem_cons_of_mem _ (List.mem_of_mem_take hz))
        · exact ih _ (fun hd => hbs (List.mem_cons_of_mem _ (List.mem_of_mem_drop hd))) hz
  exact hfuel _ bs h

theorem lossy_eq_empty {bs : Bytes} : fromUtf8Lossy bs = "" ↔ bs = [] := by
  constructor
  · intro h
    cases bs with
    | nil => rfl
    | cons b bs =>
      exfalso
      rw [lossy_cons, String.append_eq_empty_iff] at h
      cases hs : fromUtf8 (b :: bs.take (utf8Part b bs)) with
      | none => rw [hs] at h; exact absurd h.1 (by decide +kernel)
      | some s =>
        rw [hs, Option.getD_some] at h
        have hb := fromUtf8_eq_some.mp hs
        rw [h.1] at hb
        cases hb
  · rintro rfl
    rfl

/-! ## text that is cut -/

/-- the character that the cut goes through -/
theorem cut_at {w : Nat} : ∀ {cs : List Char}, w < (utf8 (String.ofList cs)).length →
    ∃ pre c post, cs = pre ++ c :: post ∧ (utf8 (String.ofList pre)).length ≤ w ∧
      w < (utf8 (String.ofList pre)).length + c.utf8Size := by
  intro cs
  induction cs using List.reverseRecOn with
  | nil => intro h; rw [utf8_ofList] at h; simp at h
  | append_singleton cs c ih =>
    intro h
    by_cases hw : w < (utf8 (String.ofList cs)).length
    · obtain ⟨pre, d, post, rfl, h1, h2⟩ := ih hw
      exact ⟨pre, d, post ++ [c], by simp, h1, h2⟩
    · refine ⟨cs, c, [], rfl, not_lt.mp hw, ?_⟩
      rw [String.ofList_append, utf8_append, List.length_append] at h
      rw [utf8_ofList [c]] at h
      simpa using h

theorem last_length {cs : List Char} (h : cs.getLast? = some '\uFFFD') :
    3 ≤ (utf8 (String.ofList cs)).length := by
  obtain ⟨pre, rfl⟩ := List.getLast?_eq_some_iff.mp h
  rw [String.ofList_append, utf8_append, List.length_append]
  have h3 : (utf8 (String.ofList ['\uFFFD'])).length = 3 := rfl
  omega

/-- **the text that comes back when all but the first `w` bytes are lost**: its last character is
U+FFFD, and the cut goes through it -/
theorem lossy_take_eq {s : String} {w : Nat} (hw : w < (utf8 s).length) :
    fromUtf8Lossy ((utf8 s).take w) = s ↔
      (utf8 s).length ≤ w + 2 ∧ s.toList.getLast? = some '\uFFFD' := by
  obtain ⟨cs, rfl⟩ : ∃ cs, s = String.ofList cs := ⟨s.toList, String.ofList_toList.symm⟩
  obtain ⟨pre, c, post, rfl, h1, h2⟩ := cut_at hw
  have hutf8 : utf8 (String.ofList (pre ++ c :: post)) = utf8 (String.ofList pre)
      ++ (String.utf8EncodeChar c ++ utf8 (String.ofList post)) := by
    simp only [utf8_ofList, List.flatMap_append, List.flatMap_cons]
  have hsize : (String.utf8EncodeChar c).length = c.utf8Size := String.length_utf8EncodeChar c
  have htake : (utf8 (String.ofList (pre ++ c :: post))).take w = utf8 (String.ofList pre)
      ++ (String.utf8EncodeChar c).take (w - (utf8 (String.ofList pre)).length) := by
    rw [hutf8, List.take_append, List.take_of_length_le h1, List.take_append_of_le_length (by omega)]
  have hlen := congrArg List.length hutf8
  rw [List.length_append, List.length_append, hsize] at hlen
  rw [htake, lossy_utf8_append, hlen, String.toList_ofList]
  constructor
  · intro h
    by_cases h0 : w = (utf8 (String.ofList pre)).length
    · rw [h0, Nat.sub_self, List.take_zero, lossy_nil, String.append_empty] at h
      have heq : pre = pre ++ c :: post := by simpa using congrArg String.toList h
      simp at heq
    · rw [lossy_cut (by omega) (by omega)] at h
      have heq : pre ++ ['\uFFFD'] = pre ++ c :: post := by simpa using congrArg String.toList h
      obtain ⟨rfl, rfl⟩ := List.cons.inj (List.append_cancel_left heq)
      refine ⟨?_, by simp⟩
      have hsize3 : ('\uFFFD' : Char).utf8Size = 3 := rfl
      have hpost : (utf8 (String.ofList [])).length = 0 := rfl
      omega
  · rintro ⟨hle, hlast⟩
    have hpost : post = [] := by
      cases hp : post.getLast? with
      | none => exact List.getLast?_eq_none_iff.mp hp
      | some d =>
        exfalso
        have hd : d = '\uFFFD' := by
          rw [List.getLast?_append, List.getLast?_cons, hp] at hlast
          simpa using hlast
        have h3 := last_length (hd ▸ hp)
        omega
    subst hpost
    have hc : c = '\uFFFD' := by simpa using hlast
    have h3 : c.utf8Size = 3 := by rw [hc]; rfl
    rw [lossy_cut (by omega) (by omega), hc, String.ofList_append]

end Wire
