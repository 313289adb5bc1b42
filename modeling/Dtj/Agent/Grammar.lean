import Dtj.Agent.Proto

/-!
# The grammar of the requests

The bodies of `docs/dtj-agent-protocol-v1.md`, as the agent reads them: it does not look at bytes
behind the last field.

* `textBytes`, `internBody`, `openBody`   the bodies of `Intern` and `OpenSession`;
* `parseIntern_iff`, `parseOpen_iff`      **the bodies that are accepted start with a request**;
* `valueSize`, `valueOf_ok`, `valueOf_some`  the value of an `AppendEvent`, and the bytes it takes.
-/

namespace Dtj.Agent
open Wire Checked

/-- a text behind its length -/
def textBytes (text : Bytes) : Bytes := le 2 text.length ++ text

def internBody (dictKind : UInt8) (name : Bytes) : Bytes := dictKind :: textBytes name

def openBody (fileName sessionId : Bytes) (startUtcUnixMs monoOriginNs : UInt64)
    (producerName producerVersion : Bytes) : Bytes :=
  textBytes fileName ++ (sessionId ++ (le 8 startUtcUnixMs.toNat ++ (le 8 monoOriginNs.toNat ++
    (textBytes producerName ++ textBytes producerVersion))))

theorem textBytes_length (text : Bytes) : (textBytes text).length = 2 + text.length := by
  rw [textBytes, List.length_append, le_length]

/-- the length of a text, as far as it fits into its two bytes -/
theorem textBytes_len (text rest : Bytes) :
    leAt (textBytes text ++ rest) 0 2 = text.length % 2^16 := by
  rw [textBytes, List.append_assoc, ← le_mod 2 text.length]
  exact leAt_head 2 _ _ (Nat.mod_lt _ (by norm_num))

/-- a text that stands at an offset -/
theorem textBytes_at {body text rest : Bytes} {off : Nat} (h : text.length < 2^16)
    (hb : body.drop off = textBytes text ++ rest) : leAt body off 2 = text.length ∧
      (body.drop (off + 2)).take text.length = text ∧
      body.drop (off + 2 + text.length) = rest := by
  have hdrop : body.drop (off + 2) = text ++ rest := by
    rw [← List.drop_drop, hb, textBytes, List.append_assoc, List.drop_left' (le_length 2 _)]
  refine ⟨?_, ?_, ?_⟩
  · have hat := textBytes_len text rest
    rw [← hb, leAt_drop, Nat.add_zero, Nat.mod_eq_of_lt h] at hat
    exact hat
  · rw [hdrop, List.take_left' rfl]
  · rw [← List.drop_drop, hdrop, List.drop_left' rfl]

/-! ## Intern -/

/-- **a body of `Intern` is accepted exactly when it starts with a kind and a name** -/
theorem parseIntern_iff {body : Bytes} {dictKind : UInt8} {name : String} :
    parseIntern body = .ok (dictKind, name) ↔ name ≠ "" ∧ (utf8 name).length ≤ 1024 ∧
      ∃ rest, body = internBody dictKind (utf8 name) ++ rest := by
  rw [parseIntern_eq, lift_eq_ok]
  unfold internOf textOf
  constructor
  · intro h
    split at h
    · cases h
    split at h
    · cases h
    rename_i h3 hlen
    cases hu : fromUtf8 ((body.drop 3).take (leAt body 1 2)) with
    | none =>
      rw [hu] at h
      cases h
    | some text =>
      rw [hu] at h
      dsimp only at h
      split at h
      · cases h
      rename_i hname
      cases h
      have htext := fromUtf8_eq_some.mp hu
      have hn : (utf8 name).length = leAt body 1 2 := by
        rw [htext]
        exact List.length_take_of_le (by rw [List.length_drop]; omega)
      obtain ⟨k, tail, hbody⟩ : ∃ k tail, body = k :: tail := by
        cases body with
        | nil => simp at h3
        | cons k tail => exact ⟨k, tail, rfl⟩
      refine ⟨fun he => hname (.inl he), by rw [hn]; omega, body.drop (3 + leAt body 1 2), ?_⟩
      have hk : body.getD 0 0 = k := by rw [hbody]; rfl
      have hcons : body = body.getD 0 0 :: body.drop 1 := by
        rw [hk, hbody]
        rfl
      rw [internBody, textBytes, hn, htext, ← @take_le body 1 2 _ rfl (by omega), List.cons_append,
        List.append_assoc, ← drop_window body 3, ← drop_window body 1]
      exact hcons
  · rintro ⟨hne, hmax, rest, rfl⟩
    have hlen : (internBody dictKind (utf8 name) ++ rest).length
        = 3 + (utf8 name).length + rest.length := by
      rw [List.length_append, internBody, List.length_cons, textBytes_length]
      omega
    obtain ⟨hat, htake, -⟩ := @textBytes_at (internBody dictKind (utf8 name) ++ rest) (utf8 name)
      rest 1 (by omega) rfl
    rw [if_neg (by omega), hat, if_neg (by omega), htake, fromUtf8_utf8]
    dsimp only
    rw [if_neg (by rintro (h | h); exacts [hne h, by omega])]
    rfl

/-! ## OpenSession -/

/-- what the agent accepts -/
structure Acceptable (req : OpenRequest) : Prop where
  file_name_len : (utf8 req.fileName).length < 2^16
  file_name : invalidFileName req.fileName = false
  producer_name : (utf8 req.producerName).length ≤ 32
  producer_version : (utf8 req.producerVersion).length ≤ 16

instance (req : OpenRequest) : Decidable (Acceptable req) :=
  decidable_of_iff ((utf8 req.fileName).length < 2^16 ∧ invalidFileName req.fileName = false ∧
    (utf8 req.producerName).length ≤ 32 ∧ (utf8 req.producerVersion).length ≤ 16)
    ⟨fun h => ⟨h.1, h.2.1, h.2.2.1, h.2.2.2⟩, fun h => ⟨h.1, h.2, h.3, h.4⟩⟩

def OpenRequest.bytes (req : OpenRequest) : Bytes :=
  openBody (utf8 req.fileName) req.sessionId.1 req.startUtcUnixMs.toUInt64 req.monoOriginNs
    (utf8 req.producerName) (utf8 req.producerVersion)

/-- **a text is accepted exactly when it stands behind its length** -/
theorem parseText_iff {what : String} {body : Bytes} {off : Nat} (hbody : body.length < 2^63)
    (hoff : off ≤ body.length) {text : String} {stop : Nat} :
    parseText what body off = .ok (text, stop) ↔ (utf8 text).length < 2^16 ∧
      stop = off + 2 + (utf8 text).length ∧
      ∃ rest, body.drop off = textBytes (utf8 text) ++ rest := by
  have hlt : leAt body off 2 < 2^16 := leAt_lt body off 2
  have hadd : (add64 (off + 2) (leAt body off 2) : Res String Nat)
      = .ok (off + 2 + leAt body off 2) := add64_eq (by omega)
  unfold parseText
  by_cases h2 : body.length < off + 2
  · rw [if_pos h2]
    constructor
    · intro h
      cases h
    · rintro ⟨-, -, rest, hrest⟩
      have hl := congrArg List.length hrest
      rw [List.length_drop, List.length_append, textBytes_length] at hl
      omega
  rw [if_neg h2, le16At_eq (by omega)]
  simp only [ok_bind, toNat_leAt2, hadd]
  by_cases hlen : body.length < off + 2 + leAt body off 2
  · rw [if_pos hlen]
    constructor
    · intro h
      cases h
    · rintro ⟨hshort, -, rest, hrest⟩
      obtain ⟨hat, -, -⟩ := textBytes_at hshort hrest
      have hl := congrArg List.length hrest
      rw [List.length_drop, List.length_append, textBytes_length] at hl
      omega
  rw [if_neg hlen, slice_eq (by omega) (by omega), ok_bind, utf8Text_eq, Nat.add_sub_cancel_left]
  unfold textOf
  constructor
  · intro h
    cases hu : fromUtf8 ((body.drop (off + 2)).take (leAt body off 2)) with
    | none =>
      rw [hu] at h
      cases h
    | some t =>
      rw [hu] at h
      cases h
      have htext := fromUtf8_eq_some.mp hu
      have hn : (utf8 text).length = leAt body off 2 := by
        rw [htext]
        exact List.length_take_of_le (by rw [List.length_drop]; omega)
      refine ⟨by omega, by rw [hn], body.drop (off + 2 + leAt body off 2), ?_⟩
      rw [textBytes, hn, htext, ← @take_le body off 2 _ rfl (by omega), List.append_assoc,
        ← drop_window body (off + 2), ← drop_window body off]
  · rintro ⟨hshort, rfl, rest, hrest⟩
    obtain ⟨hat, htake, -⟩ := textBytes_at hshort hrest
    rw [hat, htake, fromUtf8_utf8]
    rfl

/-- the start of a body, in its parts -/
theorem openBody_at {body fileName sessionId producerName producerVersion rest : Bytes}
    {start mono : UInt64} (hs : sessionId.length = 16)
    (hb : body = openBody fileName sessionId start mono producerName producerVersion ++ rest) :
    body.drop 0 = textBytes fileName ++ body.drop (2 + fileName.length) ∧
      (body.drop (2 + fileName.length)).take 16 = sessionId ∧
      leAt body (2 + fileName.length + 16) 8 = start.toNat ∧
      leAt body (2 + fileName.length + 16 + 8) 8 = mono.toNat ∧
      body.drop (2 + fileName.length + 16 + 16) = textBytes producerName ++ body.drop
        (2 + fileName.length + 16 + 16 + 2 + producerName.length) ∧
      body.drop (2 + fileName.length + 16 + 16 + 2 + producerName.length) =
        textBytes producerVersion ++ rest := by
  have h₀ : body = textBytes fileName ++ (sessionId ++ (le 8 start.toNat ++ (le 8 mono.toNat ++
      (textBytes producerName ++ (textBytes producerVersion ++ rest))))) := by
    rw [hb, openBody]
    simp only [List.append_assoc]
  have h₁ : body.drop (2 + fileName.length) = sessionId ++ (le 8 start.toNat ++ (le 8 mono.toNat ++
      (textBytes producerName ++ (textBytes producerVersion ++ rest)))) := by
    rw [h₀, List.drop_left' (textBytes_length fileName)]
  have h₂ : body.drop (2 + fileName.length + 16) = le 8 start.toNat ++ (le 8 mono.toNat ++
      (textBytes producerName ++ (textBytes producerVersion ++ rest))) := by
    rw [← List.drop_drop, h₁, List.drop_left' hs]
  have h₃ : body.drop (2 + fileName.length + 16 + 8) = le 8 mono.toNat ++
      (textBytes producerName ++ (textBytes producerVersion ++ rest)) := by
    rw [← List.drop_drop, h₂, List.drop_left' (le_length 8 _)]
  have h₄ : body.drop (2 + fileName.length + 16 + 16) = textBytes producerName ++
      (textBytes producerVersion ++ rest) := by
    rw [show 2 + fileName.length + 16 + 16 = 2 + fileName.length + 16 + 8 + 8 by rfl, ← List.drop_drop, h₃,
      List.drop_left' (le_length 8 _)]
  have h₅ : body.drop (2 + fileName.length + 16 + 16 + 2 + producerName.length) =
      textBytes producerVersion ++ rest := by
    rw [show 2 + fileName.length + 16 + 16 + 2 + producerName.length = 2 + fileName.length + 16 + 16 +
      (2 + producerName.length) by omega, ← List.drop_drop, h₄,
      List.drop_left' (textBytes_length producerName)]
  refine ⟨?_, ?_, ?_, ?_, ?_, h₅⟩
  · rw [h₁]
    exact h₀
  · rw [h₁, List.take_left' hs]
  · have := leAt_head 8 start.toNat (le 8 mono.toNat ++
      (textBytes producerName ++ (textBytes producerVersion ++ rest))) start.toNat_lt
    rwa [← h₂, leAt_drop, Nat.add_zero] at this
  · have := leAt_head 8 mono.toNat (textBytes producerName ++ (textBytes producerVersion ++ rest))
      mono.toNat_lt
    rwa [← h₃, leAt_drop, Nat.add_zero] at this
  · rw [h₅]
    exact h₄

/-- **a body of `OpenSession` is accepted exactly when it starts with an acceptable request** -/
theorem parseOpen_iff {body : Bytes} (hbody : body.length < 2^63) {req : OpenRequest} :
    parseOpen body = .ok req ↔ Acceptable req ∧ ∃ rest, body = req.bytes ++ rest := by
  constructor
  · intro h
    unfold parseOpen at h
    obtain ⟨⟨fileName, off⟩, hfn, h⟩ := bind_eq_ok.mp h
    obtain ⟨hshort, rfl, r₁, hr₁⟩ := (parseText_iff hbody (Nat.zero_le _)).mp hfn
    dsimp only at h
    split at h
    · cases h
    rename_i hname
    split at h
    · cases h
    rename_i h16
    obtain ⟨sessionId, hsid, h⟩ := bind_eq_ok.mp h
    split at h
    · cases h
    rename_i h32
    obtain ⟨start, hstart, h⟩ := bind_eq_ok.mp h
    obtain ⟨mono, hmono, h⟩ := bind_eq_ok.mp h
    obtain ⟨⟨producerName, off₁⟩, hpn, h⟩ := bind_eq_ok.mp h
    dsimp only at h
    obtain ⟨⟨producerVersion, off₂⟩, hpv, h⟩ := bind_eq_ok.mp h
    dsimp only at h
    split at h
    · cases h
    rename_i hpn32
    split at h
    · cases h
    rename_i hpv16
    cases h
    rw [Nat.zero_add] at *
    generalize ho : 2 + (utf8 fileName).length = o at *
    rw [slice_eq (by omega) (by omega), ok_bind, Nat.add_sub_cancel_left] at hsid
    rw [slice_fromLe rfl (by omega)] at hstart
    rw [slice_fromLe (by omega) (by omega)] at hmono
    cases hstart
    cases hmono
    obtain ⟨hpnShort, rfl, r₂, hr₂⟩ := (parseText_iff hbody (by omega)).mp hpn
    have hoff₁ := congrArg List.length hr₂
    rw [List.length_drop, List.length_append, textBytes_length] at hoff₁
    obtain ⟨hpvShort, -, r₃, hr₃⟩ := (parseText_iff hbody (by omega)).mp hpv
    obtain ⟨-, -, hdrop₁⟩ := textBytes_at hshort hr₁
    obtain ⟨-, -, hdrop₂⟩ := textBytes_at hpnShort hr₂
    refine ⟨⟨hshort, by simpa using hname, not_lt.mp hpn32, not_lt.mp hpv16⟩, r₃, ?_⟩
    have hid : sessionId.1 = (body.drop o).take 16 := by
      unfold toSessionId at hsid
      split at hsid
      · cases hsid
        rfl
      · cases hsid
    have hstart : (body.drop (o + 16)).take 8 = le 8 (leAt body (o + 16) 8) :=
      take_le rfl (by omega)
    have hmono : (body.drop (o + 16 + 8)).take 8 = le 8 (leAt body (o + 16 + 8) 8) :=
      take_le rfl (by omega)
    rw [OpenRequest.bytes, openBody]
    simp only [UInt64.toUInt64_toInt64, toNat_leAt8, List.append_assoc]
    rw [hid, ← hstart, ← hmono, ← hr₃, hdrop₂, ← hr₂,
      show o + 16 + 16 = o + 16 + 8 + 8 from rfl, ← drop_window body (o + 16 + 8),
      ← drop_window body (o + 16), ← drop_window body o]
    rw [Nat.zero_add, ho] at hdrop₁
    rwa [hdrop₁]
  · rintro ⟨⟨hshort, hname, hpn, hpv⟩, rest, hrest⟩
    have hid : req.sessionId.1.length = 16 := req.sessionId.2
    have hlen := congrArg List.length hrest
    rw [List.length_append, OpenRequest.bytes, openBody] at hlen
    simp only [List.length_append, textBytes_length, le_length, hid] at hlen
    obtain ⟨hfn, hsid, hstart, hmono, hpnAt, hpvAt⟩ := openBody_at hid hrest
    generalize ho : 2 + (utf8 req.fileName).length = o at *
    have hparse₁ : parseText "file_name" body 0 = .ok (req.fileName, o) :=
      (parseText_iff hbody (Nat.zero_le _)).mpr ⟨hshort, by omega, _, hfn⟩
    have hparse₂ : parseText "producer_name" body (o + 16 + 16)
        = .ok (req.producerName, o + 16 + 16 + 2 + (utf8 req.producerName).length) :=
      (parseText_iff hbody (by omega)).mpr ⟨by omega, rfl, _, hpnAt⟩
    have hparse₃ : parseText "producer_version" body
          (o + 16 + 16 + 2 + (utf8 req.producerName).length)
        = .ok (req.producerVersion, _) :=
      (parseText_iff hbody (by omega)).mpr ⟨by omega, rfl, _, hpvAt⟩
    have hid' : toSessionId ((body.drop o).take 16) = (.ok req.sessionId : Res String SessionId) := by
      unfold toSessionId
      rw [dif_pos (by rw [hsid, hid])]
      exact congrArg _ (Subtype.ext hsid)
    unfold parseOpen
    rw [hparse₁, ok_bind]
    dsimp only
    rw [if_neg (by rw [hname]; decide), if_neg (by omega), slice_eq (by omega) (by omega), ok_bind,
      Nat.add_sub_cancel_left, hid', ok_bind, if_neg (by omega), slice_fromLe rfl (by omega),
      ok_bind, slice_fromLe (by omega) (by omega), ok_bind, hparse₂, ok_bind]
    dsimp only
    rw [hparse₃, ok_bind]
    dsimp only
    rw [if_neg (by omega), if_neg (by omega), hstart, hmono]
    simp

/-! ## AppendEvent -/

/-- how many bytes a value takes -/
def valueSize (tag : UInt8) (s : Bytes) : Option Nat :=
  if tag = 0x01 then some 1
  else if tag ∈ [0x02, 0x04, 0x06, 0x08, 0x0B] then some 4
  else if tag ∈ [0x03, 0x05, 0x07, 0x09] then some 8
  else if tag = 0x0A then some 12
  else if tag = 0x0C then some (4 + leAt s 0 4)
  else none

/-- a boolean is any byte, and it is written as 0 or 1 -/
def valueBytes (tag : UInt8) (s : Bytes) (n : Nat) : Bytes :=
  if tag = 0x01 then [if s.getD 0 0 = 0 then 0 else 1] else s.take n

section
variable {s : Bytes} {v : Value}

theorem fixedOf_ok {n : Nat} {bad : String} {mk : Bytes → Value} :
    fixedOf n bad mk s = .ok v ↔ n ≤ s.length ∧ mk s = v := by
  unfold fixedOf
  split
  · constructor
    · intro h
      cases h
    · intro h
      omega
  · rename_i hn
    constructor
    · intro h
      cases h
      exact ⟨not_lt.mp hn, rfl⟩
    · rintro ⟨-, rfl⟩
      rfl

/-- the bytes of a number of four bytes -/
theorem take_le4 {i : Nat} (hn : i + 4 ≤ s.length) :
    le 4 (UInt32.ofNat (leAt s i 4)).toNat = (s.drop i).take 4 := by
  rw [toNat_leAt4, @take_le s i 4 _ rfl hn]

theorem take_le8 (hn : 8 ≤ s.length) :
    le 8 (UInt64.ofNat (leAt s 0 8)).toNat = s.take 8 := by
  rw [toNat_leAt8, ← @take_le s 0 8 _ rfl (by omega), List.drop_zero]

/-- what is said about a value that was read -/
def Taken (tag : UInt8) (s : Bytes) (v : Value) : Prop :=
  v.tag = tag ∧ ∃ n, valueSize tag s = some n ∧ n ≤ s.length ∧ v.raw = valueBytes tag s n

theorem fixedOf_taken {tag : UInt8} {n : Nat} {bad : String} {mk : Bytes → Value}
    (h : fixedOf n bad mk s = .ok v) (hsize : valueSize tag s = some n)
    (hmk : n ≤ s.length → (mk s).tag = tag ∧ (mk s).raw = valueBytes tag s n) :
    Taken tag s v := by
  obtain ⟨hn, rfl⟩ := fixedOf_ok.mp h
  exact ⟨(hmk hn).1, n, hsize, hn, (hmk hn).2⟩

/-- **what a value is read from** -/
theorem valueOf_ok {tag : UInt8} (h : valueOf tag s = .ok v) : Taken tag s v := by
  unfold valueOf at h
  by_cases h1 : tag = 0x01
  · rw [if_pos h1] at h
    subst h1
    refine fixedOf_taken h rfl fun hn => ⟨rfl, ?_⟩
    show [if s.getD 0 0 != 0 then 1 else 0] = [if s.getD 0 0 = 0 then 0 else 1]
    by_cases h0 : s.getD 0 0 = 0
    · rw [h0]
      rfl
    · rw [if_neg h0, if_pos (by simpa using h0)]
  rw [if_neg h1] at h
  by_cases h2 : tag = 0x02
  · rw [if_pos h2] at h
    subst h2
    refine fixedOf_taken h rfl fun hn => ⟨rfl, ?_⟩
    show le 4 (UInt32.ofNat (leAt s 0 4)).toInt32.toUInt32.toNat = s.take 4
    rw [UInt32.toUInt32_toInt32]
    exact take_le4 (by omega)
  rw [if_neg h2] at h
  by_cases h3 : tag = 0x03
  · rw [if_pos h3] at h
    subst h3
    refine fixedOf_taken h rfl fun hn => ⟨rfl, ?_⟩
    show le 8 (UInt64.ofNat (leAt s 0 8)).toInt64.toUInt64.toNat = s.take 8
    rw [UInt64.toUInt64_toInt64]
    exact take_le8 hn
  rw [if_neg h3] at h
  by_cases h4 : tag = 0x04
  · rw [if_pos h4] at h
    subst h4
    exact fixedOf_taken h rfl fun hn => ⟨rfl, take_le4 (by omega)⟩
  rw [if_neg h4] at h
  by_cases h5 : tag = 0x05
  · rw [if_pos h5] at h
    subst h5
    exact fixedOf_taken h rfl fun hn => ⟨rfl, take_le8 hn⟩
  rw [if_neg h5] at h
  by_cases h6 : tag = 0x06
  · rw [if_pos h6] at h
    subst h6
    exact fixedOf_taken h rfl fun hn => ⟨rfl, take_le4 (by omega)⟩
  rw [if_neg h6] at h
  by_cases h7 : tag = 0x07
  · rw [if_pos h7] at h
    subst h7
    exact fixedOf_taken h rfl fun hn => ⟨rfl, take_le8 hn⟩
  rw [if_neg h7] at h
  by_cases h8 : tag = 0x08
  · rw [if_pos h8] at h
    subst h8
    exact fixedOf_taken h rfl fun hn => ⟨rfl, take_le4 (by omega)⟩
  rw [if_neg h8] at h
  by_cases h9 : tag = 0x09
  · rw [if_pos h9] at h
    subst h9
    refine fixedOf_taken h rfl fun hn => ⟨rfl, ?_⟩
    show le 4 (f32At s 0).bits.toNat ++ le 4 (f32At s 4).bits.toNat = s.take (4 + 4)
    rw [f32At, f32At, take_le4 (by omega), take_le4 (by omega), List.take_add, List.drop_zero]
  rw [if_neg h9] at h
  by_cases hA : tag = 0x0A
  · rw [if_pos hA] at h
    subst hA
    refine fixedOf_taken h rfl fun hn => ⟨rfl, ?_⟩
    show le 4 (f32At s 0).bits.toNat ++ le 4 (f32At s 4).bits.toNat ++ le 4 (f32At s 8).bits.toNat
      = s.take (4 + 4 + 4)
    rw [f32At, f32At, f32At, take_le4 (by omega), take_le4 (by omega), take_le4 (by omega),
      List.take_add, List.take_add, List.drop_zero]
  rw [if_neg hA] at h
  by_cases hB : tag = 0x0B
  · rw [if_pos hB] at h
    subst hB
    exact fixedOf_taken h rfl fun hn => ⟨rfl, take_le4 (by omega)⟩
  rw [if_neg hB] at h
  by_cases hC : tag = 0x0C
  · rw [if_pos hC] at h
    subst hC
    unfold bytesOf at h
    split at h
    · cases h
    split at h
    · cases h
    rename_i hn4 hn
    cases h
    refine ⟨rfl, 4 + leAt s 0 4, rfl, not_lt.mp hn, ?_⟩
    have hlen : ((s.drop 4).take (leAt s 0 4)).length = leAt s 0 4 :=
      List.length_take_of_le (by rw [List.length_drop]; omega)
    show le 4 ((s.drop 4).take (leAt s 0 4)).length ++ (s.drop 4).take (leAt s 0 4)
      = s.take (4 + leAt s 0 4)
    rw [hlen, List.take_add, ← @take_le s 0 4 _ rfl (by omega), List.drop_zero]
  · rw [if_neg hC] at h
    cases h

/-- a value is accepted when all its bytes are there -/
theorem valueOf_some {tag : UInt8} {n : Nat} (hsize : valueSize tag s = some n)
    (hn : n ≤ s.length) : ∃ v, valueOf tag s = .ok v := by
  unfold valueSize at hsize
  split at hsize
  · rename_i htag
    cases hsize
    subst htag
    simp [valueOf, fixedOf, not_lt.mpr hn]
  split at hsize
  · rename_i htag
    cases hsize
    simp only [List.mem_cons, List.not_mem_nil, or_false] at htag
    rcases htag with rfl | rfl | rfl | rfl | rfl <;> simp [valueOf, fixedOf, not_lt.mpr hn]
  split at hsize
  · rename_i htag
    cases hsize
    simp only [List.mem_cons, List.not_mem_nil, or_false] at htag
    rcases htag with rfl | rfl | rfl | rfl <;> simp [valueOf, fixedOf, not_lt.mpr hn]
  split at hsize
  · rename_i htag
    cases hsize
    subst htag
    simp [valueOf, fixedOf, not_lt.mpr hn]
  split at hsize
  · rename_i htag
    cases hsize
    subst htag
    refine ⟨.bytes ((s.drop 4).take (leAt s 0 4)), ?_⟩
    show bytesOf s = _
    rw [bytesOf, if_neg (by omega), if_neg (by omega)]
  · cases hsize

end

end Dtj.Agent
