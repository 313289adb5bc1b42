import Dtj.Lib.Text
import Dtj.Core.Header

/-!
# A header that is read, written and read again

The two texts of a header lie in fields of 32 and 16 bytes, side by side.  Malformed bytes grow when
they are read (one byte becomes the three of U+FFFD), `encode` does not look at the length, and a
text ends at its first NUL.

* `FileHeader.again_iff`     which bytes the texts have to come back from;
* `fits_iff`                 when a text comes back from a field;
* `header_again_iff`         **which headers come back**.
-/

namespace Dtj
open Wire Checked

namespace FileHeader

/-- `encode` does not panic, and what it writes is decoded to the same header -/
def Again (h : FileHeader) : Prop := ∃ out, h.encode = .ok out ∧ decode out = .ok h

/-- the bytes behind the name, of the 80 that follow the fixed part -/
def nameBytes (h : FileHeader) : Bytes :=
  utf8 h.producerName ++ List.replicate (80 - (utf8 h.producerName).length) 0

/-- the field of the version, once the version lies over the name -/
def versionBytes (h : FileHeader) : Bytes :=
  utf8 h.producerVersion ++ h.nameBytes.drop (32 + (utf8 h.producerVersion).length)

theorem encode_written {h : FileHeader} (hname : (utf8 h.producerName).length ≤ 80)
    (hversion : (utf8 h.producerVersion).length ≤ 48) :
    h.encode = .ok (h.fixed ++ (h.nameBytes.take 32 ++ h.versionBytes)) := by
  have hfixed := h.fixed_length
  have hzeros : (List.replicate 80 (0 : UInt8)).drop (utf8 h.producerName).length
      = List.replicate (80 - (utf8 h.producerName).length) 0 := List.drop_replicate
  have hfirst : (putAt (h.fixed ++ List.replicate 80 0) 48 (utf8 h.producerName) : Res Error Bytes)
      = .ok (h.fixed ++ h.nameBytes) := by
    rw [putAt_eq (by simp; omega), List.take_left' hfixed, ← List.drop_drop, List.drop_left' hfixed,
      hzeros, List.append_assoc]
    rfl
  have hlen : h.nameBytes.length = 80 := by
    rw [nameBytes, List.length_append, List.length_replicate]
    omega
  have htake : (h.fixed ++ h.nameBytes).take 80 = h.fixed ++ h.nameBytes.take 32 := by
    rw [List.take_append, hfixed, List.take_of_length_le (by omega)]
  have hdrop : (h.fixed ++ h.nameBytes).drop (80 + (utf8 h.producerVersion).length)
      = h.nameBytes.drop (32 + (utf8 h.producerVersion).length) := by
    rw [show 80 + (utf8 h.producerVersion).length = 48 + (32 + (utf8 h.producerVersion).length) by omega,
      ← List.drop_drop, List.drop_left' hfixed]
  rw [encode_eq, hfirst, ok_bind, putAt_eq (by rw [List.length_append, hfixed, hlen]; omega), htake,
    hdrop, versionBytes]
  simp only [List.append_assoc]

theorem encode_le {h : FileHeader} {out : Bytes} (he : h.encode = .ok out) :
    (utf8 h.producerName).length ≤ 80 ∧ (utf8 h.producerVersion).length ≤ 48 := by
  rw [encode_eq] at he
  obtain ⟨buf, h1, h2⟩ := bind_eq_ok.mp he
  have hbuf := putAt_length h1
  have hfixed := h.fixed_length
  unfold putAt at h1 h2
  constructor
  · split at h1
    · rename_i hle
      rw [List.length_append, hfixed, List.length_replicate] at hle
      omega
    · cases h1
  · split at h2
    · rename_i hle
      rw [hbuf, List.length_append, hfixed, List.length_replicate] at hle
      omega
    · cases h2

theorem headerOf_ok {s : Bytes} {h : FileHeader} (hs : headerOf s = .ok h) :
    h.formatVersion = Dtj.formatVersion ∧ h.producerName = nulTerminated (windowAt s 48 32) ∧
      h.producerVersion = nulTerminated (windowAt s 80 16) := by
  unfold headerOf at hs
  split at hs
  · cases hs
  split at hs
  · cases hs
  split at hs
  · cases hs
  rename_i hversion
  split at hs
  · cases hs
  split at hs
  · cases hs
  cases hs
  exact ⟨not_not.mp hversion, rfl, rfl⟩

/-- **a header comes back if its texts fit and come back** -/
theorem again_iff {h : FileHeader} (hv : h.formatVersion = Dtj.formatVersion) : h.Again ↔
    ((utf8 h.producerName).length ≤ 80 ∧ (utf8 h.producerVersion).length ≤ 48) ∧
    nulTerminated (h.nameBytes.take 32) = h.producerName ∧
    nulTerminated (h.versionBytes.take 16) = h.producerVersion := by
  have hdecode : ∀ {out : Bytes}, h.encode = .ok out →
      (decode out = .ok h ↔ nulTerminated (h.nameBytes.take 32) = h.producerName ∧
        nulTerminated (h.versionBytes.take 16) = h.producerVersion) := by
    intro out he
    obtain ⟨hname, hversion⟩ := encode_le he
    obtain ⟨h', hof, hflags, hid, hstart, hmono⟩ := headerOf_encode he
    have hlen : h.nameBytes.length = 80 := by
      rw [nameBytes, List.length_append, List.length_replicate]
      omega
    rw [encode_written hname hversion] at he
    obtain rfl := Except.ok.inj he
    have hfield : (h.nameBytes.take 32).length = 32 := by
      rw [List.length_take]
      omega
    have hname' : windowAt (h.fixed ++ (h.nameBytes.take 32 ++ h.versionBytes)) 48 32
        = h.nameBytes.take 32 := by
      rw [windowAt, List.drop_left' h.fixed_length, List.take_left' hfield]
    have hversion' : windowAt (h.fixed ++ (h.nameBytes.take 32 ++ h.versionBytes)) 80 16
        = h.versionBytes.take 16 := by
      rw [windowAt, show 80 = 48 + 32 by rfl, ← List.drop_drop, List.drop_left' h.fixed_length,
        List.drop_left' hfield]
    obtain ⟨hv', hn, hr⟩ := headerOf_ok hof
    rw [hname'] at hn
    rw [hversion'] at hr
    rw [decode_eq, hof, ← hn, ← hr]
    constructor
    · intro heq
      cases heq
      exact ⟨rfl, rfl⟩
    · rintro ⟨h1, h2⟩
      have heq : h' = h := by
        cases h
        cases h'
        simp_all
      rw [heq]
      rfl
  constructor
  · rintro ⟨out, he, hd⟩
    exact ⟨encode_le he, (hdecode he).mp hd⟩
  · rintro ⟨⟨hname, hversion⟩, hboth⟩
    have he := encode_written hname hversion
    exact ⟨_, he, (hdecode he).mpr hboth⟩

end FileHeader

/-! ## a text and its field -/

theorem nulTerminated_cut {bs : Bytes} (h : 0 ∉ bs) (k w : Nat) :
    nulTerminated ((bs ++ List.replicate k 0).take w) = fromUtf8Lossy (bs.take w) := by
  have hbytes : ∀ x ∈ bs.take w, (x != 0) = true := by
    intro x hx
    rw [bne_iff_ne]
    rintro rfl
    exact h (List.mem_of_mem_take hx)
  have hzeros : ((List.replicate k (0 : UInt8)).take (w - bs.length)).takeWhile (· != 0) = [] := by
    rw [List.take_replicate]
    cases min (w - bs.length) k <;> rfl
  rw [nulTerminated, List.take_append, List.takeWhile_append_of_pos hbytes, hzeros, List.append_nil]

/-- the text that was read from a field has no NUL -/
theorem nulTerminated_nul (bs : Bytes) : 0 ∉ utf8 (nulTerminated bs) := by
  apply lossy_nul
  intro h
  have hne := List.all_eq_true.mp List.all_takeWhile 0 h
  simp at hne

/-- a text fits into a field of `w` bytes, or only a part of a U+FFFD at its end does not -/
def Fits (w : Nat) (text : String) : Prop :=
  (utf8 text).length ≤ w ∨ (utf8 text).length ≤ w + 2 ∧ text.toList.getLast? = some '\uFFFD'

/-- **when a text comes back from its field** -/
theorem fits_iff {text : String} (h : 0 ∉ utf8 text) (k w : Nat) :
    nulTerminated ((utf8 text ++ List.replicate k 0).take w) = text ↔ Fits w text := by
  rw [nulTerminated_cut h]
  by_cases hw : (utf8 text).length ≤ w
  · rw [List.take_of_length_le hw, lossy_utf8]
    exact ⟨fun _ => .inl hw, fun _ => rfl⟩
  · rw [lossy_take_eq (by omega)]
    constructor
    · exact .inr
    · rintro (hle | hle)
      · exact absurd hle hw
      · exact hle

/-- a text that is short enough comes back if it has no NUL -/
theorem nul_iff {text : String} {k w : Nat} (hw : (utf8 text).length ≤ w) :
    nulTerminated ((utf8 text ++ List.replicate k 0).take w) = text ↔ 0 ∉ utf8 text := by
  constructor
  · intro h
    rw [← h]
    exact nulTerminated_nul _
  · intro h
    exact (fits_iff h k w).mpr (.inl hw)

namespace FileHeader

/-- **a header without a NUL comes back if both texts fit and what is too long of the name lies under
the version** -/
theorem again_read {h : FileHeader} (hv : h.formatVersion = Dtj.formatVersion)
    (hname : 0 ∉ utf8 h.producerName) (hversion : 0 ∉ utf8 h.producerVersion) :
    h.Again ↔ Fits 32 h.producerName ∧ Fits 16 h.producerVersion ∧
      (utf8 h.producerName).length ≤ 32 + (utf8 h.producerVersion).length := by
  have hle : ∀ {w : Nat} {text : String}, Fits w text → (utf8 text).length ≤ w + 2 := by
    intro w text hfits
    rcases hfits with hfits | ⟨hfits, _⟩
    · omega
    · exact hfits
  have hunder : (utf8 h.producerName).length ≤ 32 + (utf8 h.producerVersion).length →
      (nulTerminated (h.versionBytes.take 16) = h.producerVersion ↔ Fits 16 h.producerVersion) := by
    intro hlen
    rw [versionBytes, nameBytes, List.drop_append, List.drop_eq_nil_of_le hlen, List.nil_append,
      List.drop_replicate, fits_iff hversion]
  rw [again_iff hv, nameBytes, fits_iff hname]
  constructor
  · rintro ⟨_, hfits, hback⟩
    have hlen : (utf8 h.producerName).length ≤ 32 + (utf8 h.producerVersion).length := by
      by_contra hlt
      -- the last bytes of the name are read as a part of the version
      have hspill : h.versionBytes = (utf8 h.producerVersion
          ++ (utf8 h.producerName).drop (32 + (utf8 h.producerVersion).length))
          ++ List.replicate (80 - (utf8 h.producerName).length) 0 := by
        rw [versionBytes, nameBytes, List.drop_append_of_le_length (by omega), List.append_assoc]
      have hnul : 0 ∉ utf8 h.producerVersion
          ++ (utf8 h.producerName).drop (32 + (utf8 h.producerVersion).length) := by
        rw [List.mem_append]
        rintro (hz | hz)
        · exact hversion hz
        · exact hname (List.mem_of_mem_drop hz)
      have h34 := hle hfits
      rw [hspill, nulTerminated_cut hnul, List.take_of_length_le, lossy_utf8_append] at hback
      · have hbytes := congrArg utf8 hback
        rw [utf8_append, List.append_right_eq_self, utf8_eq_nil] at hbytes
        have hempty := lossy_eq_empty.mp hbytes
        have hdrop := congrArg List.length hempty
        rw [List.length_drop, List.length_nil] at hdrop
        omega
      · rw [List.length_append, List.length_drop]
        omega
    exact ⟨hfits, (hunder hlen).mp hback, hlen⟩
  · rintro ⟨hfits, hfits', hlen⟩
    have h1 := hle hfits
    have h2 := hle hfits'
    exact ⟨⟨by omega, by omega⟩, hfits, (hunder hlen).mpr hfits'⟩

/-- **a header whose texts fit comes back if there is no NUL in them** -/
theorem again_fitting {h : FileHeader} (hv : h.formatVersion = Dtj.formatVersion)
    (hname : (utf8 h.producerName).length ≤ 32) (hversion : (utf8 h.producerVersion).length ≤ 16) :
    h.Again ↔ 0 ∉ utf8 h.producerName ∧ 0 ∉ utf8 h.producerVersion := by
  have hspill : h.nameBytes.drop (32 + (utf8 h.producerVersion).length)
      = List.replicate (80 - (utf8 h.producerName).length - (32 + (utf8 h.producerVersion).length
          - (utf8 h.producerName).length)) 0 := by
    rw [nameBytes, List.drop_append, List.drop_eq_nil_of_le (by omega), List.nil_append,
      List.drop_replicate]
  rw [again_iff hv, versionBytes, hspill, nameBytes, nul_iff hname, nul_iff hversion]
  constructor
  · rintro ⟨_, hboth⟩
    exact hboth
  · intro hboth
    exact ⟨⟨by omega, by omega⟩, hboth⟩

/-- **which headers come back**: of those that were decoded the ones whose texts fit, of those that
`create` accepts the ones without a NUL -/
theorem header_again_iff (buf : Bytes) :
    (∀ h, decode buf = .ok h →
      (h.Again ↔ Fits 32 (nulTerminated (windowAt buf 48 32)) ∧
        Fits 16 (nulTerminated (windowAt buf 80 16)) ∧
        (utf8 (nulTerminated (windowAt buf 48 32))).length
          ≤ 32 + (utf8 (nulTerminated (windowAt buf 80 16))).length)) ∧
    ∀ sid start mono name version h, create sid start mono name version = .ok h →
      (h.Again ↔ 0 ∉ utf8 name ∧ 0 ∉ utf8 version) := by
  constructor
  · intro h hd
    rw [decode_eq] at hd
    have hof : headerOf buf = .ok h := by
      cases hb : headerOf buf with
      | error e => rw [hb] at hd; cases hd
      | ok h' => rw [hb] at hd; cases hd; rfl
    obtain ⟨hv, hname, hversion⟩ := headerOf_ok hof
    rw [← hname, ← hversion]
    apply again_read hv
    · rw [hname]
      exact nulTerminated_nul _
    · rw [hversion]
      exact nulTerminated_nul _
  · intro sid start mono name version h hc
    unfold create at hc
    split at hc
    · cases hc
    split at hc
    · cases hc
    rename_i hname hversion
    cases hc
    exact again_fitting rfl (not_lt.mp hname) (not_lt.mp hversion)

theorem noId_length : (List.replicate 16 (0 : UInt8)).length = 16 := rfl

/-- a name of 32 malformed bytes, decoded -/
def grown : FileHeader :=
  ⟨Dtj.formatVersion, 0, ⟨List.replicate 16 0, noId_length⟩, 0, 0, String.ofList (List.replicate 32 '\uFFFD'), ""⟩

/-- a name that grows until `encode` panics, and one that ends at its NUL -/
theorem header_lost :
    (decode (grown.fixed ++ List.replicate 32 0xFF ++ List.replicate 48 0) = .ok grown ∧
      grown.encode = crash) ∧
    ∃ h, create ⟨List.replicate 16 0, rfl⟩ 0 0 "a\x00b" "" = .ok h ∧ ¬ h.Again := by
  refine ⟨⟨by decide +kernel, by decide +kernel⟩, _, rfl, ?_⟩
  rw [again_fitting rfl (by decide +kernel) (by decide +kernel)]
  decide +kernel

end FileHeader

end Dtj
