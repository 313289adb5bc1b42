import Dtj.Sdk.Link

/-!
# What the sessions of the SDKs have in common

A session has a connection, a flag, and a map from names to ids for every kind of names.  `enc` is
the encoding of the SDK's strings.

* `Client.Right`          every cached id is one that the agent assigned;
* `Later`, `Interned`, `Brings`   a session after some requests of one call;
* `Interned.answered`, `.remember`, `.recorded`   a reply, a new name, and the event itself.
-/

namespace Dtj.Sdk
open Wire Checked Agent

/-- the part of a session that all SDKs have; the maps are one, by their kinds -/
structure Client (S : Server) (τ : Type) where
  link : Link S
  closed : Bool
  cache : DictKind → τ → Option UInt32

namespace Client
variable {S : Server} {τ : Type}

def start (S : Server) (τ : Type) : Client S τ := ⟨.start S, false, fun _ _ => none⟩

/-- an id is stored in the map of its kind -/
def remember [DecidableEq τ] (kind : DictKind) (name : τ) (id : UInt32) (c : Client S τ) : Client S τ :=
  { c with cache := fun k n => if k = kind ∧ n = name then some id else c.cache k n }

/-- every cached id is one that the agent assigned to the name -/
def Right (enc : τ → Option Bytes) (c : Client S τ) : Prop :=
  ∀ kind name id, c.cache kind name = some id →
    ∃ bytes, enc name = some bytes ∧ Named c.link.log kind bytes id

end Client

section
variable {S : Server} {τ : Type}

/-- a session after some requests of the call `i`, all with `P` -/
structure Later (enc : τ → Option Bytes) (i : Nat) (P : Exchange → Prop) (c₀ c : Client S τ) :
    Prop where
  right : c.Right enc
  log : ∃ new, c.link.log = c₀.link.log ++ new ∧ ∀ x ∈ new, x.caller = i ∧ P x.exchange

/-- the call `i` is under way -/
abbrev Steady (enc : τ → Option Bytes) (i : Nat) (c₀ c : Client S τ) : Prop :=
  Later enc i (fun _ => True) c₀ c

/-- the call `i` has interned names so far, and nothing is under way -/
structure Interned (enc : τ → Option Bytes) (i : Nat) (c₀ c : Client S τ) : Prop where
  later : Later enc i (fun x => isAppend x = false) c₀ c
  quiet : c.link.Quiet

/-- what a call leaves when nothing is under way any more -/
structure Brings (enc : τ → Option Bytes) (i : Nat) (c₀ c : Client S τ) : Prop where
  steady : Steady enc i c₀ c
  quiet : c.link.Quiet

variable {enc : τ → Option Bytes} {i : Nat} {P : Exchange → Prop} {c₀ c : Client S τ}

theorem Client.Right.more (h : c.Right enc) {link : Link S} (hl : c.link.log ⊆ link.log) :
    Client.Right enc { c with link := link } := by
  intro kind name id hc
  obtain ⟨bytes, he, hn⟩ := h kind name id hc
  exact ⟨bytes, he, hn.mono hl⟩

theorem Client.start_right : (Client.start S τ).Right enc := fun _ _ _ hc => by cases hc

theorem Client.Right.remember [DecidableEq τ] (h : c.Right enc) {kind : DictKind} {name : τ} {id : UInt32}
    {bytes : Bytes} (he : enc name = some bytes) (hn : Named c.link.log kind bytes id) :
    (c.remember kind name id).Right enc := by
  intro k n id' hk
  change (if k = kind ∧ n = name then some id else c.cache k n) = some id' at hk
  split at hk
  · rename_i hkn
    cases hk
    rw [hkn.1, hkn.2]
    exact ⟨bytes, he, hn⟩
  · exact h k n id' hk

theorem Later.refl (h : c.Right enc) : Later enc i P c c :=
  ⟨h, [], (List.append_nil _).symm, fun x hx => (by cases hx)⟩

theorem Later.steady (h : Later enc i P c₀ c) : Steady enc i c₀ c := by
  obtain ⟨hr, new, hlog, hnew⟩ := h
  exact ⟨hr, new, hlog, fun x hx => ⟨(hnew x hx).1, trivial⟩⟩

/-- the agent has answered more requests of the call -/
theorem Later.link (h : Later enc i P c₀ c) {link : Link S} {more : List Entry}
    (hl : link.log = c.link.log ++ more) (hm : ∀ x ∈ more, x.caller = i ∧ P x.exchange) :
    Later enc i P c₀ { c with link := link } := by
  obtain ⟨hr, new, hlog, hnew⟩ := h
  refine ⟨hr.more ?_, new ++ more, ?_, fun x hx => ?_⟩
  · rw [hl]
    exact List.subset_append_left _ _
  · rw [hl, hlog, List.append_assoc]
  · rcases List.mem_append.mp hx with hx | hx
    · exact hnew x hx
    · exact hm x hx

/-- bytes are read, and nothing is answered -/
theorem Later.same (h : Later enc i P c₀ c) {link : Link S} (hl : link.log = c.link.log) :
    Later enc i P c₀ { c with link := link } :=
  h.link (hl.trans (List.append_nil _).symm) fun x hx => by cases hx

/-- one request of the call is under way -/
theorem Later.sent (h : Later enc i P c₀ c) {frame : Bytes} {link : Link S} {more : List Entry}
    (hl : link.log = c.link.log ++ more) (hm : ∀ x ∈ more, ∃ r, x = ⟨i, ⟨frame, r⟩⟩) :
    Steady enc i c₀ { c with link := link } := by
  refine h.steady.link hl fun x hx => ?_
  obtain ⟨r, rfl⟩ := hm x hx
  exact ⟨rfl, trivial⟩

theorem Interned.start (h : c.Right enc) (hq : c.link.Quiet) : Interned enc i c c := ⟨.refl h, hq⟩

theorem Interned.brings (h : Interned enc i c₀ c) : Brings enc i c₀ c := ⟨h.later.steady, h.quiet⟩

/-- a name was sent to the agent -/
theorem Interned.answered (h : Interned enc i c₀ c) {kind : DictKind} {name : Bytes} {r : Reply}
    {link : Link S} (hq : link.Quiet)
    (hl : link.log = c.link.log ++ [⟨i, ⟨internRequest kind name, r⟩⟩]) :
    Interned enc i c₀ { c with link := link } := by
  refine ⟨h.later.link hl fun x hx => ?_, hq⟩
  rw [List.mem_singleton.mp hx]
  exact ⟨rfl, isAppend_intern kind name r⟩

theorem Interned.remember [DecidableEq τ] (h : Interned enc i c₀ c) {kind : DictKind} {name : τ} {id : UInt32}
    {bytes : Bytes} (he : enc name = some bytes) (hn : Named c.link.log kind bytes id) :
    Interned enc i c₀ (c.remember kind name id) :=
  ⟨⟨h.later.right.remember he hn, h.later.log⟩, h.quiet⟩

/-- the reply that carries an id is the one that `internReply` makes -/
theorem internReply_of {body : Bytes} (h : body.length = 4) :
    (⟨.internOk, body⟩ : Reply) = internReply (UInt32.ofNat (leAt body 0 4)) := by
  have hle := le_leNat body
  rw [h] at hle
  rw [internReply, toNat_leAt4, leAt, List.drop_zero, List.take_of_length_le (by omega), hle]

theorem appendReply_of {body : Bytes} (h : body.length = 8) :
    (⟨.appendEventOk, body⟩ : Reply) = appendReply (UInt64.ofNat (leAt body 0 8)) := by
  have hle := le_leNat body
  rw [h] at hle
  rw [appendReply, toNat_leAt8, leAt, List.drop_zero, List.take_of_length_le (by omega), hle]

/-- the name of the request that was just answered has the id of the reply -/
theorem named_last {log : List Entry} {kind : DictKind} {name body : Bytes} {r : Reply}
    (hr : r.resp = .internOk) (hb : r.body = body) (hlen : body.length = 4) :
    Named (log ++ [⟨i, ⟨internRequest kind name, r⟩⟩]) kind name (UInt32.ofNat (leAt body 0 4)) := by
  refine ⟨⟨i, ⟨internRequest kind name, r⟩⟩, List.mem_append_right _ (List.mem_singleton_self _), ?_⟩
  rw [← internReply_of hlen, ← hr, ← hb]

/-- **the event itself is acknowledged**: before it the call has sent names only -/
theorem Interned.recorded (h : Interned enc i c₀ c) (hnew : appends c₀.link.log i = []) {e : Said}
    {a : Appended} {seq : UInt64} (hm : Means c.link.log e a) :
    Recorded (c.link.log ++ [⟨i, ⟨a.request, appendReply seq⟩⟩]) i e seq := by
  obtain ⟨new, hlog, hnames⟩ := h.later.log
  refine ⟨a, ?_, hm.mono (List.subset_append_left _ _)⟩
  rw [hlog, appends_append, appends_append, hnew, appends_none fun y hy => .inr (hnames y hy).2,
    appends_self]
  rfl

/-- the event was sent, whatever was answered -/
theorem Interned.sent (h : Interned enc i c₀ c) {a : Appended} {r : Reply} {link : Link S}
    (hq : link.Quiet) (hl : link.log = c.link.log ++ [⟨i, ⟨a.request, r⟩⟩]) :
    Brings enc i c₀ { c with link := link } := by
  refine ⟨h.later.steady.link hl fun x hx => ?_, hq⟩
  rw [List.mem_singleton.mp hx]
  exact ⟨rfl, trivial⟩

/-- what other calls have recorded stays recorded -/
theorem Steady.recorded (h : Steady enc i c₀ c) {j : Nat} {e : Said} {seq : UInt64}
    (hrec : Recorded c₀.link.log j e seq) (hj : j ≠ i) : Recorded c.link.log j e seq := by
  obtain ⟨-, new, hlog, hnew⟩ := h
  rw [hlog]
  exact hrec.mono fun y hy hyj => hj (hyj.symm.trans (hnew y hy).1)

end

end Dtj.Sdk
