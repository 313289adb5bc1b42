import Dtj.Sdk.Client
import Dtj.Agent.Runs

/-!
# The history of a client, and the journal of its agent

A client of `handle_client` that has asked for names, events and the end of its session only.

* `Opened`         `handle_client` has opened a session, on a disk that works;
* `Traced`         the history of a connection is a run of `handle_client`;
* `Talk`           the requests that a session succeeds with;
* `appending_request`, `interning_request`   what the agent reads in them;
* `finished_read`  **a history that ends with `FinishSessionOk` is what the journal says**.
-/

namespace Dtj.Sdk
open Wire Checked Agent SessionWriter

variable {dataDir : String} {st st₁ st' : AgentState} {d d₁ d' : Disk} {req : OpenRequest}
  {header : FileHeader}

/-! ## from the session on -/

/-- `handle_client` has opened the session of `req`, on a disk that works -/
inductive Opened (dataDir : String) (req : OpenRequest) (header : FileHeader) :
    AgentState → Disk → Prop
  | after {config : Config} {d₀ d : Disk} {st : AgentState} {pre : List Exchange} {o : Exchange}
      (hrun : Run dataDir (.new config) d₀ (pre ++ [o]) st d) (hfits : Agent.Fits (pre ++ [o]))
      (hd : Works d₀) (ho : opening o.frame = some (req, header))
      (hr : o.reply.resp = .openSessionOk)
      (helse : ∀ x ∈ pre, Elsewhere dataDir (joinPath dataDir req.fileName) x) :
      Opened dataDir req header st d

theorem Opened.recording (h : Opened dataDir req header st d) : ∃ hdr w, header.encode = .ok hdr ∧
    st.writer = some w ∧ Recording hdr (joinPath dataDir req.fileName) 0 [] [] [] w d ⟨[], []⟩ ∧
    Works d := by
  cases h with
  | after hrun hfits hd ho hr helse =>
    obtain ⟨st₁, d₁, hpre, hstep⟩ := hrun.last
    obtain ⟨-, hother, hd₁⟩ := over_run hpre (hfits.part fun x hx => List.mem_append_left _ hx) hd
      (fun w hw => by cases hw) helse
    have hlen := hfits _ (List.mem_append_right _ (List.mem_singleton_self _))
    exact opened_recording (step_did hstep hlen hd₁.dir) ho hr hd₁ hother

/-- **A session that was finished is read back as what its client was told** -/
theorem finished_read (h : Opened dataDir req header st d) {xs : List Exchange} {f : Exchange}
    (hrun : Run dataDir st d (xs ++ [f]) st' d') (hfits : Agent.Fits (xs ++ [f]))
    (hf : f.reply.resp = .finishSessionOk) (hno : ∀ x ∈ xs, x.reply.resp ≠ .openSessionOk)
    (helse : ∀ x ∈ xs ++ [f], Elsewhere dataDir (joinPath dataDir req.fileName) x)
    (hn : xs.length + 1 < 2^32) :
    ∃ file rd, d'.files (joinPath dataDir req.fileName) = some file ∧
      SessionReader.open file = .ok rd ∧ rd.tornTail = false ∧
      rd.events = xs.filterMap Exchange.acked ∧
      ∀ e ∈ xs.filterMap Exchange.named, rd.dictionary.getName e.kind e.id = some e.name := by
  obtain ⟨hdr, w, he, hw, hrec, hd⟩ := h.recording
  obtain ⟨st₁, d₁, hxs, hstep⟩ := hrun.last
  obtain ⟨hmid, hd₁⟩ := midway_run hxs (hfits.part fun x hx => List.mem_append_left _ hx) hd
    (.live hw hrec (List.prefix_refl _)) (by omega) hno
    fun x hx => helse x (List.mem_append_left _ hx)
  have hlast : f ∈ xs ++ [f] := List.mem_append_right _ (List.mem_singleton_self _)
  have hdid := step_did hstep (hfits f hlast) hd₁.dir
  rw [Nat.zero_add, List.nil_append, List.nil_append] at hmid
  cases hmid with
  | ended hw' hc hg => exact absurd hf (none_step hw' hdid).1
  | live hw' hrec' hg =>
    obtain ⟨hnext, -⟩ := live_step hw' hrec' hn hd₁ hdid (helse f hlast)
    cases hnext with
    | live hw'' h' hg' hnot hs => exact absurd hf hnot.2
    | replaced hw'' hp hr' hc =>
      rw [hf] at hr'
      cases hr'
    | finished hw'' hc hg' hnot hs =>
      obtain ⟨hevents, hnames⟩ := hs hf
      obtain ⟨file, rd, hfile, hread, htorn, hshows⟩ := hc.read he
      refine ⟨file, rd, hfile, hread, htorn, hshows.events.trans hevents, fun e hem => ?_⟩
      exact (hshows.names e.kind e.id e.name).mpr (hnames hem)

/-- the agent of `exampleAgent` -/
theorem example_opened : ∃ req header, req.fileName = "s" ∧
    Opened "d" req header (serve "d" [helloFrame, openFrame "s"] (.new .default) exampleDisk).state
      (serve "d" [helloFrame, openFrame "s"] (.new .default) exampleDisk).disk := by
  have hname : (opening exampleOpen.frame).map (fun x => x.1.fileName) = some "s" := by
    decide +kernel
  obtain ⟨⟨req, header⟩, ho, hname⟩ := Option.map_eq_some_iff.mp hname
  have hex : (serve "d" [helloFrame, openFrame "s"] (.new .default) exampleDisk).exchanges
      = [exampleHello] ++ [exampleOpen] := by decide +kernel
  have hfits : ∀ x ∈ [exampleHello] ++ [exampleOpen], x.frame.length < 2^63 := by decide +kernel
  have hnone : ∀ x ∈ [exampleHello], opening x.frame = none := by
    intro x hx
    rw [List.mem_singleton.mp hx]
    rfl
  obtain ⟨-, -, hrun⟩ := @serve_run "d" [helloFrame, openFrame "s"] 0 (.new .default) exampleDisk
    (counts_new .default exampleDisk_works.dir) (by decide) (by decide +kernel)
  rw [hex] at hrun
  refine ⟨req, header, hname, .after hrun hfits exampleDisk_works ho rfl fun x hx req' header' ho' => ?_⟩
  rw [hnone x hx] at ho'
  cases ho'

/-! ## the history as a run -/

/-- the history of the connection is a run of `handle_client` -/
structure Traced (l : Link (.agent dataDir st d)) (st' : AgentState) (d' : Disk) : Prop where
  server : l.server = some (st', d')
  run : Run dataDir st d (l.log.map Entry.exchange) st' d'
  fits : Agent.Fits (l.log.map Entry.exchange)

theorem start_traced : Traced (.start (.agent dataDir st d)) st d :=
  ⟨rfl, .nil, fun x hx => by cases hx⟩

theorem run_snoc {xs : List Exchange} {x : Exchange} (h : Run dataDir st d xs st₁ d₁)
    (hx : Agent.Step dataDir st₁ d₁ x st' d') : Run dataDir st d (xs ++ [x]) st' d' := by
  induction h with
  | nil => exact .cons hx .nil
  | cons hstep hrest ih => exact .cons hstep (ih hx)

/-- an answer that is no Error frame is one of `handle_client` -/
theorem answer_step {frame : Bytes} {s : (Server.agent dataDir st d).State} {r : Reply}
    (ha : (Server.agent dataDir st d).answer (some (st₁, d₁)) frame = some (s, r))
    (hlen : frame.length < 2^63) (hr : r.resp ≠ .error) :
    ∃ st' d', s = some (st', d') ∧ Agent.Step dataDir st₁ d₁ ⟨frame, r⟩ st' d' := by
  simp only [Server.agent] at ha
  split at ha
  · rename_i r' s' hrun
    obtain ⟨rfl, rfl, -⟩ := fitting_some ha
    exact ⟨s'.1, s'.2, rfl, .done hrun (handle_belongs hlen hrun)⟩
  · obtain ⟨-, rfl, -⟩ := fitting_some ha
    exact absurd rfl hr
  · obtain ⟨-, rfl, -⟩ := fitting_some ha
    exact absurd rfl hr
  · cases ha

theorem Traced.answered {l l' : Link (.agent dataDir st d)} (h : Traced l st₁ d₁) {i : Nat}
    {frame : Bytes} {r : Reply}
    (ha : (Server.agent dataDir st d).answer l.server frame = some (l'.server, r))
    (hlog : l'.log = l.log ++ [⟨i, ⟨frame, r⟩⟩]) (hlen : frame.length ≤ maxFrameSize)
    (hr : r.resp ≠ .error) : ∃ st' d', Traced l' st' d' := by
  have hmax : maxFrameSize < 2^63 := by decide
  rw [h.server] at ha
  obtain ⟨st', d', hs, hstep⟩ := answer_step ha (hlen.trans_lt hmax) hr
  have hmap : l'.log.map Entry.exchange = l.log.map Entry.exchange ++ [⟨frame, r⟩] := by
    rw [hlog, List.map_append]
    rfl
  refine ⟨st', d', hs, ?_, ?_⟩
  · rw [hmap]
    exact run_snoc h.run hstep
  · rw [hmap]
    intro x hx
    rcases List.mem_append.mp hx with hx | hx
    · exact h.fits x hx
    · rw [List.mem_singleton.mp hx]
      exact hlen.trans_lt hmax

/-- what was answered with success had been read -/
theorem step_read {x : Exchange} (h : Agent.Step dataDir st d x st' d') (hlen : x.frame.length < 2^63) :
    (x.reply.resp = .appendEventOk → ∃ ev, appending x.frame = some ev) ∧
      (x.reply.resp = .internOk → ∃ n, interning x.frame = some n) := by
  cases h with
  | refused hr => exact ⟨fun he => (by cases he), fun he => by cases he⟩
  | @done frame r _ _ hr hb =>
    have hcases := @handle_cases dataDir st d frame hlen
    rw [hr] at hcases
    generalize hq : (EStateM.Result.ok r (st', d') : Outcome) = q at hcases
    have hno : ∀ {resp : Resp} {p q : Prop}, r.resp = resp → resp ≠ .appendEventOk →
        resp ≠ .internOk → (r.resp = .appendEventOk → p) ∧ (r.resp = .internOk → q) :=
      fun hresp h₁ h₂ => ⟨fun he => absurd (hresp.symm.trans he) h₁,
        fun he => absurd (hresp.symm.trans he) h₂⟩
    cases hcases with
    | refused => cases hq
    | hello hf =>
      cases hq
      exact hno rfl (by decide) (by decide)
    | ping hf =>
      cases hq
      exact hno rfl (by decide) (by decide)
    | intern hf hst hw hp hk =>
      obtain ⟨id, rfl⟩ := callWriter_reply hq.symm
      exact ⟨fun he => (by cases he), fun _ => ⟨_, interning_eq hf hp hk⟩⟩
    | openSession hf =>
      rw [openFile_reply hq.symm]
      exact ⟨fun he => (by cases he), fun he => by cases he⟩
    | appendEvent hf hst hw hp =>
      obtain ⟨seq, rfl⟩ := callWriter_reply hq.symm
      exact ⟨fun _ => ⟨_, appending_eq hf hp⟩, fun he => by cases he⟩
    | finishSession hf =>
      obtain ⟨u, rfl⟩ := callTaken_reply hq.symm
      exact ⟨fun he => (by cases he), fun he => by cases he⟩
    | flush hf =>
      obtain ⟨u, rfl⟩ := callWriter_reply hq.symm
      exact ⟨fun he => (by cases he), fun he => by cases he⟩

theorem run_read {xs : List Exchange} (h : Run dataDir st d xs st' d') (hfits : Agent.Fits xs) :
    ∀ x ∈ xs, (x.reply.resp = .appendEventOk → ∃ ev, appending x.frame = some ev) ∧
      (x.reply.resp = .internOk → ∃ n, interning x.frame = some n) := by
  induction h with
  | nil => exact fun x hx => by cases hx
  | cons hstep hrest ih =>
    intro x hx
    rcases List.mem_cons.mp hx with rfl | hx
    · exact step_read hstep (hfits _ (List.mem_cons_self ..))
    · exact ih (fun y hy => hfits y (List.mem_cons_of_mem _ hy)) x hx

/-! ## the requests of a session -/

/-- a request that succeeded, as a session makes it -/
inductive Talk : Exchange → Prop
  | intern (kind : DictKind) (name : Bytes) (id : UInt32) :
      Talk ⟨internRequest kind name, internReply id⟩
  | append (a : Appended) (seq : UInt64) : Talk ⟨a.request, appendReply seq⟩
  | finish : Talk ⟨finishRequest, finishReply ()⟩

theorem Talk.opening {x : Exchange} (h : Talk x) : opening x.frame = none := by
  cases h <;> rfl

theorem Talk.elsewhere {x : Exchange} (h : Talk x) (path : String) : Elsewhere dataDir path x := by
  intro req header ho
  rw [h.opening] at ho
  cases ho

theorem Talk.resp_ne {x : Exchange} (h : Talk x) : x.reply.resp ≠ .openSessionOk := by
  cases h <;> exact fun hr => by cases hr

/-! ## what the agent reads in them -/

theorem kindOf_toU8 (kind : DictKind) : kindOf kind.toU8 = some kind := by
  cases kind <;> rfl

/-- a name is read as it was sent; an empty one, and one that is too long, are refused -/
theorem interning_request (kind : DictKind) {name : String} (hlen : (utf8 name).length < 2^16) :
    interning (internRequest kind (utf8 name)) =
      if name = "" ∨ (utf8 name).length > 1024 then none else some (kind, name) := by
  have hle : leAt (kind.toU8 :: (le 2 (utf8 name).length ++ utf8 name)) 1 2 = (utf8 name).length :=
    @leAt_mid [kind.toU8] 1 2 _ _ rfl (by omega)
  have hdrop : (kind.toU8 :: (le 2 (utf8 name).length ++ utf8 name)).drop 3 = utf8 name :=
    List.drop_left' (le_length 2 _)
  have hbody : (kind.toU8 :: (le 2 (utf8 name).length ++ utf8 name)).length
      = 3 + (utf8 name).length := by
    rw [List.length_cons, List.length_append, le_length]
    omega
  simp only [interning, internRequest, if_true, internOf, hle, hbody, hdrop, List.take_length,
    textOf, fromUtf8_utf8]
  rw [if_neg (by omega), if_neg (by omega)]
  by_cases hbad : name = "" ∨ (utf8 name).length > 1024
  · rw [if_pos hbad, if_pos hbad]
  · rw [if_neg hbad, if_neg hbad]
    show (kindOf kind.toU8).map _ = _
    rw [kindOf_toU8]
    rfl

/-- the event that the agent reads -/
def Appended.event (a : Appended) (severity : Severity) (value : Value) : AppendEvent :=
  ⟨a.monotonicNs, a.domainId, a.categoryId, a.eventNameId, a.correlationId, severity,
    ⟨[⟨a.fieldNameId, value⟩]⟩⟩

/-- an event is read as it was sent -/
theorem appendOf_request {a : Appended} {ev : AppendEvent} :
    appendOf a.request.tail = .ok ev ↔ ∃ severity value,
      Severity.fromU8 a.severity = .ok severity ∧ valueOf a.typeTag a.valueBody = .ok value ∧
      ev = a.event severity value := by
  obtain ⟨body, hbody⟩ : ∃ body, body = le 8 a.monotonicNs.toNat ++ (le 4 a.domainId.toNat ++
      (le 4 a.categoryId.toNat ++ (le 4 a.eventNameId.toNat ++ (le 4 a.correlationId.toNat ++
      ([a.severity] ++ (le 2 1 ++ (le 4 a.fieldNameId.toNat ++ ([a.typeTag, 0, 0, 0] ++
      a.valueBody)))))))) := ⟨_, rfl⟩
  have hreq : a.request.tail = body := by
    rw [hbody]
    simp only [Appended.request, List.append_assoc, List.tail_cons]
  have hlen : body.length = 35 + a.valueBody.length := by
    rw [hbody]
    simp only [List.length_append, le_length, List.length_cons, List.length_nil]
    omega
  have hsev : body.getD 24 0 = a.severity := by
    simp [hbody, List.getD_eq_getElem?_getD, List.getElem?_append_right]
  have htag : body.getD 31 0 = a.typeTag := by
    simp [hbody, List.getD_eq_getElem?_getD, List.getElem?_append_right]
  have hone : leAt body 25 2 = 1 := by
    rw [hbody]
    simp (disch := simp) only [leAt_skip]
    exact leAt_head 2 1 _ (by norm_num)
  have hdrop : body.drop 35 = a.valueBody := by
    rw [hbody]
    simp [List.drop_append, List.drop_eq_nil_of_le]
  have hids : (⟨UInt64.ofNat (leAt body 0 8), UInt32.ofNat (leAt body 8 4),
      UInt32.ofNat (leAt body 12 4), UInt32.ofNat (leAt body 16 4), UInt32.ofNat (leAt body 20 4),
      UInt32.ofNat (leAt body 27 4)⟩ : UInt64 × UInt32 × UInt32 × UInt32 × UInt32 × UInt32) =
      ⟨a.monotonicNs, a.domainId, a.categoryId, a.eventNameId, a.correlationId,
        a.fieldNameId⟩ := by
    rw [hbody]
    simp (disch := simp) only [leAt_skip, le_length, List.length_singleton, Nat.reduceSub,
      uint64_le, uint32_le]
  simp only [Prod.mk.injEq] at hids
  obtain ⟨h₀, h₁, h₂, h₃, h₄, h₅⟩ := hids
  rw [hreq, appendOf, if_neg (by omega), hsev]
  cases hs : Severity.fromU8 a.severity with
  | error e =>
    constructor
    · intro h
      cases h
    · rintro ⟨severity, value, hs', -, -⟩
      cases hs'
  | ok severity =>
    simp only [hone, ne_eq, not_true_eq_false, if_false, htag, hdrop]
    rw [if_neg (by omega)]
    cases hv : valueOf a.typeTag a.valueBody with
    | error e =>
      constructor
      · intro h
        cases h
      · rintro ⟨severity, value, -, hv', -⟩
        cases hv'
    | ok value =>
      dsimp only
      rw [h₀, h₁, h₂, h₃, h₄, h₅]
      constructor
      · intro h
        cases h
        exact ⟨severity, value, rfl, rfl, rfl⟩
      · rintro ⟨severity', value', hs', hv', rfl⟩
        cases hs'
        cases hv'
        rfl

theorem appending_request {a : Appended} {ev : AppendEvent} (h : appending a.request = some ev) :
    ∃ severity value, Severity.fromU8 a.severity = .ok severity ∧
      valueOf a.typeTag a.valueBody = .ok value ∧ ev = a.event severity value := by
  have hreq : a.request = Cmd.appendEvent.toU8 :: a.request.tail := rfl
  rw [hreq, appending, if_pos rfl] at h
  refine appendOf_request.mp ?_
  cases hp : appendOf a.request.tail with
  | error e =>
    rw [hp] at h
    cases h
  | ok ev' =>
    rw [hp] at h
    cases h
    rfl

/-! ## what the history says, and what the journal says -/

section
variable {l : Link (.agent dataDir st d)}

/-- the name of an id is in the dictionary of the journal -/
theorem Traced.named (h : Traced l st' d') {kind : DictKind} {name : String} {id : UInt32}
    (hn : Named l.log kind (utf8 name) id) (hlen : (utf8 name).length < 2^16) :
    ⟨kind, id, name⟩ ∈ (l.log.map Entry.exchange).filterMap Exchange.named := by
  obtain ⟨x, hx, he⟩ := hn
  have hmem : x.exchange ∈ l.log.map Entry.exchange := List.mem_map_of_mem hx
  obtain ⟨n, hread⟩ := (run_read h.run h.fits _ hmem).2 (by rw [he]; rfl)
  rw [he, interning_request kind hlen] at hread
  split at hread
  · cases hread
  · rename_i hgood
    refine List.mem_filterMap.mpr ⟨x.exchange, hmem, ?_⟩
    rw [he]
    exact named_eq (by rw [interning_request kind hlen, if_neg hgood]) rfl

/-- the record of an event that was acknowledged -/
theorem Traced.acked (h : Traced l st' d') {a : Appended} {seq : UInt64}
    (hx : (⟨a.request, appendReply seq⟩ : Exchange) ∈ l.log.map Entry.exchange) :
    ∃ severity value, Severity.fromU8 a.severity = .ok severity ∧
      valueOf a.typeTag a.valueBody = .ok value ∧
      Exchange.acked ⟨a.request, appendReply seq⟩ = some ((a.event severity value).record seq) := by
  obtain ⟨ev, hread⟩ := (run_read h.run h.fits _ hx).1 rfl
  obtain ⟨severity, value, hs, hv, rfl⟩ := appending_request hread
  exact ⟨severity, value, hs, hv, acked_eq hread rfl⟩

end

end Dtj.Sdk
