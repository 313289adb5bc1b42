import Dtj.Sdk.Discovery
import Dtj.Sdk.GoOpen

/-!
# The agents of Go programs

The Go SDK stops the agent on every error of an opening.  What its calls send and read is `Dtj.Sdk.Go.Raw`; here are the
processes and directories beside it.

* `startAgent`, `openStrict`, `invoke`   the calls, with the agent that a session has;
* `openStrict_erased`     without the agents they are those of `Go.Raw`;
* `invoke_run`            a `Close` that returns has stopped the agent;
* `go_held`               **what was started and not stopped, and made and not removed, is that of exactly one open
  session, or was left behind by a call that did not return**.
-/

namespace Dtj.Sdk.Launch.Go

open Custody Checked Wire
open Dtj.Sdk.Go
open scoped List

/-- an error of `StartAgent` -/
def failed (what : String) (e : Bytes) : Abort GoError := .error (.connectionError (utf8 what ++ e))

def notFound : Abort GoError :=
  .error (.agentNotFoundError (utf8 ("dtj-agent not found. Install dtj-agent or set " ++
    "DTJ_AGENT_PATH. Tracing disabled.")))

/-- the path of the socket, and the agent with its directory -/
def startAgent (cfg : Raw.Config) (host : Raw.Host) : Sys (Abort GoError) (Bytes × AgentDiscovery) :=
  if cfg.socketPath ≠ [] then return (cfg.socketPath, ⟨none, none⟩)
  else do
    let agentBinary ← looks (lift (Raw.findAgent cfg.agentPath host.second))
    if agentBinary = [] then throw notFound
    else do
      let tempDir ← looks (host.mkdirTemp.mapError (failed "failed to create temp dir: "))
      let dir ← mkdtemp
      match host.mkdirAll with
      | .error e => do
        let _ ← AgentDiscovery.cleanup ⟨none, some dir⟩
        throw (failed "failed to create data dir: " e)
      | .ok () =>
        match host.start with
        | .error e => do
          let _ ← AgentDiscovery.cleanup ⟨none, some dir⟩
          throw (failed "failed to start dtj-agent: " e)
        | .ok () => do
          let process ← spawn
          return (tempDir ++ utf8 "/agent.sock", ⟨some process, some dir⟩)

/-- a session, with `s.discovery`; it is stuck when a `Close` of it has not returned -/
structure Session where
  sess : Raw.Session
  discovery : AgentDiscovery
  stuck : Bool

/-- a session without an agent -/
def Session.bare (sess : Raw.Session) : Session := ⟨sess, ⟨none, none⟩, false⟩

/-- `OpenStrict`, and `Open`, which drops the error -/
def openStrict (cfg : Raw.Config) (host : Raw.Host) : Sys (Abort GoError) Session :=
  if cfg.enabled = some false then return .bare Raw.newNoOpSession
  else do
    let agentBinary ← looks (lift (Raw.findAgent cfg.agentPath host.first))
    if agentBinary = [] then return .bare Raw.newNoOpSession
    else do
      let (socketPath, discovery) ← startAgent cfg host
      match Raw.connectWithRetry socketPath host with
      | .error e => do
        let _ ← discovery.stopAgent
        throw (.error e)
      | .ok conn =>
        match (Raw.handshake cfg host).run conn with
        | .ok _ conn => return ⟨⟨some conn, false, fun _ _ => none⟩, discovery, false⟩
        | .error (.error e) _ => do
          let _ ← discovery.stopAgent
          throw (.error e)
        -- a panic, or a reply that never comes: nothing stops the agent
        | .error e _ => throw e

/-- a call of a session -/
def invoke {ε : Type} (m : Method) (s : Session) : Sys ε Session :=
  match m with
  | .emit event elapsed => return { s with sess := stateOf ((Raw.emit event elapsed).run s.sess) }
  | .close =>
    if s.sess.closed then return s
    else
      match Raw.close.run s.sess with
      | .ok _ sess => do
        let discovery ← s.discovery.stopAgent
        return ⟨sess, discovery, false⟩
      | .error _ sess => return ⟨sess, s.discovery, true⟩

/-! ### runs -/

inductive Act where
  | openStrict (cfg : Raw.Config) (host : Raw.Host)
  | invoke (i : Nat) (m : Method)

/-- the system, and the sessions that were opened -/
abbrev State := World Kind × List Session

/-- one step of a program; `none` if it has no such session -/
def step (st : State) : Act → Option State
  | .openStrict cfg host => some (joined id (openStrict cfg host) st)
  | .invoke i m => st.2[i]?.map fun s =>
    match (invoke m s : Sys Empty _) st.1 with
    | .ok s w => (w, st.2.set i s)

/-! ### what a session has -/

def owns (s : Session) : List (Thing Kind) := s.discovery.things

/-- an executable is found -/
def found (cfg : Raw.Config) (files : Raw.Files) : Bool :=
  (Raw.findAgent cfg.agentPath files).toOption.any (· ≠ [])

/-- an agent is started -/
def starts (cfg : Raw.Config) (host : Raw.Host) : Bool :=
  cfg.socketPath = [] && (found cfg host.second && (host.mkdirTemp.isOk && (host.mkdirAll.isOk && host.start.isOk)))

/-- the agent answers, and `OpenStrict` does not return -/
def stalls (cfg : Raw.Config) (host : Raw.Host) : Bool :=
  match host.connect with
  | .error _ => false
  | .ok conn =>
    match (Raw.handshake cfg host).run conn with
    | .ok _ _ => false
    | .error (.error _) _ => false
    | .error _ _ => true

def loses : Act → List Kind
  | .openStrict cfg host =>
    if cfg.enabled ≠ some false ∧ found cfg host.first ∧ starts cfg host ∧ stalls cfg host then [.dir, .agent] else []
  | .invoke _ _ => []

section
variable {w : World Kind} {left : List (Thing Kind)} {ss : List Session} {st : State}

theorem startAgent_spec (cfg : Raw.Config) (host : Raw.Host) (hw : w.Sound) :
    Triple w [] (startAgent cfg host)
      (fun p ts => ts ~ p.2.things ∧ ts.map Thing.kind = if starts cfg host then [.dir, .agent] else [])
      fun _ ts => ts = [] ∧ starts cfg host = false := by
  unfold startAgent
  by_cases hsocket : cfg.socketPath = []
  case neg =>
    rw [if_pos hsocket]
    have hnot : starts cfg host = false := by simp [starts, hsocket]
    refine Triple.pure ⟨.refl _, ?_⟩
    rw [hnot]
    rfl
  rw [if_neg (not_not_intro hsocket)]
  cases hfind : Raw.findAgent cfg.agentPath host.second with
  | error e =>
    have hnot : starts cfg host = false := by simp [starts, found, hfind, Except.toOption]
    exact Triple.fail (fun _ => rfl) ⟨rfl, hnot⟩
  | ok agentBinary =>
  refine Triple.skip (fun _ => rfl) ?_
  by_cases hbinary : agentBinary = []
  case pos =>
    rw [if_pos hbinary]
    have hnot : starts cfg host = false := by simp [starts, found, hfind, hbinary, Except.toOption]
    exact Triple.throw ⟨rfl, hnot⟩
  rw [if_neg hbinary]
  have hfound : found cfg host.second = true := by simp [found, hfind, hbinary, Except.toOption]
  cases htemp : host.mkdirTemp with
  | error e =>
    have hnot : starts cfg host = false := by simp [starts, htemp, Except.isOk, Except.toBool]
    exact Triple.fail (fun _ => rfl) ⟨rfl, hnot⟩
  | ok tempDir =>
  refine Triple.skip (fun _ => rfl) (Triple.takes fun dir hdir => ?_)
  cases hdata : host.mkdirAll with
  | error e =>
    have hnot : starts cfg host = false := by simp [starts, hdata, Except.isOk, Except.toBool]
    exact cleaned_spec hw ⟨rfl, hnot⟩
  | ok u =>
  cases hstart : host.start with
  | error e =>
    have hnot : starts cfg host = false := by simp [starts, hstart, Except.isOk, Except.toBool]
    exact cleaned_spec hw ⟨rfl, hnot⟩
  | ok u =>
  have hstarts : starts cfg host = true := by
    simp [starts, hsocket, hfound, htemp, hdata, hstart, Except.isOk, Except.toBool]
  refine Triple.takes fun process hprocess => Triple.pure ⟨.swap _ _ _, ?_⟩
  rw [hstarts, List.nil_append, List.singleton_append, List.map_cons, List.map_singleton, hdir, hprocess]
  rfl

/-- a session that is closed has nothing, unless it is stuck -/
def Free (s : Session) : Prop := s.sess.closed = true → s.stuck = false → owns s = []

theorem bare_free (sess : Raw.Session) : Free (.bare sess) := fun _ _ => rfl

theorem openStrict_makes (cfg : Raw.Config) (host : Raw.Host) (hw : w.Sound) :
    Makes owns Free id w (openStrict cfg host) (loses (.openStrict cfg host)) := by
  have hloses : ¬ (cfg.enabled ≠ some false ∧ found cfg host.first ∧ starts cfg host ∧ stalls cfg host) →
      loses (.openStrict cfg host) = [] := fun h => if_neg h
  unfold Makes openStrict
  by_cases henabled : cfg.enabled = some false
  case pos =>
    rw [if_pos henabled]
    exact Triple.pure ⟨bare_free _, [], .refl _, (hloses fun h => h.1 henabled).symm⟩
  rw [if_neg henabled]
  cases hfind : Raw.findAgent cfg.agentPath host.first with
  | error e =>
    have hnot : found cfg host.first = false := by simp [found, hfind, Except.toOption]
    exact Triple.fail (fun _ => rfl) (hloses fun h => by rw [hnot] at h; cases h.2.1).symm
  | ok agentBinary =>
  refine Triple.skip (fun _ => rfl) ?_
  by_cases hbinary : agentBinary = []
  case pos =>
    have hnot : found cfg host.first = false := by simp [found, hfind, hbinary, Except.toOption]
    rw [if_pos hbinary]
    exact Triple.pure ⟨bare_free _, [], .refl _, (hloses fun h => by rw [hnot] at h; cases h.2.1).symm⟩
  rw [if_neg hbinary]
  have hfound : found cfg host.first = true := by simp [found, hfind, hbinary, Except.toOption]
  refine Triple.bind ((startAgent_spec cfg host hw).mono ?_) ?_
  · rintro e ts ⟨rfl, hnot⟩
    exact (hloses fun h => by rw [hnot] at h; cases h.2.2.1).symm
  rintro ⟨socketPath, d⟩ ts ⟨hts, hkinds⟩
  have hquiet : stalls cfg host = false → loses (.openStrict cfg host) = [] := fun hs =>
    hloses fun h => by rw [hs] at h; cases h.2.2.2
  dsimp only
  cases hconnect : host.connect with
  | error e =>
    have hconn : ∃ e', Raw.connectWithRetry socketPath host = .error e' := by
      rw [Raw.connectWithRetry, hconnect]
      exact ⟨_, rfl⟩
    obtain ⟨e', hconn⟩ := hconn
    rw [hconn, hquiet (by rw [stalls, hconnect])]
    exact stopped_spec hw hts rfl
  | ok conn =>
  have hconn : Raw.connectWithRetry socketPath host = .ok conn := by
    rw [Raw.connectWithRetry, hconnect]
    rfl
  rw [hconn]
  dsimp only
  cases hshake : (Raw.handshake cfg host).run conn with
  | ok u conn' =>
    rw [hquiet (by simp only [stalls, hconnect, hshake])]
    exact Triple.pure ⟨fun h => (by cases h), [], by rwa [List.append_nil], rfl⟩
  | error e conn' =>
  have hstalled : stalls cfg host = true → ts.map Thing.kind = loses (.openStrict cfg host) := by
    intro hs
    rw [hkinds]
    simp [loses, henabled, hfound, hs]
  cases e with
  | error e =>
    rw [hquiet (by simp only [stalls, hconnect, hshake])]
    exact stopped_spec hw hts rfl
  | panic => exact Triple.throw (hstalled (by simp only [stalls, hconnect, hshake]))
  | diverge => exact Triple.throw (hstalled (by simp only [stalls, hconnect, hshake]))

/-! ### the calls of a session -/

/-- a call that closes no session -/
def Steady {α : Type} (p : Raw.Call α) : Prop := ∀ s, (stateOf (p.run s)).closed = s.closed

section
variable {α β : Type} {p : Raw.Call α} {f : α → Raw.Call β}

theorem Steady.bind (hp : Steady p) (hf : ∀ a, Steady (f a)) : Steady (p >>= f) := by
  intro s
  rw [EStateM.run_bind]
  have hfirst := hp s
  cases hrun : p.run s with
  | ok a s₁ =>
    rw [hrun] at hfirst
    exact (hf a s₁).trans hfirst
  | error e s₁ =>
    rw [hrun] at hfirst
    exact hfirst

theorem get_steady : Steady (get : Raw.Call Raw.Session) := fun _ => rfl

theorem pure_steady (a : α) : Steady (pure a) := fun _ => rfl

theorem pass_steady (x : Except GoError α) : Steady (Raw.pass x) := by
  intro s
  cases x <;> rfl

theorem onConn_steady (p : Raw.Net α) : Steady (Raw.onConn p) := by
  intro s
  show (stateOf (Raw.onConn p s)).closed = s.closed
  unfold Raw.onConn
  split
  · rfl
  · split <;> rfl

theorem request_steady (resp : Agent.Resp) (what : String) (frame : Except GoError Bytes) :
    Steady (Raw.request resp what frame) := by
  unfold Raw.request
  refine (pass_steady frame).bind fun frame => (onConn_steady _).bind fun _ => ?_
  exact (onConn_steady _).bind fun reply => pass_steady _

theorem getOrIntern_steady (kind : DictKind) (name : Bytes) : Steady (Raw.getOrIntern kind name) := by
  unfold Raw.getOrIntern
  refine get_steady.bind fun s => ?_
  split
  · exact pure_steady _
  · refine (request_steady _ _ _).bind fun body => (pass_steady _).bind fun id => ?_
    exact Steady.bind (fun _ => rfl) fun _ => pure_steady _

theorem internValue_steady (value : GoValue) : Steady (Raw.internValue value) := by
  unfold Raw.internValue
  split
  · exact (getOrIntern_steady _ _).bind fun id => pure_steady _
  · exact pass_steady _

theorem internCorrelation_steady (name : Bytes) : Steady (Raw.internCorrelation name) := by
  unfold Raw.internCorrelation
  split_ifs with hname
  · exact pure_steady _
  · exact getOrIntern_steady _ _

theorem emit_steady (event : Sdk.Go.Event) (elapsed : UInt64) : Steady (Raw.emit event elapsed) := by
  unfold Raw.emit
  refine get_steady.bind fun s => ?_
  split_ifs with hclosed hseverity
  · exact pure_steady _
  · exact fun _ => rfl
  refine (getOrIntern_steady _ _).bind fun domainId => (getOrIntern_steady _ _).bind fun categoryId => ?_
  refine (getOrIntern_steady _ _).bind fun eventNameId => (internCorrelation_steady _).bind fun correlationId => ?_
  refine (getOrIntern_steady _ _).bind fun fieldNameId => (internValue_steady _).bind fun value => ?_
  refine (request_steady _ _ _).bind fun body => (pass_steady _).bind fun _ => ?_
  exact pure_steady _

end

/-- a `Close` that returns gives back what the session has; no other call does -/
theorem invoke_run {ε : Type} (m : Method) {s : Session} (hfree : Free s) (w : World Kind) :
    (∃ s', (invoke m s : Sys ε Session) w = .ok s' w ∧ Free s' ∧ owns s' = owns s) ∨
    ∃ s', (invoke m s : Sys ε Session) w = .ok s' (w.giveAll (owns s)) ∧ Free s' ∧ owns s' = [] := by
  cases m with
  | emit event elapsed =>
    refine .inl ⟨_, rfl, fun hclosed => hfree ?_, rfl⟩
    exact (emit_steady event elapsed s.sess).symm.trans hclosed
  | close =>
    unfold invoke
    dsimp only
    split_ifs with hclosed
    · exact .inl ⟨s, rfl, hfree, rfl⟩
    · cases Raw.close.run s.sess with
      | ok u sess =>
        refine .inr ⟨⟨sess, ⟨none, none⟩, false⟩, ?_, fun _ _ => rfl, rfl⟩
        show EStateM.bind s.discovery.stopAgent _ w = _
        unfold EStateM.bind
        rw [stopAgent_run]
        rfl
      | error e sess => exact .inl ⟨⟨sess, s.discovery, true⟩, rfl, (fun _ h => by cases h), rfl⟩

/-! ### every step -/

theorem step_balanced {a : Act} (h : Account owns w left ss) (hall : ∀ s ∈ ss, Free s)
    (hstep : step (w, ss) a = some st) : Balanced owns Free left (loses a) st := by
  cases a with
  | openStrict cfg host =>
    cases hstep
    exact h.joined hall (openStrict_makes cfg host h.sound)
  | invoke i m =>
    obtain ⟨s, hi, hrun⟩ := Option.map_eq_some_iff.mp hstep
    have hends := invoke_run (ε := Empty) m (hall s (List.mem_of_getElem? hi)) w
    rcases hends with ⟨s₁, hcall, hfree, hs₁⟩ | ⟨s₁, hcall, hfree, hs₁⟩
    · rw [hcall] at hrun
      cases hrun
      exact h.balanced_put hall hi hfree hs₁
    · rw [hcall] at hrun
      cases hrun
      exact h.balanced_give hall hi hfree hs₁

/-- **What a program of the Go SDK has not given back is that of its sessions**: in every run, each agent that was
started and not stopped, and each directory that was made and not removed, is that of exactly one session, and none is
that of a closed one whose `Close` has returned; but an opening that does not return leaves both behind -/
theorem go_held (acts : List Act) {w : World Kind} {ss : List Session}
    (hrun : acts.foldlM step (World.start Kind, []) = some (w, ss)) :
    ∃ left, w.out ~ left ++ ss.flatMap owns ∧ w.out.Nodup ∧ left.map Thing.kind = acts.flatMap loses ∧
      (∀ s ∈ ss, s.sess.closed = true → s.stuck = false → owns s = []) ∧
      ((∀ s ∈ ss, s.sess.closed = true ∧ s.stuck = false) → w.out ~ left) := by
  obtain ⟨hall, left, hperm, hnodup, hleft, hnothing⟩ := run_account step_balanced hrun
  refine ⟨left, hperm, hnodup, hleft, hall, fun hends => hnothing fun s hs => ?_⟩
  exact hall s hs (hends s hs).1 (hends s hs).2

end

/-! ### without the agents -/

/-- how a call ended, without the system that it left -/
def ended {α β : Type} (f : α → β) : EStateM.Result (Abort GoError) (World Kind) α → Res GoError β
  | .ok a _ => .ok (f a)
  | .error e _ => .error e

theorem startAgent_erased (cfg : Raw.Config) (host : Raw.Host) (w : World Kind) :
    ended Prod.fst (startAgent cfg host w) = lift (Raw.startAgent cfg host) := by
  unfold startAgent Raw.startAgent
  by_cases hsocket : cfg.socketPath = []
  case neg =>
    rw [if_pos hsocket, if_pos hsocket]
    rfl
  rw [if_neg (not_not_intro hsocket), if_neg (not_not_intro hsocket)]
  cases Raw.findAgent cfg.agentPath host.second with
  | error e => rfl
  | ok agentBinary =>
  by_cases hbinary : agentBinary = []
  case pos =>
    rw [hbinary]
    rfl
  show ended Prod.fst ((if agentBinary = [] then _ else _ : Sys (Abort GoError) _) w) =
    lift (if agentBinary = [] then _ else _)
  rw [if_neg hbinary, if_neg hbinary]
  cases host.mkdirTemp with
  | error e => rfl
  | ok tempDir =>
  cases host.mkdirAll with
  | error e => rfl
  | ok u =>
  cases host.start with
  | error e => rfl
  | ok u => rfl

/-- **the sessions are those of a client that forgets its agents** -/
theorem openStrict_erased (cfg : Raw.Config) (host : Raw.Host) (w : World Kind) :
    ended Session.sess (openStrict cfg host w) = Raw.openStrict cfg host := by
  have hstop (d : AgentDiscovery) (e : Abort GoError) (w : World Kind) :
      ended Session.sess ((do let _ ← d.stopAgent; throw e : Sys (Abort GoError) Session) w) = .error e := by
    show ended Session.sess (EStateM.bind d.stopAgent _ w) = _
    unfold EStateM.bind
    rw [stopAgent_run]
    rfl
  unfold openStrict Raw.openStrict
  by_cases henabled : cfg.enabled = some false
  case pos =>
    rw [if_pos henabled, if_pos henabled]
    rfl
  rw [if_neg henabled, if_neg henabled]
  cases Raw.findAgent cfg.agentPath host.first with
  | error e => rfl
  | ok agentBinary =>
  show ended Session.sess ((if agentBinary = [] then _ else _ : Sys (Abort GoError) _) w) =
    if agentBinary = [] then _ else _
  by_cases hbinary : agentBinary = []
  case pos =>
    rw [if_pos hbinary, if_pos hbinary]
    rfl
  rw [if_neg hbinary, if_neg hbinary, ← startAgent_erased cfg host w]
  show ended Session.sess (EStateM.bind (startAgent cfg host) _ w) = _
  unfold EStateM.bind
  cases startAgent cfg host w with
  | error e w₁ => rfl
  | ok p w₁ =>
  obtain ⟨socketPath, d⟩ := p
  show ended Session.sess ((match Raw.connectWithRetry socketPath host with | .error e => _ | .ok conn => _ :
    Sys (Abort GoError) Session) w₁) = lift (Raw.connectWithRetry socketPath host) >>= _
  cases Raw.connectWithRetry socketPath host with
  | error e => exact hstop d (.error e) w₁
  | ok conn =>
  rw [lift_ok, ok_bind]
  dsimp only
  cases (Raw.handshake cfg host).run conn with
  | ok u conn' => rfl
  | error e conn' =>
  cases e with
  | error e => exact hstop d (.error e) w₁
  | panic => rfl
  | diverge => rfl

/-- everything is there and works; what the agent sends is given -/
def exampleHost (sent : Bytes) : Raw.Host :=
  ⟨⟨fun _ => some true, [], none⟩, ⟨fun _ => some true, [], none⟩, .ok [], .ok (), .ok (),
    .ok ⟨.bytes sent true, []⟩, .ok ⟨List.replicate 16 0, List.length_replicate⟩, 0, 0⟩

/-- two agents are started; one of them sends an empty frame, the other one has its session closed -/
def exampleActs : List Act :=
  let cfg : Raw.Config := ⟨utf8 "myapp", utf8 "1.0", utf8 "/opt/dtj-agent", [], [], none⟩
  let replies : Bytes := le 4 5 ++ [Agent.Resp.helloOk.toU8] ++ le 4 1 ++ le 4 1 ++ [Agent.Resp.openSessionOk.toU8]
  [.openStrict cfg (exampleHost replies), .openStrict cfg (exampleHost (le 4 0)), .invoke 0 .close]

theorem go_held_example : ∃ w ss, exampleActs.foldlM step (World.start Kind, []) = some (w, ss) ∧
    ∃ left, w.out ~ left ++ ss.flatMap owns ∧ w.out.Nodup ∧ left.map Thing.kind = exampleActs.flatMap loses ∧
      (∀ s ∈ ss, s.sess.closed = true → s.stuck = false → owns s = []) ∧
      ((∀ s ∈ ss, s.sess.closed = true ∧ s.stuck = false) → w.out ~ left) := by
  have hgoes : (exampleActs.foldlM step (World.start Kind, [])).isSome = true := by decide +kernel
  obtain ⟨⟨w, ss⟩, hrun⟩ := Option.isSome_iff_exists.mp hgoes
  exact ⟨w, ss, hrun, go_held exampleActs hrun⟩

end Dtj.Sdk.Launch.Go
