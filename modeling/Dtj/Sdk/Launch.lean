import Dtj.Lib.Custody

/-!
# The agents that the SDKs start

A session whose caller names no socket starts an agent of its own, with a directory for its socket; it stops the agent
and removes the directory in the end.  A program opens many sessions and closes them in any order, one call after
another.

* `mkdtemp`, `spawn`, `stop`, `removeDir`   the calls to the system;
* `Rust.find`, `Rust.openSession`, `Rust.close`   how the Rust SDK finds an agent, opens a session and closes it;
* `Rust.rust_held`                          **what was started and not stopped, and made and not removed, is that of
  exactly one open session, but for what the opening of a session has lost**.
-/

namespace Dtj.Sdk.Launch

open Custody
open scoped List

inductive Kind where
  | agent
  | dir
deriving DecidableEq

/-- a call to the system; the directories and processes of others are none of it -/
abbrev Sys (ε α : Type) := EStateM ε (World Kind) α

section
variable {ε α : Type}

/-- a new directory: its name is random, or has the process and the time in nanoseconds -/
def mkdtemp : Sys ε (Thing Kind) := takes .dir

def spawn : Sys ε (Thing Kind) := takes .agent

/-- the process is told to end; Rust and Python wait for it, and kill it -/
def stop (child : Thing Kind) : Sys ε Unit := gives child

def removeDir (dir : Thing Kind) : Sys ε Unit := gives dir

/-- a call that fails with an error or not -/
def fails (e : Option ε) : Sys ε Unit :=
  match e with
  | some e => throw e
  | none => return ()

/-- a call that changes none of it -/
def looks (r : Except ε α) : Sys ε α :=
  match r with
  | .ok a => return a
  | .error e => throw e

end

/-- a file of a directory -/
def join (dir file : String) : String :=
  if dir.toList = [] ∨ dir.toList.getLast? = some '/' then dir ++ file else dir ++ "/" ++ file

/-! ## packages/dtj-rust -/

namespace Rust

/-- the kinds of an `io::Error` -/
inductive ErrorKind where
  | notFound
  | permissionDenied
  | other
deriving DecidableEq

inductive DiscoveryError where
  | agentNotFound
  | notExecutable
  | socketNotFound
  | ioError
deriving DecidableEq

inductive Error where
  | badLength
  | badName
  | ioError
  | protocol
  | agentNotFound
deriving DecidableEq

structure Config where
  producerName : String
  agentPath : Option String
  socketPath : Option String
  sessionFileName : Option String
  enabled : Bool

/-- what the calls of `discover` and of the handshake come to; the candidates are those of `PATH` -/
structure Host where
  mode : String → Option Nat
  env : String → Option String
  candidates : List String
  createTemp : Option ErrorKind
  createData : Option ErrorKind
  spawn : Option ErrorKind
  polls : List (Option Nat)
  connect : Bool
  writeHello : Option Error
  readHello : Except Error Bool
  writeOpen : Option Error
  readOpen : Except Error Bool

def DiscoveryError.from : ErrorKind → DiscoveryError
  | .notFound => .agentNotFound
  | .permissionDenied => .ioError
  | .other => .ioError

def Config.validate (config : Config) : Except Error Unit :=
  if config.producerName.utf8ByteSize > 32 then .error .badLength
  else
    match config.sessionFileName with
    | some name =>
      if "..".toList <:+: name.toList ∨ "/".toList <+: name.toList then .error .badName else .ok ()
    | none => .ok ()

def Host.exists (host : Host) (path : String) : Bool := (host.mode path).isSome

/-- the paths that are tried last -/
def macos_fallbacks (host : Host) : List String :=
  ["/opt/homebrew/bin/dtj-agent", "/usr/local/bin/dtj-agent",
    match host.env "HOME" with
    | some home => join home ".cargo/bin/dtj-agent"
    | none => "~/.cargo/bin/dtj-agent"]

def find_agent_path (config : Config) (host : Host) : Except DiscoveryError String :=
  match config.agentPath with
  | some path => .ok path
  | none =>
    match (host.env "DTJ_AGENT_PATH").filter host.exists with
    | some path => .ok path
    | none =>
      match host.candidates.find? host.exists with
      | some path => .ok path
      | none =>
        match (macos_fallbacks host).find? host.exists with
        | some path => .ok path
        | none => .error .agentNotFound

def validate_executable (host : Host) (path : String) : Except DiscoveryError Unit :=
  match host.mode path with
  | none => .error .agentNotFound
  | some mode => if mode &&& 0o111 = 0 then .error .notExecutable else .ok ()

/-- the error of `spawn` -/
def spawnError : ErrorKind → DiscoveryError
  | .notFound => .agentNotFound
  | .permissionDenied => .notExecutable
  | .other => .ioError

/-- a poll sees a socket -/
def isSocket (mode : Option Nat) : Bool := mode.any fun mode => mode &&& 0o170000 = 0o140000

structure OwnedAgent where
  child : Option (Thing Kind)
  temp_dir : Option (Thing Kind)

def OwnedAgent.cleanup {ε : Type} (owned : OwnedAgent) : Sys ε OwnedAgent := do
  match owned.child with
  | some child => stop child
  | none => pure ()
  match owned.temp_dir with
  | some temp_dir => removeDir temp_dir
  | none => pure ()
  return ⟨none, none⟩

/-- `DiscoveryResult::discover`; the agent that it has started -/
def discover (config : Config) (host : Host) : Sys DiscoveryError OwnedAgent := do
  let agent_path ← looks (find_agent_path config host)
  looks (validate_executable host agent_path)
  fails (host.createTemp.map .from)
  let temp_dir ← mkdtemp
  -- the directory stays when one of these two calls fails
  fails (host.createData.map .from)
  fails (host.spawn.map spawnError)
  let child ← spawn
  if host.polls.any isSocket then return ⟨some child, some temp_dir⟩
  else do
    stop child
    removeDir temp_dir
    throw .socketNotFound

/-- `Discovery::find` -/
def find (config : Config) (host : Host) : Sys DiscoveryError (Option OwnedAgent) :=
  if config.socketPath.isSome then return none
  else do
    let owned ← discover config host
    return some owned

structure Session where
  closed : Bool
  disabled : Bool
  owned : Option OwnedAgent

/-- the session that is used when no agent can be -/
def Session.inert : Session := ⟨false, true, none⟩

/-- `connect`, Hello and OpenSession -/
def handshake (host : Host) : Except Error Unit := do
  if !host.connect then throw .ioError
  if let some e := host.writeHello then throw e
  if !(← host.readHello) then throw .protocol
  if let some e := host.writeOpen then throw e
  if !(← host.readOpen) then throw .protocol

/-- `if let Some(ref mut o) = owned { o.cleanup(); }`, and the same when it is dropped -/
def cleanup {ε : Type} (owned : Option OwnedAgent) : Sys ε Unit :=
  match owned with
  | some o => do
    let _ ← o.cleanup
    return ()
  | none => return ()

/-- `Session::open` -/
def openSession (config : Config) (host : Host) : Sys Error Session :=
  if !config.enabled then return .inert
  else do
    match ← attempt (find config host) with
    | .error _ => return .inert
    | .ok owned =>
      match handshake host with
      | .ok () => return ⟨false, false, owned⟩
      | .error _ => do
        cleanup owned
        return .inert

def open_strict (config : Config) (host : Host) : Sys Error Session := do
  looks config.validate
  if !config.enabled then return .inert
  else do
    match ← attempt (find config host) with
    | .error _ => throw .agentNotFound
    | .ok owned =>
      match handshake host with
      | .ok () => return ⟨false, false, owned⟩
      | .error e => do
        cleanup owned
        throw e

/-- `Client::open`: the discovery is dropped when it returns -/
def clientOpen (config : Config) (host : Host) : Sys Error Unit :=
  if !config.enabled || config.socketPath.isSome then return ()
  else do
    match ← attempt (find config host) with
    | .error _ => throw .agentNotFound
    | .ok owned => cleanup owned

/-- what the agent says to FinishSession: an error of the write, or what is read -/
abbrev Finish := Except Error (Except Error Bool)

def Session.cleanup {ε : Type} (s : Session) : Sys ε Session := do
  Rust.cleanup s.owned
  return { s with owned := none }

def close {ε : Type} (answer : Finish) (s : Session) : Sys ε (Except Error Unit × Session) :=
  if s.closed then return (.ok (), s)
  else if s.disabled then return (.ok (), { s with closed := true })
  else
    match answer with
    | .error e => return (.error e, s)
    | .ok read => do
      let s ← { s with closed := true }.cleanup
      match read with
      | .ok true => return (.ok (), s)
      | .ok false => return (.error .protocol, s)
      | .error e => return (.error e, s)

/-- `Drop`, and then the fields are dropped -/
def Session.drop {ε : Type} (answer : Finish) (s : Session) : Sys ε Session :=
  if s.closed then s.cleanup
  else do
    let (_, s) ← close answer s
    s.cleanup

/-! ### runs -/

inductive Act where
  | openSession (config : Config) (host : Host)
  | open_strict (config : Config) (host : Host)
  | clientOpen (config : Config) (host : Host)
  | close (i : Nat) (answer : Finish)
  | drop (i : Nat) (answer : Finish)

/-- the system, and the sessions that were opened; `none` for one that was dropped -/
abbrev State := World Kind × List (Option Session)

/-- one step of a program; `none` if it has no such session -/
def step (st : State) : Act → Option State
  | .openSession config host => some (joined some (openSession config host) st)
  | .open_strict config host => some (joined some (open_strict config host) st)
  | .clientOpen config host =>
    match clientOpen config host st.1 with
    | .ok () w => some (w, st.2)
    | .error _ w => some (w, st.2)
  | .close i answer => st.2[i]?.join.map fun s =>
    match (close answer s : Sys Empty _) st.1 with
    | .ok (_, s) w => (w, st.2.set i (some s))
  | .drop i answer => st.2[i]?.join.map fun s =>
    match (s.drop answer : Sys Empty _) st.1 with
    | .ok _ w => (w, st.2.set i none)

/-! ### what a session has -/

def OwnedAgent.things (owned : OwnedAgent) : List (Thing Kind) := owned.child.toList ++ owned.temp_dir.toList

def things (owned : Option OwnedAgent) : List (Thing Kind) := owned.elim [] OwnedAgent.things

def owns (s : Option Session) : List (Thing Kind) := s.elim [] fun s => things s.owned

/-- an agent is found that can be started -/
def usable (config : Config) (host : Host) : Except DiscoveryError Unit := do
  validate_executable host (← find_agent_path config host)

/-- a directory is made, and then no agent can be started for it -/
def strands (config : Config) (host : Host) : Bool :=
  config.socketPath.isNone && (usable config host).isOk && host.createTemp.isNone &&
    (host.createData.isSome || host.spawn.isSome)

/-- this directory is left behind -/
def lost (config : Config) (host : Host) : List Kind := if strands config host then [.dir] else []

def loses : Act → List Kind
  | .openSession config host => if config.enabled then lost config host else []
  | .open_strict config host => if config.validate.isOk && config.enabled then lost config host else []
  | .clientOpen config host => if config.enabled then lost config host else []
  | .close _ _ => []
  | .drop _ _ => []

section
variable {w : World Kind} {left : List (Thing Kind)} {ss : List (Option Session)} {st : State}

theorem lost_none {config : Config} {host : Host} (h : strands config host = false) : lost config host = [] := by
  rw [lost, h]
  rfl

theorem discover_spec {config : Config} (host : Host) (hsocket : config.socketPath = none) (hw : w.Sound) :
    Triple w [] (discover config host) (fun owned ts => ts ~ owned.things ∧ lost config host = [])
      fun _ ts => ts.map Thing.kind = lost config host := by
  unfold discover
  cases hpath : find_agent_path config host with
  | error e =>
    have hnot : strands config host = false := by
      simp [strands, usable, hpath, bind, Except.bind, Except.isOk, Except.toBool]
    exact Triple.fail (fun _ => rfl) (lost_none hnot).symm
  | ok path =>
  refine Triple.skip (fun _ => rfl) ?_
  have husable : usable config host = validate_executable host path := by rw [usable, hpath]; rfl
  cases hvalid : validate_executable host path with
  | error e =>
    have hnot : strands config host = false := by
      simp [strands, husable, hvalid, Except.isOk, Except.toBool]
    exact Triple.fail (fun _ => rfl) (lost_none hnot).symm
  | ok u =>
  refine Triple.skip (fun _ => rfl) ?_
  cases htemp : host.createTemp with
  | some e =>
    have hnot : strands config host = false := by simp [strands, htemp]
    exact Triple.fail (fun _ => rfl) (lost_none hnot).symm
  | none =>
  refine Triple.skip (fun _ => rfl) (Triple.takes fun dir hdir => ?_)
  have hstrands : strands config host = (host.createData.isSome || host.spawn.isSome) := by
    simp [strands, hsocket, husable, hvalid, htemp, Except.isOk, Except.toBool]
  -- from here on the directory is there, and goes only with the agent
  have hlost (h : strands config host = true) : [dir].map Thing.kind = lost config host := by
    rw [lost, if_pos h, List.map_singleton, hdir]
  cases hdata : host.createData with
  | some e => exact Triple.fail (fun _ => rfl) (hlost (by rw [hstrands, hdata]; rfl))
  | none =>
  refine Triple.skip (fun _ => rfl) ?_
  cases hspawn : host.spawn with
  | some e => exact Triple.fail (fun _ => rfl) (hlost (by rw [hstrands, hdata, hspawn]; rfl))
  | none =>
  refine Triple.skip (fun _ => rfl) (Triple.takes fun child hchild => ?_)
  have hnone : lost config host = [] := lost_none (by rw [hstrands, hdata, hspawn]; rfl)
  split_ifs with hpoll
  · exact Triple.pure ⟨.swap _ _ _, hnone⟩
  · have hne : dir ≠ child := by
      rintro rfl
      rw [hdir] at hchild
      cases hchild
    have herase : ([] ++ [dir] ++ [child]).erase child = [dir] := by simp [hne]
    refine Triple.gives hw (by simp) ?_
    rw [herase]
    refine Triple.gives hw (by simp) (Triple.throw ?_)
    rw [hnone]
    simp

theorem find_spec (config : Config) (host : Host) (hw : w.Sound) :
    Triple w [] (find config host) (fun owned ts => ts ~ things owned ∧ lost config host = [])
      fun _ ts => ts.map Thing.kind = lost config host := by
  unfold find
  cases hsocket : config.socketPath with
  | some path => exact Triple.pure ⟨.refl _, lost_none (by rw [strands, hsocket]; rfl)⟩
  | none => exact Triple.bind (discover_spec host hsocket hw) fun owned ts hts => Triple.pure hts

theorem cleanup_run {ε : Type} (owned : Option OwnedAgent) (w : World Kind) :
    (cleanup owned : Sys ε Unit) w = .ok () (w.giveAll (things owned)) := by
  rcases owned with _ | ⟨_ | child, _ | temp_dir⟩ <;> rfl

/-! ### the opening of a session -/

/-- a session that is closed or disabled has nothing -/
def Session.Free (s : Session) : Prop := s.closed = true ∨ s.disabled = true → s.owned = none

def Free (s : Option Session) : Prop := ∀ s' ∈ s, s'.Free

theorem free_some {s : Session} (h : s.Free) : Free (some s) := by
  intro s' hs'
  cases hs'
  exact h

theorem free_none : Free none := fun s' hs' => by cases hs'

theorem inert_free : Free (some .inert) := free_some fun _ => rfl

theorem open_free (owned : Option OwnedAgent) : Free (some ⟨false, false, owned⟩) := by
  refine free_some ?_
  rintro (h | h) <;> cases h

theorem openSession_makes (config : Config) (host : Host) (hw : w.Sound) :
    Makes owns Free some w (openSession config host) (loses (.openSession config host)) := by
  unfold Makes openSession
  cases henabled : config.enabled with
  | false =>
    have hloses : loses (.openSession config host) = [] := by simp [loses, henabled]
    exact Triple.pure ⟨inert_free, [], .refl _, hloses.symm⟩
  | true =>
  have hloses : loses (.openSession config host) = lost config host := by simp [loses, henabled]
  rw [hloses]
  refine Triple.attempt (find_spec config host hw) ?_ ?_
  · rintro owned ts ⟨hts, hlost⟩
    dsimp only
    rw [hlost]
    cases handshake host with
    | ok u => exact Triple.pure ⟨open_free owned, [], by rwa [List.append_nil], rfl⟩
    | error e => exact Triple.givesAll hw (cleanup_run owned) hts (Triple.pure ⟨inert_free, [], .refl _, rfl⟩)
  · exact fun e ts hts => Triple.pure ⟨inert_free, ts, .refl _, hts⟩

theorem open_strict_makes (config : Config) (host : Host) (hw : w.Sound) :
    Makes owns Free some w (open_strict config host) (loses (.open_strict config host)) := by
  unfold Makes open_strict
  cases hvalid : config.validate with
  | error e =>
    have hloses : loses (.open_strict config host) = [] := by simp [loses, hvalid, Except.isOk, Except.toBool]
    exact Triple.fail (fun _ => rfl) hloses.symm
  | ok u =>
  refine Triple.skip (fun _ => rfl) ?_
  cases henabled : config.enabled with
  | false =>
    have hloses : loses (.open_strict config host) = [] := by simp [loses, henabled]
    exact Triple.pure ⟨inert_free, [], .refl _, hloses.symm⟩
  | true =>
  have hloses : loses (.open_strict config host) = lost config host := by
    simp [loses, hvalid, henabled, Except.isOk, Except.toBool]
  rw [hloses]
  refine Triple.attempt (find_spec config host hw) ?_ ?_
  · rintro owned ts ⟨hts, hlost⟩
    dsimp only
    rw [hlost]
    cases handshake host with
    | ok u => exact Triple.pure ⟨open_free owned, [], by rwa [List.append_nil], rfl⟩
    | error e => exact Triple.givesAll hw (cleanup_run owned) hts (Triple.throw rfl)
  · exact fun e ts hts => Triple.throw hts

/-- a client keeps no agent: the one that it has started is stopped at once -/
theorem clientOpen_spec (config : Config) (host : Host) (hw : w.Sound) :
    Triple w [] (clientOpen config host) (fun _ ts => ts.map Thing.kind = loses (.clientOpen config host))
      fun _ ts => ts.map Thing.kind = loses (.clientOpen config host) := by
  unfold clientOpen
  cases henabled : config.enabled with
  | false =>
    have hloses : loses (.clientOpen config host) = [] := by simp [loses, henabled]
    exact Triple.pure hloses.symm
  | true =>
  have hloses : loses (.clientOpen config host) = lost config host := by simp [loses, henabled]
  rw [hloses]
  cases hsocket : config.socketPath with
  | some path => exact Triple.pure (lost_none (by rw [strands, hsocket]; rfl)).symm
  | none =>
  refine Triple.attempt (find_spec config host hw) ?_ ?_
  · rintro owned ts ⟨hts, hlost⟩ w₁ hadds
    dsimp only
    rw [cleanup_run]
    exact ⟨[], hadds.giveAll hw hts, hlost.symm⟩
  · exact fun e ts hts => Triple.throw hts

/-! ### the end of a session -/

/-- a close that does not reach the agent leaves the session open -/
theorem close_run {ε : Type} (answer : Finish) {s : Session} (hfree : s.Free) (w : World Kind) :
    (∃ r s', (close answer s : Sys ε _) w = .ok (r, s') w ∧ s'.owned = s.owned ∧ s'.Free) ∨
    ∃ r s', (close answer s : Sys ε _) w = .ok (r, s') (w.giveAll (things s.owned)) ∧ s'.owned = none := by
  obtain ⟨closed, disabled, owned⟩ := s
  cases closed with
  | true => exact .inl ⟨_, _, rfl, rfl, hfree⟩
  | false =>
  cases disabled with
  | true => exact .inl ⟨_, _, rfl, rfl, fun _ => hfree (.inr rfl)⟩
  | false =>
  cases answer with
  | error e => exact .inl ⟨_, _, rfl, rfl, hfree⟩
  | ok read =>
    refine .inr ?_
    rcases owned with _ | ⟨_ | child, _ | temp_dir⟩ <;> rcases read with e | _ | _ <;>
      exact ⟨_, ⟨true, false, none⟩, rfl, rfl⟩

theorem sessionCleanup_run {ε : Type} (s : Session) (w : World Kind) :
    (s.cleanup : Sys ε Session) w = .ok { s with owned := none } (w.giveAll (things s.owned)) := by
  obtain ⟨closed, disabled, owned⟩ := s
  rcases owned with _ | ⟨_ | child, _ | temp_dir⟩ <;> rfl

/-- a session that is dropped gives back what it has, closed or not -/
theorem drop_run {ε : Type} (answer : Finish) {s : Session} (hfree : s.Free) (w : World Kind) :
    ∃ s', (s.drop answer : Sys ε Session) w = .ok s' (w.giveAll (things s.owned)) := by
  unfold Session.drop
  split_ifs with hclosed
  · exact ⟨_, sessionCleanup_run s w⟩
  · show ∃ s', EStateM.bind (close answer s) _ w = _
    unfold EStateM.bind
    rcases close_run (ε := ε) answer hfree w with ⟨r, s₁, hclose, howned, -⟩ | ⟨r, s₁, hclose, howned⟩
    · rw [hclose, ← howned]
      exact ⟨_, sessionCleanup_run s₁ w⟩
    · rw [hclose]
      refine ⟨{ s₁ with owned := none }, (sessionCleanup_run s₁ _).trans ?_⟩
      rw [howned]
      rfl

/-! ### every step -/

theorem step_balanced {a : Act} (h : Account owns w left ss) (hall : ∀ s ∈ ss, Free s)
    (hstep : step (w, ss) a = some st) : Balanced owns Free left (loses a) st := by
  cases a with
  | openSession config host =>
    cases hstep
    exact h.joined hall (openSession_makes config host h.sound)
  | open_strict config host =>
    cases hstep
    exact h.joined hall (open_strict_makes config host h.sound)
  | clientOpen config host =>
    have hrun := clientOpen_spec config host h.sound w (Adds.none w)
    unfold step at hstep
    dsimp only at hstep
    cases hcall : clientOpen config host w with
    | ok u w₁ =>
      rw [hcall] at hrun hstep
      cases hstep
      obtain ⟨ts, hadds, hkinds⟩ := hrun
      exact ⟨hall, ts, h.lose hadds, hkinds⟩
    | error e w₁ =>
      rw [hcall] at hrun hstep
      cases hstep
      obtain ⟨ts, hadds, hkinds⟩ := hrun
      exact ⟨hall, ts, h.lose hadds, hkinds⟩
  | close i answer =>
    obtain ⟨s, hs, hrun⟩ := Option.map_eq_some_iff.mp hstep
    have hi : ss[i]? = some (some s) := Option.join_eq_some_iff.mp hs
    have hfree : s.Free := hall _ (List.mem_of_getElem? hi) s rfl
    rcases close_run (ε := Empty) answer hfree w with ⟨r, s₁, hclose, howned, hfree₁⟩ | ⟨r, s₁, hclose, howned⟩
    · rw [hclose] at hrun
      cases hrun
      exact h.balanced_put hall hi (free_some hfree₁) (congrArg things howned)
    · rw [hclose] at hrun
      cases hrun
      exact h.balanced_give hall hi (free_some fun _ => howned) (congrArg things howned)
  | drop i answer =>
    obtain ⟨s, hs, hrun⟩ := Option.map_eq_some_iff.mp hstep
    have hi : ss[i]? = some (some s) := Option.join_eq_some_iff.mp hs
    obtain ⟨s₁, hdrop⟩ := drop_run (ε := Empty) answer (hall _ (List.mem_of_getElem? hi) s rfl) w
    rw [hdrop] at hrun
    cases hrun
    exact h.balanced_give hall hi free_none rfl

/-- **What a program of the Rust SDK has not given back is that of its sessions**: in every run, each agent that was
started and not stopped, and each directory that was made and not removed, is that of exactly one session, and none is
that of a closed one; but a directory is left for each opening that makes one and can start no agent for it -/
theorem rust_held (acts : List Act) {w : World Kind} {ss : List (Option Session)}
    (hrun : acts.foldlM step (World.start Kind, []) = some (w, ss)) :
    ∃ left, w.out ~ left ++ ss.flatMap owns ∧ w.out.Nodup ∧ left.map Thing.kind = acts.flatMap loses ∧
      (∀ s, some s ∈ ss → s.closed = true → owns (some s) = []) ∧
      ((∀ s, some s ∈ ss → s.closed = true) → w.out ~ left) := by
  obtain ⟨hall, left, hperm, hnodup, hleft, hnothing⟩ := run_account step_balanced hrun
  have hclosed (s : Session) (hs : some s ∈ ss) (hclosed : s.closed = true) : owns (some s) = [] :=
    congrArg things (hall _ hs s rfl (.inl hclosed))
  refine ⟨left, hperm, hnodup, hleft, hclosed, fun hends => hnothing fun s hs => ?_⟩
  cases s with
  | none => rfl
  | some s => exact hclosed s hs (hends s hs)

end

/-- everything is there and works; the second poll sees the socket -/
def exampleHost : Host where
  mode _ := some 0o100755
  env _ := none
  candidates := []
  createTemp := none
  createData := none
  spawn := none
  polls := [none, some 0o140755]
  connect := true
  writeHello := none
  readHello := .ok true
  writeOpen := none
  readOpen := .ok true

/-- three sessions are opened, and two of them have an agent; one of these is closed -/
def exampleActs : List Act :=
  let config : Config := ⟨"app", some "bin/dtj-agent", none, none, true⟩
  [.openSession config exampleHost, .openSession config { exampleHost with createData := some .permissionDenied },
    .open_strict config exampleHost, .close 0 (.ok (.ok true))]

theorem rust_held_example : ∃ w ss, exampleActs.foldlM step (World.start Kind, []) = some (w, ss) ∧
    ∃ left, w.out ~ left ++ ss.flatMap owns ∧ w.out.Nodup ∧ left.map Thing.kind = exampleActs.flatMap loses ∧
      (∀ s, some s ∈ ss → s.closed = true → owns (some s) = []) ∧
      ((∀ s, some s ∈ ss → s.closed = true) → w.out ~ left) :=
  ⟨_, _, rfl, rust_held exampleActs rfl⟩

end Rust

end Dtj.Sdk.Launch
