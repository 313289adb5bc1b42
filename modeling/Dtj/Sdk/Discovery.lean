import Dtj.Sdk.Launch

/-!
# The agents of Python and TypeScript programs

The two SDKs have the same classes for an agent and a session, and differ in what they do when the opening of a session
fails.  A program keeps the sessions that it has not closed.

* `AgentDiscovery`, `TraceSession`   an agent with its directory, and a session that has them;
* `run_holds`                        a whole run, from what one opening makes and loses;
* `Python.python_held`, `TypeScript.typeScript_held`   **what was started and not stopped, and made and not removed, is
  that of exactly one open session, but for what the opening of a session has lost**.
-/

namespace Dtj.Sdk.Launch

open Custody
open scoped List

/-! ## the sessions of packages/dtj-python and packages/dtj-typescript -/

/-- `AgentDiscovery`, without what it is told -/
structure AgentDiscovery where
  process : Option (Thing Kind)
  tempSocketDir : Option (Thing Kind)

/-- `_cleanup`, `cleanup` -/
def AgentDiscovery.cleanup {ε : Type} (d : AgentDiscovery) : Sys ε AgentDiscovery := do
  match d.tempSocketDir with
  | some dir => removeDir dir
  | none => pure ()
  return { d with tempSocketDir := none }

/-- `stop_agent`, `stopAgent` -/
def AgentDiscovery.stopAgent {ε : Type} (d : AgentDiscovery) : Sys ε AgentDiscovery := do
  match d.process with
  | some process => stop process
  | none => pure ()
  { d with process := none }.cleanup

structure TraceSession where
  discovery : AgentDiscovery
  closed : Bool

/-- `close`: what FinishSession comes to is dropped -/
def TraceSession.close {ε : Type} (s : TraceSession) : Sys ε TraceSession :=
  if s.closed then return s
  else do
    let discovery ← s.discovery.stopAgent
    return ⟨discovery, true⟩

/-- an argument that is an empty text is as good as none -/
def given (s : Option String) : Option String := s.filter (· ≠ "")

/-- what a program does that opens sessions in one way -/
inductive Act (Open : Type) where
  | openSession (o : Open)
  | close (i : Nat)

/-- the system, and the sessions that were opened; `none` for one that does nothing -/
abbrev State := World Kind × List (Option TraceSession)

section
variable {ε Open : Type}

/-- one step of a program; `none` if it has no such session -/
def step (openSession : Open → Sys ε (Option TraceSession)) (st : State) : Act Open → Option State
  | .openSession o => some (joined id (openSession o) st)
  | .close i => st.2[i]?.join.map fun s =>
    match (s.close : Sys Empty _) st.1 with
    | .ok s w => (w, st.2.set i (some s))

def AgentDiscovery.things (d : AgentDiscovery) : List (Thing Kind) := d.process.toList ++ d.tempSocketDir.toList

/-- what a session has -/
def owns (s : Option TraceSession) : List (Thing Kind) := s.elim [] fun s => s.discovery.things

/-- what a step loses -/
def losses (loses : Open → List Kind) : Act Open → List Kind
  | .openSession o => loses o
  | .close _ => []

variable {w : World Kind} {left ts : List (Thing Kind)} {ss : List (Option TraceSession)} {st : State}
  {openSession : Open → Sys ε (Option TraceSession)} {loses : Open → List Kind}

theorem stopAgent_run (d : AgentDiscovery) (w : World Kind) :
    (d.stopAgent : Sys ε _) w = .ok ⟨none, none⟩ (w.giveAll d.things) := by
  rcases d with ⟨_ | process, _ | dir⟩ <;> rfl

theorem stopAgent_spec {d : AgentDiscovery} {E : ε → List (Thing Kind) → Prop} (hw : w.Sound) (hts : ts ~ d.things) :
    Triple w ts (d.stopAgent : Sys ε _) (fun _ ts' => ts' = []) E := by
  intro w₁ hadds
  rw [stopAgent_run]
  exact ⟨[], hadds.giveAll hw hts, rfl⟩

section
variable {α : Type} {dir : Thing Kind} {d : AgentDiscovery} {e : ε} {Q : α → List (Thing Kind) → Prop}
  {E : ε → List (Thing Kind) → Prop}

/-- an opening that fails has stopped its agent -/
theorem stopped_spec (hw : w.Sound) (hts : ts ~ d.things) (he : E e []) :
    Triple w ts (do let _ ← d.stopAgent; throw e : Sys ε α) Q E := by
  refine Triple.bind (stopAgent_spec hw hts) ?_
  rintro d' ts' rfl
  exact Triple.throw he

/-- a start that fails has removed its directory -/
theorem cleaned_spec (hw : w.Sound) (he : E e []) :
    Triple w ([] ++ [dir]) (do let _ ← AgentDiscovery.cleanup ⟨none, some dir⟩; throw e : Sys ε α) Q E := by
  refine Triple.bind (Q := fun _ ts => ts = []) (fun w₁ hadds => ?_) ?_
  · exact ⟨_, hadds.give hw (by simp), by simp⟩
  · rintro d ts rfl
    exact Triple.throw he

end

/-- a session that is closed has nothing -/
def Free (s : Option TraceSession) : Prop := ∀ s' ∈ s, s'.closed = true → s'.discovery.things = []

theorem free_none : Free none := fun s' hs' => by cases hs'

theorem free_some {s : TraceSession} (h : s.closed = true → s.discovery.things = []) : Free (some s) := by
  intro s' hs'
  cases hs'
  exact h

theorem close_run {s : TraceSession} (hfree : s.closed = true → s.discovery.things = []) (w : World Kind) :
    ∃ s', (s.close : Sys ε _) w = .ok s' (w.giveAll s.discovery.things) ∧ s'.discovery.things = [] := by
  obtain ⟨d, closed⟩ := s
  cases closed with
  | true =>
    have hnone : d.things = [] := hfree rfl
    refine ⟨⟨d, true⟩, ?_, hnone⟩
    rw [hnone]
    rfl
  | false =>
    refine ⟨⟨⟨none, none⟩, true⟩, ?_, rfl⟩
    rcases d with ⟨_ | process, _ | dir⟩ <;> rfl

theorem step_balanced (hmakes : ∀ o w, w.Sound → Makes owns Free id w (openSession o) (loses o)) {a : Act Open}
    (h : Account owns w left ss) (hall : ∀ s ∈ ss, Free s) (hstep : step openSession (w, ss) a = some st) :
    Balanced owns Free left (losses loses a) st := by
  cases a with
  | openSession o =>
    cases hstep
    exact h.joined hall (hmakes o w h.sound)
  | close i =>
    obtain ⟨s, hs, hrun⟩ := Option.map_eq_some_iff.mp hstep
    have hi : ss[i]? = some (some s) := Option.join_eq_some_iff.mp hs
    obtain ⟨s₁, hclose, hnone⟩ := close_run (ε := Empty) (hall _ (List.mem_of_getElem? hi) s rfl) w
    rw [hclose] at hrun
    cases hrun
    exact h.balanced_give hall hi (free_some fun _ => hnone) hnone

/-- a whole run, from what one opening makes and loses -/
theorem run_holds (hmakes : ∀ o w, w.Sound → Makes owns Free id w (openSession o) (loses o)) {acts : List (Act Open)}
    (hrun : acts.foldlM (step openSession) (World.start Kind, []) = some (w, ss)) :
    ∃ left, w.out ~ left ++ ss.flatMap owns ∧ w.out.Nodup ∧ left.map Thing.kind = acts.flatMap (losses loses) ∧
      (∀ s, some s ∈ ss → s.closed = true → owns (some s) = []) ∧
      ((∀ s, some s ∈ ss → s.closed = true) → w.out ~ left) := by
  obtain ⟨hall, left, hperm, hnodup, hleft, hnothing⟩ := run_account (step_balanced hmakes) hrun
  have hclosed (s : TraceSession) (hs : some s ∈ ss) (hclosed : s.closed = true) : owns (some s) = [] :=
    hall _ hs s rfl hclosed
  refine ⟨left, hperm, hnodup, hleft, hclosed, fun hends => hnothing fun s hs => ?_⟩
  cases s with
  | none => rfl
  | some s => exact hclosed s hs (hends s hs)

end

/-! ## packages/dtj-python -/

namespace Python

inductive Error where
  | agentNotFound
  | connectionError
  | other
deriving DecidableEq

/-- the arguments of `open`; an empty text is as good as none -/
structure Config where
  data_dir : Option String
  agent_path : Option String
  socket_path : Option String
  config_path : Option String
  enabled : Bool

/-- what a search for the agent sees: the files that can be run, and what `which` finds -/
structure Files where
  runs : String → Bool
  env_path : Option String
  which : Option String
  home : String

/-- what the calls of `open` come to; it searches for the agent twice -/
structure Host where
  isFile : String → Bool
  found_config : Option String
  first : Files
  second : Files
  createTemp : Option Error
  mkdir : Option Error
  popen : Bool
  connect : Bool
  handshake : Option Error

def find_agent (config : Config) (files : Files) : Except Error (Option String) :=
  match given config.agent_path with
  | some path => if files.runs path then .ok (some path) else .error .agentNotFound
  | none =>
    match (given files.env_path).filter files.runs with
    | some path => .ok (some path)
    | none =>
      match (given files.which).filter files.runs with
      | some path => .ok (some path)
      | none =>
        .ok (["/opt/homebrew/bin/dtj-agent", "/usr/local/bin/dtj-agent",
          join files.home ".cargo/bin/dtj-agent"].find? files.runs)

/-- the agent is told where its configuration is, instead of a data directory -/
def use_config (config : Config) (host : Host) : Bool := host.found_config.isSome && config.data_dir.isNone

/-- nothing refers to the object any more: its `TemporaryDirectory` removes the directory, its process goes on -/
def collected {ε : Type} (d : AgentDiscovery) : Sys ε Unit :=
  match d.tempSocketDir with
  | some dir => removeDir dir
  | none => return ()

/-- `data_dir.mkdir`, when the agent has no configuration -/
def makesDataDir (config : Config) (host : Host) : Option Error :=
  if use_config config host then none else host.mkdir

/-- `start_agent`; when it fails, the caller drops the object -/
def start_agent (config : Config) (host : Host) : Sys Error AgentDiscovery :=
  if (given config.socket_path).isSome then return ⟨none, none⟩
  else do
    match ← looks (find_agent config host.second) with
    | none => throw .agentNotFound
    | some _ => do
      fails host.createTemp
      let dir ← mkdtemp
      match makesDataDir config host with
      | some e => do
        collected ⟨none, some dir⟩
        throw e
      | none =>
        if host.popen then do
          let process ← spawn
          return ⟨some process, some dir⟩
        else do
          let _ ← AgentDiscovery.cleanup ⟨none, some dir⟩
          throw .connectionError

/-- what is looked at before an agent is started: whether there is one -/
def precheck (config : Config) (host : Host) : Except Error Bool :=
  if config.config_path.any fun path => !host.isFile path then .error .connectionError
  else if (given config.socket_path).isSome then .ok true
  else (find_agent config host.first).map Option.isSome

/-- `TraceSession.open`; none for a session that does nothing -/
def openSession (config : Config) (host : Host) : Sys Error (Option TraceSession) :=
  if !config.enabled then return none
  else do
    match ← looks (precheck config host) with
    | false => return none
    | true => do
      match ← attempt (start_agent config host) with
      | .error .agentNotFound => return none
      | .error _ => throw .connectionError
      | .ok discovery =>
        if host.connect then
          match host.handshake with
          | none => return some ⟨discovery, false⟩
          | some e => do
            let _ ← discovery.stopAgent
            throw e
        else do
          -- the process is not stopped here
          collected discovery
          throw .connectionError

/-- an agent is started -/
def starts (config : Config) (host : Host) : Bool :=
  (given config.socket_path).isNone && ((find_agent config host.second).toOption.join.isSome &&
    (host.createTemp.isNone && ((makesDataDir config host).isNone && host.popen)))

/-- and then nobody answers on its socket: the agent is left behind -/
def strands (config : Config) (host : Host) : Bool :=
  config.enabled && ((precheck config host).toOption == some true && (starts config host && !host.connect))

/-- what is lost by an opening -/
def loses (o : Config × Host) : List Kind := if strands o.1 o.2 then [.agent] else []

section
variable {w : World Kind}

theorem loses_none {config : Config} {host : Host} (h : strands config host = false) :
    loses (config, host) = [] := by
  rw [loses, h]
  rfl

/-- what the object has after `start_agent`, if this returns -/
structure Started (config : Config) (host : Host) (d : AgentDiscovery) (ts : List (Thing Kind)) : Prop where
  things : ts ~ d.things
  left : ∀ dir, d.tempSocketDir = some dir → dir ∈ ts ∧ starts config host = true ∧
    (ts.erase dir).map Thing.kind = [.agent]
  idle : d.tempSocketDir = none → ts = [] ∧ starts config host = false

theorem start_agent_spec (config : Config) (host : Host) (hw : w.Sound) :
    Triple w [] (start_agent config host) (Started config host) fun _ ts => ts = [] ∧ starts config host = false := by
  unfold start_agent
  cases hsocket : given config.socket_path with
  | some path =>
    have hnot : starts config host = false := by simp [starts, hsocket]
    exact Triple.pure ⟨.refl _, fun dir hdir => (by cases hdir), fun _ => ⟨rfl, hnot⟩⟩
  | none =>
  show Triple w [] (looks (find_agent config host.second) >>= _) _ _
  rcases hfind : find_agent config host.second with e | _ | path
  · exact Triple.fail (fun _ => rfl) ⟨rfl, by simp [starts, hfind, Except.toOption]⟩
  · refine Triple.skip (fun _ => rfl) (Triple.throw ⟨rfl, ?_⟩)
    simp [starts, hfind, Except.toOption]
  refine Triple.skip (fun _ => rfl) ?_
  dsimp only
  cases htemp : host.createTemp with
  | some e => exact Triple.fail (fun _ => rfl) ⟨rfl, by simp [starts, htemp]⟩
  | none =>
  refine Triple.skip (fun _ => rfl) (Triple.takes fun dir hdir => ?_)
  have herase : ([] ++ [dir]).erase dir = [] := by simp
  cases hmkdir : makesDataDir config host with
  | some e =>
    refine Triple.gives hw (by simp) (Triple.throw ⟨herase, ?_⟩)
    simp [starts, hmkdir]
  | none =>
  dsimp only
  split_ifs with hpopen
  · have hstarts : starts config host = true := by
      simp [starts, hsocket, hfind, htemp, hmkdir, hpopen, Except.toOption]
    refine Triple.takes fun process hprocess => Triple.pure ?_
    refine { things := .swap _ _ _, left := ?_, idle := fun h => by cases h }
    rintro _ ⟨⟩
    refine ⟨by simp, hstarts, ?_⟩
    rw [List.nil_append, List.singleton_append, List.erase_cons_head, List.map_singleton, hprocess]
  · have hnot : starts config host = false := by simp [starts, hpopen]
    exact cleaned_spec hw ⟨rfl, hnot⟩

theorem openSession_makes (config : Config) (host : Host) (hw : w.Sound) :
    Makes owns Free id w (openSession config host) (loses (config, host)) := by
  unfold Makes openSession
  cases henabled : config.enabled with
  | false => exact Triple.pure ⟨free_none, [], .refl _, (loses_none (by rw [strands, henabled]; rfl)).symm⟩
  | true =>
  show Triple w [] (looks (precheck config host) >>= _) _ _
  rcases hcheck : precheck config host with e | _ | _
  · exact Triple.fail (fun _ => rfl) (loses_none (by simp [strands, hcheck, Except.toOption])).symm
  · refine Triple.skip (fun _ => rfl) (Triple.pure ⟨free_none, [], .refl _, ?_⟩)
    exact (loses_none (by simp [strands, hcheck, Except.toOption])).symm
  have hstrands : strands config host = (starts config host && !host.connect) := by
    simp [strands, henabled, hcheck, Except.toOption]
  refine Triple.skip (fun _ => rfl) (Triple.attempt (start_agent_spec config host hw) ?_ ?_)
  · intro d ts hd
    dsimp only
    split_ifs with hconnect
    · have hnone : loses (config, host) = [] :=
        loses_none (by rw [hstrands, hconnect, Bool.not_true, Bool.and_false])
      rw [hnone]
      cases host.handshake with
      | none => exact Triple.pure ⟨free_some (by rintro ⟨⟩), [], by rw [List.append_nil]; exact hd.things, rfl⟩
      | some e => exact stopped_spec hw hd.things rfl
    · have hfails : host.connect = false := Bool.eq_false_iff.mpr hconnect
      obtain ⟨process, _ | dir⟩ := d
      · obtain ⟨rfl, hnot⟩ := hd.idle rfl
        have hnone : loses (config, host) = [] := loses_none (by rw [hstrands, hnot, Bool.false_and])
        exact Triple.skip (fun _ => rfl) (Triple.throw hnone.symm)
      · -- the directory goes with the object, and the process stays
        obtain ⟨hdir, hstarts, hkinds⟩ := hd.left dir rfl
        have hlost : loses (config, host) = [.agent] :=
          if_pos (by rw [hstrands, hstarts, hfails]; rfl)
        refine Triple.gives hw hdir (Triple.throw ?_)
        rw [hkinds, hlost]
  · rintro e ts ⟨rfl, hnot⟩
    have hnone : loses (config, host) = [] := loses_none (by rw [hstrands, hnot, Bool.false_and])
    rw [hnone]
    cases e with
    | agentNotFound => exact Triple.pure ⟨free_none, [], .refl _, rfl⟩
    | connectionError => exact Triple.throw rfl
    | other => exact Triple.throw rfl

/-- **What a program of the Python SDK has not given back is that of its sessions**: in every run, each agent that was
started and not stopped, and each directory that was made and not removed, is that of exactly one session, and none is
that of a closed one; but an agent goes on for each opening that starts one and cannot connect to it -/
theorem python_held (acts : List (Act (Config × Host))) {w : World Kind} {ss : List (Option TraceSession)}
    (hrun : acts.foldlM (step fun o => openSession o.1 o.2) (World.start Kind, []) = some (w, ss)) :
    ∃ left, w.out ~ left ++ ss.flatMap owns ∧ w.out.Nodup ∧ left.map Thing.kind = acts.flatMap (losses loses) ∧
      (∀ s, some s ∈ ss → s.closed = true → owns (some s) = []) ∧
      ((∀ s, some s ∈ ss → s.closed = true) → w.out ~ left) :=
  run_holds (fun o _ hw => openSession_makes o.1 o.2 hw) hrun

end

/-- everything is there and works -/
def exampleHost : Host where
  isFile _ := true
  found_config := none
  first := ⟨fun _ => true, none, none, "/home"⟩
  second := ⟨fun _ => true, none, none, "/home"⟩
  createTemp := none
  mkdir := none
  popen := true
  connect := true
  handshake := none

/-- two agents are started, one of which nobody answers for; a session that has the other is closed -/
def exampleActs : List (Act (Config × Host)) :=
  let config : Config := ⟨none, some "bin/dtj-agent", none, none, true⟩
  [.openSession (config, exampleHost), .openSession (config, { exampleHost with connect := false }), .close 0]

theorem python_held_example : ∃ w ss,
    exampleActs.foldlM (step fun o => openSession o.1 o.2) (World.start Kind, []) = some (w, ss) ∧
    ∃ left, w.out ~ left ++ ss.flatMap owns ∧ w.out.Nodup ∧ left.map Thing.kind = exampleActs.flatMap (losses loses) ∧
      (∀ s, some s ∈ ss → s.closed = true → owns (some s) = []) ∧
      ((∀ s, some s ∈ ss → s.closed = true) → w.out ~ left) :=
  ⟨_, _, rfl, python_held exampleActs rfl⟩

end Python

/-! ## packages/dtj-typescript -/

namespace TypeScript

inductive Error where
  | agentNotFound
  | connectionError
  | protocolError
  | other
deriving DecidableEq

/-- the part of the configuration that says which agent is used; an empty text is as good as none -/
structure Config where
  agentPath : Option String
  socketPath : Option String
  enabled : Bool

/-- what a search for the agent sees; the candidates are those of `PATH` -/
structure Files where
  existsSync : String → Bool
  envPath : Option String
  candidates : List String

/-- what comes of `spawn`: it throws, or the process has an `error` event, or runs -/
inductive Spawned where
  | thrown
  | failed
  | runs
deriving DecidableEq

/-- what the calls of `open` come to; it searches for the agent twice -/
structure Host where
  first : Files
  second : Files
  mkdtempSync : Bool
  mkdirSync : Bool
  spawn : Spawned
  connect : Bool
  handshake : Option Error

def findAgent (config : Config) (files : Files) : Option String :=
  match given config.agentPath with
  | some path => if files.existsSync path then some path else none
  | none =>
    match (given files.envPath).filter files.existsSync with
    | some path => some path
    | none => files.candidates.find? files.existsSync

def startAgent (config : Config) (host : Host) : Sys Error AgentDiscovery :=
  if (given config.socketPath).isSome then return ⟨none, none⟩
  else
    match findAgent config host.second with
    | none => throw .agentNotFound
    | some _ => do
      fails (if host.mkdtempSync then none else some .other)
      let dir ← mkdtemp
      -- nothing removes the directory when this call throws
      fails (if host.mkdirSync then none else some .other)
      match host.spawn with
      | .thrown => do
        let _ ← AgentDiscovery.cleanup ⟨none, some dir⟩
        throw .connectionError
      | .failed => return ⟨none, some dir⟩
      | .runs => do
        let process ← spawn
        return ⟨some process, some dir⟩

/-- `TraceSession.open`; none for a session that does nothing -/
def openSession (config : Config) (host : Host) : Sys Error (Option TraceSession) :=
  if !config.enabled then return none
  else
    match findAgent config host.first with
    | none => return none
    | some _ => do
      match ← attempt (startAgent config host) with
      | .error .agentNotFound => return none
      | .error _ => throw .connectionError
      | .ok discovery =>
        if host.connect then
          match host.handshake with
          | none => return some ⟨discovery, false⟩
          | some err => do
            let _ ← discovery.stopAgent
            throw err
        else throw .connectionError

/-- a directory is made for an agent -/
def makesDir (config : Config) (host : Host) : Bool :=
  (given config.socketPath).isNone && ((findAgent config host.second).isSome && host.mkdtempSync)

/-- what is there after `startAgent`, whether it returns or throws -/
def leaves (config : Config) (host : Host) : List Kind :=
  if makesDir config host then
    if host.mkdirSync then
      match host.spawn with
      | .thrown => []
      | .failed => [.dir]
      | .runs => [.dir, .agent]
    else [.dir]
  else []

/-- it is left behind when `startAgent` throws, or nobody answers on the socket -/
def loses (o : Config × Host) : List Kind :=
  if o.1.enabled && ((findAgent o.1 o.2.first).isSome && !(o.2.mkdirSync && o.2.connect)) then leaves o.1 o.2 else []

section
variable {w : World Kind}

theorem startAgent_spec (config : Config) (host : Host) (hw : w.Sound) :
    Triple w [] (startAgent config host)
      (fun d ts => ts ~ d.things ∧ ts.map Thing.kind = leaves config host ∧ (host.mkdirSync = false → ts = []))
      fun _ ts => ts.map Thing.kind = leaves config host ∧ (host.mkdirSync = true → ts = []) := by
  unfold startAgent
  cases hsocket : given config.socketPath with
  | some path =>
    have hleaves : leaves config host = [] := by simp [leaves, makesDir, hsocket]
    exact Triple.pure ⟨.refl _, hleaves.symm, fun _ => rfl⟩
  | none =>
  cases hfind : findAgent config host.second with
  | none =>
    have hleaves : leaves config host = [] := by simp [leaves, makesDir, hfind]
    exact Triple.throw ⟨hleaves.symm, fun _ => rfl⟩
  | some path =>
  cases htemp : host.mkdtempSync with
  | false =>
    have hleaves : leaves config host = [] := by simp [leaves, makesDir, htemp]
    exact Triple.fail (fun _ => rfl) ⟨hleaves.symm, fun _ => rfl⟩
  | true =>
  have hmakes : makesDir config host = true := by rw [makesDir, hsocket, hfind, htemp]; rfl
  refine Triple.skip (fun _ => rfl) (Triple.takes fun dir hdir => ?_)
  cases hmkdir : host.mkdirSync with
  | false =>
    have hleaves : leaves config host = [.dir] := by simp [leaves, hmakes, hmkdir]
    refine Triple.fail (fun _ => rfl) ⟨?_, by rintro ⟨⟩⟩
    rw [hleaves, List.nil_append, List.map_singleton, hdir]
  | true =>
  refine Triple.skip (fun _ => rfl) ?_
  cases hspawn : host.spawn with
  | thrown =>
    have hleaves : leaves config host = [] := by simp [leaves, hmakes, hmkdir, hspawn]
    exact cleaned_spec hw ⟨hleaves.symm, fun _ => rfl⟩
  | failed =>
    have hleaves : leaves config host = [.dir] := by simp [leaves, hmakes, hmkdir, hspawn]
    refine Triple.pure ⟨.refl _, ?_, by rintro ⟨⟩⟩
    rw [hleaves, List.nil_append, List.map_singleton, hdir]
  | runs =>
    have hleaves : leaves config host = [.dir, .agent] := by simp [leaves, hmakes, hmkdir, hspawn]
    refine Triple.takes fun process hprocess => Triple.pure ⟨.swap _ _ _, ?_, by rintro ⟨⟩⟩
    rw [hleaves, List.nil_append, List.singleton_append, List.map_cons, List.map_singleton, hdir, hprocess]

/-- what an opening loses that finds an agent -/
theorem loses_found {config : Config} {host : Host} {path : String} (henabled : config.enabled = true)
    (hfound : findAgent config host.first = some path) :
    loses (config, host) = if host.mkdirSync && host.connect then [] else leaves config host := by
  cases hmkdir : host.mkdirSync <;> cases hconnect : host.connect <;> simp [loses, henabled, hfound, hmkdir, hconnect]

theorem openSession_makes (config : Config) (host : Host) (hw : w.Sound) :
    Makes owns Free id w (openSession config host) (loses (config, host)) := by
  unfold Makes openSession
  cases henabled : config.enabled with
  | false =>
    have hloses : loses (config, host) = [] := by simp [loses, henabled]
    exact Triple.pure ⟨free_none, [], .refl _, hloses.symm⟩
  | true =>
  cases hfound : findAgent config host.first with
  | none =>
    have hloses : loses (config, host) = [] := by simp [loses, hfound]
    exact Triple.pure ⟨free_none, [], .refl _, hloses.symm⟩
  | some path =>
  rw [loses_found henabled hfound]
  refine Triple.attempt (startAgent_spec config host hw) ?_ ?_
  · rintro d ts ⟨hthings, hkinds, hnone⟩
    cases hconnect : host.connect with
    | true =>
      -- what was started is that of the session, or is stopped
      have hloses : (if host.mkdirSync && true then [] else leaves config host) = [] := by
        cases hmkdir : host.mkdirSync with
        | true => rfl
        | false =>
          rw [hnone hmkdir] at hkinds
          exact hkinds.symm
      rw [hloses]
      dsimp only
      rw [if_pos rfl]
      cases host.handshake with
      | none => exact Triple.pure ⟨free_some (by rintro ⟨⟩), [], by rwa [List.append_nil], rfl⟩
      | some e => exact stopped_spec hw hthings rfl
    | false =>
      refine Triple.throw ?_
      rw [hkinds, Bool.and_false]
      rfl
  · rintro e ts ⟨hkinds, hnone⟩
    have hloses : ts.map Thing.kind = if host.mkdirSync && host.connect then [] else leaves config host := by
      cases hmkdir : host.mkdirSync with
      | true =>
        rw [hnone hmkdir] at hkinds ⊢
        rw [← hkinds, List.map_nil, ite_self]
      | false =>
        rw [hkinds]
        rfl
    cases e with
    | agentNotFound => exact Triple.pure ⟨free_none, ts, .refl _, hloses⟩
    | connectionError => exact Triple.throw hloses
    | protocolError => exact Triple.throw hloses
    | other => exact Triple.throw hloses

/-- **What a program of the TypeScript SDK has not given back is that of its sessions**: in every run, each agent that
was started and not stopped, and each directory that was made and not removed, is that of exactly one session, and none
is that of a closed one; but an opening leaves behind the directory when it can make no data directory, and both when
it cannot connect to the agent -/
theorem typeScript_held (acts : List (Act (Config × Host))) {w : World Kind} {ss : List (Option TraceSession)}
    (hrun : acts.foldlM (step fun o => openSession o.1 o.2) (World.start Kind, []) = some (w, ss)) :
    ∃ left, w.out ~ left ++ ss.flatMap owns ∧ w.out.Nodup ∧ left.map Thing.kind = acts.flatMap (losses loses) ∧
      (∀ s, some s ∈ ss → s.closed = true → owns (some s) = []) ∧
      ((∀ s, some s ∈ ss → s.closed = true) → w.out ~ left) :=
  run_holds (fun o _ hw => openSession_makes o.1 o.2 hw) hrun

end

/-- everything is there and works -/
def exampleHost : Host where
  first := ⟨fun _ => true, none, []⟩
  second := ⟨fun _ => true, none, []⟩
  mkdtempSync := true
  mkdirSync := true
  spawn := .runs
  connect := true
  handshake := none

/-- an agent is started for which nobody answers, and one for a session that is closed -/
def exampleActs : List (Act (Config × Host)) :=
  let config : Config := ⟨some "bin/dtj-agent", none, true⟩
  [.openSession (config, { exampleHost with connect := false }), .openSession (config, exampleHost), .close 0]

theorem typeScript_held_example : ∃ w ss,
    exampleActs.foldlM (step fun o => openSession o.1 o.2) (World.start Kind, []) = some (w, ss) ∧
    ∃ left, w.out ~ left ++ ss.flatMap owns ∧ w.out.Nodup ∧ left.map Thing.kind = exampleActs.flatMap (losses loses) ∧
      (∀ s, some s ∈ ss → s.closed = true → owns (some s) = []) ∧
      ((∀ s, some s ∈ ss → s.closed = true) → w.out ~ left) :=
  ⟨_, _, rfl, typeScript_held exampleActs rfl⟩

end TypeScript

end Dtj.Sdk.Launch
