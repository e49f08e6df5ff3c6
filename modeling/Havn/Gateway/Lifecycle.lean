import Havn.Lib.Keyed
import Havn.Lib.Machine
import Havn.Db.Gateway
import Havn.Gateway.AgentRegistry

/-!
# Starting, stopping and losing agents

The life of an agent's process (`api/agents.rs`, `agent_socket.rs`, the spawner backends):
`ensure_running` starts it, `stop` and `delete` end it, its connections attach and detach, and it
may exit by itself.  All of these share the registry, the spawner and the database.

The labels of the machine say who moves.  An `ensure_running` call stands between two awaits
(`Phase`); where what it awaits is decided outside the gateway the label carries the `Reply`.  The
start lock of an agent is held from `Phase.locked` until the call returns.
-/

namespace Havn.Gateway.Lifecycle

open Havn.Core Db Lib List Function

/-! ## The spawner -/

/-- The child held for each agent, and the live processes with the agent they were started for.
Process ids are not reused. -/
structure Spawner where
  children : AgentId → Option ℕ := fun _ => none
  live : ℕ → Option AgentId := fun _ => none
  nextPid : ℕ := 1

namespace Spawner

variable (spawner : Spawner)

/-- A process ends. -/
def reap (pid : ℕ) : Spawner :=
  { spawner with live := update spawner.live pid none }

/-- The child held for the agent before is dropped, which kills it. -/
def spawn (agent : AgentId) : Spawner :=
  let dropped := match spawner.children agent with
    | some old => spawner.reap old
    | none => spawner
  { children := update spawner.children agent (some spawner.nextPid)
    live := update dropped.live spawner.nextPid (some agent)
    nextPid := spawner.nextPid + 1 }

/-- The process the handle names, which is signalled, and the child held for its agent, which is
killed. -/
def doomed (handle : AgentHandle) : List ℕ :=
  match spawner.children handle.agentId with
  | some child => [handle.pid, child]
  | none => []

/-- Stop the process of a handle. -/
def stop (handle : AgentHandle) : Spawner :=
  { (spawner.doomed handle).foldl reap spawner with
    children := update spawner.children handle.agentId none }

theorem live_reap (pid other : ℕ) :
    (spawner.reap pid).live other = if other = pid then none else spawner.live other := by
  simp only [reap, update_apply]

theorem live_foldl_reap : ∀ (pids : List ℕ) (spawner : Spawner) (other : ℕ),
    (pids.foldl reap spawner).live other =
      if other ∈ pids then none else spawner.live other := by
  intro pids
  induction pids with
  | nil => intro spawner other; simp
  | cons pid pids ih =>
    intro spawner other
    rw [foldl_cons, ih, live_reap]
    by_cases same : other = pid <;> simp [same]

theorem nextPid_foldl_reap : ∀ (pids : List ℕ) (spawner : Spawner),
    (pids.foldl reap spawner).nextPid = spawner.nextPid := by
  intro pids
  induction pids with
  | nil => intro spawner; rfl
  | cons pid pids ih => intro spawner; exact ih _

/-- Another process is alive after a spawn exactly when it was and was not the dropped child. -/
theorem live_spawn (agent : AgentId) (pid : ℕ) :
    (spawner.spawn agent).live pid =
      if pid = spawner.nextPid then some agent
      else if spawner.children agent = some pid then none else spawner.live pid := by
  unfold spawn
  cases spawner.children agent with
  | none => simp [update_apply]
  | some =>
    simp only [update_apply, live_reap, Option.some.injEq, eq_comm]

end Spawner

/-! ## The calls -/

inductive ApiError where
  | notFound
  | internal (message : String)
  | db (error : DbError)
  deriving DecidableEq

/-- Where an `ensure_running` call stands. -/
inductive Phase where
  | waiting
  | locked
  | rechecked
  | preparing
  | lookingUp
  | spawning
  | spawned (handle : AgentHandle)
  | registered
  | polling
  | returned (error : Option ApiError)
  deriving DecidableEq

/-- The phases in which the start lock is held. -/
def Phase.holdsLock : Phase → Bool
  | .waiting | .returned _ => false
  | _ => true

/-- The phases before the spawner is asked. -/
def Phase.beforeSpawn : Phase → Bool
  | .waiting | .locked | .rechecked | .preparing | .lookingUp | .spawning => true
  | _ => false

/-- The phases in which the call relies on there being no handle. -/
def Phase.unregistered : Phase → Bool
  | .preparing | .lookingUp | .spawning | .spawned _ => true
  | _ => false

/-- An `ensure_running` call. -/
structure Call where
  agent : AgentId
  phase : Phase
  deriving DecidableEq

/-- The two requests that end a process. -/
inductive RemovalKind where
  | stop
  | delete
  deriving DecidableEq

/-- Where a `stop` or `delete` request stands. -/
inductive RemovalPhase where
  | resolved
  | removed (handle : AgentHandle)
  | finishing
  | done
  deriving DecidableEq

/-- A `stop` or `delete` request. -/
structure Removal where
  agent : AgentId
  kind : RemovalKind
  phase : RemovalPhase := .resolved
  deriving DecidableEq

/-- What the calls share, the calls, and the agents the spawner was asked for. -/
structure System where
  registry : AgentRegistry := {}
  startLocks : AgentId → Option ℕ := fun _ => none
  spawner : Spawner := {}
  agents : AgentId → Option AgentStatus
  calls : ℕ → Option Call := fun _ => none
  removals : ℕ → Option Removal := fun _ => none
  connections : ℕ → Option AgentId := fun _ => none
  requests : List AgentId := []

/-- What an awaited operation outside the gateway answers. -/
inductive Reply where
  | done
  | failed (message : String)
  deriving DecidableEq

inductive Label where
  | call (c : ℕ) (agent : AgentId)
  | run (c : ℕ) (reply : Reply)
  | remove (r : ℕ) (agent : AgentId) (kind : RemovalKind)
  | runRemoval (r : ℕ) (reply : Reply)
  | attach (connection : ℕ) (agent : AgentId)
  | detach (connection : ℕ)
  | exit (pid : ℕ)
  | create (agent : AgentId)

/-! ## The steps -/

namespace System

/-- The call goes on to `phase`. -/
def moveTo (s : System) (c : ℕ) (call : Call) (phase : Phase) : System :=
  { s with calls := update s.calls c (some { call with phase := phase }) }

/-- The call returns, and its guard releases the start lock. -/
def finish (s : System) (c : ℕ) (call : Call) (error : Option ApiError) : System :=
  { s.moveTo c call (.returned error) with
    startLocks := update s.startLocks call.agent none }

/-- The spawner is asked for a process. -/
def request (s : System) (agent : AgentId) : System :=
  { s with requests := s.requests ++ [agent] }

end System

/-- What a call fails with when no handshake comes. -/
def handshakeTimeout (agent : AgentId) : ApiError :=
  .internal ("agent " ++ agent.toString ++ " did not complete its handshake within 10s")

/-- Run an `ensure_running` call to its next await; `none` while it cannot move. -/
def turn (s : System) (c : ℕ) (call : Call) (reply : Reply) : Option System :=
  match call.phase, reply with
  | .waiting, _ =>
    if s.startLocks call.agent = none then
      some { s.moveTo c call .locked with
        startLocks := update s.startLocks call.agent (some c) }
    else none
  | .locked, _ =>
    if s.registry.isConnected call.agent then some (s.finish c call none)
    else some (s.moveTo c call .rechecked)
  | .rechecked, _ =>
    if s.registry.isRegistered call.agent then some (s.moveTo c call .polling)
    else some (s.moveTo c call .preparing)
  | .preparing, .done => some (s.moveTo c call .lookingUp)
  | .preparing, .failed e => some (s.finish c call (some (.internal ("workspace: " ++ e))))
  | .lookingUp, .done =>
    match s.agents call.agent with
    | none => some (s.finish c call (some .notFound))
    | some _ => some (s.moveTo c call .spawning)
  | .lookingUp, .failed e => some (s.finish c call (some (.db (.sqlx e))))
  | .spawning, .done =>
    some { (s.request call.agent).moveTo c call
        (.spawned { agentId := call.agent, pid := s.spawner.nextPid }) with
      spawner := s.spawner.spawn call.agent }
  | .spawning, .failed e =>
    some ((s.request call.agent).finish c call (some (.internal ("spawn: " ++ e))))
  | .spawned handle, _ =>
    some { s.moveTo c call .registered with registry := s.registry.register handle }
  | .registered, .done =>
    match s.agents call.agent with
    | none => some (s.finish c call (some (.db .notFound)))
    | some _ => some { s.moveTo c call .polling with
        agents := update s.agents call.agent (some .running) }
  | .registered, .failed e => some (s.finish c call (some (.db (.sqlx e))))
  | .polling, .done =>
    if s.registry.isConnected call.agent then some (s.finish c call none) else none
  | .polling, .failed _ => some (s.finish c call (some (handshakeTimeout call.agent)))
  | .returned _, _ => none

/-- The request goes on to `phase`. -/
def System.moveRemoval (s : System) (r : ℕ) (removal : Removal) (phase : RemovalPhase) : System :=
  { s with removals := update s.removals r (some { removal with phase := phase }) }

/-- The agent's row after the request's last statement. -/
def Removal.row (removal : Removal) (row : Option AgentStatus) : Option AgentStatus :=
  match removal.kind with
  | .stop => row.map fun _ => .stopped
  | .delete => none

/-- Run a `stop` or `delete` request to its next await. -/
def turnRemoval (s : System) (r : ℕ) (removal : Removal) (reply : Reply) : Option System :=
  match removal.phase, reply with
  | .resolved, _ =>
    match s.registry.remove removal.agent with
    | (some handle, registry) =>
      some { s.moveRemoval r removal (.removed handle) with registry := registry }
    | (none, registry) =>
      some { s.moveRemoval r removal .finishing with registry := registry }
  | .removed handle, _ =>
    some { s.moveRemoval r removal .finishing with spawner := s.spawner.stop handle }
  | .finishing, .done =>
    let row := removal.row (s.agents removal.agent)
    some { s.moveRemoval r removal .done with
      agents := update s.agents removal.agent row }
  | .finishing, .failed _ => some (s.moveRemoval r removal .done)
  | .done, _ => none

/-- One step of the gateway and of what is around it. -/
def step (s : System) : Label → Option System
  | .call c agent =>
    if (s.calls c).isSome then none
    else if s.registry.isConnected agent then
      some { s with calls := update s.calls c (some ⟨agent, .returned none⟩) }
    else some { s with calls := update s.calls c (some ⟨agent, .waiting⟩) }
  | .run c reply => (s.calls c).bind fun call => turn s c call reply
  | .remove r agent kind =>
    if (s.removals r).isSome ∨ s.agents agent = none then none
    else some { s with
      removals := update s.removals r (some { agent := agent, kind := kind }) }
  | .runRemoval r reply => (s.removals r).bind fun removal => turnRemoval s r removal reply
  | .attach connection agent =>
    if (s.connections connection).isSome then none
    else (s.registry.attach agent { connection := connection }).map fun registry =>
      { s with registry := registry
               connections := update s.connections connection (some agent) }
  | .detach connection => (s.connections connection).map fun agent =>
    { s with registry := s.registry.detach agent
             connections := update s.connections connection none }
  | .exit pid =>
    if (s.spawner.live pid).isSome then some { s with spawner := s.spawner.reap pid } else none
  | .create agent =>
    if s.agents agent = none then
      some { s with agents := update s.agents agent (some .created) }
    else none

variable (agents : AgentId → Option AgentStatus)

/-- A gateway that has just started, on any agents table. -/
def System.initial : System where
  agents := agents

/-! ## What a step can do -/

/-- The moves of a call that change nothing but its phase. -/
inductive Advance (s : System) (agent : AgentId) : Phase → Phase → Prop
  | recheck (offline : s.registry.isConnected agent = false) : Advance s agent .locked .rechecked
  | wait (present : s.registry.isRegistered agent = true) : Advance s agent .rechecked .polling
  | prepare (absent : s.registry.isRegistered agent = false) :
      Advance s agent .rechecked .preparing
  | lookUp : Advance s agent .preparing .lookingUp
  | ready : Advance s agent .lookingUp .spawning

/-- The ways a call returns without asking the spawner. -/
inductive Ends (s : System) (agent : AgentId) : Phase → Reply → Prop
  | raced {reply : Reply} (online : s.registry.isConnected agent = true) :
      Ends s agent .locked reply
  | workspace {message : String} : Ends s agent .preparing (.failed message)
  | lookup {message : String} : Ends s agent .lookingUp (.failed message)
  | missing (gone : s.agents agent = none) : Ends s agent .lookingUp .done
  | status {reply : Reply} : Ends s agent .registered reply
  | polled {reply : Reply} : Ends s agent .polling reply

/-- Everything `turn` can do. -/
inductive TurnSpec (s : System) (c : ℕ) (call : Call) (reply : Reply) : System → Prop
  | lock (phase : call.phase = .waiting) (free : s.startLocks call.agent = none) :
      TurnSpec s c call reply { s.moveTo c call .locked with
        startLocks := update s.startLocks call.agent (some c) }
  | move {phase : Phase} (advance : Advance s call.agent call.phase phase) :
      TurnSpec s c call reply (s.moveTo c call phase)
  | finish {error : Option ApiError} (ends : Ends s call.agent call.phase reply) :
      TurnSpec s c call reply (s.finish c call error)
  | refused {error : Option ApiError} (phase : call.phase = .spawning) :
      TurnSpec s c call reply ((s.request call.agent).finish c call error)
  | spawn (phase : call.phase = .spawning) :
      TurnSpec s c call reply { (s.request call.agent).moveTo c call
          (.spawned { agentId := call.agent, pid := s.spawner.nextPid }) with
        spawner := s.spawner.spawn call.agent }
  | register {handle : AgentHandle} (phase : call.phase = .spawned handle) :
      TurnSpec s c call reply { s.moveTo c call .registered with
        registry := s.registry.register handle }
  | running (phase : call.phase = .registered) :
      TurnSpec s c call reply { s.moveTo c call .polling with
        agents := update s.agents call.agent (some .running) }

variable {s' : System} {call : Call} {c : ℕ} {s : System} {reply : Reply} {r : ℕ}
  {removal : Removal} {label : Label}

theorem turn_spec (h : turn s c call reply = some s') : TurnSpec s c call reply s' := by
  obtain ⟨agent, phase⟩ := call
  simp only [turn] at h
  split at h
  case h_1 => split at h <;> cases h; exact .lock rfl ‹_›
  case h_2 =>
    split at h <;> cases h
    · exact .finish (.raced ‹_›)
    · exact .move (.recheck (Bool.eq_false_iff.mpr ‹_›))
  case h_3 =>
    split at h <;> cases h
    · exact .move (.wait ‹_›)
    · exact .move (.prepare (Bool.eq_false_iff.mpr ‹_›))
  case h_4 => cases h; exact .move .lookUp
  case h_5 => cases h; exact .finish .workspace
  case h_6 =>
    split at h <;> cases h
    · exact .finish (.missing ‹_›)
    · exact .move .ready
  case h_7 => cases h; exact .finish .lookup
  case h_8 => cases h; exact .spawn rfl
  case h_9 => cases h; exact .refused rfl
  case h_10 => cases h; exact .register rfl
  case h_11 =>
    split at h <;> cases h
    · exact .finish .status
    · exact .running rfl
  case h_12 => cases h; exact .finish .status
  case h_13 => split at h <;> cases h; exact .finish .polled
  case h_14 => cases h; exact .finish .polled
  case h_15 => cases h

/-- Everything `turnRemoval` can do. -/
inductive RemovalSpec (s : System) (r : ℕ) (removal : Removal) : System → Prop
  | take {handle : AgentHandle} (phase : removal.phase = .resolved)
      (entry : s.registry.handleOf removal.agent = some handle) :
      RemovalSpec s r removal { s.moveRemoval r removal (.removed handle) with
        registry := (s.registry.remove removal.agent).2 }
  | pass (phase : removal.phase = .resolved)
      (entry : s.registry.handleOf removal.agent = none) :
      RemovalSpec s r removal { s.moveRemoval r removal .finishing with
        registry := (s.registry.remove removal.agent).2 }
  | stop {handle : AgentHandle} (phase : removal.phase = .removed handle) :
      RemovalSpec s r removal { s.moveRemoval r removal .finishing with
        spawner := s.spawner.stop handle }
  | write {agents : AgentId → Option AgentStatus} (phase : removal.phase = .finishing)
      (others : ∀ agent ≠ removal.agent, agents agent = s.agents agent) :
      RemovalSpec s r removal { s.moveRemoval r removal .done with agents := agents }

theorem turnRemoval_spec (h : turnRemoval s r removal reply = some s') :
    RemovalSpec s r removal s' := by
  obtain ⟨agent, kind, phase⟩ := removal
  have entry : (s.registry.remove agent).1 = s.registry.handleOf agent := rfl
  simp only [turnRemoval] at h
  split at h
  case h_1 =>
    split at h <;> rename_i registry taken
    all_goals
      obtain rfl : (s.registry.remove agent).2 = registry := congrArg Prod.snd taken
      rw [taken] at entry
      cases h
    · exact .take rfl entry.symm
    · exact .pass rfl entry.symm
  case h_2 => cases h; exact .stop rfl
  case h_3 => cases h; exact .write rfl fun agent other => update_of_ne other _ _
  case h_4 => cases h; exact .write rfl fun _ _ => rfl
  case h_5 => cases h

/-- Everything a step can do; changes that no later statement looks at are left open. -/
inductive StepSpec (s : System) : Label → System → Prop
  | call {c : ℕ} {agent : AgentId} {phase : Phase} (fresh : s.calls c = none)
      (first : phase = .waiting ∨ phase = .returned none) :
      StepSpec s (.call c agent)
        { s with calls := update s.calls c (some ⟨agent, phase⟩) }
  | run {c : ℕ} {call : Call} {reply : Reply} {s' : System} (found : s.calls c = some call)
      (turned : TurnSpec s c call reply s') : StepSpec s (.run c reply) s'
  | remove {r : ℕ} {removal : Removal} {reply : Reply} {phase : RemovalPhase}
      (found : s.removals r = some removal) (resolved : removal.phase = .resolved) :
      StepSpec s (.runRemoval r reply) { s.moveRemoval r removal phase with
        registry := (s.registry.remove removal.agent).2 }
  | stop {r : ℕ} {removal : Removal} {reply : Reply} {handle : AgentHandle}
      (found : s.removals r = some removal) (phase : removal.phase = .removed handle) :
      StepSpec s (.runRemoval r reply) { s.moveRemoval r removal .finishing with
        spawner := s.spawner.stop handle }
  | attach {connection : ℕ} {agent : AgentId} {registry : AgentRegistry}
      (attached : s.registry.attach agent { connection := connection } = some registry) :
      StepSpec s (.attach connection agent)
        { s with registry := registry
                 connections := update s.connections connection (some agent) }
  | detach {connection : ℕ} {agent : AgentId} (found : s.connections connection = some agent) :
      StepSpec s (.detach connection)
        { s with registry := s.registry.detach agent
                 connections := update s.connections connection none }
  | exit {pid : ℕ} : StepSpec s (.exit pid) { s with spawner := s.spawner.reap pid }
  | rest {label : Label} {agents : AgentId → Option AgentStatus}
      {removals : ℕ → Option Removal} :
      StepSpec s label { s with agents := agents, removals := removals }

theorem step_spec (h : step s label = some s') : StepSpec s label s' := by
  cases label with
  | call c =>
    simp only [step] at h
    split at h
    · cases h
    have fresh : s.calls c = none := by simpa using ‹¬ (s.calls c).isSome = true›
    split at h <;> cases h
    · exact .call fresh (.inr rfl)
    · exact .call fresh (.inl rfl)
  | run =>
    obtain ⟨call, found, turned⟩ := Option.bind_eq_some_iff.mp h
    exact .run found (turn_spec turned)
  | remove =>
    simp only [step] at h
    split at h <;> cases h
    exact .rest
  | runRemoval =>
    obtain ⟨removal, found, turned⟩ := Option.bind_eq_some_iff.mp h
    cases turnRemoval_spec turned with
    | take phase | pass phase => exact .remove found phase
    | stop phase => exact .stop found phase
    | write => exact .rest
  | attach =>
    simp only [step] at h
    split at h
    · cases h
    · obtain ⟨registry, attached, rfl⟩ := Option.map_eq_some_iff.mp h
      exact .attach attached
  | detach =>
    obtain ⟨agent, found, rfl⟩ := Option.map_eq_some_iff.mp h
    exact .detach found
  | exit =>
    simp only [step] at h
    split at h <;> cases h
    exact .exit
  | create =>
    simp only [step] at h
    split at h <;> cases h
    exact .rest

/-! ## The start lock -/

/-- The start lock is where the phases say, along every run and whatever ends. -/
structure Locked (s : System) : Prop where
  lockHeld : ∀ c call, s.calls c = some call → call.phase.holdsLock = true →
    s.startLocks call.agent = some c
  unregistered : ∀ c call, s.calls c = some call → call.phase.unregistered = true →
    s.registry.handleOf call.agent = none
  spawnedFor : ∀ c call handle, s.calls c = some call → call.phase = .spawned handle →
    handle.agentId = call.agent

theorem locked_initial : Locked (.initial agents) where
  lockHeld := by simp [System.initial]
  unregistered := by simp [System.initial]
  spawnedFor := by simp [System.initial]

theorem Phase.holdsLock_of_unregistered {phase : Phase} (h : phase.unregistered = true) :
    phase.holdsLock = true := by
  cases phase <;> simp_all [Phase.unregistered, Phase.holdsLock]

variable {agent : AgentId} {handle : AgentHandle}

theorem Advance.ne_spawned {phase next : Phase}
    (advance : Advance s agent phase next) (handle : AgentHandle) : next ≠ .spawned handle := by
  cases advance <;> nofun

namespace Locked

variable {s : System}

section

variable (inv : Locked s)

include inv

theorem sameCall {c c' : ℕ} {call call' : Call} (found : s.calls c = some call)
    (found' : s.calls c' = some call') (locked : call.phase.holdsLock = true)
    (locked' : call'.phase.holdsLock = true) (agents : call'.agent = call.agent) : c' = c := by
  have mine := inv.lockHeld c call found locked
  have theirs := inv.lockHeld c' call' found' locked'
  rw [agents, mine] at theirs
  exact (Option.some.inj theirs).symm

/-- The invariant reads the calls, the start locks and which handles are absent. -/
theorem frame (calls : s'.calls = s.calls) (locks : s'.startLocks = s.startLocks)
    (absent : ∀ c call, s.calls c = some call → call.phase.unregistered = true →
      s'.registry.handleOf call.agent = none) : Locked s' where
  lockHeld := by rw [calls, locks]; exact inv.lockHeld
  unregistered := by rw [calls]; exact absent
  spawnedFor := by rw [calls]; exact inv.spawnedFor

theorem updateCall (call : Call) {locks : AgentId → Option ℕ}
    (others : ∀ c' call', c' ≠ c → s.calls c' = some call' → call'.phase.holdsLock = true →
      locks call'.agent = some c') (mine : call.phase.holdsLock = true → locks call.agent = some c)
    (absent : call.phase.unregistered = true → s.registry.handleOf call.agent = none)
    (spawned : ∀ handle, call.phase = .spawned handle → handle.agentId = call.agent) :
    Locked { s with calls := update s.calls c (some call), startLocks := locks } where
  lockHeld := by
    intro c' call' found
    rcases update_eq_some found with ⟨rfl, rfl⟩ | ⟨other, found⟩
    · exact mine
    · exact others c' call' other found
  unregistered := by
    intro c' call' found
    rcases update_eq_some found with ⟨rfl, rfl⟩ | ⟨-, found⟩
    · exact absent
    · exact inv.unregistered c' call' found
  spawnedFor := by
    intro c' call' handle found
    rcases update_eq_some found with ⟨rfl, rfl⟩ | ⟨-, found⟩
    · exact spawned handle
    · exact inv.spawnedFor c' call' handle found

theorem register (found : s.calls c = some call) (phase : call.phase = .spawned handle) :
    Locked { s.moveTo c call .registered with registry := s.registry.register handle } := by
  have locked : call.phase.holdsLock = true := by rw [phase]; rfl
  have moved := inv.updateCall { call with phase := .registered }
    (fun c' call' _ => inv.lockHeld c' call')
    (fun _ => inv.lockHeld c call found locked) nofun nofun
  refine moved.frame rfl rfl fun c' call' found' phase' => ?_
  rcases update_eq_some found' with ⟨rfl, rfl⟩ | ⟨other, found'⟩
  · cases phase'
  have differs : call'.agent ≠ handle.agentId := fun same => other
    (inv.sameCall found found' locked (Phase.holdsLock_of_unregistered phase')
      (same.trans (inv.spawnedFor c call handle found phase)))
  simp only [AgentRegistry.handleOf_register, update_of_ne differs]
  exact inv.unregistered c' call' found' phase'

theorem turn (found : s.calls c = some call) (turned : TurnSpec s c call reply s') : Locked s' := by
  obtain ⟨agent, phase⟩ := call
  have mine := inv.lockHeld c _ found
  have unregistered := inv.unregistered c _ found
  have others := fun c' call' (_ : c' ≠ c) => inv.lockHeld c' call'
  -- releasing the lock takes it from no other call
  have released : phase.holdsLock = true → ∀ c' call', c' ≠ c →
      s.calls c' = some call' → call'.phase.holdsLock = true →
      update s.startLocks agent none call'.agent = some c' := by
    intro locked c' call' other found' locked'
    rw [update_of_ne fun same => other (inv.sameCall found found' locked locked' same)]
    exact inv.lockHeld c' call' found' locked'
  have requested : Locked (s.request agent) := inv.frame rfl rfl inv.unregistered
  cases turned with
  | lock phase free =>
    refine inv.updateCall ⟨agent, .locked⟩ ?_ (fun _ => update_self ..) nofun nofun
    intro c' call' other found' locked'
    have theirs := inv.lockHeld c' call' found' locked'
    rw [update_of_ne, theirs]
    intro same
    rw [same, free] at theirs
    cases theirs
  | @move next advance =>
    refine inv.updateCall ⟨agent, next⟩ others ?_ ?_
      fun handle spawned => absurd spawned (advance.ne_spawned handle)
    · exact fun _ => mine (by cases advance <;> rfl)
    · intro starting
      cases advance with
      | prepare absent =>
        by_contra present
        rw [(AgentRegistry.isRegistered_iff _ _).mpr present] at absent
        cases absent
      | lookUp | ready => exact unregistered rfl
      | recheck | wait => cases starting
  | @finish error ends =>
    exact inv.updateCall ⟨agent, .returned error⟩ (released (by cases ends <;> rfl))
      nofun nofun nofun
  | @refused error phase =>
    cases phase
    exact requested.updateCall ⟨agent, .returned error⟩ (released rfl) nofun nofun nofun
  | spawn phase =>
    cases phase
    have spawned := inv.updateCall ⟨agent, .spawned ⟨agent, s.spawner.nextPid⟩⟩
      others (fun _ => mine rfl) (fun _ => unregistered rfl) (by rintro handle ⟨⟩; rfl)
    exact spawned.frame rfl rfl spawned.unregistered
  | register phase => exact inv.register found phase
  | running phase =>
    cases phase
    have polling := inv.updateCall ⟨agent, .polling⟩ others (fun _ => mine rfl) nofun nofun
    exact polling.frame rfl rfl polling.unregistered

/-- **Every step preserves the invariant.** -/
theorem step (next : Lifecycle.step s label = some s') : Locked s' := by
  cases step_spec next with
  | @call c agent phase fresh first =>
    have others := fun c' call' (_ : c' ≠ c) => inv.lockHeld c' call'
    rcases first with rfl | rfl
    · exact inv.updateCall ⟨agent, .waiting⟩ others nofun nofun nofun
    · exact inv.updateCall ⟨agent, .returned none⟩ others nofun nofun nofun
  | run found turned => exact inv.turn found turned
  | remove =>
    refine inv.frame rfl rfl fun c call found phase => ?_
    rw [AgentRegistry.handleOf_remove, update_apply, inv.unregistered c call found phase, ite_self]
  | attach attached =>
    exact inv.frame rfl rfl (AgentRegistry.handleOf_attach attached ▸ inv.unregistered)
  | detach =>
    exact inv.frame rfl rfl ((AgentRegistry.handleOf_detach _ _).symm ▸ inv.unregistered)
  | stop | exit | rest => exact inv.frame rfl rfl inv.unregistered

end

end Locked

/-- **A start replaces no handle**: one call at a time is past an agent's start lock, and every step
keeps a registered handle, unless it is a step of a stop or a delete of that very agent that leaves
the agent without one. -/
theorem handle_not_replaced (labels : List Label) (s : System)
    (run : Run step anyStep (.initial agents) labels s) :
    (∀ c c' call call', s.calls c = some call → s.calls c' = some call' →
      call.phase.holdsLock = true → call'.phase.holdsLock = true → call'.agent = call.agent →
      c' = c) ∧
    ∀ label s', step s label = some s' → ∀ agent handle,
      s.registry.handleOf agent = some handle →
      s'.registry.handleOf agent = some handle ∨
        s'.registry.handleOf agent = none ∧ ∃ r reply removal, label = .runRemoval r reply ∧
          s.removals r = some removal ∧ removal.agent = agent := by
  have locked : Locked s :=
    run.invariant (fun _ _ _ locked _ next => locked.step next) (locked_initial agents)
  refine ⟨fun _ _ _ _ found found' => locked.sameCall found found', ?_⟩
  intro label s' next agent handle present
  cases step_spec next with
  | run found turned =>
    left
    cases turned with
    | register phase =>
      have absent := locked.unregistered _ _ found (by rw [phase]; rfl)
      rw [← locked.spawnedFor _ _ _ found phase] at absent
      rw [AgentRegistry.handleOf_register, update_of_ne, present]
      rintro rfl
      cases absent.symm.trans present
    | lock | move | finish | refused | spawn | running => exact present
  | @remove r removal reply _ found _ =>
    by_cases own : agent = removal.agent
    · subst own
      refine .inr ⟨?_, r, reply, removal, rfl, found, rfl⟩
      rw [AgentRegistry.handleOf_remove, update_self]
    · left
      rw [AgentRegistry.handleOf_remove, update_of_ne own, present]
  | attach attached => exact .inl (AgentRegistry.handleOf_attach attached ▸ present)
  | detach => exact .inl ((AgentRegistry.handleOf_detach _ _).symm ▸ present)
  | call | stop | exit | rest => exact .inl present

/-! ## Handles that are held -/

/-- `agent`'s handle is registered, or the call with the start lock is about to register it. -/
def System.holds (s : System) (agent : AgentId) (pid : ℕ) : Bool :=
  (s.registry.handleOf agent).any (fun handle => handle.pid = pid) ||
    (s.startLocks agent).any fun c => (s.calls c).any fun call =>
      call.phase = .spawned { agentId := agent, pid := pid }

/-- The processes a step may end from outside the spawn path. -/
def ending (s : System) : Label → List ℕ
  | .exit pid => [pid]
  | .runRemoval r _ =>
    match (s.removals r).map Removal.phase with
    | some (.removed handle) => s.spawner.doomed handle
    | _ => []
  | _ => []

/-- **No process ends while its handle is held**: neither by itself, nor stopped by a request with
an older handle. -/
def KeepsHandles (s : System) (label : Label) : Prop :=
  ∀ pid ∈ ending s label, (s.spawner.live pid).all (fun agent => !s.holds agent pid) = true
  deriving Decidable

/-- The start lock is where the phases say, and a held handle is a live process. -/
structure Sound (s : System) : Prop where
  lockHeld : ∀ c call, s.calls c = some call → call.phase.holdsLock = true →
    s.startLocks call.agent = some c
  unregistered : ∀ c call, s.calls c = some call → call.phase.unregistered = true →
    s.registry.handleOf call.agent = none
  handleLive : ∀ agent handle, s.registry.handleOf agent = some handle →
    s.spawner.live handle.pid = some agent
  spawnedLive : ∀ c call handle, s.calls c = some call → call.phase = .spawned handle →
    handle.agentId = call.agent ∧ s.spawner.live handle.pid = some call.agent
  childOf : ∀ agent pid other, s.spawner.children agent = some pid →
    s.spawner.live pid = some other → other = agent
  pidsBelow : ∀ pid agent, s.spawner.live pid = some agent ∨ s.spawner.children agent = some pid →
    pid < s.spawner.nextPid

theorem sound_initial : Sound (.initial agents) where
  lockHeld := by simp [System.initial]
  unregistered := by simp [System.initial]
  handleLive := by simp [System.initial, AgentRegistry.handleOf]
  spawnedLive := by simp [System.initial]
  childOf := by simp [System.initial]
  pidsBelow := by simp [System.initial]

namespace Sound

variable {s : System}

theorem locked (inv : Sound s) : Locked s where
  __ := inv
  spawnedFor := fun c call handle found phase => (inv.spawnedLive c call handle found phase).1

theorem holds_of_handleOf
    (found : s.registry.handleOf agent = some handle) : s.holds agent handle.pid = true := by
  simp [System.holds, found]

section

variable (inv : Sound s)

include inv

theorem holds_of_spawned (found : s.calls c = some call) (phase : call.phase = .spawned handle) :
    s.holds call.agent handle.pid = true := by
  have lock := inv.lockHeld c call found (by rw [phase]; rfl)
  obtain ⟨agentEq, -⟩ := inv.spawnedLive c call handle found phase
  have handleEq : handle = { agentId := call.agent, pid := handle.pid } := by rw [← agentEq]
  simp only [System.holds, lock, Option.any_some, found, phase, Bool.or_eq_true]
  exact .inr (decide_eq_true (congrArg Phase.spawned handleEq))

theorem keep (locked : Locked s')
    (spawned : ∀ c call handle, s'.calls c = some call → call.phase = .spawned handle →
      s.calls c = some call) (handles : ∀ agent handle, s'.registry.handleOf agent = some handle →
      s.registry.handleOf agent = some handle) (spawner : s'.spawner = s.spawner) : Sound s' where
  __ := locked
  handleLive := by
    rw [spawner]
    exact fun agent handle found => inv.handleLive agent handle (handles agent handle found)
  spawnedLive := by
    rw [spawner]
    exact fun c call handle found phase =>
      inv.spawnedLive c call handle (spawned c call handle found phase) phase
  childOf := by rw [spawner]; exact inv.childOf
  pidsBelow := by rw [spawner]; exact inv.pidsBelow

theorem updateCall (locked : Locked s') (calls : s'.calls = update s.calls c (some call))
    (notSpawned : ∀ handle, call.phase ≠ .spawned handle) (registry : s'.registry = s.registry)
    (spawner : s'.spawner = s.spawner) : Sound s' := by
  refine inv.keep locked ?_ (registry ▸ fun _ _ found => found) spawner
  intro c' call' handle found phase
  rw [calls] at found
  rcases update_eq_some found with ⟨rfl, rfl⟩ | ⟨-, found⟩
  · exact absurd phase (notSpawned handle)
  · exact found

theorem deaths {spawner : Spawner} (removals : ℕ → Option Removal) (pids : List ℕ)
    (free : ∀ pid ∈ pids, (s.spawner.live pid).all (fun agent => !s.holds agent pid) = true)
    (live : ∀ pid, spawner.live pid = if pid ∈ pids then none else s.spawner.live pid)
    (children : ∀ agent pid, spawner.children agent = some pid →
      s.spawner.children agent = some pid) (next : spawner.nextPid = s.spawner.nextPid) :
    Sound { s with spawner := spawner, removals := removals } := by
  have survives : ∀ agent pid, s.spawner.live pid = some agent → s.holds agent pid = true →
      spawner.live pid = some agent := by
    intro agent pid alive held
    rw [live, if_neg, alive]
    intro mem
    have := free pid mem
    rw [alive] at this
    simp [held] at this
  have lived : ∀ agent pid, spawner.live pid = some agent → s.spawner.live pid = some agent := by
    intro agent pid alive
    rw [live] at alive
    split at alive
    · cases alive
    · exact alive
  exact
    { inv with
      handleLive := fun agent handle found =>
        survives _ _ (inv.handleLive agent handle found) (holds_of_handleOf found)
      spawnedLive := fun c call handle found phase =>
        ⟨(inv.spawnedLive c call handle found phase).1,
          survives _ _ (inv.spawnedLive c call handle found phase).2
            (inv.holds_of_spawned found phase)⟩
      childOf := fun agent pid other child alive =>
        inv.childOf agent pid other (children agent pid child) (lived other pid alive)
      pidsBelow := fun pid agent h => next ▸
        inv.pidsBelow pid agent (h.imp (lived agent pid) (children agent pid)) }

theorem spawn (found : s.calls c = some call) (phase : call.phase = .spawning) :
    Sound { (s.request call.agent).moveTo c call
        (.spawned { agentId := call.agent, pid := s.spawner.nextPid }) with
      spawner := s.spawner.spawn call.agent } := by
  have locked : call.phase.holdsLock = true := by rw [phase]; rfl
  have absent := inv.unregistered c call found (by rw [phase]; rfl)
  have after := inv.locked.turn found (show TurnSpec s c call .done _ from .spawn phase)
  -- what another agent's process was before, it still is
  have survives : ∀ {agent : AgentId} {pid : ℕ}, agent ≠ call.agent →
      s.spawner.live pid = some agent → (s.spawner.spawn call.agent).live pid = some agent := by
    intro agent pid other alive
    have below := inv.pidsBelow pid agent (.inl alive)
    rw [Spawner.live_spawn, if_neg (by omega), if_neg, alive]
    intro child
    exact other (inv.childOf call.agent pid agent child alive)
  exact
    { after with
      handleLive := by
        intro agent handle held
        refine survives ?_ (inv.handleLive agent handle held)
        rintro rfl
        cases absent.symm.trans held
      spawnedLive := by
        intro c' call' handle found' phase'
        rcases update_eq_some found' with ⟨rfl, rfl⟩ | ⟨other, found'⟩
        · cases phase'
          exact ⟨rfl, by rw [Spawner.live_spawn, if_pos rfl]⟩
        · obtain ⟨agentEq, alive⟩ := inv.spawnedLive c' call' handle found' phase'
          refine ⟨agentEq, survives (fun same => other ?_) alive⟩
          exact inv.locked.sameCall found found' locked (by rw [phase']; rfl) same
      childOf := by
        intro agent pid other child alive
        rw [Spawner.live_spawn] at alive
        rcases update_eq_some child with ⟨rfl, rfl⟩ | ⟨-, child⟩
        · rw [if_pos rfl] at alive; exact (Option.some.inj alive).symm
        · have below := inv.pidsBelow pid agent (.inr child)
          rw [if_neg (by omega)] at alive
          split at alive
          · cases alive
          · exact inv.childOf agent pid other child alive
      pidsBelow := by
        intro pid agent h
        refine Nat.lt_succ_iff_lt_or_eq.mpr ?_
        rcases h with alive | child
        · rw [Spawner.live_spawn] at alive
          split at alive
          · exact .inr ‹_›
          split at alive
          · cases alive
          · exact .inl (inv.pidsBelow pid agent (.inl alive))
        · rcases update_eq_some child with ⟨-, rfl⟩ | ⟨-, child⟩
          · exact .inr rfl
          · exact .inl (inv.pidsBelow pid agent (.inr child)) }

theorem register (found : s.calls c = some call) (phase : call.phase = .spawned handle) :
    Sound { s.moveTo c call .registered with registry := s.registry.register handle } := by
  have after := inv.locked.register found phase
  obtain ⟨agentEq, alive⟩ := inv.spawnedLive c call handle found phase
  exact
    { after with
      handleLive := by
        intro agent held found'
        simp only [AgentRegistry.handleOf_register] at found'
        rcases update_eq_some found' with ⟨rfl, rfl⟩ | ⟨-, found'⟩
        · rw [agentEq]; exact alive
        · exact inv.handleLive agent held found'
      spawnedLive := by
        intro c' call' handle' found' phase'
        rcases update_eq_some found' with ⟨rfl, rfl⟩ | ⟨-, found'⟩
        · cases phase'
        · exact inv.spawnedLive c' call' handle' found' phase'
      childOf := inv.childOf
      pidsBelow := inv.pidsBelow }

theorem turn (found : s.calls c = some call) (turned : TurnSpec s c call reply s') : Sound s' := by
  have after := inv.locked.turn found turned
  cases turned with
  | spawn phase => exact inv.spawn found phase
  | register phase => exact inv.register found phase
  | move advance => exact inv.updateCall after rfl advance.ne_spawned rfl rfl
  | lock | finish | refused | running => exact inv.updateCall after rfl nofun rfl rfl

/-- **Every step that ends no held process preserves the invariant.** -/
theorem step (keeps : KeepsHandles s label)
    (next : Lifecycle.step s label = some s') : Sound s' := by
  have after := inv.locked.step next
  cases step_spec next with
  | @call c agent phase fresh first =>
    exact inv.updateCall after rfl (by rcases first with rfl | rfl <;> nofun) rfl rfl
  | run found turned => exact inv.turn found turned
  | remove =>
    refine inv.keep after (fun _ _ _ found _ => found) (fun agent handle found => ?_) rfl
    rw [AgentRegistry.handleOf_remove, update_apply] at found
    split at found
    · cases found
    · exact found
  | @stop r removal reply handle found phase =>
    refine inv.deaths _ (s.spawner.doomed handle) ?_ (Spawner.live_foldl_reap _ _) ?_
      (Spawner.nextPid_foldl_reap _ _)
    · simpa only [KeepsHandles, ending, found, Option.map_some, phase] using keeps
    · intro agent pid child
      simp only [Spawner.stop, update_apply] at child
      split at child
      · cases child
      · exact child
  | attach attached =>
    exact inv.keep after (fun _ _ _ found _ => found)
      (fun agent handle found => by rwa [AgentRegistry.handleOf_attach attached] at found) rfl
  | detach =>
    exact inv.keep after (fun _ _ _ found _ => found)
      (fun agent handle found => by rwa [AgentRegistry.handleOf_detach] at found) rfl
  | @exit pid =>
    refine inv.deaths s.removals [pid] keeps (fun other => ?_) (fun _ _ child => child) rfl
    simp only [Spawner.live_reap, mem_singleton]
  | rest => exact inv.keep after (fun _ _ _ found _ => found) (fun _ _ found => found) rfl

end

end Sound

/-! ## A call that begins with nothing alive -/

/-- No process of the agent is alive; those below `nextPid` are all there are. -/
def System.Idle (s : System) (agent : AgentId) : Prop :=
  ∀ pid < s.spawner.nextPid, s.spawner.live pid ≠ some agent

instance (s : System) (agent : AgentId) : Decidable (s.Idle agent) :=
  inferInstanceAs (Decidable (∀ pid < s.spawner.nextPid, _))

/-- The steps of call `c` before it reaches the spawner succeed. -/
def Prepared (c : ℕ) (s : System) : Label → Prop
  | .run c' reply => c' = c → (s.calls c).all (fun call =>
    match call.phase with
    | .preparing => reply = .done
    | .lookingUp => reply = .done ∧ s.agents call.agent ≠ none
    | _ => True) = true
  | _ => True

instance (c : ℕ) (s : System) (label : Label) : Decidable (Prepared c s label) := by
  unfold Prepared
  split <;> infer_instance

/-- Since `n` requests were counted the spawner has not been asked: nothing is registered or to be
registered, and call `c` is on its way to the spawner. -/
structure Unserved (agent : AgentId) (c n : ℕ) (s : System) : Prop where
  count_eq : s.requests.count agent = n
  absent : s.registry.handleOf agent = none
  noneSpawned : ∀ c' call handle, s.calls c' = some call → call.phase = .spawned handle →
    handle.agentId = call.agent ∧ call.agent ≠ agent
  onItsWay : ∃ call, s.calls c = some call ∧ call.agent = agent ∧ call.phase.beforeSpawn = true

theorem Sound.absent_of_idle (inv : Sound s)
    (idle : s.Idle agent) : s.registry.handleOf agent = none := by
  cases found : s.registry.handleOf agent with
  | none => rfl
  | some handle =>
    have alive := inv.handleLive agent handle found
    exact absurd alive (idle handle.pid (inv.pidsBelow _ _ (.inl alive)))

theorem Sound.unserved (inv : Sound s) (idle : s.Idle agent)
    (called : Lifecycle.step s (.call c agent) = some s') :
    Unserved agent c (s.requests.count agent) s' := by
  have absent := inv.absent_of_idle idle
  have offline := AgentRegistry.isConnected_eq_false absent
  simp only [Lifecycle.step, offline] at called
  split at called
  · cases called
  cases called
  refine ⟨rfl, absent, ?_, ⟨_, update_self .., rfl, rfl⟩⟩
  intro c' call handle found phase
  rcases update_eq_some found with ⟨rfl, rfl⟩ | ⟨-, found⟩
  · cases phase
  obtain ⟨agentEq, alive⟩ := inv.spawnedLive c' call handle found phase
  refine ⟨agentEq, fun same => ?_⟩
  rw [same] at alive
  exact idle handle.pid (inv.pidsBelow _ _ (.inl alive)) alive

namespace Unserved

variable {agent agent' : AgentId} {c n : ℕ} {s s' : System}

section

variable (un : Unserved agent c n s)

include un

theorem frame (requests : s'.requests = s.requests)
    (absent : s'.registry.handleOf agent = none) (calls : s'.calls = s.calls) :
    Unserved agent c n s' where
  count_eq := by rw [requests, un.count_eq]
  absent := absent
  noneSpawned := by rw [calls]; exact un.noneSpawned
  onItsWay := by rw [calls]; exact un.onItsWay

theorem updateCall {c' : ℕ} (requests : s'.requests.count agent = s.requests.count agent)
    (absent : s'.registry.handleOf agent = none) (calls : s'.calls = update s.calls c' (some call))
    (spawned : ∀ handle, call.phase = .spawned handle →
      handle.agentId = call.agent ∧ call.agent ≠ agent)
    (mine : c' = c → call.agent = agent ∧ call.phase.beforeSpawn = true) :
    Unserved agent c n s' where
  count_eq := requests.trans un.count_eq
  absent := absent
  noneSpawned := by
    intro c'' call'' handle found phase
    rw [calls] at found
    rcases update_eq_some found with ⟨rfl, rfl⟩ | ⟨-, found⟩
    · exact spawned handle phase
    · exact un.noneSpawned c'' call'' handle found phase
  onItsWay := by
    rw [calls]
    by_cases same : c' = c
    · subst same
      exact ⟨call, update_self .., mine rfl⟩
    · rw [update_of_ne (Ne.symm same)]
      exact un.onItsWay

theorem eq_of_found (found : s.calls c = some call) :
    call.agent = agent ∧ call.phase.beforeSpawn = true := by
  obtain ⟨call', found', mine⟩ := un.onItsWay
  cases found.symm.trans found'
  exact mine

theorem advance {phase next : Phase} (found : s.calls c = some ⟨agent', phase⟩)
    (advance : Advance s agent' phase next) : next.beforeSpawn = true := by
  obtain ⟨rfl, before⟩ := un.eq_of_found found
  cases advance with
  | wait present => exact absurd un.absent ((AgentRegistry.isRegistered_iff _ _).mp present)
  | recheck | prepare | lookUp | ready => rfl

theorem not_ends {phase : Phase} (prepared : Prepared c s (.run c reply))
    (found : s.calls c = some ⟨agent', phase⟩) : ¬ Ends s agent' phase reply := by
  intro ends
  obtain ⟨rfl, before⟩ := un.eq_of_found found
  have succeeds := prepared rfl
  rw [found, Option.all_some] at succeeds
  cases ends with
  | raced online =>
    rw [AgentRegistry.isConnected_eq_false un.absent] at online
    cases online
  | workspace | lookup => simp at succeeds
  | missing gone => simp [gone] at succeeds
  | status | polled => cases before

theorem turn {c' : ℕ} (prepared : Prepared c s (.run c' reply)) (found : s.calls c' = some call)
    (turned : TurnSpec s c' call reply s') :
    n < s'.requests.count agent ∨ Unserved agent c n s' := by
  obtain ⟨agent', phase⟩ := call
  have mine : c' = c → agent' = agent ∧ phase.beforeSpawn = true := by
    rintro rfl
    exact un.eq_of_found found
  -- asking for another agent's process leaves the count, asking for this one's settles it
  have asked : agent' = agent → n < (s.requests ++ [agent']).count agent := by
    rintro rfl
    rw [count_append, count_singleton_self, un.count_eq]
    exact Nat.lt_succ_self n
  have unasked : agent' ≠ agent →
      (s.requests ++ [agent']).count agent = s.requests.count agent := by
    intro other
    rw [count_append, count_singleton, if_neg (by simpa using other), Nat.add_zero]
  cases turned with
  | lock => exact .inr (un.updateCall rfl un.absent rfl nofun fun same => ⟨(mine same).1, rfl⟩)
  | move advance =>
    refine .inr (un.updateCall rfl un.absent rfl
      (fun handle spawned => absurd spawned (advance.ne_spawned handle)) ?_)
    rintro rfl
    exact ⟨(mine rfl).1, un.advance found advance⟩
  | finish ends =>
    refine .inr (un.updateCall rfl un.absent rfl nofun ?_)
    rintro rfl
    exact absurd ends (un.not_ends prepared found)
  | refused =>
    by_cases same : agent' = agent
    · exact .inl (asked same)
    · exact .inr (un.updateCall (unasked same) un.absent rfl nofun
        fun own => absurd (mine own).1 same)
  | spawn =>
    by_cases same : agent' = agent
    · exact .inl (asked same)
    refine .inr (un.updateCall (unasked same) un.absent rfl ?_ fun own => absurd (mine own).1 same)
    rintro handle ⟨⟩
    exact ⟨rfl, same⟩
  | @register handle phase =>
    obtain ⟨agentEq, other⟩ := un.noneSpawned c' _ handle found phase
    refine .inr (un.updateCall rfl ?_ rfl nofun fun own => absurd (mine own).1 other)
    simp only [AgentRegistry.handleOf_register]
    rw [update_of_ne (by rw [agentEq]; exact Ne.symm other)]
    exact un.absent
  | running phase =>
    cases phase
    exact .inr (un.updateCall rfl un.absent rfl nofun fun own => nomatch (mine own).2)

theorem step (prepared : Prepared c s label) (next : Lifecycle.step s label = some s') :
    n < s'.requests.count agent ∨ Unserved agent c n s' := by
  cases step_spec next with
  | @call c' agent' phase fresh first =>
    refine .inr (un.updateCall rfl un.absent rfl ?_ ?_)
    · rcases first with rfl | rfl <;> nofun
    · rintro rfl
      obtain ⟨call, found, -⟩ := un.onItsWay
      cases fresh.symm.trans found
  | run found turned => exact un.turn prepared found turned
  | @remove r removal reply phase =>
    refine .inr (un.frame rfl ?_ rfl)
    simp only [AgentRegistry.handleOf_remove, update_apply, un.absent, ite_self]
  | stop | exit | rest => exact .inr (un.frame rfl un.absent rfl)
  | attach attached =>
    refine .inr (un.frame rfl ?_ rfl)
    exact (congrFun (AgentRegistry.handleOf_attach attached) agent).trans un.absent
  | detach =>
    refine .inr (un.frame rfl ?_ rfl)
    exact (congrFun (AgentRegistry.handleOf_detach _ _) agent).trans un.absent

end

end Unserved

theorem requests_extended (next : step s label = some s') : s.requests <+: s'.requests := by
  cases step_spec next with
  | run found turned =>
    cases turned with
    | refused | spawn => exact prefix_append _ _
    | lock | move | finish | register | running => exact prefix_rfl
  | call | remove | stop | attach | detach | exit | rest => exact prefix_rfl

/-- The spawner has been asked since, or the call is still on its way to it. -/
def Attended (agent : AgentId) (c n : ℕ) (s : System) : Prop :=
  n < s.requests.count agent ∨ Unserved agent c n s

theorem Attended.step {c n : ℕ} (attended : Attended agent c n s) (prepared : Prepared c s label)
    (next : Lifecycle.step s label = some s') : Attended agent c n s' := by
  rcases attended with asked | un
  · exact .inl (asked.trans_le ((requests_extended next).sublist.count_le agent))
  · exact un.step prepared next

/-- **A call that begins with nothing alive does not return before the spawner is asked**, if no
process ended under a held handle and its own preparations succeed. -/
theorem spawn_requested {agents : AgentId → Option AgentStatus} {before after : List Label}
    {s s' t : System} {c : ℕ} {agent : AgentId} {error : Option ApiError}
    (kept : Run step KeepsHandles (.initial agents) before s) (idle : s.Idle agent)
    (called : step s (.call c agent) = some s') (ran : Run step (Prepared c) s' after t)
    (returned : t.calls c = some ⟨agent, .returned error⟩) :
    s.requests.count agent < t.requests.count agent := by
  have sound : Sound s :=
    kept.invariant (fun _ _ _ inv keeps next => inv.step keeps next) (sound_initial agents)
  have attended : Attended agent c (s.requests.count agent) t :=
    ran.invariant (fun _ _ _ inv prepared next => inv.step prepared next)
      (.inr (sound.unserved idle called))
  rcases attended with asked | un
  · exact asked
  · cases (un.eq_of_found returned).2

def scribe : AgentId := ⟨uuidOf 1⟩

def firstStart : List Label :=
  [.call 1 scribe] ++ List.replicate 8 (.run 1 .done) ++ [.attach 10 scribe, .run 1 .done]

theorem firstStart_not_replaced :
    ∃ s, Run step anyStep (.initial fun _ => some .created) firstStart s ∧
      (s.registry.handleOf scribe).isSome = true ∧
      ∀ label s', step s label = some s' → ∀ handle, s.registry.handleOf scribe = some handle →
        s'.registry.handleOf scribe = some handle ∨
          s'.registry.handleOf scribe = none ∧ ∃ r reply removal, label = .runRemoval r reply ∧
            s.removals r = some removal ∧ removal.agent = scribe :=
  exists_run_and (by decide +kernel) fun run _ label s' next =>
    (handle_not_replaced _ _ _ run).2 label s' next scribe

def afterStop : Option System :=
  checkedExec step KeepsHandles (.initial fun _ => some .created) (firstStart ++
    [.remove 1 scribe .stop, .runRemoval 1 .done, .runRemoval 1 .done, .detach 10,
      .runRemoval 1 .done])

theorem stopped_restarted : ∃ (after : List Label) (s s' t : System),
    afterStop = some s ∧ s.Idle scribe ∧ step s (.call 2 scribe) = some s' ∧
      Run step (Prepared 2) s' after t ∧ t.calls 2 = some ⟨scribe, .returned none⟩ ∧
      s.requests.count scribe < t.requests.count scribe := by
  let s := afterStop.get (by decide +kernel)
  let s' := (step s (.call 2 scribe)).get (by decide +kernel)
  let t := (checkedExec step (Prepared 2) s'
    (List.replicate 8 (.run 2 .done) ++ [.attach 11 scribe, .run 2 .done])).get (by decide +kernel)
  have idle : s.Idle scribe := by decide +kernel
  have called : step s (.call 2 scribe) = some s' := (Option.some_get _).symm
  have ran := run_of_checkedExec (Option.some_get _ : some t = _).symm
  have returned : t.calls 2 = some ⟨scribe, .returned none⟩ := by decide +kernel
  exact ⟨_, s, s', t, (Option.some_get _).symm, idle, called, ran, returned,
    spawn_requested (run_of_checkedExec (Option.some_get _).symm) idle called ran returned⟩

/-- It is started, its process crashes and its connection is cleaned up. -/
def afterCrash : Option System :=
  exec step (.initial fun _ => some .created) (firstStart ++ [.exit 1, .detach 10])

/-- **A crashed agent is not started again**: its handle is still registered, and the next call
waits for a handshake. -/
theorem crashed_not_restarted : ∃ (before after : List Label) (s s' t : System)
    (error : Option ApiError),
    Run step anyStep (.initial fun _ => some .created) before s ∧ s.Idle scribe ∧
      s.registry.isConnected scribe = false ∧ step s (.call 2 scribe) = some s' ∧
      Run step (Prepared 2) s' after t ∧ t.calls 2 = some ⟨scribe, .returned error⟩ ∧
      ¬ s.requests.count scribe < t.requests.count scribe := by
  let s := afterCrash.get (by decide +kernel)
  let s' := (step s (.call 2 scribe)).get (by decide +kernel)
  let t := (checkedExec step (Prepared 2) s'
    (List.replicate 3 (.run 2 .done) ++ [.run 2 (.failed "elapsed")])).get (by decide +kernel)
  exact ⟨_, _, s, s', t, some (handshakeTimeout scribe), run_of_exec (Option.some_get _).symm,
    by decide +kernel, by decide +kernel, (Option.some_get _).symm,
    run_of_checkedExec (Option.some_get _).symm, by decide +kernel, by decide +kernel⟩

end Havn.Gateway.Lifecycle
