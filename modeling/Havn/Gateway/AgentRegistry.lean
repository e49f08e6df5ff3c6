import Havn.Core.Ids

/-!
# The registry of running agents

`havn-gateway/src/agent_registry.rs`: a map from agents to the spawner's handle and, once the agent
has said hello, its outbound channel.  Every operation is one atomic update.
-/

namespace Havn.Gateway

open Havn.Core Function

structure AgentHandle where
  agentId : AgentId
  pid : ℕ
  deriving DecidableEq

/-- Which socket connection an outbound channel feeds, and whether that connection's writer is
gone. -/
structure Sender where
  connection : ℕ
  closed : Bool := false
  deriving DecidableEq

structure Entry where
  handle : AgentHandle
  tx : Option Sender := none
  deriving DecidableEq

inductive SendError where
  | notConnected (agent : AgentId)
  | notRegistered (agent : AgentId)
  | channelClosed
  deriving DecidableEq

def SendError.display : SendError → String
  | .notConnected agent => "agent " ++ agent.toString ++ " is registered but not connected"
  | .notRegistered agent => "agent " ++ agent.toString ++ " not registered"
  | .channelClosed => "outbound channel closed"

structure AgentRegistry where
  inner : AgentId → Option Entry := fun _ => none

variable {registry : AgentRegistry}

namespace AgentRegistry

def register (registry : AgentRegistry) (handle : AgentHandle) : AgentRegistry where
  inner := update registry.inner handle.agentId (some { handle })

def attach (registry : AgentRegistry) (agent : AgentId) (tx : Sender) : Option AgentRegistry :=
  match registry.inner agent with
  | none => none
  | some entry =>
    some { inner := update registry.inner agent (some { entry with tx := some tx }) }

def detach (registry : AgentRegistry) (agent : AgentId) : AgentRegistry :=
  match registry.inner agent with
  | none => registry
  | some entry =>
    { inner := update registry.inner agent (some { entry with tx := none }) }

def remove (registry : AgentRegistry) (agent : AgentId) : Option AgentHandle × AgentRegistry :=
  ((registry.inner agent).map Entry.handle,
    { inner := update registry.inner agent none })

def dropReceiver (registry : AgentRegistry) (connection : ℕ) : AgentRegistry where
  inner agent := (registry.inner agent).map fun entry =>
    { entry with tx := entry.tx.map fun tx =>
        if tx.connection = connection then { tx with closed := true } else tx }

def send (registry : AgentRegistry) (agent : AgentId) : Except SendError Unit :=
  match registry.inner agent with
  | none => .error (.notRegistered agent)
  | some entry =>
    match entry.tx with
    | none => .error (.notConnected agent)
    | some tx => if tx.closed then .error .channelClosed else .ok ()

def isConnected (registry : AgentRegistry) (agent : AgentId) : Bool :=
  (registry.inner agent).any fun entry => entry.tx.isSome

def isRegistered (registry : AgentRegistry) (agent : AgentId) : Bool :=
  (registry.inner agent).isSome

def handleOf (registry : AgentRegistry) (agent : AgentId) : Option AgentHandle :=
  (registry.inner agent).map Entry.handle

def txOf (registry : AgentRegistry) (agent : AgentId) : Option Sender :=
  (registry.inner agent).bind Entry.tx

theorem isRegistered_iff (registry : AgentRegistry) (agent : AgentId) :
    registry.isRegistered agent = true ↔ registry.handleOf agent ≠ none := by
  unfold isRegistered handleOf
  cases registry.inner agent <;> simp

variable {agent : AgentId}

theorem isConnected_eq_false (absent : registry.handleOf agent = none) :
    registry.isConnected agent = false := by
  rw [handleOf, Option.map_eq_none_iff] at absent
  rw [isConnected, absent]
  rfl

theorem handleOf_register (registry : AgentRegistry) (handle : AgentHandle) :
    (registry.register handle).handleOf =
      update registry.handleOf handle.agentId (some handle) := by
  funext agent
  by_cases same : agent = handle.agentId
  · subst same; simp [handleOf, register]
  · simp [handleOf, register, same]

theorem handleOf_attach {registry' : AgentRegistry} {tx : Sender}
    (attached : registry.attach agent tx = some registry') :
    registry'.handleOf = registry.handleOf := by
  unfold attach at attached
  split at attached
  · cases attached
  rename_i entry found
  cases attached
  funext other
  by_cases same : other = agent
  · subst same; simp [handleOf, found]
  · simp [handleOf, same]

theorem handleOf_detach (registry : AgentRegistry) (agent : AgentId) :
    (registry.detach agent).handleOf = registry.handleOf := by
  unfold detach
  split
  · rfl
  rename_i entry found
  funext other
  by_cases same : other = agent
  · subst same; simp [handleOf, found]
  · simp [handleOf, same]

theorem handleOf_remove (registry : AgentRegistry) (agent : AgentId) :
    (registry.remove agent).2.handleOf = update registry.handleOf agent none := by
  funext other
  by_cases same : other = agent
  · subst same; simp [handleOf, remove]
  · simp [handleOf, remove, same]

theorem handleOf_dropReceiver (registry : AgentRegistry) (connection : ℕ) :
    (registry.dropReceiver connection).handleOf = registry.handleOf := by
  funext agent
  show ((registry.inner agent).map _).map Entry.handle = (registry.inner agent).map Entry.handle
  rw [Option.map_map]
  rfl

/-! ### The channels -/

theorem send_eq_ok_iff (registry : AgentRegistry) (agent : AgentId) :
    registry.send agent = .ok () ↔ ∃ tx, registry.txOf agent = some tx ∧ tx.closed = false := by
  unfold send txOf
  cases registry.inner agent with
  | none => simp
  | some entry => cases channel : entry.tx with
    | none | some => simp [channel]

theorem isConnected_eq (registry : AgentRegistry) (agent : AgentId) :
    registry.isConnected agent = (registry.txOf agent).isSome := by
  unfold isConnected txOf
  cases registry.inner agent <;> rfl

theorem handleOf_ne_none {tx : Sender} (channel : registry.txOf agent = some tx) :
    registry.handleOf agent ≠ none := by
  obtain ⟨entry, found, -⟩ := Option.bind_eq_some_iff.mp channel
  rw [handleOf, found]
  nofun

theorem txOf_register (registry : AgentRegistry) (handle : AgentHandle) :
    (registry.register handle).txOf = update registry.txOf handle.agentId none := by
  funext agent
  by_cases same : agent = handle.agentId
  · subst same; simp [txOf, register]
  · simp [txOf, register, same]

theorem txOf_attach {registry' : AgentRegistry} {tx : Sender}
    (attached : registry.attach agent tx = some registry') :
    registry'.txOf = update registry.txOf agent (some tx) := by
  unfold attach at attached
  split at attached
  · cases attached
  cases attached
  funext other
  by_cases same : other = agent
  · subst same; simp [txOf]
  · simp [txOf, same]

theorem txOf_detach (registry : AgentRegistry) (agent : AgentId) :
    (registry.detach agent).txOf = update registry.txOf agent none := by
  unfold detach
  split
  · rename_i absent
    refine (update_eq_self_iff.mpr ?_).symm
    rw [txOf, absent]
    rfl
  · funext other
    by_cases same : other = agent
    · subst same; simp [txOf]
    · simp [txOf, same]

theorem txOf_remove (registry : AgentRegistry) (agent : AgentId) :
    (registry.remove agent).2.txOf = update registry.txOf agent none := by
  funext other
  by_cases same : other = agent
  · subst same; simp [txOf, remove]
  · simp [txOf, remove, same]

theorem txOf_dropReceiver (registry : AgentRegistry) (connection : ℕ) (agent : AgentId) :
    (registry.dropReceiver connection).txOf agent = (registry.txOf agent).map fun tx =>
      if tx.connection = connection then { tx with closed := true } else tx := by
  show ((registry.inner agent).map _).bind Entry.tx = ((registry.inner agent).bind Entry.tx).map _
  cases registry.inner agent <;> rfl

end AgentRegistry

end Havn.Gateway
