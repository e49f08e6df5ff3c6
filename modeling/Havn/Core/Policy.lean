import Havn.Lib.Json

/-!
# The policy schema

`havn-core`, `policy.rs`: every agent permission and quota, with the defaults of `impl Default`.
-/

namespace Havn.Core

open Lib

structure ResourceLimits where
  memoryMb : Nat := 512
  cpuCores : F64 := ⟨0x3FF0000000000000#64⟩
  pidsMax : Nat := 64
deriving DecidableEq

inductive BudgetExhaustAction
  | warnOnly
  | warnAndPause
  | fail
deriving DecidableEq

structure BudgetPolicy where
  /-- `0` is unlimited. -/
  maxTokensPerDay : Nat := 0
  onExhaust : BudgetExhaustAction := .warnAndPause
deriving DecidableEq

inductive ChannelAllowance
  | all
  | allowed (channels : List String)
deriving DecidableEq

structure Permissions where
  canInstallSkills : Bool := true
  canAccessNetwork : Bool := true
  canUseShell : Bool := true
  canViewOwnLogs : Bool := true
  canExportMemory : Bool := true
  canBindChannels : ChannelAllowance := .all
  canSpawnSubagents : Bool := false
  canScheduleCron : Bool := true
  canUseMcp : Bool := false
  canQueryOtherAgents : Bool := false
deriving DecidableEq

structure NetworkPolicy where
  egressAllowed : Bool := false
  allowedDomains : List String := []
  blockedDomains : List String := []
deriving DecidableEq

structure McpServerConfig where
  binary : String := ""
  args : List String := []
  env : List (String × String) := []
  extraPathsRw : List String := []
  extraPathsRo : List String := []
  timeoutSeconds : Nat := 60
  enabled : Bool := true
deriving DecidableEq

structure ContextToolsetEntry where
  disabled : List String := []
deriving DecidableEq

structure AdminVisibility where
  canViewAgentStatus : Bool := true
  canViewAgentConfig : Bool := true
  canViewConversations : Bool := false
  canViewAuditLog : Bool := true
deriving DecidableEq

/-- The two hash maps of the source are association lists. -/
structure Policy where
  maxAgents : Nat := 1
  allowedModels : List String := ["*"]
  resourceLimits : ResourceLimits := {}
  budget : BudgetPolicy := {}
  permissions : Permissions := {}
  networkPolicy : NetworkPolicy := {}
  contextToolsets : List (String × ContextToolsetEntry) := []
  adminVisibility : AdminVisibility := {}
  mcpServers : List (String × McpServerConfig) := []
deriving DecidableEq

def Policy.default : Policy := {}

end Havn.Core
