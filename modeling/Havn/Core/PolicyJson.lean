import Havn.Core.Policy
import Havn.Lib.Decode

/-!
# Policies in JSON

The deserializers that the records of `policy.rs` derive, and the serializer of an MCP server.  All
records carry `#[serde(default)]`, so `{}` is the default policy, and so is `[]`.
-/

namespace Havn.Core

open Lib Lib.Decode

section Records

variable (convert : Number → F64) (value : Json)

def ResourceLimits.fromValue : Option ResourceLimits := do
  let fields ← structFields ["memory_mb", "cpu_cores", "pids_max"] value
  let memoryMb ← field fields "memory_mb" Json.asU64 ({} : ResourceLimits).memoryMb
  let cpuCores ← field fields "cpu_cores" (float convert) ({} : ResourceLimits).cpuCores
  let pidsMax ← field fields "pids_max" (unsigned (2 ^ 32)) ({} : ResourceLimits).pidsMax
  some { memoryMb, cpuCores, pidsMax }

def BudgetExhaustAction.ofName (name : String) : Option BudgetExhaustAction :=
  if name = "warn_only" then some .warnOnly
  else if name = "warn_and_pause" then some .warnAndPause
  else if name = "fail" then some .fail
  else none

def BudgetExhaustAction.fromValue : Json → Option BudgetExhaustAction
  | .string name => ofName name
  | .object [(name, .null)] => ofName name
  | _ => none

def BudgetPolicy.fromValue (value : Json) : Option BudgetPolicy := do
  let fields ← structFields ["max_tokens_per_day", "on_exhaust"] value
  let maxTokensPerDay ←
    field fields "max_tokens_per_day" Json.asU64 ({} : BudgetPolicy).maxTokensPerDay
  let onExhaust ←
    field fields "on_exhaust" BudgetExhaustAction.fromValue ({} : BudgetPolicy).onExhaust
  some { maxTokensPerDay, onExhaust }

/-- The enum is untagged: nothing stands for all channels. -/
def ChannelAllowance.fromValue : Json → Option ChannelAllowance
  | .null => some .all
  | value => (strings value).map .allowed

def Permissions.fromValue (value : Json) : Option Permissions := do
  let fields ← structFields ["can_install_skills", "can_access_network", "can_use_shell",
    "can_view_own_logs", "can_export_memory", "can_bind_channels", "can_spawn_subagents",
    "can_schedule_cron", "can_use_mcp", "can_query_other_agents"] value
  let flag (key : String) (otherwise : Bool) := field fields key Json.asBool otherwise
  let canInstallSkills ← flag "can_install_skills" ({} : Permissions).canInstallSkills
  let canAccessNetwork ← flag "can_access_network" ({} : Permissions).canAccessNetwork
  let canUseShell ← flag "can_use_shell" ({} : Permissions).canUseShell
  let canViewOwnLogs ← flag "can_view_own_logs" ({} : Permissions).canViewOwnLogs
  let canExportMemory ← flag "can_export_memory" ({} : Permissions).canExportMemory
  let canBindChannels ← field fields "can_bind_channels" ChannelAllowance.fromValue
    ({} : Permissions).canBindChannels
  let canSpawnSubagents ← flag "can_spawn_subagents" ({} : Permissions).canSpawnSubagents
  let canScheduleCron ← flag "can_schedule_cron" ({} : Permissions).canScheduleCron
  let canUseMcp ← flag "can_use_mcp" ({} : Permissions).canUseMcp
  let canQueryOtherAgents ← flag "can_query_other_agents" ({} : Permissions).canQueryOtherAgents
  some { canInstallSkills, canAccessNetwork, canUseShell, canViewOwnLogs, canExportMemory,
         canBindChannels, canSpawnSubagents, canScheduleCron, canUseMcp, canQueryOtherAgents }

def NetworkPolicy.fromValue : Option NetworkPolicy := do
  let fields ← structFields ["egress_allowed", "allowed_domains", "blocked_domains"] value
  let egressAllowed ←
    field fields "egress_allowed" Json.asBool ({} : NetworkPolicy).egressAllowed
  let allowedDomains ← field fields "allowed_domains" strings ({} : NetworkPolicy).allowedDomains
  let blockedDomains ← field fields "blocked_domains" strings ({} : NetworkPolicy).blockedDomains
  some { egressAllowed, allowedDomains, blockedDomains }

def McpServerConfig.fromValue : Option McpServerConfig := do
  let fields ← structFields ["binary", "args", "env", "extra_paths_rw", "extra_paths_ro",
    "timeout_seconds", "enabled"] value
  let binary ← field fields "binary" Json.asStr ({} : McpServerConfig).binary
  let args ← field fields "args" strings ({} : McpServerConfig).args
  let env ← field fields "env" (entries Json.asStr) ({} : McpServerConfig).env
  let extraPathsRw ← field fields "extra_paths_rw" strings ({} : McpServerConfig).extraPathsRw
  let extraPathsRo ← field fields "extra_paths_ro" strings ({} : McpServerConfig).extraPathsRo
  let timeoutSeconds ←
    field fields "timeout_seconds" Json.asU64 ({} : McpServerConfig).timeoutSeconds
  let enabled ← field fields "enabled" Json.asBool ({} : McpServerConfig).enabled
  some { binary, args, env, extraPathsRw, extraPathsRo, timeoutSeconds, enabled }

def ContextToolsetEntry.fromValue : Option ContextToolsetEntry := do
  let fields ← structFields ["disabled"] value
  let disabled ← field fields "disabled" strings ({} : ContextToolsetEntry).disabled
  some { disabled }

def AdminVisibility.fromValue : Option AdminVisibility := do
  let fields ← structFields ["can_view_agent_status", "can_view_agent_config",
    "can_view_conversations", "can_view_audit_log"] value
  let flag (key : String) (otherwise : Bool) := field fields key Json.asBool otherwise
  let canViewAgentStatus ← flag "can_view_agent_status" ({} : AdminVisibility).canViewAgentStatus
  let canViewAgentConfig ← flag "can_view_agent_config" ({} : AdminVisibility).canViewAgentConfig
  let canViewConversations ←
    flag "can_view_conversations" ({} : AdminVisibility).canViewConversations
  let canViewAuditLog ← flag "can_view_audit_log" ({} : AdminVisibility).canViewAuditLog
  some { canViewAgentStatus, canViewAgentConfig, canViewConversations, canViewAuditLog }

def McpServerConfig.mapFromValue : Json → Option (List (String × McpServerConfig)) :=
  entries McpServerConfig.fromValue

def Policy.fromValue (value : Json) : Option Policy := do
  let fields ← structFields ["max_agents", "allowed_models", "resource_limits", "budget",
    "permissions", "network_policy", "context_toolsets", "admin_visibility", "mcp_servers"] value
  let maxAgents ← field fields "max_agents" (unsigned (2 ^ 32)) Policy.default.maxAgents
  let allowedModels ← field fields "allowed_models" strings Policy.default.allowedModels
  let resourceLimits ← field fields "resource_limits" (ResourceLimits.fromValue convert)
    Policy.default.resourceLimits
  let budget ← field fields "budget" BudgetPolicy.fromValue Policy.default.budget
  let permissions ←
    field fields "permissions" Permissions.fromValue Policy.default.permissions
  let networkPolicy ←
    field fields "network_policy" NetworkPolicy.fromValue Policy.default.networkPolicy
  let contextToolsets ← field fields "context_toolsets"
    (entries ContextToolsetEntry.fromValue) Policy.default.contextToolsets
  let adminVisibility ←
    field fields "admin_visibility" AdminVisibility.fromValue Policy.default.adminVisibility
  let mcpServers ←
    field fields "mcp_servers" McpServerConfig.mapFromValue Policy.default.mcpServers
  some { maxAgents, allowedModels, resourceLimits, budget, permissions, networkPolicy,
         contextToolsets, adminVisibility, mcpServers }

end Records

def McpServerConfig.toValue (server : McpServerConfig) : Json :=
  .object [("binary", .string server.binary), ("args", .array (server.args.map .string)),
    ("env", .object (server.env.map fun e => (e.1, .string e.2))),
    ("extra_paths_rw", .array (server.extraPathsRw.map .string)),
    ("extra_paths_ro", .array (server.extraPathsRo.map .string)),
    ("timeout_seconds", .number (.posInt server.timeoutSeconds)),
    ("enabled", .bool server.enabled)]

theorem McpServerConfig.fromValue_toValue (server : McpServerConfig) :
    fromValue server.toValue = some server := by
  have env : entries Json.asStr (.object (server.env.map fun e => (e.1, .string e.2))) =
      some server.env := by
    have back : ∀ text, Json.asStr (.string text) = some text := fun _ => rfl
    exact entries_object back server.env
  show (do
    let binary ← some server.binary
    let args ← strings (.array (server.args.map .string))
    let env ← entries Json.asStr (.object (server.env.map fun e => (e.1, .string e.2)))
    let extraPathsRw ← strings (.array (server.extraPathsRw.map .string))
    let extraPathsRo ← strings (.array (server.extraPathsRo.map .string))
    let timeoutSeconds ← some server.timeoutSeconds
    let enabled ← some server.enabled
    some { binary, args, env, extraPathsRw, extraPathsRo, timeoutSeconds, enabled }) = some server
  rw [strings_array, env, strings_array, strings_array]
  rfl

def McpServerConfig.mapToValue (servers : List (String × McpServerConfig)) : Json :=
  .object (servers.map fun e => (e.1, e.2.toValue))

theorem McpServerConfig.mapFromValue_mapToValue (servers : List (String × McpServerConfig)) :
    mapFromValue (mapToValue servers) = some servers :=
  entries_object fromValue_toValue servers

/-! ## What a policy's entries say -/

variable {fields : List (String × Json)}

theorem Permissions.fromValue_object_eq_some {p : Permissions} :
    fromValue (.object fields) = some p ↔
      field fields "can_install_skills" Json.asBool true = some p.canInstallSkills ∧
      field fields "can_access_network" Json.asBool true = some p.canAccessNetwork ∧
      field fields "can_use_shell" Json.asBool true = some p.canUseShell ∧
      field fields "can_view_own_logs" Json.asBool true = some p.canViewOwnLogs ∧
      field fields "can_export_memory" Json.asBool true = some p.canExportMemory ∧
      field fields "can_bind_channels" ChannelAllowance.fromValue .all = some p.canBindChannels ∧
      field fields "can_spawn_subagents" Json.asBool false = some p.canSpawnSubagents ∧
      field fields "can_schedule_cron" Json.asBool true = some p.canScheduleCron ∧
      field fields "can_use_mcp" Json.asBool false = some p.canUseMcp ∧
      field fields "can_query_other_agents" Json.asBool false = some p.canQueryOtherAgents := by
  obtain ⟨_, _, _, _, _, _, _, _, _, _⟩ := p
  simp only [fromValue, structFields, Option.bind_eq_bind, Option.bind_some,
    Option.bind_eq_some_iff, Option.some.injEq, Permissions.mk.injEq]
  constructor
  · rintro ⟨_, h1, _, h2, _, h3, _, h4, _, h5, _, h6, _, h7, _, h8, _, h9, _, h10, rfl, rfl, rfl,
      rfl, rfl, rfl, rfl, rfl, rfl, rfl⟩
    exact ⟨h1, h2, h3, h4, h5, h6, h7, h8, h9, h10⟩
  · rintro ⟨h1, h2, h3, h4, h5, h6, h7, h8, h9, h10⟩
    exact ⟨_, h1, _, h2, _, h3, _, h4, _, h5, _, h6, _, h7, _, h8, _, h9, _, h10, rfl, rfl, rfl,
      rfl, rfl, rfl, rfl, rfl, rfl, rfl⟩

theorem Policy.fromValue_object_eq_some {convert : Number → F64}
    {p : Policy} :
    fromValue convert (.object fields) = some p ↔
      field fields "max_agents" (unsigned (2 ^ 32)) 1 = some p.maxAgents ∧
      field fields "allowed_models" strings ["*"] = some p.allowedModels ∧
      field fields "resource_limits" (ResourceLimits.fromValue convert) {} =
        some p.resourceLimits ∧
      field fields "budget" BudgetPolicy.fromValue {} = some p.budget ∧
      field fields "permissions" Permissions.fromValue {} = some p.permissions ∧
      field fields "network_policy" NetworkPolicy.fromValue {} = some p.networkPolicy ∧
      field fields "context_toolsets" (entries ContextToolsetEntry.fromValue) [] =
        some p.contextToolsets ∧
      field fields "admin_visibility" AdminVisibility.fromValue {} = some p.adminVisibility ∧
      field fields "mcp_servers" McpServerConfig.mapFromValue [] = some p.mcpServers := by
  obtain ⟨_, _, _, _, _, _, _, _, _⟩ := p
  simp only [fromValue, structFields, Option.bind_eq_bind, Option.bind_some,
    Option.bind_eq_some_iff, Option.some.injEq, Policy.mk.injEq]
  constructor
  · rintro ⟨_, h1, _, h2, _, h3, _, h4, _, h5, _, h6, _, h7, _, h8, _, h9, rfl, rfl, rfl,
      rfl, rfl, rfl, rfl, rfl, rfl⟩
    exact ⟨h1, h2, h3, h4, h5, h6, h7, h8, h9⟩
  · rintro ⟨h1, h2, h3, h4, h5, h6, h7, h8, h9⟩
    exact ⟨_, h1, _, h2, _, h3, _, h4, _, h5, _, h6, _, h7, _, h8, _, h9, rfl, rfl, rfl,
      rfl, rfl, rfl, rfl, rfl, rfl⟩

end Havn.Core
