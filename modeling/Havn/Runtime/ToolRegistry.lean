import Havn.Core.Policy

/-!
# The runtime's tool registry

The registry the runtime builds from the policy of the handshake (`havn-runtime`, `tools/mod.rs`): a
tool whose capability the policy denies is not in it at all.
-/

namespace Havn.Runtime

open Havn.Core

inductive BuiltinTool
  | memoryRemember
  | memorySearch
  | memoryForget
  | fileRead
  | fileWrite
  | webFetch
  | shell
  | skillManage
deriving DecidableEq

def BuiltinTool.name : BuiltinTool → String
  | memoryRemember => "memory_remember"
  | memorySearch => "memory_search"
  | memoryForget => "memory_forget"
  | fileRead => "file_read"
  | fileWrite => "file_write"
  | webFetch => "web_fetch"
  | shell => "shell"
  | skillManage => "skill_manage"

structure ToolRegistry where
  tools : List BuiltinTool
  policy : Policy

variable (policy : Policy)

/-- Five tools that are always on, then one for each capability the policy grants. -/
def ToolRegistry.standard : ToolRegistry where
  tools :=
    [.memoryRemember, .memorySearch, .memoryForget, .fileRead, .fileWrite]
      ++ (if policy.permissions.canAccessNetwork then [.webFetch] else [])
      ++ (if policy.permissions.canUseShell then [.shell] else [])
      ++ (if policy.permissions.canInstallSkills then [.skillManage] else [])
  policy := policy

def BuiltinTool.granted (permissions : Permissions) : BuiltinTool → Bool
  | webFetch => permissions.canAccessNetwork
  | shell => permissions.canUseShell
  | skillManage => permissions.canInstallSkills
  | _ => true

theorem ToolRegistry.mem_standard_iff (tool : BuiltinTool) :
    tool ∈ (standard policy).tools ↔ tool.granted policy.permissions = true := by
  simp only [standard, BuiltinTool.granted]
  generalize policy.permissions.canAccessNetwork = network
  generalize policy.permissions.canUseShell = shell
  generalize policy.permissions.canInstallSkills = skills
  revert network shell skills
  cases tool <;> decide

theorem ToolRegistry.shell_mem_standard :
    BuiltinTool.shell ∈ (standard policy).tools ↔
      policy.permissions.canUseShell = true :=
  mem_standard_iff policy .shell

end Havn.Runtime
