import Mathlib.Data.List.Perm.Basic
import Mathlib.Order.WithBot
import Havn.Core.PolicyJson
import Havn.Db.Gateway
import Havn.Lib.Decimal
import Havn.Lib.Join
import Havn.Runtime.ToolRegistry

/-!
# Policy resolution

Which policy a session runs under (`havn-gateway`, `policy_resolver.rs`).

`forUser` promises the most permissive merge of the user's role policies (`MostPermissiveMerge`);
the loop starts from `Policy::default()`, so it computes the merge of the roles **and of that
base**. The promise is kept exactly when the roles cover the base (`CoversBase`,
`forUser_isMerge_iff_covers`).
-/

namespace Havn.Gateway

open Havn.Core Db Lib Havn.Runtime

/-! ## The resolver -/

namespace PolicyResolver

variable (env : Option String) (db : GatewayDb)

/-- The variable's text when it is set, reads as a `u32`, and is positive. -/
def envCap : Option Nat :=
  (env.bind (parseUnsigned (2 ^ 32))).filter (0 < ·)

def base : Policy :=
  { Policy.default with maxAgents := (envCap env).getD 50 }

/-- The larger agent cap, and each of five flags or-ed in.  No other field is touched. -/
def mergeRole (policy : Policy) (role : Policy) : Policy :=
  { policy with
    maxAgents := max policy.maxAgents role.maxAgents
    permissions :=
      { policy.permissions with
        canInstallSkills := policy.permissions.canInstallSkills || role.permissions.canInstallSkills
        canAccessNetwork := policy.permissions.canAccessNetwork || role.permissions.canAccessNetwork
        canUseShell := policy.permissions.canUseShell || role.permissions.canUseShell
        canSpawnSubagents :=
          policy.permissions.canSpawnSubagents || role.permissions.canSpawnSubagents
        canScheduleCron :=
          policy.permissions.canScheduleCron || role.permissions.canScheduleCron } }

def roleOf (m : UserTeamSummary) : Option Role :=
  match Roles.findById db m.roleId with
  | .ok (some role) => some role
  | _ => none

def mergeMembership (policy : Policy) (m : UserTeamSummary) : Policy :=
  match roleOf db m with
  | some role => mergeRole policy role.policy
  | none => policy

def mergeMemberships (start : Policy) (ms : List UserTeamSummary) : Policy :=
  ms.foldl (mergeMembership db) start

/-- A failed membership lookup and no memberships both give the single-user base. -/
def forUser (user : UserId) : Policy :=
  match TeamMemberships.listForUser db user with
  | .error _ => base env
  | .ok [] => base env
  | .ok memberships => mergeMemberships db (base env) memberships

section Session

-- Reading a policy out of a JSON value is `serde`'s derived deserializer.
variable (fromValue : Json → Option Policy)

def overrideFor (agent : Agent) : Option Policy :=
  (agent.config.get "policy").bind fromValue

def forSession (env : Option String) (db : GatewayDb) (agent : Agent) : Policy :=
  match overrideFor fromValue agent with
  | some policy => policy
  | none => forUser env db agent.ownerId

def sessionTools (env : Option String) (db : GatewayDb) (agent : Agent) : List BuiltinTool :=
  (ToolRegistry.standard (forSession fromValue env db agent)).tools

end Session

end PolicyResolver

/-! ## The seeded team roles -/

namespace Teams

def adminDefaultPolicy : Policy :=
  { Policy.default with
    maxAgents := 50
    permissions :=
      { Policy.default.permissions with canUseShell := true, canSpawnSubagents := true }
    adminVisibility := { Policy.default.adminVisibility with canViewAuditLog := true } }

def memberDefaultPolicy : Policy :=
  { Policy.default with
    maxAgents := 5
    permissions :=
      { Policy.default.permissions with canUseShell := false, canSpawnSubagents := false }
    adminVisibility := { Policy.default.adminVisibility with canViewAuditLog := false } }

end Teams

namespace PolicyResolver

/-! ## What the merge computes -/

section Merge

variable (db : GatewayDb) (start : Policy) (ms : List UserTeamSummary)

def rolesOf : List Role := ms.filterMap (roleOf db)

/-- The loop is a fold of `mergeRole` over the roles that load. -/
theorem mergeMemberships_eq_foldl :
    mergeMemberships db start ms =
      (rolesOf db ms).foldl (fun policy role => mergeRole policy role.policy) start := by
  unfold mergeMemberships rolesOf
  induction ms generalizing start with
  | nil => rfl
  | cons m ms ih =>
    rw [List.foldl_cons, ih]
    cases loaded : roleOf db m with
    | none | some => simp [mergeMembership, loaded]

theorem mergeMemberships_flag (flag : Permissions → Bool)
    (widen : ∀ policy role, flag (mergeRole policy role).permissions =
      (flag policy.permissions || flag role.permissions)) :
    flag (mergeMemberships db start ms).permissions = true ↔
      flag start.permissions = true ∨
        ∃ role ∈ rolesOf db ms, flag role.policy.permissions = true := by
  rw [mergeMemberships_eq_foldl]
  exact foldl_flag_iff (fun policy : Policy => flag policy.permissions)
    (fun role : Role => flag role.policy.permissions)
    (fun policy role => widen policy role.policy) _ _

/-- The cap of the merge is the roles' greatest exactly when some role's is at least the starting
one. -/
theorem mergeMemberships_maxAgents_isGreatest_iff :
    IsGreatest {n | ∃ role ∈ rolesOf db ms, role.policy.maxAgents = n}
        (mergeMemberships db start ms).maxAgents ↔
      ∃ role ∈ rolesOf db ms, start.maxAgents ≤ role.policy.maxAgents := by
  rw [mergeMemberships_eq_foldl]
  exact foldl_isGreatest_iff Policy.maxAgents (fun role : Role => role.policy.maxAgents)
    (fun _ _ => rfl) _ _

/-- A field that no role touches is the one the loop starts from. -/
theorem mergeMemberships_frame {α : Type*} (read : Policy → α)
    (kept : ∀ policy role, read (mergeRole policy role) = read policy) :
    read (mergeMemberships db start ms) = read start := by
  rw [mergeMemberships_eq_foldl]
  induction rolesOf db ms generalizing start with
  | nil => rfl
  | cons role roles ih => exact (ih _).trans (kept start role.policy)

end Merge

theorem mergeRole_right_comm (policy role role' : Policy) :
    mergeRole (mergeRole policy role) role' = mergeRole (mergeRole policy role') role := by
  simp only [mergeRole, max_right_comm _ role.maxAgents, Bool.or_right_comm]

/-- **The merge does not depend on the order of the memberships.** -/
theorem mergeMemberships_perm (db : GatewayDb) (start : Policy) {ms ms' : List UserTeamSummary}
    (perm : ms'.Perm ms) : mergeMemberships db start ms' = mergeMemberships db start ms := by
  rw [mergeMemberships_eq_foldl, mergeMemberships_eq_foldl]
  have comm : RightCommutative fun (policy : Policy) (role : Role) =>
      mergeRole policy role.policy :=
    ⟨fun policy role role' => mergeRole_right_comm policy role.policy role'.policy⟩
  exact (perm.filterMap (roleOf db)).foldl_eq start

theorem forUser_eq_mergeMemberships {env : Option String} {db : GatewayDb} {user : UserId}
    {ms : List UserTeamSummary} (listed : TeamMemberships.listForUser db user = .ok ms) :
    forUser env db user = mergeMemberships db (base env) ms := by
  rw [forUser, listed]
  cases ms with
  | nil => rfl
  | cons m ms => rfl

/-! ## The promised merge, and when the loop delivers it -/

def Granted (db : GatewayDb) (ms : List UserTeamSummary) (flag : Permissions → Bool) : Prop :=
  ∃ role ∈ rolesOf db ms, flag role.policy.permissions = true

/-- **The most permissive merge of the role policies**: a flag is set exactly when some role grants
it, the agent cap is the greatest, and the order is immaterial. -/
structure MostPermissiveMerge (env : Option String) (db : GatewayDb) (user : UserId)
    (ms : List UserTeamSummary) : Prop where
  installSkills : (forUser env db user).permissions.canInstallSkills = true ↔
    Granted db ms Permissions.canInstallSkills
  accessNetwork : (forUser env db user).permissions.canAccessNetwork = true ↔
    Granted db ms Permissions.canAccessNetwork
  useShell : (forUser env db user).permissions.canUseShell = true ↔
    Granted db ms Permissions.canUseShell
  spawnSubagents : (forUser env db user).permissions.canSpawnSubagents = true ↔
    Granted db ms Permissions.canSpawnSubagents
  scheduleCron : (forUser env db user).permissions.canScheduleCron = true ↔
    Granted db ms Permissions.canScheduleCron
  maxAgents : IsGreatest {n | ∃ role ∈ rolesOf db ms, role.policy.maxAgents = n}
    (forUser env db user).maxAgents
  orderFree : ∀ ms', ms'.Perm ms →
    mergeMemberships db (base env) ms' = forUser env db user
  shellTool : ∀ (fromValue : Json → Option Policy) (agent : Agent), agent.ownerId = user →
    agent.config.get "policy" = none →
      (BuiltinTool.shell ∈ sessionTools fromValue env db agent ↔
        Granted db ms Permissions.canUseShell)

/-- The roles grant the four flags that are on by default, and an agent cap at least the base's. -/
structure CoversBase (env : Option String) (db : GatewayDb) (ms : List UserTeamSummary) :
    Prop where
  installSkills : Granted db ms Permissions.canInstallSkills
  accessNetwork : Granted db ms Permissions.canAccessNetwork
  useShell : Granted db ms Permissions.canUseShell
  scheduleCron : Granted db ms Permissions.canScheduleCron
  maxAgents : ∃ role ∈ rolesOf db ms, (envCap env).getD 50 ≤ role.policy.maxAgents

theorem shell_mem_sessionTools {fromValue : Json → Option Policy} {env : Option String}
    {db : GatewayDb} {agent : Agent} (plain : agent.config.get "policy" = none) :
    BuiltinTool.shell ∈ sessionTools fromValue env db agent ↔
      (forUser env db agent.ownerId).permissions.canUseShell = true := by
  have noOverride : overrideFor fromValue agent = none := by simp [overrideFor, plain]
  rw [sessionTools, ToolRegistry.shell_mem_standard, forSession, noOverride]

/-- **When the resolver returns the merge it documents**: exactly when the roles that load cover the
base policy. -/
theorem forUser_isMerge_iff_covers (env : Option String) (db : GatewayDb) (user : UserId)
    (ms : List UserTeamSummary) (listed : TeamMemberships.listForUser db user = .ok ms) :
    MostPermissiveMerge env db user ms ↔ CoversBase env db ms := by
  have merged : forUser env db user = _ := forUser_eq_mergeMemberships listed
  -- a flag the base already grants is exact only when some role grants it too
  have onByDefault : ∀ {flag : Permissions → Bool}, flag (base env).permissions = true →
      (∀ policy role, flag (mergeRole policy role).permissions =
        (flag policy.permissions || flag role.permissions)) →
      ((flag (forUser env db user).permissions = true ↔ Granted db ms flag) ↔
        Granted db ms flag) := by
    intro flag onInBase widen
    have granted : flag (forUser env db user).permissions = true := by
      rw [merged, mergeMemberships_flag db _ ms flag widen]
      exact Or.inl onInBase
    simp [granted]
  have maxAgents : IsGreatest {n | ∃ role ∈ rolesOf db ms, role.policy.maxAgents = n}
      (forUser env db user).maxAgents ↔
        ∃ role ∈ rolesOf db ms, (envCap env).getD 50 ≤ role.policy.maxAgents := by
    rw [merged]
    exact mergeMemberships_maxAgents_isGreatest_iff db (base env) ms
  constructor
  · intro merge
    exact ⟨(onByDefault rfl fun _ _ => rfl).mp merge.installSkills,
      (onByDefault rfl fun _ _ => rfl).mp merge.accessNetwork,
      (onByDefault rfl fun _ _ => rfl).mp merge.useShell,
      (onByDefault rfl fun _ _ => rfl).mp merge.scheduleCron,
      maxAgents.mp merge.maxAgents⟩
  · intro covers
    have useShell : _ ↔ Granted db ms Permissions.canUseShell :=
      (onByDefault rfl fun _ _ => rfl).mpr covers.useShell
    refine
      { installSkills := (onByDefault rfl fun _ _ => rfl).mpr covers.installSkills
        accessNetwork := (onByDefault rfl fun _ _ => rfl).mpr covers.accessNetwork
        useShell := useShell
        spawnSubagents := ?_
        scheduleCron := (onByDefault rfl fun _ _ => rfl).mpr covers.scheduleCron
        maxAgents := maxAgents.mpr covers.maxAgents
        orderFree := fun ms' perm => ?_
        shellTool := fun fromValue agent owned plain => ?_ }
    · -- the one merged flag that is off in the base policy is exact for any roles
      rw [merged, mergeMemberships_flag db _ ms Permissions.canSpawnSubagents fun _ _ => rfl]
      simp [Granted, base, Policy.default]
    · rw [merged, mergeMemberships_perm db _ perm]
    · rw [shell_mem_sessionTools plain, owned]
      exact useShell

/-! ## One team, one role -/

variable (roleName : String)

def soleRole (policy : Policy) : Role where
  id := ⟨uuidOf 2⟩
  teamId := some ⟨uuidOf 1⟩
  name := roleName
  policy := policy

def soleRoleDb (policy : Policy) : GatewayDb where
  teams := [{ id := ⟨uuidOf 1⟩, name := "team" }]
  roles := [soleRole roleName policy]
  memberships := [{ userId := ⟨uuidOf 3⟩, teamId := ⟨uuidOf 1⟩, roleId := ⟨uuidOf 2⟩ }]

def soleMembership : UserTeamSummary where
  teamId := ⟨uuidOf 1⟩
  teamName := "team"
  roleId := ⟨uuidOf 2⟩
  roleName := roleName

theorem forUser_isMerge_of_adminRole :
    TeamMemberships.listForUser (soleRoleDb "admin" Teams.adminDefaultPolicy) ⟨uuidOf 3⟩ =
        .ok [soleMembership "admin"] ∧
      MostPermissiveMerge none (soleRoleDb "admin" Teams.adminDefaultPolicy) ⟨uuidOf 3⟩
        [soleMembership "admin"] := by
  have listed : TeamMemberships.listForUser
      (soleRoleDb "admin" Teams.adminDefaultPolicy) ⟨uuidOf 3⟩ =
        .ok [soleMembership "admin"] := rfl
  refine ⟨listed, (forUser_isMerge_iff_covers none _ _ _ listed).mpr ?_⟩
  have admin : soleRole "admin" Teams.adminDefaultPolicy ∈
      rolesOf (soleRoleDb "admin" Teams.adminDefaultPolicy) [soleMembership "admin"] :=
    List.mem_cons_self
  exact ⟨⟨_, admin, rfl⟩, ⟨_, admin, rfl⟩, ⟨_, admin, rfl⟩, ⟨_, admin, rfl⟩,
    ⟨_, admin, by decide⟩⟩

/-- **The seeded `member` role does not take the shell away**, which it denies. -/
theorem forUser_not_merge_of_memberRole :
    TeamMemberships.listForUser (soleRoleDb "member" Teams.memberDefaultPolicy) ⟨uuidOf 3⟩ =
        .ok [soleMembership "member"] ∧
      Roles.findById (soleRoleDb "member" Teams.memberDefaultPolicy)
          (soleMembership "member").roleId =
        .ok (some (soleRole "member" Teams.memberDefaultPolicy)) ∧
      BuiltinTool.shell ∈ sessionTools (fun _ => none) none
        (soleRoleDb "member" Teams.memberDefaultPolicy)
        { id := ⟨uuidOf 4⟩, ownerId := ⟨uuidOf 3⟩, name := "agent" } ∧
      ¬ MostPermissiveMerge none (soleRoleDb "member" Teams.memberDefaultPolicy) ⟨uuidOf 3⟩
        [soleMembership "member"] := by
  refine ⟨rfl, rfl, by decide, fun merge => ?_⟩
  obtain ⟨role, mem, grants⟩ := merge.useShell.mp rfl
  have theRole : rolesOf (soleRoleDb "member" Teams.memberDefaultPolicy)
      [soleMembership "member"] = [soleRole "member" Teams.memberDefaultPolicy] := rfl
  rw [theRole, List.mem_singleton] at mem
  subst mem
  exact absurd grants (by decide)

/-! ## The limits a role sets -/

/-- A limit as the kernel takes it: the cgroup writes `0` as `max`. -/
def kernelLimit (limit : Nat) : WithTop Nat :=
  if limit = 0 then ⊤ else WithTop.some limit

/-- The kernel limits of a policy are the most permissive of the roles'. -/
def LimitsOfRoles (limits : ResourceLimits) (roles : List Role) : Prop :=
  ∀ limit ∈ [ResourceLimits.memoryMb, ResourceLimits.pidsMax],
    IsGreatest {l | ∃ role ∈ roles, kernelLimit (limit role.policy.resourceLimits) = l}
      (kernelLimit (limit limits))

/-- **No role moves a kernel limit**: without an override, a session's limits are the most
permissive of the owner's roles' exactly when the default policy's are. -/
theorem forSession_limits_iff (fromValue : Json → Option Policy) (env : Option String)
    (db : GatewayDb) (agent : Agent) (ms : List UserTeamSummary)
    (plain : agent.config.get "policy" = none)
    (listed : TeamMemberships.listForUser db agent.ownerId = .ok ms) :
    LimitsOfRoles (forSession fromValue env db agent).resourceLimits (rolesOf db ms) ↔
      LimitsOfRoles Policy.default.resourceLimits (rolesOf db ms) := by
  have noOverride : overrideFor fromValue agent = none := by simp [overrideFor, plain]
  have limits : (forSession fromValue env db agent).resourceLimits =
      Policy.default.resourceLimits := by
    rw [forSession, noOverride, forUser_eq_mergeMemberships listed]
    exact mergeMemberships_frame db _ ms Policy.resourceLimits fun _ _ => rfl
  rw [limits]

def soleAgent (config : Json) : Agent where
  id := ⟨uuidOf 4⟩
  ownerId := ⟨uuidOf 3⟩
  name := "agent"
  config := config

theorem mem_rolesOf_sole {policy : Policy} {role : Role} :
    role ∈ rolesOf (soleRoleDb roleName policy) [soleMembership roleName] ↔
      role = soleRole roleName policy :=
  List.mem_singleton

theorem forSession_limits_of_adminRole :
    LimitsOfRoles
      (forSession (fun _ => none) none (soleRoleDb "admin" Teams.adminDefaultPolicy)
        (soleAgent (.object []))).resourceLimits
      (rolesOf (soleRoleDb "admin" Teams.adminDefaultPolicy) [soleMembership "admin"]) := by
  refine (forSession_limits_iff _ none _ _ _ rfl rfl).mpr fun limit _ => ?_
  refine ⟨⟨_, (mem_rolesOf_sole "admin").mpr rfl, rfl⟩, ?_⟩
  rintro l ⟨role, mem, rfl⟩
  rw [(mem_rolesOf_sole "admin").mp mem]
  exact le_rfl

def bigPolicy : Policy :=
  { Policy.default with resourceLimits := { memoryMb := 1024 } }

/-- **A role that grants 1024 MB is not heard**: the session of its member keeps 512. -/
theorem forSession_drops_roleLimit :
    TeamMemberships.listForUser (soleRoleDb "big" bigPolicy) ⟨uuidOf 3⟩ =
        .ok [soleMembership "big"] ∧
      (forSession (fun _ => none) none (soleRoleDb "big" bigPolicy)
        (soleAgent (.object []))).resourceLimits.memoryMb = 512 ∧
      ¬ LimitsOfRoles
        (forSession (fun _ => none) none (soleRoleDb "big" bigPolicy)
          (soleAgent (.object []))).resourceLimits
        (rolesOf (soleRoleDb "big" bigPolicy) [soleMembership "big"]) := by
  refine ⟨rfl, rfl, fun most => ?_⟩
  obtain ⟨role, mem, attained⟩ := (most ResourceLimits.memoryMb List.mem_cons_self).1
  rw [(mem_rolesOf_sole "big").mp mem] at attained
  exact absurd attained (by decide)

/-! ## A malformed override -/

def flags : List (Permissions → Bool) :=
  [Permissions.canInstallSkills, Permissions.canAccessNetwork, Permissions.canUseShell,
    Permissions.canViewOwnLogs, Permissions.canExportMemory, Permissions.canSpawnSubagents,
    Permissions.canScheduleCron, Permissions.canUseMcp, Permissions.canQueryOtherAgents]

def channelAllowed : ChannelAllowance → String → Prop
  | .all, _ => True
  | .allowed channels, channel => channel ∈ channels

/-- Every permission of the first is one of the second. -/
def NoWider (p q : Permissions) : Prop :=
  (∀ flag ∈ flags, flag p = true → flag q = true) ∧
    ∀ channel, channelAllowed p.canBindChannels channel → channelAllowed q.canBindChannels channel

/-- **What a malformed override grants**: no more than the default policy exactly when no role of
the owner grants subagents. -/
theorem forSession_noWider_iff (fromValue : Json → Option Policy) (env : Option String)
    (db : GatewayDb) (agent : Agent) (raw : Json) (present : agent.config.get "policy" = some raw)
    (malformed : fromValue raw = none) :
    NoWider (forSession fromValue env db agent).permissions Policy.default.permissions ↔
      ∀ ms, TeamMemberships.listForUser db agent.ownerId = .ok ms →
        ¬ Granted db ms Permissions.canSpawnSubagents := by
  have noOverride : overrideFor fromValue agent = none := by
    rw [overrideFor, present, Option.bind_some, malformed]
  rw [forSession, noOverride]
  cases listed : TeamMemberships.listForUser db agent.ownerId with
  | error =>
    simp [forUser, listed, NoWider, base]
  | ok ms =>
    rw [forUser_eq_mergeMemberships listed]
    have spawns := mergeMemberships_flag db (base env) ms Permissions.canSpawnSubagents
      fun _ _ => rfl
    have mcp := mergeMemberships_frame db (base env) ms (·.permissions.canUseMcp) fun _ _ => rfl
    have others := mergeMemberships_frame db (base env) ms (·.permissions.canQueryOtherAgents)
      fun _ _ => rfl
    -- the flags that are on by default cannot be widened, two more are not merged
    simp_all [NoWider, flags, Granted, channelAllowed, Policy.default, base]

theorem forSession_noWider_of_memberRole :
    NoWider
      (forSession (Policy.fromValue fun _ => ⟨0⟩) none
        (soleRoleDb "member" Teams.memberDefaultPolicy)
        (soleAgent (.object [("policy", .string "strict")]))).permissions
      Policy.default.permissions := by
  refine (forSession_noWider_iff _ none _ _ (.string "strict") rfl rfl).mpr ?_
  rintro ms listed ⟨role, mem, grants⟩
  obtain rfl : [soleMembership "member"] = ms := Except.ok.inj listed
  rw [(mem_rolesOf_sole "member").mp mem] at grants
  exact absurd grants (by decide)

/-- **A malformed override widens the agent of an admin**: it may spawn subagents. -/
theorem forSession_malformed_widens :
    Policy.fromValue (fun _ => ⟨0⟩) (.string "strict") = none ∧
      ¬ NoWider
        (forSession (Policy.fromValue fun _ => ⟨0⟩) none
          (soleRoleDb "admin" Teams.adminDefaultPolicy)
          (soleAgent (.object [("policy", .string "strict")]))).permissions
        Policy.default.permissions := by
  refine ⟨rfl, fun within => ?_⟩
  have spawns := within.1 Permissions.canSpawnSubagents (by simp [flags]) rfl
  exact absurd spawns (by decide)

end PolicyResolver

end Havn.Gateway
