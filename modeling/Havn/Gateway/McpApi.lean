import Mathlib.Data.List.Infix
import Havn.Gateway.Api
import Havn.Gateway.PolicyResolver
import Havn.Lib.Except

/-!
# Patching an agent's MCP configuration

`havn-gateway`, `api/mcp.rs`: an endpoint that splices two fields into the policy in an agent's
config and is documented never to touch the others.  The splice knows objects only, and drops what a
record written as an array holds (`Positional`).
-/

namespace Havn.Gateway.McpApi

open Havn.Core Db Lib Lib.Decode
open Api PolicyResolver

/-! ## The endpoint -/

structure McpPatch where
  canUseMcp : Option Bool := none
  servers : Option (List (String × McpServerConfig)) := none

structure McpView where
  canUseMcp : Bool
  servers : List (String × McpServerConfig)
  availableBinaries : List String

structure AuditEntry where
  teamId : Option TeamId
  userId : UserId
  agentId : AgentId
  action : String
  details : Json

def isAsciiControl (c : Char) : Bool := c.toNat < 0x20 || c.toNat = 0x7f

def validateBinaryName (name : String) : Except String Unit :=
  if name = "" then .error "empty binary name"
  else if '/' ∈ name.toList then .error "binary must be a file name, not a path"
  else if name = "." ∨ name = ".." ∨ ['.', '.'] <:+: name.toList then
    .error "binary name must not contain '..'"
  else if name.toList.any isAsciiControl then .error "binary name contains control bytes"
  else .ok ()

def validateServer (debug : String → String) (server : String × McpServerConfig) :
    Except ApiError Unit :=
  if trim server.1 = "" then .error (.badRequest "server name must be non-empty")
  else (validateBinaryName server.2.binary).mapError fun e =>
    .badRequest ("server " ++ debug server.1 ++ ": " ++ e)

def validate (debug : String → String) (req : McpPatch) : Except ApiError Unit :=
  (req.servers.getD []).forM (validateServer debug)

def objectAt (key : String) (fields : List (String × Json)) : List (String × Json) :=
  ((fields.lookup key).bind Json.asObject).getD []

def splicePermissions (canUseMcp : Option Bool) (policy : List (String × Json)) :
    List (String × Json) :=
  match canUseMcp with
  | none => policy
  | some can =>
    setField "permissions"
      (.object (setField "can_use_mcp" (.bool can) (objectAt "permissions" policy))) policy

def spliceServers (servers : Option (List (String × McpServerConfig)))
    (policy : List (String × Json)) : List (String × Json) :=
  match servers with
  | none => policy
  | some servers => setField "mcp_servers" (McpServerConfig.mapToValue servers) policy

def splicePolicy (req : McpPatch) (policy : List (String × Json)) : List (String × Json) :=
  spliceServers req.servers (splicePermissions req.canUseMcp policy)

def splice (req : McpPatch) (config : Json) : Json :=
  .object (setField "policy"
    (.object (splicePolicy req (objectAt "policy" (config.asObject.getD []))))
    (config.asObject.getD []))

def readMcpFromConfig (config : Json) : Bool × List (String × McpServerConfig) :=
  ((((config.get "policy").bind (Json.get "permissions")).bind
      (Json.get "can_use_mcp")).bind Json.asBool |>.getD false,
    (((config.get "policy").bind (Json.get "mcp_servers")).map fun value =>
      (McpServerConfig.mapFromValue value).getD []).getD [])

/-- The caller, the state, what the `UPDATE` fails with, and the installed binaries. -/
structure PatchCall where
  app : AppState
  user : UserId
  agentPath : String
  request : McpPatch
  refused : Option DbError := none
  installed : List String := []

structure Handled where
  reply : Except ApiError McpView
  db : GatewayDb
  audit : List AuditEntry

def view (installed : List String) (config : Json) : McpView where
  canUseMcp := (readMcpFromConfig config).1
  servers := (readMcpFromConfig config).2
  availableBinaries := installed

def auditEntry (db : GatewayDb) (call : PatchCall) (id : AgentId) : AuditEntry where
  teamId := match Agents.findById db id with
    | .ok (some agent) => agent.teamId
    | _ => none
  userId := call.user
  agentId := id
  action := "agent.mcp.updated"
  details := .object [("can_use_mcp", (call.request.canUseMcp.map Json.bool).getD .null),
    ("server_names", (call.request.servers.map fun servers =>
      Json.array (servers.map fun server => .string server.1)).getD .null)]

def patch (debug : String → String) (call : PatchCall) : Handled :=
  match resolveAgent call.app call.user call.agentPath with
  | .error e => ⟨.error e, call.app.db, []⟩
  | .ok agent =>
    match validate debug call.request with
    | .error e => ⟨.error e, call.app.db, []⟩
    | .ok () =>
      let written := Agents.patch call.app.db call.refused agent.id none
        (some (splice call.request agent.config))
      match written.1 with
      | .error e => ⟨.error (.ofDb e), written.2, []⟩
      | .ok row =>
        ⟨.ok (view call.installed row.config), written.2,
          [auditEntry written.2 call agent.id]⟩

/-! ## What a splice changes -/

variable {req : McpPatch}

section Splice

variable {convert : Number → F64} {policy : List (String × Json)} {p : Policy} {q : Permissions}

/-- A policy without the fields that a patch sets. -/
def rest (req : McpPatch) (policy : List (String × Json)) : List (String × Json) :=
  let others := match req.canUseMcp with
    | none => policy
    | some _ => setField "permissions"
        (.object (removeField "can_use_mcp" (objectAt "permissions" policy))) policy
  match req.servers with
  | none => others
  | some _ => removeField "mcp_servers" others

def patched (req : McpPatch) (p : Policy) : Policy :=
  { p with
    permissions := { p.permissions with
      canUseMcp := req.canUseMcp.getD p.permissions.canUseMcp }
    mcpServers := req.servers.getD p.mcpServers }

/-- What an object-only splice needs: no permissions written as an array. -/
def Placeable (req : McpPatch) (policy : List (String × Json)) : Prop :=
  req.canUseMcp = none ∨ ∀ items, policy.lookup "permissions" ≠ some (.array items)

theorem permissions_removeField {fields : List (String × Json)}
    (read : Permissions.fromValue (.object fields) = some q) :
    Permissions.fromValue (.object (removeField "can_use_mcp" fields)) =
      some { q with canUseMcp := false } := by
  obtain ⟨h1, h2, h3, h4, h5, h6, h7, h8, -, h10⟩ := Permissions.fromValue_object_eq_some.mp read
  rw [Permissions.fromValue_object_eq_some, field_removeField_self]
  refine ⟨?_, ?_, ?_, ?_, ?_, ?_, ?_, ?_, rfl, ?_⟩ <;>
    rw [field_removeField_of_ne (by decide)] <;> assumption

theorem permissions_setField (can : Bool) (fields : List (String × Json)) :
    Permissions.fromValue (.object (setField "can_use_mcp" (.bool can) fields)) =
      (Permissions.fromValue (.object (removeField "can_use_mcp" fields))).map fun q =>
        { q with canUseMcp := can } := by
  refine Option.ext fun q => ?_
  rw [Option.map_eq_some_iff]
  constructor
  · intro read
    have others := permissions_removeField read
    rw [removeField_setField] at others
    obtain ⟨-, -, -, -, -, -, -, -, h9, -⟩ := Permissions.fromValue_object_eq_some.mp read
    rw [field_setField_self] at h9
    exact ⟨_, others, by rw [Option.some.inj h9]⟩
  · rintro ⟨r, read, rfl⟩
    obtain ⟨h1, h2, h3, h4, h5, h6, h7, h8, -, h10⟩ := Permissions.fromValue_object_eq_some.mp read
    rw [Permissions.fromValue_object_eq_some, field_setField_self]
    refine ⟨?_, ?_, ?_, ?_, ?_, ?_, ?_, ?_, rfl, ?_⟩ <;>
      rw [field_setField_eq_removeField (by decide)] <;> assumption

theorem policy_removeField (read : Policy.fromValue convert (.object policy) = some p) :
    Policy.fromValue convert (.object (removeField "mcp_servers" policy)) =
      some { p with mcpServers := [] } := by
  obtain ⟨h1, h2, h3, h4, h5, h6, h7, h8, -⟩ := Policy.fromValue_object_eq_some.mp read
  rw [Policy.fromValue_object_eq_some, field_removeField_self]
  refine ⟨?_, ?_, ?_, ?_, ?_, ?_, ?_, ?_, rfl⟩ <;>
    rw [field_removeField_of_ne (by decide)] <;> assumption

theorem policy_setField_servers (servers : List (String × McpServerConfig))
    (policy : List (String × Json)) :
    Policy.fromValue convert
        (.object (setField "mcp_servers" (McpServerConfig.mapToValue servers) policy)) =
      (Policy.fromValue convert (.object (removeField "mcp_servers" policy))).map fun p =>
        { p with mcpServers := servers } := by
  refine Option.ext fun p => ?_
  rw [Option.map_eq_some_iff]
  constructor
  · intro read
    have others := policy_removeField read
    rw [removeField_setField] at others
    obtain ⟨-, -, -, -, -, -, -, -, h9⟩ := Policy.fromValue_object_eq_some.mp read
    rw [field_setField_self, McpServerConfig.mapFromValue_mapToValue] at h9
    exact ⟨_, others, by rw [Option.some.inj h9]⟩
  · rintro ⟨r, read, rfl⟩
    obtain ⟨h1, h2, h3, h4, h5, h6, h7, h8, -⟩ := Policy.fromValue_object_eq_some.mp read
    rw [Policy.fromValue_object_eq_some, field_setField_self]
    refine ⟨?_, ?_, ?_, ?_, ?_, ?_, ?_, ?_, McpServerConfig.mapFromValue_mapToValue servers⟩ <;>
      rw [field_setField_eq_removeField (by decide)] <;> assumption

theorem policy_setField_permissions (read : Policy.fromValue convert (.object policy) = some p)
    {value : Json} (permissions : Permissions.fromValue value = some q) :
    Policy.fromValue convert (.object (setField "permissions" value policy)) =
      some { p with permissions := q } := by
  obtain ⟨h1, h2, h3, h4, -, h6, h7, h8, h9⟩ := Policy.fromValue_object_eq_some.mp read
  rw [Policy.fromValue_object_eq_some, field_setField_self]
  refine ⟨?_, ?_, ?_, ?_, permissions, ?_, ?_, ?_, ?_⟩ <;>
    rw [field_setField_of_ne (by decide)] <;> assumption

/-- A policy's reading depends on the permissions' value by what is read off it only. -/
theorem policy_map_permissions {value value' : Json} {change : Permissions → Permissions}
    (changed : Permissions.fromValue value = (Permissions.fromValue value').map change)
    (policy : List (String × Json)) :
    Policy.fromValue convert (.object (setField "permissions" value policy)) =
      (Policy.fromValue convert (.object (setField "permissions" value' policy))).map fun p =>
        { p with permissions := change p.permissions } := by
  refine Option.ext fun p => ?_
  rw [Option.map_eq_some_iff]
  constructor
  · intro read
    obtain ⟨-, -, -, -, held, -⟩ := Policy.fromValue_object_eq_some.mp read
    rw [field_setField_self, changed] at held
    obtain ⟨q, held, eq⟩ := Option.map_eq_some_iff.mp held
    have other := policy_setField_permissions read held
    rw [setField_setField] at other
    exact ⟨_, other, by rw [eq]⟩
  · rintro ⟨r, read, rfl⟩
    obtain ⟨-, -, -, -, held, -⟩ := Policy.fromValue_object_eq_some.mp read
    rw [field_setField_self] at held
    have now : Permissions.fromValue value = some (change r.permissions) := by
      rw [changed, held]
      rfl
    have other := policy_setField_permissions read now
    rwa [setField_setField] at other

/-- **What is read after a splice**: the policy without the fields of the patch, with these set. -/
theorem fromValue_splicePolicy (req : McpPatch) (policy : List (String × Json)) :
    Policy.fromValue convert (.object (splicePolicy req policy)) =
      (Policy.fromValue convert (.object (rest req policy))).map (patched req) := by
  obtain ⟨canUseMcp, servers⟩ := req
  cases canUseMcp with
  | none =>
    cases servers with
    | none => exact (congrFun Option.map_id _).symm
    | some servers => exact policy_setField_servers servers policy
  | some can =>
    have permissions : ∀ policy', Policy.fromValue convert (.object (setField "permissions"
          (.object (setField "can_use_mcp" (.bool can) (objectAt "permissions" policy))) policy')) =
        (Policy.fromValue convert (.object (setField "permissions"
          (.object (removeField "can_use_mcp" (objectAt "permissions" policy))) policy'))).map _ :=
      policy_map_permissions (permissions_setField can (objectAt "permissions" policy))
    cases servers with
    | none => exact permissions policy
    | some servers =>
      refine (policy_setField_servers servers _).trans ?_
      rw [splicePermissions, removeField_setField_of_ne (by decide), permissions, Option.map_map,
        ← removeField_setField_of_ne (by decide)]
      rfl

theorem exists_permissions_objectAt (read : Policy.fromValue convert (.object policy) = some p) :
    ∃ q, Permissions.fromValue (.object (objectAt "permissions" policy)) = some q ∧
      ((∀ items, policy.lookup "permissions" ≠ some (.array items)) → q = p.permissions) := by
  obtain ⟨-, -, -, -, held, -⟩ := Policy.fromValue_object_eq_some.mp read
  rw [field] at held
  rw [objectAt]
  cases found : policy.lookup "permissions" with
  | none =>
    rw [found] at held
    exact ⟨{}, rfl, fun _ => Option.some.inj held⟩
  | some value =>
    rw [found] at held
    cases value with
    | object fields => exact ⟨p.permissions, held, fun _ => rfl⟩
    | array items => exact ⟨{}, rfl, fun object => absurd rfl (object items)⟩
    | _ => cases held

/-- **A policy that is read is read without the patch's fields**, and with these set it is the
policy patched, but for permissions that are an array. -/
theorem fromValue_rest (read : Policy.fromValue convert (.object policy) = some p)
    (req : McpPatch) :
    ∃ r, Policy.fromValue convert (.object (rest req policy)) = some r ∧
      (Placeable req policy → patched req r = patched req p) := by
  obtain ⟨q, held, same⟩ := exists_permissions_objectAt read
  obtain ⟨canUseMcp, servers⟩ := req
  have others : ∃ r, Policy.fromValue convert (.object (rest ⟨canUseMcp, none⟩ policy)) = some r ∧
      (Placeable ⟨canUseMcp, none⟩ policy →
        patched ⟨canUseMcp, none⟩ r = patched ⟨canUseMcp, none⟩ p) := by
    cases canUseMcp with
    | none => exact ⟨p, read, fun _ => rfl⟩
    | some can =>
      refine ⟨_, policy_setField_permissions read (permissions_removeField held), ?_⟩
      intro placeable
      rw [same (placeable.resolve_left (Option.some_ne_none can))]
      rfl
  obtain ⟨r, readRest, agree⟩ := others
  cases servers with
  | none => exact ⟨r, readRest, agree⟩
  | some servers =>
    refine ⟨_, policy_removeField readRest, fun placeable => ?_⟩
    exact congrArg (fun p : Policy => { p with mcpServers := servers }) (agree placeable)

end Splice

theorem get_splice_policy (req : McpPatch) (config : Json) : (splice req config).get "policy" =
    some (.object (splicePolicy req (objectAt "policy" (config.asObject.getD [])))) :=
  lookup_setField_self _ _ _

theorem get_eq_lookup (config : Json) (key : String) :
    config.get key = (config.asObject.getD []).lookup key := by
  cases config <;> rfl

theorem get_splice_of_ne {key : String} (ne : key ≠ "policy") (req : McpPatch) (config : Json) :
    (splice req config).get key = config.get key := by
  rw [get_eq_lookup config]
  exact lookup_setField_of_ne ne _ _

/-! ## The session's policy -/

def AgreeApartFromMcp (p q : Policy) : Prop :=
  q = { p with
    permissions := { p.permissions with canUseMcp := q.permissions.canUseMcp }
    mcpServers := q.mcpServers }

theorem AgreeApartFromMcp.refl (p : Policy) : AgreeApartFromMcp p p := rfl

theorem agreeApartFromMcp_patched (req : McpPatch) (p : Policy) :
    AgreeApartFromMcp p (patched req p) := rfl

variable (convert : Number → F64)

def policyOf (config : Json) : Option Policy :=
  (config.get "policy").bind (Policy.fromValue convert)

/-- **The patch stays within its fields**: the policy is an object, and either it is read and the
splice keeps its permissions, or what the patch leaves of it is not read. -/
inductive Framed (req : McpPatch) (config : Json) : Prop
  | spliced {policy : List (String × Json)} {p : Policy}
      (held : config.get "policy" = some (.object policy))
      (read : Policy.fromValue convert (.object policy) = some p)
      (placeable : Placeable req policy)
  | malformed {policy : List (String × Json)}
      (held : config.get "policy" = some (.object policy))
      (unread : Policy.fromValue convert (.object (rest req policy)) = none)

def Positional (config : Json) : Prop :=
  (∃ items, config.get "policy" = some (.array items)) ∨
    ∃ policy items, config.get "policy" = some (.object policy) ∧
      policy.lookup "permissions" = some (.array items)

variable {convert}

theorem policyOf_splice (config : Json) : policyOf convert (splice req config) =
    (Policy.fromValue convert
      (.object (rest req (objectAt "policy" (config.asObject.getD []))))).map (patched req) := by
  rw [policyOf, get_splice_policy]
  exact fromValue_splicePolicy req _

theorem objectAt_policy {config : Json} {policy : List (String × Json)}
    (held : config.get "policy" = some (.object policy)) :
    objectAt "policy" (config.asObject.getD []) = policy := by
  rw [objectAt, ← get_eq_lookup, held]
  rfl

theorem policyOf_object {config : Json} {policy : List (String × Json)}
    (held : config.get "policy" = some (.object policy)) :
    policyOf convert config = Policy.fromValue convert (.object policy) := by
  rw [policyOf, held]
  rfl

theorem Framed.agree {config : Json} (framed : Framed convert req config) (owner : Policy) :
    AgreeApartFromMcp ((policyOf convert config).getD owner)
      ((policyOf convert (splice req config)).getD owner) := by
  cases framed with
  | @spliced policy p held read placeable =>
    obtain ⟨r, readRest, agree⟩ := fromValue_rest read req
    rw [policyOf_splice, objectAt_policy held, policyOf_object held, read, readRest]
    show AgreeApartFromMcp p (patched req r)
    rw [agree placeable]
    exact agreeApartFromMcp_patched req p
  | @malformed policy held unread =>
    have before : Policy.fromValue convert (.object policy) = none := by
      by_contra read
      obtain ⟨p, read⟩ := Option.ne_none_iff_exists'.mp read
      obtain ⟨r, readRest, -⟩ := fromValue_rest read req
      exact Option.some_ne_none r (readRest.symm.trans unread)
    rw [policyOf_splice, objectAt_policy held, policyOf_object held, before, unread]
    exact .refl owner

/-- A patch that is not within its fields gives the agent a policy where it had none. -/
theorem exists_policyOf_splice {config : Json} (named : ¬ Positional config)
    (unframed : ¬ Framed convert req config) :
    policyOf convert config = none ∧ ∃ p, policyOf convert (splice req config) = some p := by
  constructor
  · by_contra read
    obtain ⟨p, read⟩ := Option.ne_none_iff_exists'.mp read
    obtain ⟨value, held, read⟩ := Option.bind_eq_some_iff.mp read
    cases value with
    | object policy =>
      refine unframed (.spliced held read (.inr fun items found => ?_))
      exact named (.inr ⟨policy, items, held, found⟩)
    | array items => exact named (.inl ⟨items, held⟩)
    | _ => cases read
  · rw [policyOf_splice]
    suffices ∃ r, Policy.fromValue convert
        (.object (rest req (objectAt "policy" (config.asObject.getD [])))) = some r by
      obtain ⟨r, read⟩ := this
      exact ⟨patched req r, by rw [read]; rfl⟩
    by_cases object : ∃ policy, config.get "policy" = some (.object policy)
    · obtain ⟨policy, held⟩ := object
      rw [objectAt_policy held]
      exact Option.ne_none_iff_exists'.mp fun unread => unframed (.malformed held unread)
    · -- A policy that is not an object is replaced by an empty one.
      have empty : objectAt "policy" (config.asObject.getD []) = [] := by
        rw [objectAt, ← get_eq_lookup]
        cases held : config.get "policy" with
        | none => rfl
        | some value =>
          cases value with
          | object policy => exact absurd ⟨policy, held⟩ object
          | _ => rfl
      have blank : Policy.fromValue convert (.object []) = some {} := rfl
      obtain ⟨r, read, -⟩ := fromValue_rest blank req
      rw [empty]
      exact ⟨r, read⟩

theorem forSession_eq (env : Option String) (db : GatewayDb) (agent : Agent) :
    forSession (Policy.fromValue convert) env db agent =
      (policyOf convert agent.config).getD (forUser env db agent.ownerId) := by
  have read : overrideFor (Policy.fromValue convert) agent = policyOf convert agent.config := rfl
  rw [forSession, read]
  cases policyOf convert agent.config <;> rfl

theorem exists_env_disagree (user : UserId) (p : Policy) :
    ∃ env db, ¬ AgreeApartFromMcp (forUser env db user) p := by
  by_contra always
  push Not at always
  have fifty : p.maxAgents = 50 := congrArg Policy.maxAgents (always none {})
  have one : p.maxAgents = 1 := congrArg Policy.maxAgents (always (some "1") {})
  omega

/-! ## Requests -/

variable {debug : String → String} {call : PatchCall}

theorem exists_of_accepted {shown : McpView} (accepted : (patch debug call).reply = .ok shown) :
    ∃ agent row db, resolveAgent call.app call.user call.agentPath = .ok agent ∧
      validate debug call.request = .ok () ∧
      Agents.patch call.app.db call.refused agent.id none
        (some (splice call.request agent.config)) = (.ok row, db) ∧
      patch debug call =
        ⟨.ok (view call.installed row.config), db, [auditEntry db call agent.id]⟩ := by
  unfold patch at accepted ⊢
  cases resolved : resolveAgent call.app call.user call.agentPath with
  | error => rw [resolved] at accepted; cases accepted
  | ok agent =>
    rw [resolved] at accepted
    dsimp only at accepted ⊢
    cases valid : validate debug call.request with
    | error => rw [valid] at accepted; cases accepted
    | ok =>
      rw [valid] at accepted
      dsimp only at accepted ⊢
      cases written : Agents.patch call.app.db call.refused agent.id none
          (some (splice call.request agent.config)) with
      | mk result db =>
        rw [written] at accepted
        cases result with
        | error => cases accepted
        | ok row => exact ⟨agent, row, db, rfl, rfl, written, rfl⟩

theorem db_of_accepted {shown : McpView} (accepted : (patch debug call).reply = .ok shown)
    {agent : Agent} (resolved : resolveAgent call.app call.user call.agentPath = .ok agent) :
    (patch debug call).db = { call.app.db with agents := call.app.db.agents.map fun row =>
      if row.id = agent.id then { row with config := splice call.request agent.config }
      else row } := by
  obtain ⟨agent', row, db, resolved', -, written, handled⟩ := exists_of_accepted accepted
  cases resolved.symm.trans resolved'
  rw [handled]
  unfold Agents.patch at written
  cases refused : call.refused with
  | some =>
    rw [refused] at written
    cases written
  | none =>
    rw [refused] at written
    dsimp only at written
    split at written
    · cases written
    · exact (congrArg Prod.snd written).symm

/-- **What a patch changes**: no other key of the config, and of the session's policy only the MCP
fields, if and only if it stays within them. -/
theorem patch_frame (convert : Number → F64) (debug : String → String) (call : PatchCall)
    (keyed : (call.app.db.agents.map (·.id)).Nodup) (shown : McpView)
    (accepted : (patch debug call).reply = .ok shown) (agent : Agent)
    (resolved : resolveAgent call.app call.user call.agentPath = .ok agent) (after : Agent)
    (mem : after ∈ (patch debug call).db.agents) (same : after.id = agent.id) :
    (∀ key ≠ "policy", after.config.get key = agent.config.get key) ∧
      (Framed convert call.request agent.config → ∀ env, AgreeApartFromMcp
        (forSession (Policy.fromValue convert) env call.app.db agent)
        (forSession (Policy.fromValue convert) env (patch debug call).db after)) ∧
      (¬ Framed convert call.request agent.config → ¬ Positional agent.config →
        ∃ env db, ¬ AgreeApartFromMcp (forSession (Policy.fromValue convert) env db agent)
          (forSession (Policy.fromValue convert) env db after)) := by
  have table := db_of_accepted accepted resolved
  have row : after = { agent with config := splice call.request agent.config } := by
    rw [table] at mem
    obtain ⟨old, held, eq⟩ := List.mem_map.mp mem
    have oldId : old.id = agent.id := by
      split at eq
      · assumption
      · rw [eq, same]
    rw [if_pos oldId] at eq
    rw [← eq, List.inj_on_of_nodup_map keyed held (mem_of_resolveAgent resolved) oldId]
  have users : ∀ env, forUser env (patch debug call).db = forUser env call.app.db := by
    intro env
    rw [table]
    rfl
  subst row
  refine ⟨fun key ne => get_splice_of_ne ne _ _, fun framed env => ?_, fun unframed named => ?_⟩
  · rw [forSession_eq, forSession_eq, users]
    exact framed.agree (forUser env call.app.db agent.ownerId)
  · obtain ⟨before, p, own⟩ := exists_policyOf_splice named unframed
    obtain ⟨env, db, disagree⟩ := exists_env_disagree agent.ownerId p
    refine ⟨env, db, ?_⟩
    rw [forSession_eq, forSession_eq, before, own]
    exact disagree

/-! ### A team's agent -/

section Lead

variable (config : Json)

def helper : Agent where
  id := ⟨uuidOf 1⟩
  ownerId := ⟨uuidOf 2⟩
  name := "helper"
  config := config

def leadDb : GatewayDb where
  teams := [⟨⟨uuidOf 3⟩, "research"⟩]
  roles := [⟨⟨uuidOf 4⟩, some ⟨uuidOf 3⟩, "lead", { permissions := { canSpawnSubagents := true } }⟩]
  memberships := [⟨⟨uuidOf 2⟩, ⟨uuidOf 3⟩, ⟨uuidOf 4⟩⟩]
  agents := [helper config]

def turnOn : PatchCall where
  app := { db := leadDb config, parseAgentId := fun _ => none }
  user := ⟨uuidOf 2⟩
  agentPath := "helper"
  request := { canUseMcp := some true }

def sessionPolicy (db : GatewayDb) (agent : Agent) : Policy :=
  forSession (Policy.fromValue fun _ => ⟨0⟩) none db agent

def turnedOn : Agent := helper (splice { canUseMcp := some true } config)

def ownPolicy : Json := .object [("policy", .object [("max_agents", .number (.posInt 3))])]

end Lead

theorem ownPolicy_framed : AgreeApartFromMcp (sessionPolicy (leadDb ownPolicy) (helper ownPolicy))
      (sessionPolicy (patch id (turnOn ownPolicy)).db (turnedOn ownPolicy)) ∧
    (sessionPolicy (patch id (turnOn ownPolicy)).db
      (turnedOn ownPolicy)).permissions.canUseMcp = true := by
  have framed : Framed (fun _ => ⟨0⟩) (turnOn ownPolicy).request ownPolicy :=
    .spliced (p := { maxAgents := 3 }) rfl rfl (.inr fun items found => by cases found)
  have frame := patch_frame (fun _ => ⟨0⟩) id (turnOn ownPolicy) (List.nodup_singleton _)
    ⟨true, [], []⟩ rfl (helper ownPolicy) rfl (turnedOn ownPolicy) (List.mem_singleton_self _) rfl
  exact ⟨frame.2.1 framed none, rfl⟩

theorem spawning_lost :
    (patch id (turnOn (.object []))).reply = .ok ⟨true, [], []⟩ ∧
      (patch id (turnOn (.object []))).db.agents = [turnedOn (.object [])] ∧
      (sessionPolicy (leadDb (.object [])) (helper (.object []))).permissions.canSpawnSubagents =
        true ∧
      (sessionPolicy (patch id (turnOn (.object []))).db
        (turnedOn (.object []))).permissions.canSpawnSubagents = false ∧
      ¬ AgreeApartFromMcp (sessionPolicy (leadDb (.object [])) (helper (.object [])))
        (sessionPolicy (patch id (turnOn (.object []))).db (turnedOn (.object []))) := by
  refine ⟨rfl, rfl, rfl, rfl, fun agree => ?_⟩
  have same : false = true := congrArg (fun p : Policy => p.permissions.canSpawnSubagents) agree
  cases same

end Havn.Gateway.McpApi
