import Mathlib.Data.List.Sort
import Havn.Core.Ids
import Havn.Core.Policy

/-!
# The gateway database

The tables of the gateway's SQLite file and the repository functions over them (`havn-db`, `repo/`).
`GatewayDb.fault` says of each read whether it fails, and with what.  `ORDER BY` is the order of
Lean strings; rows that tie keep their table order.
-/

namespace Havn.Db

open Havn.Core Lib

inductive DbError
  | sqlx (message : String)
  | notFound
  | invalidValue (column message : String)
  | conflict (constraint : String)
deriving DecidableEq

def DbError.display : DbError → String
  | .sqlx message => "sqlx: " ++ message
  | .notFound => "not found"
  | .invalidValue column message => "invalid value in column " ++ column ++ ": " ++ message
  | .conflict constraint => "unique-constraint violation on " ++ constraint

inductive AgentStatus
  | created
  | running
  | paused
  | stopped
  | error
deriving DecidableEq

def AgentStatus.asStr : AgentStatus → String
  | .created => "created"
  | .running => "running"
  | .paused => "paused"
  | .stopped => "stopped"
  | .error => "error"

structure Agent where
  id : AgentId
  ownerId : UserId
  teamId : Option TeamId := none
  name : String
  status : AgentStatus := .created
  config : Json := .object []

structure Team where
  id : TeamId
  name : String
deriving DecidableEq

/-- A name and a policy; `teamId = none` marks the system-wide built-ins. -/
structure Role where
  id : RoleId
  teamId : Option TeamId
  name : String
  policy : Policy
deriving DecidableEq

structure Membership where
  userId : UserId
  teamId : TeamId
  roleId : RoleId
deriving DecidableEq

structure UserTeamSummary where
  teamId : TeamId
  teamName : String
  roleId : RoleId
  roleName : String
deriving DecidableEq

inductive CredentialScope
  | user
  | team
deriving DecidableEq

structure Credential where
  id : CredentialId
  scope : CredentialScope
  scopeId : String
  provider : String
  name : Option String := none
  apiKeyCiphertext : List UInt8
  priority : Int := 0
  limits : Json := .object []
  enabled : Bool := true
  createdAt : String

inductive Read
  | membershipsOf (user : UserId)
  | roleById (role : RoleId)
  | agentById (agent : AgentId)
  | agentByName (owner : UserId) (name : String)
  | credentials (scope : CredentialScope) (scopeId provider : String)
deriving DecidableEq

structure GatewayDb where
  teams : List Team := []
  roles : List Role := []
  memberships : List Membership := []
  agents : List Agent := []
  credentials : List Credential := []
  fault : Read → Option DbError := fun _ => none

namespace GatewayDb

def reading {α : Type} (db : GatewayDb) (read : Read) (rows : α) : Except DbError α :=
  match db.fault read with
  | some e => .error e
  | none => .ok rows

theorem reading_eq_ok {α : Type} {db : GatewayDb} {read : Read} {rows rows' : α} :
    db.reading read rows = .ok rows' ↔ db.fault read = none ∧ rows = rows' := by
  unfold reading
  cases db.fault read <;> simp

def summarise (db : GatewayDb) (m : Membership) : Option UserTeamSummary :=
  match db.teams.find? (·.id = m.teamId), db.roles.find? (·.id = m.roleId) with
  | some team, some role =>
    some { teamId := m.teamId, teamName := team.name
           roleId := m.roleId, roleName := role.name }
  | _, _ => none

structure Keyed (db : GatewayDb) : Prop where
  credentialIds : (db.credentials.map (·.id)).Nodup
  membershipKeys : (db.memberships.map fun m => (m.userId, m.teamId)).Nodup
  teamOf : ∀ m ∈ db.memberships, ∃ team ∈ db.teams, team.id = m.teamId
  roleOf : ∀ m ∈ db.memberships, ∃ role ∈ db.roles, role.id = m.roleId

theorem Keyed.summarise_eq_some {db : GatewayDb} (keyed : db.Keyed) {m : Membership}
    (mem : m ∈ db.memberships) :
    ∃ summary, db.summarise m = some summary ∧ summary.teamId = m.teamId := by
  obtain ⟨team, isTeam, teamId⟩ := keyed.teamOf m mem
  obtain ⟨role, isRole, roleId⟩ := keyed.roleOf m mem
  have foundTeam : (db.teams.find? (·.id = m.teamId)).isSome = true :=
    List.find?_isSome.mpr ⟨team, isTeam, decide_eq_true teamId⟩
  have foundRole : (db.roles.find? (·.id = m.roleId)).isSome = true :=
    List.find?_isSome.mpr ⟨role, isRole, decide_eq_true roleId⟩
  obtain ⟨team', found⟩ := Option.isSome_iff_exists.mp foundTeam
  obtain ⟨role', found'⟩ := Option.isSome_iff_exists.mp foundRole
  exact ⟨⟨m.teamId, team'.name, m.roleId, role'.name⟩, by rw [summarise, found, found'], rfl⟩

end GatewayDb

namespace TeamMemberships

def listForUser (db : GatewayDb) (user : UserId) : Except DbError (List UserTeamSummary) :=
  db.reading (.membershipsOf user)
    (((db.memberships.filter (·.userId = user)).filterMap db.summarise).insertionSort
      fun a b => a.teamName ≤ b.teamName)

end TeamMemberships

namespace Roles

def findById (db : GatewayDb) (id : RoleId) : Except DbError (Option Role) :=
  db.reading (.roleById id) (db.roles.find? (·.id = id))

end Roles

namespace Agents

variable (db : GatewayDb)

def findById (id : AgentId) : Except DbError (Option Agent) :=
  db.reading (.agentById id) (db.agents.find? (·.id = id))

def findByOwnerAndName (owner : UserId) (name : String) : Except DbError (Option Agent) :=
  db.reading (.agentByName owner name)
    (db.agents.find? fun agent => agent.ownerId = owner ∧ agent.name = name)

def updated (name : Option String) (config : Option Json) (agent : Agent) : Agent :=
  { agent with name := name.getD agent.name, config := config.getD agent.config }

/-- `refused` is what the `UPDATE` fails with: a fault, or a name the owner has already given. -/
def patch (refused : Option DbError) (id : AgentId) (name : Option String)
    (config : Option Json) : Except DbError Agent × GatewayDb :=
  match refused with
  | some e => (.error e, db)
  | none =>
    if ∀ agent ∈ db.agents, agent.id ≠ id then (.error .notFound, db)
    else
      let db' := { db with agents := db.agents.map fun agent =>
        if agent.id = id then updated name config agent else agent }
      ((findById db' id).bind fun found => found.elim (.error .notFound) .ok, db')

def countForOwner (owner : UserId) : ℕ :=
  min (db.agents.filter (·.ownerId = owner)).length (2 ^ 32 - 1)

def insert (agent : Agent) : Except DbError GatewayDb :=
  if db.agents.any (fun other =>
      other.id = agent.id ∨ (other.ownerId = agent.ownerId ∧ other.name = agent.name)) then
    .error (.conflict "agents.(owner_id,name)")
  else .ok { db with agents := db.agents ++ [agent] }

def update (id : AgentId) (name : Option String) (config : Option Json) :
    Except DbError GatewayDb :=
  match db.agents.find? (·.id = id) with
  | none => .error .notFound
  | some row =>
    if db.agents.any (fun other => other.id ≠ id ∧ other.ownerId = row.ownerId ∧
        name = some other.name) then
      .error (.conflict "agents.(owner_id,name)")
    else .ok { db with agents := db.agents.map fun agent =>
      if agent.id = id then updated name config agent else agent }

theorem insert_eq_ok {db db' : GatewayDb} {agent : Agent} (inserted : insert db agent = .ok db') :
    (∀ other ∈ db.agents, other.id ≠ agent.id) ∧
      db' = { db with agents := db.agents ++ [agent] } := by
  unfold insert at inserted
  split at inserted
  · cases inserted
  rename_i free
  cases inserted
  refine ⟨fun other mem same => free ?_, rfl⟩
  exact List.any_eq_true.mpr ⟨other, mem, decide_eq_true (Or.inl same)⟩

theorem update_eq_ok {db db' : GatewayDb} {id : AgentId} {name : Option String}
    {config : Option Json} (written : update db id name config = .ok db') :
    db' = { db with agents := db.agents.map fun agent =>
      if agent.id = id then updated name config agent else agent } := by
  unfold update at written
  split at written
  · cases written
  · split at written
    · cases written
    · exact (Except.ok.inj written).symm

end Agents

namespace Credentials

def listActiveForProvider (db : GatewayDb) (scope : CredentialScope)
    (scopeId provider : String) : Except DbError (List Credential) :=
  db.reading (.credentials scope scopeId provider)
    ((db.credentials.filter fun c =>
        c.scope = scope ∧ c.scopeId = scopeId ∧ c.provider = provider ∧ c.enabled = true
      ).insertionSort fun a b =>
        b.priority < a.priority ∨ (a.priority = b.priority ∧ a.createdAt ≤ b.createdAt))

theorem mem_of_listActiveForProvider {db : GatewayDb} {scope : CredentialScope}
    {scopeId provider : String} {rows : List Credential} {c : Credential}
    (listed : listActiveForProvider db scope scopeId provider = .ok rows) (mem : c ∈ rows) :
    c ∈ db.credentials ∧ c.scope = scope ∧ c.scopeId = scopeId ∧ c.provider = provider ∧
      c.enabled = true := by
  obtain ⟨-, rfl⟩ := GatewayDb.reading_eq_ok.mp listed
  simpa using (List.mem_insertionSort _).mp mem

end Credentials

end Havn.Db
