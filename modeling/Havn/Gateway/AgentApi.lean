import Havn.Lib.Handlers
import Havn.Gateway.McpApi

/-!
# Creating and changing agents

`havn-gateway`, `api/agents.rs` and `api/mcp.rs`: `POST /agents`, `PATCH /agents/{id}` and `PATCH
/agents/{id}/mcp`.

A handler is a sequence of database statements (`Phase`).  Each is atomic and can fail, requests
take theirs in any order, and a handler is dropped when its client goes away.  Other endpoints may
change the rest of the database at any time.
-/

namespace Havn.Gateway.AgentApi

open Havn.Core Lib Lib.Decode Db Api
open McpApi (McpPatch McpView AuditEntry)

/-! ## The requests -/

structure CreateAgentRequest where
  name : String
  config : Option Json := none

structure PatchAgentRequest where
  name : Option String := none
  config : Option (List (String × Json)) := none

inductive Edit
  | agent (request : PatchAgentRequest)
  | mcp (request : McpPatch)

inductive Endpoint
  | create (request : CreateAgentRequest)
  | patch (path : String) (edit : Edit)

/-- A request, the id that is drawn for a new row, and the installed binaries. -/
structure Request where
  user : UserId
  endpoint : Endpoint
  newId : AgentId
  installed : List String := []

structure AgentView where
  id : String
  name : String
  status : String
  config : Json

def AgentView.fromAgent (agent : Agent) : AgentView where
  id := agent.id.toString
  name := agent.name
  status := agent.status.asStr
  config := agent.config

inductive Answer
  | created (view : AgentView)
  | agent (view : AgentView)
  | mcp (view : McpView)

/-! ## What an edit writes -/

def mergeEntry (base : List (String × Json)) : String × Json → List (String × Json)
  | (key, .null) => removeField key base
  | (key, value) => setField key value base

def merge (patch : List (String × Json)) (config : Json) : Json :=
  .object (patch.foldl mergeEntry (config.asObject.getD []))

namespace Edit

def check (debug : String → String) : Edit → Except ApiError Unit
  | .agent request =>
    match request.name with
    | some name =>
      if trim name = "" then .error (.badRequest "name must be non-empty") else .ok ()
    | none => .ok ()
  | .mcp request => McpApi.validate debug request

def name : Edit → Option String
  | .agent request => request.name.map trim
  | .mcp _ => none

def config (current : Json) : Edit → Option Json
  | .agent request => request.config.map fun patch => merge patch current
  | .mcp request => some (McpApi.splice request current)

def action : Edit → String
  | .agent _ => "agent.patched"
  | .mcp _ => "agent.mcp.updated"

def details : Edit → Json
  | .agent request => .object
      [("name", (request.name.map Json.string).getD .null),
        ("config_keys", (request.config.map fun patch =>
          Json.array (patch.map fun entry => .string entry.1)).getD .null)]
  | .mcp request => .object
      [("can_use_mcp", (request.canUseMcp.map Json.bool).getD .null),
        ("server_names", (request.servers.map fun servers =>
          Json.array (servers.map fun server => .string server.1)).getD .null)]

def answer (request : Request) (row : Agent) : Edit → Answer
  | .agent _ => .agent (.fromAgent row)
  | .mcp _ => .mcp (McpApi.view request.installed row.config)

end Edit

/-! ## The handlers -/

inductive Phase
  | resolvingPolicy (request : CreateAgentRequest)
  | counting (request : CreateAgentRequest) (cap : ℕ)
  | inserting (request : CreateAgentRequest)
  | rereadingNew
  | ensuring (agent : Agent)
  | auditingNew (agent : Agent)
  | resolving (path : String) (edit : Edit)
  | writing (edit : Edit) (id : AgentId) (config : Option Json)
  | rereading (edit : Edit) (id : AgentId)
  | auditing (edit : Edit) (row : Agent)
  | answered (answer : Except ApiError Answer)
  | dropped

def Phase.over : Phase → Bool
  | .answered _ | .dropped => true
  | _ => false

structure Call where
  request : Request
  resolved : Option AgentId := none
  phase : Phase

structure Server where
  env : Option String := none
  parseAgentId : String → Option AgentId
  debug : String → String

structure Store where
  db : GatewayDb
  audit : List AuditEntry := []

def Store.record (store : Store) (user : UserId) (agent : AgentId) (action : String)
    (details : Json) : Store :=
  { store with audit := store.audit ++
      [{ teamId := match Agents.findById store.db agent with
          | .ok (some row) => row.teamId
          | _ => none
         userId := user
         agentId := agent
         action := action
         details := details }] }

def begin (request : Request) : Call where
  request := request
  phase := match request.endpoint with
    | .create create =>
      if trim create.name = "" then .answered (.error (.badRequest "name must be non-empty"))
      else .resolvingPolicy create
    | .patch path edit => .resolving path edit

def newAgent (request : Request) (create : CreateAgentRequest) : Agent where
  id := request.newId
  ownerId := request.user
  name := trim create.name
  config := create.config.getD (.object [])

def quotaExhausted (count cap : ℕ) : ApiError :=
  .forbidden ("agent quota exhausted: " ++ toString count ++ "/" ++ toString cap
    ++ " agents already created. Adjust HAVN_MAX_AGENTS_PER_USER or remove an existing agent.")

namespace Call

def moveTo (call : Call) (phase : Phase) : Call := { call with phase := phase }

def reply (call : Call) (answer : Except ApiError Answer) : Call := call.moveTo (.answered answer)

end Call

section Handler

variable (server : Server)

def found (call : Call) (edit : Edit) (agent : Agent) : Call :=
  match edit.check server.debug with
  | .error e => { call.reply (.error e) with resolved := some agent.id }
  | .ok () =>
    { call.moveTo (.writing edit agent.id (edit.config agent.config)) with
      resolved := some agent.id }

def succeed (store : Store) (call : Call) : Store × Call :=
  match call.phase with
  | .resolvingPolicy create =>
    (store, call.moveTo (.counting create
      (PolicyResolver.forUser server.env store.db call.request.user).maxAgents))
  | .counting create cap =>
    let count := Agents.countForOwner store.db call.request.user
    (store, if cap ≤ count then call.reply (.error (quotaExhausted count cap))
      else call.moveTo (.inserting create))
  | .inserting create =>
    match Agents.insert store.db (newAgent call.request create) with
    | .error e => (store, call.reply (.error (.ofDb e)))
    | .ok db => ({ store with db := db }, call.moveTo .rereadingNew)
  | .rereadingNew =>
    (store, match Agents.findById store.db call.request.newId with
      | .error e => call.reply (.error (.ofDb e))
      | .ok none => call.reply (.error (.ofDb .notFound))
      | .ok (some agent) => call.moveTo (.ensuring agent))
  | .ensuring agent => (store, call.moveTo (.auditingNew agent))
  | .auditingNew agent =>
    (store.record call.request.user agent.id "agent.created"
        (.object [("name", .string agent.name)]),
      call.reply (.ok (.created (.fromAgent agent))))
  | .resolving path edit =>
    (store, match resolveAgent ⟨store.db, server.env, server.parseAgentId⟩
        call.request.user path with
      | .error e => call.reply (.error e)
      | .ok agent => found server call edit agent)
  | .writing edit id config =>
    match Agents.update store.db id edit.name config with
    | .error e => (store, call.reply (.error (.ofDb e)))
    | .ok db => ({ store with db := db }, call.moveTo (.rereading edit id))
  | .rereading edit id =>
    (store, match Agents.findById store.db id with
      | .error e => call.reply (.error (.ofDb e))
      | .ok none => call.reply (.error (.ofDb .notFound))
      | .ok (some row) => call.moveTo (.auditing edit row))
  | .auditing edit row =>
    (store.record call.request.user row.id edit.action edit.details,
      call.reply (.ok (edit.answer call.request row)))
  | .answered _ | .dropped => (store, call)

/-- A policy that cannot be resolved is the base policy; an audit entry that fails is only
logged. -/
def fail (call : Call) (message : String) : Call :=
  match call.phase with
  | .resolvingPolicy create =>
    call.moveTo (.counting create (PolicyResolver.base server.env).maxAgents)
  | .ensuring _ => call.reply (.error (.internal ("workspace: " ++ message)))
  | .auditingNew agent => call.reply (.ok (.created (.fromAgent agent)))
  | .auditing edit row => call.reply (.ok (edit.answer call.request row))
  | _ => call.reply (.error (.ofDb (.sqlx message)))

inductive Await
  | done
  | failed (message : String)
  | dropped

def act (store : Store) (call : Call) (await : Await) : Option (Store × Call) :=
  if call.phase.over then none
  else match await with
    | .done => some (succeed server store call)
    | .failed message => some (store, fail server call message)
    | .dropped => some (store, call.moveTo .dropped)

def elsewhere (db : GatewayDb) (store : Store) : Store :=
  { store with db := { db with agents := store.db.agents } }

def handlers : Handlers Store Request Call Await GatewayDb where
  begin := begin
  act := act server
  outside := elsewhere

end Handler

abbrev State := Handlers.State Store Call

abbrev Label := Handlers.Label Request Await GatewayDb

def start (db : GatewayDb) : State where
  shared := { db := db }

/-! ## What a call does to the agents -/

inductive Written (db : GatewayDb) (call : Call) : GatewayDb → Prop
  | same : Written db call db
  | inserted {create : CreateAgentRequest} {db' : GatewayDb}
      (phase : call.phase = .inserting create)
      (done : Agents.insert db (newAgent call.request create) = .ok db') : Written db call db'
  | updated {edit : Edit} {id : AgentId} {config : Option Json} {db' : GatewayDb}
      (phase : call.phase = .writing edit id config)
      (done : Agents.update db id edit.name config = .ok db') : Written db call db'

inductive ActSpec (server : Server) (store : Store) (call : Call) (await : Await) :
    Store × Call → Prop
  | refused (error : ApiError) (resolved : Option AgentId)
      (onward : resolved = call.resolved ∨ ∃ path edit, call.phase = .resolving path edit) :
      ActSpec server store call await
        (store, { call.reply (.error error) with resolved := resolved })
  | capped {create : CreateAgentRequest} (phase : call.phase = .resolvingPolicy create) (cap : ℕ)
      (resolved : (await = .done ∧
          cap = (PolicyResolver.forUser server.env store.db call.request.user).maxAgents) ∨
        (∃ message, await = .failed message) ∧
          cap = (PolicyResolver.base server.env).maxAgents) :
      ActSpec server store call await (store, call.moveTo (.counting create cap))
  | admitted {create : CreateAgentRequest} {cap : ℕ} (phase : call.phase = .counting create cap)
      (below : ¬ cap ≤ Agents.countForOwner store.db call.request.user) :
      ActSpec server store call await (store, call.moveTo (.inserting create))
  | inserted {create : CreateAgentRequest} (phase : call.phase = .inserting create) {db : GatewayDb}
      (done : Agents.insert store.db (newAgent call.request create) = .ok db) :
      ActSpec server store call await ({ store with db := db }, call.moveTo .rereadingNew)
  | rereadNew (phase : call.phase = .rereadingNew) (agent : Agent) :
      ActSpec server store call await (store, call.moveTo (.ensuring agent))
  | ensured {agent : Agent} (phase : call.phase = .ensuring agent) :
      ActSpec server store call await (store, call.moveTo (.auditingNew agent))
  | created {agent : Agent} (phase : call.phase = .auditingNew agent) (audit : List AuditEntry) :
      ActSpec server store call await
        ({ store with audit := audit }, call.reply (.ok (.created (.fromAgent agent))))
  | resolved {path : String} {edit : Edit} (phase : call.phase = .resolving path edit)
      {agent : Agent}
      (found : resolveAgent ⟨store.db, server.env, server.parseAgentId⟩ call.request.user path =
        .ok agent) :
      ActSpec server store call await (store,
        { call.moveTo (.writing edit agent.id (edit.config agent.config)) with
          resolved := some agent.id })
  | updated {edit : Edit} {id : AgentId} {config : Option Json}
      (phase : call.phase = .writing edit id config) {db : GatewayDb}
      (done : Agents.update store.db id edit.name config = .ok db) :
      ActSpec server store call await ({ store with db := db }, call.moveTo (.rereading edit id))
  | reread {edit : Edit} {id : AgentId} (phase : call.phase = .rereading edit id) (row : Agent) :
      ActSpec server store call await (store, call.moveTo (.auditing edit row))
  | edited {edit : Edit} {row : Agent} (phase : call.phase = .auditing edit row)
      (audit : List AuditEntry) :
      ActSpec server store call await
        ({ store with audit := audit }, call.reply (.ok (edit.answer call.request row)))
  | dropped : ActSpec server store call await (store, call.moveTo .dropped)

section ActSpec

variable {server : Server} {store : Store} {call : Call} {await : Await}

theorem ActSpec.reply (error : ApiError) :
    ActSpec server store call await (store, call.reply (.error error)) :=
  .refused error call.resolved (.inl rfl)

theorem actSpec_succeed (running : call.phase.over = false) :
    ActSpec server store call .done (succeed server store call) := by
  unfold succeed
  cases phase : call.phase with
  | resolvingPolicy => exact .capped phase _ (.inl ⟨rfl, rfl⟩)
  | counting =>
    dsimp only
    split
    · exact .reply _
    · exact .admitted phase ‹_›
  | inserting =>
    dsimp only
    split
    · exact .reply _
    · exact .inserted phase ‹_›
  | rereadingNew =>
    dsimp only
    split
    · exact .reply _
    · exact .reply _
    · exact .rereadNew phase _
  | ensuring => exact .ensured phase
  | auditingNew => exact .created phase _
  | resolving path edit =>
    dsimp only
    split
    · exact .reply _
    · rename_i agent isFound
      unfold found
      split
      · exact .refused _ _ (.inr ⟨path, edit, phase⟩)
      · exact .resolved phase isFound
  | writing =>
    dsimp only
    split
    · exact .reply _
    · exact .updated phase ‹_›
  | rereading =>
    dsimp only
    split
    · exact .reply _
    · exact .reply _
    · exact .reread phase _
  | auditing => exact .edited phase _
  | answered | dropped => rw [phase] at running; cases running

theorem actSpec_fail (message : String) :
    ActSpec server store call (.failed message) (store, fail server call message) := by
  unfold fail
  cases phase : call.phase with
  | resolvingPolicy => exact .capped phase _ (.inr ⟨⟨message, rfl⟩, rfl⟩)
  | auditingNew => exact .created phase store.audit
  | auditing => exact .edited phase store.audit
  | ensuring | counting | inserting | rereadingNew | resolving | writing | rereading | answered
  | dropped => exact .reply _

/-- **What a call does.** -/
theorem act_spec {after : Store × Call} (acted : act server store call await = some after) :
    ActSpec server store call await after := by
  unfold act at acted
  split at acted
  · cases acted
  rename_i running
  cases await with
  | done => cases acted; exact actSpec_succeed (Bool.eq_false_iff.mpr running)
  | failed message => cases acted; exact actSpec_fail message
  | dropped => cases acted; exact .dropped

end ActSpec

variable {server : Server}

theorem written_act {store : Store} {call : Call} {await : Await} {after : Store × Call}
    (acted : act server store call await = some after) : Written store.db call after.1.db := by
  cases act_spec acted with
  | inserted phase done => exact .inserted phase done
  | updated phase done => exact .updated phase done
  | refused | capped | admitted | rereadNew | ensured | created | resolved | reread | edited
  | dropped => exact .same

theorem store_of_not_done {store : Store} {call : Call} {await : Await} {after : Store × Call}
    (acted : act server store call await = some after) (cut : await ≠ .done) : after.1 = store := by
  unfold act at acted
  split at acted
  · cases acted
  · cases await with
    | done => contradiction
    | failed | dropped => cases acted; rfl

end Havn.Gateway.AgentApi
