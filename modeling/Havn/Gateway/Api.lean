import Havn.Lib.Text
import Havn.Db.Gateway

/-!
# What the HTTP endpoints share

`havn-gateway`, `api/mod.rs` and the agent lookup of `api/agents.rs`: an endpoint's errors, and how
the agent named in a path is resolved for the caller.
-/

namespace Havn.Gateway.Api

open Havn.Core Db Lib

inductive ApiError
  | notFound
  | conflict (message : String)
  | badRequest (message : String)
  | unauthorized
  | forbidden (message : String)
  | upstream (message : String)
  | noCredential (provider : String)
  | internal (message : String)
deriving DecidableEq

def ApiError.ofDb : DbError → ApiError
  | .notFound => .notFound
  | .conflict constraint => .conflict constraint
  | .invalidValue column message => .badRequest ("invalid " ++ column ++ ": " ++ message)
  | .sqlx message => .internal (DbError.display (.sqlx message))

/-- The database, the variable the policy resolver reads, and the parser of agent ids. -/
structure AppState where
  db : GatewayDb
  env : Option String := none
  parseAgentId : String → Option AgentId

def resolveAgent (app : AppState) (user : UserId) (path : String) : Except ApiError Agent :=
  match app.parseAgentId (trim path) with
  | some id =>
    match Agents.findById app.db id with
    | .error e => .error (.ofDb e)
    | .ok none => .error .notFound
    | .ok (some agent) =>
      -- the existence of the agent is not leaked to others
      if agent.ownerId ≠ user then .error .notFound else .ok agent
  | none =>
    match Agents.findByOwnerAndName app.db user (trim path) with
    | .error e => .error (.ofDb e)
    | .ok none => .error .notFound
    | .ok (some agent) => .ok agent

theorem mem_of_resolveAgent {app : AppState} {user : UserId} {path : String} {agent : Agent}
    (resolved : resolveAgent app user path = .ok agent) : agent ∈ app.db.agents := by
  unfold resolveAgent at resolved
  split at resolved
  · split at resolved
    · cases resolved
    · cases resolved
    rename_i found
    split at resolved
    · cases resolved
    · obtain rfl := Except.ok.inj resolved
      exact List.mem_of_find?_eq_some (GatewayDb.reading_eq_ok.mp found).2
  · split at resolved
    · cases resolved
    · cases resolved
    · rename_i found
      obtain rfl := Except.ok.inj resolved
      exact List.mem_of_find?_eq_some (GatewayDb.reading_eq_ok.mp found).2

end Havn.Gateway.Api
