import Havn.Gateway.BudgetRace
import Havn.Gateway.LlmRequest
import Havn.Gateway.Members

/-!
# What a team's usage view counts

`GET /teams/{id}/usage` (`havn-gateway/src/api/teams.rs`) shows the calls and tokens of each member:
the proxy writes a row for each call, and `list_team_usage` (`havn-db`, `repo/credential_usage.rs`)
sums them.
-/

namespace Havn.Gateway.TeamUsage

open Havn.Core Db Lib Lib.Rfc3339 Proto List
open Api BudgetRace CredentialUsage
open LlmProxy LlmRequests

/-! ## The query -/

structure TeamUserUsage where
  userId : UserId
  displayName : String
  tokensIn : Int
  tokensOut : Int
  callCount : ℕ

def usagesOf (usages : List UsageRow) (user : UserId) (since : String) : List UsageRow :=
  usages.filter fun row => row.usage.userId = user ∧ since ≤ row.createdAt

def memberUsage (usages : List UsageRow) (since : String) (user : User) :
    Except DbError TeamUserUsage := do
  let rows := usagesOf usages user.id since
  let tokensIn ← total (rows.map (·.usage.tokensIn)).sum
  let tokensOut ← total (rows.map (·.usage.tokensOut)).sum
  pure ⟨user.id, user.displayName, tokensIn, tokensOut, rows.length⟩

def members (roster : Roster) (team : TeamId) : List User :=
  (roster.memberships.rows.filter (·.teamId = team)).filterMap fun row =>
    roster.users.find row.userId

/-- The `ORDER BY` names columns next to the sums; which row of a group they are read from is
SQLite's choice. -/
structure RowOrder where
  sort : List TeamUserUsage → List TeamUserUsage
  perm : ∀ rows, (sort rows).Perm rows

def listTeamUsage (order : RowOrder) (roster : Roster) (usages : List UsageRow) (team : TeamId)
    (since : String) : Except DbError (List TeamUserUsage) :=
  ((members roster team).mapM (memberUsage usages since)).map order.sort

/-! ## The endpoint -/

structure TeamUsageEntry where
  userId : String
  displayName : String
  tokensIn : Int
  tokensOut : Int
  callCount : ℕ

structure TeamUsageResponse where
  teamId : String
  since : ℤ
  entries : List TeamUsageEntry

def intoUsageEntry (u : TeamUserUsage) : TeamUsageEntry :=
  ⟨u.userId.toString, u.displayName, u.tokensIn, u.tokensOut, u.callCount⟩

/-- A call that was made: the agent as it was then, the row that the proxy wrote for it, and whether
the row is in the table. -/
structure Call where
  agent : Agent
  row : UsageRow
  stored : Bool

structure World where
  db : GatewayDb
  roster : Roster
  clock : ℕ
  calls : List Call := []

def World.usages (w : World) : List UsageRow := (w.calls.filter Call.stored).map Call.row

structure UsageQuery where
  user : UserId
  id : String
  days : Option ℕ
  memberFault : Option DbError := none
  listFault : Option DbError := none

def UsageQuery.since (q : UsageQuery) (clock : ℕ) : ℤ :=
  clock - min (q.days.getD 30) 365 * dayMillis

def statement {α : Type} (fault : Option DbError) (result : Except DbError α) : Except ApiError α :=
  match fault with
  | some e => .error (.ofDb e)
  | none => result.mapError .ofDb

def requireMember (roster : Roster) (user : UserId) (team : TeamId) (fault : Option DbError) :
    Except ApiError Unit := do
  let isMember ← statement fault (.ok (roster.find user team).isSome)
  if isMember then pure ()
  else .error (.forbidden
    ("user " ++ user.toString ++ " is not a member of team " ++ team.toString))

def usage (reader : UuidReader) (order : RowOrder) (w : World) (q : UsageQuery) :
    Except ApiError TeamUsageResponse := do
  let team ← Members.parseTeam reader q.id
  requireMember w.roster q.user team q.memberFault
  let since := q.since w.clock
  let rows ← statement q.listFault (listTeamUsage order w.roster w.usages team (stamp since))
  pure ⟨team.toString, since, rows.map intoUsageEntry⟩

/-! ## Calls -/

structure Request (σ : Type) where
  agentId : AgentId
  frame : LlmRequest
  ctx : AgentSocketCtx σ
  world : σ
  insertFault : Option DbError := none

inductive Label (σ : Type)
  | wait (millis : ℕ)
  | request (request : Request σ)
  /-- Teams, members, agents and credentials change; rows go with what they refer to, and the calls
  were made all the same. -/
  | change (db : GatewayDb) (roster : Roster) (kept : Call → Bool)

variable {roster : Roster}

section Machine

variable {σ : Type}

def Request.usages (request : Request σ) (db : GatewayDb) : List NewUsage :=
  (handleLlmRequest { request.ctx with db := db } request.agentId request.frame
    request.world).writes.filterMap Write.usage

def step (w : World) : Label σ → Option World
  | .wait millis => some { w with clock := w.clock + millis }
  | .request request =>
    match Agents.findById w.db request.agentId with
    | .ok (some agent) =>
      -- a row that cannot be written is logged and forgotten
      some { w with calls := w.calls ++ (request.usages w.db).map fun usage =>
        ⟨agent, ⟨usage, w.clock⟩, request.insertFault.isNone⟩ }
    -- no owner, no call
    | _ => some w
  | .change db roster kept =>
    some { w with
      db := db, roster := roster
      calls := w.calls.map fun call => { call with stored := call.stored && kept call } }

def start (db : GatewayDb) (roster : Roster) (clock : ℕ) : World := { db, roster, clock }

/-! ## Attribution -/

theorem usage_of_completeWithProvider {env : Env σ} {db : GatewayDb} {user : UserId}
    {provider : String} {request : AnthropicRequest} {world : σ} {usage : NewUsage}
    (mem : usage ∈ (completeWithProvider env db user provider request world).writes.filterMap
      Write.usage) : usage.userId = user ∧ usage.agentId = none := by
  rcases refused_or_fallback env db user provider request world with
    ⟨-, noWrites⟩ | ⟨dispatched, chain, -, isFallback⟩
  · rw [noWrites] at mem
    cases mem
  · rw [isFallback] at mem
    have laws : CompletionLaws env user provider dispatched request chain
        (fallback env user provider dispatched request chain world) := fallback_laws chain world
    cases result : (fallback env user provider dispatched request chain world).result with
    | error e =>
      rw [laws.usage_error e result] at mem
      cases mem
    | ok response =>
      obtain ⟨turn, -, -, rows⟩ := laws.usage_ok response result
      rw [rows] at mem
      rw [mem_singleton.mp mem]
      exact ⟨rfl, rfl⟩

theorem usage_of_handleLlmRequest {ctx : AgentSocketCtx σ} {agentId : AgentId} {agent : Agent}
    {frame : LlmRequest} {world : σ} {usage : NewUsage}
    (found : Agents.findById ctx.db agentId = .ok (some agent))
    (mem : usage ∈ (handleLlmRequest ctx agentId frame world).writes.filterMap Write.usage) :
    usage.userId = agent.ownerId ∧ usage.agentId = none := by
  unfold handleLlmRequest at mem
  cases built : buildAnthropicRequest frame with
  | error => simp [found, built] at mem
  | ok =>
    cases ring : ctx.keyring with
    | none => simp [found, built, ring] at mem
    | some =>
      simp only [found, built, ring, billingUser_eq_owner] at mem
      exact usage_of_completeWithProvider mem

structure Attributed (w : World) : Prop where
  owner : ∀ call ∈ w.calls, call.row.usage.userId = call.agent.ownerId
  anonymous : ∀ call ∈ w.calls, call.row.usage.agentId = none
  past : ∀ call ∈ w.calls, call.row.recordedAt ≤ w.clock

theorem Attributed.step {w w' : World} {label : Label σ} (attributed : Attributed w)
    (stepped : step w label = some w') : Attributed w' := by
  cases label with
  | wait =>
    cases stepped
    exact ⟨attributed.owner, attributed.anonymous,
      fun call mem => Nat.le_add_right_of_le (attributed.past call mem)⟩
  | change =>
    cases stepped
    exact ⟨forall_mem_map.mpr attributed.owner, forall_mem_map.mpr attributed.anonymous,
      forall_mem_map.mpr attributed.past⟩
  | request request =>
    simp only [TeamUsage.step] at stepped
    split at stepped
    · rename_i agent found
      cases stepped
      have new : ∀ call ∈ (request.usages w.db).map (fun usage =>
          (⟨agent, ⟨usage, w.clock⟩, request.insertFault.isNone⟩ : Call)),
          call.row.usage.userId = call.agent.ownerId ∧ call.row.usage.agentId = none ∧
            call.row.recordedAt ≤ w.clock := by
        intro call mem
        obtain ⟨usage, isUsage, rfl⟩ := mem_map.mp mem
        obtain ⟨owner, anonymous⟩ := usage_of_handleLlmRequest found isUsage
        exact ⟨owner, anonymous, le_rfl⟩
      refine ⟨fun call mem => ?_, fun call mem => ?_, fun call mem => ?_⟩
      · exact (mem_append.mp mem).elim (attributed.owner call) fun mem => (new call mem).1
      · exact (mem_append.mp mem).elim (attributed.anonymous call)
          fun mem => (new call mem).2.1
      · exact (mem_append.mp mem).elim (attributed.past call) fun mem => (new call mem).2.2
    · cases stepped
      exact attributed

theorem attributed_of_run {db : GatewayDb} {clock : ℕ} {labels : List (Label σ)} {w : World}
    (run : Run step anyStep (start db roster clock) labels w) : Attributed w :=
  run.invariant (fun _ _ _ attributed _ next => attributed.step next)
    ⟨fun _ mem => absurd mem not_mem_nil, fun _ mem => absurd mem not_mem_nil,
      fun _ mem => absurd mem not_mem_nil⟩

end Machine

/-! ## Entries -/

section Entries

variable (w : World) (user : UserId) (since : ℤ) (team : TeamId)

/-- The calls that the user's agents made in the window. -/
def callsOf : List Call :=
  w.calls.filter fun call => call.agent.ownerId = user ∧ since ≤ call.row.recordedAt

/-- Those whose row was written and kept. -/
def storedCalls : List Call := (callsOf w user since).filter Call.stored

/-- Those that agents of the team made. -/
def teamCalls : List Call :=
  (callsOf w user since).filter fun call => call.agent.teamId = some team

/-- The entry counts these calls. -/
structure Counts (entry : TeamUsageEntry) (calls : List Call) : Prop where
  callCount : entry.callCount = calls.length
  tokensIn : entry.tokensIn = (calls.map (·.row.usage.tokensIn)).sum
  tokensOut : entry.tokensOut = (calls.map (·.row.usage.tokensOut)).sum

/-- Of the calls in the window exactly those of the team's agents have their row. -/
def OnlyForTeam : Prop :=
  ∀ call ∈ callsOf w user since, call.stored = true ↔ call.agent.teamId = some team
  deriving Decidable

variable {w : World} {q : UsageQuery} {user : UserId} {team : TeamId}

theorem stamp_since_le_iff (inRange : InRange w.clock) {call : Call}
    (past : call.row.recordedAt ≤ w.clock) :
    stamp (q.since w.clock) ≤ call.row.createdAt ↔ q.since w.clock ≤ call.row.recordedAt := by
  refine stamp_le_stamp_iff ?_ (fourDigitMillis_of_inRange (lt_of_le_of_lt past inRange)).1
  unfold InRange at inRange
  have days : min (q.days.getD 30) 365 ≤ 365 := Nat.min_le_right _ _
  have window : min (q.days.getD 30) 365 * dayMillis ≤ 365 * 86400000 :=
    Nat.mul_le_mul_right dayMillis days
  constructor
  · unfold UsageQuery.since
    omega
  · unfold UsageQuery.since
    omega

theorem usagesOf_usages (attributed : Attributed w) (inRange : InRange w.clock) :
    usagesOf w.usages user (stamp (q.since w.clock)) =
      (storedCalls w user (q.since w.clock)).map Call.row := by
  rw [usagesOf, World.usages, filter_map, storedCalls, callsOf, filter_filter, filter_filter]
  refine congrArg (List.map Call.row) (filter_congr fun call mem => ?_)
  simp only [Function.comp_apply, attributed.owner call mem,
    stamp_since_le_iff inRange (attributed.past call mem), Bool.and_comm]

theorem stored_eq_team_iff {since : ℤ} :
    storedCalls w user since = teamCalls w user since team ↔ OnlyForTeam w user since team := by
  constructor
  · intro same call mem
    have iff : call ∈ storedCalls w user since ↔ call ∈ teamCalls w user since team := by rw [same]
    simpa [storedCalls, teamCalls, mem] using iff
  · intro only
    refine filter_congr fun call mem => Bool.eq_iff_iff.mpr ?_
    rw [decide_eq_true_iff]
    exact only call mem

theorem memberUsage_eq_ok {usages : List UsageRow} {since : String} {user : User}
    {u : TeamUserUsage} (summed : memberUsage usages since user = .ok u) :
    u = ⟨user.id, user.displayName, ((usagesOf usages user.id since).map (·.usage.tokensIn)).sum,
      ((usagesOf usages user.id since).map (·.usage.tokensOut)).sum,
      (usagesOf usages user.id since).length⟩ := by
  obtain ⟨tokensIn, isIn, rest⟩ := bind_eq_ok.mp summed
  obtain ⟨tokensOut, isOut, last⟩ := bind_eq_ok.mp rest
  cases last
  rw [(total_eq_ok isIn).1, (total_eq_ok isOut).1]

theorem statement_eq_ok {α : Type} {fault : Option DbError} {result : Except DbError α} {a : α}
    (ran : statement fault result = .ok a) : result = .ok a := by
  unfold statement at ran
  split at ran
  · cases ran
  · exact mapError_eq_ok.mp ran

theorem usage_eq_ok {reader : UuidReader} {order : RowOrder} {response : TeamUsageResponse}
    (parsed : reader.teamId q.id = some team) (answered : usage reader order w q = .ok response) :
    ∃ rows, listTeamUsage order w.roster w.usages team (stamp (q.since w.clock)) = .ok rows ∧
      response = ⟨team.toString, q.since w.clock, rows.map intoUsageEntry⟩ := by
  obtain ⟨team', isTeam, rest⟩ := bind_eq_ok.mp answered
  obtain ⟨-, -, rest⟩ := bind_eq_ok.mp rest
  obtain ⟨rows, listed, last⟩ := bind_eq_ok.mp rest
  simp only [Members.parseTeam, parsed] at isTeam
  cases isTeam
  cases last
  exact ⟨rows, statement_eq_ok listed, rfl⟩

theorem mem_of_listTeamUsage {order : RowOrder} {usages : List UsageRow} {since : String}
    {rows : List TeamUserUsage} {u : TeamUserUsage}
    (listed : listTeamUsage order roster usages team since = .ok rows) :
    u ∈ rows ↔ ∃ user ∈ members roster team, memberUsage usages since user = .ok u := by
  obtain ⟨unsorted, summed, rfl⟩ := map_eq_ok.mp listed
  rw [(order.perm unsorted).mem_iff, mem_iff_of_mapM_eq_ok summed]

theorem mem_members {row : MembershipRow} {user : User}
    (member : roster.find user.id team = some row) (found : roster.users.find user.id = some user) :
    user ∈ members roster team := by
  obtain ⟨mem, isUser, isTeam⟩ := Roster.find_eq_some.mp member
  refine mem_filterMap.mpr ⟨row, mem_filter.mpr ⟨mem, decide_eq_true isTeam⟩, ?_⟩
  rw [isUser, found]

theorem find_of_mem_members {user : User} (mem : user ∈ members roster team) :
    roster.users.find user.id = some user := by
  obtain ⟨row, -, found⟩ := mem_filterMap.mp mem
  rw [(Table.find_eq_some.mp found).2, found]

end Entries

section Examples

open Members (ann sales twoAdmins)

def agents : GatewayDb where
  agents := [{ id := ⟨uuidOf 10⟩, ownerId := ann, name := "own" },
    { id := ⟨uuidOf 11⟩, ownerId := ann, teamId := some sales, name := "shared" }]
  credentials := [{ id := ⟨uuidOf 12⟩, scope := .user, scopeId := ann.toString
                    provider := "anthropic", apiKeyCiphertext := [104], createdAt := "2026-01-01" }]

def asks (agent : ℕ) : Label Unit :=
  .request
    { agentId := ⟨uuidOf agent⟩
      frame :=
        { requestId := "r", model := "claude", messages := .array []
          options := .object [("provider", .string "anthropic")] }
      ctx :=
        { db := agents, registry := {}, keyring := some obliging.decrypt, reads := obliging.reads
          complete := obliging.complete, write := obliging.write, parseUserId := fun _ => none
          debug := id }
      world := () }

def asListed : RowOrder := ⟨id, fun _ => .refl _⟩

def askedByAnn : UsageQuery := { user := ann, id := sales.toString, days := none }

theorem parsed_sales : UuidReader.hyphenated.teamId askedByAnn.id = some sales :=
  congrArg (Option.map TeamId.mk) (UuidReader.hyphenated.parseStr_toString sales.uuid)

end Examples

end Havn.Gateway.TeamUsage
