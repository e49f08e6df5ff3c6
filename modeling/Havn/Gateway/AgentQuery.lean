import Havn.Lib.Machine
import Havn.Proto.Messages
import Havn.Db.Gateway
import Havn.Gateway.AgentRegistry

/-!
# Queries between agents

An agent may ask another agent of the same owner.  The socket reader spawns `handle_agent_query` for
each `AgentQuery` frame and hands each response to the broker (`agent_socket.rs`); the broker maps
request ids to one-shot senders (`query_broker.rs`); the handler checks, registers, dispatches and
waits.

The labels of the machine say who moves: a frame arrives, a handler runs to its next await
(`Phase`), a timer fires, or the rest of the gateway changes the database or the registry.  The map
holds the only sender of a one-shot channel, so the receiver of `q` is ready when `q` has a reply,
open while the map holds `q`'s sender, and closed otherwise.
-/

namespace Havn.Gateway.AgentQueries

open Havn.Core Db Lib Proto List Function

/-! ## The broker -/

namespace QueryBroker

abbrev Pending := String → Option ℕ

def register (pending : Pending) (requestId : String) (q : ℕ) : Pending :=
  update pending requestId (some q)

def cancel (pending : Pending) (requestId : String) : Pending :=
  update pending requestId none

end QueryBroker

/-! ## The handler -/

def agentQueryMaxTimeoutSecs : ℕ := 300

inductive Outcome where
  | ok
  | error
  | timeout
  deriving DecidableEq

def Outcome.asStr : Outcome → String
  | .ok => "ok"
  | .error => "error"
  | .timeout => "timeout"

structure NewQuery where
  callerAgentId : AgentId
  targetAgentId : AgentId
  callerUserId : UserId
  prompt : String
  outcome : Outcome
  errorMessage : Option String
  includeTranscript : Bool

structure NewAuditEntry where
  teamId : Option TeamId
  userId : UserId
  agentId : AgentId
  action : String
  details : Json

inductive Action where
  | sendResult (result : AgentQueryResult)
  | insertQuery (row : NewQuery)
  | recordAgentAction (user : UserId) (action : String) (details : Json)

/-- Where a handler stands, with the local variables that are live from there on. -/
inductive Phase where
  | lookupCaller
  | lookupTarget (owner : UserId) (target : AgentId)
  | checkConnected (owner : UserId) (target : AgentId)
  | register (owner : UserId) (target : AgentId)
  | dispatch (owner : UserId) (target : AgentId)
  | cancelDispatch (owner : UserId) (target : AgentId) (error : SendError)
  | awaitReply (owner : UserId) (target : AgentId)
  | cancelTimeout (owner : UserId) (target : AgentId)
  | finishing (actions : List Action)

def Phase.actions : Phase → List Action
  | .finishing actions => actions
  | _ => []

def Phase.target? : Phase → Option AgentId
  | .lookupCaller | .finishing _ => none
  | .lookupTarget _ target | .checkConnected _ target | .register _ target
  | .dispatch _ target | .cancelDispatch _ target _ | .awaitReply _ target
  | .cancelTimeout _ target => some target

section Handler

variable (caller : AgentId) (query : AgentQuery) (owner : UserId)

def sendQueryError (message : String) : Action :=
  .sendResult { requestId := query.requestId, outcome := .error message }

def sendQueryTimeout : Action :=
  .sendResult { requestId := query.requestId, outcome := .timeout }

def recordAudit (target : AgentId) (owner : UserId) (outcome : Outcome)
    (errorMessage : Option String) : List Action :=
  [.insertQuery
      { callerAgentId := caller, targetAgentId := target, callerUserId := owner
        prompt := query.prompt, outcome, errorMessage
        includeTranscript := query.includeTranscript },
    .recordAgentAction owner "agent.queried"
      (.object [("target_agent_id", .string target.toString),
        ("outcome", .string outcome.asStr)])]

def auditPreDispatch (targetRaw reason : String) : List Action :=
  [.recordAgentAction owner "agent.queried"
    (.object [("target_agent_id", .string targetRaw), ("outcome", .string "error"),
      ("reason", .string reason)])]

def refuse (target : AgentId) (owner : UserId) (message audited : String) : Phase :=
  .finishing (sendQueryError query message ::
    recordAudit caller query target owner .error (some audited))

/-- Parse the target id and refuse a query to oneself. -/
def afterCaller (parse : String → Except String AgentId) :
    Except DbError (Option Agent) → Phase
  | .ok none => .finishing [sendQueryError query "caller agent not found"]
  | .error e => .finishing [sendQueryError query ("caller lookup failed: " ++ e.display)]
  | .ok (some agent) =>
    match parse query.targetAgentId with
    | .error e =>
      .finishing (sendQueryError query ("invalid target_agent_id: " ++ e) ::
        auditPreDispatch agent.ownerId query.targetAgentId "invalid_target_id")
    | .ok target =>
      if target = caller then
        refuse caller query target agent.ownerId "cannot query self" "self-query refused"
      else .lookupTarget agent.ownerId target

def afterTarget (target : AgentId) : Except DbError (Option Agent) → Phase
  | .ok none => .finishing [sendQueryError query "target agent not found"]
  | .error e => .finishing [sendQueryError query ("target lookup failed: " ++ e.display)]
  | .ok (some agent) =>
    if agent.ownerId ≠ owner then
      refuse caller query target owner "target agent is owned by a different user"
        "cross-owner refused"
    else .checkConnected owner target

def incomingQuery : IncomingQuery where
  requestId := query.requestId
  callerAgentId := caller.toString
  billingUserId := owner.toString
  prompt := query.prompt
  includeTranscript := query.includeTranscript

def auditOutcome : AgentQueryOutcome → Outcome × Option String
  | .ok => (.ok, none)
  | .error message => (.error, some message)
  | .timeout => (.timeout, none)

def resultOf (response : AgentQueryResponse) : AgentQueryResult where
  requestId := response.requestId
  outcome := response.outcome
  text := response.text
  transcript := response.transcript

def afterReply (target : AgentId) (response : AgentQueryResponse) : Phase :=
  .finishing
    (recordAudit caller query target owner (auditOutcome response.outcome).1
        (auditOutcome response.outcome).2 ++
      [.sendResult (resultOf response)])

def afterTimeout (target : AgentId) : Phase :=
  .finishing (sendQueryTimeout query ::
    recordAudit caller query target owner .timeout
      (some (toString (min query.timeoutSeconds agentQueryMaxTimeoutSecs) ++ "s elapsed")))

end Handler

/-! ## The system -/

structure Asked where
  caller : AgentId
  query : AgentQuery

structure Handler extends Asked where
  phase : Phase := .lookupCaller
  reply : Option AgentQueryResponse := none

inductive Effect where
  | received (sender : AgentId) (response : AgentQueryResponse)
  | dispatched (q : ℕ) (target : AgentId) (incoming : IncomingQuery)
  | result (q : ℕ) (recipient : AgentId) (result : AgentQueryResult) (delivered : Bool)
  | queryRow (q : ℕ) (row : NewQuery)
  | auditRow (q : ℕ) (entry : NewAuditEntry)

structure System where
  db : GatewayDb
  registry : AgentRegistry
  auditWritable : Bool := true
  handlers : List Handler := []
  pending : QueryBroker.Pending := fun _ => none
  log : List Effect := []

def System.asked (s : System) : List Asked := s.handlers.map Handler.toAsked

def System.initial (db : GatewayDb) (registry : AgentRegistry) : System where
  db := db
  registry := registry

inductive Label where
  | query (caller : AgentId) (query : AgentQuery)
  | response (sender : AgentId) (response : AgentQueryResponse)
  | run (q : ℕ)
  | timeout (q : ℕ)
  | environment (db : GatewayDb) (registry : AgentRegistry) (auditWritable : Bool)

/-- A failed send or insert is logged and otherwise ignored. -/
def perform (s : System) (q : ℕ) (caller : AgentId) : Action → List Effect
  | .sendResult result =>
    [.result q caller result
      (match s.registry.send caller with | .ok _ => true | .error _ => false)]
  | .insertQuery row => if s.auditWritable then [.queryRow q row] else []
  | .recordAgentAction user action details =>
    let teamId := match Agents.findById s.db caller with
      | .ok (some agent) => agent.teamId
      | _ => none
    if s.auditWritable then
      [.auditRow q { teamId, userId := user, agentId := caller, action, details }]
    else []

structure Turn where
  phase : Phase
  pending : QueryBroker.Pending
  effects : List Effect := []

variable (parse : String → Except String AgentId)

def turn (s : System) (q : ℕ) (h : Handler) : Option Turn :=
  match h.phase with
  | .lookupCaller =>
    some ⟨afterCaller h.caller h.query parse (Agents.findById s.db h.caller), s.pending, []⟩
  | .lookupTarget owner target =>
    some ⟨afterTarget h.caller h.query owner target (Agents.findById s.db target),
      s.pending, []⟩
  | .checkConnected owner target =>
    if s.registry.isConnected target then some ⟨.register owner target, s.pending, []⟩
    else
      some ⟨refuse h.caller h.query target owner "target agent is not running"
        "target not running", s.pending, []⟩
  | .register owner target =>
    some ⟨.dispatch owner target, QueryBroker.register s.pending h.query.requestId q, []⟩
  | .dispatch owner target =>
    match s.registry.send target with
    | .ok _ =>
      some ⟨.awaitReply owner target, s.pending,
        [.dispatched q target (incomingQuery h.caller h.query owner)]⟩
    | .error e => some ⟨.cancelDispatch owner target e, s.pending, []⟩
  | .cancelDispatch owner target e =>
    some ⟨refuse h.caller h.query target owner ("dispatch to target failed: " ++ e.display)
      "dispatch failed", QueryBroker.cancel s.pending h.query.requestId, []⟩
  | .awaitReply owner target =>
    match h.reply with
    | some response =>
      some ⟨afterReply h.caller h.query owner target response, s.pending, []⟩
    | none =>
      if s.pending h.query.requestId = some q then none
      else
        some ⟨refuse h.caller h.query target owner
          "target replied with no payload (sender closed)" "sender closed", s.pending, []⟩
  | .cancelTimeout owner target =>
    some ⟨afterTimeout h.caller h.query owner target,
      QueryBroker.cancel s.pending h.query.requestId, []⟩
  | .finishing [] => none
  | .finishing (action :: actions) =>
    some ⟨.finishing actions, s.pending, perform s q h.caller action⟩

def System.ask (s : System) (caller : AgentId) (query : AgentQuery) : System :=
  { s with handlers := s.handlers ++ [{ caller, query }] }

def System.take (s : System) (q : ℕ) (h : Handler) (t : Turn) : System :=
  { s with
    handlers := s.handlers.set q { h with phase := t.phase }
    pending := t.pending
    log := s.log ++ t.effects }

/-- The broker's `resolve`, which does not look at the sender of the frame. -/
def System.resolve (s : System) (response : AgentQueryResponse) : System :=
  match s.pending response.requestId with
  | none => s
  | some q =>
    { s with
      handlers := s.handlers.modify q fun h => { h with reply := some response }
      pending := QueryBroker.cancel s.pending response.requestId }

def step (s : System) : Label → Option System
  | .query caller query => some (s.ask caller query)
  | .response sender response =>
    some { s.resolve response with log := s.log ++ [.received sender response] }
  | .run q =>
    match s.handlers[q]? with
    | none => none
    | some h => (turn parse s q h).map (s.take q h)
  | .timeout q =>
    match s.handlers[q]? with
    | none => none
    | some h =>
      match h.phase, h.reply with
      -- the timer loses against a channel that is ready
      | .awaitReply owner target, none =>
        if s.pending h.query.requestId = some q then
          some (s.take q h ⟨.cancelTimeout owner target, s.pending, []⟩)
        else none
      | _, _ => none
  | .environment db registry auditWritable => some { s with db, registry, auditWritable }

/-! ## What a step can do -/

variable {caller : AgentId} {owner : UserId} {label : Label} {q' : ℕ}

section Turns

variable {parse : String → Except String AgentId} {s s' : System} {q : ℕ} {h : Handler} {t : Turn}
  {action : Action} {target : AgentId} {query : AgentQuery} {row : Except DbError (Option Agent)}

structure TurnSpec (parse : String → Except String AgentId) (s : System) (q : ℕ) (h : Handler)
    (t : Turn) : Prop where
  /-- It touches the map at its own id only, to put its own slot there or to clear it. -/
  pending : t.pending = s.pending ∨
    ∃ slot, (slot = none ∨ slot = some q) ∧
      t.pending = update s.pending h.query.requestId slot
  target : ∀ target, t.phase.target? = some target →
    h.phase.target? = some target ∨ parse h.query.targetAgentId = .ok target
  dispatched : ∀ q' target incoming, Effect.dispatched q' target incoming ∈ t.effects →
    q' = q ∧ h.phase.target? = some target
  forwards : ∀ result, Action.sendResult result ∈ t.phase.actions → result.outcome = .ok →
    Action.sendResult result ∈ h.phase.actions ∨
      ∃ response, h.reply = some response ∧ result = resultOf response
  results : ∀ q' recipient result delivered,
    Effect.result q' recipient result delivered ∈ t.effects →
      q' = q ∧ recipient = h.caller ∧ Action.sendResult result ∈ h.phase.actions

theorem perform_cases {effect : Effect} (mem : effect ∈ perform s q caller action) :
    (∃ result delivered, action = .sendResult result ∧
        effect = .result q caller result delivered) ∨
      (∃ row, effect = .queryRow q row) ∨ ∃ entry, effect = .auditRow q entry := by
  cases action with
  | sendResult result => exact .inl ⟨result, _, rfl, mem_singleton.mp mem⟩
  | insertQuery row =>
    simp only [perform] at mem
    split at mem
    · exact .inr (.inl ⟨row, mem_singleton.mp mem⟩)
    · exact absurd mem not_mem_nil
  | recordAgentAction =>
    simp only [perform] at mem
    split at mem
    · exact .inr (.inr ⟨_, mem_singleton.mp mem⟩)
    · exact absurd mem not_mem_nil

theorem perform_result {recipient : AgentId} {result : AgentQueryResult}
    {delivered : Bool}
    (mem : Effect.result q' recipient result delivered ∈ perform s q caller action) :
    q' = q ∧ recipient = caller ∧ action = .sendResult result := by
  obtain ⟨_, _, sent, ⟨⟩⟩ | ⟨_, ⟨⟩⟩ | ⟨_, ⟨⟩⟩ := perform_cases mem
  exact ⟨rfl, rfl, sent⟩

theorem perform_dispatched {incoming : IncomingQuery} :
    Effect.dispatched q' target incoming ∉ perform s q caller action := by
  intro mem
  obtain ⟨_, _, _, ⟨⟩⟩ | ⟨_, ⟨⟩⟩ | ⟨_, ⟨⟩⟩ := perform_cases mem

def Phase.Quiet (phase : Phase) : Prop :=
  ∀ result, Action.sendResult result ∈ phase.actions → result.outcome ≠ .ok

theorem Phase.quiet_of_actions_eq_nil {phase : Phase} (idle : phase.actions = []) :
    phase.Quiet := by
  intro result mem
  simp [idle] at mem

theorem Phase.quiet_finishing {failure : AgentQueryResult} {audits : List Action}
    (failed : failure.outcome ≠ .ok) (silent : ∀ result, Action.sendResult result ∉ audits) :
    (Phase.finishing (.sendResult failure :: audits)).Quiet := by
  intro result mem
  rcases mem_cons.mp mem with told | audited
  · cases told
    exact failed
  · exact absurd audited (silent result)

theorem sendResult_notMem_recordAudit {outcome : Outcome}
    {errorMessage : Option String} (result : AgentQueryResult) :
    Action.sendResult result ∉ recordAudit caller query target owner outcome errorMessage := by
  simp [recordAudit]

theorem refuse_quiet {message audited : String} :
    (refuse caller query target owner message audited).Quiet :=
  Phase.quiet_finishing nofun sendResult_notMem_recordAudit

theorem afterCaller_quiet : (afterCaller caller query parse row).Quiet := by
  unfold afterCaller
  split
  · exact Phase.quiet_finishing nofun fun _ => not_mem_nil
  · exact Phase.quiet_finishing nofun fun _ => not_mem_nil
  split
  · exact Phase.quiet_finishing nofun (by simp [auditPreDispatch])
  split
  · exact refuse_quiet
  · exact Phase.quiet_of_actions_eq_nil rfl

theorem afterTarget_quiet : (afterTarget caller query owner target row).Quiet := by
  unfold afterTarget
  split
  · exact Phase.quiet_finishing nofun fun _ => not_mem_nil
  · exact Phase.quiet_finishing nofun fun _ => not_mem_nil
  split
  · exact refuse_quiet
  · exact Phase.quiet_of_actions_eq_nil rfl

theorem afterTimeout_quiet : (afterTimeout caller query owner target).Quiet :=
  Phase.quiet_finishing nofun sendResult_notMem_recordAudit

theorem afterCaller_target
    (holds : (afterCaller caller query parse row).target? = some target) :
    parse query.targetAgentId = .ok target := by
  unfold afterCaller at holds
  split at holds
  · cases holds
  · cases holds
  split at holds
  · cases holds
  rename_i parsed parses
  split at holds
  · cases holds
  · cases holds
    exact parses

theorem afterTarget_target {target' : AgentId}
    (holds : (afterTarget caller query owner target row).target? = some target') :
    target = target' := by
  unfold afterTarget at holds
  split at holds
  · cases holds
  · cases holds
  split at holds
  · cases holds
  · cases holds
    rfl

theorem TurnSpec.of_quiet {phase : Phase} {pending : QueryBroker.Pending}
    (map : pending = s.pending ∨ ∃ slot, (slot = none ∨ slot = some q) ∧
      pending = update s.pending h.query.requestId slot)
    (target : ∀ target, phase.target? = some target →
      h.phase.target? = some target ∨ parse h.query.targetAgentId = .ok target)
    (quiet : phase.Quiet) : TurnSpec parse s q h ⟨phase, pending, []⟩ where
  pending := map
  target := target
  dispatched := by simp
  forwards := fun result mem ok => absurd ok (quiet result mem)
  results := by simp

theorem TurnSpec.of_same_target {phase : Phase} {pending : QueryBroker.Pending}
    (map : pending = s.pending ∨ ∃ slot, (slot = none ∨ slot = some q) ∧
      pending = update s.pending h.query.requestId slot)
    (same : phase.target? = h.phase.target?) (idle : phase.actions = []) :
    TurnSpec parse s q h ⟨phase, pending, []⟩ :=
  .of_quiet map (fun _ holds => .inl (same ▸ holds)) (Phase.quiet_of_actions_eq_nil idle)

/-- **What a turn of a handler can do**, whatever its phase. -/
theorem turn_spec (turned : turn parse s q h = some t) : TurnSpec parse s q h t := by
  obtain ⟨asked, phase, reply⟩ := h
  unfold turn at turned
  split at turned <;> rename_i here <;> cases here
  case h_1 =>
    cases turned
    exact .of_quiet (.inl rfl) (fun _ holds => .inr (afterCaller_target holds))
      afterCaller_quiet
  case h_2 =>
    cases turned
    refine .of_quiet (.inl rfl) (fun _ holds => .inl ?_) afterTarget_quiet
    rw [← afterTarget_target holds]
    rfl
  case h_3 =>
    split at turned <;> cases turned
    · exact .of_same_target (.inl rfl) rfl rfl
    · exact .of_quiet (.inl rfl) nofun refuse_quiet
  case h_4 =>
    cases turned
    exact .of_same_target (.inr ⟨some q, .inr rfl, rfl⟩) rfl rfl
  case h_5 =>
    split at turned <;> cases turned
    · refine ⟨.inl rfl, fun _ => .inl, ?_, nofun, by simp⟩
      intro q' target' incoming mem
      cases mem_singleton.mp mem
      exact ⟨rfl, rfl⟩
    · exact .of_same_target (.inl rfl) rfl rfl
  case h_6 =>
    cases turned
    exact .of_quiet (.inr ⟨none, .inl rfl, rfl⟩) nofun refuse_quiet
  case h_7 =>
    split at turned
    · rename_i response replied
      cases turned
      refine ⟨.inl rfl, nofun, by simp, ?_, by simp⟩
      intro result mem ok
      simp only [afterReply, Phase.actions, recordAudit, mem_append, mem_cons,
        Action.sendResult.injEq, reduceCtorEq, not_mem_nil, or_false, false_or] at mem
      exact .inr ⟨response, replied, mem⟩
    split at turned <;> cases turned
    exact .of_quiet (.inl rfl) nofun refuse_quiet
  case h_8 =>
    cases turned
    exact .of_quiet (.inr ⟨none, .inl rfl, rfl⟩) nofun afterTimeout_quiet
  case h_9 => cases turned
  case h_10 =>
    cases turned
    refine ⟨.inl rfl, nofun, ?_, ?_, ?_⟩
    · intro q' target incoming mem
      exact absurd mem perform_dispatched
    · exact fun result mem _ => .inl (mem_cons_of_mem _ mem)
    · intro q' recipient result delivered mem
      obtain ⟨rfl, rfl, rfl⟩ := perform_result mem
      exact ⟨rfl, rfl, mem_cons_self⟩

theorem timeout_spec (waiting : h.phase = .awaitReply owner target) :
    TurnSpec parse s q h ⟨.cancelTimeout owner target, s.pending, []⟩ :=
  .of_same_target (.inl rfl) (waiting ▸ rfl) rfl

theorem step_run_eq_some (stepped : step parse s (.run q) = some s') :
    ∃ h t, s.handlers[q]? = some h ∧ turn parse s q h = some t ∧ s' = s.take q h t := by
  simp only [step] at stepped
  split at stepped
  · cases stepped
  · rename_i h here
    obtain ⟨t, turned, rfl⟩ := Option.map_eq_some_iff.mp stepped
    exact ⟨h, t, here, turned, rfl⟩

theorem step_timeout_eq_some (stepped : step parse s (.timeout q) = some s') :
    ∃ h owner target, s.handlers[q]? = some h ∧ h.phase = .awaitReply owner target ∧
      s' = s.take q h ⟨.cancelTimeout owner target, s.pending, []⟩ := by
  simp only [step] at stepped
  split at stepped
  · cases stepped
  rename_i h here
  split at stepped
  · rename_i owner target waiting _
    split at stepped
    · cases stepped
      exact ⟨h, owner, target, here, waiting, rfl⟩
    · cases stepped
  · cases stepped

/-- **What a step can do.**  A frame is recorded, a response is resolved, a
handler takes a turn, or the environment moves. -/
inductive StepSpec (parse : String → Except String AgentId) (s : System) : Label → System → Prop
  | query (caller : AgentId) (query : AgentQuery) :
      StepSpec parse s (.query caller query) (s.ask caller query)
  | response (sender : AgentId) (response : AgentQueryResponse) :
      StepSpec parse s (.response sender response)
        { s.resolve response with log := s.log ++ [.received sender response] }
  | turn {q : ℕ} {h : Handler} {t : Turn} {label : Label}
      (mover : label = .run q ∨ label = .timeout q ∧ t.pending = s.pending)
      (here : s.handlers[q]? = some h)
      (spec : TurnSpec parse s q h t) : StepSpec parse s label (s.take q h t)
  | environment (db : GatewayDb) (registry : AgentRegistry) (auditWritable : Bool) :
      StepSpec parse s (.environment db registry auditWritable)
        { s with db, registry, auditWritable }

theorem step_spec (stepped : step parse s label = some s') : StepSpec parse s label s' := by
  cases label with
  | query caller query =>
    cases stepped
    exact .query caller query
  | response sender response =>
    cases stepped
    exact .response sender response
  | run =>
    obtain ⟨h, t, here, turned, rfl⟩ := step_run_eq_some stepped
    exact .turn (.inl rfl) here (turn_spec turned)
  | timeout =>
    obtain ⟨h, owner, target, here, waiting, rfl⟩ := step_timeout_eq_some stepped
    exact .turn (.inr ⟨rfl, rfl⟩) here (timeout_spec waiting)
  | environment db registry auditWritable =>
    cases stepped
    exact .environment db registry auditWritable

end Turns

/-! ## Which queries were asked, and who moves the slots -/

section Bookkeeping

variable {s : System} {q : ℕ} {h : Handler} {response : AgentQueryResponse}

theorem asked_of_handler (here : s.handlers[q]? = some h) : s.asked[q]? = some h.toAsked := by
  rw [System.asked, getElem?_map, here]
  rfl

@[simp]
theorem asked_take (here : s.handlers[q]? = some h) (t : Turn) :
    (s.take q h t).asked = s.asked := by
  refine ext_getElem? fun i => ?_
  simp only [System.asked, System.take, getElem?_map, getElem?_set]
  split
  · rename_i same
    subst same
    obtain ⟨bound, -⟩ := List.getElem?_eq_some_iff.mp here
    rw [if_pos bound, here]
    rfl
  · rfl

@[simp]
theorem asked_resolve (response : AgentQueryResponse) : (s.resolve response).asked = s.asked := by
  unfold System.resolve
  split
  · rfl
  refine ext_getElem? fun i => ?_
  simp only [System.asked, getElem?_map, getElem?_modify]
  cases s.handlers[i]? with
  | none => rfl
  | some =>
    simp only [Option.map_eq_map, Option.map_some]
    split <;> rfl

theorem asked_ask (caller : AgentId) (query : AgentQuery) :
    (s.ask caller query).asked = s.asked ++ [⟨caller, query⟩] := by
  simp [System.asked, System.ask]

theorem asked_ask_of_asked {asked : Asked} (here : s.asked[q]? = some asked) (caller : AgentId)
    (query : AgentQuery) : (s.ask caller query).asked[q]? = some asked := by
  obtain ⟨bound, -⟩ := List.getElem?_eq_some_iff.mp here
  rw [asked_ask, List.getElem?_append_left bound, here]

theorem handler_ask {query : AgentQuery} {h' : Handler}
    (after : (s.ask caller query).handlers[q]? = some h') :
    s.handlers[q]? = some h' ∨ s.handlers[q]? = none ∧ h' = { caller, query } := by
  rcases Nat.lt_or_ge q s.handlers.length with before | fresh
  · rw [System.ask, List.getElem?_append_left before] at after
    exact .inl after
  · rw [System.ask, getElem?_append_right fresh] at after
    exact .inr ⟨getElem?_eq_none fresh,
      mem_singleton.mp (mem_of_getElem? after)⟩

theorem handler_take {t : Turn} {h' : Handler} (after : (s.take q h t).handlers[q']? = some h') :
    (q' = q ∧ h' = { h with phase := t.phase }) ∨ s.handlers[q']? = some h' := by
  simp only [System.take, getElem?_set] at after
  split at after
  · rename_i same
    split at after
    · cases after
      exact .inl ⟨same.symm, rfl⟩
    · cases after
  · exact .inr after

theorem handler_resolve {h' : Handler}
    (after : (s.resolve response).handlers[q]? = some h') :
    s.handlers[q]? = some h' ∨
      ∃ h, s.handlers[q]? = some h ∧ s.pending response.requestId = some q ∧
        h' = { h with reply := some response } := by
  unfold System.resolve at after
  split at after
  · exact .inl after
  rename_i q' slot
  simp only [getElem?_modify, Option.map_eq_map, Option.map_eq_some_iff] at after
  obtain ⟨h, here, changed⟩ := after
  split at changed
  · rename_i same
    subst same
    exact .inr ⟨h, here, slot, changed.symm⟩
  · exact .inl (changed ▸ here)

theorem slot_take {parse : String → Except String AgentId} {t : Turn} {id : String}
    (spec : TurnSpec parse s q h t) (slot : (s.take q h t).pending id = some q') :
    s.pending id = some q' ∨ q' = q ∧ h.query.requestId = id := by
  have slot : t.pending id = some q' := slot
  rcases spec.pending with same | ⟨value, own, changed⟩
  · exact .inl (same ▸ slot)
  rw [changed, update_apply] at slot
  split at slot
  · rename_i atId
    obtain rfl | rfl := own
    · cases slot
    · cases slot
      exact .inr ⟨rfl, atId.symm⟩
  · exact .inl slot

theorem slot_resolve {id : String}
    (slot : (s.resolve response).pending id = some q) : s.pending id = some q := by
  simp only [System.resolve] at slot
  split at slot
  · exact slot
  · simp only [QueryBroker.cancel, update_apply] at slot
    split at slot
    · cases slot
    · exact slot

end Bookkeeping

/-! ## Results carry the target's own answer

The broker matches a response by its request id alone.  The match is right if callers choose ids
nobody has used, and an agent answers only what it was asked.
-/

section Correlation

variable (parse : String → Except String AgentId)

/-- `response` was sent by the target of `q`, under the id of `q`, after `q` had been dispatched to
it. -/
def Answered (log : List Effect) (q : ℕ) (query : AgentQuery) (response : AgentQueryResponse) :
    Prop :=
  ∃ target incoming before between after, parse query.targetAgentId = .ok target ∧
    response.requestId = query.requestId ∧
    log = before ++ .dispatched q target incoming ::
      (between ++ .received target response :: after)

variable (s : System)

/-- **Every success a caller sees is its target's**: what was sent for query `q` went to the agent
that asked and forwards a response of `q`'s target to `q`. -/
def ResultsCorrelated : Prop :=
  ∀ q recipient result delivered, Effect.result q recipient result delivered ∈ s.log →
    result.outcome = .ok →
      ∃ asked response, s.asked[q]? = some asked ∧ recipient = asked.caller ∧
        Answered parse s.log q asked.query response ∧ result = resultOf response

/-- **A slot is left to its owner and its target**: only a turn of `q`'s handler or a response of
its target takes the slot of `q` away. -/
def SlotsKept (label : Label) (s' : System) : Prop :=
  ∀ id q, s.pending id = some q → s'.pending id ≠ some q →
    label = .run q ∨
      ∃ asked target response, s.asked[q]? = some asked ∧
        parse asked.query.targetAgentId = .ok target ∧ label = .response target response

/-- Callers pick fresh request ids, and a response comes from the agent the query was dispatched
to. -/
def Disciplined : Label → Prop
  | .query _ query => query.requestId ∉ s.asked.map (·.query.requestId)
  | .response sender response =>
    ∀ q asked, s.asked[q]? = some asked → asked.query.requestId = response.requestId →
      ∃ incoming, Effect.dispatched q sender incoming ∈ s.log
  | _ => True

/-- Its target is the one that was asked for; its reply and its successes are its target's. -/
structure HandlerTraced (log : List Effect) (q : ℕ) (h : Handler) : Prop where
  target : ∀ target, h.phase.target? = some target → parse h.query.targetAgentId = .ok target
  reply : ∀ response, h.reply = some response → Answered parse log q h.query response
  forwards : ∀ result, Action.sendResult result ∈ h.phase.actions → result.outcome = .ok →
    ∃ response, Answered parse log q h.query response ∧ result = resultOf response

structure Traced : Prop where
  fresh : (s.asked.map (·.query.requestId)).Nodup
  owned : ∀ id q, s.pending id = some q →
    ∃ asked, s.asked[q]? = some asked ∧ asked.query.requestId = id
  handlers : ∀ q h, s.handlers[q]? = some h → HandlerTraced parse s.log q h
  dispatched : ∀ q target incoming, Effect.dispatched q target incoming ∈ s.log →
    ∃ asked, s.asked[q]? = some asked ∧ parse asked.query.targetAgentId = .ok target
  results : ResultsCorrelated parse s

variable {parse} {s s' : System} {q q' : ℕ}

theorem Answered.append {log : List Effect} {query : AgentQuery} {response : AgentQueryResponse}
    (answered : Answered parse log q query response) (later : List Effect) :
    Answered parse (log ++ later) q query response := by
  obtain ⟨target, incoming, before, between, after, parses, same, rfl⟩ := answered
  refine ⟨target, incoming, before, between, after ++ later, parses, same, ?_⟩
  simp only [append_assoc, cons_append]

theorem HandlerTraced.append {log : List Effect} {h : Handler}
    (traced : HandlerTraced parse log q h) (later : List Effect) :
    HandlerTraced parse (log ++ later) q h where
  target := traced.target
  reply response replied := (traced.reply response replied).append later
  forwards result mem ok := by
    obtain ⟨response, answered, forwarded⟩ := traced.forwards result mem ok
    exact ⟨response, answered.append later, forwarded⟩

theorem Traced.eq_of_requestId {asked asked' : Asked} (traced : Traced parse s)
    (here : s.asked[q]? = some asked) (there : s.asked[q']? = some asked')
    (same : asked.query.requestId = asked'.query.requestId) : q = q' := by
  obtain ⟨bound, -⟩ := List.getElem?_eq_some_iff.mp here
  refine (List.getElem?_inj (by simpa using bound) traced.fresh).mp ?_
  rw [getElem?_map, getElem?_map, here, there, Option.map_some, Option.map_some, same]

theorem Traced.answered_of_response {sender : AgentId} {response : AgentQueryResponse}
    {asked : Asked} (traced : Traced parse s)
    (disciplined : Disciplined s (.response sender response))
    (slot : s.pending response.requestId = some q) (here : s.asked[q]? = some asked) :
    parse asked.query.targetAgentId = .ok sender ∧
      Answered parse (s.log ++ [.received sender response]) q asked.query response := by
  obtain ⟨asked', there, sameId⟩ := traced.owned _ _ slot
  cases here.symm.trans there
  obtain ⟨incoming, mem⟩ := disciplined q asked here sameId
  obtain ⟨asked', there, parses⟩ := traced.dispatched q sender incoming mem
  cases here.symm.trans there
  obtain ⟨before, between, split⟩ := append_of_mem mem
  refine ⟨parses, sender, incoming, before, between, [], parses, sameId.symm, ?_⟩
  rw [split, append_assoc, cons_append]

theorem ResultsCorrelated.append {later : List Effect} (correlated : ResultsCorrelated parse s)
    (asked : s'.asked = s.asked) (log : s'.log = s.log ++ later)
    (silent : ∀ q recipient result delivered, Effect.result q recipient result delivered ∉ later) :
    ResultsCorrelated parse s' := by
  intro q recipient result delivered mem ok
  rw [log] at mem
  rcases mem_append.mp mem with earlier | now
  · obtain ⟨asker, response, here, isCaller, answered, forwarded⟩ :=
      correlated q recipient result delivered earlier ok
    exact ⟨asker, response, asked ▸ here, isCaller, log ▸ answered.append later, forwarded⟩
  · exact absurd now (silent q recipient result delivered)

theorem Traced.query (traced : Traced parse s) (caller : AgentId) (query : AgentQuery)
    (fresh : query.requestId ∉ s.asked.map (·.query.requestId)) :
    Traced parse (s.ask caller query) := by
  constructor
  · rw [asked_ask, map_append, nodup_append]
    refine ⟨traced.fresh, by simp, fun id mem id' mem' same => ?_⟩
    simp only [map_cons, map_nil, mem_singleton] at mem'
    exact fresh (mem' ▸ same ▸ mem)
  · intro id q slot
    obtain ⟨asker, here, same⟩ := traced.owned id q slot
    exact ⟨asker, asked_ask_of_asked here caller query, same⟩
  · intro q h here
    rcases handler_ask here with before | ⟨-, rfl⟩
    · exact traced.handlers q h before
    · exact ⟨nofun, nofun, by simp [Phase.actions]⟩
  · intro q target incoming mem
    obtain ⟨asker, here, parses⟩ := traced.dispatched q target incoming mem
    exact ⟨asker, asked_ask_of_asked here caller query, parses⟩
  · intro q recipient result delivered mem ok
    obtain ⟨asker, response, here, rest⟩ := traced.results q recipient result delivered mem ok
    exact ⟨asker, response, asked_ask_of_asked here caller query, rest⟩

theorem Traced.response (traced : Traced parse s) (sender : AgentId)
    (response : AgentQueryResponse) (disciplined : Disciplined s (.response sender response)) :
    Traced parse { s.resolve response with log := s.log ++ [.received sender response] } := by
  have asked : System.asked
      { s.resolve response with log := s.log ++ [.received sender response] } = s.asked :=
    asked_resolve response
  constructor
  · rw [asked]
    exact traced.fresh
  · intro id q slot
    rw [asked]
    exact traced.owned id q (slot_resolve slot)
  · intro q h' here
    rcases handler_resolve here with unchanged | ⟨h, before, slot, rfl⟩
    · exact (traced.handlers q h' unchanged).append _
    · have known := (traced.handlers q h before).append [.received sender response]
      refine ⟨known.target, ?_, known.forwards⟩
      rintro _ ⟨⟩
      exact (traced.answered_of_response disciplined slot (asked_of_handler before)).2
  · intro q target incoming mem
    rw [asked]
    refine traced.dispatched q target incoming ?_
    simpa using mem
  · exact traced.results.append asked rfl (by simp)

theorem Traced.turn {h : Handler} {t : Turn} (traced : Traced parse s)
    (here : s.handlers[q]? = some h) (spec : TurnSpec parse s q h t) :
    Traced parse (s.take q h t) := by
  have asked : (s.take q h t).asked = s.asked := asked_take here t
  have known := traced.handlers q h here
  have isAsked := asked_of_handler here
  constructor
  · rw [asked]
    exact traced.fresh
  · intro id q' slot
    rw [asked]
    rcases slot_take spec slot with before | ⟨rfl, sameId⟩
    · exact traced.owned id q' before
    · exact ⟨h.toAsked, isAsked, sameId⟩
  · intro q' h' after
    rcases handler_take after with ⟨rfl, rfl⟩ | unchanged
    · refine ⟨fun target holds => ?_, (known.append t.effects).reply, fun result mem ok => ?_⟩
      · rcases spec.target target holds with before | parses
        · exact known.target target before
        · exact parses
      · rcases spec.forwards result mem ok with before | ⟨response, replied, forwarded⟩
        · exact (known.append t.effects).forwards result before ok
        · exact ⟨response, (known.reply response replied).append _, forwarded⟩
    · exact (traced.handlers q' h' unchanged).append _
  · intro q' target incoming mem
    rw [asked]
    rcases mem_append.mp mem with earlier | now
    · exact traced.dispatched q' target incoming earlier
    · obtain ⟨rfl, holds⟩ := spec.dispatched q' target incoming now
      exact ⟨h.toAsked, isAsked, known.target target holds⟩
  · intro q' recipient result delivered mem ok
    rw [asked]
    rcases mem_append.mp mem with earlier | now
    · obtain ⟨asker, response, isAsker, isCaller, answered, forwarded⟩ :=
        traced.results q' recipient result delivered earlier ok
      exact ⟨asker, response, isAsker, isCaller, answered.append _, forwarded⟩
    · obtain ⟨rfl, rfl, sent⟩ := spec.results q' recipient result delivered now
      obtain ⟨response, answered, forwarded⟩ := known.forwards result sent ok
      exact ⟨h.toAsked, response, isAsked, rfl, answered.append _, forwarded⟩

theorem Traced.step (traced : Traced parse s) (disciplined : Disciplined s label)
    (stepped : step parse s label = some s') : Traced parse s' := by
  cases step_spec stepped with
  | query caller query => exact traced.query caller query disciplined
  | response sender response => exact traced.response sender response disciplined
  | turn mover here spec => exact traced.turn here spec
  | environment =>
    exact ⟨traced.fresh, traced.owned, traced.handlers, traced.dispatched, traced.results⟩

theorem Traced.slotsKept (traced : Traced parse s) (disciplined : Disciplined s label)
    (stepped : AgentQueries.step parse s label = some s') : SlotsKept parse s label s' := by
  intro id q slot gone
  obtain ⟨asked, here, sameId⟩ := traced.owned id q slot
  cases step_spec stepped with
  | query | environment => exact absurd slot gone
  | response sender response =>
    by_cases atId : id = response.requestId
    · subst atId
      have toSender := (traced.answered_of_response disciplined slot here).1
      exact .inr ⟨asked, sender, response, here, toSender, rfl⟩
    · refine absurd ?_ gone
      simp only [System.resolve]
      split
      · exact slot
      · simpa only [QueryBroker.cancel, update_of_ne atId] using slot
  | @turn q' h t _ mover isHandler spec =>
    have after : (s.take q' h t).pending = t.pending := rfl
    rw [after] at gone
    rcases spec.pending with same | ⟨value, -, changed⟩
    · exact absurd (same ▸ slot) gone
    by_cases atId : id = h.query.requestId
    · -- the map changed at the mover's id, which is the id of `q`
      have sameQuery : q = q' :=
        traced.eq_of_requestId here (asked_of_handler isHandler) (sameId.trans atId)
      subst sameQuery
      rcases mover with rfl | ⟨-, same⟩
      · exact .inl rfl
      · exact absurd (same ▸ slot) gone
    · refine absurd ?_ gone
      rw [changed, update_of_ne atId]
      exact slot

end Correlation

/-- **Disciplined agents get what they asked for**: each success is the answer of the query's own
target, and nobody else can consume or cancel a slot. -/
theorem disciplined_correlated (db : GatewayDb) (registry : AgentRegistry) {labels : List Label}
    {s : System} (run : Run (step parse) Disciplined (.initial db registry) labels s) :
    ResultsCorrelated parse s ∧
      ∀ label s', Disciplined s label → step parse s label = some s' →
        SlotsKept parse s label s' := by
  have initial : Traced parse (.initial db registry) := by
    refine ⟨nodup_nil, nofun, ?_, ?_, ?_⟩
    · simp [System.initial]
    · simp [System.initial]
    · simp [ResultsCorrelated, System.initial]
  have traced := run.invariant (fun _ _ _ known ok next => known.step ok next) initial
  exact ⟨traced.results, fun label s' ok next => traced.slotsKept ok next⟩

/-! ## Two owners

Agents 1 and 2 belong to one user, agents 3 and 4 to another; all four are
connected.
-/

def agentOf (n : ℕ) : AgentId := ⟨uuidOf n⟩

def twoOwnersDb : GatewayDb where
  agents :=
    [{ id := agentOf 1, ownerId := ⟨uuidOf 10⟩, name := "asker" },
      { id := agentOf 2, ownerId := ⟨uuidOf 10⟩, name := "helper" },
      { id := agentOf 3, ownerId := ⟨uuidOf 11⟩, name := "stranger" },
      { id := agentOf 4, ownerId := ⟨uuidOf 11⟩, name := "accomplice" }]

def allConnected : AgentRegistry where
  inner agent := some { handle := { agentId := agent, pid := 1 }, tx := some { connection := 1 } }

def parseTargets (text : String) : Except String AgentId :=
  if text = "00000000-0000-0000-0000-000000000002" then .ok (agentOf 2)
  else if text = "00000000-0000-0000-0000-000000000004" then .ok (agentOf 4)
  else .error "invalid id"

def askHelper : AgentQuery where
  requestId := "q-1"
  targetAgentId := "00000000-0000-0000-0000-000000000002"
  prompt := "how many?"

def answeredBy (sender : AgentId) (text : String) : List Label :=
  [.query (agentOf 1) askHelper, .run 0, .run 0, .run 0, .run 0, .run 0,
    .response sender { requestId := "q-1", outcome := .ok, text },
    .run 0, .run 0, .run 0, .run 0]

theorem helper_answer_correlated :
    ∃ s, Run (step parseTargets) Disciplined (.initial twoOwnersDb allConnected)
        (answeredBy (agentOf 2) "seven") s ∧
      .result 0 (agentOf 1) { requestId := "q-1", outcome := .ok, text := "seven" } true ∈ s.log ∧
      ResultsCorrelated parseTargets s := by
  have run : ∃ s, Run (step parseTargets) Disciplined (.initial twoOwnersDb allConnected)
        (answeredBy (agentOf 2) "seven") s ∧
      .result 0 (agentOf 1) { requestId := "q-1", outcome := .ok, text := "seven" } true ∈
        s.log := by
    refine ⟨_, .cons (by simp [Disciplined, System.asked, System.initial]) rfl <|
      .cons trivial rfl <| .cons trivial rfl <| .cons trivial rfl <| .cons trivial rfl <|
      .cons trivial rfl <| .cons ?_ rfl <|
      .cons trivial rfl <| .cons trivial rfl <| .cons trivial rfl <| .cons trivial rfl <|
      .nil _, ?_⟩
    · rintro (_ | q) asked here _
      · exact ⟨incomingQuery (agentOf 1) askHelper ⟨uuidOf 10⟩, .head _⟩
      · cases here
    · exact .tail _ (.tail _ (.tail _ (.tail _ (.head _))))
  obtain ⟨s, run, delivered⟩ := run
  exact ⟨s, run, delivered, (disciplined_correlated parseTargets twoOwnersDb allConnected run).1⟩

/-- **Without the discipline a stranger answers**: agent 3, of another owner, responds under agent
1's id; and by asking agent 4 under that id it takes the slot away. -/
theorem stranger_not_correlated :
    (∃ s, Run (step parseTargets) anyStep (.initial twoOwnersDb allConnected)
        (answeredBy (agentOf 3) "forged") s ∧ ¬ ResultsCorrelated parseTargets s) ∧
    (∃ labels s s', Run (step parseTargets) anyStep (.initial twoOwnersDb allConnected) labels s ∧
      step parseTargets s (.run 1) = some s' ∧ ¬ SlotsKept parseTargets s (.run 1) s') := by
  constructor
  · refine ⟨_, run_of_exec rfl, fun correlated => ?_⟩
    obtain ⟨asked, response, here, -, answered, -⟩ :=
      correlated 0 (agentOf 1) { requestId := "q-1", outcome := .ok, text := "forged" } true
        (.tail _ (.tail _ (.tail _ (.tail _ (.head _))))) rfl
    obtain rfl : ⟨agentOf 1, askHelper⟩ = asked := Option.some.inj here
    obtain ⟨target, incoming, before, between, after, parses, -, log⟩ := answered
    obtain rfl : agentOf 2 = target := Except.ok.inj parses
    have received : Effect.received (agentOf 2) response ∈
        before ++ .dispatched 0 (agentOf 2) incoming ::
          (between ++ .received (agentOf 2) response :: after) := by simp
    rw [← log] at received
    -- the only response frame of the run is the stranger's
    rcases received with _ | ⟨_, _ | ⟨_, _ | ⟨_, _ | ⟨_, _ | ⟨_, ended⟩⟩⟩⟩⟩
    cases ended
  · refine ⟨[.query (agentOf 1) askHelper, .run 0, .run 0, .run 0, .run 0, .run 0,
        .query (agentOf 3)
          { askHelper with targetAgentId := "00000000-0000-0000-0000-000000000004" },
        .run 1, .run 1, .run 1], _, _, run_of_exec rfl, rfl, fun kept => ?_⟩
    rcases kept "q-1" 0 rfl (by decide) with own | ⟨_, _, _, _, _, response⟩
    · cases own
    · cases response

end Havn.Gateway.AgentQueries
