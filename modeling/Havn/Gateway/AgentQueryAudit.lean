import Havn.Gateway.AgentQuery

/-!
# A query is answered once, and audited

`handle_agent_query` returns at a dozen places, where the caller's result and the audit rows are
paired by hand.

What a handler has sent and what it still owes always add up to one result, under the id of its own
query: a slot is only ever filed under the id of the query it belongs to (`Booked.slots`).  It has
at most ten turns, and one can be taken as long as it has not returned.

When the target's row is not there, or a lookup fails, the handler returns without an audit row.
`Handler.served` says of one turn that this does not happen in it, and that its inserts succeed.
-/

namespace Havn.Gateway.AgentQueries

open Havn.Core Db Lib Proto List

/-! ## What has been sent and written -/

/-- A result that was sent for query `q`: to whom, and under which id.  A failed send counts. -/
def Effect.resultFor (q : ℕ) : Effect → Option (AgentId × String)
  | .result q' recipient sent _ => if q' = q then some (recipient, sent.requestId) else none
  | _ => none

def resultsFor (q : ℕ) (log : List Effect) : List (AgentId × String) :=
  log.filterMap (Effect.resultFor q)

def Effect.auditFor (q : ℕ) : Effect → Bool
  | .queryRow q' _ | .auditRow q' _ => q' = q
  | _ => false

def Audited (q : ℕ) (log : List Effect) : Prop :=
  ∃ effect ∈ log, effect.auditFor q = true

/-! ## What a handler still owes -/

def Action.resultId : Action → Option String
  | .sendResult result => some result.requestId
  | _ => none

def Action.audits : Action → Bool
  | .sendResult _ => false
  | _ => true

/-- The ids of the results still to come: the query's own, and then those in the list of actions. -/
def Phase.due (query : AgentQuery) : Phase → List String
  | .finishing actions => actions.filterMap Action.resultId
  | _ => [query.requestId]

def Phase.AuditDue : Phase → Prop
  | .finishing actions => ∃ action ∈ actions, action.audits = true
  | _ => True

def Phase.work : Phase → ℕ
  | .lookupCaller => 10
  | .lookupTarget .. => 9
  | .checkConnected .. => 8
  | .register .. => 7
  | .dispatch .. => 6
  | .awaitReply .. => 5
  | .cancelDispatch .. | .cancelTimeout .. => 4
  | .finishing actions => actions.length

/-- Every row names the owner that `ownerOf` gives the agent, which no statement changes. -/
def Owned (ownerOf : AgentId → UserId) (db : GatewayDb) : Prop :=
  ∀ id agent, Agents.findById db id = .ok (some agent) → agent.ownerId = ownerOf id

def Phase.Vetted (ownerOf : AgentId → UserId) (caller : AgentId) : Phase → Prop
  | .lookupCaller | .finishing _ => True
  | .lookupTarget owner _ => owner = ownerOf caller
  | .checkConnected owner target | .register owner target | .dispatch owner target
  | .cancelDispatch owner target _ | .awaitReply owner target | .cancelTimeout owner target =>
    owner = ownerOf caller ∧ ownerOf target = owner

def found : Except DbError (Option Agent) → Bool
  | .ok (some _) => true
  | _ => false

def Handler.served (h : Handler) (s : System) : Bool :=
  match h.phase with
  | .lookupCaller => found (Agents.findById s.db h.caller)
  | .lookupTarget _ target => found (Agents.findById s.db target)
  | .finishing (action :: _) => s.auditWritable || !action.audits
  | _ => true

def Handler.Matched (h : Handler) : Prop :=
  ∀ response, h.reply = some response → response.requestId = h.query.requestId

variable {pending : QueryBroker.Pending} {owner : UserId} {target : AgentId}

section Turns

variable {parse : String → Except String AgentId} {s s' : System} {q q' : ℕ} {h : Handler}
  {t : Turn} {asked : Asked} {reply : Option AgentQueryResponse}

structure Advance (s : System) (q : ℕ) (h : Handler) (t : Turn) : Prop where
  work : t.phase.work < h.phase.work
  results : h.Matched →
    resultsFor q t.effects ++ (t.phase.due h.query).map (Prod.mk h.caller) =
      (h.phase.due h.query).map (Prod.mk h.caller)
  audit : h.served s = true → h.phase.AuditDue → t.phase.AuditDue ∨ Audited q t.effects
  other : (∀ target, h.phase.target? = some target → target ≠ h.caller) →
    ∀ target, t.phase.target? = some target → target ≠ h.caller
  vetted : ∀ ownerOf, Owned ownerOf s.db → h.phase.Vetted ownerOf h.caller →
    t.phase.Vetted ownerOf h.caller
  dispatched : ∀ q' target incoming, Effect.dispatched q' target incoming ∈ t.effects →
    s.registry.send target = .ok () ∧ ∃ owner, h.phase = .dispatch owner target

theorem Advance.of_open {phase : Phase} (before : h.phase.due h.query = [h.query.requestId])
    (after : phase.due h.query = [h.query.requestId]) (auditDue : phase.AuditDue)
    (work : phase.work < h.phase.work)
    (other : (∀ target, h.phase.target? = some target → target ≠ h.caller) →
      ∀ target, phase.target? = some target → target ≠ h.caller)
    (vetted : ∀ ownerOf, Owned ownerOf s.db → h.phase.Vetted ownerOf h.caller →
      phase.Vetted ownerOf h.caller) : Advance s q h ⟨phase, pending, []⟩ where
  work := work
  results _ := by rw [before, after]; rfl
  audit _ _ := .inl auditDue
  other := other
  vetted := vetted
  dispatched := nofun

theorem Advance.of_decided {actions : List Action}
    (before : h.phase.due h.query = [h.query.requestId])
    (one : h.Matched → actions.filterMap Action.resultId = [h.query.requestId])
    (audit : h.served s = true → ∃ action ∈ actions, action.audits = true)
    (work : actions.length < h.phase.work) : Advance s q h ⟨.finishing actions, pending, []⟩ where
  work := work
  results matched := by
    rw [before]
    exact congrArg (List.map (Prod.mk h.caller)) (one matched)
  audit served _ := .inl (audit served)
  other := nofun
  vetted _ _ _ := trivial
  dispatched := nofun

theorem Advance.of_refuse {message audited : String}
    (before : h.phase.due h.query = [h.query.requestId]) (work : 3 < h.phase.work) :
    Advance s q h ⟨refuse h.caller h.query target owner message audited, pending, []⟩ :=
  .of_decided before (fun _ => rfl) (fun _ => ⟨_, .tail _ (.head _), rfl⟩) work

theorem advance_afterCaller : Advance s q ⟨asked, .lookupCaller, reply⟩
    ⟨afterCaller asked.caller asked.query parse (Agents.findById s.db asked.caller),
      s.pending, []⟩ := by
  cases looked : Agents.findById s.db asked.caller with
  | error =>
    exact .of_decided rfl (fun _ => rfl) (by simp [Handler.served, looked, found])
        (by simp [Phase.work])
  | ok row =>
    cases row with
    | none =>
      exact .of_decided rfl (fun _ => rfl) (by simp [Handler.served, looked, found])
        (by simp [Phase.work])
    | some agent =>
      dsimp only [afterCaller]
      split
      · exact .of_decided rfl (fun _ => rfl) (fun _ => ⟨_, .tail _ (.head _), rfl⟩)
          (by simp [Phase.work, auditPreDispatch])
      split
      · exact .of_refuse rfl (by simp [Phase.work])
      rename_i target _ other
      refine .of_open rfl rfl trivial (by simp [Phase.work]) ?_ fun _ owned _ => owned _ _ looked
      rintro - _ ⟨⟩
      exact other

theorem advance_afterTarget : Advance s q ⟨asked, .lookupTarget owner target, reply⟩
    ⟨afterTarget asked.caller asked.query owner target (Agents.findById s.db target),
      s.pending, []⟩ := by
  cases looked : Agents.findById s.db target with
  | error =>
    exact .of_decided rfl (fun _ => rfl) (by simp [Handler.served, looked, found])
        (by simp [Phase.work])
  | ok row =>
    cases row with
    | none =>
      exact .of_decided rfl (fun _ => rfl) (by simp [Handler.served, looked, found])
        (by simp [Phase.work])
    | some agent =>
      dsimp only [afterTarget]
      split
      · exact .of_refuse rfl (by simp [Phase.work])
      rename_i same
      refine .of_open rfl rfl trivial (by simp [Phase.work]) id fun ownerOf owned known => ?_
      exact ⟨known, (owned _ _ looked).symm.trans (not_not.mp same)⟩

theorem resultsFor_perform (s : System) (q : ℕ) (caller : AgentId) (action : Action) :
    resultsFor q (perform s q caller action) = action.resultId.toList.map (Prod.mk caller) := by
  cases action with
  | sendResult => simp [resultsFor, perform, Effect.resultFor, Action.resultId]
  | insertQuery | recordAgentAction =>
    simp only [resultsFor, perform]
    split <;> rfl

theorem advance_perform {action : Action} {actions : List Action} :
    Advance s q ⟨asked, .finishing (action :: actions), reply⟩
      ⟨.finishing actions, s.pending, perform s q asked.caller action⟩ where
  work := Nat.lt_succ_self _
  results _ := by
    rw [resultsFor_perform]
    cases action <;> rfl
  audit served due := by
    obtain ⟨audit, mem, audits⟩ := due
    rcases mem_cons.mp mem with rfl | later
    · -- the row is written in this turn
      have writable : s.auditWritable = true := by simpa [Handler.served, audits] using served
      refine .inr ?_
      cases audit with
      | sendResult => cases audits
      | insertQuery | recordAgentAction => simp [Audited, perform, writable, Effect.auditFor]
    · exact .inl ⟨audit, later, audits⟩
  other := nofun
  vetted _ _ _ := trivial
  dispatched _ _ _ mem := absurd mem perform_dispatched

/-- **The books of every turn balance.** -/
theorem turn_advance (turned : turn parse s q h = some t) : Advance s q h t := by
  obtain ⟨asked, phase, reply⟩ := h
  unfold turn at turned
  split at turned <;> rename_i here <;> cases here
  case h_1 =>
    cases turned
    exact advance_afterCaller
  case h_2 =>
    cases turned
    exact advance_afterTarget
  case h_3 =>
    split at turned <;> cases turned
    · exact .of_open rfl rfl trivial (by simp [Phase.work]) id fun _ _ => id
    · exact .of_refuse rfl (by simp [Phase.work])
  case h_4 =>
    cases turned
    exact .of_open rfl rfl trivial (by simp [Phase.work]) id fun _ _ => id
  case h_5 owner target =>
    split at turned <;> cases turned
    · rename_i sent
      refine ⟨by simp [Phase.work], fun _ => rfl, fun _ _ => .inl trivial, id, fun _ _ => id, ?_⟩
      intro q' target' incoming mem
      cases mem_singleton.mp mem
      exact ⟨sent, owner, rfl⟩
    · exact .of_open rfl rfl trivial (by simp [Phase.work]) id fun _ _ => id
  case h_6 =>
    cases turned
    exact .of_refuse rfl (by simp [Phase.work])
  case h_7 =>
    split at turned
    · rename_i response replied
      cases turned
      refine .of_decided rfl (fun matched => ?_) (fun _ => ⟨_, .head _, rfl⟩)
        (by simp [Phase.work, recordAudit])
      exact congrArg (· :: []) (matched response replied)
    split at turned <;> cases turned
    exact .of_refuse rfl (by simp [Phase.work])
  case h_8 =>
    cases turned
    exact .of_decided rfl (fun _ => rfl) (fun _ => ⟨_, .tail _ (.head _), rfl⟩)
      (by simp [Phase.work, recordAudit])
  case h_9 => cases turned
  case h_10 =>
    cases turned
    exact advance_perform

theorem timeout_advance (phase : h.phase = .awaitReply owner target) :
    Advance s q h ⟨.cancelTimeout owner target, s.pending, []⟩ := by
  obtain ⟨asked, _, reply⟩ := h
  cases phase
  exact .of_open rfl rfl trivial (by simp [Phase.work]) id fun _ _ => id

end Turns

/-! ## A handler across one step -/

def Label.mover : Label → Option ℕ
  | .run q | .timeout q => some q
  | _ => none

def Label.frame : Label → Option Asked
  | .query caller asks => some ⟨caller, asks⟩
  | _ => none

/-- No handler moves: a new one may start, and one may find a reply in its channel. -/
structure Idle (s s' : System) : Prop where
  handlers : ∀ q h', s'.handlers[q]? = some h' →
    s.handlers[q]? = none ∧ h'.phase = .lookupCaller ∧ h'.reply = none ∨
      ∃ h, s.handlers[q]? = some h ∧ h'.toAsked = h.toAsked ∧ h'.phase = h.phase ∧
        (h'.reply = h.reply ∨
          ∃ response, h'.reply = some response ∧ s.pending response.requestId = some q)
  asked : ∀ (q : ℕ) asked, s.asked[q]? = some asked → s'.asked[q]? = some asked
  pending : ∀ id q, s'.pending id = some q → s.pending id = some q
  log : ∃ later, s'.log = s.log ++ later ∧
    ∀ effect ∈ later, ∃ sender response, effect = Effect.received sender response

variable {registry : AgentRegistry} {labels : List Label}

section Steps

variable {parse : String → Except String AgentId} {s s' : System} {q q' : ℕ} {h : Handler}
  {t : Turn} {label : Label}

theorem take_self (here : s.handlers[q]? = some h) :
    (s.take q h t).handlers[q]? = some { h with phase := t.phase } := by
  obtain ⟨bound, -⟩ := List.getElem?_eq_some_iff.mp here
  simp only [System.take]
  rw [getElem?_set_self bound]

theorem take_of_ne (other : q' ≠ q) : (s.take q h t).handlers[q']? = s.handlers[q']? :=
  getElem?_set_ne other.symm

theorem idle_ask (caller : AgentId) (query : AgentQuery) : Idle s (s.ask caller query) where
  handlers q h' here := by
    rcases handler_ask here with before | ⟨fresh, rfl⟩
    · exact .inr ⟨h', before, rfl, rfl, .inl rfl⟩
    · exact .inl ⟨fresh, rfl, rfl⟩
  asked _ _ here := asked_ask_of_asked here caller query
  pending _ _ slot := slot
  log := ⟨[], (append_nil _).symm, nofun⟩

theorem idle_response (sender : AgentId) (response : AgentQueryResponse) :
    Idle s { s.resolve response with log := s.log ++ [.received sender response] } where
  handlers q h' here := by
    rcases handler_resolve here with unchanged | ⟨h, before, slot, rfl⟩
    · exact .inr ⟨h', unchanged, rfl, rfl, .inl rfl⟩
    · exact .inr ⟨h, before, rfl, rfl, .inr ⟨response, rfl, slot⟩⟩
  asked q asked here := (congrArg (·[q]?) (asked_resolve response)).trans here
  pending _ _ slot := slot_resolve slot
  log := ⟨_, rfl, fun effect mem => ⟨sender, response, mem_singleton.mp mem⟩⟩

theorem idle_environment (db : GatewayDb) (registry : AgentRegistry) (auditWritable : Bool) :
    Idle s { s with db, registry, auditWritable } where
  handlers _ h' here := .inr ⟨h', here, rfl, rfl, .inl rfl⟩
  asked _ _ here := here
  pending _ _ slot := slot
  log := ⟨[], (append_nil _).symm, nofun⟩

theorem step_cases (stepped : step parse s label = some s') :
    label.mover = none ∧ Idle s s' ∨
      ∃ q h t, label.mover = some q ∧ s.handlers[q]? = some h ∧ TurnSpec parse s q h t ∧
        Advance s q h t ∧ s' = s.take q h t := by
  cases label with
  | query caller query =>
    cases stepped
    exact .inl ⟨rfl, idle_ask caller query⟩
  | response sender response =>
    cases stepped
    exact .inl ⟨rfl, idle_response sender response⟩
  | environment db registry auditWritable =>
    cases stepped
    exact .inl ⟨rfl, idle_environment db registry auditWritable⟩
  | run q =>
    obtain ⟨h, t, here, turned, rfl⟩ := step_run_eq_some stepped
    exact .inr ⟨q, h, t, rfl, here, turn_spec turned, turn_advance turned, rfl⟩
  | timeout q =>
    obtain ⟨h, owner, target, here, waiting, rfl⟩ := step_timeout_eq_some stepped
    exact .inr ⟨q, h, _, rfl, here, timeout_spec waiting, timeout_advance waiting, rfl⟩

theorem Idle.absent (idle : Idle s s') (gone : s'.handlers[q]? = none) : s.handlers[q]? = none := by
  cases before : s.handlers[q]? with
  | none => rfl
  | some =>
    have still := idle.asked q _ (asked_of_handler before)
    rw [System.asked, getElem?_map, gone] at still
    cases still

/-- **One handler across a step**: it starts, it stands where it was, or it takes
a turn. -/
inductive HandlerStep (s s' : System) (label : Label) (q : ℕ) (h' : Handler) : Prop
  | starts (fresh : s.handlers[q]? = none) (mover : label.mover ≠ some q)
      (phase : h'.phase = .lookupCaller)
  | stands {h : Handler} (before : s.handlers[q]? = some h) (mover : label.mover ≠ some q)
      (asked : h'.toAsked = h.toAsked) (phase : h'.phase = h.phase)
  | turns {h : Handler} {t : Turn} (before : s.handlers[q]? = some h)
      (mover : label.mover = some q) (advance : Advance s q h t)
      (after : h' = { h with phase := t.phase }) (log : s'.log = s.log ++ t.effects)

theorem handler_step {h' : Handler} (stepped : step parse s label = some s')
    (after : s'.handlers[q]? = some h') : HandlerStep s s' label q h' := by
  rcases step_cases stepped with ⟨still, idle⟩ | ⟨mover, h, t, moves, here, -, advance, rfl⟩
  · have unmoved : label.mover ≠ some q := by simp [still]
    rcases idle.handlers q h' after with ⟨fresh, starts, -⟩ | ⟨h, before, same, phase, -⟩
    · exact .starts fresh unmoved starts
    · exact .stands before unmoved same phase
  · by_cases own : q = mover
    · subst own
      cases (take_self here).symm.trans after
      exact .turns here moves advance rfl rfl
    · rw [take_of_ne own] at after
      refine .stands after ?_ rfl rfl
      rw [moves]
      exact fun same => own (Option.some.inj same).symm

theorem absent_step (stepped : step parse s label = some s') (gone : s'.handlers[q]? = none) :
    s.handlers[q]? = none ∧ label.mover ≠ some q := by
  rcases step_cases stepped with ⟨still, idle⟩ | ⟨mover, h, t, moves, here, -, -, rfl⟩
  · exact ⟨idle.absent gone, by simp [still]⟩
  · have other : q ≠ mover := by
      rintro rfl
      rw [take_self here] at gone
      cases gone
    rw [take_of_ne other] at gone
    refine ⟨gone, ?_⟩
    rw [moves]
    exact fun same => other (Option.some.inj same).symm

theorem log_step (stepped : step parse s label = some s') : ∃ later, s'.log = s.log ++ later := by
  rcases step_cases stepped with ⟨-, idle⟩ | ⟨mover, h, t, -, -, -, -, rfl⟩
  · obtain ⟨later, log, -⟩ := idle.log
    exact ⟨later, log⟩
  · exact ⟨t.effects, rfl⟩

theorem resultsFor_append (q : ℕ) (log later : List Effect) :
    resultsFor q (log ++ later) = resultsFor q log ++ resultsFor q later :=
  filterMap_append

theorem Audited.append {log : List Effect} (audited : Audited q log) (later : List Effect) :
    Audited q (log ++ later) := by
  obtain ⟨effect, mem, audits⟩ := audited
  exact ⟨effect, mem_append_left later mem, audits⟩

theorem Idle.resultsFor_eq (idle : Idle s s') (q : ℕ) :
    resultsFor q s'.log = resultsFor q s.log := by
  obtain ⟨later, log, received⟩ := idle.log
  have silent : resultsFor q later = [] := by
    refine filterMap_eq_nil_iff.mpr fun effect mem => ?_
    obtain ⟨sender, response, rfl⟩ := received effect mem
    rfl
  rw [log, resultsFor_append, silent, append_nil]

theorem TurnSpec.resultsFor_eq_nil (spec : TurnSpec parse s q h t) (other : q' ≠ q) :
    resultsFor q' t.effects = [] := by
  refine filterMap_eq_nil_iff.mpr fun effect mem => ?_
  cases effect with
  | result asker recipient result delivered =>
    obtain ⟨rfl, -⟩ := spec.results asker recipient result delivered mem
    exact if_neg other.symm
  | _ => rfl

/-! ## One result -/

structure HandlerBooked (log : List Effect) (q : ℕ) (h : Handler) : Prop where
  matched : h.Matched
  results : resultsFor q log ++ (h.phase.due h.query).map (Prod.mk h.caller) =
    [(h.caller, h.query.requestId)]
  other : ∀ target, h.phase.target? = some target → target ≠ h.caller

structure Booked (s : System) : Prop where
  slots : ∀ id q, s.pending id = some q →
    ∃ asked, s.asked[q]? = some asked ∧ asked.query.requestId = id
  silent : ∀ q, s.handlers[q]? = none → resultsFor q s.log = []
  handlers : ∀ q h, s.handlers[q]? = some h → HandlerBooked s.log q h

theorem Booked.idle (booked : Booked s) (idle : Idle s s') : Booked s' where
  slots id q slot := by
    obtain ⟨asked, here, same⟩ := booked.slots id q (idle.pending id q slot)
    exact ⟨asked, idle.asked q asked here, same⟩
  silent q gone := by
    rw [idle.resultsFor_eq]
    exact booked.silent q (idle.absent gone)
  handlers q h' here := by
    rcases idle.handlers q h' here with ⟨fresh, starts, empty⟩ | ⟨h, before, same, phase, reply⟩
    · refine ⟨?_, ?_, ?_⟩
      · intro response replied
        rw [empty] at replied
        cases replied
      · rw [idle.resultsFor_eq, booked.silent q fresh, starts]
        rfl
      · rw [starts]
        nofun
    · have known := booked.handlers q h before
      refine ⟨?_, ?_, ?_⟩
      · intro response replied
        rw [same]
        rcases reply with unchanged | ⟨response', replied', slot⟩
        · exact known.matched response (unchanged ▸ replied)
        · -- the slot the response was sent into is filed under its own id
          cases replied'.symm.trans replied
          obtain ⟨asked, asks, sameId⟩ := booked.slots _ q slot
          cases (asked_of_handler before).symm.trans asks
          exact sameId.symm
      · rw [idle.resultsFor_eq, phase, same]
        exact known.results
      · rw [phase, same]
        exact known.other

theorem Booked.turn (booked : Booked s) (here : s.handlers[q]? = some h)
    (spec : TurnSpec parse s q h t) (advance : Advance s q h t) : Booked (s.take q h t) where
  slots id q' slot := by
    rw [asked_take here t]
    rcases slot_take spec slot with before | ⟨rfl, sameId⟩
    · exact booked.slots id q' before
    · exact ⟨h.toAsked, asked_of_handler here, sameId⟩
  silent q' gone := by
    have other : q' ≠ q := by
      rintro rfl
      rw [take_self here] at gone
      cases gone
    rw [take_of_ne other] at gone
    show resultsFor q' (s.log ++ t.effects) = []
    rw [resultsFor_append, booked.silent q' gone, spec.resultsFor_eq_nil other]
    rfl
  handlers q' h' after := by
    by_cases own : q' = q
    · subst own
      cases (take_self here).symm.trans after
      have known := booked.handlers q' h here
      refine ⟨known.matched, ?_, advance.other known.other⟩
      show resultsFor q' (s.log ++ t.effects) ++ (t.phase.due h.query).map (Prod.mk h.caller) = _
      rw [resultsFor_append, append_assoc, advance.results known.matched]
      exact known.results
    · rw [take_of_ne own] at after
      have known := booked.handlers q' h' after
      refine ⟨known.matched, ?_, known.other⟩
      show resultsFor q' (s.log ++ t.effects) ++ _ = _
      rw [resultsFor_append, spec.resultsFor_eq_nil own, append_nil]
      exact known.results

theorem Booked.step (booked : Booked s) (stepped : step parse s label = some s') : Booked s' := by
  rcases step_cases stepped with ⟨-, idle⟩ | ⟨q, h, t, -, here, spec, advance, rfl⟩
  · exact booked.idle idle
  · exact booked.turn here spec advance

variable {db : GatewayDb}

section

variable (run : Run (AgentQueries.step parse) anyStep (.initial db registry) labels s)

include run

theorem booked_of_run : Booked s := by
  refine run.invariant (fun _ _ _ booked _ next => booked.step next) ⟨?_, ?_, ?_⟩
  · rintro id q ⟨⟩
  · exact fun _ _ => rfl
  · simp [System.initial]

theorem asked_of_run : s.asked = labels.filterMap Label.frame := by
  refine run.history (fun labels s => s.asked = labels.filterMap Label.frame) ?_ rfl
  intro labels s label s' known _ _ stepped
  rw [filterMap_append, ← known]
  cases step_spec stepped with
  | query caller query => exact asked_ask caller query
  | response sender response =>
    exact (asked_resolve response).trans (append_nil _).symm
  | turn mover here =>
    rw [asked_take here]
    rcases mover with rfl | ⟨rfl, -⟩ <;> exact (append_nil _).symm
  | environment => exact (append_nil _).symm

/-! ## No handler is stuck -/

theorem turns_le_ten :
    (s.handlers[q]? = none → (labels.map Label.mover).count (some q) = 0) ∧
      ∀ h, s.handlers[q]? = some h →
        (labels.map Label.mover).count (some q) + h.phase.work ≤ 10 := by
  refine run.history (fun labels s =>
    (s.handlers[q]? = none → (labels.map Label.mover).count (some q) = 0) ∧
      ∀ h, s.handlers[q]? = some h →
        (labels.map Label.mover).count (some q) + h.phase.work ≤ 10) ?_ ?_
  · rintro labels s label s' ⟨absent, present⟩ - - stepped
    have unmoved : label.mover ≠ some q →
        ((labels ++ [label]).map Label.mover).count (some q) =
          (labels.map Label.mover).count (some q) := by
      intro other
      rw [map_append, count_append, map_singleton,
        count_singleton, if_neg (by simpa using other), Nat.add_zero]
    constructor
    · intro gone
      obtain ⟨before, other⟩ := absent_step stepped gone
      rw [unmoved other]
      exact absent before
    · intro h' after
      cases handler_step stepped after with
      | starts fresh other phase =>
        rw [unmoved other, absent fresh, phase]
        rfl
      | stands before other _ phase =>
        rw [unmoved other, phase]
        exact present _ before
      | @turns h t before mover advance same _ =>
        subst same
        have room := present _ before
        have less := advance.work
        rw [map_append, count_append, map_singleton, mover,
          count_singleton_self]
        show _ + 1 + t.phase.work ≤ 10
        omega
  · exact ⟨fun _ => rfl, by simp [System.initial]⟩

end

/-- A handler that has not returned can take its next turn. -/
theorem exists_turn (here : s.handlers[q]? = some h) (unfinished : h.phase ≠ .finishing []) :
    ∃ label s', label.mover = some q ∧ step parse s label = some s' := by
  cases turned : turn parse s q h with
  | some t =>
    refine ⟨.run q, s.take q h t, rfl, ?_⟩
    simp only [step, here, turned, Option.map_some]
  | none =>
    unfold turn at turned
    split at turned
    case h_7 owner target phase =>
      split at turned
      · cases turned
      rename_i empty
      split at turned
      · rename_i slot
        refine ⟨.timeout q, s.take q h ⟨.cancelTimeout owner target, s.pending, []⟩, rfl, ?_⟩
        simp only [step, here, phase, empty]
        exact if_pos slot
      · cases turned
    case h_9 phase => exact absurd phase unfinished
    all_goals
      first
      | cases turned
      | (split at turned <;> cases turned)

/-! ## The audit -/

/-- The lookups of `q`'s turns find the rows they ask for, and its inserts succeed. -/
def ServedAt (q : ℕ) (s : System) (label : Label) : Prop :=
  label.mover = some q → (s.handlers[q]?).all (·.served s) = true

def AuditKept (q : ℕ) (s : System) : Prop :=
  ∀ h, s.handlers[q]? = some h → h.phase.AuditDue ∨ Audited q s.log

theorem AuditKept.step (kept : AuditKept q s) (served : ServedAt q s label)
    (stepped : step parse s label = some s') : AuditKept q s' := by
  intro h' after
  cases handler_step stepped after with
  | starts _ _ phase =>
    rw [phase]
    exact .inl trivial
  | stands before _ _ phase =>
    obtain ⟨later, log⟩ := log_step stepped
    rw [phase, log]
    exact (kept _ before).imp_right (·.append later)
  | turns before mover advance same log =>
    subst same
    have ok := served mover
    rw [before] at ok
    rw [log]
    rcases kept _ before with due | audited
    · refine (advance.audit ok due).imp_right ?_
      rintro ⟨effect, mem, audits⟩
      exact ⟨effect, mem_append_right _ mem, audits⟩
    · exact .inr (audited.append _)

/-! ## Whom a query is dispatched to -/

def OwnersKept (ownerOf : AgentId → UserId) (_ : System) : Label → Prop
  | .environment db _ _ => Owned ownerOf db
  | _ => True

structure OwnersVetted (ownerOf : AgentId → UserId) (s : System) : Prop where
  owned : Owned ownerOf s.db
  handlers : ∀ (q : ℕ) h, s.handlers[q]? = some h → h.phase.Vetted ownerOf h.caller

theorem db_step {ownerOf : AgentId → UserId} (owned : Owned ownerOf s.db)
    (kept : OwnersKept ownerOf s label) (stepped : step parse s label = some s') :
    Owned ownerOf s'.db := by
  cases step_spec stepped with
  | query | turn => exact owned
  | response sender response =>
    show Owned ownerOf (s.resolve response).db
    unfold System.resolve
    split <;> exact owned
  | environment => exact kept

theorem OwnersVetted.step {ownerOf : AgentId → UserId} (vetted : OwnersVetted ownerOf s)
    (kept : OwnersKept ownerOf s label) (stepped : AgentQueries.step parse s label = some s') :
    OwnersVetted ownerOf s' where
  owned := db_step vetted.owned kept stepped
  handlers q h' after := by
    cases handler_step stepped after with
    | starts _ _ phase =>
      rw [phase]
      trivial
    | stands before _ asked phase =>
      rw [phase, asked]
      exact vetted.handlers q _ before
    | turns before _ advance same _ =>
      subst same
      exact advance.vetted ownerOf vetted.owned (vetted.handlers q _ before)

theorem dispatch_of_step {incoming : IncomingQuery}
    (here : s.handlers[q]? = some h) (stepped : step parse s label = some s')
    (mem : Effect.dispatched q target incoming ∈ s'.log.drop s.log.length) :
    s.registry.send target = .ok () ∧ ∃ owner, h.phase = .dispatch owner target := by
  rcases step_cases stepped with ⟨-, idle⟩ | ⟨mover, h', t, -, there, spec, advance, rfl⟩
  · obtain ⟨later, log, received⟩ := idle.log
    rw [log, drop_left] at mem
    obtain ⟨sender, response, ⟨⟩⟩ := received _ mem
  · have now : Effect.dispatched q target incoming ∈ t.effects := by
      simpa only [System.take, drop_left] using mem
    obtain ⟨rfl, -⟩ := spec.dispatched q target incoming now
    cases here.symm.trans there
    exact advance.dispatched q target incoming now

end Steps

/-! ## The books of a run -/

variable (parse : String → Except String AgentId)

/-- **Handler `q` is answered once**: at most one result is sent, to the caller and under its id;
the handler returns after at most ten turns, and then it has been sent. -/
structure AnsweredOnce (labels : List Label) (s : System) (q : ℕ) (h : Handler) : Prop where
  atMost : resultsFor q s.log <+: [(h.caller, h.query.requestId)]
  sent : h.phase = .finishing [] → resultsFor q s.log = [(h.caller, h.query.requestId)]
  turns : (labels.map Label.mover).count (some q) + h.phase.work ≤ 10
  next : h.phase ≠ .finishing [] →
    ∃ label s', label.mover = some q ∧ step parse s label = some s'

/-- **Query `q` goes to a sibling**: a connected agent of the caller's owner that is not the caller,
provided agents do not change hands. -/
def DispatchedToSibling (start : System)
    (labels : List Label) (s : System) (q : ℕ) (h : Handler) : Prop :=
  ∀ label s' target incoming, step parse s label = some s' →
    Effect.dispatched q target incoming ∈ s'.log.drop s.log.length →
      s.registry.isConnected target = true ∧ target ≠ h.caller ∧
        ∀ ownerOf, Owned ownerOf start.db →
          Run (step parse) (OwnersKept ownerOf) start labels s →
            ownerOf target = ownerOf h.caller

section Books

variable {parse : String → Except String AgentId} {db : GatewayDb} {registry : AgentRegistry}
  {labels : List Label} {s : System} {q : ℕ} {h : Handler}

theorem answeredOnce_of_run (run : Run (step parse) anyStep (.initial db registry) labels s)
    (here : s.handlers[q]? = some h) : AnsweredOnce parse labels s q h := by
  have known := (booked_of_run run).handlers q h here
  constructor
  · rw [← known.results]
    exact prefix_append _ _
  · intro finished
    have all := known.results
    rw [finished] at all
    simpa only [Phase.due, filterMap_nil, map_nil, append_nil] using all
  · exact (turns_le_ten run).2 h here
  · exact exists_turn here

theorem audited_of_served (run : Run (step parse) (ServedAt q) (.initial db registry) labels s)
    (here : s.handlers[q]? = some h) (finished : h.phase = .finishing []) : Audited q s.log := by
  have initial : AuditKept q (.initial db registry) := by simp [AuditKept, System.initial]
  have kept := run.invariant (fun _ _ _ kept served next => kept.step served next) initial
  rcases kept h here with due | audited
  · rw [finished] at due
    obtain ⟨action, mem, -⟩ := due
    cases mem
  · exact audited

theorem dispatchedToSibling_of_run (run : Run (step parse) anyStep (.initial db registry) labels s)
    (here : s.handlers[q]? = some h) :
    DispatchedToSibling parse (.initial db registry) labels s q h := by
  intro label s' target incoming stepped mem
  obtain ⟨sent, owner, phase⟩ := dispatch_of_step here stepped mem
  refine ⟨?_, ?_, fun ownerOf owned kept => ?_⟩
  · obtain ⟨tx, channel, -⟩ := (AgentRegistry.send_eq_ok_iff _ _).mp sent
    rw [AgentRegistry.isConnected_eq, channel]
    rfl
  · refine ((booked_of_run run).handlers q h here).other target ?_
    rw [phase]
    rfl
  · have initial : OwnersVetted ownerOf (.initial db registry) :=
      ⟨owned, by simp [System.initial]⟩
    have vetted := kept.invariant (fun _ _ _ vetted ok next => vetted.step ok next) initial
    have owners := vetted.handlers q h here
    rw [phase] at owners
    exact owners.2.trans owners.1

end Books

/-- **A query is answered once and goes to a sibling, and it is audited if it is served**, in every
interleaving. -/
theorem query_answered_once_audited (db : GatewayDb)
    (registry : AgentRegistry) {labels : List Label} {s : System}
    (run : Run (step parse) anyStep (.initial db registry) labels s) {q : ℕ} {asked : Asked}
    (frame : (labels.filterMap Label.frame)[q]? = some asked) :
    ∃ h, s.handlers[q]? = some h ∧ h.toAsked = asked ∧ AnsweredOnce parse labels s q h ∧
      DispatchedToSibling parse (.initial db registry) labels s q h ∧
      (Run (step parse) (ServedAt q) (.initial db registry) labels s →
        h.phase = .finishing [] → Audited q s.log) := by
  rw [← asked_of_run run, System.asked, getElem?_map] at frame
  obtain ⟨h, here, rfl⟩ := Option.map_eq_some_iff.mp frame
  exact ⟨h, here, rfl, answeredOnce_of_run run here, dispatchedToSibling_of_run run here,
    fun served finished => audited_of_served served here finished⟩

theorem helper_answer_audited :
    ∃ s, Run (step parseTargets) (ServedAt 0) (.initial twoOwnersDb allConnected)
        (answeredBy (agentOf 2) "seven") s ∧
      resultsFor 0 s.log = [(agentOf 1, "q-1")] ∧ Audited 0 s.log := by
  have run : ∃ s, Run (step parseTargets) (ServedAt 0) (.initial twoOwnersDb allConnected)
        (answeredBy (agentOf 2) "seven") s ∧
      (s.handlers[0]?).map (·.phase) = some (.finishing []) := by
    refine ⟨_, .cons nofun rfl <| .cons (fun _ => rfl) rfl <| .cons (fun _ => rfl) rfl <|
      .cons (fun _ => rfl) rfl <| .cons (fun _ => rfl) rfl <| .cons (fun _ => rfl) rfl <|
      .cons nofun rfl <| .cons (fun _ => rfl) rfl <| .cons (fun _ => rfl) rfl <|
      .cons (fun _ => rfl) rfl <| .cons (fun _ => rfl) rfl <| .nil _, rfl⟩
  obtain ⟨s, run, finished⟩ := run
  have frame : ((answeredBy (agentOf 2) "seven").filterMap Label.frame)[0]? =
      some ⟨agentOf 1, askHelper⟩ := rfl
  obtain ⟨h, here, same, once, -, audited⟩ :=
    query_answered_once_audited parseTargets twoOwnersDb allConnected
      (run.imp fun _ _ _ => trivial) frame
  rw [here] at finished
  have ended : h.phase = .finishing [] := Option.some.inj finished
  refine ⟨s, run, ?_, audited run ended⟩
  rw [once.sent ended, same]
  rfl

def strangersGone : GatewayDb where
  agents := twoOwnersDb.agents.take 2

def askAccomplice : AgentQuery where
  requestId := "q-1"
  targetAgentId := "00000000-0000-0000-0000-000000000004"
  prompt := "how many?"

/-- **A query to an unknown agent leaves no trace**: the asker is told, and there is no audit
row. -/
theorem unknown_target_unaudited :
    found (Agents.findById strangersGone (agentOf 1)) = true ∧
    ∃ s h, Run (step parseTargets) anyStep (.initial strangersGone allConnected)
        [.query (agentOf 1) askAccomplice, .run 0, .run 0, .run 0] s ∧
      s.auditWritable = true ∧ s.handlers[0]? = some h ∧ h.phase = .finishing [] ∧
      s.log = [.result 0 (agentOf 1)
        { requestId := "q-1", outcome := .error "target agent not found" } true] ∧
      ¬ Audited 0 s.log := by
  refine ⟨rfl, _, _, run_of_exec rfl, rfl, rfl, rfl, rfl, ?_⟩
  rintro ⟨effect, mem, audits⟩
  cases mem_singleton.mp mem
  cases audits

end Havn.Gateway.AgentQueries
