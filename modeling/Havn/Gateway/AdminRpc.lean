import Havn.Lib.Correlation

/-!
# Requests of the dashboard to an agent

`havn-gateway/src/admin_rpc.rs`: `call` registers, sends and waits with a timeout.  It runs in an
HTTP handler, which is dropped when its client goes away.
-/

namespace Havn.Gateway.AdminRpc

open Lib Correlation Function

variable {α : Type}

inductive CallError
  | send
  | timeout
  | channelClosed

/-- The sender is filed under the id. -/
def register : Call α := { phase := .sending, pending := true }

/-- `call` from await to await: the lock of `register`, `send`, the receiver with its timer, and the
lock to take the entry back. -/
def call (c : Call α) (event : Event) : Option (Call α) :=
  match c.phase, event with
  | .unfiled, .locked => some register
  | .sending, .sent true => some { c with phase := .waiting }
  | .sending, .sent false => some { c with phase := .removing .unsent }
  | .waiting, .received =>
    match c.reply with
    | some outcome => some { c with phase := .returned (.answered outcome) }
    | none => if c.pending then none else some { c with phase := .returned .closed }
  | .waiting, .timedOut =>
    if c.reply = none then some { c with phase := .removing .expired } else none
  | .removing ending, .locked => some { c with phase := .returned ending, pending := false }
  -- the HTTP handler is dropped, and the call with it
  | phase, .dropped => if phase.underWay then some { c with phase := .dropped } else none
  | _, _ => none

/-- A response: the entry is taken out, and its channel fed if there was one. -/
def resolve (c : Call α) (outcome : α) : Call α :=
  { c with
    pending := false
    reply := if c.pending then some outcome else c.reply
    first := c.first.or (some outcome) }

def step (s : State String α) : Label String α → Option (State String α)
  | .turn id event => (call (s id) event).map (update s id)
  | .resolve id outcome => some (update s id (resolve (s id) outcome))

def policy : Policy where
  expires := true
  droppable := true

theorem step_eq : (step : State String α → _) = Correlation.step policy := by
  have turn : ∀ (c : Call α) event, call c event = c.turn policy event := by
    rintro ⟨phase, pending, reply, first⟩ event
    cases phase <;> cases event <;> try rfl
    · rename_i ok
      cases ok <;> rfl
    · cases reply <;> rfl
  funext s label
  cases label with
  | turn id event => exact congrArg (Option.map (update s id)) (turn (s id) event)
  | resolve => rfl

def result : Ending α → Except CallError α
  | .answered outcome => .ok outcome
  | .unsent => .error .send
  | .expired => .error .timeout
  | .closed => .error .channelClosed

/-- **What is left of admin calls**: a call returns the first response since it registered and never
`ChannelClosed`; and when none is under way the map is empty exactly if every dropped call has been
answered. -/
theorem calls_leave (labels : List (Label String α)) (s : State String α)
    (run : Run step anyStep .initial labels s) :
    (∀ id ending, (s id).phase = .returned ending →
      match result ending with
      | .ok outcome => (s id).first = some outcome
      | .error e => e ≠ .channelClosed) ∧
    ((∀ id, (s id).phase.underWay = false) →
      ((∀ id, (s id).pending = false) ↔
        ∀ id, (s id).phase = .dropped → (s id).first ≠ none)) := by
  rw [step_eq] at run
  refine ⟨fun id ending returned => ?_, empty_iff run⟩
  have how := explained run returned
  cases ending with
  | answered => exact how
  | unsent | expired => nofun
  | closed => exact how.elim

/-- The client goes away while its call waits. -/
def abandoned : List (Label String ℕ) :=
  [.turn "r" .locked, .turn "r" (.sent true), .turn "r" .dropped]

theorem abandoned_left : ∃ s, Run step anyStep .initial abandoned s ∧
    ¬ ∀ id, (s id).pending = false := by
  refine ⟨_, run_of_exec rfl, fun empty => ?_⟩
  refine ((calls_leave abandoned _ (run_of_exec rfl)).2 fun id => ?_).mp empty "r" rfl rfl
  by_cases same : id = "r"
  · subst same
    rfl
  · simp [same, State.initial, Phase.underWay]

end Havn.Gateway.AdminRpc
