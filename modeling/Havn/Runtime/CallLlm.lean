import Havn.Lib.Correlation
import Havn.Runtime.ToolLoop

/-!
# The responses of the model

`call_llm` of `tool_loop.rs` files a sender under a fresh id, sends its request and waits without a
timeout; the reader loop of `main.rs` feeds the senders.  The loops run in tasks that nothing aborts
and share one map, where the curator has entries under other ids.
-/

namespace Havn.Runtime.CallLlm

open Lib Correlation Proto ToolLoop Function

/-- `call_llm` from await to await: the lock to file the sender, the send, the receiver, and the
lock to take the entry back. -/
def callLlm (c : Call LlmResponse) (event : Event) : Option (Call LlmResponse) :=
  match c.phase, event with
  | .unfiled, .locked => some { phase := .sending, pending := true }
  | .sending, .sent true => some { c with phase := .waiting }
  | .sending, .sent false => some { c with phase := .removing .unsent }
  | .waiting, .received =>
    match c.reply with
    | some response => some { c with phase := .returned (.answered response) }
    | none => if c.pending then none else some { c with phase := .returned .closed }
  | .removing ending, .locked => some { c with phase := .returned ending, pending := false }
  | _, _ => none

/-- The reader has an `LlmResponse`. -/
def llmResponse (c : Call LlmResponse) (response : LlmResponse) : Call LlmResponse :=
  { c with
    pending := false
    reply := if c.pending then some response else c.reply
    first := c.first.or (some response) }

def step (s : State String LlmResponse) :
    Label String LlmResponse → Option (State String LlmResponse)
  | .turn id event => (callLlm (s id) event).map (update s id)
  | .resolve id response => some (update s id (llmResponse (s id) response))

def policy : Policy where
  expires := false
  droppable := false

theorem step_eq : step = Correlation.step policy := by
  have turn : ∀ c event, callLlm c event = c.turn policy event := by
    rintro ⟨phase, pending, reply, first⟩ event
    cases phase <;> cases event <;> try rfl
    · rename_i ok
      cases ok <;> rfl
    · cases reply <;> rfl
  funext s label
  cases label with
  | turn id event => exact congrArg (Option.map (update s id)) (turn (s id) event)
  | resolve => rfl

/-- What a loop gets; without a timeout no call expires. -/
def exchange : Ending LlmResponse → Exchange
  | .answered response => .response response
  | .unsent => .notSent "channel closed"
  | .expired | .closed => .dropped

/-- **Concurrent loops do not mix up their responses**: a call that has returned was not sent or
brings the first response to its own id, and when none is under way no entry of theirs is left. -/
theorem exchanges_settle (labels : List (Label String LlmResponse)) (s : State String LlmResponse)
    (run : Run step anyStep .initial labels s) :
    (∀ id ending, (s id).phase = .returned ending →
      match exchange ending with
      | .notSent _ => True
      | .dropped => False
      | .response response => (s id).first = some response) ∧
    ((∀ id, (s id).phase.underWay = false) → ∀ id, (s id).pending = false) := by
  rw [step_eq] at run
  refine ⟨fun id ending returned => ?_, empty_of_kept run rfl⟩
  have how := explained run returned
  cases ending with
  | answered | unsent | closed => exact how
  | expired => cases how

def answered : List (Label String LlmResponse) :=
  [.turn "r" .locked, .turn "r" (.sent true), .resolve "r" { requestId := "r", outcome := .ok },
    .turn "r" .received]

theorem answered_settles :
    ∃ s, Run step anyStep .initial answered s ∧ ∀ id, (s id).pending = false := by
  refine ⟨_, run_of_exec rfl, (exchanges_settle answered _ (run_of_exec rfl)).2 fun id => ?_⟩
  by_cases same : id = "r"
  · subst same
    rfl
  · simp [same, State.initial, Phase.underWay]

end Havn.Runtime.CallLlm
