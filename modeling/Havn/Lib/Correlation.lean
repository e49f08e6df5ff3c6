import Havn.Lib.Machine

/-!
# One-shot calls over a shared map

A caller files the sender of a one-shot channel under the id of its request, sends the request and
waits; whoever reads a response takes the sender out of the map and feeds it.  Ids are pairwise
distinct, so the state has one call for each id, with the map's entry for it.
-/

namespace Havn.Lib.Correlation

open Function

/-- Whether callers wait with a timeout, and whether they can be dropped at any of their awaits. -/
structure Policy where
  expires : Bool
  droppable : Bool

inductive Ending (α : Type)
  | answered (response : α)
  | unsent
  | expired
  | closed

/-- Before the call has the map's lock to file its sender, in the send, at the receiver, at the lock
to take the entry back, or at the end. -/
inductive Phase (α : Type)
  | unfiled
  | sending
  | waiting
  | removing (ending : Ending α)
  | returned (ending : Ending α)
  | dropped

structure Call (α : Type) where
  phase : Phase α := .unfiled
  /-- The map has the sender. -/
  pending : Bool := false
  /-- What is in the channel. -/
  reply : Option α := none
  /-- The first response to the id since the sender was filed. -/
  first : Option α := none

inductive Event
  | locked
  | sent (ok : Bool)
  | received
  | timedOut
  | dropped

inductive Label (ι α : Type)
  | turn (id : ι) (event : Event)
  | resolve (id : ι) (response : α)

variable {ι α : Type}

def Phase.underWay : Phase α → Bool
  | .sending | .waiting | .removing _ => true
  | .unfiled | .returned _ | .dropped => false

def Call.turn (p : Policy) (c : Call α) (event : Event) : Option (Call α) :=
  match c.phase, event with
  | .unfiled, .locked => some { phase := .sending, pending := true }
  | .sending, .sent ok => some { c with phase := if ok then .waiting else .removing .unsent }
  | .waiting, .received =>
    match c.reply with
    | some response => some { c with phase := .returned (.answered response) }
    | none => if c.pending then none else some { c with phase := .returned .closed }
  | .waiting, .timedOut =>
    -- the timer loses against a channel that is ready
    if p.expires && c.reply.isNone then some { c with phase := .removing .expired } else none
  | .removing ending, .locked => some { c with phase := .returned ending, pending := false }
  | phase, .dropped =>
    if p.droppable && phase.underWay then some { c with phase := .dropped } else none
  | _, _ => none

/-- A response: if the map has the sender, it is taken out and fed. -/
def Call.resolve (c : Call α) (response : α) : Call α :=
  { c with
    pending := false
    reply := if c.pending then some response else c.reply
    first := c.first.or (some response) }

abbrev State (ι α : Type) := ι → Call α

def State.initial : State ι α := fun _ => {}

variable [DecidableEq ι]

def step (p : Policy) (s : State ι α) : Label ι α → Option (State ι α)
  | .turn id event => ((s id).turn p event).map (update s id)
  | .resolve id response => some (update s id ((s id).resolve response))

/-! ## What holds of each call -/

/-- How a call can have come to its ending. -/
def Ending.Explained (p : Policy) (first : Option α) : Ending α → Prop
  | .answered response => first = some response
  | .unsent => True
  | .expired => p.expires = true
  | .closed => False

/-- The sender is in the map until the first response, and until the return at the latest. -/
def Call.Sound (p : Policy) (c : Call α) : Prop :=
  match c.phase with
  | .unfiled => c.pending = false
  | .sending | .waiting => c.pending = c.first.isNone ∧ c.reply = c.first
  | .removing ending => c.pending = c.first.isNone ∧ ending.Explained p c.first
  | .returned ending => c.pending = false ∧ ending.Explained p c.first
  | .dropped => c.pending = c.first.isNone ∧ p.droppable = true

variable {p : Policy} {c c' : Call α}

theorem Ending.Explained.or {ending : Ending α} {first : Option α}
    (explained : ending.Explained p first) (response : α) :
    ending.Explained p (first.or (some response)) := by
  cases ending with
  | answered =>
    cases explained
    rfl
  | unsent | expired | closed => exact explained

theorem Call.Sound.turn {event : Event} (sound : c.Sound p) (next : c.turn p event = some c') :
    c'.Sound p := by
  obtain ⟨phase, pending, reply, first⟩ := c
  unfold Call.turn at next
  split at next
  case h_1 =>
    cases next
    exact ⟨rfl, rfl⟩
  case h_2 ok found =>
    cases found
    cases next
    cases ok with
    | true => exact sound
    | false => exact ⟨sound.1, trivial⟩
  case h_3 found =>
    cases found
    obtain ⟨held, unread⟩ := sound
    -- the channel is empty exactly as long as the sender is in the map
    cases first <;> cases held <;> cases unread <;> cases next
    exact ⟨rfl, rfl⟩
  case h_4 found =>
    cases found
    split at next
    · rename_i late
      cases next
      exact ⟨sound.1, (Bool.and_eq_true_iff.mp late).1⟩
    · cases next
  case h_5 ending found =>
    cases found
    cases next
    exact ⟨rfl, sound.2⟩
  case h_6 =>
    split at next
    · rename_i may
      cases next
      obtain ⟨droppable, underWay⟩ := Bool.and_eq_true_iff.mp may
      cases phase with
      | sending | waiting | removing => exact ⟨sound.1, droppable⟩
      | unfiled | returned | dropped => cases underWay
    · cases next
  case h_7 => cases next

theorem Call.Sound.resolve (sound : c.Sound p) (response : α) : (c.resolve response).Sound p := by
  obtain ⟨phase, pending, reply, first⟩ := c
  have answered : false = (first.or (some response)).isNone := by cases first <;> rfl
  cases phase with
  | unfiled => rfl
  | sending | waiting =>
    obtain ⟨held, unread⟩ := sound
    refine ⟨answered, ?_⟩
    cases first <;> cases held <;> cases unread <;> rfl
  | removing => exact ⟨answered, sound.2.or response⟩
  | returned => exact ⟨rfl, sound.2.or response⟩
  | dropped => exact ⟨answered, sound.2⟩

/-! ## Runs -/

def State.Sound (p : Policy) (s : State ι α) : Prop := ∀ id, (s id).Sound p

theorem State.Sound.step {s s' : State ι α} {label : Label ι α} (sound : s.Sound p)
    (next : step p s label = some s') : s'.Sound p := by
  have updated : ∀ {id c}, c.Sound p → State.Sound p (update s id c) := fun here =>
    (forall_update_iff s fun _ => Call.Sound p).mpr ⟨here, fun id _ => sound id⟩
  cases label with
  | turn id event =>
    obtain ⟨c, turned, rfl⟩ := Option.map_eq_some_iff.mp next
    exact updated ((sound id).turn turned)
  | resolve id response =>
    cases next
    exact updated ((sound id).resolve response)

section Run

variable {s : State ι α} {labels : List (Label ι α)} (run : Run (step p) anyStep .initial labels s)

include run

theorem sound_of_run : s.Sound p := by
  have initial : State.Sound p (.initial : State ι α) := fun _ => rfl
  exact run.invariant (fun _ _ _ sound _ next => sound.step next) initial

/-- **Returned calls are explained**: a response is the first one, and no channel is found
closed. -/
theorem explained {id : ι} {ending : Ending α} (returned : (s id).phase = .returned ending) :
    ending.Explained p (s id).first := by
  have here := sound_of_run run id
  rw [Call.Sound, returned] at here
  exact here.2

/-- **What is left when no call is under way** are the dropped ones without a response. -/
theorem empty_iff (idle : ∀ id, (s id).phase.underWay = false) :
    (∀ id, (s id).pending = false) ↔ ∀ id, (s id).phase = .dropped → (s id).first ≠ none := by
  refine forall_congr' fun id => ?_
  have here := sound_of_run run id
  have idle := idle id
  unfold Call.Sound at here
  split at here
  case h_2 found | h_3 found | h_4 found =>
    rw [found] at idle
    cases idle
  case h_1 found => simp [found, here]
  case h_5 found => simp [found, here.1]
  case h_6 found => simp [found, here.1, Option.isSome_iff_ne_none]

/-- Where calls are not dropped, nothing is left. -/
theorem empty_of_kept (kept : p.droppable = false) (idle : ∀ id, (s id).phase.underWay = false)
    (id : ι) : (s id).pending = false := by
  refine (empty_iff run idle).mpr (fun id gone => ?_) id
  have here := sound_of_run run id
  rw [Call.Sound, gone] at here
  cases kept.symm.trans here.2

end Run

end Havn.Lib.Correlation
