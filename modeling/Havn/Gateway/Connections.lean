import Havn.Gateway.Lifecycle

/-!
# An agent's older and newer connections

`agent_socket.rs`, `handle_connection`: a connection's outbound channel is attached to the agent's
registry entry and detached when its reader ends, both by the agent's id.  So the clean-up of a
connection takes away whatever channel the entry holds, also that of a later connection.

The machine is that of `Lifecycle`, with the failure of a writer task as a further event: the
channel stays in the registry and refuses every frame.
-/

namespace Havn.Gateway.Connections

open Havn.Core Lib Lifecycle Function

inductive Event where
  | life (label : Label)
  | writerFails (connection : ℕ)

def step (s : System) : Event → Option System
  | .life label => Lifecycle.step s label
  | .writerFails connection =>
    if (s.connections connection).isSome then
      some { s with registry := s.registry.dropReceiver connection }
    else none

variable {event : Event}

theorem locked_step {s s' : System} (inv : Locked s)
    (next : step s event = some s') : Locked s' := by
  cases event with
  | life => exact inv.step next
  | writerFails =>
    rw [step] at next
    split at next
    · cases next
      exact inv.frame rfl rfl
        ((AgentRegistry.handleOf_dropReceiver _ _).symm ▸ inv.unregistered)
    · cases next

/-! ## The latest connection -/

variable (agent : AgentId)

structure Reached (n : ℕ) (s : System) : Prop where
  connected : s.registry.isConnected agent = true
  accepted : s.registry.send agent = .ok ()
  target : (s.registry.txOf agent).map Sender.connection = some n

theorem reached_iff (n : ℕ) (s : System) :
    Reached agent n s ↔ s.registry.txOf agent = some { connection := n } := by
  constructor
  · rintro ⟨-, accepted, target⟩
    obtain ⟨tx, channel, opened⟩ := (AgentRegistry.send_eq_ok_iff _ _).mp accepted
    rw [channel, Option.map_some] at target
    rw [channel, ← Option.some.inj target, ← opened]
  · intro channel
    refine ⟨?_, (AgentRegistry.send_eq_ok_iff _ _).mpr ⟨_, channel, rfl⟩, by rw [channel]; rfl⟩
    rw [AgentRegistry.isConnected_eq, channel]
    rfl

/-- Connection `n` does not end, no later connection of the agent attaches, and the agent is not
removed. -/
def Current (n : ℕ) (s : System) : Event → Prop
  | .life (.detach m) => m ≠ n
  | .writerFails m => m ≠ n
  | .life (.attach _ other) => other ≠ agent
  | .life (.runRemoval r _) =>
    ∀ removal ∈ s.removals r, removal.phase = .resolved → removal.agent ≠ agent
  | _ => True

def NoCleanup (s : System) : Event → Prop
  | .life (.detach m) => s.connections m ≠ some agent
  | _ => True

instance (agent : AgentId) (n : ℕ) (s : System) (event : Event) :
    Decidable (Current agent n s event) := by
  unfold Current
  split <;> infer_instance

instance (agent : AgentId) (s : System) (event : Event) : Decidable (NoCleanup agent s event) := by
  unfold NoCleanup
  split <;> infer_instance

section

variable {agent : AgentId} {n : ℕ} {s s' : System}

theorem txOf_turn (inv : Locked s) {c : ℕ} {call : Call} {reply : Reply} {tx : Sender}
    (found : s.calls c = some call) (turned : TurnSpec s c call reply s')
    (channel : s.registry.txOf agent = some tx) : s'.registry.txOf agent = some tx := by
  cases turned with
  | @register handle phase =>
    have absent := inv.unregistered c call found (by rw [phase]; rfl)
    have differs : agent ≠ handle.agentId := by
      rintro rfl
      rw [inv.spawnedFor c call handle found phase] at channel
      exact AgentRegistry.handleOf_ne_none channel absent
    show (s.registry.register handle).txOf agent = some tx
    rw [AgentRegistry.txOf_register, update_of_ne differs]
    exact channel
  | lock | move | finish | refused | spawn | running => exact channel

/-- Only its own end, a later connection, a removal and a clean-up take a channel out of the
registry. -/
theorem reached_step (inv : Locked s) (reached : Reached agent n s)
    (current : Current agent n s event) (clean : NoCleanup agent s event)
    (next : step s event = some s') : Reached agent n s' := by
  rw [reached_iff] at reached ⊢
  cases event with
  | writerFails m =>
    rw [step] at next
    split at next
    · cases next
      show (s.registry.dropReceiver m).txOf agent = _
      rw [AgentRegistry.txOf_dropReceiver, reached, Option.map_some, if_neg (Ne.symm current)]
    · cases next
  | life =>
    cases step_spec next with
    | run found turned => exact txOf_turn inv found turned reached
    | @remove r removal reply phase found resolved =>
      show (s.registry.remove removal.agent).2.txOf agent = _
      rw [AgentRegistry.txOf_remove, update_of_ne, reached]
      exact Ne.symm (current removal found resolved)
    | @attach connection other registry attached =>
      show registry.txOf agent = _
      rw [AgentRegistry.txOf_attach attached, update_of_ne (Ne.symm current), reached]
    | @detach connection other found =>
      have differs : agent ≠ other := by
        rintro rfl
        exact clean found
      show (s.registry.detach other).txOf agent = _
      rw [AgentRegistry.txOf_detach, update_of_ne differs, reached]
    | call | stop | exit | rest => exact reached

theorem not_reached_of_cleanup (cleanup : ¬ NoCleanup agent s event)
    (next : step s event = some s') : ¬ Reached agent n s' := by
  rw [reached_iff]
  cases event with
  | writerFails => exact absurd trivial cleanup
  | life label =>
    cases label with
    | detach m =>
      have found : s.connections m = some agent := not_not.mp cleanup
      obtain ⟨other, found', rfl⟩ := Option.map_eq_some_iff.mp next
      cases found.symm.trans found'
      show (s.registry.detach agent).txOf agent ≠ _
      rw [AgentRegistry.txOf_detach, update_self]
      nofun
    | call | run | remove | runRemoval | attach | exit | create => exact absurd trivial cleanup

theorem reached_of_attach (next : step s (.life (.attach n agent)) = some s') :
    Reached agent n s' := by
  rw [reached_iff]
  simp only [step, Lifecycle.step] at next
  split at next
  · cases next
  · obtain ⟨registry, attached, rfl⟩ := Option.map_eq_some_iff.mp next
    show registry.txOf agent = _
    rw [AgentRegistry.txOf_attach attached, update_self]

end

/-- **When the newer connection stays connected**: exactly when no other connection of the agent is
cleaned up after it has attached. -/
theorem newer_reached_iff {agents : AgentId → Option Db.AgentStatus} {before after : List Event}
    {s s' t : System} {agent : AgentId} {n : ℕ} (ran : Run step anyStep (.initial agents) before s)
    (attached : step s (.life (.attach n agent)) = some s')
    (current : Run step (Current agent n) s' after t) :
    Always step (Reached agent n) s' after ↔
      Run step (fun s event => Current agent n s event ∧ NoCleanup agent s event) s' after t := by
  have inv : Locked s :=
    ran.invariant (fun _ _ _ inv _ next => locked_step inv next) (locked_initial agents)
  refine (run_iff_always Locked (fun _ _ _ inv _ next => locked_step inv next) ?_
    (locked_step inv attached) (reached_of_attach attached) current).symm
  intro s event s' inv reached ok next
  constructor
  · intro reached'
    refine ⟨ok, ?_⟩
    by_contra cleanup
    exact not_reached_of_cleanup cleanup next reached'
  · rintro ⟨-, clean⟩
    exact reached_step inv reached ok clean next

def restart : List Event :=
  let stop : List Label := [.remove 1 scribe .stop, .runRemoval 1 .done, .runRemoval 1 .done]
  let start : List Label := [.call 2 scribe] ++ List.replicate 8 (.run 2 .done)
  (firstStart ++ stop ++ start).map .life

def afterwards : List Event := [.life (.run 2 .done), .life (.call 3 scribe)]

theorem restarted_reached : ∃ s s' t,
    Run step anyStep (.initial fun _ => some .created) (restart ++ [.life (.detach 10)]) s ∧
      step s (.life (.attach 11 scribe)) = some s' ∧
      Run step (Current scribe 11) s' afterwards t ∧
      t.calls 3 = some ⟨scribe, .returned none⟩ ∧
      Always step (Reached scribe 11) s' afterwards := by
  let s := (exec step (.initial fun _ => some .created)
    (restart ++ [.life (.detach 10)])).get (by decide +kernel)
  let s' := (step s (.life (.attach 11 scribe))).get (by decide +kernel)
  have ran : Run step anyStep _ _ s := run_of_exec (Option.some_get _).symm
  have attached : step s (.life (.attach 11 scribe)) = some s' := (Option.some_get _).symm
  obtain ⟨t, clean, returned⟩ : ∃ t, Run step (fun s event =>
      Current scribe 11 s event ∧ NoCleanup scribe s event) s' afterwards t ∧
      t.calls 3 = some ⟨scribe, .returned none⟩ := exists_run (by decide +kernel)
  have current : Run step (Current scribe 11) s' afterwards t := clean.imp fun _ _ ok => ok.1
  exact ⟨s, s', t, ran, attached, current, returned,
    (newer_reached_iff ran attached current).mpr clean⟩

/-- **The older connection's clean-up cuts off the newer one**, which is alive. -/
theorem newer_cut_off : ∃ s s' t,
    Run step anyStep (.initial fun _ => some .created) restart s ∧
      step s (.life (.attach 11 scribe)) = some s' ∧
      Run step (Current scribe 11) s' [.life (.detach 10)] t ∧
      t.connections 11 = some scribe ∧ t.registry.isConnected scribe = false ∧
      t.registry.send scribe = .error (.notConnected scribe) := by
  let s := (exec step (.initial fun _ => some .created) restart).get (by decide +kernel)
  let s' := (step s (.life (.attach 11 scribe))).get (by decide +kernel)
  obtain ⟨t, reached⟩ : ∃ t, Run step (Current scribe 11) s' [.life (.detach 10)] t ∧
      t.connections 11 = some scribe ∧ t.registry.isConnected scribe = false ∧
      t.registry.send scribe = .error (.notConnected scribe) := exists_run (by decide +kernel)
  exact ⟨s, s', t, run_of_exec (Option.some_get _).symm, (Option.some_get _).symm, reached⟩

end Havn.Gateway.Connections
