import Havn.Gateway.Lifecycle

/-!
# Starts that race with stops

`ensure_running` holds the start lock of its agent; `stop` and `delete` do not take it.  So a start
and the end of an agent interleave freely and write the same state in different orders.  Still an
agent has at most one live process: starting another one drops the child before (`Spawner.Kept`).
-/

namespace Havn.Gateway.Lifecycle

open Havn.Core Db Lib Function

/-! ## At most one process -/

variable {s' s : System} {agent : AgentId}

namespace Spawner

variable {spawner : Spawner}

def Kept (spawner : Spawner) : Prop :=
  ∀ pid agent, spawner.live pid = some agent → spawner.children agent = some pid

theorem Kept.reap (kept : spawner.Kept) (pid : ℕ) : (spawner.reap pid).Kept := by
  intro other agent alive
  rw [live_reap] at alive
  split at alive
  · cases alive
  · exact kept other agent alive

theorem Kept.spawn (kept : spawner.Kept) (agent : AgentId) : (spawner.spawn agent).Kept := by
  intro pid owner alive
  show update spawner.children agent (some spawner.nextPid) owner = some pid
  rw [live_spawn] at alive
  split at alive
  · cases alive
    rw [update_self, ‹pid = spawner.nextPid›]
  split at alive
  · cases alive
  have child := kept pid owner alive
  -- the agent's own child has just been dropped, so this is another agent's
  have other : owner ≠ agent := by
    rintro rfl
    contradiction
  rw [update_of_ne other, child]

theorem live_of_stop {handle : AgentHandle} {pid : ℕ}
    (alive : (spawner.stop handle).live pid = some agent) :
    spawner.live pid = some agent ∧ spawner.children handle.agentId ≠ some pid := by
  have lived : ((spawner.doomed handle).foldl Spawner.reap spawner).live pid = some agent := alive
  rw [live_foldl_reap] at lived
  split at lived
  · cases lived
  rename_i spared
  refine ⟨lived, fun child => spared ?_⟩
  rw [doomed, child]
  exact List.mem_cons_of_mem _ List.mem_cons_self

/-- **Stopping an agent leaves none of its processes.** -/
theorem Kept.not_live_stop (kept : spawner.Kept) (handle : AgentHandle) (pid : ℕ) :
    (spawner.stop handle).live pid ≠ some handle.agentId := by
  intro alive
  obtain ⟨lived, spared⟩ := live_of_stop alive
  exact spared (kept pid handle.agentId lived)

theorem Kept.stop (kept : spawner.Kept) (handle : AgentHandle) : (spawner.stop handle).Kept := by
  intro pid agent alive
  show update spawner.children handle.agentId none agent = some pid
  have other : agent ≠ handle.agentId := by
    rintro rfl
    exact kept.not_live_stop handle pid alive
  rw [update_of_ne other]
  exact kept pid agent (live_of_stop alive).1

/-- **At most one process of an agent is alive.** -/
theorem Kept.unique (kept : spawner.Kept) {pid other : ℕ} (alive : spawner.live pid = some agent)
    (alive' : spawner.live other = some agent) : pid = other :=
  Option.some.inj ((kept pid agent alive).symm.trans (kept other agent alive'))

theorem Kept.step {label : Label} (kept : s.spawner.Kept)
    (next : step s label = some s') : s'.spawner.Kept := by
  cases step_spec next with
  | run found turned =>
    cases turned with
    | spawn => exact kept.spawn _
    | lock | move | finish | refused | register | running => exact kept
  | stop => exact kept.stop _
  | exit => exact kept.reap _
  | call | remove | attach | detach | rest => exact kept

end Spawner

/-! ## Keeping starts and stops apart -/

def Phase.starting : Phase → Bool
  | .preparing | .lookingUp | .spawning | .spawned _ | .registered => true
  | _ => false

def Phase.lookedUp : Phase → Bool
  | .spawning | .spawned _ | .registered => true
  | _ => false

def Phase.tentative : Phase → Bool
  | .spawned _ | .registered => true
  | _ => false

def RemovalPhase.underway : RemovalPhase → Bool
  | .removed _ | .finishing => true
  | _ => false

def RemovalPhase.stopping : RemovalPhase → Bool
  | .removed _ => true
  | _ => false

namespace System

def CallAt (s : System) (agent : AgentId) (p : Phase → Bool) : Prop :=
  HasEntry s.calls fun call => call.agent = agent ∧ p call.phase = true

def RemovalAt (s : System) (agent : AgentId) (p : RemovalPhase → Bool) : Prop :=
  HasEntry s.removals fun removal => removal.agent = agent ∧ p removal.phase = true

theorem CallAt.imp {p q : Phase → Bool} (called : s.CallAt agent p)
    (weaker : ∀ phase, p phase = true → q phase = true) : s.CallAt agent q :=
  HasEntry.imp (fun call => And.imp_right (weaker call.phase)) called

def Starting (s : System) (agent : AgentId) : Prop := s.CallAt agent Phase.starting

def Removing (s : System) (agent : AgentId) : Prop := s.RemovalAt agent RemovalPhase.underway

structure Settled (s : System) (agent : AgentId) : Prop where
  calls : ∀ c call, s.calls c = some call → call.agent = agent →
    ∃ error, call.phase = .returned error
  removals : ∀ r removal, s.removals r = some removal → removal.agent = agent →
    removal.phase = .done

end System

/-- **Starts and stops of the agent do not overlap**: no start begins while a request has the entry
and has not written the row; no request takes the entry while a call is starting; and a start's
status write does not fail. -/
def Apart (agent : AgentId) (s : System) : Label → Prop
  | .run c reply => ∀ call, s.calls c = some call → call.agent = agent →
      (call.phase = .rechecked → ¬ s.Removing agent) ∧ (call.phase = .registered → reply = .done)
  | .runRemoval r _ => ∀ removal, s.removals r = some removal → removal.agent = agent →
      removal.phase = .resolved → ¬ s.Starting agent
  | _ => True

variable {r c : ℕ} {removal : Removal} {call : Call} {reply : Reply}

theorem row_of_lookedUp (turned : turn s c call reply = some s') (phase : call.phase = .lookingUp)
    (moved : s' = s.moveTo c call .spawning) : s.agents call.agent ≠ none := by
  intro gone
  subst moved
  cases reply with
  | done | failed =>
    simp only [turn, phase, gone, Option.some.injEq] at turned
    have stored := congrFun (congrArg System.calls turned) c
    simp [System.finish, System.moveTo] at stored

theorem turn_registered (turned : turn s c call .done = some s')
    (phase : call.phase = .registered) (row : s.agents call.agent ≠ none) :
    s' = { s.moveTo c call .polling with
      agents := update s.agents call.agent (some .running) } := by
  simp only [turn, phase] at turned
  split at turned
  · contradiction
  · exact (Option.some.inj turned).symm

/-! ## Processes that are accounted for -/

/-- A live process runs under a registered handle with its status written, or a request is about to
stop it, or a call to write its status. -/
def System.Accounted (s : System) (agent : AgentId) : Prop :=
  (s.registry.handleOf agent ≠ none ∧ s.agents agent = some .running) ∨
    s.RemovalAt agent RemovalPhase.stopping ∨ s.CallAt agent Phase.tentative

structure Tidy (agent : AgentId) (s : System) : Prop where
  locked : Locked s
  kept : s.spawner.Kept
  handleFor : ∀ handle, s.registry.handleOf agent = some handle → handle.agentId = agent
  stopsFor : ∀ r removal handle, s.removals r = some removal → removal.agent = agent →
    removal.phase = .removed handle → handle.agentId = agent
  exclusive : s.Starting agent → ¬ s.Removing agent
  absent : s.Removing agent → s.registry.handleOf agent = none
  present : s.CallAt agent (· = .registered) → s.registry.handleOf agent ≠ none
  row : s.CallAt agent Phase.lookedUp → s.agents agent ≠ none
  accounted : ∀ pid, s.spawner.live pid = some agent → s.Accounted agent

theorem tidy_initial (agent : AgentId) (agents : AgentId → Option AgentStatus) :
    Tidy agent (.initial agents) where
  locked := locked_initial agents
  kept := nofun
  handleFor := nofun
  stopsFor := nofun
  exclusive := nofun
  absent := nofun
  present := nofun
  row := nofun
  accounted := nofun

theorem Phase.starting_of_lookedUp (phase : Phase) (h : phase.lookedUp = true) :
    phase.starting = true := by
  cases phase <;> first | rfl | cases h

theorem Phase.starting_of_tentative (phase : Phase) (h : phase.tentative = true) :
    phase.starting = true := by
  cases phase <;> first | rfl | cases h

namespace Tidy

variable {agent : AgentId} {s s' : System}

section

variable (tidy : Tidy agent s)

include tidy

/-! ### Steps that do not concern the agent -/

theorem frame (locked : Locked s') (kept : s'.spawner.Kept)
    (calls : ∀ p : Phase → Bool, p .waiting = false → p (.returned none) = false →
      (s'.CallAt agent p ↔ s.CallAt agent p))
    (removals : ∀ p : RemovalPhase → Bool, p .resolved = false →
      (s'.RemovalAt agent p ↔ s.RemovalAt agent p))
    (handles : s'.registry.handleOf agent = s.registry.handleOf agent)
    (row : s.agents agent ≠ none → s'.agents agent = s.agents agent)
    (live : ∀ pid, s'.spawner.live pid = some agent → s.spawner.live pid = some agent) :
    Tidy agent s' where
  locked := locked
  kept := kept
  handleFor := by rw [handles]; exact tidy.handleFor
  stopsFor := by
    intro r removal handle found mine phase
    obtain ⟨r, removal, found, mine, phase⟩ := (removals (· = .removed handle) rfl).mp
      ⟨r, removal, found, mine, decide_eq_true phase⟩
    exact tidy.stopsFor r removal handle found mine (of_decide_eq_true phase)
  exclusive := fun starting removing =>
    tidy.exclusive ((calls _ rfl rfl).mp starting) ((removals _ rfl).mp removing)
  absent := fun removing => handles.trans (tidy.absent ((removals _ rfl).mp removing))
  present := fun registered => handles ▸ tidy.present ((calls _ rfl rfl).mp registered)
  row := by
    intro lookedUp
    have there := tidy.row ((calls _ rfl rfl).mp lookedUp)
    rwa [row there]
  accounted := by
    intro pid alive
    refine (tidy.accounted pid (live pid alive)).imp ?_
      (Or.imp (removals _ rfl).mpr (calls _ rfl rfl).mpr)
    rintro ⟨present, running⟩
    rw [handles, row (by rw [running]; nofun)]
    exact ⟨present, running⟩

theorem turnOther (found : s.calls c = some call) (theirs : call.agent ≠ agent)
    (turned : Lifecycle.turn s c call reply = some s') : Tidy agent s' := by
  have spec := turn_spec turned
  have locked := tidy.locked.turn found spec
  have others : ∀ (phase : Phase) (p : Phase → Bool),
      HasEntry (update s.calls c (some { call with phase := phase }))
        (fun call => call.agent = agent ∧ p call.phase = true) ↔ s.CallAt agent p := by
    refine fun phase p => HasEntry.update_iff rfl (fun old found' => ?_) fun mine => theirs mine.1
    cases found.symm.trans found'
    exact fun mine => theirs mine.1
  cases spec with
  | lock | move | finish | refused =>
    exact tidy.frame locked tidy.kept (fun p _ _ => others _ p) (fun _ _ => .rfl) rfl
      (fun _ => rfl) fun _ => id
  | spawn =>
    refine tidy.frame locked (tidy.kept.spawn _) (fun p _ _ => others _ p) (fun _ _ => .rfl) rfl
      (fun _ => rfl) fun pid alive => ?_
    rw [Spawner.live_spawn] at alive
    split at alive
    · exact absurd (Option.some.inj alive) theirs
    split at alive
    · cases alive
    · exact alive
  | @register handle phase =>
    have other : agent ≠ handle.agentId := by
      rw [tidy.locked.spawnedFor c call handle found phase]
      exact Ne.symm theirs
    refine tidy.frame locked tidy.kept (fun p _ _ => others _ p) (fun _ _ => .rfl) ?_
      (fun _ => rfl) fun _ => id
    show (s.registry.register handle).handleOf agent = _
    rw [AgentRegistry.handleOf_register, update_of_ne other]
  | running =>
    exact tidy.frame locked tidy.kept (fun p _ _ => others _ p) (fun _ _ => .rfl) rfl
      (fun _ => update_of_ne (Ne.symm theirs) _ _) fun _ => id

theorem turnOtherRemoval (locked : Locked s') (found : s.removals r = some removal)
    (theirs : removal.agent ≠ agent) (turned : RemovalSpec s r removal s') : Tidy agent s' := by
  have others : ∀ (phase : RemovalPhase) (p : RemovalPhase → Bool),
      HasEntry (update s.removals r (some { removal with phase := phase }))
        (fun removal => removal.agent = agent ∧ p removal.phase = true) ↔ s.RemovalAt agent p := by
    refine fun phase p => HasEntry.update_iff rfl (fun old found' => ?_) fun mine => theirs mine.1
    cases found.symm.trans found'
    exact fun mine => theirs mine.1
  have handles : (s.registry.remove removal.agent).2.handleOf agent =
      s.registry.handleOf agent := by
    rw [AgentRegistry.handleOf_remove, update_of_ne (Ne.symm theirs)]
  cases turned with
  | take | pass =>
    exact tidy.frame locked tidy.kept (fun _ _ _ => .rfl) (fun p _ => others _ p) handles
      (fun _ => rfl) fun _ => id
  | @stop handle phase =>
    exact tidy.frame locked (tidy.kept.stop handle) (fun _ _ _ => .rfl) (fun p _ => others _ p) rfl
      (fun _ => rfl) fun _ alive => (Spawner.live_of_stop alive).1
  | write phase rows =>
    exact tidy.frame locked tidy.kept (fun _ _ _ => .rfl) (fun p _ => others _ p) rfl
      (fun _ => rows agent (Ne.symm theirs)) fun _ => id

/-! ### Steps of a call of the agent -/

theorem updateCall (locked : Locked s') (kept : s'.spawner.Kept)
    (calls : s'.calls = update s.calls c (some call)) (removals : s'.removals = s.removals)
    (handles : s'.registry.handleOf agent = s.registry.handleOf agent)
    (row : s.agents agent ≠ none → s'.agents agent ≠ none)
    (starts : call.phase.starting = true → s.Starting agent ∨ ¬ s.Removing agent)
    (enters : call.phase ≠ .registered)
    (looksUp : call.phase.lookedUp = true → s'.agents agent ≠ none)
    (accounted : ∀ pid, s'.spawner.live pid = some agent → s'.Accounted agent) : Tidy agent s' := by
  have removing : s'.Removing agent → s.Removing agent := by
    rintro ⟨r, removal, found, rest⟩
    exact ⟨r, removal, by rwa [removals] at found, rest⟩
  exact
    { locked := locked
      kept := kept
      handleFor := by rw [handles]; exact tidy.handleFor
      stopsFor := by rw [removals]; exact tidy.stopsFor
      exclusive := by
        intro starting underway
        have before : s.Starting agent ∨ ¬ s.Removing agent :=
          (HasEntry.of_update calls starting).elim (fun mine => starts mine.2) .inl
        rcases before with starting | stays
        · exact tidy.exclusive starting (removing underway)
        · exact stays (removing underway)
      absent := fun underway => handles.trans (tidy.absent (removing underway))
      present := by
        intro registered
        rw [handles]
        rcases HasEntry.of_update calls registered with ⟨-, phase⟩ | registered
        · exact absurd (of_decide_eq_true phase) enters
        · exact tidy.present registered
      row := by
        intro lookedUp
        rcases HasEntry.of_update calls lookedUp with ⟨-, phase⟩ | lookedUp
        · exact looksUp phase
        · exact row (tidy.row lookedUp)
      accounted := accounted }

theorem movePhase {phase phase' : Phase} {locks : AgentId → Option ℕ} {requests : List AgentId}
    (found : s.calls c = some ⟨agent, phase⟩) (locked : Locked s')
    (moved : s' = { s with
      calls := update s.calls c (some ⟨agent, phase'⟩), startLocks := locks, requests := requests })
    (settled : phase.tentative = false)
    (starts : phase'.starting = true → phase.starting = true ∨ ¬ s.Removing agent)
    (other : phase' ≠ .registered) (looksUp : phase'.lookedUp = true → s.agents agent ≠ none) :
    Tidy agent s' := by
  subst moved
  refine tidy.updateCall locked tidy.kept rfl rfl rfl id (fun starting => ?_) other looksUp
    fun pid alive => ?_
  · exact (starts starting).imp_left fun before => ⟨c, _, found, rfl, before⟩
  · refine (tidy.accounted pid alive).imp_right (Or.imp_right (HasEntry.update rfl ?_))
    rintro old found' ⟨-, tentative⟩
    cases found.symm.trans found'
    cases settled.symm.trans tentative

theorem register {handle : AgentHandle} (found : s.calls c = some ⟨agent, .spawned handle⟩) :
    Tidy agent { s.moveTo c ⟨agent, .spawned handle⟩ .registered with
      registry := s.registry.register handle } := by
  have own : handle.agentId = agent := tidy.locked.spawnedFor c _ handle found rfl
  have starting : s.Starting agent := ⟨c, _, found, rfl, rfl⟩
  have entered : (s.registry.register handle).handleOf agent = some handle := by
    rw [AgentRegistry.handleOf_register, ← own, update_self]
  exact
    { tidy with
      locked := tidy.locked.register found rfl
      handleFor := by
        intro handle' found'
        cases entered.symm.trans found'
        exact own
      exclusive := fun _ => tidy.exclusive starting
      absent := fun underway => absurd underway (tidy.exclusive starting)
      present := by
        intro _ gone
        cases entered.symm.trans gone
      row := fun _ => tidy.row ⟨c, _, found, rfl, rfl⟩
      accounted := fun pid _ => .inr (.inr ⟨c, _, update_self .., rfl, rfl⟩) }

theorem writeStatus (found : s.calls c = some ⟨agent, .registered⟩) (locked : Locked s')
    (turned : Lifecycle.turn s c ⟨agent, .registered⟩ .done = some s') : Tidy agent s' := by
  have running : update s.agents agent (some .running) agent = some .running := update_self ..
  obtain rfl := turn_registered turned rfl (tidy.row ⟨c, _, found, rfl, rfl⟩)
  refine tidy.updateCall locked tidy.kept rfl rfl rfl ?_ nofun nofun nofun
    fun _ _ => .inl ⟨tidy.present ⟨c, _, found, rfl, rfl⟩, running⟩
  intro _ gone
  cases running.symm.trans gone

theorem spawn (found : s.calls c = some ⟨agent, .spawning⟩)
    (locked : Locked { (s.request agent).moveTo c ⟨agent, .spawning⟩
      (.spawned ⟨agent, s.spawner.nextPid⟩) with spawner := s.spawner.spawn agent }) :
    Tidy agent { (s.request agent).moveTo c ⟨agent, .spawning⟩
      (.spawned ⟨agent, s.spawner.nextPid⟩) with spawner := s.spawner.spawn agent } :=
  tidy.updateCall locked (tidy.kept.spawn _) rfl rfl rfl id
    (fun _ => .inl ⟨c, _, found, rfl, rfl⟩) nofun (fun _ => tidy.row ⟨c, _, found, rfl, rfl⟩)
    fun _ _ => .inr (.inr ⟨c, _, update_self .., rfl, rfl⟩)

theorem turn {phase : Phase} (found : s.calls c = some ⟨agent, phase⟩)
    (apart : (phase = .rechecked → ¬ s.Removing agent) ∧ (phase = .registered → reply = .done))
    (turned : Lifecycle.turn s c ⟨agent, phase⟩ reply = some s') : Tidy agent s' := by
  have spec := turn_spec turned
  have locked := tidy.locked.turn found spec
  by_cases writes : phase = .registered
  · subst writes
    obtain rfl := apart.2 rfl
    exact tidy.writeStatus found locked turned
  cases spec with
  | lock phase | refused phase =>
    cases phase
    exact tidy.movePhase found locked rfl rfl nofun nofun nofun
  | move advance =>
    cases advance with
    | recheck | wait => exact tidy.movePhase found locked rfl rfl nofun nofun nofun
    | prepare => exact tidy.movePhase found locked rfl rfl (fun _ => .inr (apart.1 rfl)) nofun nofun
    | lookUp => exact tidy.movePhase found locked rfl rfl (fun _ => .inl rfl) nofun nofun
    | ready =>
      exact tidy.movePhase found locked rfl rfl (fun _ => .inl rfl) nofun
        fun _ => row_of_lookedUp turned rfl rfl
  | finish ends =>
    refine tidy.movePhase found locked rfl ?_ nofun nofun nofun
    cases ends with
    | status => exact absurd rfl writes
    | raced | workspace | lookup | missing | polled => rfl
  | spawn phase =>
    cases phase
    exact tidy.spawn found locked
  | register phase =>
    cases phase
    exact tidy.register found
  | running phase => exact absurd phase writes

/-! ### Steps of a request for the agent -/

theorem updateRemoval (locked : Locked s') (kept : s'.spawner.Kept)
    (removals : s'.removals = update s.removals r (some removal)) (calls : s'.calls = s.calls)
    (registry : s'.registry = s.registry)
    (row : s.CallAt agent Phase.lookedUp → s'.agents agent ≠ none)
    (stopped : ∀ handle, removal.phase ≠ .removed handle)
    (underway : removal.phase.underway = true → s.Removing agent)
    (accounted : ∀ pid, s'.spawner.live pid = some agent → s'.Accounted agent) : Tidy agent s' := by
  have called : ∀ {p}, s'.CallAt agent p → s.CallAt agent p := by
    rintro p ⟨c, call, found, rest⟩
    exact ⟨c, call, by rwa [calls] at found, rest⟩
  have removing : s'.Removing agent → s.Removing agent := fun at_ =>
    (HasEntry.of_update removals at_).elim (fun mine => underway mine.2) id
  exact
    { locked := locked
      kept := kept
      handleFor := by rw [registry]; exact tidy.handleFor
      stopsFor := by
        intro r' removal' handle found mine phase
        rw [removals] at found
        rcases update_eq_some found with ⟨-, rfl⟩ | ⟨-, found⟩
        · exact absurd phase (stopped handle)
        · exact tidy.stopsFor r' removal' handle found mine phase
      exclusive := fun starting at_ => tidy.exclusive (called starting) (removing at_)
      absent := fun at_ => registry ▸ tidy.absent (removing at_)
      present := fun registered => registry ▸ tidy.present (called registered)
      row := fun lookedUp => row (called lookedUp)
      accounted := accounted }

theorem takeEntry {phase : RemovalPhase} (mine : removal.agent = agent) (quiet : ¬ s.Starting agent)
    (locked : Locked s') (taken : s' = { s.moveRemoval r removal phase with
      registry := (s.registry.remove removal.agent).2 })
    (own : ∀ handle, phase = .removed handle → s.registry.handleOf agent = some handle)
    (accounted : ∀ pid, s.spawner.live pid = some agent → s'.Accounted agent) :
    Tidy agent s' := by
  subst taken
  have gone : (s.registry.remove removal.agent).2.handleOf agent = none := by
    rw [AgentRegistry.handleOf_remove, mine, update_self]
  exact
    { locked := locked
      kept := tidy.kept
      handleFor := by
        intro handle found
        cases gone.symm.trans found
      stopsFor := by
        intro r' removal' handle found mine' phase'
        rcases update_eq_some found with ⟨-, rfl⟩ | ⟨-, found⟩
        · exact tidy.handleFor handle (own handle phase')
        · exact tidy.stopsFor r' removal' handle found mine' phase'
      exclusive := fun starting => absurd starting quiet
      absent := fun _ => gone
      present := fun registered => absurd
        (registered.imp fun _ same => of_decide_eq_true same ▸ rfl) quiet
      row := fun lookedUp => absurd (lookedUp.imp Phase.starting_of_lookedUp) quiet
      accounted := accounted }

theorem turnRemoval {kind : RemovalKind} {phase : RemovalPhase} (locked : Locked s')
    (found : s.removals r = some ⟨agent, kind, phase⟩)
    (apart : phase = .resolved → ¬ s.Starting agent)
    (turned : RemovalSpec s r ⟨agent, kind, phase⟩ s') : Tidy agent s' := by
  have stopping : phase.stopping = false → ∀ {phase' : RemovalPhase},
      s.RemovalAt agent RemovalPhase.stopping →
      HasEntry (update s.removals r (some ⟨agent, kind, phase'⟩))
        fun removal => removal.agent = agent ∧ removal.phase.stopping = true := by
    intro settled phase'
    refine HasEntry.update rfl ?_
    rintro old found' ⟨-, stops⟩
    cases found.symm.trans found'
    cases settled.symm.trans stops
  cases turned with
  | take phase entry =>
    refine tidy.takeEntry rfl (apart phase) locked rfl ?_
      fun _ _ => .inr (.inl ⟨r, _, update_self .., rfl, rfl⟩)
    rintro handle' ⟨⟩
    exact entry
  | pass phase entry =>
    refine tidy.takeEntry rfl (apart phase) locked rfl nofun fun pid alive => ?_
    cases phase
    rcases tidy.accounted pid alive with ⟨present, -⟩ | stops | tentative
    · exact absurd entry present
    · exact .inr (.inl (stopping rfl stops))
    · exact absurd (tentative.imp Phase.starting_of_tentative) (apart rfl)
  | @stop handle phase =>
    cases phase
    have own := tidy.stopsFor r _ handle found rfl rfl
    refine tidy.updateRemoval locked (tidy.kept.stop handle) rfl rfl rfl tidy.row nofun
      (fun _ => ⟨r, _, found, rfl, rfl⟩) fun pid alive => ?_
    exact absurd (own ▸ alive) (tidy.kept.not_live_stop handle pid)
  | write phase =>
    cases phase
    have removing : s.Removing agent := ⟨r, _, found, rfl, rfl⟩
    refine tidy.updateRemoval locked tidy.kept rfl rfl rfl (fun lookedUp => ?_) nofun nofun
      fun pid alive => ?_
    · exact absurd removing (tidy.exclusive (lookedUp.imp Phase.starting_of_lookedUp))
    · rcases tidy.accounted pid alive with ⟨present, -⟩ | stops | tentative
      · exact absurd (tidy.absent removing) present
      · exact .inr (.inl (stopping rfl stops))
      · exact .inr (.inr tentative)

end

/-- **Every step that keeps starts and stops apart preserves the invariant.** -/
theorem step {label : Label} (tidy : Tidy agent s) (apart : Apart agent s label)
    (next : Lifecycle.step s label = some s') : Tidy agent s' := by
  have locked := tidy.locked.step next
  have kept := tidy.kept.step next
  cases label with
  | call c agent' =>
    simp only [Lifecycle.step] at next
    split at next
    · cases next
    have fresh : s.calls c = none := by simpa using ‹¬ (s.calls c).isSome = true›
    have called : ∀ {phase : Phase} {p : Phase → Bool}, p phase = false →
        (HasEntry (update s.calls c (some ⟨agent', phase⟩))
          (fun call => call.agent = agent ∧ p call.phase = true) ↔ s.CallAt agent p) :=
      fun quiet => HasEntry.update_iff rfl (fun old found => by cases fresh.symm.trans found)
        (by simp [quiet])
    split at next <;> cases next
    · exact tidy.frame locked kept (fun _ _ returned => called returned) (fun _ _ => .rfl) rfl
        (fun _ => rfl) fun _ => id
    · exact tidy.frame locked kept (fun _ waiting _ => called waiting) (fun _ _ => .rfl) rfl
        (fun _ => rfl) fun _ => id
  | run =>
    obtain ⟨call, found, turned⟩ := Option.bind_eq_some_iff.mp next
    by_cases mine : call.agent = agent
    · obtain ⟨_, phase⟩ := call
      cases mine
      exact tidy.turn found (apart _ found rfl) turned
    · exact tidy.turnOther found mine turned
  | remove r =>
    simp only [Lifecycle.step] at next
    split at next
    · cases next
    have fresh : s.removals r = none := by
      simpa using (not_or.mp ‹¬ ((s.removals r).isSome = true ∨ _)›).1
    cases next
    refine tidy.frame locked kept (fun _ _ _ => .rfl) (fun p resolved => HasEntry.update_iff rfl
      (fun old found => ?_) (by simp [resolved])) rfl (fun _ => rfl) fun _ => id
    cases fresh.symm.trans found
  | runRemoval =>
    obtain ⟨removal, found, turned⟩ := Option.bind_eq_some_iff.mp next
    have spec := turnRemoval_spec turned
    by_cases mine : removal.agent = agent
    · obtain ⟨_, kind, phase⟩ := removal
      cases mine
      exact tidy.turnRemoval locked found (apart _ found rfl) spec
    · exact tidy.turnOtherRemoval locked found mine spec
  | attach =>
    simp only [Lifecycle.step] at next
    split at next
    · cases next
    obtain ⟨registry, attached, rfl⟩ := Option.map_eq_some_iff.mp next
    exact tidy.frame locked kept (fun _ _ _ => .rfl) (fun _ _ => .rfl)
      (congrFun (AgentRegistry.handleOf_attach attached) agent) (fun _ => rfl) fun _ => id
  | detach =>
    obtain ⟨agent', found, rfl⟩ := Option.map_eq_some_iff.mp next
    exact tidy.frame locked kept (fun _ _ _ => .rfl) (fun _ _ => .rfl)
      (congrFun (AgentRegistry.handleOf_detach _ _) agent) (fun _ => rfl) fun _ => id
  | exit =>
    simp only [Lifecycle.step] at next
    split at next <;> cases next
    refine tidy.frame locked kept (fun _ _ _ => .rfl) (fun _ _ => .rfl) rfl (fun _ => rfl)
      fun other alive => ?_
    simp only [Spawner.live_reap] at alive
    split at alive
    · cases alive
    · exact alive
  | create =>
    simp only [Lifecycle.step] at next
    split at next <;> cases next
    rename_i vacant
    refine tidy.frame locked kept (fun _ _ _ => .rfl) (fun _ _ => .rfl) rfl (fun there => ?_)
      fun _ => id
    refine update_of_ne ?_ _ _
    rintro rfl
    exact there vacant

end Tidy

/-! ## Once all have returned -/

/-- **At most one process of an agent is alive**; and once all have returned, if starts and stops
did not overlap, only if its row says that it is running. -/
theorem settled_running {agents : AgentId → Option AgentStatus} {labels : List Label}
    {s : System} {agent : AgentId} (ran : Run step anyStep (.initial agents) labels s) :
    (∀ pid other, s.spawner.live pid = some agent → s.spawner.live other = some agent →
      pid = other) ∧
    (Run step (Apart agent) (.initial agents) labels s → s.Settled agent →
      ∀ pid, s.spawner.live pid = some agent → s.agents agent = some .running) := by
  have preserved : ∀ (s : System) (label : Label) (s' : System), s.spawner.Kept →
      anyStep s label → step s label = some s' → s'.spawner.Kept :=
    fun _ _ _ kept _ next => kept.step next
  have kept := ran.invariant preserved (tidy_initial agent agents).kept
  refine ⟨fun pid other alive alive' => kept.unique alive alive', fun apart settled pid alive => ?_⟩
  have tidy : Tidy agent s :=
    apart.invariant (fun _ _ _ tidy ok next => tidy.step ok next) (tidy_initial agent agents)
  rcases tidy.accounted pid alive with ⟨-, running⟩ | stopping | tentative
  · exact running
  · obtain ⟨r, removal, found, mine, phase⟩ := stopping
    rw [settled.removals r removal found mine] at phase
    cases phase
  · obtain ⟨c, call, found, mine, phase⟩ := tentative
    obtain ⟨error, returned⟩ := settled.calls c call found mine
    rw [returned] at phase
    cases phase

/-! ## A run of two starts and a stop -/

/-- There are two calls and one request at most. -/
structure System.Few (s : System) : Prop where
  calls : ∀ c, s.calls (c + 2) = none
  removals : ∀ r, s.removals (r + 1) = none

/-- The label is for one of them, and keeps starts and stops apart. -/
def Checked (s : System) : Label → Prop
  | .call c _ => c < 2
  | .remove r _ _ => r < 1
  | .run c reply => (s.calls c).all (fun call =>
    (call.phase = .rechecked → (s.removals 0).all (!·.phase.underway) = true) ∧
      (call.phase = .registered → reply = .done)) = true
  | .runRemoval r _ => (s.removals r).all (fun removal => removal.phase = .resolved →
    (s.calls 0).all (!·.phase.starting) = true ∧ (s.calls 1).all (!·.phase.starting) = true) = true
  | _ => True

instance (s : System) : ∀ label, Decidable (Checked s label)
  | .call c _ => inferInstanceAs (Decidable (c < 2))
  | .remove r _ _ => inferInstanceAs (Decidable (r < 1))
  | .run _ _ | .runRemoval _ _ => inferInstanceAs (Decidable (_ = true))
  | .attach _ _ | .detach _ | .exit _ | .create _ => inferInstanceAs (Decidable True)

namespace System.Few

variable (few : s.Few)

include few

theorem updateCall {call : Option Call} (calls : s'.calls = update s.calls c call) (early : c < 2)
    (removals : s'.removals = s.removals) : s'.Few where
  calls c' := by
    rw [calls, update_of_ne (by omega), few.calls]
  removals r' := by
    rw [removals, few.removals]

theorem updateRemoval {removal : Option Removal}
    (removals : s'.removals = update s.removals r removal) (early : r < 1)
    (calls : s'.calls = s.calls) : s'.Few where
  calls c' := by
    rw [calls, few.calls]
  removals r' := by
    rw [removals, update_of_ne (by omega), few.removals]

theorem early_of_call (found : s.calls c = some call) : c < 2 := by
  by_contra late
  obtain ⟨c', rfl⟩ := Nat.exists_eq_add_of_le' (Nat.not_lt.mp late)
  cases (few.calls c').symm.trans found

theorem early_of_removal (found : s.removals r = some removal) : r < 1 := by
  by_contra late
  obtain ⟨r', rfl⟩ := Nat.exists_eq_add_of_le' (Nat.not_lt.mp late)
  cases (few.removals r').symm.trans found

theorem step {label : Label} (checked : Checked s label)
    (next : step s label = some s') : s'.Few := by
  cases label with
  | call c =>
    simp only [Lifecycle.step] at next
    split at next
    · cases next
    · split at next <;> cases next
      · exact few.updateCall rfl checked rfl
      · exact few.updateCall rfl checked rfl
  | run =>
    obtain ⟨call, found, turned⟩ := Option.bind_eq_some_iff.mp next
    have early := few.early_of_call found
    cases turn_spec turned <;> exact few.updateCall rfl early rfl
  | remove =>
    simp only [Lifecycle.step] at next
    split at next <;> cases next
    exact few.updateRemoval rfl checked rfl
  | runRemoval =>
    obtain ⟨removal, found, turned⟩ := Option.bind_eq_some_iff.mp next
    have early := few.early_of_removal found
    cases turnRemoval_spec turned <;> exact few.updateRemoval rfl early rfl
  | attach =>
    simp only [Lifecycle.step] at next
    split at next
    · cases next
    · obtain ⟨registry, -, rfl⟩ := Option.map_eq_some_iff.mp next
      exact ⟨few.calls, few.removals⟩
  | detach =>
    obtain ⟨agent, -, rfl⟩ := Option.map_eq_some_iff.mp next
    exact ⟨few.calls, few.removals⟩
  | exit | create =>
    simp only [Lifecycle.step] at next
    split at next <;> cases next
    exact ⟨few.calls, few.removals⟩

theorem settled (first : (s.calls 0).all (fun call => call.phase = .returned none) = true)
    (second : (s.calls 1).all (fun call => call.phase = .returned none) = true)
    (done : (s.removals 0).all (fun removal => removal.phase = .done) = true) :
    s.Settled agent where
  calls := by
    intro c call found _
    match c with
    | 0 =>
      rw [found] at first
      exact ⟨none, of_decide_eq_true first⟩
    | 1 =>
      rw [found] at second
      exact ⟨none, of_decide_eq_true second⟩
    | c + 2 => cases (few.calls c).symm.trans found
  removals := by
    intro r removal found _
    match r with
    | 0 =>
      rw [found] at done
      exact of_decide_eq_true done
    | r + 1 => cases (few.removals r).symm.trans found

theorem not_removing (free : (s.removals 0).all (!·.phase.underway) = true) :
    ¬ s.Removing agent := by
  rintro ⟨r, removal, found, -, underway⟩
  match r with
  | 0 =>
    rw [found, Option.all_some, underway] at free
    cases free
  | r + 1 => cases (few.removals r).symm.trans found

theorem not_starting (first : (s.calls 0).all (!·.phase.starting) = true)
    (second : (s.calls 1).all (!·.phase.starting) = true) : ¬ s.Starting agent := by
  rintro ⟨c, call, found, -, starting⟩
  match c with
  | 0 =>
    rw [found, Option.all_some, starting] at first
    cases first
  | 1 =>
    rw [found, Option.all_some, starting] at second
    cases second
  | c + 2 => cases (few.calls c).symm.trans found

theorem apart {label : Label} (checked : Checked s label) : Apart agent s label := by
  cases label with
  | run =>
    intro call found _
    simp only [Checked, found, Option.all_some, decide_eq_true_eq] at checked
    exact ⟨fun phase => few.not_removing (checked.1 phase), checked.2⟩
  | runRemoval =>
    intro removal found _ phase
    simp only [Checked, found, Option.all_some, decide_eq_true_eq] at checked
    exact few.not_starting (checked phase).1 (checked phase).2
  | call | remove | attach | detach | exit | create => trivial

end System.Few

theorem few_and_apart_of_checked (agent : AgentId)
    (ran : Run step Checked (.initial agents) labels s) :
    s.Few ∧ Run step (Apart agent) (.initial agents) labels s := by
  induction ran with
  | nil => exact ⟨⟨fun _ => rfl, fun _ => rfl⟩, .nil _⟩
  | snoc _ checked next ih => exact ⟨ih.1.step checked next, .snoc ih.2 (ih.1.apart checked) next⟩

/-- The agent is started, stopped and started again. -/
def restart : List Label :=
  [.call 0 scribe] ++ List.replicate 8 (.run 0 .done) ++ [.attach 10 scribe, .run 0 .done,
    .remove 0 scribe .stop] ++ List.replicate 3 (.runRemoval 0 .done) ++ [.detach 10,
    .call 1 scribe] ++ List.replicate 8 (.run 1 .done) ++ [.attach 11 scribe, .run 1 .done]

theorem restarted_running : ∃ s, Run step (Apart scribe) (.initial fun _ => some .created)
    restart s ∧ s.Settled scribe ∧ s.spawner.live 2 = some scribe ∧
      s.agents scribe = some .running := by
  have computed : (checkedExec step Checked (.initial fun _ => some .created) restart).any (fun s =>
      ((s.calls 0).all (fun call => call.phase = .returned none) = true ∧
        (s.calls 1).all (fun call => call.phase = .returned none) = true) ∧
      (s.removals 0).all (fun removal => removal.phase = .done) = true ∧
        s.spawner.live 2 = some scribe) = true := by decide +kernel
  obtain ⟨s, ran, ⟨first, second⟩, done, alive⟩ := exists_run computed
  obtain ⟨few, run⟩ := few_and_apart_of_checked scribe ran
  have settled : s.Settled scribe := few.settled first second done
  exact ⟨s, run, settled, alive,
    (settled_running (run.imp fun _ _ _ => trivial)).2 run settled 2 alive⟩

/-- A request looks into the registry before the start's handle is registered. -/
def overtaken (kind : RemovalKind) : List Label :=
  [.call 0 scribe] ++ List.replicate 6 (.run 0 .done) ++
    [.remove 0 scribe kind, .runRemoval 0 .done, .run 0 .done, .run 0 .done,
      .runRemoval 0 .done, .attach 10 scribe, .run 0 .done]

/-- **A stopped agent keeps running, and so does a deleted one**, when the request comes between the
spawn and the registration. -/
theorem stopped_and_deleted_alive : ∃ s t : System,
    Run step anyStep (.initial fun _ => some .created) (overtaken .stop) s ∧
      s.Settled scribe ∧ s.spawner.live 1 = some scribe ∧ s.agents scribe = some .stopped ∧
    Run step anyStep (.initial fun _ => some .created) (overtaken .delete) t ∧
      t.Settled scribe ∧ t.spawner.live 1 = some scribe ∧ t.agents scribe = none := by
  let agents : AgentId → Option AgentStatus := fun _ => some .created
  let s := (exec step (.initial agents) (overtaken .stop)).get (by decide +kernel)
  let t := (exec step (.initial agents) (overtaken .delete)).get (by decide +kernel)
  have stopped : s.Settled scribe :=
    System.Few.settled ⟨fun _ => rfl, fun _ => rfl⟩ (by decide +kernel) (by decide +kernel)
      (by decide +kernel)
  have deleted : t.Settled scribe :=
    System.Few.settled ⟨fun _ => rfl, fun _ => rfl⟩ (by decide +kernel) (by decide +kernel)
      (by decide +kernel)
  exact ⟨s, t, run_of_exec (Option.some_get _).symm, stopped, by decide +kernel,
    by decide +kernel, run_of_exec (Option.some_get _).symm, deleted, by decide +kernel,
    by decide +kernel⟩

end Havn.Gateway.Lifecycle
