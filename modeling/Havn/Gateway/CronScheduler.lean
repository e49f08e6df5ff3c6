import Havn.Gateway.AgentRegistry
import Havn.Gateway.CronApi
import Havn.Lib.Machine
import Havn.Proto.Messages

/-!
# The cron scheduler

`havn-gateway/src/cron.rs`: once a minute the scheduler spawns a task for each job that is due.  A
task runs the wake-check, sends a `CronTick` to the agent and only then advances the row.

Ticks, tasks, connections and the endpoints on jobs run concurrently on one table, each with a label
of its own.  A task stands between two awaits (`Phase`) for any time, and the database may refuse
the row's update.
-/

namespace Havn.Gateway.CronScheduler

open Havn.Core Lib Lib.Calendar Proto Db Db.Cron List Function

/-! ## Wake-checks -/

/-- Seconds between two ticks. -/
def tickInterval : ℕ := 60

/-- How many jobs a tick picks up. -/
def tickBatchLimit : ℕ := 100

/-- How many bytes of a script's output are looked at. -/
def wakeCheckStdoutCap : ℕ := 64 * 1024

/-- How many wake-checks run at once. -/
def wakeCheckConcurrency : ℕ := 16

/-- How the subprocess of a wake-check ends. -/
inductive WakeEnd
  | execFailed
  | timedOut
  | output (stdout : List UInt8)

/-- The decoders a wake-check's output goes through. -/
structure Decoders where
  fromUtf8Lossy : List UInt8 → String
  fromStr : String → Option Json

/-- The last line that is not blank, trimmed; empty if there is none. -/
def lastLine (stdout : String) : String :=
  let lines := (stdout.toList.splitOn '\n').map fun line => trim (String.ofList line)
  (lines.reverse.find? (· ≠ "")).getD ""

/-- Only `"wakeAgent": false` on the last line says no. -/
def wakeDecision (decoders : Decoders) : WakeEnd → Bool
  | .execFailed | .timedOut => true
  | .output stdout =>
    let line := lastLine (decoders.fromUtf8Lossy (stdout.take wakeCheckStdoutCap))
    ((decoders.fromStr line).bind fun value => (value.get "wakeAgent").bind Json.asBool).getD true

/-! ## The system -/

/-- Where a dispatch task stands. -/
inductive Phase
  | started
  | queued
  | checking
  | recording (now : Instant)
  | skipping (now : Instant)
  | connecting
  | sending
  | delivering (tx : Sender)
  | advancing (now : Instant)
deriving DecidableEq

/-- A dispatch task, with the job as it was listed. -/
structure Task where
  job : CronJob
  phase : Phase := .started
deriving DecidableEq

/-- A `CronTick` that an agent's channel accepted. -/
structure Delivered where
  job : CronJob
  connection : ℕ
  frame : CronTick
deriving DecidableEq

/-- The due instant a tick was sent for. -/
def Delivered.due (tick : Delivered) : CronJobId × Instant :=
  (tick.job.id, tick.job.nextRunAt)

/-- The table, the connections, the clock, the tasks and what was delivered. -/
structure System where
  table : Table := []
  registry : AgentRegistry
  clock : Instant
  lastTick : Instant
  listing : Option Instant := none
  permits : ℕ := wakeCheckConcurrency
  tasks : ℕ → Option Task := fun _ => none
  nextTask : ℕ := 0
  ticks : List Delivered := []

/-- What an awaited operation answers. -/
inductive Reply
  | ready
  | woken (wakeEnd : WakeEnd)
  | failed (error : DbError)
  | closed

inductive Label
  | wait (seconds : ℕ)
  | tick
  | list (fault : Option DbError)
  | run (i : ℕ) (reply : Reply)
  | agents (registry : AgentRegistry)
  | create (job : CronJob)
  | setEnabled (id : CronJobId) (enabled : Bool)
  | delete (id : CronJobId)

/-! ## The steps -/

/-- The frame for a job. -/
def cronTick (job : CronJob) : CronTick where
  jobId := job.id.toString
  prompt := job.prompt
  enabledToolsets := job.enabledToolsets

namespace System

variable (s : System)

/-- Task `i` goes on to `phase`. -/
def moveTo (i : ℕ) (task : Task) (phase : Phase) : System :=
  { s with tasks := update s.tasks i (some { task with phase := phase }) }

/-- Task `i` returns. -/
def finish (i : ℕ) : System :=
  { s with tasks := update s.tasks i none }

/-- The last statement of a task.  It returns whether or not the row could be
advanced. -/
def advance (i : ℕ) (job : CronJob) (now : Instant) (fault : Option DbError) : System :=
  match advanceAfterRun s.table fault job.id job.schedule now with
  | some (.ok table) => { s.finish i with table := table }
  | some (.error _) | none => s.finish i

/-- One new task for each listed job. -/
def dispatch (due : List CronJob) : System :=
  { s with
    listing := none
    tasks := fun i =>
      if i < s.nextTask then s.tasks i else due[i - s.nextTask]?.map fun job => { job }
    nextTask := s.nextTask + due.length }

end System

section Steps

variable (texts : Texts) (decoders : Decoders)

/-- Run a task to its next await; `none` while it cannot move. -/
def turn (s : System) (i : ℕ) (task : Task) (reply : Reply) : Option System :=
  match task.phase, reply with
  | .started, .ready =>
    some (s.moveTo i task (if task.job.wakeCheck.isSome then .queued else .connecting))
  | .queued, .ready =>
    if s.permits = 0 then none
    else some { s.moveTo i task .checking with permits := s.permits - 1 }
  | .checking, .woken wakeEnd =>
    let phase := if wakeDecision decoders wakeEnd then .connecting else .recording s.clock
    some { s.moveTo i task phase with permits := s.permits + 1 }
  -- a run that cannot be recorded is skipped all the same
  | .recording now, .ready | .recording now, .failed _ => some (s.moveTo i task (.skipping now))
  | .skipping now, .ready => some (s.advance i task.job now none)
  | .skipping now, .failed e => some (s.advance i task.job now (some e))
  | .connecting, .ready =>
    if s.registry.isConnected task.job.agentId then some (s.moveTo i task .sending)
    else some (s.finish i)
  | .sending, .ready =>
    match (s.registry.inner task.job.agentId).bind Entry.tx with
    | some tx => some (s.moveTo i task (.delivering tx))
    | none => some (s.finish i)
  | .delivering tx, .ready =>
    some { s.moveTo i task (.advancing s.clock) with
      ticks := s.ticks ++ [⟨task.job, tx.connection, cronTick task.job⟩] }
  | .delivering _, .closed => some (s.finish i)
  | .advancing now, .ready => some (s.advance i task.job now none)
  | .advancing now, .failed e => some (s.advance i task.job now (some e))
  | _, _ => none

/-- The interval has elapsed since it last fired. -/
def System.TickDue (s : System) : Prop :=
  s.lastTick.later tickInterval ≤ s.clock
  deriving Decidable

/-- One step of the scheduler and of what is around it. -/
def step (s : System) : Label → Option System
  | .wait seconds => some { s with clock := s.clock.later seconds }
  | .tick =>
    if s.listing = none ∧ s.TickDue then
      some { s with lastTick := s.clock, listing := some s.clock }
    else none
  | .list fault => s.listing.map fun now =>
    match fault, listDue texts s.table now tickBatchLimit with
    | none, .ok due => s.dispatch due
    | _, _ => { s with listing := none }
  | .run i reply => (s.tasks i).bind fun task => turn decoders s i task reply
  | .agents registry => some { s with registry := registry }
  -- the endpoint stores no interval below one second
  | .create job =>
    if job.schedule.Positive then
      (Cron.insert texts s.table none job).toOption.map fun table => { s with table := table }
    else none
  | .setEnabled id enabled =>
    (Cron.setEnabled s.table id enabled).toOption.map fun table => { s with table := table }
  | .delete id => (Cron.delete s.table id).toOption.map fun table => { s with table := table }

end Steps

/-- A gateway that has just started.  The interval fires at once, and that firing is skipped. -/
def System.initial (registry : AgentRegistry) (clock : Instant) : System where
  registry := registry
  clock := clock
  lastTick := clock

/-! ## What a task can do -/

/-- The phase after the tick went out. -/
def Phase.sent : Phase → Bool
  | .advancing _ => true
  | _ => false

/-- The time a phase will advance the row from. -/
def Phase.firedAt : Phase → Option Instant
  | .recording now | .skipping now | .advancing now => some now
  | _ => none

/-- Everything a turn of a task can do. -/
inductive TurnSpec (s : System) (i : ℕ) (task : Task) (reply : Reply) : System → Prop
  | move {phase : Phase} {permits : ℕ} (pending : task.phase.sent = false)
      (fired : ∀ now, phase.firedAt = some now → now = s.clock ∨ task.phase.firedAt = some now) :
      TurnSpec s i task reply { s.moveTo i task phase with permits := permits }
  | giveUp (pending : task.phase.sent = false) : TurnSpec s i task reply (s.finish i)
  | deliver {tx : Sender} (phase : task.phase = .delivering tx) :
      TurnSpec s i task reply { s.moveTo i task (.advancing s.clock) with
        ticks := s.ticks ++ [⟨task.job, tx.connection, cronTick task.job⟩] }
  | advance {now : Instant} {fault : Option DbError} (fired : task.phase.firedAt = some now)
      (answered : fault = none ∨ ∃ e, reply = .failed e) :
      TurnSpec s i task reply (s.advance i task.job now fault)

variable {task : Task} {i : ℕ}

theorem turn_spec {decoders : Decoders} {s s' : System} {reply : Reply}
    (turned : turn decoders s i task reply = some s') : TurnSpec s i task reply s' := by
  obtain ⟨job, phase⟩ := task
  -- the arms of `turn`, in its order
  unfold turn at turned
  dsimp only at turned
  split at turned
  case h_1 =>
    cases turned
    refine .move rfl ?_
    split <;> exact nofun
  case h_2 =>
    split at turned <;> cases turned
    exact .move rfl nofun
  case h_3 =>
    cases turned
    refine .move rfl ?_
    split
    · exact nofun
    · rintro now ⟨⟩
      exact .inl rfl
  case h_4 | h_5 =>
    cases turned
    exact .move rfl fun _ => .inr
  case h_6 | h_12 =>
    cases turned
    exact .advance rfl (.inl rfl)
  case h_7 | h_13 =>
    cases turned
    exact .advance rfl (.inr ⟨_, rfl⟩)
  case h_8 | h_9 =>
    split at turned <;> cases turned
    · exact .move rfl nofun
    · exact .giveUp rfl
  case h_10 =>
    cases turned
    exact .deliver rfl
  case h_11 =>
    cases turned
    exact .giveUp rfl
  case h_14 => cases turned

/-! ## Orderly runs -/

variable (texts : Texts)

/-- The jobs a pending listing would return. -/
def System.due (s : System) : List CronJob :=
  match s.listing with
  | none => []
  | some now => ((listDue texts s.table now tickBatchLimit).toOption).getD []

/-- No task of the job is under way. -/
def System.Settled (s : System) (id : CronJobId) : Prop :=
  ∀ i < s.nextTask, ∀ task ∈ s.tasks i, task.job.id ≠ id

instance (s : System) (id : CronJobId) : Decidable (s.Settled id) :=
  inferInstanceAs (Decidable (∀ i < s.nextTask, ∀ task ∈ s.tasks i, _))

/-- The row of a task whose tick went out gets advanced. -/
def advances (task : Task) (reply : Reply) : Bool :=
  match task.phase, reply with
  | .advancing now, .ready => (task.job.schedule.advanceFrom now).isSome
  | .advancing _, _ => false
  | _, _ => true

/-- The stored schedule is an interval. -/
def Recurs (row : StoredRow) : Prop :=
  (Schedule.parse texts row.schedule).toOption.any (!·.isOneShot) = true

/-- **Orderly steps**: a job is listed only when no earlier task of it is under way, the row behind
a tick is advanced, no one-shot is enabled again, and a new job's id is new. -/
def Orderly (s : System) : Label → Prop
  | .list _ => ∀ job ∈ s.due texts, s.Settled job.id
  | .run i reply => ∀ task ∈ s.tasks i, advances task reply = true
  | .setEnabled id true => ∀ row ∈ s.table, row.id = id → Recurs texts row
  | .create job => s.Settled job.id ∧ ∀ tick ∈ s.ticks, tick.job.id ≠ job.id
  | _ => True

instance (texts : Texts) (s : System) (label : Label) : Decidable (Orderly texts s label) := by
  unfold Orderly Recurs
  split <;> infer_instance

/-- **At most one tick.**  No due instant of a job was sent twice, and no one-shot
was. -/
structure AtMostOnce (ticks : List Delivered) : Prop where
  dueInstants : (ticks.map Delivered.due).Nodup
  oneShots : ((ticks.filter (·.job.schedule.isOneShot)).map (·.job.id)).Nodup

/-! ## What was sent lies before what is due -/

/-- `job` recurs, and the later listing of it is due later. -/
def Precedes (job later : CronJob) : Prop :=
  job.schedule.isOneShot = false ∧ job.nextRunAt < later.nextRunAt

/-- The row's job is due later, or has ended, or the task that sent has not advanced it yet. -/
def Covered (tasks : ℕ → Option Task) (sent job : CronJob) : Prop :=
  Precedes sent job ∨ (job.schedule.isOneShot = true ∧ job.enabled = false) ∨
    ∃ i task, tasks i = some task ∧ task.phase.sent = true ∧ task.job.id = job.id

/-- What holds along orderly runs, for the jobs that the table stores. -/
structure Sound (jobs : List CronJob) (s : System) : Prop where
  stores : Stores s.table jobs
  clock : ∀ now ∈ s.listing, now ≤ s.clock
  numbered : ∀ i task, s.tasks i = some task → i < s.nextTask
  apart : ∀ i j a b, s.tasks i = some a → s.tasks j = some b → a.job.id = b.job.id → i = j
  wasDue : ∀ i task, s.tasks i = some task → task.job.nextRunAt ≤ s.clock ∧
    ∀ now, task.phase.firedAt = some now → task.job.nextRunAt ≤ now
  current : ∀ i task, s.tasks i = some task → ∀ job ∈ jobs, job.id = task.job.id →
    job.schedule = task.job.schedule ∧ job.nextRunAt = task.job.nextRunAt
  earlier : ∀ i task, s.tasks i = some task → ∀ tick ∈ s.ticks, tick.job.id = task.job.id →
    Precedes tick.job task.job ∨ task.phase.sent = true ∧ tick.job = task.job
  past : ∀ tick ∈ s.ticks, ∀ job ∈ jobs, job.id = tick.job.id → Covered s.tasks tick.job job
  once : AtMostOnce s.ticks

theorem AtMostOnce.append {ticks : List Delivered} (once : AtMostOnce ticks) {tick : Delivered}
    (first : ∀ earlier ∈ ticks, earlier.job.id = tick.job.id → Precedes earlier.job tick.job) :
    AtMostOnce (ticks ++ [tick]) where
  dueInstants := by
    rw [map_append, map_singleton]
    refine once.dueInstants.append (nodup_singleton _) (disjoint_singleton.mpr ?_)
    intro twice
    obtain ⟨earlier, mem, same⟩ := mem_map.mp twice
    obtain ⟨sameId, sameInstant⟩ := Prod.mk.inj same
    exact (first earlier mem sameId).2.ne sameInstant
  oneShots := by
    rw [filter_append, map_append]
    refine once.oneShots.append ?_ ?_
    · exact (nodup_singleton _).sublist (filter_sublist.map _)
    · rintro id old new
      obtain ⟨earlier, mem, rfl⟩ := mem_map.mp old
      obtain ⟨tick', mem', same⟩ := mem_map.mp new
      obtain ⟨mem, oneShot⟩ := mem_filter.mp mem
      obtain rfl := mem_singleton.mp (mem_of_mem_filter mem')
      exact Bool.noConfusion ((first earlier mem same.symm).1.symm.trans oneShot)

theorem update_none {tasks : ℕ → Option Task} {j : ℕ}
    (found : update tasks i none j = some task) : j ≠ i ∧ tasks j = some task := by
  rw [update_apply] at found
  split at found
  · cases found
  · exact ⟨‹_›, found⟩

theorem Covered.update {tasks : ℕ → Option Task} {sent job : CronJob}
    (covered : Covered tasks sent job) (found : tasks i = some task)
    (unrelated : task.phase.sent = false ∨ job.id ≠ task.job.id) (new : Option Task) :
    Covered (update tasks i new) sent job := by
  rcases covered with before | ended | ⟨j, other, at', hasSent, same⟩
  · exact .inl before
  · exact .inr (.inl ended)
  · have differs : j ≠ i := by
      rintro rfl
      cases found.symm.trans at'
      rcases unrelated with pending | otherJob
      · exact Bool.noConfusion (pending.symm.trans hasSent)
      · exact otherJob same.symm
    exact .inr (.inr ⟨j, other, (update_of_ne differs _ _).trans at', hasSent, same⟩)

theorem sound_initial (registry : AgentRegistry) (clock : Instant) :
    Sound [] (.initial registry clock) where
  stores := .empty
  clock := by simp [System.initial]
  numbered := by simp [System.initial]
  apart := by simp [System.initial]
  wasDue := by simp [System.initial]
  current := by simp [System.initial]
  earlier := by simp [System.initial]
  past := by simp [System.initial]
  once := ⟨nodup_nil, nodup_nil⟩

namespace Sound

variable {jobs : List CronJob} {s : System}

theorem frame (inv : Sound jobs s) {s' : System} (table : s'.table = s.table)
    (tasks : s'.tasks = s.tasks) (next : s'.nextTask = s.nextTask) (ticks : s'.ticks = s.ticks)
    (clock : s.clock ≤ s'.clock) (listing : ∀ now ∈ s'.listing, now ≤ s'.clock) :
    Sound jobs s' where
  stores := table ▸ inv.stores
  clock := listing
  numbered := by rw [tasks, next]; exact inv.numbered
  apart := by rw [tasks]; exact inv.apart
  wasDue := by
    intro i task found
    obtain ⟨due, fired⟩ := inv.wasDue i task (tasks ▸ found)
    exact ⟨due.trans clock, fired⟩
  current := by rw [tasks]; exact inv.current
  earlier := by rw [tasks, ticks]; exact inv.earlier
  past := by rw [tasks, ticks]; exact inv.past
  once := ticks ▸ inv.once

theorem exists_before_moveTo {j : ℕ} {other : Task} {phase : Phase} (found : s.tasks i = some task)
    (after : update s.tasks i (some { task with phase := phase }) j = some other) :
    ∃ before, s.tasks j = some before ∧ before.job = other.job := by
  rcases update_eq_some after with ⟨rfl, rfl⟩ | ⟨-, after⟩
  · exact ⟨task, found, rfl⟩
  · exact ⟨other, after, rfl⟩

section

variable (inv : Sound jobs s)

include inv

theorem moveTo {phase : Phase} (permits : ℕ) (found : s.tasks i = some task)
    (pending : task.phase.sent = false)
    (fired : ∀ now, phase.firedAt = some now → now = s.clock ∨ task.phase.firedAt = some now) :
    Sound jobs { s.moveTo i task phase with permits := permits } where
  __ := inv
  numbered := by
    intro j other after
    obtain ⟨before, atJ, -⟩ := exists_before_moveTo found after
    exact inv.numbered j before atJ
  apart := by
    intro j k a b afterJ afterK same
    obtain ⟨a', atJ, jobA⟩ := exists_before_moveTo found afterJ
    obtain ⟨b', atK, jobB⟩ := exists_before_moveTo found afterK
    exact inv.apart j k a' b' atJ atK (by rw [jobA, jobB]; exact same)
  current := by
    intro j other after
    obtain ⟨before, atJ, sameJob⟩ := exists_before_moveTo found after
    rw [← sameJob]
    exact inv.current j before atJ
  wasDue := by
    intro j other at'
    rcases update_eq_some at' with ⟨rfl, rfl⟩ | ⟨-, at'⟩
    · obtain ⟨due, firedBefore⟩ := inv.wasDue j task found
      refine ⟨due, fun now isFired => ?_⟩
      rcases fired now isFired with rfl | before
      · exact due
      · exact firedBefore now before
    · exact inv.wasDue j other at'
  earlier := by
    intro j other at' tick mem same
    rcases update_eq_some at' with ⟨rfl, rfl⟩ | ⟨-, at'⟩
    · rcases inv.earlier j task found tick mem same with before | ⟨sent, -⟩
      · exact .inl before
      · rw [pending] at sent
        cases sent
    · exact inv.earlier j other at' tick mem same
  past := by
    intro tick mem job inJobs same
    exact (inv.past tick mem job inJobs same).update found (.inl pending) _

/-- A task returns, once its row is `f` of what it was. -/
theorem returns (found : s.tasks i = some task) {table : Table} {f : CronJob → CronJob}
    (stores : Stores table (change jobs task.job.id f)) (sameId : ∀ job, (f job).id = job.id)
    (ahead : ∀ job ∈ jobs, job.id = task.job.id → ∀ sent : CronJob,
      Precedes sent task.job ∨ task.phase.sent = true ∧ sent = task.job →
      Covered (update s.tasks i none) sent (f job)) :
    Sound (change jobs task.job.id f) { s.finish i with table := table } where
  __ := inv
  stores := stores
  numbered := fun j other at' => inv.numbered j other (update_none at').2
  apart := fun j k a b atJ atK => inv.apart j k a b (update_none atJ).2 (update_none atK).2
  wasDue := fun j other at' => inv.wasDue j other (update_none at').2
  earlier := fun j other at' => inv.earlier j other (update_none at').2
  current := by
    intro j other at' job mem same
    obtain ⟨differs, at'⟩ := update_none at'
    obtain ⟨old, inJobs, ⟨isTask, rfl⟩ | ⟨-, rfl⟩⟩ := mem_change mem
    · rw [sameId, isTask] at same
      exact absurd (inv.apart i j task other found at' same).symm differs
    · exact inv.current j other at' job inJobs same
  past := by
    intro tick sent job mem same
    obtain ⟨old, inJobs, ⟨isTask, rfl⟩ | ⟨other, rfl⟩⟩ := mem_change mem
    · rw [sameId, isTask] at same
      exact ahead old inJobs isTask tick.job (inv.earlier i task found tick sent same.symm)
    · exact (inv.past tick sent job inJobs same).update found (.inr other) _

theorem finish (found : s.tasks i = some task)
    (pending : task.phase.sent = false) : Sound jobs (s.finish i) := by
  have same := change_self jobs task.job.id
  rw [← same]
  refine inv.returns found (f := fun job => job) (same.symm ▸ inv.stores) (fun _ => rfl) ?_
  intro job inJobs isTask sent earlier
  rcases earlier with ⟨recurs, before⟩ | ⟨hasSent, -⟩
  · obtain ⟨-, instant⟩ := inv.current i task found job inJobs isTask
    exact .inl ⟨recurs, instant ▸ before⟩
  · exact Bool.noConfusion (pending.symm.trans hasSent)

theorem advance {now : Instant} {fault : Option DbError} (found : s.tasks i = some task)
    (fired : task.phase.firedAt = some now) (advanced : task.phase.sent = true →
      fault = none ∧ (task.job.schedule.advanceFrom now).isSome = true) :
    ∃ jobs', Sound jobs' (s.advance i task.job now fault) := by
  have pendingOf : ¬ (fault = none ∧ (task.job.schedule.advanceFrom now).isSome = true) →
      task.phase.sent = false :=
    fun failed => Bool.eq_false_iff.mpr fun sent => failed (advanced sent)
  obtain ⟨-, due⟩ := inv.wasDue i task found
  unfold System.advance advanceAfterRun
  cases next : task.job.schedule.advanceFrom now with
  | none => exact ⟨jobs, inv.finish found (pendingOf (by simp [next]))⟩
  | some next' =>
    cases fault with
    | some => exact ⟨jobs, inv.finish found (pendingOf (by simp))⟩
    | none =>
      cases next' with
      | none =>
        refine ⟨change jobs task.job.id ({ · with enabled := false }),
          inv.returns found (inv.stores.update task.job.id (fun _ => rfl) (fun _ => rfl)
            fun _ => rfl) (fun _ => rfl) ?_⟩
        intro job inJobs isTask sent _
        obtain ⟨schedule, -⟩ := inv.current i task found job inJobs isTask
        exact .inr (.inl ⟨schedule ▸ Schedule.isOneShot_of_advanceFrom next, rfl⟩)
      | some instant =>
        refine ⟨change jobs task.job.id ({ · with nextRunAt := instant }),
          inv.returns found (inv.stores.update task.job.id (fun _ => rfl) (fun _ => rfl)
            fun _ => rfl) (fun _ => rfl) ?_⟩
        intro job inJobs isTask sent earlier
        obtain ⟨schedule, -⟩ := inv.current i task found job inJobs isTask
        obtain ⟨recurs, after⟩ :=
          Schedule.lt_of_advanceFrom (schedule ▸ inv.stores.positive job inJobs) next
        have ahead : task.job.nextRunAt < instant := (due now fired).trans_lt after
        rcases earlier with ⟨sentRecurs, before⟩ | ⟨-, rfl⟩
        · exact .inl ⟨sentRecurs, before.trans ahead⟩
        · exact .inl ⟨recurs, ahead⟩

theorem record (found : s.tasks i = some task) (hasSent : task.phase.sent = true)
    (first : ∀ tick ∈ s.ticks, tick.job.id = task.job.id → Precedes tick.job task.job)
    (connection : ℕ) (frame : CronTick) :
    Sound jobs { s with ticks := s.ticks ++ [⟨task.job, connection, frame⟩] } where
  __ := inv
  earlier := by
    intro j other at' tick mem same
    rcases mem_snoc.mp mem with old | rfl
    · exact inv.earlier j other at' tick old same
    · obtain rfl := inv.apart i j task other found at' same
      cases found.symm.trans at'
      exact .inr ⟨hasSent, rfl⟩
  past := by
    intro tick mem job inJobs same
    rcases mem_snoc.mp mem with old | rfl
    · exact inv.past tick old job inJobs same
    · exact .inr (.inr ⟨i, task, found, hasSent, same.symm⟩)
  once := inv.once.append first

theorem deliver (found : s.tasks i = some task)
    (pending : task.phase.sent = false) (connection : ℕ) (frame : CronTick) :
    Sound jobs { s.moveTo i task (.advancing s.clock) with
      ticks := s.ticks ++ [⟨task.job, connection, frame⟩] } := by
  have moved : Sound jobs (s.moveTo i task (.advancing s.clock)) := by
    refine inv.moveTo s.permits found pending ?_
    rintro now ⟨⟩
    exact .inl rfl
  have found' : (s.moveTo i task (.advancing s.clock)).tasks i =
      some { task with phase := .advancing s.clock } := update_self ..
  refine moved.record found' rfl ?_ connection frame
  intro tick mem same
  rcases inv.earlier i task found tick mem same with before | ⟨hasSent, -⟩
  · exact before
  · exact Bool.noConfusion (pending.symm.trans hasSent)

end

variable {due : List CronJob}

theorem mem_dispatch (found : (s.dispatch due).tasks i = some task) :
    (i < s.nextTask ∧ s.tasks i = some task) ∨
      ∃ k job, i = s.nextTask + k ∧ due[k]? = some job ∧ task = { job } := by
  unfold System.dispatch at found
  dsimp only at found
  split at found
  · exact .inl ⟨‹_›, found⟩
  · obtain ⟨job, listed, rfl⟩ := Option.map_eq_some_iff.mp found
    exact .inr ⟨i - s.nextTask, job, by omega, listed, rfl⟩

theorem index_eq_of_id_eq (distinct : (due.map CronJob.id).Nodup) {k l : ℕ}
    {job job' : CronJob} (atK : due[k]? = some job) (atL : due[l]? = some job')
    (same : job.id = job'.id) : k = l := by
  have ids : (due.map CronJob.id)[k]? = (due.map CronJob.id)[l]? := by
    rw [getElem?_map, getElem?_map, atK, atL]
    exact congrArg some same
  have inRange : k < (due.map CronJob.id).length := by
    rw [List.length_map]
    exact (List.getElem?_eq_some_iff.mp atK).1
  exact (List.getElem?_inj inRange distinct).mp ids

theorem dispatch (inv : Sound jobs s) {texts : Texts} {now : Instant}
    (listing : s.listing = some now) (listed : listDue texts s.table now tickBatchLimit = .ok due)
    (settled : ∀ job ∈ due, s.Settled job.id) : Sound jobs (s.dispatch due) := by
  obtain ⟨distinct, stored⟩ := inv.stores.of_listDue listed
  have started : now ≤ s.clock := inv.clock now listing
  have absent : ∀ {k : ℕ} {job : CronJob}, due[k]? = some job → ∀ i task, s.tasks i = some task →
      task.job.id ≠ job.id := fun at' i task found =>
    settled _ (mem_of_getElem? at') i (inv.numbered i task found) task found
  refine ⟨inv.stores, nofun, ?_, ?_, ?_, ?_, ?_, ?_, inv.once⟩
  · intro i task found
    show i < s.nextTask + due.length
    rcases mem_dispatch found with ⟨before, -⟩ | ⟨k, job, rfl, at', -⟩
    · omega
    · have := (List.getElem?_eq_some_iff.mp at').1
      omega
  · intro i j a b atI atJ same
    rcases mem_dispatch atI with ⟨-, oldI⟩ | ⟨k, job, rfl, newI, rfl⟩
    · rcases mem_dispatch atJ with ⟨-, oldJ⟩ | ⟨l, job', rfl, newJ, rfl⟩
      · exact inv.apart i j a b oldI oldJ same
      · exact absurd same (absent newJ i a oldI)
    · rcases mem_dispatch atJ with ⟨-, oldJ⟩ | ⟨l, job', rfl, newJ, rfl⟩
      · exact absurd same.symm (absent newI j b oldJ)
      · rw [index_eq_of_id_eq distinct newI newJ same]
  · intro i task found
    rcases mem_dispatch found with ⟨-, old⟩ | ⟨k, job, rfl, new, rfl⟩
    · exact inv.wasDue i task old
    · exact ⟨(stored job (mem_of_getElem? new)).2.2.trans started, nofun⟩
  · intro i task found
    rcases mem_dispatch found with ⟨-, old⟩ | ⟨k, job, rfl, new, rfl⟩
    · exact inv.current i task old
    · intro job' inJobs same
      have inJobs' := (stored job (mem_of_getElem? new)).1
      obtain rfl := inj_on_of_nodup_map inv.stores.unique inJobs inJobs' same
      exact ⟨rfl, rfl⟩
  · intro i task found tick mem same
    rcases mem_dispatch found with ⟨-, old⟩ | ⟨k, job, rfl, new, rfl⟩
    · exact inv.earlier i task old tick mem same
    · obtain ⟨inJobs, enabled, -⟩ := stored job (mem_of_getElem? new)
      rcases inv.past tick mem job inJobs same.symm with
        before | ⟨-, ended⟩ | ⟨j, other, at', -, id⟩
      · exact .inl before
      · exact Bool.noConfusion (ended.symm.trans enabled)
      · exact absurd id (absent new j other at')
  · intro tick mem job inJobs same
    rcases inv.past tick mem job inJobs same with before | ended | ⟨i, task, found, sent, id⟩
    · exact .inl before
    · exact .inr (.inl ended)
    · refine .inr (.inr ⟨i, task, ?_, sent, id⟩)
      exact (if_pos (inv.numbered i task found)).trans found

/-- A job is new, or it stays due when it was and does not start again once it has ended. -/
theorem retable (inv : Sound jobs s) {table : Table} {jobs' : List CronJob}
    (stores : Stores table jobs')
    (kept : ∀ job' ∈ jobs', (s.Settled job'.id ∧ ∀ tick ∈ s.ticks, tick.job.id ≠ job'.id) ∨
      ∃ job ∈ jobs, job'.id = job.id ∧ job'.schedule = job.schedule ∧
        job'.nextRunAt = job.nextRunAt ∧
        (job.schedule.isOneShot = true → job.enabled = false → job'.enabled = false)) :
    Sound jobs' { s with table := table } where
  __ := inv
  stores := stores
  current := by
    intro i task found job' mem same
    rcases kept job' mem with ⟨settled, -⟩ | ⟨job, inJobs, id, schedule, instant, -⟩
    · exact absurd same.symm (settled i (inv.numbered i task found) task found)
    · rw [schedule, instant]
      exact inv.current i task found job inJobs (id ▸ same)
  past := by
    intro tick mem job' mem' same
    rcases kept job' mem' with ⟨-, unsent⟩ | ⟨job, inJobs, id, schedule, instant, ends⟩
    · exact absurd same.symm (unsent tick mem)
    rcases inv.past tick mem job inJobs (id ▸ same) with ⟨recurs, before⟩ | ⟨oneShot, ended⟩ | task
    · exact .inl ⟨recurs, instant ▸ before⟩
    · exact .inr (.inl ⟨schedule ▸ oneShot, ends oneShot ended⟩)
    · exact .inr (.inr (id ▸ task))

end Sound

theorem isOneShot_of_recurs {texts : Texts} {job : CronJob} (recurs : Recurs texts job.toRow) :
    job.schedule.isOneShot = false := by
  cases schedule : job.schedule with
  | interval => rfl
  | at' instant =>
    have row : job.toRow.schedule = Schedule.encode (.at' instant) := by rw [← schedule]; rfl
    rw [Recurs, row, Schedule.parse_encode_at] at recurs
    cases read : Rfc3339.parse (Rfc3339.toText instant) with
    | none => simp [read, Except.toOption] at recurs
    | some => simp [read, Except.toOption, Schedule.isOneShot] at recurs

section Run

variable {texts : Texts} {decoders : Decoders} {jobs : List CronJob} {s s' : System}

theorem Sound.turn (inv : Sound jobs s) {reply : Reply} (found : s.tasks i = some task)
    (orderly : advances task reply = true)
    (turned : CronScheduler.turn decoders s i task reply = some s') : ∃ jobs', Sound jobs' s' := by
  cases turn_spec turned with
  | move pending fired => exact ⟨jobs, inv.moveTo _ found pending fired⟩
  | giveUp pending => exact ⟨jobs, inv.finish found pending⟩
  | deliver phase => exact ⟨jobs, inv.deliver found (by rw [phase]; rfl) _ _⟩
  | advance fired answered =>
    refine inv.advance found fired fun hasSent => ?_
    -- of the phases that end in an advance, only the one after the send has sent
    cases phase : task.phase with
    | advancing =>
      rw [phase] at fired
      cases fired
      unfold advances at orderly
      rw [phase] at orderly
      rcases answered with rfl | ⟨e, rfl⟩
      · cases reply with
        | ready => exact ⟨rfl, orderly⟩
        | woken | failed | closed => cases orderly
      · cases orderly
    | _ => rw [phase] at hasSent; cases hasSent

/-- **One step.** -/
theorem Sound.step (inv : Sound jobs s) {label : Label} (orderly : Orderly texts s label)
    (stepped : CronScheduler.step texts decoders s label = some s') : ∃ jobs', Sound jobs' s' := by
  cases label with
  | wait seconds =>
    cases stepped
    refine ⟨jobs, inv.frame rfl rfl rfl rfl (s.clock.le_later seconds) fun now pending => ?_⟩
    exact (inv.clock now pending).trans (s.clock.le_later seconds)
  | tick =>
    simp only [CronScheduler.step] at stepped
    split at stepped
    · cases stepped
      refine ⟨jobs, inv.frame rfl rfl rfl rfl le_rfl ?_⟩
      rintro now ⟨⟩
      exact le_rfl
    · cases stepped
  | list fault =>
    obtain ⟨now, listing, rfl⟩ := Option.map_eq_some_iff.mp stepped
    have stopped : Sound jobs { s with listing := none } :=
      inv.frame rfl rfl rfl rfl le_rfl nofun
    cases fault with
    | some => exact ⟨jobs, stopped⟩
    | none =>
      cases listed : listDue texts s.table now tickBatchLimit with
      | error => exact ⟨jobs, stopped⟩
      | ok due =>
        refine ⟨jobs, inv.dispatch listing listed ?_⟩
        simpa [Orderly, System.due, listing, listed, Except.toOption] using orderly
  | run =>
    obtain ⟨task, found, turned⟩ := Option.bind_eq_some_iff.mp stepped
    exact inv.turn found (orderly task found) turned
  | agents =>
    cases stepped
    exact ⟨jobs, inv.frame rfl rfl rfl rfl le_rfl inv.clock⟩
  | create job =>
    simp only [CronScheduler.step] at stepped
    split at stepped
    · rename_i positive
      obtain ⟨table, inserted, rfl⟩ := Option.map_eq_some_iff.mp stepped
      refine ⟨jobs ++ [job],
        inv.retable (inv.stores.insert positive (toOption_eq_some.mp inserted)) ?_⟩
      intro job' mem
      rcases mem_snoc.mp mem with old | rfl
      · exact .inr ⟨job', old, rfl, rfl, rfl, fun _ ended => ended⟩
      · exact .inl orderly
    · cases stepped
  | setEnabled id enabled =>
    obtain ⟨table, set, rfl⟩ := Option.map_eq_some_iff.mp stepped
    obtain rfl := eq_update_of_setEnabled (toOption_eq_some.mp set)
    refine ⟨change jobs id ({ · with enabled := enabled }), inv.retable
      (inv.stores.update id (fun _ => rfl) (fun _ => rfl) fun _ => rfl) ?_⟩
    intro job' mem
    obtain ⟨job, inJobs, ⟨isId, rfl⟩ | ⟨-, rfl⟩⟩ := mem_change mem
    · refine .inr ⟨job, inJobs, rfl, rfl, rfl, fun oneShot _ => ?_⟩
      cases enabled with
      | false => rfl
      | true =>
        have inTable : job.toRow ∈ s.table := by
          rw [inv.stores.rows]
          exact mem_map_of_mem inJobs
        have recurs := isOneShot_of_recurs (orderly job.toRow inTable isId)
        exact Bool.noConfusion (recurs.symm.trans oneShot)
    · exact .inr ⟨job', inJobs, rfl, rfl, rfl, fun _ ended => ended⟩
  | delete =>
    obtain ⟨table, deleted, rfl⟩ := Option.map_eq_some_iff.mp stepped
    refine ⟨_, inv.retable (inv.stores.delete (toOption_eq_some.mp deleted)) fun job' mem => ?_⟩
    exact .inr ⟨job', mem_of_mem_filter mem, rfl, rfl, rfl, fun _ ended => ended⟩

/-- **At most one tick along orderly runs**, from a fresh gateway and in every interleaving. -/
theorem ticks_at_most_once {registry : AgentRegistry} {clock : Instant} {labels : List Label}
    (run :
      Run (CronScheduler.step texts decoders) (Orderly texts) (.initial registry clock) labels s) :
    AtMostOnce s.ticks := by
  have preserved : ∀ s label s', (∃ jobs, Sound jobs s) → Orderly texts s label →
      CronScheduler.step texts decoders s label = some s' → ∃ jobs, Sound jobs s' := by
    rintro s label s' ⟨jobs, inv⟩ orderly stepped
    exact inv.step orderly stepped
  obtain ⟨jobs, inv⟩ := run.invariant preserved ⟨[], sound_initial registry clock⟩
  exact inv.once

end Run

/-! ## A slow agent -/

def oneConnected : AgentRegistry :=
  ((({} : AgentRegistry).register ⟨⟨uuidOf 1⟩, 1⟩).attach ⟨uuidOf 1⟩ ⟨1, false⟩).getD {}

def noOutput : Decoders :=
  ⟨fun _ => "", fun _ => none⟩

def dailyJob : CronJob :=
  { CronApi.oneShotJob 1 (.startOf 2026) with schedule := .interval 86400 }

def created (job : CronJob) : List Label :=
  [.create job, .wait 60]

def upToChannel (i : ℕ) : List Label :=
  [.tick, .list none] ++ List.replicate 3 (.run i .ready)

def twoDays : List Label :=
  created dailyJob ++ upToChannel 0 ++ List.replicate 2 (.run 0 .ready) ++ [.wait 86400] ++
    upToChannel 1 ++ List.replicate 2 (.run 1 .ready)

theorem dailyJob_ticked_daily : ∃ s, Run (step CronApi.plainTexts noOutput)
    (Orderly CronApi.plainTexts) (.initial oneConnected (.startOf 2026)) twoDays s ∧
    s.ticks.length = 2 ∧ AtMostOnce s.ticks :=
  exists_run_and (by decide +kernel) fun run _ => ticks_at_most_once run

def slowMinute : List Label :=
  created (CronApi.oneShotJob 1 (.startOf 2026)) ++ upToChannel 0 ++ [.wait 60] ++ upToChannel 1 ++
    [.run 0 .ready, .run 1 .ready, .run 0 .ready, .run 1 .ready]

/-- **A slow agent is ticked twice**: a task waits for room in the agent's channel, and the next
tick lists the row again. -/
theorem slowAgent_ticked_twice : ∃ s, Run (step CronApi.plainTexts noOutput) anyStep
    (.initial oneConnected (.startOf 2026)) slowMinute s ∧
    s.ticks.map Delivered.due =
      [(⟨uuidOf 1⟩, .startOf 2026), (⟨uuidOf 1⟩, .startOf 2026)] ∧
    ¬ AtMostOnce s.ticks := by
  refine exists_run_and (by decide +kernel) fun {s} _ twice once => ?_
  have distinct := once.dueInstants
  rw [twice] at distinct
  exact (nodup_cons.mp distinct).1 mem_cons_self

end Havn.Gateway.CronScheduler
