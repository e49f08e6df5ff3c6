import Mathlib.Data.List.TakeWhile
import Havn.Gateway.CronScheduler

/-!
# When a job is due and whether it gets its turn

Three steps of the scheduler: the sum that gives a job its next run, the listing that orders
instants by their text, and the batch of a tick, which jobs of absent agents can fill.
-/

namespace Havn.Gateway.CronDue

open Havn.Core Lib Lib.Calendar Lib.Rfc3339 Db Db.Cron List
open CronApi CronScheduler

/-! ## The next run -/

def Fits (now : Instant) (seconds : Int64) : Prop :=
  now.days + ((now.secs + seconds.toInt.toNat) / 86400 : ℕ) < daysBefore 262143
  deriving Decidable

def Accepted (schedule : Schedule) : Prop :=
  (∃ now input first, firstRun now input = .ok (schedule, first)) ∨
    ∃ texts raw, Schedule.parse texts raw = .ok schedule

theorem Accepted.positive {schedule : Schedule} (accepted : Accepted schedule) :
    schedule.Positive := by
  rcases accepted with ⟨now, input, first, computed⟩ | ⟨texts, raw, parsed⟩
  · exact firstRun_positive computed
  · exact Schedule.positive_of_parse parsed

theorem addSeconds_eq_none_iff {now : Instant} (era : 0 ≤ now.year) {seconds : Int64}
    (positive : 1 ≤ seconds.toInt) :
    now.addSeconds seconds.toInt.toNat = none ↔ ¬ Fits now seconds := by
  have nonzero : seconds.toInt.toNat ≠ 0 := by omega
  have year : (now.later seconds.toInt.toNat).year =
      yearOf (now.days + ((now.secs + seconds.toInt.toNat) / 86400 : ℕ)) := by
    rw [Instant.later, if_neg nonzero]
    rfl
  have range := yearOf_mem_iff (now.days + ((now.secs + seconds.toInt.toNat) / 86400 : ℕ))
    (-262143) 262143
  have first : 0 ≤ now.days := by
    unfold Instant.days daysBefore
    omega
  have limits : daysBefore (-262143) ≤ 0 ∧ daysBefore 262143 ≤ 10 ^ 8 := by decide
  unfold Instant.addSeconds Fits
  rw [year]
  -- a sum in range is far below the milliseconds that a duration can count
  split
  · refine iff_of_false (Option.some_ne_none _) ?_
    omega
  · refine iff_of_true rfl fun fits => ?_
    omega

theorem firstRun_interval_lt {now next : Instant} {seconds : Int64} {schedule : Schedule}
    (computed : firstRun now (.interval seconds) = .ok (schedule, next)) : now < next := by
  have positive := firstRun_positive computed
  simp only [firstRun] at computed
  split at computed
  · cases computed
  split at computed
  · cases computed
  · rename_i sum added
    cases computed
    exact (Schedule.lt_of_advanceFrom positive (congrArg (Option.map some) added)).2

/-- **Runs are computed exactly when the sum fits**, and a next run that is computed lies in the
future. -/
theorem runs_computed_iff {now : Instant} (era : 1970 ≤ now.year) :
    (∀ input, firstRun now input ≠ .error .panicked ↔
      ∀ seconds, input = .interval seconds → 1 ≤ seconds.toInt → Fits now seconds) ∧
    (∀ seconds schedule next,
      firstRun now (.interval seconds) = .ok (schedule, next) → now < next) ∧
    ∀ schedule, Accepted schedule →
      (schedule.advanceFrom now ≠ none ↔
        ∀ seconds, schedule = .interval seconds → Fits now seconds) ∧
      ∀ next, schedule.advanceFrom now = some (some next) → now < next := by
  have sum := @addSeconds_eq_none_iff now (by omega)
  refine ⟨fun input => ?_, fun _ _ _ => firstRun_interval_lt, fun schedule accepted => ⟨?_, ?_⟩⟩
  · cases input with
    | at' =>
      refine iff_of_true (fun panicked => ?_) fun _ same => ?_
      · cases panicked
      · cases same
    | interval seconds =>
      by_cases small : seconds.toInt < 1
      · simp [firstRun, small]
      · have computed := sum (not_lt.mp small)
        rw [firstRun, if_neg small]
        cases added : now.addSeconds seconds.toInt.toNat with
        | none => exact iff_of_false (absurd rfl) fun fits =>
            computed.mp added (fits seconds rfl (not_lt.mp small))
        | some =>
          refine iff_of_true (fun panicked => ?_) ?_
          · cases panicked
          rintro _ ⟨⟩ -
          exact not_not.mp fun misfit =>
            Option.some_ne_none _ (added.symm.trans (computed.mpr misfit))
  · cases schedule with
    | at' =>
      refine iff_of_true (Option.some_ne_none _) fun _ same => ?_
      cases same
    | interval =>
      have computed := sum accepted.positive
      simp_all [Schedule.advanceFrom]
  · exact fun next advanced => (Schedule.lt_of_advanceFrom accepted.positive advanced).2

theorem hourly_computed :
    Instant.startOf 2026 < (Instant.startOf 2026).later 3600 ∧
      firstRun (.startOf 2026) (.interval 3600) ≠ .error .panicked := by
  obtain ⟨computed, later, -⟩ := runs_computed_iff (by decide : 1970 ≤ (Instant.startOf 2026).year)
  refine ⟨later 3600 (.interval 3600) _ rfl, (computed _).mpr ?_⟩
  rintro _ ⟨⟩ -
  decide

/-- **An interval that no sum can hold is accepted**; its handler panics, and so does the task that
reads the row. -/
theorem hugeInterval_panics :
    (CronApi.create plainTexts [] { oneShotCall 1 (.startOf 2026) with
      request := { name := "daily", prompt := "report", schedule := .interval Int64.maxValue }
      }).reply = .error .panicked ∧
    Schedule.parse plainTexts "interval:9223372036854775807" = .ok (.interval Int64.maxValue) ∧
    (Schedule.interval Int64.maxValue).advanceFrom (.startOf 2026) = none := by
  decide +kernel

/-! ## The listing -/

/-- The earliest of the enabled jobs that are due, at most `limit`, in the order of
their instants. -/
def dueJobs (jobs : List CronJob) (now : Instant) (limit : ℕ) : List CronJob :=
  ((jobs.filter fun job => job.enabled ∧ job.nextRunAt ≤ now).insertionSort
    fun a b => a.nextRunAt ≤ b.nextRunAt).take limit

theorem rfc3339_le_iff {t u : Instant} (year : FourDigit t) (year' : FourDigit u) :
    rfc3339 t ≤ rfc3339 u ↔ t ≤ u := by
  refine ⟨le_of_rfc3339_le year, fun before => ?_⟩
  rcases before.lt_or_eq with less | rfl
  · rw [rfc3339, rfc3339, String.le_iff_toList_le, String.toList_ofList, String.toList_ofList]
    exact (toText_lt_toText year year' less).le
  · exact le_rfl

variable {texts : Texts} {jobs : List CronJob} {now : Instant} {limit : ℕ}

theorem dueRows_eq (years : ∀ job ∈ jobs, FourDigit job.nextRunAt) (thisYear : FourDigit now) :
    dueRows (jobs.map CronJob.toRow) now limit = (dueJobs jobs now limit).map CronJob.toRow := by
  have due : jobs.filter ((fun row : StoredRow => decide (row.enabled ∧
        row.nextRunAt ≤ rfc3339 now)) ∘ CronJob.toRow) =
      jobs.filter fun job => job.enabled ∧ job.nextRunAt ≤ now :=
    filter_congr fun job mem =>
      decide_eq_decide.mpr (and_congr_right fun _ => rfc3339_le_iff (years job mem) thisYear)
  rw [dueRows, dueJobs, map_take, filter_map, due]
  refine congrArg (List.take limit) (map_insertionSort _ _ _ _ fun a mem b mem' => ?_).symm
  exact (rfc3339_le_iff (years a (mem_of_mem_filter mem))
    (years b (mem_of_mem_filter mem'))).symm

theorem mem_of_mem_dueJobs {job : CronJob} (mem : job ∈ dueJobs jobs now limit) : job ∈ jobs :=
  mem_of_mem_filter ((mem_insertionSort _).mp (mem_of_mem_take mem))

/-- **The listing is right exactly when the schedules read back**: the texts of instants order like
them. -/
theorem listDue_iff (years : ∀ job ∈ jobs, FourDigit job.nextRunAt) (thisYear : FourDigit now) :
    listDue texts (jobs.map CronJob.toRow) now limit = .ok (dueJobs jobs now limit) ↔
      ∀ job ∈ dueJobs jobs now limit,
        Schedule.parse texts job.schedule.encode = .ok job.schedule :=
  listDue_map texts (dueRows_eq years thisYear) fun job mem => years job (mem_of_mem_dueJobs mem)

theorem two_listed :
    listDue plainTexts ([oneShotJob 1 (.startOf 2026), oneShotJob 2 (.startOf 2025)].map
        CronJob.toRow) (.startOf 2026) 2 =
      .ok [oneShotJob 2 (.startOf 2025), oneShotJob 1 (.startOf 2026)] := by
  refine (listDue_iff (by decide) (by decide)).mpr ?_
  decide +kernel

/-- **A schedule that does not read back fails the listing**: with an instant in the year 10000
stored, the due job of the other tenant is not listed. -/
theorem farSchedule_unlisted : let far := { oneShotCall 2 (.startOf 10000) with
      request := { (oneShotCall 2 (.startOf 10000)).request with
        nextRunAt := some (.startOf 2026) } }
    (handleAll plainTexts [] [oneShotCall 1 (.startOf 2026), far]).2 =
        [some (oneShotJob 1 (.startOf 2026)),
          some { oneShotJob 2 (.startOf 10000) with nextRunAt := .startOf 2026 }] ∧
      (listDue plainTexts (handleAll plainTexts [] [oneShotCall 1 (.startOf 2026), far]).1
        (.startOf 2026) 100).toOption = none := by
  decide +kernel

/-! ## The batch of a tick -/

theorem listDue_readable (texts : Texts)
    (readable : ∀ job ∈ jobs, job.schedule.Positive ∧ job.Readable) (thisYear : FourDigit now)
    (limit : ℕ) :
    listDue texts (jobs.map CronJob.toRow) now limit = .ok (dueJobs jobs now limit) := by
  have years : ∀ job ∈ jobs, FourDigit job.nextRunAt := fun job mem => (readable job mem).2.1
  refine (listDue_map texts (dueRows_eq years thisYear) fun job mem =>
    years job (mem_of_mem_dueJobs mem)).mpr fun job mem => ?_
  obtain ⟨positive, -, dated⟩ := readable job (mem_of_mem_dueJobs mem)
  exact (Schedule.parse_encode_iff texts positive).mpr dated

theorem exists_mem_take_iff {α : Type} {xs : List α} {stuck : α → Bool} {x : α} (mem : x ∈ xs)
    (free : stuck x = false) :
    (∃ y ∈ xs.take limit, stuck y = false) ↔ (xs.takeWhile stuck).length < limit := by
  induction xs generalizing limit with
  | nil => exact absurd mem not_mem_nil
  | cons a xs ih =>
    cases limit with
    | zero => simp
    | succ limit =>
      cases first : stuck a with
      | false => exact iff_of_true ⟨a, mem_cons_self, first⟩ (by simp [first])
      | true =>
        have later : x ∈ xs := by
          refine (mem_cons.mp mem).resolve_left ?_
          rintro rfl
          cases first.symm.trans free
        simp [takeWhile_cons_of_pos first, first, ← ih later]

theorem takeWhile_sublist_filter {α : Type} (stuck : α → Bool) (xs : List α) :
    xs.takeWhile stuck <+ xs.filter stuck := by
  have kept := (takeWhile_sublist (p := stuck) (l := xs)).filter stuck
  rwa [filter_eq_self.mpr fun x mem => mem_takeWhile_imp mem] at kept

/-- The due jobs that are listed before the first one of a connected agent. -/
def stuckBefore (registry : AgentRegistry) (jobs : List CronJob) (now : Instant) : List CronJob :=
  ((jobs.filter fun job => job.enabled ∧ job.nextRunAt ≤ now).insertionSort
    fun a b => a.nextRunAt ≤ b.nextRunAt).takeWhile fun job => !registry.isConnected job.agentId

theorem length_stuckBefore_le (registry : AgentRegistry) (jobs : List CronJob) (now : Instant) :
    (stuckBefore registry jobs now).length ≤
      ((jobs.filter fun job => job.enabled ∧ job.nextRunAt ≤ now).filter fun job =>
        !registry.isConnected job.agentId).length := by
  have sorted := perm_insertionSort (fun a b : CronJob => a.nextRunAt ≤ b.nextRunAt)
    (jobs.filter fun job => job.enabled ∧ job.nextRunAt ≤ now)
  rw [← (sorted.filter _).length_eq, stuckBefore]
  exact (takeWhile_sublist_filter _ _).length_le

/-- The listing of a tick starts a task for a job of a connected agent. -/
def ReachesConnected (texts : Texts) (decoders : Decoders) (s : System) : Prop :=
  ∃ s' i task, step texts decoders s (.list none) = some s' ∧ s.nextTask ≤ i ∧
    s'.tasks i = some task ∧ task.phase = .started ∧
    s.registry.isConnected task.job.agentId = true

theorem reachesConnected_iff {decoders : Decoders} {s : System} {due : List CronJob}
    (listing : s.listing = some now) (listed : listDue texts s.table now tickBatchLimit = .ok due) :
    ReachesConnected texts decoders s ↔ ∃ job ∈ due, s.registry.isConnected job.agentId = true := by
  have next : step texts decoders s (.list none) = some (s.dispatch due) := by
    simp only [step, listing, Option.map_some, listed]
  constructor
  · rintro ⟨s', i, task, stepped, isNew, found, -, connected⟩
    cases next.symm.trans stepped
    rcases Sound.mem_dispatch found with ⟨old, -⟩ | ⟨k, job, -, at', rfl⟩
    · exact absurd old (Nat.not_lt.mpr isNew)
    · exact ⟨job, mem_of_getElem? at', connected⟩
  · rintro ⟨job, mem, connected⟩
    obtain ⟨k, at'⟩ := mem_iff_getElem?.mp mem
    refine ⟨_, s.nextTask + k, { job := job }, next, Nat.le_add_right _ _, ?_, rfl, connected⟩
    simp [System.dispatch, at']

/-- **When a tick gets to a connected agent**, where the rows read back and a job of one is due:
exactly if fewer than a batch of stuck jobs are listed before the first of them, and so whenever
fewer than a batch are due at all. -/
theorem tick_reaches_connected_iff {decoders : Decoders} {s : System} {job : CronJob}
    (rows : s.table = jobs.map CronJob.toRow)
    (readable : ∀ job ∈ jobs, job.schedule.Positive ∧ job.Readable)
    (listing : s.listing = some now) (thisYear : FourDigit now)
    (mem : job ∈ jobs) (enabled : job.enabled = true) (due : job.nextRunAt ≤ now)
    (connected : s.registry.isConnected job.agentId = true) :
    (ReachesConnected texts decoders s ↔
      (stuckBefore s.registry jobs now).length < tickBatchLimit) ∧
    (((jobs.filter fun job => job.enabled ∧ job.nextRunAt ≤ now).filter fun job =>
      !s.registry.isConnected job.agentId).length < tickBatchLimit →
        ReachesConnected texts decoders s) := by
  have listed := listDue_readable texts readable thisYear tickBatchLimit
  rw [← rows] at listed
  have isDue : job ∈ (jobs.filter fun job => job.enabled ∧ job.nextRunAt ≤ now).insertionSort
      fun a b => a.nextRunAt ≤ b.nextRunAt :=
    (mem_insertionSort _).mpr (mem_filter.mpr ⟨mem, decide_eq_true ⟨enabled, due⟩⟩)
  have taken : (∃ job ∈ dueJobs jobs now tickBatchLimit,
      (!s.registry.isConnected job.agentId) = false) ↔
        (stuckBefore s.registry jobs now).length < tickBatchLimit := by
    refine exists_mem_take_iff isDue ?_
    rw [connected]
    rfl
  have iff : ReachesConnected texts decoders s ↔
      (stuckBefore s.registry jobs now).length < tickBatchLimit := by
    rw [reachesConnected_iff listing listed, ← taken]
    simp only [Bool.not_eq_false']
  exact ⟨iff, fun few => iff.mpr ((length_stuckBefore_le _ _ _).trans_lt few)⟩

def agentJob (agent id : ℕ) (nextRunAt : Instant) : CronJob :=
  { oneShotJob id nextRunAt with agentId := ⟨uuidOf agent⟩, schedule := .interval 86400 }

theorem lone_reached : ReachesConnected plainTexts noOutput
    { System.initial oneConnected (.startOf 2026) with
      table := [agentJob 2 1 (.startOf 2025), agentJob 1 2 (.startOf 2026)].map CronJob.toRow
      listing := some (.startOf 2026) } :=
  (tick_reaches_connected_iff rfl (by decide) rfl (by decide)
    (by decide : agentJob 1 2 (.startOf 2026) ∈
      [agentJob 2 1 (.startOf 2025), agentJob 1 2 (.startOf 2026)])
    rfl (by decide) (by decide +kernel)).1.mpr (by decide +kernel)

theorem exec_creates (texts : Texts) (decoders : Decoders) (s : System) (jobs : List CronJob)
    (fresh : (s.table.map StoredRow.id ++ jobs.map CronJob.id).Nodup)
    (positive : ∀ job ∈ jobs, job.schedule.Positive) :
    exec (step texts decoders) s (jobs.map .create) =
      some { s with table := s.table ++ jobs.map CronJob.toRow } := by
  induction jobs generalizing s with
  | nil => simp [exec]
  | cons job jobs ih =>
    obtain ⟨here, later⟩ := forall_mem_cons.mp positive
    have free : s.table.any (·.id = job.id) = false := by
      rw [any_eq_false]
      intro row mem same
      exact disjoint_of_nodup_append fresh (mem_map_of_mem mem)
        (of_decide_eq_true same ▸ mem_cons_self)
    have created : step texts decoders s (.create job) =
        some { s with table := s.table ++ [job.toRow] } := by
      simp [step, here, Cron.insert, free, Except.toOption]
    rw [map_cons, exec_cons, created, Option.bind_some, ih _ ?_ later, map_cons,
      append_assoc, singleton_append]
    rw [map_append, append_assoc]
    exact fresh

def createdAndTicked (jobs : List CronJob) : List Label :=
  jobs.map .create ++ [.wait 60, .tick, .list none]

theorem run_createdAndTicked (texts : Texts) (decoders : Decoders) (registry : AgentRegistry)
    {clock : Instant} {due : List CronJob} (ids : (jobs.map CronJob.id).Nodup)
    (fits : ∀ job ∈ jobs, job.schedule.Positive ∧ job.Readable)
    (year : FourDigit (clock.later 60))
    (batch : dueJobs jobs (clock.later 60) tickBatchLimit = due) :
    ∃ s, Run (step texts decoders) anyStep (.initial registry clock) (createdAndTicked jobs) s ∧
      s.table = jobs.map CronJob.toRow ∧ s.clock = clock.later 60 ∧ s.registry = registry ∧
      s.nextTask = due.length ∧ ∀ i task, s.tasks i = some task → task.job ∈ due := by
  have listed := listDue_readable texts fits year tickBatchLimit
  rw [batch] at listed
  have created := exec_creates texts decoders (.initial registry clock) jobs ids
    fun job mem => (fits job mem).1
  have ran : exec (step texts decoders) (.initial registry clock) (createdAndTicked jobs) =
      some ({ System.initial registry (clock.later 60) with
        table := jobs.map CronJob.toRow }.dispatch due) := by
    rw [createdAndTicked, exec_append, created]
    simp [exec, step, System.initial, System.TickDue, tickInterval, listed, System.dispatch]
  refine ⟨_, run_of_exec ran, rfl, rfl, rfl, Nat.zero_add _, fun i task found => ?_⟩
  rcases Sound.mem_dispatch found with ⟨old, -⟩ | ⟨k, job, -, at', rfl⟩
  · exact absurd old (Nat.not_lt_zero i)
  · exact mem_of_getElem? at'

def absentJobs : List CronJob := (List.range 100).map (agentJob 2 · (.startOf 2026))

def waitingJob : CronJob := agentJob 1 100 ((Instant.startOf 2026).later 1)

theorem crowd_ids : ((absentJobs ++ [waitingJob]).map CronJob.id).Nodup := by
  have ids : (absentJobs ++ [waitingJob]).map CronJob.id = (List.range 101).map (⟨uuidOf ·⟩) := rfl
  rw [ids]
  refine List.Nodup.map_on (fun a mem b mem' same => ?_) nodup_range
  have bits := congrArg (fun id : CronJobId => id.uuid.bits.toNat) same
  simp only [uuidOf, BitVec.toNat_ofNat, mem_range] at bits mem mem'
  omega

theorem crowd_due : dueJobs (absentJobs ++ [waitingJob]) ((Instant.startOf 2026).later 60)
    tickBatchLimit = absentJobs := by
  have all : ∀ job ∈ absentJobs ++ [waitingJob],
      job.enabled = true ∧ job.nextRunAt ≤ (Instant.startOf 2026).later 60 := by
    refine forall_mem_append.mpr ⟨forall_mem_map.mpr fun _ _ => ⟨rfl, ?_⟩,
      forall_mem_singleton.mpr ⟨rfl, ?_⟩⟩
    · exact Instant.le_later _ 60
    · decide
  have sorted : (absentJobs ++ [waitingJob]).Pairwise fun a b => a.nextRunAt ≤ b.nextRunAt := by
    refine pairwise_append.mpr ⟨pairwise_map.mpr ?_, pairwise_singleton _ _, ?_⟩
    · exact pairwise_of_forall fun _ _ => le_rfl
    · refine forall_mem_map.mpr fun _ _ => forall_mem_singleton.mpr ?_
      exact Instant.le_later _ 1
  rw [dueJobs, filter_eq_self.mpr fun job mem => decide_eq_true (all job mem),
    sorted.insertionSort_eq]
  rfl

/-- **Stuck jobs fill the batch**: all tasks that the tick starts are of the absent agent. -/
theorem crowd_starves : ∃ s, Run (step plainTexts noOutput) anyStep
    (.initial oneConnected (.startOf 2026)) (createdAndTicked (absentJobs ++ [waitingJob])) s ∧
    waitingJob.toRow ∈ s.table ∧ waitingJob.nextRunAt ≤ s.clock ∧
    s.registry.isConnected waitingJob.agentId = true ∧ s.nextTask = 100 ∧
    ∀ i task, s.tasks i = some task → s.registry.isConnected task.job.agentId = false := by
  have fits : ∀ job ∈ absentJobs ++ [waitingJob], job.schedule.Positive ∧ job.Readable := by
    refine forall_mem_append.mpr ⟨forall_mem_map.mpr fun _ _ => ?_, by decide⟩
    exact ⟨(by decide : (Schedule.interval 86400).Positive),
      (by decide : FourDigit (.startOf 2026)), trivial⟩
  obtain ⟨s, run, table, clock, registry, tasks, mem⟩ :=
    run_createdAndTicked plainTexts noOutput oneConnected crowd_ids fits
      (by decide : FourDigit ((Instant.startOf 2026).later 60)) crowd_due
  refine ⟨s, run, ?_, ?_, ?_, ?_, fun i task found => ?_⟩
  · rw [table]
    exact mem_map_of_mem (mem_append_right _ (mem_singleton_self _))
  · rw [clock]
    decide
  · rw [registry]
    decide +kernel
  · simpa [absentJobs] using tasks
  · obtain ⟨id, -, same⟩ := mem_map.mp (mem i task found)
    rw [registry, ← same]
    exact (by decide +kernel : oneConnected.isConnected ⟨uuidOf 2⟩ = false)

end Havn.Gateway.CronDue
