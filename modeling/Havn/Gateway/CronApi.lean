import Mathlib.Data.List.ReduceOption
import Havn.Db.Cron
import Havn.Gateway.Api
import Havn.Gateway.PolicyResolver

/-!
# Creating cron jobs over HTTP

`havn-gateway`, `api/cron.rs`: the endpoint that validates a request and stores a job.  All agents'
jobs are read in one call that fails as a whole if one row does not decode
(`Havn.Db.Cron.listDue`).  The endpoint checks everything but the year of the first run.  A request
acts on the table once, so any interleaving of requests is some sequence of them.
-/

namespace Havn.Gateway.CronApi

open Havn.Core Lib Lib.Calendar Lib.Rfc3339 Db Db.Cron List
open Api

/-! ## The endpoint -/

inductive ScheduleInput
  | interval (intervalSeconds : Int64)
  | at' (instant : Instant)

structure CreateCronRequest where
  name : String
  prompt : String
  schedule : ScheduleInput
  nextRunAt : Option Instant := none
  wakeCheck : Option String := none
  deliver : String := "webchat"
  enabledToolsets : List String := []

def validateDeliver (debug : String → String) (s : String) : Option String :=
  if s = "local" ∨ s = "webchat" then none
  else some ("deliver must be 'local' or 'webchat'; got " ++ debug s ++
    ". External chat-platform delivery is the operator's webhook concern (spec §8.5).")

inductive Failure
  | api (error : ApiError)
  | panicked
deriving DecidableEq

/-- Adding an interval to the current time panics where the sum is not representable. -/
def firstRun (now : Instant) : ScheduleInput → Except Failure (Schedule × Instant)
  | .interval seconds =>
    if seconds.toInt < 1 then
      .error (.api (.badRequest "interval_seconds must be >= 1"))
    else
      match now.addSeconds seconds.toInt.toNat with
      | none => .error .panicked
      | some next => .ok (.interval seconds, next)
  | .at' instant => .ok (.at' instant, instant)

/-- One request with the caller, the state, the clock, the id drawn, the database's clock at the
`INSERT` and whether that fails. -/
structure CreateCall where
  app : AppState
  user : UserId
  agentPath : String
  request : CreateCronRequest
  now : Instant
  id : CronJobId
  createdAt : Instant
  insertFault : Option DbError := none

variable (texts : Texts)

def prepare (call : CreateCall) : Except Failure NewCronJob :=
  match resolveAgent call.app call.user call.agentPath with
  | .error e => .error (.api e)
  | .ok agent =>
    if (PolicyResolver.forUser call.app.env call.app.db call.user).permissions.canScheduleCron
        = false then
      .error (.api (.forbidden
        "this user's policy does not allow scheduling cron jobs (can_schedule_cron=false)"))
    else if trim call.request.name = "" then
      .error (.api (.badRequest "name must be non-empty"))
    else if trim call.request.prompt = "" then
      .error (.api (.badRequest "prompt must be non-empty"))
    else
      match validateDeliver texts.debug (trim call.request.deliver) with
      | some complaint => .error (.api (.badRequest complaint))
      | none => do
          -- the default is computed even where the request overrides it
          let (schedule, defaultNext) ← firstRun call.now call.request.schedule
          pure {
            agentId := agent.id
            name := trim call.request.name
            prompt := trim call.request.prompt
            schedule := schedule
            nextRunAt := call.request.nextRunAt.getD defaultNext
            wakeCheck := call.request.wakeCheck
            deliver := trim call.request.deliver
            enabledToolsets := call.request.enabledToolsets
          }

structure Handled where
  reply : Except Failure CronJob
  stored : Option CronJob
  table : Table

def create (table : Table) (call : CreateCall) : Handled :=
  match prepare texts call with
  | .error failure => ⟨.error failure, none, table⟩
  | .ok new =>
    let job := new.job call.id call.createdAt
    let created := Cron.create texts table call.insertFault job
    { reply := match created.1 with
        | .error e => .error (.api (.ofDb e))
        | .ok job => .ok job
      stored := match Cron.insert texts table call.insertFault job with
        | .error _ => none
        | .ok _ => some job
      table := created.2 }

def handleAll (table : Table) : List CreateCall → Table × List (Option CronJob)
  | [] => (table, [])
  | call :: calls =>
    let handled := create texts table call
    let rest := handleAll handled.table calls
    (rest.1, handled.stored :: rest.2)

/-! ## What a request does to the table -/

theorem firstRun_positive {now : Instant} {input : ScheduleInput} {schedule : Schedule}
    {next : Instant} (first : firstRun now input = .ok (schedule, next)) : schedule.Positive := by
  cases input with
  | interval =>
    simp only [firstRun] at first
    split at first
    · cases first
    rename_i atLeast
    split at first
    · cases first
    · cases first
      exact not_lt.mp atLeast
  | at' =>
    cases first
    exact trivial

theorem prepare_positive {call : CreateCall} {new : NewCronJob}
    (prepared : prepare texts call = .ok new) : new.schedule.Positive := by
  unfold prepare at prepared
  split at prepared
  · cases prepared
  -- each check either refuses the request or leaves the rest of the handler
  repeat (split at prepared; · cases prepared)
  obtain ⟨⟨schedule, next⟩, first, whole⟩ := bind_eq_ok.mp prepared
  cases whole
  exact firstRun_positive first

/-- **What one request does**: nothing to the table, or one row with a fresh id
at its end. -/
theorem stores_create {table : Table} {jobs : List CronJob} (stores : Stores table jobs)
    (call : CreateCall) :
    Stores (create texts table call).table (jobs ++ (create texts table call).stored.toList) := by
  unfold create
  cases prepared : prepare texts call with
  | error =>
    rw [Option.toList_none, append_nil]
    exact stores
  | ok new =>
    cases inserted :
        Cron.insert texts table call.insertFault (new.job call.id call.createdAt) with
    | error =>
      simp only [Cron.create, inserted, Option.toList_none, append_nil]
      exact stores
    | ok =>
      simp only [Cron.create, inserted, Option.toList_some]
      exact stores.insert (prepare_positive texts prepared) inserted

theorem stores_handleAll {table : Table} {jobs : List CronJob} (stores : Stores table jobs)
    (calls : List CreateCall) :
    Stores (handleAll texts table calls).1
      (jobs ++ (handleAll texts table calls).2.reduceOption) := by
  induction calls generalizing table jobs with
  | nil =>
    rw [CronApi.handleAll, reduceOption_nil, append_nil]
    exact stores
  | cons call calls ih =>
    have after := ih (stores_create texts stores call)
    simp only [CronApi.handleAll]
    cases stored : (CronApi.create texts table call).stored with
    | none =>
      rw [stored, Option.toList_none, append_nil] at after
      rwa [reduceOption_cons_of_none]
    | some =>
      rw [stored, Option.toList_some, append_assoc] at after
      rwa [reduceOption_cons_of_some]

/-- The job that a request is for, if it is accepted and its `INSERT` does not fail. -/
def accepted (call : CreateCall) : Option CronJob :=
  if call.insertFault.isSome then none
  else (prepare texts call).toOption.map (·.job call.id call.createdAt)

theorem create_stored {table : Table} {call : CreateCall}
    (fresh : call.id ∉ table.map StoredRow.id) :
    (create texts table call).stored = accepted texts call ∧
      ∀ id ∈ (create texts table call).table.map StoredRow.id,
        id ∈ table.map StoredRow.id ∨ id = call.id := by
  have free : ∀ new : NewCronJob,
      table.any (·.id = (new.job call.id call.createdAt).id) = false := by
    intro new
    rw [any_eq_false]
    exact fun row mem same => fresh (mem_map.mpr ⟨row, mem, of_decide_eq_true same⟩)
  unfold create accepted
  cases prepared : prepare texts call with
  | error =>
    refine ⟨?_, fun id => Or.inl⟩
    cases call.insertFault <;> rfl
  | ok new =>
    cases fault : call.insertFault with
    | some => exact ⟨rfl, fun id => Or.inl⟩
    | none =>
      have inserted : Cron.insert texts table none (new.job call.id call.createdAt) =
          .ok (table ++ [(new.job call.id call.createdAt).toRow]) := by
        simp only [Cron.insert, free new, Bool.false_eq_true, if_false]
      simp only [Cron.create, inserted]
      refine ⟨rfl, fun id mem => ?_⟩
      rw [map_append, map_singleton] at mem
      exact (mem_append.mp mem).imp_right mem_singleton.mp

/-- Where the ids that are drawn are distinct, what is stored is what was accepted. -/
theorem handleAll_stored : ∀ {calls : List CreateCall} {table : Table},
    (calls.map (·.id)).Nodup → (∀ call ∈ calls, call.id ∉ table.map StoredRow.id) →
      (handleAll texts table calls).2 = calls.map (accepted texts) := by
  intro calls
  induction calls with
  | nil => exact fun _ _ => rfl
  | cons call calls ih =>
    intro table distinct fresh
    obtain ⟨stored, ids⟩ := create_stored texts (fresh call mem_cons_self)
    obtain ⟨notLater, distinct⟩ := nodup_cons.mp distinct
    rw [handleAll, map_cons, stored, ih distinct fun later mem taken => ?_]
    rcases ids later.id taken with earlier | same
    · exact fresh later (mem_cons_of_mem _ mem) earlier
    · exact notLater (mem_map.mpr ⟨later, mem, same⟩)

/-! ## The tenants' jobs -/

variable (calls : List CreateCall)

/-- What each request stored reads back, and the scheduler's listing succeeds with jobs that are
due. -/
structure Isolated (now : Instant) (limit : ℕ) : Prop where
  readsBack : ∀ stored ∈ (handleAll texts [] calls).2, ∀ job, stored = some job →
    findById texts (handleAll texts [] calls).1 job.id = .ok (some job)
  listsDue : ∃ due, listDue texts (handleAll texts [] calls).1 now limit = .ok due ∧
    ∀ job ∈ due, job.nextRunAt ≤ now

theorem stores_stored :
    Stores (handleAll texts [] calls).1 (handleAll texts [] calls).2.reduceOption :=
  stores_handleAll texts .empty calls

theorem findById_stored_iff {calls : List CreateCall} {job : CronJob}
    (stored : some job ∈ (handleAll texts [] calls).2) :
    findById texts (handleAll texts [] calls).1 job.id = .ok (some job) ↔ job.Readable := by
  have stores := stores_stored texts calls
  have mem := reduceOption_mem_iff.mpr stored
  have inTable : job.toRow ∈ (handleAll texts [] calls).1 := by
    rw [stores.rows]
    exact mem_map_of_mem mem
  have unique : ((handleAll texts [] calls).1.map StoredRow.id).Nodup := by
    rw [stores.rows, map_map]
    exact stores.unique
  rw [findById_eq_some_iff texts unique inTable, read_toRow_iff texts (stores.positive job mem)]

/-- The first run, and of a one-shot its instant, are in a year of four digits. -/
def NearJob (job : CronJob) : Prop :=
  FourDigit job.nextRunAt ∧ ∀ instant, job.schedule = .at' instant → FourDigit instant

theorem readable_iff (job : CronJob) : job.Readable ↔ NearJob job := by
  refine and_congr_right fun _ => ?_
  cases job.schedule <;> simp [Schedule.Dated]

/-- **When requests leave every tenant alone**: exactly when every stored job has its first run, and
as a one-shot its instant, in a year of four digits; and where the ids drawn are distinct, exactly
when every request does that is accepted. -/
theorem requests_isolated_iff (now : Instant) (limit : ℕ) :
    (Isolated texts calls now limit ↔
      ∀ stored ∈ (handleAll texts [] calls).2, ∀ job, stored = some job → NearJob job) ∧
    ((calls.map (·.id)).Nodup → (Isolated texts calls now limit ↔
      ∀ call ∈ calls, ∀ job ∈ accepted texts call, NearJob job)) := by
  have iff : Isolated texts calls now limit ↔
      ∀ stored ∈ (handleAll texts [] calls).2, ∀ job, stored = some job → NearJob job := by
    constructor
    · rintro isolated _ mem job rfl
      exact (readable_iff job).mp
        ((findById_stored_iff texts mem).mp (isolated.readsBack _ mem job rfl))
    · intro near
      refine ⟨?_, ?_⟩
      · rintro _ mem job rfl
        exact (findById_stored_iff texts mem).mpr ((readable_iff job).mpr (near _ mem job rfl))
      · have stores := stores_stored texts calls
        refine listDue_of_readable texts now limit fun row mem => ?_
        rw [stores.rows] at mem
        obtain ⟨job, stored, rfl⟩ := mem_map.mp mem
        exact ⟨job, rfl, stores.positive job stored,
          (readable_iff job).mpr (near _ (reduceOption_mem_iff.mp stored) job rfl)⟩
  refine ⟨iff, fun distinct => ?_⟩
  rw [iff, handleAll_stored texts distinct fun _ _ => not_mem_nil, forall_mem_map]
  rfl

/-! ## A job in the year 10000 -/

def plainTexts : Texts :=
  ⟨id, id, id, fun _ => ""⟩

def tenant (n : ℕ) : Agent where
  id := ⟨uuidOf n⟩
  ownerId := ⟨uuidOf n⟩
  name := "helper"

def twoTenants : AppState where
  db := { agents := [tenant 1, tenant 2] }
  parseAgentId := fun _ => none

def oneShotCall (n : ℕ) (instant : Instant) : CreateCall where
  app := twoTenants
  user := ⟨uuidOf n⟩
  agentPath := "helper"
  request := { name := "daily", prompt := "report", schedule := .at' instant }
  now := .startOf 2026
  id := ⟨uuidOf n⟩
  createdAt := .startOf 2026

def oneShotJob (n : ℕ) (instant : Instant) : CronJob where
  id := ⟨uuidOf n⟩
  agentId := ⟨uuidOf n⟩
  name := "daily"
  prompt := "report"
  schedule := .at' instant
  nextRunAt := instant
  wakeCheck := none
  deliver := "webchat"
  enabledToolsets := []
  enabled := true
  createdAt := .startOf 2026

def dueAndFar : List CreateCall :=
  [oneShotCall 1 (.startOf 2026), oneShotCall 2 (.startOf 10000)]

/-- **The far job stops the due one** of the other tenant: the listing fails at every limit. -/
theorem farJob_blocks_due :
    (handleAll plainTexts [] dueAndFar).2 =
        [some (oneShotJob 1 (.startOf 2026)), some (oneShotJob 2 (.startOf 10000))] ∧
      (∀ limit, 0 < limit → ∃ e,
        listDue plainTexts (handleAll plainTexts [] dueAndFar).1 (.startOf 2026) limit =
          .error e) ∧
      ∀ limit, ¬ Isolated plainTexts dueAndFar (.startOf 2026) limit := by
  have stored : (handleAll plainTexts [] dueAndFar).2 =
      [some (oneShotJob 1 (.startOf 2026)), some (oneShotJob 2 (.startOf 10000))] := by
    decide +kernel
  have far : some (oneShotJob 2 (.startOf 10000)) ∈ (handleAll plainTexts [] dueAndFar).2 := by
    rw [stored]
    exact mem_cons_of_mem _ mem_cons_self
  have year : ¬ FourDigit (oneShotJob 2 (.startOf 10000)).nextRunAt := by decide
  have stores := stores_stored plainTexts dueAndFar
  refine ⟨stored, fun limit nonzero => ?_, fun limit isolated => ?_⟩
  · refine listDue_blocked plainTexts (fun row mem => ?_) ?_ rfl year (by decide) nonzero
    · rw [stores.rows] at mem
      obtain ⟨job, -, rfl⟩ := mem_map.mp mem
      exact ⟨job, rfl⟩
    · rw [stores.rows]
      exact mem_map_of_mem (reduceOption_mem_iff.mpr far)
  · exact year ((findById_stored_iff plainTexts far).mp (isolated.readsBack _ far _ rfl)).1

end Havn.Gateway.CronApi
