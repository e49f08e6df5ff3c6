import Havn.Db.Cron
import Havn.Gateway.WebChat
import Havn.Lib.Machine
import Havn.Runtime.SkillManage

/-!
# Recording what came of a cron tick

`record_result` of `havn-gateway/src/cron.rs`: the output of a `CronResult` is written to a file and
shown in the agent's open consoles, and `cron_runs` gets a row.
-/

namespace Havn.Gateway.CronResults

open Havn.Core Db Db.Cron WebChat Lib Lib.Calendar List
open Lib.FileTree Proto Havn.Runtime
open Runtime.Files (FileName)
open Runtime.Skills (moves moves_join)

/-! ## Rows, files and broadcasts -/

inductive CronError
  | invalidJobId (text : String)
  | unknownJob (id : CronJobId)
  | agentMismatch
  | io (error : IoError)
  | db (error : DbError)

structure NewCronRun where
  jobId : CronJobId
  startedAt : Instant
  finishedAt : Option Instant
  outputPath : String
  silent : Bool
  error : Option String

structure CronRun where
  jobId : String
  startedAt : String
  finishedAt : Option String
  outputPath : String
  silent : Bool
  error : Option String

def NewCronRun.toRow (new : NewCronRun) : CronRun where
  jobId := new.jobId.toString
  startedAt := rfc3339 new.startedAt
  finishedAt := new.finishedAt.map rfc3339
  outputPath := new.outputPath
  silent := new.silent
  error := new.error

structure Broadcast where
  agentId : AgentId
  message : OutboundMessage
  pushes : List Push

structure Scheduler where
  workspaceRoot : String
  reader : UuidReader
  fileName : ∀ {text : String} {uuid : Uuid}, reader.parseStr text = some uuid → FileName text
  texts : Texts
  debug : MessageContent → String

structure State where
  jobs : Table
  tree : Tree
  runs : List CronRun := []
  broadcasts : List Broadcast := []

/-- A `CronResult` with the clock, the open consoles and the faults of the database and the file
system. -/
structure Call where
  agentId : AgentId
  result : CronResult
  now : Instant
  webchat : WebChatRouter
  alive : ℕ → Bool
  findFault : Option DbError := none
  dirFault : Option IoError := none
  writeFault : Option (IoError × String) := none
  runFault : Option DbError := none

/-! ## Recording -/

namespace Call

def outcome (call : Call) : Option String :=
  match call.result.outcome with
  | .success => none
  | .error message => some message

def announces (call : Call) : Bool := !call.result.silent && call.outcome.isNone

end Call

namespace Scheduler

variable (g : Scheduler)

def cronJobId (text : String) : Option CronJobId := (g.reader.parseStr text).map CronJobId.mk

def cronDir (agentId : AgentId) : String :=
  Files.join (Files.join g.workspaceRoot agentId.toString) "cron"

def outputDir (call : Call) : String := Files.join (g.cronDir call.agentId) call.result.jobId

def outputName (now : Instant) : String := String.ofList (Rfc3339.compactText now) ++ ".md"

def outputPath (call : Call) : String := Files.join (g.outputDir call) (outputName call.now)

def run (call : Call) (jobId : CronJobId) : NewCronRun where
  jobId := jobId
  startedAt := call.now
  finishedAt := some call.now
  outputPath := g.outputPath call
  silent := call.result.silent
  error := call.outcome

def broadcast (call : Call) : Broadcast :=
  let outbound : OutboundMessage :=
    { channelId := "broadcast", content := .text call.result.output, replyTo := none }
  { agentId := call.agentId
    message := outbound
    pushes := call.webchat.broadcast g.debug call.alive call.agentId outbound }

def findById (s : State) (call : Call) (jobId : CronJobId) : Except DbError (Option CronJob) :=
  match call.findFault with
  | some e => .error e
  | none => Cron.findById g.texts s.jobs jobId

def createDirAll (tree : Tree) (call : Call) : Except IoError Tree :=
  match call.dirFault with
  | some e => .error e
  | none => FileTree.createDirAll tree [] (moves (g.outputDir call))

def write (tree : Tree) (call : Call) : Except (IoError × Tree) Tree :=
  match call.writeFault with
  | some (e, part) =>
    .error (e, (FileTree.write tree (moves (g.outputPath call)) part).toOption.getD tree)
  | none =>
    (FileTree.write tree (moves (g.outputPath call)) call.result.output).mapError (·, tree)

def recordResult (s : State) (call : Call) : Except CronError Unit × State :=
  match g.cronJobId call.result.jobId with
  | none => (.error (.invalidJobId call.result.jobId), s)
  | some jobId =>
    match g.findById s call jobId with
    | .error e => (.error (.db e), s)
    | .ok none => (.error (.unknownJob jobId), s)
    | .ok (some job) =>
      if job.agentId ≠ call.agentId then (.error .agentMismatch, s)
      else
        match g.createDirAll s.tree call with
        | .error e => (.error (.io e), s)
        | .ok made =>
          match g.write made call with
          | .error (e, tree) => (.error (.io e), { s with tree := tree })
          | .ok tree =>
            match call.runFault with
            | some e => (.error (.db e), { s with tree := tree })
            | none =>
              (.ok (), { s with
                tree := tree
                runs := s.runs ++ [(g.run call jobId).toRow]
                broadcasts := s.broadcasts ++
                  if call.announces then [g.broadcast call] else [] })

end Scheduler

/-- The scheduler records a result or logs why it could not; the second part of the state are the
results recorded so far. -/
def step (g : Scheduler) (s : State × List Call) (call : Call) : Option (State × List Call) :=
  match g.recordResult s.1 call with
  | (.ok (), s') => some (s', s.2 ++ [call])
  | (.error _, s') => some (s', s.2)

structure Call.Unhindered (call : Call) : Prop where
  find : call.findFault = none
  dir : call.dirFault = none
  write : call.writeFault = none
  run : call.runFault = none

/-! ## What a recorded result does -/

variable {jobId : CronJobId}

section Spec

variable {g : Scheduler} {s s' : State} {call : Call}

structure Recorded (g : Scheduler) (s : State) (call : Call) (s' : State) (jobId : CronJobId)
    (job : CronJob) (made : Tree) : Prop where
  parsed : g.cronJobId call.result.jobId = some jobId
  found : Cron.findById g.texts s.jobs jobId = .ok (some job)
  owner : call.agentId = job.agentId
  makes : FileTree.createDirAll s.tree [] (moves (g.outputDir call)) = .ok made
  writes : FileTree.write made (moves (g.outputPath call)) call.result.output = .ok s'.tree
  jobs : s'.jobs = s.jobs
  runs : s'.runs = s.runs ++ [(g.run call jobId).toRow]
  broadcasts : s'.broadcasts =
    s.broadcasts ++ if call.announces then [g.broadcast call] else []

theorem findById_eq_ok {found : Option CronJob} (ran : g.findById s call jobId = .ok found) :
    Cron.findById g.texts s.jobs jobId = .ok found := by
  unfold Scheduler.findById at ran
  split at ran
  · cases ran
  · exact ran

theorem createDirAll_eq_ok {tree made : Tree} (ran : g.createDirAll tree call = .ok made) :
    FileTree.createDirAll tree [] (moves (g.outputDir call)) = .ok made := by
  unfold Scheduler.createDirAll at ran
  split at ran
  · cases ran
  · exact ran

theorem write_eq_ok {tree tree' : Tree} (ran : g.write tree call = .ok tree') :
    FileTree.write tree (moves (g.outputPath call)) call.result.output = .ok tree' := by
  unfold Scheduler.write at ran
  split at ran
  · cases ran
  · exact mapError_eq_ok.mp ran

theorem recordResult_ok (ran : g.recordResult s call = (.ok (), s')) :
    ∃ jobId job made, Recorded g s call s' jobId job made := by
  unfold Scheduler.recordResult at ran
  split at ran
  · cases ran
  rename_i jobId parsed
  split at ran
  · cases ran
  · cases ran
  rename_i job found
  split at ran
  · cases ran
  rename_i owner
  split at ran
  · cases ran
  rename_i made makes
  split at ran
  · cases ran
  rename_i tree writes
  split at ran
  · cases ran
  · cases ran
    exact ⟨jobId, job, made, parsed, findById_eq_ok found, (of_not_not owner).symm,
      createDirAll_eq_ok makes, write_eq_ok writes, rfl, rfl, rfl⟩

/-- A result that is not recorded adds no row and shows nothing; where neither the write nor the
insert was what failed, it has made directories at most. -/
theorem recordResult_error {e : CronError} (failed : g.recordResult s call = (.error e, s')) :
    s'.jobs = s.jobs ∧ s'.runs = s.runs ∧ s'.broadcasts = s.broadcasts ∧
      (call.writeFault = none → call.runFault = none → s'.tree = s.tree ∨
        FileTree.createDirAll s.tree [] (moves (g.outputDir call)) = .ok s'.tree) := by
  unfold Scheduler.recordResult at failed
  split at failed
  · cases failed
    exact ⟨rfl, rfl, rfl, fun _ _ => .inl rfl⟩
  split at failed
  · cases failed
    exact ⟨rfl, rfl, rfl, fun _ _ => .inl rfl⟩
  · cases failed
    exact ⟨rfl, rfl, rfl, fun _ _ => .inl rfl⟩
  split at failed
  · cases failed
    exact ⟨rfl, rfl, rfl, fun _ _ => .inl rfl⟩
  split at failed
  · cases failed
    exact ⟨rfl, rfl, rfl, fun _ _ => .inl rfl⟩
  rename_i made makes
  split at failed
  · rename_i tree writes
    cases failed
    refine ⟨rfl, rfl, rfl, fun noFault _ => .inr ?_⟩
    rw [Scheduler.write, noFault] at writes
    have same : made = tree := by
      cases wrote : FileTree.write made (moves (g.outputPath call)) call.result.output with
      | ok => simp [wrote, Except.mapError] at writes
      | error =>
        simp only [wrote, Except.mapError, Except.error.injEq, Prod.mk.injEq] at writes
        exact writes.2
    rw [← same]
    exact createDirAll_eq_ok makes
  split at failed
  · rename_i faulty
    cases failed
    refine ⟨rfl, rfl, rfl, fun _ noFault => ?_⟩
    cases noFault.symm.trans faulty
  · cases failed

theorem exists_recorded {job : CronJob} {made tree : Tree} (unhindered : call.Unhindered)
    (parsed : g.cronJobId call.result.jobId = some jobId)
    (found : Cron.findById g.texts s.jobs jobId = .ok (some job))
    (owner : call.agentId = job.agentId)
    (makes : FileTree.createDirAll s.tree [] (moves (g.outputDir call)) = .ok made)
    (writes : FileTree.write made (moves (g.outputPath call)) call.result.output = .ok tree) :
    ∃ s', g.recordResult s call = (.ok (), s') := by
  have finds : g.findById s call jobId = .ok (some job) := by
    rw [Scheduler.findById, unhindered.find]
    exact found
  have enters : g.createDirAll s.tree call = .ok made := by
    rw [Scheduler.createDirAll, unhindered.dir]
    exact makes
  have stores : g.write made call = .ok tree := by
    rw [Scheduler.write, unhindered.write]
    exact mapError_eq_ok.mpr writes
  rw [Scheduler.recordResult, parsed]
  dsimp only
  rw [finds]
  dsimp only
  rw [if_neg (not_not.mpr owner.symm), enters]
  dsimp only
  rw [stores]
  dsimp only
  rw [unhindered.run]
  exact ⟨_, rfl⟩

end Spec

/-! ## Files -/

section Files

variable {g : Scheduler} {s s' : State} {call other : Call}

theorem fileName_outputName (now : Instant) : FileName (Scheduler.outputName now) := by
  have chars : (Scheduler.outputName now).toList = Rfc3339.compactText now ++ ['.', 'm', 'd'] := by
    rw [Scheduler.outputName, String.toList_append, String.toList_ofList]
    rfl
  have letter : 'm' ∈ (Scheduler.outputName now).toList := by
    rw [chars]
    exact mem_append_right _ (by decide)
  refine .of_mem letter (by decide) fun slash => ?_
  rw [chars] at slash
  rcases mem_append.mp slash with stamp | ending
  · exact absurd (Rfc3339.mem_compactText stamp) (by decide)
  · exact absurd ending (by decide)

theorem moves_outputPath (parsed : g.cronJobId call.result.jobId = some jobId) :
    moves (g.outputPath call) = moves (g.cronDir call.agentId) ++
      [.down call.result.jobId.toList] ++ [.down (Scheduler.outputName call.now).toList] := by
  obtain ⟨uuid, isUuid, -⟩ := Option.map_eq_some_iff.mp parsed
  have job := g.fileName isUuid
  have file := fileName_outputName call.now
  rw [Scheduler.outputPath, moves_join file, Scheduler.outputDir, moves_join job]

/-- Two results have the same file if the agent spells the job alike and the clock
shows one second. -/
def SameFile (call other : Call) : Prop :=
  call.result.jobId = other.result.jobId ∧ Rfc3339.SameSecond call.now other.now
  deriving Decidable

theorem outputPath_of_sameFile (agents : call.agentId = other.agentId)
    (same : SameFile call other) : g.outputPath call = g.outputPath other := by
  rw [Scheduler.outputPath, Scheduler.outputPath, Scheduler.outputDir, Scheduler.outputDir, agents,
    same.1, Scheduler.outputName, Scheduler.outputName, Rfc3339.compactText_inj.mpr same.2]

theorem readToString_of_recorded {jobId' : CronJobId} {job : CronJob} {made : Tree}
    {output : String}
    (recorded : Recorded g s call s' jobId job made)
    (parsed : g.cronJobId other.result.jobId = some jobId') (agents : call.agentId = other.agentId)
    (apart : ¬ SameFile call other)
    (read : readToString s.tree (moves (g.outputPath other)) = .ok output) :
    readToString s'.tree (moves (g.outputPath other)) = .ok output := by
  refine readToString_of_write_elsewhere recorded.writes
    (readToString_of_createDirAll recorded.makes read) fun place here there => apart ?_
  rw [moves_outputPath recorded.parsed] at here
  rw [moves_outputPath parsed, ← agents] at there
  obtain ⟨jobs, files⟩ := eq_of_locate_below here there
  refine ⟨String.toList_inj.mp jobs, Rfc3339.compactText_inj.mp ?_⟩
  simpa [Scheduler.outputName] using files

theorem exists_recorded_again {job : CronJob} {made : Tree}
    (recorded : Recorded g s call s' jobId job made) (agents : call.agentId = other.agentId)
    (same : SameFile call other) (unhindered : other.Unhindered) :
    ∃ s'', g.recordResult s' other = (.ok (), s'') := by
  have dirs : g.outputDir call = g.outputDir other := by
    rw [Scheduler.outputDir, Scheduler.outputDir, agents, same.1]
  obtain ⟨there, enters, isDir⟩ := locate_createDirAll recorded.makes rfl
  obtain ⟨place, located, isFile, stay, -⟩ := node?_write recorded.writes
  have makes := createDirAll_of_locate (locate_of_dirs_stay stay enters) (stay there isDir)
  have writes : FileTree.write s'.tree (moves (g.outputPath call)) other.result.output =
      .ok (put s'.tree place (.file other.result.output)) :=
    FileTree.write_eq_ok.mpr ⟨place, locate_of_dirs_stay stay located,
      by rw [isFile]; exact nofun, rfl⟩
  rw [dirs] at makes
  rw [outputPath_of_sameFile agents same] at writes
  refine exists_recorded unhindered (same.1 ▸ recorded.parsed) ?_ (agents.symm.trans recorded.owner)
    makes writes
  rw [recorded.jobs]
  exact recorded.found

end Files

/-! ## The results of one job -/

section Job

variable {g : Scheduler} {job : CronJob} {before s : State} {calls : List Call}

/-- The result is for the job, and if it is not recorded, then not because the write of its file or
the insert of its row failed. -/
structure ForJob (g : Scheduler) (job : CronJob) (_ : State × List Call) (call : Call) : Prop where
  named : g.cronJobId call.result.jobId = some job.id
  write : call.writeFault = none
  run : call.runFault = none

def Apart (calls : List Call) : Prop :=
  ∀ call ∈ calls, ∀ other ∈ calls, SameFile call other → call.result.output = other.result.output

structure History (g : Scheduler) (job : CronJob) (before : State) (calls : List Call)
    (s : State) : Prop where
  jobs : s.jobs = before.jobs
  named : ∀ call ∈ calls, g.cronJobId call.result.jobId = some job.id ∧ call.agentId = job.agentId
  runs : s.runs = before.runs ++ calls.map fun call => (g.run call job.id).toRow
  broadcasts : s.broadcasts = before.broadcasts ++ (calls.filter Call.announces).map g.broadcast
  files : Apart calls → ∀ call ∈ calls,
    readToString s.tree (moves (g.outputPath call)) = .ok call.result.output

theorem History.files_step {call : Call} {s' : State} {made : Tree}
    (history : History g job before calls s) (recorded : Recorded g s call s' job.id job made)
    (apart : Apart (calls ++ [call])) :
    ∀ other ∈ calls ++ [call],
      readToString s'.tree (moves (g.outputPath other)) = .ok other.result.output := by
  have now := readToString_of_write recorded.writes
  intro other mem
  rcases mem_snoc.mp mem with earlier | rfl
  · obtain ⟨parsed, owner⟩ := history.named other earlier
    have agents : call.agentId = other.agentId := recorded.owner.trans owner.symm
    by_cases same : SameFile call other
    · rw [← outputPath_of_sameFile agents same, now]
      exact congrArg Except.ok
        (apart call (mem_append_right _ mem_cons_self) other mem same)
    · refine readToString_of_recorded recorded parsed agents same (history.files ?_ other earlier)
      exact fun a memA b memB => apart a (mem_append_left _ memA) b (mem_append_left _ memB)
  · exact now

theorem History.recorded {call : Call} {s' : State}
    (found : Cron.findById g.texts before.jobs job.id = .ok (some job))
    (history : History g job before calls s) (named : g.cronJobId call.result.jobId = some job.id)
    (ran : g.recordResult s call = (.ok (), s')) : History g job before (calls ++ [call]) s' := by
  obtain ⟨jobId, job', made, recorded⟩ := recordResult_ok ran
  cases recorded.parsed.symm.trans named
  obtain rfl : job' = job := by
    have same := recorded.found
    rw [history.jobs, found] at same
    exact (Option.some.inj (Except.ok.inj same)).symm
  refine ⟨recorded.jobs.trans history.jobs, fun other mem => ?_, ?_, ?_,
    history.files_step recorded⟩
  · rcases mem_snoc.mp mem with earlier | rfl
    · exact history.named other earlier
    · exact ⟨named, recorded.owner⟩
  · rw [recorded.runs, history.runs, map_append, append_assoc]
    rfl
  · rw [recorded.broadcasts, history.broadcasts, filter_append, map_append,
      append_assoc, filter_singleton]
    cases call.announces with
    | false => rfl
    | true => rfl

theorem History.refused {call : Call} {s' : State} {e : CronError}
    (history : History g job before calls s) (noWrite : call.writeFault = none)
    (noRun : call.runFault = none) (ran : g.recordResult s call = (.error e, s')) :
    History g job before calls s' := by
  obtain ⟨jobs, runs, broadcasts, tree⟩ := recordResult_error ran
  refine ⟨jobs.trans history.jobs, history.named, runs.trans history.runs,
    broadcasts.trans history.broadcasts, fun apart other mem => ?_⟩
  have read := history.files apart other mem
  rcases tree noWrite noRun with same | made
  · rw [same]
    exact read
  · exact readToString_of_createDirAll made read

theorem history_of_run {results : List Call}
    (found : Cron.findById g.texts before.jobs job.id = .ok (some job))
    (run : Run (step g) (ForJob g job) (before, []) results (s, calls)) :
    History g job before calls s := by
  have preserved : ∀ (t : State × List Call) (call : Call) (t' : State × List Call),
      History g job before t.2 t.1 → ForJob g job t call → step g t call = some t' →
        History g job before t'.2 t'.1 := by
    intro t call t' history forJob stepped
    unfold step at stepped
    split at stepped
    · rename_i ran
      cases stepped
      exact history.recorded found forJob.named ran
    · rename_i ran
      cases stepped
      exact history.refused forJob.write forJob.run ran
  have initial : History g job before [] before := by
    refine ⟨rfl, fun _ absent => ?_, (append_nil _).symm, (append_nil _).symm,
      fun _ _ absent => ?_⟩
    · exact absurd absent not_mem_nil
    · exact absurd absent not_mem_nil
  have kept := run.invariant preserved initial
  exact kept
/-- **What the delivery mode promises**, and that every row leads to its output. -/
structure Honoured (g : Scheduler) (job : CronJob) (calls : List Call) (before after : State) :
    Prop where
  quiet : job.deliver = "local" → after.broadcasts = before.broadcasts
  announced : job.deliver = "webchat" →
    after.broadcasts = before.broadcasts ++ (calls.filter Call.announces).map g.broadcast
  kept : ∃ runs, after.runs = before.runs ++ runs ∧ List.Forall₂ (fun call run =>
    readToString after.tree (moves run.outputPath) = .ok call.result.output) calls runs

def Deliverable (job : CronJob) (calls : List Call) : Prop :=
  job.deliver = "local" → ∀ call ∈ calls, call.announces = false

section

variable (history : History g job before calls s)

include history

theorem History.quiet_iff :
    s.broadcasts = before.broadcasts ↔ ∀ call ∈ calls, call.announces = false := by
  rw [history.broadcasts, append_right_eq_self, map_eq_nil_iff, filter_eq_nil_iff]
  simp

theorem History.kept_iff :
    (∃ runs, s.runs = before.runs ++ runs ∧ List.Forall₂ (fun call run =>
      readToString s.tree (moves run.outputPath) = .ok call.result.output) calls runs) ↔
      ∀ call ∈ calls, readToString s.tree (moves (g.outputPath call)) = .ok call.result.output := by
  constructor
  · rintro ⟨runs, isRuns, reads⟩
    rw [history.runs, append_cancel_left_eq] at isRuns
    rw [← isRuns, forall₂_map_right_iff, forall₂_same] at reads
    exact reads
  · intro reads
    exact ⟨_, history.runs, forall₂_map_right_iff.mpr (forall₂_same.mpr reads)⟩

theorem History.reads_iff :
    (∀ call ∈ calls, readToString s.tree (moves (g.outputPath call)) = .ok call.result.output) ↔
      Apart calls := by
  refine ⟨fun reads call mem other mem' same => ?_, history.files⟩
  have agents := (history.named call mem).2.trans (history.named other mem').2.symm
  have read := reads call mem
  rw [outputPath_of_sameFile agents same, reads other mem'] at read
  exact (Except.ok.inj read).symm

end

end Job

/-- **The recorded results of a job are honoured** exactly if a job that stays local has nothing to
show, and results that share a file do not differ. -/
theorem honoured_iff {g : Scheduler} {job : CronJob} {results recorded : List Call}
    {before after : State} (found : Cron.findById g.texts before.jobs job.id = .ok (some job))
    (run : Run (step g) (ForJob g job) (before, []) results (after, recorded)) :
    Honoured g job recorded before after ↔ Deliverable job recorded ∧ Apart recorded := by
  have history := history_of_run found run
  constructor
  · intro honoured
    exact ⟨fun isLocal => history.quiet_iff.mp (honoured.quiet isLocal),
      history.reads_iff.mp (history.kept_iff.mp honoured.kept)⟩
  · rintro ⟨deliverable, apart⟩
    exact ⟨fun isLocal => history.quiet_iff.mpr (deliverable isLocal), fun _ => history.broadcasts,
      history.kept_iff.mpr (history.reads_iff.mpr apart)⟩

section Examples

theorem fileName_toString (uuid : Uuid) : FileName uuid.toString :=
  .of_mem uuid.hyphen_mem_toString (by decide) (uuid.not_mem_toString (by decide))

def scheduler : Scheduler where
  workspaceRoot := "/srv"
  reader := .hyphenated
  fileName read := UuidReader.toString_of_hyphenated read ▸ fileName_toString _
  texts := ⟨id, id, id, CronJobId.toString⟩
  debug _ := ""

def digest (deliver : String) : CronJob where
  id := ⟨uuidOf 7⟩
  agentId := ⟨uuidOf 1⟩
  name := "digest"
  prompt := "summarise"
  schedule := .interval 86400
  nextRunAt := .startOf 2026
  wakeCheck := none
  deliver := deliver
  enabledToolsets := []
  enabled := true
  createdAt := .startOf 2026

def fresh (job : CronJob) : State where
  jobs := [job.toRow]
  tree := ⟨[], nodup_nil⟩

def console : WebChatRouter := WebChatRouter.register {} (uuidOf 3) ⟨uuidOf 1⟩ 0

def success (output : String) (seconds : ℕ) : Call where
  agentId := ⟨uuidOf 1⟩
  result := { jobId := (uuidOf 7).toString, outcome := .success, output := output, silent := false }
  now := (Instant.startOf 2026).later seconds
  webchat := console
  alive _ := true

theorem found_digest (deliver : String) : Cron.findById scheduler.texts
    (fresh (digest deliver)).jobs (digest deliver).id = .ok (some (digest deliver)) := by
  have positive : Schedule.Positive (.interval 86400) := by decide
  have year : Rfc3339.FourDigit (.startOf 2026) := by decide +kernel
  have readable : (digest deliver).Readable := ⟨year, trivial⟩
  have read := (read_toRow_iff scheduler.texts positive).mpr readable
  obtain ⟨fetched, isRow, isJob⟩ := bind_eq_ok.mp read
  have first : [(digest deliver).toRow].find? (·.id = (digest deliver).id) =
      some (digest deliver).toRow := rfl
  show Cron.findById _ [(digest deliver).toRow] _ = _
  rw [Cron.findById, first]
  show (CronJobRow.fromRow _ _ >>= fun fetched => some <$> CronJob.tryFrom _ fetched) = _
  rw [isRow]
  show some <$> CronJob.tryFrom _ fetched = _
  rw [isJob]
  rfl

def digests : List Move :=
  [.root, .down "srv".toList] ++ [.down (uuidOf 1).toString.toList] ++ [.down "cron".toList]

theorem moves_outputDir_success (output : String) (seconds : ℕ) :
    moves (scheduler.outputDir (success output seconds)) =
      digests ++ [.down (uuidOf 7).toString.toList] := by
  have agent := fileName_toString (uuidOf 1)
  have job := fileName_toString (uuidOf 7)
  have root : moves "/srv" = [.root, .down "srv".toList] := by decide +kernel
  show moves (Files.join (Files.join (Files.join "/srv" (uuidOf 1).toString) "cron")
    (uuidOf 7).toString) = _
  rw [moves_join job, moves_join ⟨by decide, by decide, by decide⟩, moves_join agent, root]
  rfl

theorem parsed_success (output : String) (seconds : ℕ) :
    scheduler.cronJobId (success output seconds).result.jobId = some ⟨uuidOf 7⟩ :=
  congrArg (Option.map CronJobId.mk) (UuidReader.hyphenated.parseStr_toString (uuidOf 7))

theorem exists_recorded_success (deliver : String) : ∃ s,
    scheduler.recordResult (fresh (digest deliver)) (success "one" 0) = (.ok (), s) := by
  have computed : ((FileTree.createDirAll ⟨[], nodup_nil⟩ []
      (digests ++ [.down (uuidOf 7).toString.toList])).bind fun made =>
        FileTree.write made (digests ++ [.down (uuidOf 7).toString.toList] ++
          [.down (Scheduler.outputName (success "one" 0).now).toList]) "one").toOption.isSome =
      true := by
    decide +kernel
  obtain ⟨tree, both⟩ := Option.isSome_iff_exists.mp computed
  obtain ⟨made, makes, writes⟩ := bind_eq_ok.mp (toOption_eq_some.mp both)
  have file := fileName_outputName (success "one" 0).now
  have path : moves (scheduler.outputPath (success "one" 0)) = _ := moves_join file
  rw [← moves_outputDir_success "one" 0] at makes
  rw [← moves_outputDir_success "one" 0, ← path] at writes
  exact exists_recorded ⟨rfl, rfl, rfl, rfl⟩ (parsed_success "one" 0) (found_digest deliver) rfl
    makes
    writes

theorem forJob_success (job : CronJob) (isJob : job.id = ⟨uuidOf 7⟩) (s : State × List Call)
    (output : String) (seconds : ℕ) : ForJob scheduler job s (success output seconds) :=
  ⟨isJob ▸ parsed_success output seconds, rfl, rfl⟩

theorem step_of_recorded {g : Scheduler} {s s' : State} {calls : List Call} {call : Call}
    (ran : g.recordResult s call = (.ok (), s')) :
    step g (s, calls) call = some (s', calls ++ [call]) := by
  rw [step, ran]

/-- A result from another agent. -/
def foreign : Call := { success "two" 0 with agentId := ⟨uuidOf 2⟩ }

theorem foreign_refused (deliver : String) :
    scheduler.recordResult (fresh (digest deliver)) foreign =
    (.error .agentMismatch, fresh (digest deliver)) := by
  have parsed : scheduler.cronJobId foreign.result.jobId = some (digest deliver).id :=
    parsed_success "two" 0
  have found : scheduler.findById (fresh (digest deliver)) foreign (digest deliver).id =
      .ok (some (digest deliver)) := found_digest deliver
  have other : (⟨uuidOf 1⟩ : AgentId) ≠ ⟨uuidOf 2⟩ := by decide +kernel
  rw [Scheduler.recordResult, parsed]
  dsimp only
  rw [found]
  dsimp only
  exact if_pos other

theorem single_honoured :
    ∃ after, Run (step scheduler) (ForJob scheduler (digest "webchat"))
        (fresh (digest "webchat"), []) [foreign, success "one" 0] (after, [success "one" 0]) ∧
      Honoured scheduler (digest "webchat") [success "one" 0] (fresh (digest "webchat")) after := by
  obtain ⟨after, ran⟩ := exists_recorded_success "webchat"
  have first : step scheduler (fresh (digest "webchat"), []) foreign =
      some (fresh (digest "webchat"), []) := by
    rw [step, foreign_refused]
  have run : Run (step scheduler) (ForJob scheduler (digest "webchat"))
      (fresh (digest "webchat"), []) [foreign, success "one" 0] (after, [success "one" 0]) :=
    .cons ⟨parsed_success "two" 0, rfl, rfl⟩ first
      (.single (forJob_success _ rfl _ _ _) (step_of_recorded ran))
  refine ⟨after, run, (honoured_iff (found_digest "webchat") run).mpr ⟨fun isLocal => ?_, ?_⟩⟩
  · exact absurd isLocal (by decide)
  · intro call mem other mem' _
    rw [mem_singleton.mp mem, mem_singleton.mp mem']

/-- **The output of a local job is shown in the open console, and an output is lost.** -/
theorem local_shown_and_output_lost :
    (∃ after, Run (step scheduler) (ForJob scheduler (digest "local"))
        (fresh (digest "local"), []) [success "one" 0] (after, [success "one" 0]) ∧
      after.broadcasts.map (·.pushes.map (·.message)) = [[.agentMessage "one"]] ∧
      ¬ Honoured scheduler (digest "local") [success "one" 0] (fresh (digest "local")) after) ∧
    ∃ after, Run (step scheduler) (ForJob scheduler (digest "webchat"))
        (fresh (digest "webchat"), []) [success "one" 0, success "two" 0]
        (after, [success "one" 0, success "two" 0]) ∧
      ¬ Honoured scheduler (digest "webchat") [success "one" 0, success "two" 0]
        (fresh (digest "webchat")) after := by
  constructor
  · obtain ⟨after, ran⟩ := exists_recorded_success "local"
    have run : Run (step scheduler) (ForJob scheduler (digest "local"))
        (fresh (digest "local"), []) [success "one" 0] (after, [success "one" 0]) :=
      .single (forJob_success _ rfl _ _ _) (step_of_recorded ran)
    have history := history_of_run (found_digest "local") run
    refine ⟨after, run, ?_, fun honoured => ?_⟩
    · rw [history.broadcasts]
      decide +kernel
    · have silent := history.quiet_iff.mp (honoured.quiet rfl) (success "one" 0) mem_cons_self
      cases silent
  · obtain ⟨middle, ran⟩ := exists_recorded_success "webchat"
    obtain ⟨_, _, _, recorded⟩ := recordResult_ok ran
    have same : SameFile (success "one" 0) (success "two" 0) := ⟨rfl, rfl, rfl⟩
    obtain ⟨after, again⟩ : ∃ after,
        scheduler.recordResult middle (success "two" 0) = (.ok (), after) :=
      exists_recorded_again recorded rfl same ⟨rfl, rfl, rfl, rfl⟩
    have run : Run (step scheduler) (ForJob scheduler (digest "webchat"))
        (fresh (digest "webchat"), []) [success "one" 0, success "two" 0]
        (after, [success "one" 0, success "two" 0]) :=
      .cons (forJob_success _ rfl _ _ _) (step_of_recorded ran)
        (.single (forJob_success _ rfl _ _ _) (step_of_recorded again))
    refine ⟨after, run, fun honoured => ?_⟩
    have history := history_of_run (found_digest "webchat") run
    have apart := history.reads_iff.mp (history.kept_iff.mp honoured.kept)
    have outputs := apart (success "one" 0) mem_cons_self (success "two" 0)
      (mem_cons_of_mem _ mem_cons_self) same
    exact absurd outputs (by decide)

end Examples

end Havn.Gateway.CronResults
