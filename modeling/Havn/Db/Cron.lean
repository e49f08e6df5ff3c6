import Mathlib.Data.Set.List
import Havn.Db.Gateway
import Havn.Lib.Decimal
import Havn.Lib.Except
import Havn.Lib.Keyed
import Havn.Lib.Rfc3339

/-!
# Cron jobs in the gateway database

`havn-db`, `repo/cron.rs`: schedules, jobs, and listing and advancing those that are due.

A row keeps its instants as RFC 3339 text.  `list_due` compares it bytewise, fetching a row decodes
it, and `Schedule::parse` decodes the instant inside the schedule.  All three agree for years of
four digits and for no others (`read_toRow_iff`, `listDue_of_readable`).
-/

namespace Havn.Db.Cron

open Havn.Core Lib Lib.Calendar Lib.Rfc3339 List

/-- Texts of the libraries: a quoted string, the parser's complaint about a timestamp, and the
driver's about a column and a primary key. -/
structure Texts where
  debug : String → String
  notRfc3339 : String → String
  columnDecode : String → String
  duplicateId : CronJobId → String

/-! ## Schedules -/

/-- When a job runs: at intervals of seconds, or once. -/
inductive Schedule
  | interval (seconds : Int64)
  | at' (instant : Instant)
deriving DecidableEq

/-- The column text of an instant (`to_rfc3339`). -/
def rfc3339 (t : Instant) : String :=
  String.ofList (toText t)

namespace Schedule

/-- The column text of a schedule. -/
def encode : Schedule → String
  | .interval seconds => "interval:" ++ toString seconds.toInt
  | .at' instant => "at:" ++ rfc3339 instant

/-- The rest of a text after a fixed beginning (`strip_prefix`). -/
def strip (beginning raw : String) : Option String :=
  (beginning.toList.isPrefixOf? raw.toList).map String.ofList

/-- The grammar of that text. -/
def parse (texts : Texts) (raw : String) : Except DbError Schedule :=
  match strip "interval:" raw with
  | some rest =>
    match parseSigned (2 ^ 63) rest with
    | none => .error (.invalidValue "cron_jobs.schedule"
        ("interval value not a number: " ++ texts.debug rest))
    | some seconds =>
      if seconds < 1 then
        .error (.invalidValue "cron_jobs.schedule" "interval must be >= 1 second")
      else .ok (.interval (Int64.ofInt seconds))
  | none =>
    match strip "at:" raw with
    | some rest =>
      match Rfc3339.parse rest.toList with
      | none => .error (.invalidValue "cron_jobs.schedule"
          ("at value not RFC3339: " ++ texts.notRfc3339 rest))
      | some instant => .ok (.at' instant)
    | none => .error (.invalidValue "cron_jobs.schedule"
        ("unknown schedule grammar " ++ texts.debug raw))

/-- The run after one at `lastFire`; a one-shot has none.  The outer `none` is a panic. -/
def advanceFrom (schedule : Schedule) (lastFire : Instant) : Option (Option Instant) :=
  match schedule with
  | .interval seconds => (lastFire.addSeconds seconds.toInt.toNat).map some
  | .at' _ => some none

/-- The schedule is an instant. -/
def isOneShot : Schedule → Bool
  | .interval _ => false
  | .at' _ => true

end Schedule

/-! ## Jobs and rows -/

/-- A job as the gateway handles it. -/
structure CronJob where
  id : CronJobId
  agentId : AgentId
  name : String
  prompt : String
  schedule : Schedule
  nextRunAt : Instant
  wakeCheck : Option String
  deliver : String
  enabledToolsets : List String
  enabled : Bool
  createdAt : Instant
deriving DecidableEq

/-- What a request says of a job. -/
structure NewCronJob where
  agentId : AgentId
  name : String
  prompt : String
  schedule : Schedule
  nextRunAt : Instant
  wakeCheck : Option String
  deliver : String
  enabledToolsets : List String

/-- The job a request asks for, with what the database adds to it. -/
def NewCronJob.job (new : NewCronJob) (id : CronJobId) (createdAt : Instant) : CronJob where
  id := id
  agentId := new.agentId
  name := new.name
  prompt := new.prompt
  schedule := new.schedule
  nextRunAt := new.nextRunAt
  wakeCheck := new.wakeCheck
  deliver := new.deliver
  enabledToolsets := new.enabledToolsets
  enabled := true
  createdAt := createdAt

/-- A row of the table `cron_jobs`. -/
structure StoredRow where
  id : CronJobId
  agentId : AgentId
  name : String
  prompt : String
  schedule : String
  nextRunAt : String
  wakeCheck : Option String
  deliver : String
  enabledToolsets : List String
  enabled : Bool
  createdAt : Instant
deriving DecidableEq

/-- The values the `INSERT` binds. -/
def CronJob.toRow (job : CronJob) : StoredRow where
  id := job.id
  agentId := job.agentId
  name := job.name
  prompt := job.prompt
  schedule := job.schedule.encode
  nextRunAt := rfc3339 job.nextRunAt
  wakeCheck := job.wakeCheck
  deliver := job.deliver
  enabledToolsets := job.enabledToolsets
  enabled := job.enabled
  createdAt := job.createdAt

/-- A row as the driver hands it over: the column `next_run_at` is decoded, the schedule is not. -/
structure CronJobRow where
  row : StoredRow
  nextRunAt : Instant

/-- The driver's decoding of a row. -/
def CronJobRow.fromRow (texts : Texts) (row : StoredRow) : Except DbError CronJobRow :=
  match Rfc3339.parse row.nextRunAt.toList with
  | none => .error (.sqlx (texts.columnDecode row.nextRunAt))
  | some nextRunAt => .ok ⟨row, nextRunAt⟩

/-- The conversion of a fetched row, which parses the schedule. -/
def CronJob.tryFrom (texts : Texts) (r : CronJobRow) : Except DbError CronJob := do
  let schedule ← Schedule.parse texts r.row.schedule
  pure {
    id := r.row.id
    agentId := r.row.agentId
    name := r.row.name
    prompt := r.row.prompt
    schedule := schedule
    nextRunAt := r.nextRunAt
    wakeCheck := r.row.wakeCheck
    deliver := r.row.deliver
    enabledToolsets := r.row.enabledToolsets
    enabled := r.row.enabled
    createdAt := r.row.createdAt
  }

/-! ## The table -/

/-- The table, in insertion order. -/
abbrev Table := List StoredRow

/-- The `INSERT`, which fails on a primary key that is taken and where the database itself fails. -/
def insert (texts : Texts) (table : Table) (fault : Option DbError) (job : CronJob) :
    Except DbError Table :=
  match fault with
  | some e => .error e
  | none =>
    if table.any (·.id = job.id) then .error (.sqlx (texts.duplicateId job.id))
    else .ok (table ++ [job.toRow])

variable {table table' : Table} {job : CronJob} {texts : Texts} {fault : Option DbError}
  {id : CronJobId}

theorem of_insert_eq_ok
    (inserted : insert texts table fault job = .ok table') :
    table' = table ++ [job.toRow] ∧ job.toRow.id ∉ table.map StoredRow.id := by
  unfold insert at inserted
  split at inserted
  · cases inserted
  split at inserted
  · cases inserted
  rename_i free
  cases inserted
  refine ⟨rfl, fun taken => ?_⟩
  obtain ⟨row, mem, same⟩ := mem_map.mp taken
  exact free (any_eq_true.mpr ⟨row, mem, decide_eq_true same⟩)

/-- Read a job by its id. -/
def findById (texts : Texts) (table : Table) (id : CronJobId) : Except DbError (Option CronJob) :=
  match table.find? (·.id = id) with
  | none => .ok none
  | some row => do
      let fetched ← CronJobRow.fromRow texts row
      some <$> CronJob.tryFrom texts fetched

/-- Insert the job and read it back. The row stays where reading it fails. -/
def create (texts : Texts) (table : Table) (fault : Option DbError) (job : CronJob) :
    Except DbError CronJob × Table :=
  match insert texts table fault job with
  | .error e => (.error e, table)
  | .ok table =>
    (match findById texts table job.id with
      | .error e => .error e
      | .ok none => .error .notFound
      | .ok (some job) => .ok job, table)

/-- The rows `list_due` selects. -/
def dueRows (table : Table) (now : Instant) (limit : ℕ) : List StoredRow :=
  ((table.filter fun row => row.enabled ∧ row.nextRunAt ≤ rfc3339 now).insertionSort
    fun a b => a.nextRunAt ≤ b.nextRunAt).take limit

/-- The enabled jobs that are due, earliest first.  One row that does not convert fails the whole
call. -/
def listDue (texts : Texts) (table : Table) (now : Instant) (limit : ℕ) :
    Except DbError (List CronJob) := do
  let rows ← (dueRows table now limit).mapM (CronJobRow.fromRow texts)
  rows.mapM (CronJob.tryFrom texts)

/-- `UPDATE cron_jobs SET … WHERE id = …`. -/
def update (table : Table) (id : CronJobId) (set : StoredRow → StoredRow) : Table :=
  table.map fun row => if row.id = id then set row else row

/-- After a run: the next due instant of an interval, the end of a one-shot.  The outer `none` is a
panic. -/
def advanceAfterRun (table : Table) (fault : Option DbError) (id : CronJobId)
    (schedule : Schedule) (lastFire : Instant) : Option (Except DbError Table) :=
  (schedule.advanceFrom lastFire).map fun next =>
    match fault, next with
    | some e, _ => .error e
    | none, some next => .ok (update table id ({ · with nextRunAt := rfc3339 next }))
    | none, none => .ok (update table id ({ · with enabled := false }))

/-- Switch a job on or off. -/
def setEnabled (table : Table) (id : CronJobId) (enabled : Bool) : Except DbError Table :=
  if table.any (·.id = id) then .ok (update table id ({ · with enabled := enabled }))
  else .error .notFound

/-- Delete a job. -/
def delete (table : Table) (id : CronJobId) : Except DbError Table :=
  if table.any (·.id = id) then .ok (table.filter (·.id ≠ id)) else .error .notFound

theorem eq_update_of_setEnabled {enabled : Bool} (set : setEnabled table id enabled = .ok table') :
    table' = update table id ({ · with enabled := enabled }) := by
  unfold setEnabled at set
  split at set
  · cases set
    rfl
  · cases set

/-! ## Reading a schedule back -/

namespace Schedule

/-- The interval is one the grammar accepts; nothing is asked of a one-shot. -/
def Positive : Schedule → Prop
  | .interval seconds => 1 ≤ seconds.toInt
  | .at' _ => True

/-- The instant of a one-shot has a year of four digits; nothing is asked of an interval. -/
def Dated : Schedule → Prop
  | .interval _ => True
  | .at' instant => FourDigit instant

instance (s : Schedule) : Decidable s.Positive := by
  unfold Schedule.Positive
  split <;> infer_instance

instance (s : Schedule) : Decidable s.Dated := by
  unfold Schedule.Dated
  split <;> infer_instance

variable {schedule : Schedule}

theorem lt_of_advanceFrom {lastFire next : Instant}
    (positive : schedule.Positive) (advanced : schedule.advanceFrom lastFire = some (some next)) :
    schedule.isOneShot = false ∧ lastFire < next := by
  cases schedule with
  | interval seconds =>
    obtain ⟨sum, added, ⟨⟩⟩ := Option.map_eq_some_iff.mp advanced
    unfold Instant.addSeconds at added
    split at added
    · cases added
      have : 1 ≤ seconds.toInt := positive
      exact ⟨rfl, lastFire.lt_later (by omega)⟩
    · cases added
  | at' => cases advanced

theorem isOneShot_of_advanceFrom {lastFire : Instant}
    (ended : schedule.advanceFrom lastFire = some none) : schedule.isOneShot = true := by
  cases schedule with
  | interval => simp [advanceFrom] at ended
  | at' => rfl

theorem strip_append (beginning rest : String) :
    strip beginning (beginning ++ rest) = some rest := by
  have stripped : beginning.toList.isPrefixOf? (beginning ++ rest).toList = some rest.toList := by
    rw [isPrefixOf?_eq_some_iff_append_eq, String.toList_append]
  rw [strip, stripped, Option.map_some, String.ofList_toList]

theorem strip_interval_at (rest : String) : strip "interval:" ("at:" ++ rest) = none := by
  rw [strip, String.toList_append]
  rfl

theorem parse_encode_at (texts : Texts) (instant : Instant) :
    parse texts (encode (.at' instant)) =
      match Rfc3339.parse (toText instant) with
      | none => .error (.invalidValue "cron_jobs.schedule"
          ("at value not RFC3339: " ++ texts.notRfc3339 (rfc3339 instant)))
      | some instant => .ok (.at' instant) := by
  simp only [parse, encode, strip_interval_at, strip_append]
  rw [rfc3339, String.toList_ofList]

theorem parse_encode_interval (texts : Texts) {seconds : Int64} (positive : 1 ≤ seconds.toInt) :
    parse texts (encode (.interval seconds)) = .ok (.interval seconds) := by
  have bound := seconds.toInt_lt
  obtain ⟨n, value⟩ := Int.eq_ofNat_of_zero_le (by omega : 0 ≤ seconds.toInt)
  have small : n < 2 ^ 63 := by omega
  have printed : toString seconds.toInt = n.repr := by
    rw [value]
    rfl
  simp only [parse, encode, strip_append, printed, parseSigned_repr small]
  rw [if_neg (by omega), ← value, Int64.ofInt_toInt]

theorem positive_of_parse {raw : String}
    (parsed : parse texts raw = .ok schedule) : schedule.Positive := by
  unfold parse at parsed
  split at parsed
  · split at parsed
    · cases parsed
    rename_i seconds read
    split at parsed
    · cases parsed
    cases parsed
    have below := lt_of_parseSigned read (by decide)
    show 1 ≤ (Int64.ofInt seconds).toInt
    rw [Int64.toInt_ofInt_of_le (by omega) (by omega)]
    omega
  · split at parsed
    · split at parsed
      · cases parsed
      · cases parsed
        trivial
    · cases parsed

/-- **A schedule reads back exactly when its instant has a four-digit year.** -/
theorem parse_encode_iff (texts : Texts) {s : Schedule} (positive : s.Positive) :
    parse texts s.encode = .ok s ↔ s.Dated := by
  cases s with
  | interval => exact iff_of_true (parse_encode_interval texts positive) trivial
  | at' instant =>
    rw [parse_encode_at]
    by_cases year : FourDigit instant
    · rw [parse_toText year]
      exact iff_of_true rfl year
    · rw [parse_toText_eq_none year]
      exact iff_of_false nofun year

end Schedule

/-! ## Reading a row back -/

/-- Both instants of the job have a year of four digits. -/
def CronJob.Readable (job : CronJob) : Prop :=
  FourDigit job.nextRunAt ∧ job.schedule.Dated
  deriving Decidable

/-- Fetching and converting one row. -/
def StoredRow.read (texts : Texts) (row : StoredRow) : Except DbError CronJob :=
  CronJobRow.fromRow texts row >>= CronJob.tryFrom texts

theorem fromRow_toRow (texts : Texts) (year : FourDigit job.nextRunAt) :
    CronJobRow.fromRow texts job.toRow = .ok ⟨job.toRow, job.nextRunAt⟩ := by
  simp only [CronJobRow.fromRow, CronJob.toRow, rfc3339, String.toList_ofList, parse_toText year]

theorem fromRow_toRow_error (texts : Texts) (year : ¬ FourDigit job.nextRunAt) :
    CronJobRow.fromRow texts job.toRow =
      .error (.sqlx (texts.columnDecode (rfc3339 job.nextRunAt))) := by
  simp only [CronJobRow.fromRow, CronJob.toRow, rfc3339, String.toList_ofList,
    parse_toText_eq_none year]

theorem tryFrom_toRow_iff (texts : Texts) (job : CronJob) :
    CronJob.tryFrom texts ⟨job.toRow, job.nextRunAt⟩ = .ok job ↔
      Schedule.parse texts job.schedule.encode = .ok job.schedule := by
  rw [CronJob.tryFrom, bind_eq_ok]
  constructor
  · rintro ⟨schedule, parsed, whole⟩
    have same : schedule = job.schedule := congrArg CronJob.schedule (Except.ok.inj whole)
    rw [same] at parsed
    exact parsed
  · intro parsed
    exact ⟨job.schedule, parsed, rfl⟩

/-- **A stored job reads back exactly when both of its instants have four-digit
years.** -/
theorem read_toRow_iff (texts : Texts) (positive : job.schedule.Positive) :
    job.toRow.read texts = .ok job ↔ job.Readable := by
  by_cases year : FourDigit job.nextRunAt
  · have fetched : job.toRow.read texts = CronJob.tryFrom texts ⟨job.toRow, job.nextRunAt⟩ := by
      rw [StoredRow.read, fromRow_toRow texts year]
      rfl
    rw [fetched, tryFrom_toRow_iff, Schedule.parse_encode_iff texts positive]
    exact (and_iff_right year).symm
  · have failed : job.toRow.read texts =
        .error (.sqlx (texts.columnDecode (rfc3339 job.nextRunAt))) := by
      rw [StoredRow.read, fromRow_toRow_error texts year]
      rfl
    rw [failed]
    exact iff_of_false nofun fun readable => year readable.1

theorem findById_eq_some_iff (texts : Texts)
    (unique : (table.map StoredRow.id).Nodup) (stored : job.toRow ∈ table) :
    findById texts table job.id = .ok (some job) ↔ job.toRow.read texts = .ok job := by
  have found : table.find? (·.id = job.id) = some job.toRow :=
    find?_eq_some_of_unique unique stored (decide_eq_true rfl)
      fun _ selected => of_decide_eq_true selected
  simp only [findById, found, StoredRow.read]
  cases CronJobRow.fromRow texts job.toRow with
  | error => exact iff_of_false nofun nofun
  | ok fetched =>
    change (CronJob.tryFrom texts fetched).map some = .ok (some job) ↔
      CronJob.tryFrom texts fetched = .ok job
    rw [map_eq_ok]
    simp

/-! ## Listing the due jobs -/

variable {limit : ℕ} {now : Instant} (jobs : List CronJob)

theorem mem_of_mem_dueRows {row : StoredRow} (due : row ∈ dueRows table now limit) :
    row ∈ table ∧ row.enabled = true ∧ row.nextRunAt ≤ rfc3339 now := by
  have sorted := mem_of_mem_take due
  rw [mem_insertionSort, mem_filter] at sorted
  obtain ⟨mem, selected⟩ := sorted
  exact ⟨mem, of_decide_eq_true selected⟩

theorem le_of_rfc3339_le {t now : Instant} (year : FourDigit t)
    (due : rfc3339 t ≤ rfc3339 now) : t ≤ now := by
  rw [rfc3339, rfc3339, String.le_iff_toList_le, String.toList_ofList,
    String.toList_ofList] at due
  by_contra later
  refine absurd ?_ (not_lt.mpr due)
  by_cases year' : FourDigit now
  · exact toText_lt_toText year' year (not_le.mp later)
  · exact toText_lt_of_not_fourDigit year' year

theorem eq_of_read_toRow (texts : Texts) {job read : CronJob} (positive : job.schedule.Positive)
    (found : job.toRow.read texts = .ok read) : read = job := by
  by_cases readable : job.Readable
  · rw [(read_toRow_iff texts positive).mpr readable] at found
    exact (Except.ok.inj found).symm
  · obtain ⟨fetched, fetch, convert⟩ := bind_eq_ok.mp found
    by_cases year : FourDigit job.nextRunAt
    · rw [fromRow_toRow texts year] at fetch
      cases fetch
      obtain ⟨schedule, parsed, -⟩ := bind_eq_ok.mp convert
      cases unreadable : job.schedule with
      | interval =>
        refine absurd ⟨year, ?_⟩ readable
        rw [unreadable]
        exact trivial
      | at' instant =>
        have outside : ¬ FourDigit instant := fun fits =>
          readable ⟨year, by rw [unreadable]; exact fits⟩
        simp only [CronJob.toRow, unreadable, Schedule.parse_encode_at,
          parse_toText_eq_none outside] at parsed
        cases parsed
    · rw [fromRow_toRow_error texts year] at fetch
      cases fetch

theorem forall₂_of_listDue {due : List CronJob} (listed : listDue texts table now limit = .ok due) :
    List.Forall₂ (fun row job => row.read texts = .ok job) (dueRows table now limit) due := by
  obtain ⟨rows, fetched, converted⟩ := bind_eq_ok.mp listed
  have fetches := forall₂_of_mapM_eq_ok fetched
  have converts := forall₂_of_mapM_eq_ok converted
  clear fetched converted listed
  generalize dueRows table now limit = selected at fetches ⊢
  induction fetches generalizing due with
  | nil =>
    cases converts
    exact .nil
  | cons fetch _ ih =>
    cases converts with
    | cons convert converts => exact .cons (bind_eq_ok.mpr ⟨_, fetch, convert⟩) (ih converts)

theorem dueRows_map (now : Instant) (limit : ℕ) :
    dueRows (jobs.map CronJob.toRow) now limit =
      (((jobs.filter fun job => job.enabled ∧ rfc3339 job.nextRunAt ≤ rfc3339 now).insertionSort
        fun a b => rfc3339 a.nextRunAt ≤ rfc3339 b.nextRunAt).take limit).map CronJob.toRow := by
  rw [dueRows, filter_map, map_take]
  refine congrArg (List.take limit) (map_insertionSort _ _ _ _ ?_).symm
  exact fun _ _ _ _ => Iff.rfl

theorem listDue_map (texts : Texts) {jobs due : List CronJob}
    (selected : dueRows (jobs.map CronJob.toRow) now limit = due.map CronJob.toRow)
    (years : ∀ job ∈ due, FourDigit job.nextRunAt) :
    listDue texts (jobs.map CronJob.toRow) now limit = .ok due ↔
      ∀ job ∈ due, Schedule.parse texts job.schedule.encode = .ok job.schedule := by
  have fetched : (due.map CronJob.toRow).mapM (CronJobRow.fromRow texts) =
      .ok (due.map fun job => ⟨job.toRow, job.nextRunAt⟩) :=
    mapM_map_eq_ok fun job mem => fromRow_toRow texts (years job mem)
  have listed : listDue texts (jobs.map CronJob.toRow) now limit =
      (due.map fun job => ⟨job.toRow, job.nextRunAt⟩).mapM (CronJob.tryFrom texts) := by
    rw [listDue, selected, fetched]
    rfl
  simp only [← tryFrom_toRow_iff, listed]
  constructor
  · intro converted
    have pairs := forall₂_of_mapM_eq_ok converted
    rw [forall₂_map_left_iff, forall₂_same] at pairs
    exact pairs
  · intro each
    rw [mapM_map_eq_ok each, map_id']

/-- **A table of readable jobs lists its due jobs, and only those.** -/
theorem listDue_of_readable (texts : Texts) (now : Instant) (limit : ℕ)
    (readable : ∀ row ∈ table, ∃ job : CronJob,
      row = job.toRow ∧ job.schedule.Positive ∧ job.Readable) :
    ∃ due, listDue texts table now limit = .ok due ∧ ∀ job ∈ due, job.nextRunAt ≤ now := by
  obtain ⟨jobs, rfl⟩ : ∃ jobs : List { job : CronJob // job.schedule.Positive ∧ job.Readable },
      jobs.map (CronJob.toRow ∘ Subtype.val) = table := by
    rw [← Set.mem_range, Set.range_list_map]
    intro row mem
    obtain ⟨job, rfl, fits⟩ := readable row mem
    exact ⟨⟨job, fits⟩, rfl⟩
  rw [← map_map]
  have selected := dueRows_map (jobs.map Subtype.val) now limit
  have stored : ∀ job ∈ jobs.map Subtype.val, job.schedule.Positive ∧ job.Readable :=
    forall_mem_map.mpr fun job _ => job.2
  have taken : ∀ job ∈ (((jobs.map Subtype.val).filter fun job => job.enabled ∧
      rfc3339 job.nextRunAt ≤ rfc3339 now).insertionSort fun a b =>
        rfc3339 a.nextRunAt ≤ rfc3339 b.nextRunAt).take limit,
      (job.schedule.Positive ∧ job.Readable) ∧ rfc3339 job.nextRunAt ≤ rfc3339 now := by
    intro job mem
    have due := mem_filter.mp ((mem_insertionSort _).mp (mem_of_mem_take mem))
    exact ⟨stored job due.1, (of_decide_eq_true due.2).2⟩
  refine ⟨_, (listDue_map texts selected fun job mem => (taken job mem).1.2.1).mpr ?_, ?_⟩
  · intro job mem
    obtain ⟨⟨positive, -, dated⟩, -⟩ := taken job mem
    exact (Schedule.parse_encode_iff texts positive).mpr dated
  · intro job mem
    obtain ⟨⟨-, year, -⟩, due⟩ := taken job mem
    exact le_of_rfc3339_le year due

/-- **One job of a year that does not fit fails every listing**: its text sorts first and does not
decode. -/
theorem listDue_blocked (texts : Texts)
    (written : ∀ row ∈ table, ∃ job : CronJob, row = job.toRow) (stored : job.toRow ∈ table)
    (enabled : job.enabled = true) (year : ¬ FourDigit job.nextRunAt) (thisYear : FourDigit now)
    (positive : 0 < limit) : ∃ e, listDue texts table now limit = .error e := by
  have before : ∀ {t : Instant}, FourDigit t → job.toRow.nextRunAt < rfc3339 t := by
    intro t fits
    rw [CronJob.toRow, rfc3339, rfc3339, String.lt_iff_toList_lt, String.toList_ofList,
      String.toList_ofList]
    exact toText_lt_of_not_fourDigit year fits
  have selected : job.toRow ∈ table.filter fun row =>
      row.enabled ∧ row.nextRunAt ≤ rfc3339 now :=
    mem_filter.mpr ⟨stored, decide_eq_true ⟨enabled, (before thisYear).le⟩⟩
  obtain ⟨first, rows, order, inTable, earliest⟩ := exists_first StoredRow.nextRunAt selected
  obtain ⟨head, rfl⟩ := written first (mem_filter.mp inTable).1
  -- the first row is no later than the job's, so its year does not fit either
  have headYear : ¬ FourDigit head.nextRunAt := fun fits => (before fits).not_ge earliest
  obtain ⟨n, rfl⟩ := Nat.exists_eq_add_of_lt positive
  rw [listDue, dueRows, order, Nat.zero_add, take_succ_cons, mapM_cons,
    fromRow_toRow_error texts headYear]
  exact ⟨_, rfl⟩

/-! ## The jobs a table stores -/

/-- The table is the list of jobs, row by row, under distinct ids and with positive intervals. -/
structure Stores (table : Table) (jobs : List CronJob) : Prop where
  rows : table = jobs.map CronJob.toRow
  unique : (jobs.map CronJob.id).Nodup
  positive : ∀ job ∈ jobs, job.schedule.Positive

/-- Change the job with the given id. -/
def change (id : CronJobId) (f : CronJob → CronJob) : List CronJob :=
  jobs.map fun job => if job.id = id then f job else job

theorem mem_change {jobs : List CronJob} {f : CronJob → CronJob} (mem : job ∈ change jobs id f) :
    ∃ old ∈ jobs, (old.id = id ∧ job = f old) ∨ (old.id ≠ id ∧ job = old) := by
  obtain ⟨old, inJobs, rfl⟩ := mem_map.mp mem
  refine ⟨old, inJobs, ?_⟩
  split
  · exact .inl ⟨‹_›, rfl⟩
  · exact .inr ⟨‹_›, rfl⟩

theorem change_self (id : CronJobId) : change jobs id (fun job => job) = jobs := by
  simp [change]

namespace Stores

variable {table : Table} {jobs : List CronJob}

theorem empty : Stores [] [] :=
  ⟨rfl, nodup_nil, forall_mem_nil _⟩

section

variable (stores : Stores table jobs)

include stores

theorem update (id : CronJobId) {set : StoredRow → StoredRow}
    {f : CronJob → CronJob} (sameRow : ∀ job, set job.toRow = (f job).toRow)
    (sameId : ∀ job, (f job).id = job.id) (sameSchedule : ∀ job, (f job).schedule = job.schedule) :
    Stores (Cron.update table id set) (change jobs id f) where
  rows := by
    rw [Cron.update, change, stores.rows, map_map, map_map]
    refine map_congr_left fun job _ => ?_
    show (if job.id = id then set job.toRow else job.toRow) =
      CronJob.toRow (if job.id = id then f job else job)
    split
    · exact sameRow job
    · rfl
  unique := by
    have ids : (change jobs id f).map CronJob.id = jobs.map CronJob.id := by
      rw [change, map_map]
      refine map_congr_left fun job _ => ?_
      show CronJob.id (if job.id = id then f job else job) = job.id
      split
      · exact sameId job
      · rfl
    rw [ids]
    exact stores.unique
  positive := by
    intro job mem
    obtain ⟨old, inJobs, ⟨-, rfl⟩ | ⟨-, rfl⟩⟩ := mem_change mem
    · rw [sameSchedule]
      exact stores.positive old inJobs
    · exact stores.positive _ inJobs

theorem insert
    (positive : job.schedule.Positive) (inserted : Cron.insert texts table fault job = .ok table') :
    Stores table' (jobs ++ [job]) := by
  obtain ⟨rfl, free⟩ := of_insert_eq_ok inserted
  refine ⟨?_, ?_, ?_⟩
  · rw [stores.rows, map_append]
    rfl
  · rw [stores.rows, map_map] at free
    rw [map_append, map_singleton]
    exact stores.unique.append (nodup_singleton _) (disjoint_singleton.mpr free)
  · exact forall_mem_append.mpr ⟨stores.positive, forall_mem_singleton.mpr positive⟩

theorem delete (deleted : Cron.delete table id = .ok table') :
    Stores table' (jobs.filter (·.id ≠ id)) := by
  unfold Cron.delete at deleted
  split at deleted
  · cases deleted
    refine ⟨?_, ?_, fun job mem => stores.positive job (mem_of_mem_filter mem)⟩
    · rw [stores.rows, filter_map]
      rfl
    · exact stores.unique.sublist (filter_sublist.map _)
  · cases deleted

/-- **What a listing returns**: stored jobs that are enabled and due, each at most
once. -/
theorem of_listDue {due : List CronJob} (listed : listDue texts table now limit = .ok due) :
    (due.map CronJob.id).Nodup ∧
      ∀ job ∈ due, job ∈ jobs ∧ job.enabled = true ∧ job.nextRunAt ≤ now := by
  have pairs := forall₂_of_listDue listed
  -- a selected row is a stored job's, and reads as that job
  have reads : ∀ row ∈ dueRows table now limit, ∀ job, row.read texts = .ok job →
      job ∈ jobs ∧ row = job.toRow := by
    intro row mem job read
    obtain ⟨inTable, -, -⟩ := mem_of_mem_dueRows mem
    rw [stores.rows] at inTable
    obtain ⟨stored, inJobs, rfl⟩ := mem_map.mp inTable
    obtain rfl := eq_of_read_toRow texts (stores.positive stored inJobs) read
    exact ⟨inJobs, rfl⟩
  constructor
  · have ids : due.map CronJob.id = (dueRows table now limit).map StoredRow.id := by
      clear listed
      generalize dueRows table now limit = selected at pairs reads
      induction pairs with
      | nil => rfl
      | cons read _ ih =>
        obtain ⟨-, rfl⟩ := reads _ mem_cons_self _ read
        rw [map_cons, map_cons, ih fun row mem => reads row (mem_cons_of_mem _ mem)]
        rfl
    have unique : (table.map StoredRow.id).Nodup := by
      rw [stores.rows, map_map]
      exact stores.unique
    rw [ids]
    have sorted := (perm_insertionSort (fun a b : StoredRow => a.nextRunAt ≤ b.nextRunAt)
      (table.filter fun row => row.enabled ∧ row.nextRunAt ≤ rfc3339 now)).map StoredRow.id
    refine List.Nodup.sublist ((take_sublist _ _).map _) (sorted.nodup_iff.mpr ?_)
    exact unique.sublist (filter_sublist.map _)
  · intro job mem
    obtain ⟨row, inRows, read⟩ := exists_of_mem_forall₂ pairs mem
    obtain ⟨inJobs, rfl⟩ := reads row inRows job read
    obtain ⟨-, enabled, isDue⟩ := mem_of_mem_dueRows inRows
    refine ⟨inJobs, enabled, le_of_rfc3339_le ?_ isDue⟩
    exact ((read_toRow_iff texts (stores.positive job inJobs)).mp read).1

end

end Stores

end Havn.Db.Cron
