import Mathlib.Data.List.Perm.Subperm
import Mathlib.Data.List.TakeWhile
import Havn.Db.Memory

/-!
# The audit chain of a key

A row that replaces another links to it.  How complete the chain of a key is depends on how each of
the three archive paths leaves the key column, where the next `remember` looks for a predecessor:

* superseding links at once and renames the old row;
* aging leaves the row under its key, and the next `remember` links to it and renames it;
* forgetting renames the row, so the next `remember` starts a chain of its own.

So the chain is complete back to the last time a row of the key was forgotten
(`auditChain_since_forget`).  This needs keys without `@`, with which the store's marks begin, and a
clock that moves between calls.  The proof follows the rows archived since then; each call does
nothing to them (`frame`), puts the active row in front (`archived`), or empties the list
(`forgotten`).
-/

namespace Havn.Db.Memory

open Lib List

/-! ## Histories with a clock -/

structure Dated where
  table : Table := []
  clock : ℕ := 0
  deriving DecidableEq

def Op.finish (clock : ℕ) : Op → ℕ
  | .remember _ _ now => now.insert
  | .forget _ now | .ageExpired now | .search _ _ _ now => now
  | .setEmbedding _ _ | .setEmbeddingById _ _ => clock

def datedStep (strftime : ℕ → String) (s : Dated) (op : Op) : Option Dated :=
  (step strftime s.table op).map fun t => ⟨t, op.finish s.clock⟩

def Unmarked (key : String) : Prop := '@' ∉ key.toList
  deriving Decidable

/-- Calls with keys that contain no mark, each later than everything before it. -/
def Plain (s : Dated) : Op → Prop
  | .remember new _ now =>
    Unmarked new.key ∧ s.clock < now.archive ∧ now.archive ≤ now.suffix ∧
      now.suffix ≤ now.insert
  | .forget key now => Unmarked key ∧ s.clock < now
  | .ageExpired now => s.clock < now
  | _ => False

instance (s : Dated) (op : Op) : Decidable (Plain s op) := by
  unfold Plain
  split <;> infer_instance

/-! ## The chain -/

def auditChain (t : Table) : ℕ → Option String → List Entry
  | 0, _ => []
  | _, none => []
  | fuel + 1, some id =>
    match t.find? (·.id = id) with
    | none => []
    | some row => row :: auditChain t fuel row.supersedesId

inductive Chain (t : Table) : Option String → List Entry → Prop
  | nil : Chain t none []
  | cons {row : Entry} {rows : List Entry} (mem : row ∈ t)
      (rest : Chain t row.supersedesId rows) : Chain t (some row.id) (row :: rows)

def archiveTime (row : Entry) : ℕ := row.archivedAt.getD 0

variable {added : List Entry}

theorem mem_updated {t : Table} {g : Entry → Entry} {row' : Entry} :
    row' ∈ t.map g ++ added ↔ (∃ row ∈ t, g row = row') ∨ row' ∈ added := by
  rw [mem_append, mem_map]

theorem archiveTime_congr {row row' : Entry} (same : row'.archivedAt = row.archivedAt) :
    archiveTime row' = archiveTime row :=
  congrArg (·.getD 0) same

section Chains

variable {t : Table} {start : Option String} {rows : List Entry}

theorem Chain.auditChain_eq (wf : WellFormed t) (chain : Chain t start rows) :
    ∀ {fuel : ℕ}, rows.length ≤ fuel → auditChain t fuel start = rows := by
  induction chain with
  | nil =>
    intro fuel _
    cases fuel <;> rfl
  | @cons row rows mem rest ih =>
    intro fuel enough
    cases fuel with
    | zero => simp at enough
    | succ fuel =>
      have found : t.find? (·.id = row.id) = some row :=
        find?_eq_some_of_unique wf.nodupIds mem (by simp) fun _ => of_decide_eq_true
      rw [length_cons, Nat.succ_le_succ_iff] at enough
      simp only [auditChain, found, ih enough]

theorem Chain.map {g : Entry → Entry}
    (keeps : ∀ row ∈ t, (g row).id = row.id ∧ (g row).supersedesId = row.supersedesId)
    (chain : Chain t start rows) : Chain (t.map g ++ added) start (rows.map g) := by
  induction chain with
  | nil => exact .nil
  | @cons row rows mem rest ih =>
    obtain ⟨sameId, sameLink⟩ := keeps row mem
    rw [← sameId]
    exact .cons (mem_append_left _ (mem_map_of_mem mem)) (sameLink ▸ ih)

end Chains

/-! ## Stems: the key a row was inserted under -/

def stem (key : String) : List Char := key.toList.takeWhile (· ≠ '@')

variable {key : String}

theorem stem_of_unmarked (unmarked : Unmarked key) : stem key = key.toList := by
  refine takeWhile_eq_self_iff.mpr fun c mem => ?_
  simpa using ne_of_mem_of_not_mem mem unmarked

theorem stem_append_mark (key mark stamp : String) (isMark : mark.toList.head? = some '@') :
    stem (key ++ mark ++ stamp) = stem key := by
  obtain ⟨rest, shape⟩ := head?_eq_some_iff.mp isMark
  rw [stem, stem, String.toList_append, String.toList_append, shape]
  induction key.toList with
  | nil => simp
  | cons c cs ih =>
    by_cases isAt : c = '@'
    · simp [isAt]
    · simpa [isAt] using ih

theorem not_unmarked_append_mark (key mark stamp : String)
    (isMark : mark.toList.head? = some '@') : ¬ Unmarked (key ++ mark ++ stamp) := by
  have mem : '@' ∈ mark.toList := mem_of_mem_head? isMark
  simp [Unmarked, String.toList_append, mem]

/-! ## What a call does to a key -/

variable (ops : List Op)

def ForgottenIn (key : String) (row : Entry) : Prop :=
  ∃ now, Op.forget key now ∈ ops ∧ row.archivedAt = some now

/-- An archived row of `key` that is later than every forgotten row of `key`. -/
structure Recent (t : Table) (key : String) (row : Entry) : Prop where
  mem : row ∈ t
  stem : stem row.key = key.toList
  archived : ¬ row.Active
  later : ∀ row' ∈ t, Memory.stem row'.key = key.toList → ForgottenIn ops key row' →
    archiveTime row' < archiveTime row

structure Lists (t : Table) (key : String) (rows : List Entry) : Prop where
  sorted : rows.Pairwise fun row row' => archiveTime row' < archiveTime row
  complete : ∀ row, row ∈ rows ↔ Recent ops t key row

inductive Head (t : Table) (key : String) : Option String → Prop
  | active {row : Entry} (mem : row ∈ t) (isKey : row.key = key) (active : row.Active) :
      Head t key row.supersedesId
  | archived {row : Entry} (mem : row ∈ t) (isKey : row.key = key) (archived : ¬ row.Active) :
      Head t key (some row.id)
  | absent (free : ∀ row ∈ t, row.key ≠ key) : Head t key none

def ChainListed (t : Table) (key : String) : Prop :=
  ∃ start rows, Head t key start ∧ Chain t start rows ∧ Lists ops t key rows

/-- What calls have in common: each row `row` becomes `g row`, and the rows in `added` are
inserted. -/
structure Shape (clock finish : ℕ) (t : Table) (g : Entry → Entry) (added : List Entry) :
    Prop where
  id : ∀ row ∈ t, (g row).id = row.id
  link : ∀ row ∈ t, (g row).supersedesId = row.supersedesId
  stem : ∀ row ∈ t, Memory.stem (g row).key = Memory.stem row.key
  active : ∀ row ∈ t, (g row).Active → row.Active ∧ (g row).key = row.key
  stamped : ∀ row ∈ t, ∀ now, (g row).archivedAt = some now →
    row.archivedAt = some now ∨ clock < now ∧ now ≤ finish
  added : ∀ row ∈ added, row.Active ∧ Unmarked row.key

inductive KeyStep (clock : ℕ) (op : Op) (key : String) (t : Table) (g : Entry → Entry)
    (added : List Entry) : Prop
  | frame (same : ∀ row ∈ t, stem row.key = key.toList → (g row).archivedAt = row.archivedAt)
      (head : ∀ start, Head t key start → Head (t.map g ++ added) key start)
  | archived (row : Entry) (mem : row ∈ t) (isKey : row.key = key) (active : row.Active) (now : ℕ)
      (later : clock < now) (set : (g row).archivedAt = some now)
      (others : ∀ row' ∈ t, row' ≠ row → stem row'.key = key.toList →
        (g row').archivedAt = row'.archivedAt)
      (notForget : ∀ now, op ≠ .forget key now)
      (head : Head (t.map g ++ added) key (some row.id))
  | forgotten (row : Entry) (mem : row ∈ t) (isKey : row.key = key) (now : ℕ)
      (later : clock < now) (set : (g row).archivedAt = some now)
      (others : ∀ row' ∈ t, row' ≠ row → stem row'.key = key.toList →
        (g row').archivedAt = row'.archivedAt)
      (isForget : op = .forget key now) (head : Head (t.map g ++ added) key none)

structure Chained (s : Dated) : Prop where
  wf : WellFormed s.table
  unmarked : ∀ row ∈ s.table, row.Active → Unmarked row.key
  dated : ∀ row ∈ s.table, ∀ now, row.archivedAt = some now → now ≤ s.clock
  forgets : ∀ key now, Op.forget key now ∈ ops → now ≤ s.clock
  chains : ∀ key, Unmarked key → ChainListed ops s.table key

section Heads

variable {t : Table} {key : String} {start : Option String} {row : Entry}

theorem Head.eq_of_key (wf : WellFormed t) (head : Head t key start) (mem : row ∈ t)
    (isKey : row.key = key) : start = if row.Active then row.supersedesId else some row.id := by
  have same : ∀ {row'}, row' ∈ t → row'.key = key → row' = row := fun mem' isKey' =>
    inj_on_of_nodup_map wf.nodupKeys mem' mem (isKey'.trans isKey.symm)
  cases head with
  | active mem' isKey' active =>
    obtain rfl := same mem' isKey'
    rw [if_pos active]
  | archived mem' isKey' archived =>
    obtain rfl := same mem' isKey'
    rw [if_neg archived]
  | absent free => exact absurd isKey (free row mem)

theorem Head.frame {g : Entry → Entry} (keeps : ∀ row ∈ t, row.key = key ∨ (g row).key = key →
      (g row).key = row.key ∧ (g row).archivedAt = row.archivedAt ∧ (g row).id = row.id ∧
        (g row).supersedesId = row.supersedesId) (others : ∀ row ∈ added, row.key ≠ key)
    (head : Head t key start) : Head (t.map g ++ added) key start := by
  cases head with
  | @active row mem isKey active =>
    obtain ⟨sameKey, sameArchive, -, sameLink⟩ := keeps row mem (.inl isKey)
    rw [← sameLink]
    exact .active (mem_append_left _ (mem_map_of_mem mem)) (sameKey.trans isKey)
      (sameArchive.trans active)
  | @archived row mem isKey archived =>
    obtain ⟨sameKey, sameArchive, sameId, -⟩ := keeps row mem (.inl isKey)
    rw [← sameId]
    refine .archived (mem_append_left _ (mem_map_of_mem mem)) (sameKey.trans isKey) ?_
    rw [Entry.Active, sameArchive]
    exact archived
  | absent free =>
    refine .absent fun row' mem' isKey' => ?_
    rcases mem_updated.mp mem' with ⟨row, mem, rfl⟩ | isNew
    · exact free row mem ((keeps row mem (.inr isKey')).1 ▸ isKey')
    · exact others row' isNew isKey'

end Heads

/-! ## One call, one key -/

variable {row' row : Entry}

section KeySteps

variable {ops : List Op} {op : Op} {s : Dated} {key : String} {g : Entry → Entry}
  {added : List Entry} {finish : ℕ}

theorem forgottenIn_append (old : ∀ now, row.archivedAt = some now → now ≤ s.clock)
    (later : ∀ now, op = .forget key now → s.clock < now) :
    ForgottenIn (ops ++ [op]) key row ↔ ForgottenIn ops key row := by
  constructor
  · rintro ⟨now, mem, isNow⟩
    rcases mem_append.mp mem with before | last
    · exact ⟨now, before, isNow⟩
    · have isLast := later now (mem_singleton.mp last).symm
      have bound := old now isNow
      omega
  · rintro ⟨now, mem, isNow⟩
    exact ⟨now, mem_append_left _ mem, isNow⟩

theorem not_forgottenIn_of_active (active : row.Active) : ¬ ForgottenIn ops key row := by
  rintro ⟨now, -, isNow⟩
  simp [active] at isNow

theorem ForgottenIn.congr (same : row'.archivedAt = row.archivedAt) :
    ForgottenIn ops key row' ↔ ForgottenIn ops key row := by
  simp only [ForgottenIn, same]

def ChangedOnly (t : Table) (key : String) (g : Entry → Entry) (changed : Entry → Prop) : Prop :=
  ∀ row ∈ t, ¬ changed row → stem row.key = key.toList → (g row).archivedAt = row.archivedAt

section Unchanged

variable (changed : Entry → Prop) (chained : Chained ops s)
  (shape : Shape s.clock finish s.table g added)
  (later : ∀ now, op = .forget key now → s.clock < now) (only : ChangedOnly s.table key g changed)
  (harmless : ∀ row' ∈ s.table, changed row' →
    ¬ ForgottenIn (ops ++ [op]) key (g row') ∧ ¬ ForgottenIn ops key row')

include chained shape later only harmless

/-- **Recent rows stay recent** as long as no changed row counts as forgotten. -/
theorem recent_iff_of_unchanged (mem : row ∈ s.table) (unchanged : ¬ changed row) :
    Recent (ops ++ [op]) (s.table.map g ++ added) key (g row) ↔ Recent ops s.table key row := by
  -- forgotten rows are the same before and after, with the same times
  have forgotten : ∀ row' ∈ s.table, stem row'.key = key.toList →
      (ForgottenIn (ops ++ [op]) key (g row') ↔ ForgottenIn ops key row') := by
    intro row' mem' hasStem
    by_cases isChanged : changed row'
    · obtain ⟨after, before⟩ := harmless row' mem' isChanged
      exact iff_of_false after before
    · rw [ForgottenIn.congr (only row' mem' isChanged hasStem)]
      exact forgottenIn_append (chained.dated row' mem') later
  have time : ∀ row' ∈ s.table, stem row'.key = key.toList → ForgottenIn ops key row' →
      archiveTime (g row') = archiveTime row' := by
    intro row' mem' hasStem isForgotten
    refine archiveTime_congr (only row' mem' (fun isChanged => ?_) hasStem)
    exact (harmless row' mem' isChanged).2 isForgotten
  constructor
  · intro recent
    have hasStem : stem row.key = key.toList := shape.stem row mem ▸ recent.stem
    have same := only row mem unchanged hasStem
    refine ⟨mem, hasStem, ?_, ?_⟩
    · have archived := recent.archived
      rwa [Entry.Active, same] at archived
    · intro row' mem' hasStem' isForgotten
      have before := recent.later (g row') (mem_append_left _ (mem_map_of_mem mem'))
        (shape.stem row' mem' ▸ hasStem') ((forgotten row' mem' hasStem').mpr isForgotten)
      rwa [time row' mem' hasStem' isForgotten, archiveTime_congr same] at before
  · intro recent
    have same := only row mem unchanged recent.stem
    refine ⟨mem_append_left _ (mem_map_of_mem mem),
      (shape.stem row mem).trans recent.stem, ?_, ?_⟩
    · rw [Entry.Active, same]
      exact recent.archived
    · intro row'' mem'' hasStem'' isForgotten
      rcases mem_updated.mp mem'' with ⟨row', mem', rfl⟩ | isNew
      · have hasStem' : stem row'.key = key.toList := shape.stem row' mem' ▸ hasStem''
        have wasForgotten := (forgotten row' mem' hasStem').mp isForgotten
        rw [time row' mem' hasStem' wasForgotten, archiveTime_congr same]
        exact recent.later row' mem' hasStem' wasForgotten
      · exact absurd isForgotten (not_forgottenIn_of_active (shape.added row'' isNew).1)

/-- The rows that were recent, when no changed row is among them. -/
theorem Chained.listed_of_unchanged {start : Option String} {rows : List Entry}
    (chain : Chain s.table start rows) (lists : Lists ops s.table key rows)
    (unchanged : ∀ row ∈ rows, ¬ changed row) :
    Chain (s.table.map g ++ added) start (rows.map g) ∧
      (rows.map g).Pairwise (fun row row' => archiveTime row' < archiveTime row) ∧
      (∀ row' ∈ rows.map g, Recent (ops ++ [op]) (s.table.map g ++ added) key row') ∧
      ∀ row ∈ s.table, ¬ changed row →
        Recent (ops ++ [op]) (s.table.map g ++ added) key (g row) → g row ∈ rows.map g := by
  have recentIff : ∀ row ∈ s.table, ¬ changed row → _ := fun row =>
    recent_iff_of_unchanged changed chained shape later only harmless
  have time : ∀ row ∈ rows, archiveTime (g row) = archiveTime row := by
    intro row mem
    have recent := (lists.complete row).mp mem
    exact archiveTime_congr (only row recent.mem (unchanged row mem) recent.stem)
  refine ⟨chain.map fun row mem => ⟨shape.id row mem, shape.link row mem⟩, ?_, ?_, ?_⟩
  · refine pairwise_map.mpr (lists.sorted.imp_of_mem fun mem mem' before => ?_)
    rwa [time _ mem, time _ mem']
  · refine forall_mem_map.mpr fun row mem => ?_
    have recent := (lists.complete row).mp mem
    exact (recentIff row recent.mem (unchanged row mem)).mpr recent
  · intro row mem isUnchanged recent
    exact mem_map_of_mem ((lists.complete row).mpr ((recentIff row mem isUnchanged).mp recent))

end Unchanged

theorem Recent.exists_of_map (shape : Shape s.clock finish s.table g added)
    (recent : Recent (ops ++ [op]) (s.table.map g ++ added) key row') :
    ∃ row ∈ s.table, row' = g row := by
  rcases mem_updated.mp recent.mem with ⟨row, mem, rfl⟩ | isNew
  · exact ⟨row, mem, rfl⟩
  · exact absurd (shape.added row' isNew).1 recent.archived

theorem Chained.chains_frame (chained : Chained ops s)
    (shape : Shape s.clock finish s.table g added)
    (later : ∀ now, op = .forget key now → s.clock < now) (unmarked : Unmarked key)
    (same : ∀ row ∈ s.table, stem row.key = key.toList → (g row).archivedAt = row.archivedAt)
    (newHead : ∀ start, Head s.table key start → Head (s.table.map g ++ added) key start) :
    ChainListed (ops ++ [op]) (s.table.map g ++ added) key := by
  obtain ⟨start, rows, head, chain, lists⟩ := chained.chains key unmarked
  obtain ⟨chain', sorted, recent, listed⟩ := chained.listed_of_unchanged (fun _ => False) shape
    later (fun row mem _ => same row mem) (fun _ _ => False.elim) chain lists fun _ _ => id
  refine ⟨start, rows.map g, newHead start head, chain', sorted, fun row' => ⟨recent row', ?_⟩⟩
  intro recent'
  obtain ⟨row, mem, rfl⟩ := recent'.exists_of_map shape
  exact listed row mem id recent'

section ActiveRow

variable {row : Entry} {now : ℕ} (chained : Chained ops s)
  (shape : Shape s.clock finish s.table g added) (mem : row ∈ s.table) (isKey : row.key = key)
  (isLater : s.clock < now) (set : (g row).archivedAt = some now)
  (others : ∀ row' ∈ s.table, row' ≠ row → stem row'.key = key.toList →
    (g row').archivedAt = row'.archivedAt)

include chained shape isLater set others

theorem archiveTime_lt_of_other (mem' : row' ∈ s.table) (differs : row' ≠ row)
    (hasStem : stem (g row').key = key.toList) (archived : ¬ (g row').Active) :
    archiveTime (g row') < archiveTime (g row) := by
  have same := others row' mem' differs (shape.stem row' mem' ▸ hasStem)
  obtain ⟨now', isNow⟩ := Option.ne_none_iff_exists'.mp archived
  have bound := chained.dated row' mem' now' (same ▸ isNow)
  rw [archiveTime, archiveTime, isNow, set]
  exact Nat.lt_of_le_of_lt bound isLater

include mem isKey

theorem Chained.chains_archived (later : ∀ now, op = .forget key now → s.clock < now)
    (unmarked : Unmarked key) (active : row.Active) (notForget : ∀ now, op ≠ .forget key now)
    (newHead : Head (s.table.map g ++ added) key (some row.id)) :
    ChainListed (ops ++ [op]) (s.table.map g ++ added) key := by
  obtain ⟨start, rows, head, chain, lists⟩ := chained.chains key unmarked
  have notForgotten : ¬ ForgottenIn (ops ++ [op]) key (g row) := by
    rintro ⟨now', mem', isNow⟩
    cases set.symm.trans isNow
    rcases mem_append.mp mem' with before | last
    · have bound := chained.forgets key now before
      omega
    · exact notForget now (mem_singleton.mp last).symm
  have differs : ∀ row' ∈ rows, row' ≠ row := by
    rintro row' mem' rfl
    exact ((lists.complete row').mp mem').archived active
  obtain ⟨tail, sorted, recent, listed⟩ := chained.listed_of_unchanged (· = row) shape later others
    (by rintro _ _ rfl; exact ⟨notForgotten, not_forgottenIn_of_active active⟩) chain lists differs
  have newMem : g row ∈ s.table.map g ++ added :=
    mem_append_left _ (mem_map_of_mem mem)
  have hasStem : stem (g row).key = key.toList := by
    rw [shape.stem row mem, isKey, stem_of_unmarked unmarked]
  refine ⟨some row.id, g row :: rows.map g, newHead, ?_, ?_, ?_⟩
  · rw [head.eq_of_key chained.wf mem isKey, if_pos active, ← shape.link row mem] at tail
    rw [← shape.id row mem]
    exact .cons newMem tail
  · refine pairwise_cons.mpr ⟨forall_mem_map.mpr fun row' mem' => ?_, sorted⟩
    have known := recent (g row') (mem_map_of_mem mem')
    exact archiveTime_lt_of_other chained shape isLater set others
      ((lists.complete row').mp mem').mem (differs row' mem') known.stem known.archived
  · intro row''
    rw [mem_cons]
    constructor
    · rintro (rfl | mem'')
      · refine ⟨newMem, hasStem, by simp [Entry.Active, set], ?_⟩
        intro row'' mem'' hasStem'' isForgotten
        rcases mem_updated.mp mem'' with ⟨row', mem', rfl⟩ | isNew
        · refine archiveTime_lt_of_other chained shape isLater set others mem' ?_ hasStem'' ?_
          · rintro rfl
            exact notForgotten isForgotten
          · exact fun active' => not_forgottenIn_of_active active' isForgotten
        · exact absurd isForgotten (not_forgottenIn_of_active (shape.added row'' isNew).1)
      · exact recent row'' mem''
    · intro recent'
      obtain ⟨row', mem', rfl⟩ := recent'.exists_of_map shape
      by_cases isRow : row' = row
      · exact .inl (by rw [isRow])
      · exact .inr (listed row' mem' isRow recent')

/-- The active row of the key is forgotten, later than every other one: nothing is recent any
more. -/
theorem Chained.chains_forgotten (unmarked : Unmarked key) (isForget : op = .forget key now)
    (newHead : Head (s.table.map g ++ added) key none) :
    ChainListed (ops ++ [op]) (s.table.map g ++ added) key := by
  refine ⟨none, [], newHead, .nil, List.Pairwise.nil, fun row'' => ?_⟩
  refine iff_of_false not_mem_nil fun recent' => ?_
  obtain ⟨row', mem', rfl⟩ := recent'.exists_of_map shape
  have hasStem : stem (g row).key = key.toList := by
    rw [shape.stem row mem, isKey, stem_of_unmarked unmarked]
  have after := recent'.later (g row) (mem_append_left _ (mem_map_of_mem mem)) hasStem
    ⟨now, by rw [isForget]; simp, set⟩
  by_cases isRow : row' = row
  · rw [isRow] at after
    exact Nat.lt_irrefl _ after
  · have before := archiveTime_lt_of_other chained shape isLater set others mem' isRow recent'.stem
      recent'.archived
    exact Nat.lt_asymm after before

end ActiveRow

/-- **The chain of a key after a call.** -/
theorem Chained.chains_of_keyStep (chained : Chained ops s)
    (shape : Shape s.clock finish s.table g added)
    (later : ∀ now, op = .forget key now → s.clock < now) (unmarked : Unmarked key)
    (keyStep : KeyStep s.clock op key s.table g added) :
    ChainListed (ops ++ [op]) (s.table.map g ++ added) key := by
  cases keyStep with
  | frame same head => exact chained.chains_frame shape later unmarked same head
  | archived row mem isKey active now isLater set others notForget head =>
    exact chained.chains_archived shape mem isKey isLater set others later unmarked active
      notForget head
  | forgotten row mem isKey now isLater set others isForget head =>
    exact chained.chains_forgotten shape mem isKey isLater set others unmarked isForget head

end KeySteps

/-! ## What each call does -/

variable {old : Entry}

section Calls

variable {strftime : ℕ → String} {ops : List Op} {op : Op} {s : Dated} {t' : Table}
  {f : Entry → Entry} {t : Table} {now : ℕ} {new : NewEntry} {link : Option String}

def touch (old : Entry) (f : Entry → Entry) (row : Entry) : Entry :=
  if row.id = old.id then f row else row

theorem touch_self (old : Entry) (f : Entry → Entry) : touch old f old = f old := if_pos rfl

theorem touch_other (wf : WellFormed t)
    (memOld : old ∈ t) (mem : row ∈ t) (differs : row ≠ old) : touch old f row = row :=
  if_neg fun sameId => differs (inj_on_of_nodup_map wf.nodupIds mem memOld sameId)

theorem selects_active (wf : WellFormed t) (memOld : old ∈ t)
    (active : old.Active) (mem : row ∈ t) : row.key = old.key ∧ row.Active ↔ row.id = old.id := by
  constructor
  · rintro ⟨sameKey, -⟩
    rw [inj_on_of_nodup_map wf.nodupKeys mem memOld sameKey]
  · intro sameId
    rw [inj_on_of_nodup_map wf.nodupIds mem memOld sameId]
    exact ⟨rfl, active⟩

/-- A row that a call may leave behind for `row`. -/
structure Succeeds (clock finish : ℕ) (row row' : Entry) : Prop where
  id : row'.id = row.id := by rfl
  link : row'.supersedesId = row.supersedesId := by rfl
  stem : Memory.stem row'.key = Memory.stem row.key := by rfl
  active : row'.Active → row.Active ∧ row'.key = row.key := by exact fun h => ⟨h, rfl⟩
  stamped : ∀ now, row'.archivedAt = some now →
    row.archivedAt = some now ∨ clock < now ∧ now ≤ finish := by exact fun _ h => .inl h

theorem shape_of_succeeds {clock finish : ℕ} {g : Entry → Entry}
    (each : ∀ row ∈ t, Succeeds clock finish row (g row))
    (newRows : ∀ row ∈ added, row.Active ∧ Unmarked row.key) : Shape clock finish t g added :=
  ⟨fun row mem => (each row mem).id, fun row mem => (each row mem).link,
    fun row mem => (each row mem).stem, fun row mem => (each row mem).active,
    fun row mem => (each row mem).stamped, newRows⟩

theorem shape_touch {clock finish : ℕ} (wf : WellFormed t) (memOld : old ∈ t)
    (succeeds : Succeeds clock finish old (f old))
    (newRows : ∀ row ∈ added, row.Active ∧ Unmarked row.key) :
    Shape clock finish t (touch old f) added := by
  refine shape_of_succeeds (fun row mem => ?_) newRows
  by_cases isOld : row = old
  · rw [isOld, touch_self]
    exact succeeds
  · rw [touch_other wf memOld mem isOld]
    exact {}

theorem keyStep_touch_other {clock : ℕ} (wf : WellFormed t) (memOld : old ∈ t)
    (unmarkedOld : Unmarked old.key) (otherKey : old.key ≠ key) (marked : (f old).key ≠ key)
    (others : ∀ row ∈ added, row.key ≠ key) : KeyStep clock op key t (touch old f) added := by
  refine .frame (fun row mem hasStem => ?_) fun start head => head.frame ?_ others
  · rw [touch_other wf memOld mem]
    rintro rfl
    rw [stem_of_unmarked unmarkedOld] at hasStem
    exact otherKey (String.toList_inj.mp hasStem)
  · intro row mem isKey
    rw [touch_other wf memOld mem]
    · exact ⟨rfl, rfl, rfl, rfl⟩
    · rintro rfl
      rw [touch_self] at isKey
      exact isKey.elim otherKey marked

def Described (s : Dated) (op : Op) (t' : Table) : Prop :=
  ∃ g added, t' = s.table.map g ++ added ∧
    Shape s.clock (op.finish s.clock) s.table g added ∧
      ∀ key, Unmarked key → KeyStep s.clock op key s.table g added

theorem described_kept {g : Entry → Entry}
    (same : ∀ row ∈ s.table, (g row).key = row.key ∧ (g row).archivedAt = row.archivedAt ∧
      (g row).id = row.id ∧ (g row).supersedesId = row.supersedesId) :
    Described s op (s.table.map g) := by
  refine ⟨g, [], (append_nil _).symm, shape_of_succeeds (fun row mem => ?_) (forall_mem_nil _),
    fun key _ => .frame (fun row mem _ => (same row mem).2.1) fun start head =>
      head.frame (fun row mem _ => same row mem) (forall_mem_nil _)⟩
  obtain ⟨sameKey, sameArchive, sameId, sameLink⟩ := same row mem
  refine ⟨sameId, sameLink, by rw [sameKey], ?_, ?_⟩
  · rw [Entry.Active, sameArchive]
    exact fun active => ⟨active, sameKey⟩
  · rw [sameArchive]
    exact fun _ => .inl

theorem newRow_plain {id : String} (unmarked : Unmarked new.key) :
    ∀ row ∈ [newRow new id link now], row.Active ∧ Unmarked row.key := by
  intro row mem
  obtain rfl := mem_singleton.mp mem
  exact ⟨rfl, unmarked⟩

theorem head_newRow {id : String} (t : Table) :
    Head (t ++ [newRow new id link now]) new.key link := by
  have mem : newRow new id link now ∈ t ++ [newRow new id link now] :=
    mem_append_right _ (mem_singleton_self _)
  exact Head.active mem rfl rfl

theorem marked_ne (unmarked : Unmarked key) (old mark stamp : String)
    (isMark : mark.toList.head? = some '@') : old ++ mark ++ stamp ≠ key := by
  rintro rfl
  exact not_unmarked_append_mark old mark stamp isMark unmarked

section Remember

variable {new : NewEntry} {id : String} {now : Readings} {old : Entry} (chained : Chained ops s)
  (mem : old ∈ s.table) (sameKey : old.key = new.key) (unmarkedNew : Unmarked new.key)

theorem described_fresh (unmarkedNew : Unmarked new.key) (absent : new.key ∉ keys s.table) :
    Described s (.remember new id now) (s.table ++ [newRow new id none now.insert]) := by
  refine ⟨fun row => row, _, by rw [map_id'], ?_, fun key unmarked => ?_⟩
  · exact shape_of_succeeds (fun _ _ => {}) (newRow_plain unmarkedNew)
  · refine .frame (fun _ _ _ => rfl) fun start head => ?_
    by_cases isKey : new.key = key
    · -- nothing stood under the key, and the new row has no link
      subst isKey
      cases head with
      | active mem isKey _ | archived mem isKey _ =>
        exact absurd (isKey ▸ mem_map_of_mem mem) absent
      | absent _ => exact head_newRow _
    · refine head.frame (fun _ _ _ => ⟨rfl, rfl, rfl, rfl⟩) fun row mem => ?_
      obtain rfl := mem_singleton.mp mem
      exact isKey

include chained mem sameKey unmarkedNew

/-- A row that is marked and replaced: what happens at the other keys, and what is left to say. -/
theorem described_replaced (mark : String) {stamp : String} (isMark : mark.toList.head? = some '@')
    (newKey : (f old).key = old.key ++ mark ++ stamp) (sameId : (f old).id = old.id)
    (sameLink : (f old).supersedesId = old.supersedesId) (archived : ¬ (f old).Active)
    (stamped : ∀ at', (f old).archivedAt = some at' →
      old.archivedAt = some at' ∨ s.clock < at' ∧ at' ≤ now.insert)
    (atKey : KeyStep s.clock (.remember new id now) new.key s.table (touch old f)
      [newRow new id (some old.id) now.insert]) :
    Described s (.remember new id now)
      (s.table.map (touch old f) ++ [newRow new id (some old.id) now.insert]) := by
  refine ⟨touch old f, _, rfl, ?_, fun key unmarked => ?_⟩
  · exact shape_touch chained.wf mem ⟨sameId, sameLink, newKey ▸ stem_append_mark _ _ _ isMark,
      fun active => absurd active archived, stamped⟩ (newRow_plain unmarkedNew)
  · by_cases isKey : new.key = key
    · exact isKey ▸ atKey
    · refine keyStep_touch_other chained.wf mem (sameKey ▸ unmarkedNew) (sameKey ▸ isKey)
        (newKey ▸ marked_ne unmarked _ _ _ isMark) fun row mem => ?_
      obtain rfl := mem_singleton.mp mem
      exact isKey

theorem described_superseded (strftime : ℕ → String) (active : old.Active)
    (later : s.clock < now.archive) (ordered : now.archive ≤ now.insert) :
    Described s (.remember new id now)
      (s.table.map (touch old fun row =>
        { row with
          archivedAt := some now.archive
          key := row.key ++ "@archived:" ++ strftime now.suffix }) ++
        [newRow new id (some old.id) now.insert]) := by
  refine described_replaced chained mem sameKey unmarkedNew "@archived:" (by decide) rfl rfl rfl
    nofun ?_ ?_
  · rintro _ ⟨⟩
    exact .inr ⟨later, ordered⟩
  · refine .archived old mem sameKey active now.archive later (by rw [touch_self])
      (fun row' mem' differs _ => ?_) nofun (head_newRow _)
    rw [touch_other chained.wf mem mem' differs]

theorem described_reactivated (strftime : ℕ → String) (inactive : ¬ old.Active) :
    Described s (.remember new id now)
      (s.table.map (touch old fun row =>
        { row with key := row.key ++ "@reactivated:" ++ strftime now.suffix }) ++
        [newRow new id (some old.id) now.insert]) := by
  refine described_replaced chained mem sameKey unmarkedNew "@reactivated:" (by decide) rfl rfl rfl
    inactive (fun _ h => .inl h) ?_
  refine .frame (fun row' mem' _ => ?_) fun start head => ?_
  · by_cases isOld : row' = old
    · rw [isOld, touch_self]
    · rw [touch_other chained.wf mem mem' isOld]
  · -- the aged row stood under the key; the new row links to it
    rw [head.eq_of_key chained.wf mem sameKey, if_neg inactive]
    exact head_newRow _

end Remember

section

variable (chained : Chained ops s)

include chained

theorem described_remember {id : String} {now : Readings} (plain : Plain s (.remember new id now))
    (spec : RememberSpec strftime s.table new id now t') :
    Described s (.remember new id now) t' := by
  obtain ⟨unmarkedNew, later, beforeSuffix, beforeInsert⟩ := plain
  cases spec with
  | fresh absent inserted =>
    obtain ⟨rfl, -⟩ := insert_eq_ok inserted
    exact described_fresh unmarkedNew absent
  | refreshed old mem sameKey active sameValue sameKind updated =>
    obtain ⟨rfl, -⟩ := update_eq_ok updated
    refine described_kept fun row _ => ?_
    split <;> exact ⟨rfl, rfl, rfl, rfl⟩
  | superseded old mem sameKey active t₁ t₂ archived renamed inserted =>
    obtain ⟨rfl, -⟩ := update_eq_ok archived
    obtain ⟨rfl, -⟩ := update_eq_ok renamed
    obtain ⟨rfl, -⟩ := insert_eq_ok inserted
    have described : Described s (.remember new id now) _ :=
      described_superseded chained mem sameKey unmarkedNew strftime active later
        (beforeSuffix.trans beforeInsert)
    convert described using 2
    rw [map_map]
    refine map_congr_left fun row _ => ?_
    by_cases sameId : row.id = old.id <;> simp [touch, sameId]
  | reactivated old mem sameKey inactive t₁ renamed inserted =>
    obtain ⟨rfl, -⟩ := update_eq_ok renamed
    obtain ⟨rfl, -⟩ := insert_eq_ok inserted
    have described : Described s (.remember new id now) _ :=
      described_reactivated chained mem sameKey unmarkedNew strftime inactive
    convert described using 2
    refine map_congr_left fun row _ => ?_
    simp only [touch, decide_eq_true_eq]

theorem described_forget (plain : Plain s (.forget key now))
    (done : forget strftime s.table key now = .ok t') : Described s (.forget key now) t' := by
  obtain ⟨unmarkedKey, later⟩ := plain
  obtain ⟨rfl, -⟩ := update_eq_ok done
  have isMark : "@forgotten:".toList.head? = some '@' := by decide
  by_cases found : ∃ old ∈ s.table, old.key = key ∧ old.Active
  · obtain ⟨old, mem, rfl, active⟩ := found
    let f : Entry → Entry := fun row =>
      { row with archivedAt := some now, key := row.key ++ "@forgotten:" ++ strftime now }
    refine ⟨touch old f, [], ?_, ?_, fun key unmarked => ?_⟩
    · rw [append_nil]
      refine map_congr_left fun row rowMem => ?_
      simp only [touch, f, selects_active chained.wf mem active rowMem, decide_eq_true_eq]
    · refine shape_touch chained.wf mem ⟨rfl, rfl, stem_append_mark _ _ _ isMark, nofun, ?_⟩
        (forall_mem_nil _)
      rintro _ ⟨⟩
      exact .inr ⟨later, Nat.le_refl _⟩
    · by_cases isKey : old.key = key
      · subst isKey
        refine .forgotten old mem rfl now later (by rw [touch_self]) (fun row' mem' differs _ => ?_)
          rfl (.absent fun row' mem' sameKey => ?_)
        · rw [touch_other chained.wf mem mem' differs]
        · rw [append_nil] at mem'
          obtain ⟨row, rowMem, rfl⟩ := mem_map.mp mem'
          by_cases isOld : row = old
          · rw [isOld, touch_self] at sameKey
            exact marked_ne unmarked _ _ _ isMark sameKey
          · rw [touch_other chained.wf mem rowMem isOld] at sameKey
            exact isOld (inj_on_of_nodup_map chained.wf.nodupKeys rowMem mem sameKey)
      · exact keyStep_touch_other chained.wf mem unmarkedKey isKey
          (marked_ne unmarked _ _ _ isMark) (forall_mem_nil _)
  · -- no active row: the statement selects nothing
    refine described_kept fun row rowMem => ?_
    rw [if_neg fun selected => found ⟨row, rowMem, of_decide_eq_true selected⟩]
    exact ⟨rfl, rfl, rfl, rfl⟩

theorem described_ageExpired (plain : Plain s (.ageExpired now))
    (done : ageExpired s.table now = .ok t') : Described s (.ageExpired now) t' := by
  have later : s.clock < now := plain
  obtain ⟨rfl, -⟩ := update_eq_ok done
  refine ⟨_, [], (append_nil _).symm, ?_, fun key unmarked => ?_⟩
  · refine shape_of_succeeds (fun row _ => ?_) (forall_mem_nil _)
    split
    · refine ⟨rfl, rfl, rfl, nofun, ?_⟩
      rintro _ ⟨⟩
      exact .inr ⟨later, Nat.le_refl _⟩
    · exact {}
  · -- an expired row of the key is its active row
    have activeKey : ∀ row ∈ s.table, stem row.key = key.toList → Expired now row →
        row.key = key := by
      intro row mem hasStem expired
      rw [stem_of_unmarked (chained.unmarked row mem expired.1)] at hasStem
      exact String.toList_inj.mp hasStem
    by_cases found : ∃ row ∈ s.table, row.key = key ∧ Expired now row
    · obtain ⟨row, mem, isKey, expired⟩ := found
      refine .archived row mem isKey expired.1 now later (by rw [if_pos (by simpa using expired)])
        (fun row' mem' differs hasStem => ?_) nofun ?_
      · rw [if_neg]
        intro selected
        have isKey' := activeKey row' mem' hasStem (of_decide_eq_true selected)
        exact differs (inj_on_of_nodup_map chained.wf.nodupKeys mem' mem
          (isKey'.trans isKey.symm))
      · have updated : { row with archivedAt := some now } ∈ s.table.map (fun row =>
            if decide (Expired now row) = true then { row with archivedAt := some now } else row) ++
              [] := by
          rw [append_nil, mem_map]
          exact ⟨row, mem, by rw [if_pos (by simpa using expired)]⟩
        -- named first: against the goal, `isKey` would fix the row as it was before
        have head := Head.archived updated isKey (by simp)
        exact head
    · refine .frame (fun row mem hasStem => ?_) fun start head =>
        head.frame (fun row mem isKey => ?_) (forall_mem_nil _)
      · rw [if_neg]
        intro selected
        have expired := of_decide_eq_true selected
        exact found ⟨row, mem, activeKey row mem hasStem expired, expired⟩
      · rw [if_neg]
        · exact ⟨rfl, rfl, rfl, rfl⟩
        · intro selected
          refine found ⟨row, mem, ?_, of_decide_eq_true selected⟩
          rw [if_pos selected] at isKey
          exact isKey.elim id id

theorem described_of_step (plain : Plain s op)
    (stepped : step strftime s.table op = some t') : Described s op t' := by
  have done := toOption_eq_some.mp stepped
  cases op with
  | remember =>
    obtain ⟨⟨_, returned⟩, remembered, rfl⟩ := map_eq_ok.mp done
    obtain ⟨_, transacted, result⟩ := bind_eq_ok.mp remembered
    cases result
    exact described_remember chained plain (rememberTx_spec transacted)
  | forget => exact described_forget chained plain done
  | ageExpired => exact described_ageExpired chained plain done
  | search | setEmbedding | setEmbeddingById => exact plain.elim

end

theorem Plain.clock_le_finish (plain : Plain s op) : s.clock ≤ op.finish s.clock := by
  cases op with
  | remember =>
    obtain ⟨-, later, beforeSuffix, beforeInsert⟩ := plain
    simp only [Op.finish]
    omega
  | forget => exact plain.2.le
  | ageExpired => exact Nat.le_of_lt plain
  | search | setEmbedding | setEmbeddingById => exact plain.elim

/-- **Plain calls keep the invariant.** -/
theorem Chained.of_step (chained : Chained ops s) (plain : Plain s op)
    (stepped : step strftime s.table op = some t') :
    Chained (ops ++ [op]) ⟨t', op.finish s.clock⟩ := by
  have wf' := (chained.wf.of_step stepped).1
  have bound := plain.clock_le_finish
  have forgetLater : ∀ key now, op = .forget key now → s.clock < now ∧ now = op.finish s.clock := by
    rintro key now rfl
    exact ⟨plain.2, rfl⟩
  obtain ⟨g, added, rfl, shape, keySteps⟩ := described_of_step chained plain stepped
  refine ⟨wf', ?_, ?_, ?_, fun key unmarked => ?_⟩
  · intro row' mem' active
    rcases mem_updated.mp mem' with ⟨row, mem, rfl⟩ | isNew
    · obtain ⟨wasActive, sameKey⟩ := shape.active row mem active
      exact sameKey ▸ chained.unmarked row mem wasActive
    · exact (shape.added row' isNew).2
  · intro row' mem' now isNow
    rcases mem_updated.mp mem' with ⟨row, mem, rfl⟩ | isNew
    · rcases shape.stamped row mem now isNow with before | ⟨-, inTime⟩
      · exact (chained.dated row mem now before).trans bound
      · exact inTime
    · have active := (shape.added row' isNew).1
      simp [active] at isNow
  · intro key now mem
    rcases mem_append.mp mem with before | last
    · exact (chained.forgets key now before).trans bound
    · exact (forgetLater key now (mem_singleton.mp last).symm).2.le
  · exact chained.chains_of_keyStep shape (fun now isForget => (forgetLater key now isForget).1)
      unmarked (keySteps key unmarked)

end Calls

/-! ## Whole histories -/

section Histories

variable (strftime : ℕ → String)

variable (ops : List Op)

abbrev History (s : Dated) : Prop :=
  Run (datedStep strftime) Plain {} ops s

def Held (s : Dated) (id key : String) : Prop :=
  ∃ earlier later s₀, ops = earlier ++ later ∧ History strftime earlier s₀ ∧
    Run (datedStep strftime) Plain s₀ later s ∧ ∃ row ∈ s₀.table, row.id = id ∧ row.key = key

/-- An archived row that once held `key`, archived after the last `forget` of `key`. -/
structure ArchivedSinceForget (s : Dated) (key : String) (row : Entry) : Prop where
  mem : row ∈ s.table
  archived : ¬ row.Active
  held : Held strftime ops s row.id key
  since : ∀ row' ∈ s.table, Held strftime ops s row'.id key → ForgottenIn ops key row' →
    archiveTime row' < archiveTime row

variable {strftime} {ops : List Op} {s : Dated}

theorem datedStep_eq_some {op : Op} {s' : Dated} (stepped : datedStep strftime s op = some s') :
    ∃ t', step strftime s.table op = some t' ∧ s' = ⟨t', op.finish s.clock⟩ := by
  obtain ⟨t', done, rfl⟩ := Option.map_eq_some_iff.mp stepped
  exact ⟨t', done, rfl⟩

theorem History.chained (history : History strftime ops s) : Chained ops s := by
  refine history.history Chained (fun ops s op s' chained _ plain stepped => ?_) ?_
  · obtain ⟨t', done, rfl⟩ := datedStep_eq_some stepped
    exact chained.of_step plain done
  · refine ⟨wellFormed_nil, forall_mem_nil _, forall_mem_nil _, nofun, fun key _ => ?_⟩
    refine ⟨none, [], .absent (forall_mem_nil _), .nil, List.Pairwise.nil, fun row => ?_⟩
    exact iff_of_false not_mem_nil fun recent => nomatch recent.mem

def StemsKept (s s' : Dated) : Prop :=
  ∀ row ∈ s.table, ∃ row' ∈ s'.table, row'.id = row.id ∧ stem row'.key = stem row.key

theorem Chained.stemsKept {op : Op} {t' : Table} (chained : Chained ops s) (plain : Plain s op)
    (stepped : step strftime s.table op = some t') : StemsKept s ⟨t', op.finish s.clock⟩ := by
  obtain ⟨g, added, rfl, shape, -⟩ := described_of_step chained plain stepped
  intro row mem
  exact ⟨g row, mem_append_left _ (mem_map_of_mem mem), shape.id row mem,
    shape.stem row mem⟩

theorem Chained.stemsKept_of_run {later : List Op} {s' : Dated} (chained : Chained ops s)
    (run : Run (datedStep strftime) Plain s later s') : StemsKept s s' := by
  refine run.related (fun s => ∃ ops, Chained ops s) ?_ ?_ ?_ ?_ ⟨ops, chained⟩
  · exact fun s row mem => ⟨row, mem, rfl, rfl⟩
  · intro s₁ s₂ s₃ first second row mem
    obtain ⟨row₂, mem₂, id₂, stem₂⟩ := first row mem
    obtain ⟨row₃, mem₃, id₃, stem₃⟩ := second row₂ mem₂
    exact ⟨row₃, mem₃, id₃.trans id₂, stem₃.trans stem₂⟩
  · rintro s op s' ⟨ops, chained⟩ plain stepped
    obtain ⟨t', done, rfl⟩ := datedStep_eq_some stepped
    exact ⟨ops ++ [op], chained.of_step plain done⟩
  · rintro s op s' ⟨ops, chained⟩ plain stepped
    obtain ⟨t', done, rfl⟩ := datedStep_eq_some stepped
    exact chained.stemsKept plain done

section

variable (history : History strftime ops s)

include history

theorem History.held_stem :
    ∀ row ∈ s.table, Held strftime ops s row.id (String.ofList (stem row.key)) := by
  refine history.history (fun ops s => ∀ row ∈ s.table,
    Held strftime ops s row.id (String.ofList (stem row.key))) ?_ (forall_mem_nil _)
  intro ops s op s' held run plain stepped row' mem'
  have next : History strftime (ops ++ [op]) s' := .snoc run plain stepped
  obtain ⟨t', done, rfl⟩ := datedStep_eq_some stepped
  obtain ⟨g, added, rfl, shape, -⟩ := described_of_step (History.chained run) plain done
  rcases mem_updated.mp mem' with ⟨row, mem, rfl⟩ | isNew
  · rw [shape.id row mem, shape.stem row mem]
    obtain ⟨earlier, later, s₀, rfl, before, after, there⟩ := held row mem
    exact ⟨earlier, later ++ [op], s₀, append_assoc _ _ _, before,
      .snoc after plain stepped, there⟩
  · have unmarked := (shape.added row' isNew).2
    rw [stem_of_unmarked unmarked, String.ofList_toList]
    exact ⟨ops ++ [op], [], _, (append_nil _).symm, next, .nil _, row', mem', rfl, rfl⟩

theorem History.held_iff (unmarked : Unmarked key) (mem : row ∈ s.table) :
    Held strftime ops s row.id key ↔ stem row.key = key.toList := by
  constructor
  · rintro ⟨earlier, later, s₀, rfl, before, after, row₀, mem₀, sameId, rfl⟩
    obtain ⟨row', mem', sameId', sameStem⟩ := before.chained.stemsKept_of_run after row₀ mem₀
    rw [inj_on_of_nodup_map history.chained.wf.nodupIds mem mem'
      (sameId.symm.trans sameId'.symm), sameStem, stem_of_unmarked unmarked]
  · intro hasStem
    have held := history.held_stem row mem
    rwa [hasStem, String.ofList_toList] at held

theorem History.recent_iff (unmarked : Unmarked key) (row : Entry) :
    Recent ops s.table key row ↔ ArchivedSinceForget strftime ops s key row := by
  constructor
  · intro recent
    refine ⟨recent.mem, recent.archived, (history.held_iff unmarked recent.mem).mpr recent.stem, ?_⟩
    intro row' mem' held
    exact recent.later row' mem' ((history.held_iff unmarked mem').mp held)
  · intro archived
    refine ⟨archived.mem, (history.held_iff unmarked archived.mem).mp archived.held,
      archived.archived, ?_⟩
    intro row' mem' hasStem
    exact archived.since row' mem' ((history.held_iff unmarked mem').mpr hasStem)

end

/-- **The audit chain goes back to the last forget**: from an active row the links visit exactly the
archived rows of its key since then, latest first. -/
theorem auditChain_since_forget (strftime : ℕ → String) {ops : List Op} {s : Dated}
    (history : History strftime ops s) {row : Entry} (mem : row ∈ s.table) (active : row.Active) :
    (auditChain s.table s.table.length row.supersedesId).Pairwise
        (fun row row' => archiveTime row' < archiveTime row) ∧
      ∀ row', row' ∈ auditChain s.table s.table.length row.supersedesId ↔
        ArchivedSinceForget strftime ops s row.key row' := by
  have chained := history.chained
  have unmarked := chained.unmarked row mem active
  obtain ⟨start, rows, head, chain, lists⟩ := chained.chains row.key unmarked
  obtain rfl := (head.eq_of_key chained.wf mem rfl).trans (if_pos active)
  -- the rows of the chain are distinct rows of the table, so the fuel suffices
  have distinct : rows.Nodup := lists.sorted.imp fun before same => by
    rw [same] at before
    exact Nat.lt_irrefl _ before
  have enough : rows.length ≤ s.table.length :=
    (subperm_of_subset distinct fun _ mem => ((lists.complete _).mp mem).mem).length_le
  rw [chain.auditChain_eq chained.wf enough]
  exact ⟨lists.sorted, fun row' => (lists.complete row').trans (history.recent_iff unmarked row')⟩

end Histories

/-! ## An aged note and a forgotten one -/

def agedHistory : List Op :=
  [.remember ⟨"editor", "vim", .project, .userTold, none⟩ "a" ⟨1, 1, 1⟩,
    .remember ⟨"editor", "emacs", .project, .userTold, some 0⟩ "b" ⟨2, 2, 2⟩,
    .ageExpired 3,
    .remember ⟨"editor", "ed", .project, .userTold, none⟩ "c" ⟨4, 4, 4⟩]

def agedNote : Entry where
  id := "c"
  key := "editor"
  value := "ed"
  kind := .project
  source := .userTold
  ttlDays := some 180
  createdAt := 4
  updatedAt := 4
  supersedesId := some "b"

theorem auditChain_of_agedHistory :
    ∃ s : Dated, History epochStamp agedHistory s ∧ agedNote ∈ s.table ∧ agedNote.Active ∧
      (auditChain s.table s.table.length agedNote.supersedesId).map Entry.value =
        ["emacs", "vim"] ∧
      ∀ row', row' ∈ auditChain s.table s.table.length agedNote.supersedesId ↔
        ArchivedSinceForget epochStamp agedHistory s agedNote.key row' := by
  obtain ⟨s, history, mem, values⟩ : ∃ s, History epochStamp agedHistory s ∧ agedNote ∈ s.table ∧
      (auditChain s.table s.table.length agedNote.supersedesId).map Entry.value =
        ["emacs", "vim"] := exists_run (by decide +kernel)
  exact ⟨s, history, mem, rfl, values, (auditChain_since_forget epochStamp history mem rfl).2⟩

def forgottenHistory : List Op :=
  [.remember ⟨"editor", "vim", .project, .userTold, none⟩ "a" ⟨1, 1, 1⟩,
    .forget "editor" 2,
    .remember ⟨"editor", "emacs", .project, .userTold, none⟩ "b" ⟨3, 3, 3⟩]

/-- **A forgotten row is not on the chain**, although it is archived and held the
key. -/
theorem forgotten_not_on_chain :
    ∃ (s : Dated) (row old : Entry), History epochStamp forgottenHistory s ∧
      row ∈ s.table ∧ row.Active ∧ old ∈ s.table ∧ ¬ old.Active ∧
      Held epochStamp forgottenHistory s old.id row.key ∧
      old ∉ auditChain s.table s.table.length row.supersedesId := by
  obtain ⟨s, history, row, mem, old, memOld, active, archived, isKey, hasStem, offChain⟩ :
      ∃ s, History epochStamp forgottenHistory s ∧ ∃ row ∈ s.table, ∃ old ∈ s.table,
        row.Active ∧ ¬ old.Active ∧ row.key = "editor" ∧ stem old.key = "editor".toList ∧
          old ∉ auditChain s.table s.table.length row.supersedesId := exists_run (by decide +kernel)
  refine ⟨s, row, old, history, mem, active, memOld, archived, ?_, offChain⟩
  rw [isKey]
  exact (History.held_iff history (by decide) memOld).mpr hasStem

end Havn.Db.Memory
