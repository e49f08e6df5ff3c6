import Mathlib.Data.Finset.Card
import Havn.Runtime.MemoryVectors

/-!
# How often the backfill asks its provider

The loop of `run_to_completion` alone at the table.  It asks for the rows that wait for a vector,
not for those it has not tried, so every failed write may cost one more request.
-/

namespace Havn.Runtime.MemoryVectors

open Db Db.Memory Lib MemoryTool List

/-! ## The loop -/

structure Alone where
  table : Table
  call : Call := .scanning
  asked : ℕ := 0
  failures : ℕ := 0

/-- The provider's vectors, or how a statement (or the provider, without vectors) ended. -/
inductive Heard
  | vectors (vectors : List (List UInt32))
  | ended (answer : Answer)

def Call.asks : Call → ℕ
  | .fetched _ => 1
  | _ => 0

def Call.texts : Call → ℕ
  | .fetched batch => batch.length
  | _ => 0

def Call.fails : Call → Heard → ℕ
  | .writing _, .ended (.failed _) => 1
  | _, _ => 0

section Loop

variable (strftime : ℕ → String) (debug : String → String) (provider : Provider)

def hear (t : Table) : Call → Heard → Option (Table × Call)
  | .fetched batch, .vectors vectors =>
    some (t, if vectors.length ≠ batch.length then .finished
      else .writing ((batch.map Prod.fst).zip vectors))
  | .fetched _, .ended .done => none
  | call, .ended answer => act strftime debug provider t call answer
  | _, .vectors _ => none

def Alone.step (s : Alone) (heard : Heard) : Option Alone :=
  (hear strftime debug provider s.table s.call heard).map fun after =>
    { table := after.1, call := after.2, asked := s.asked + s.call.asks,
      failures := s.failures + s.call.fails heard }

/-- The vectors are as many as the texts, and of the provider's dimension. -/
def Proper (s : Alone) : Heard → Prop
  | .vectors vectors => vectors.length = s.call.texts ∧
      ∀ vector ∈ vectors, vector.length = provider.dimensions
  | .ended _ => True

instance (s : Alone) : (heard : Heard) → Decidable (Proper provider s heard)
  | .vectors _ => inferInstanceAs (Decidable (_ ∧ _))
  | .ended _ => .isTrue trivial

end Loop

/-! ## The rows that wait -/

def waiting (dim : ℕ) (t : Table) : Finset String :=
  ((t.filter (needsVector dim)).map Entry.key).toFinset

variable {dim : ℕ} {t t' : Table} {key : String}

theorem mem_waiting : key ∈ waiting dim t ↔ ∃ row ∈ t, needsVector dim row ∧ row.key = key := by
  simp [waiting, and_assoc]

theorem card_waiting (unique : (keys t).Nodup) :
    (waiting dim t).card = (t.filter (needsVector dim)).length := by
  rw [waiting, toFinset_card_of_nodup, length_map]
  exact unique.sublist (filter_sublist.map _)

theorem setEmbedding_spec {vector : List UInt32} (unique : (keys t).Nodup)
    (fits : vector.length = dim) :
    ∃ t', setEmbedding t key vector = .ok t' ∧ (keys t').Nodup ∧
      waiting dim t' = (waiting dim t).erase key := by
  let write (row : Entry) : Entry := if decide (row.key = key ∧ row.Active) then
    { row with embedding := some (vector, vector.length) } else row
  have written : ∀ row, (write row).key = row.key ∧
      (needsVector dim (write row) ↔ row.key ≠ key ∧ needsVector dim row) := by
    intro row
    by_cases selected : row.key = key ∧ row.Active
    · have same : write row = { row with embedding := some (vector, vector.length) } :=
        if_pos (decide_eq_true selected)
      simp [same, needsVector, fits, selected.1]
    · have same : write row = row := if_neg (by simpa using selected)
      refine ⟨by rw [same], ?_⟩
      rw [same, needsVector, decide_eq_true_iff]
      exact ⟨fun needs => ⟨fun isKey => selected ⟨isKey, needs.1⟩, needs⟩, And.right⟩
  have unique' : (keys (t.map write)).Nodup := by
    rwa [keys_map fun row _ => (written row).1]
  refine ⟨t.map write, if_pos unique', unique', ?_⟩
  ext other
  rw [mem_waiting, Finset.mem_erase, mem_waiting]
  constructor
  · rintro ⟨_, mem, needs, rfl⟩
    obtain ⟨row, isRow, rfl⟩ := mem_map.mp mem
    obtain ⟨isOther, needed⟩ := (written row).2.mp needs
    rw [(written row).1]
    exact ⟨isOther, row, isRow, needed, rfl⟩
  · rintro ⟨isOther, row, isRow, needed, rfl⟩
    exact ⟨write row, mem_map_of_mem isRow, (written row).2.mpr ⟨isOther, needed⟩,
      (written row).1⟩

/-- A batch is of rows that wait, fifty of them or all. -/
theorem nextBatch_spec (dim : ℕ) (unique : (keys t).Nodup) :
    (nextBatch dim t).length = min batchSize (waiting dim t).card ∧
      ((nextBatch dim t).map Prod.fst).toFinset ⊆ waiting dim t ∧
      ((nextBatch dim t).map Prod.fst).toFinset.card = (nextBatch dim t).length := by
  set sorted := (t.filter (needsVector dim)).insertionSort fun row row' =>
    row.updatedAt ≤ row'.updatedAt with isSorted
  have perm : sorted.Perm (t.filter (needsVector dim)) := perm_insertionSort _ _
  have isKeys : (nextBatch dim t).map Prod.fst = (sorted.take batchSize).map Entry.key := by
    rw [nextBatch, map_map]
    rfl
  have nodup : ((sorted.take batchSize).map Entry.key).Nodup :=
    ((perm.map _).nodup_iff.mpr (unique.sublist (filter_sublist.map _))).sublist
      ((take_sublist _ _).map _)
  refine ⟨?_, ?_, ?_⟩
  · rw [nextBatch, length_map, length_take, ← isSorted, perm.length_eq,
      card_waiting unique]
  · intro other mem
    rw [isKeys, mem_toFinset] at mem
    rw [waiting, mem_toFinset]
    exact (perm.map _).subset ((take_sublist _ _).map _ |>.subset mem)
  · rw [isKeys, toFinset_card_of_nodup nodup, ← isKeys, length_map]

/-! ## The bill -/

def Call.items : Call → List (String × List UInt32)
  | .writing items => items
  | _ => []

/-- The rows that will wait after the batch when none of its writes fails. -/
def left (dim : ℕ) (t : Table) (call : Call) : Finset String :=
  waiting dim t \ (call.items.map Prod.fst).toFinset

def Call.rest : Call → ℕ
  | .scanning => 2
  | .fetched _ => 1
  | .writing items => items.length + 3
  | _ => 0

def Call.Mine (dim : ℕ) (t : Table) : Call → Prop
  | .scanning | .finished => True
  | .fetched batch => batch = nextBatch dim t ∧ batch ≠ []
  | .writing items => ∀ item ∈ items, item.2.length = dim
  | _ => False

/-- **The bill** of a loop that began with `n` rows waiting.  A row pays for four steps, and again
with each failed write; `m` requests were for batches without a failed write. -/
structure Paid (dim n steps : ℕ) (t : Table) (call : Call) (asked failures : ℕ) : Prop where
  unique : (keys t).Nodup
  mine : call.Mine dim t
  time : steps + 4 * (left dim t call).card + call.rest ≤ 4 * n + 2 + 4 * failures
  calls : ∃ m, asked ≤ m + failures ∧ 50 * m < n + 50 ∧ (call = .finished ∨
    (waiting dim t).card ≤ n - 50 * m ∨
    (0 < m ∧ (left dim t call).card ≤ n - 50 * m ∧ (waiting dim t).card ≤ n - 50 * (m - 1)))

variable {strftime : ℕ → String} {debug : String → String} {provider : Provider}
  {n steps asked failures : ℕ} {call call' : Call} {batch : List (String × String)}
  {item : String × List UInt32} {items : List (String × List UInt32)}
@[simp] theorem left_of_items (idle : call.items = []) : left dim t call = waiting dim t := by
  rw [left, idle, map_nil, toFinset_nil, Finset.sdiff_empty]

theorem Paid.move (paid : Paid dim n steps t call asked failures) (idle : call.items = [])
    (idle' : call'.items = []) (going : call ≠ .finished) (mine : call'.Mine dim t)
    (less : call'.rest < call.rest) : Paid dim n (steps + 1) t call' asked failures := by
  obtain ⟨m, few, fits, spare⟩ := paid.calls
  have time := paid.time
  rw [left_of_items idle] at spare time
  refine ⟨paid.unique, mine, ?_, m, few, fits, .inr ?_⟩
  · rw [left_of_items idle']
    omega
  · rw [left_of_items idle']
    exact spare.resolve_left going

theorem Paid.spare
    (paid : Paid dim n steps t (.fetched batch) asked failures) :
    ∃ m, asked + 1 ≤ m + failures ∧ 50 * m < n + 50 ∧ 0 < m ∧
      (waiting dim t).card ≤ n - 50 * (m - 1) := by
  obtain ⟨m, few, fits, spare⟩ := paid.calls
  obtain ⟨rfl, found⟩ := paid.mine
  have size := (nextBatch_spec dim paid.unique).1
  have positive := length_pos_of_ne_nil found
  rw [left_of_items rfl] at spare
  simp only [reduceCtorEq, false_or] at spare
  refine ⟨m + 1, ?_, ?_, ?_, ?_⟩ <;> omega

theorem Paid.refused
    (paid : Paid dim n steps t (.fetched batch) asked failures) :
    Paid dim n (steps + 1) t .finished (asked + 1) failures := by
  obtain ⟨m, few, fits, -, -⟩ := paid.spare
  have time := paid.time
  refine ⟨paid.unique, trivial, ?_, m, few, fits, .inl rfl⟩
  rw [left_of_items rfl, Call.rest] at time
  show _ + 4 * (left dim t .finished).card + 0 ≤ _
  rw [left_of_items rfl]
  omega

theorem Paid.write {vectors : List (List UInt32)}
    (paid : Paid dim n steps t (.fetched batch) asked failures)
    (enough : vectors.length = batch.length) (fit : ∀ vector ∈ vectors, vector.length = dim) :
    Paid dim n (steps + 1) t (.writing ((batch.map Prod.fst).zip vectors)) (asked + 1)
      failures := by
  obtain ⟨m, few, fits, positive, bound⟩ := paid.spare
  have time := paid.time
  obtain ⟨rfl, found⟩ := paid.mine
  obtain ⟨size, among, card⟩ := nextBatch_spec dim paid.unique
  have isKeys : (((nextBatch dim t).map Prod.fst).zip vectors).map Prod.fst =
      (nextBatch dim t).map Prod.fst := map_fst_zip (by rw [length_map, enough])
  have length : (((nextBatch dim t).map Prod.fst).zip vectors).length =
      (nextBatch dim t).length := by
    rw [← length_map, isKeys, length_map]
  have rest : (left dim t (.writing (((nextBatch dim t).map Prod.fst).zip vectors))).card +
      (nextBatch dim t).length = (waiting dim t).card := by
    rw [left, Call.items, isKeys, ← card]
    exact Finset.card_sdiff_add_card_eq_card among
  have found := length_pos_of_ne_nil found
  refine ⟨paid.unique, fun item mem => fit _ (of_mem_zip mem).2, ?_, m, few, fits,
    .inr (.inr ⟨positive, ?_, bound⟩)⟩
  · rw [left_of_items rfl, Call.rest] at time
    rw [Call.rest, length]
    omega
  · rw [batchSize] at size
    omega

theorem Paid.written (paid : Paid dim n steps t (.writing (item :: items)) asked failures)
    (unique : (keys t').Nodup) (erased : waiting dim t' = (waiting dim t).erase item.1) :
    Paid dim n (steps + 1) t' (.writing items) asked failures := by
  have same : left dim t' (.writing items) = left dim t (.writing (item :: items)) := by
    rw [left, left, Call.items, Call.items, erased, map_cons, toFinset_cons,
      Finset.sdiff_insert, Finset.erase_sdiff_comm]
  have fewer : (waiting dim t').card ≤ (waiting dim t).card := by
    rw [erased]
    exact Finset.card_erase_le
  obtain ⟨m, few, fits, spare⟩ := paid.calls
  have time := paid.time
  rw [← same] at spare time
  refine ⟨unique, (forall_mem_cons.mp paid.mine).2, ?_, m, few, fits, .inr ?_⟩
  · rw [Call.rest, length_cons] at time
    rw [Call.rest]
    omega
  · simp only [reduceCtorEq, false_or] at spare
    omega

/-- A failed write leaves one row more, and its batch counts no longer. -/
theorem Paid.failed (paid : Paid dim n steps t (.writing (item :: items)) asked failures) :
    Paid dim n (steps + 1) t (.writing items) asked (failures + 1) := by
  have more : (left dim t (.writing items)).card ≤
      (left dim t (.writing (item :: items))).card + 1 := by
    rw [left, left, Call.items, Call.items, map_cons, toFinset_cons,
      Finset.sdiff_insert]
    exact Nat.le_add_of_sub_le Finset.pred_card_le_card_erase
  obtain ⟨m, few, fits, spare⟩ := paid.calls
  have time := paid.time
  refine ⟨paid.unique, (forall_mem_cons.mp paid.mine).2, ?_, ?_⟩
  · rw [Call.rest, length_cons] at time
    rw [Call.rest]
    omega
  · rcases spare with ends | spare | ⟨positive, -, spare⟩
    · cases ends
    · exact ⟨m, by omega, fits, .inr (.inl spare)⟩
    · exact ⟨m - 1, by omega, by omega, .inr (.inl spare)⟩

def Alone.Paid (dim n steps : ℕ) (s : Alone) : Prop :=
  MemoryVectors.Paid dim n steps s.table s.call s.asked s.failures

theorem Alone.Paid.step {s s' : Alone} {heard : Heard} (paid : s.Paid provider.dimensions n steps)
    (proper : Proper provider s heard) (next : s.step strftime debug provider heard = some s') :
    s'.Paid provider.dimensions n (steps + 1) := by
  obtain ⟨t, call, asked, failures⟩ := s
  obtain ⟨⟨t', call'⟩, acted, rfl⟩ := Option.map_eq_some_iff.mp next
  replace paid : MemoryVectors.Paid provider.dimensions n steps t call asked failures := paid
  show MemoryVectors.Paid _ n (steps + 1) t' call' (asked + call.asks)
    (failures + call.fails heard)
  cases call with
  | scanning =>
    rcases heard with _ | (_ | _ | _) <;> cases acted
    · by_cases done : nextBatch provider.dimensions t = []
      · rw [if_pos done]
        exact paid.move rfl rfl nofun trivial (by decide)
      · rw [if_neg done]
        exact paid.move rfl rfl nofun ⟨rfl, done⟩ Nat.one_lt_two
    · exact paid.move rfl rfl nofun trivial (by decide)
  | fetched batch =>
    rcases heard with vectors | (_ | _ | _) <;> cases acted
    · have enough : vectors.length = batch.length := proper.1
      rw [if_neg (not_not.mpr enough)]
      exact paid.write enough proper.2
    · exact paid.refused
  | writing items =>
    rcases items with _ | ⟨item, items⟩ <;> rcases heard with _ | (_ | _ | _) <;> cases acted
    · exact paid.move rfl rfl nofun trivial (by decide)
    · obtain ⟨t', done, unique, erased⟩ :=
        setEmbedding_spec paid.unique (forall_mem_cons.mp paid.mine).1
      rw [done]
      exact paid.written unique erased
    · exact paid.failed
  | finished => rcases heard with _ | (_ | _ | _) <;> cases acted
  | remembering | committed | embedding | storing | replied => exact paid.mine.elim

theorem Alone.Paid.enabled {s : Alone} (paid : s.Paid provider.dimensions n steps) :
    s.call = .finished ∨ ∃ heard s', s.step strftime debug provider heard = some s' := by
  obtain ⟨t, call, asked, failures⟩ := s
  cases call with
  | finished => exact .inl rfl
  | scanning => exact .inr ⟨.ended .done, _, rfl⟩
  | fetched => exact .inr ⟨.ended (.failed .notFound), _, rfl⟩
  | writing items =>
    cases items with
    | nil | cons => exact .inr ⟨.ended .done, _, rfl⟩
  | remembering | committed | embedding | storing | replied => exact paid.mine.elim

theorem Alone.paid_of_run {s : Alone} {heard : List Heard} (unique : (keys t).Nodup)
    (ran : Run (Alone.step strftime debug provider) (Proper provider) { table := t } heard s) :
    s.Paid provider.dimensions (waiting provider.dimensions t).card heard.length := by
  refine ran.history (fun heard s => s.Paid provider.dimensions
    (waiting provider.dimensions t).card heard.length) ?_ ?_
  · intro before s heard s' paid _ proper next
    rw [length_append]
    exact paid.step proper next
  · refine ⟨unique, trivial, ?_, 0, Nat.zero_le _, by omega, .inr (.inl ?_)⟩
    · exact by simp [left, Call.items, Call.rest]
    · simp

/-- **The backfill ends**, after at most `n / 50 + 2` requests when `n` rows wait and at most one
write fails: a run has at most `4 n + 6` steps, and one that is not at its end goes on. -/
theorem asked_le_of_failures_le {s : Alone} {heard : List Heard} (unique : (keys t).Nodup)
    (ran : Run (Alone.step strftime debug provider) (Proper provider) { table := t } heard s)
    (few : s.failures ≤ 1) : let n := (t.filter (needsVector provider.dimensions)).length
    s.asked ≤ n / 50 + 2 ∧ heard.length ≤ 4 * n + 6 ∧
      (s.call = .finished ∨ ∃ heard s', s.step strftime debug provider heard = some s') := by
  intro n
  have paid := Alone.paid_of_run unique ran
  rw [card_waiting unique] at paid
  obtain ⟨m, asked, fits, -⟩ := paid.calls
  have time := paid.time
  exact ⟨by omega, by omega, paid.enabled⟩

/-- A round in which the vector of the one row waiting arrives, and how its write ends. -/
def noteRound (written : Answer) : List Heard :=
  [.ended .done, .vectors [[1, 2, 3]], .ended written, .ended .done]

theorem retried_asked : ∃ s : Alone,
    Run (Alone.step epochStamp id letters) (Proper letters) { table := [noteRow "tea"] }
      (noteRound (.failed .notFound) ++ noteRound .done ++ [.ended .done]) s ∧
    s.failures = 1 ∧ s.asked ≤ 1 / 50 + 2 :=
  exists_run_and (by decide +kernel) fun ran one =>
    (asked_le_of_failures_le (by decide) ran one.le).1

/-- One row whose writes all fail is embedded again and again. -/
theorem run_failing (k : ℕ) :
    Run (Alone.step epochStamp id letters) (Proper letters) { table := [noteRow "tea"] }
      (List.replicate k (noteRound (.failed .notFound))).flatten
      { table := [noteRow "tea"], asked := k, failures := k } := by
  induction k with
  | zero => exact .nil _
  | succ k ih =>
    rw [replicate_succ', flatten_append, flatten_singleton]
    refine ih.append (run_of_checkedExec ?_)
    rfl

/-- **The backfill does not end**: one row, three requests, and it begins anew. -/
theorem failing_asked : ∃ s : Alone,
    Run (Alone.step epochStamp id letters) (Proper letters) { table := [noteRow "tea"] }
      (List.replicate 3 (noteRound (.failed .notFound))).flatten s ∧
    s.call = .scanning ∧
      ¬ s.asked ≤ ([noteRow "tea"].filter (needsVector letters.dimensions)).length / 50 + 2 :=
  ⟨_, run_failing 3, rfl, by decide⟩

end Havn.Runtime.MemoryVectors
