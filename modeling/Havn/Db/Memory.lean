import Havn.Lib.Except
import Havn.Lib.Keyed
import Havn.Lib.Machine
import Havn.Db.Gateway

/-!
# The agent's memory table

`havn-db/src/agent/memory.rs`.  A row is never deleted.  It is active until it is superseded,
forgotten or aged, and because of `UNIQUE(key)` all of these but the last rename its key.

The table is a list of rows in insertion order.  A statement fails where a constraint of the schema
would and then rolls its transaction back.  SQLite's `strftime` is a parameter, and each statement
takes its own reading of the clock, in milliseconds.
-/

namespace Havn.Db.Memory

open Lib List

inductive Kind where
  | identity
  | preference
  | project
  | event
  deriving DecidableEq

inductive Source where
  | userTold
  | agentInferred
  deriving DecidableEq

def Kind.asStr : Kind → String
  | .identity => "identity"
  | .preference => "preference"
  | .project => "project"
  | .event => "event"

def Kind.parse : String → Option Kind
  | "identity" => some .identity
  | "preference" => some .preference
  | "project" => some .project
  | "event" => some .event
  | _ => none

def Source.parse : String → Option Source
  | "user_told" => some .userTold
  | "agent_inferred" => some .agentInferred
  | _ => none

def Kind.defaultTtlDays : Kind → Source → Option ℤ
  | .identity, _ | .preference, .userTold => none
  | .preference, .agentInferred | .project, .userTold => some 180
  | .project, .agentInferred | .event, .userTold => some 90
  | .event, .agentInferred => some 30

/-- Instants are milliseconds; `archivedAt = none` is an active row. -/
structure Entry where
  id : String
  key : String
  value : String
  kind : Kind
  source : Source
  ttlDays : Option ℤ
  archivedAt : Option ℕ := none
  createdAt : ℕ
  updatedAt : ℕ
  recallCount : ℕ := 0
  lastRecalledAt : Option ℕ := none
  supersedesId : Option String := none
  /-- The vector as the bit patterns of its `f32` components, with its length. -/
  embedding : Option (List UInt32 × ℕ) := none
  deriving DecidableEq

abbrev Entry.Active (row : Entry) : Prop := row.archivedAt = none

structure NewEntry where
  key : String
  value : String
  kind : Kind
  source : Source
  ttlDays : Option ℤ := none
  deriving DecidableEq

def NewEntry.ttl (new : NewEntry) : Option ℤ :=
  new.ttlDays.or (new.kind.defaultTtlDays new.source)

abbrev Table := List Entry

variable (t : Table)

def ids : List String := t.map Entry.id

def keys : List String := t.map Entry.key

theorem ids_map {t : Table} {g : Entry → Entry} (same : ∀ row ∈ t, (g row).id = row.id) :
    ids (t.map g) = ids t := by
  rw [ids, ids, map_map]
  exact map_congr_left same

theorem keys_map {t : Table} {g : Entry → Entry} (same : ∀ row ∈ t, (g row).key = row.key) :
    keys (t.map g) = keys t := by
  rw [keys, keys, map_map]
  exact map_congr_left same

/-! ## SQL statements -/

/-- `UPDATE memory SET … WHERE …`, refused when it breaks `UNIQUE(key)`. -/
def update (selected : Entry → Bool) (set : Entry → Entry) : Except DbError Table :=
  let t' := t.map fun row => if selected row then set row else row
  if (keys t').Nodup then .ok t' else .error (.sqlx "UNIQUE constraint failed: memory.key")

/-- Refused when it breaks the primary key, `UNIQUE(key)` or the foreign key of `supersedes_id`. -/
def insert (row : Entry) : Except DbError Table :=
  if row.id ∈ ids t then .error (.sqlx "UNIQUE constraint failed: memory.id")
  else if row.key ∈ keys t then .error (.sqlx "UNIQUE constraint failed: memory.key")
  else if ∃ old ∈ row.supersedesId, old ∉ ids t then .error (.sqlx "FOREIGN KEY constraint failed")
  else .ok (t ++ [row])

/-! ## Operations -/

structure Readings where
  archive : ℕ
  suffix : ℕ
  insert : ℕ
  deriving DecidableEq

def get (key : String) : Option Entry :=
  t.find? fun row => row.key = key ∧ row.Active

section Operations

variable (strftime : ℕ → String) (t : Table)

def newRow (new : NewEntry) (id : String) (supersedes : Option String) (now : ℕ) : Entry where
  id := id
  key := new.key
  value := new.value
  kind := new.kind
  source := new.source
  ttlDays := new.ttl
  createdAt := now
  updatedAt := now
  supersedesId := supersedes

def markKey (id mark : String) (now : ℕ) : Except DbError Table :=
  update t (·.id = id) fun row => { row with key := row.key ++ mark ++ strftime now }

def rememberTx (new : NewEntry) (id : String) (now : Readings) : Except DbError Table :=
  match t.find? (·.key = new.key) with
  | none => insert t (newRow new id none now.insert)
  | some old =>
    if old.Active then
      if old.value = new.value ∧ old.kind = new.kind then
        -- same content: refresh in place
        update t (·.key = new.key) fun row =>
          { row with source := new.source, ttlDays := new.ttl, updatedAt := now.insert }
      else do
        let t₁ ← update t (·.id = old.id) fun row => { row with archivedAt := some now.archive }
        let t₂ ← markKey strftime t₁ old.id "@archived:" now.suffix
        insert t₂ (newRow new id (some old.id) now.insert)
    else do
      let t₁ ← markKey strftime t old.id "@reactivated:" now.suffix
      insert t₁ (newRow new id (some old.id) now.insert)

def remember (new : NewEntry) (id : String) (now : Readings) : Except DbError (Table × String) := do
  let t' ← rememberTx strftime t new id now
  return (t', ((get t' new.key).map Entry.id).getD "")

def forget (key : String) (now : ℕ) : Except DbError Table :=
  update t (fun row => row.key = key ∧ row.Active) fun row =>
    { row with archivedAt := some now, key := row.key ++ "@forgotten:" ++ strftime now }

def dayMillis : ℤ := 86400000

/-- `julianday('now') - julianday(COALESCE(last_recalled_at, updated_at)) >= ttl_days`. -/
def Expired (now : ℕ) (row : Entry) : Prop :=
  row.Active ∧ ∃ ttl ∈ row.ttlDays,
    ttl * dayMillis ≤ (now : ℤ) - ((row.lastRecalledAt.getD row.updatedAt : ℕ) : ℤ)
  deriving Decidable

def ageExpired (now : ℕ) : Except DbError Table :=
  update t (fun row => Expired now row) fun row => { row with archivedAt := some now }

def recallBumpTopK : ℕ := 3

/-- `ranked` are the ids the full-text index matches, best first. -/
def searchRows (ranked : List String) (kinds : List Kind) (limit : ℕ) : List Entry :=
  ((ranked.filterMap fun id => t.find? (·.id = id)).filter fun row =>
    row.Active ∧ (kinds = [] ∨ row.kind ∈ kinds)).take limit

def bumpRecall (bumped : List String) (now : ℕ) : Except DbError Table :=
  if bumped = [] then .ok t
  else
    update t (·.id ∈ bumped) fun row =>
      { row with recallCount := row.recallCount + 1, lastRecalledAt := some now }

def search (ranked : List String) (kinds : List Kind) (limit now : ℕ) : Except DbError Table :=
  bumpRecall t (((searchRows t ranked kinds limit).take recallBumpTopK).map Entry.id) now

def setEmbeddingById (id : String) (vector : List UInt32) : Except DbError Table :=
  update t (fun row => row.id = id ∧ row.Active) fun row =>
    { row with embedding := some (vector, vector.length) }

def setEmbedding (key : String) (vector : List UInt32) : Except DbError Table :=
  update t (fun row => row.key = key ∧ row.Active) fun row =>
    { row with embedding := some (vector, vector.length) }

/-! ## The store as a machine -/

inductive Op where
  | remember (new : NewEntry) (id : String) (now : Readings)
  | forget (key : String) (now : ℕ)
  | ageExpired (now : ℕ)
  | search (ranked : List String) (kinds : List Kind) (limit now : ℕ)
  | setEmbedding (key : String) (vector : List UInt32)
  | setEmbeddingById (id : String) (vector : List UInt32)

def Op.run : Op → Except DbError Table
  | .remember new id now => (Memory.remember strftime t new id now).map Prod.fst
  | .forget key now => Memory.forget strftime t key now
  | .ageExpired now => Memory.ageExpired t now
  | .search ranked kinds limit now => Memory.search t ranked kinds limit now
  | .setEmbedding key vector => Memory.setEmbedding t key vector
  | .setEmbeddingById id vector => Memory.setEmbeddingById t id vector

def step (op : Op) : Option Table := (op.run strftime t).toOption

end Operations

/-! ## What every statement keeps -/

/-- The same row later: perhaps renamed, archived, refreshed or recalled, but with its content and
link. -/
structure Continues (row row' : Entry) : Prop where
  id : row'.id = row.id
  value : row'.value = row.value
  kind : row'.kind = row.kind
  supersedesId : row'.supersedesId = row.supersedesId
  archived : ∀ at', row.archivedAt = some at' → row'.archivedAt = some at'

def Evolves (t t' : Table) : Prop := ∀ row ∈ t, ∃ row' ∈ t', Continues row row'

/-- The constraints of the schema, and links to archived rows that were inserted earlier. -/
structure WellFormed : Prop where
  nodupIds : (ids t).Nodup
  nodupKeys : (keys t).Nodup
  linked : ∀ row ∈ t, ∀ old, row.supersedesId = some old →
    (∃ row' ∈ t, row'.id = old ∧ ¬ row'.Active) ∧
      (ids t).idxOf old < (ids t).idxOf row.id

theorem Continues.refl (row : Entry) : Continues row row := ⟨rfl, rfl, rfl, rfl, fun _ h => h⟩

theorem Continues.trans {r₁ r₂ r₃ : Entry} (first : Continues r₁ r₂) (second : Continues r₂ r₃) :
    Continues r₁ r₃ where
  id := second.id.trans first.id
  value := second.value.trans first.value
  kind := second.kind.trans first.kind
  supersedesId := second.supersedesId.trans first.supersedesId
  archived := fun at' h => second.archived at' (first.archived at' h)

theorem Continues.not_active {row row' : Entry} (continues : Continues row row')
    (archived : ¬ row.Active) : ¬ row'.Active := by
  obtain ⟨at', set⟩ := Option.ne_none_iff_exists'.mp archived
  simp [Entry.Active, continues.archived at' set]

theorem Evolves.refl : Evolves t t := fun row mem => ⟨row, mem, .refl row⟩

theorem Evolves.trans {t₁ t₂ t₃ : Table} (first : Evolves t₁ t₂) (second : Evolves t₂ t₃) :
    Evolves t₁ t₃ := by
  intro row mem
  obtain ⟨row₂, mem₂, continues₂⟩ := first row mem
  obtain ⟨row₃, mem₃, continues₃⟩ := second row₂ mem₂
  exact ⟨row₃, mem₃, continues₂.trans continues₃⟩

section Statements

variable {t t' : Table} {selected : Entry → Bool} {set : Entry → Entry} {row : Entry}

theorem update_eq_ok (done : update t selected set = .ok t') :
    t' = t.map (fun row => if selected row then set row else row) ∧ (keys t').Nodup := by
  simp only [update] at done
  split at done
  · rename_i nodup
    cases done
    exact ⟨rfl, nodup⟩
  · cases done

theorem mem_of_update (done : update t selected set = .ok t') (mem : row ∈ t) :
    (if selected row then set row else row) ∈ t' := by
  rw [(update_eq_ok done).1]
  exact mem_map_of_mem mem

theorem insert_eq_ok (done : insert t row = .ok t') :
    t' = t ++ [row] ∧ row.id ∉ ids t ∧ row.key ∉ keys t ∧
      ∀ old, row.supersedesId = some old → old ∈ ids t := by
  unfold insert at done
  split at done
  · cases done
  split at done
  · cases done
  split at done
  · cases done
  rename_i freshId freshKey linked
  cases done
  refine ⟨rfl, freshId, freshKey, fun old link => ?_⟩
  by_contra absent
  exact linked ⟨old, link, absent⟩

/-- **An update whose rows continue keeps the table well formed.** -/
theorem WellFormed.of_update (wf : WellFormed t) (done : update t selected set = .ok t')
    (continues : ∀ row ∈ t, selected row → Continues row (set row)) :
    WellFormed t' ∧ Evolves t t' := by
  obtain ⟨mapped, nodup⟩ := update_eq_ok done
  have each : ∀ row ∈ t, Continues row (if selected row then set row else row) := by
    intro row mem
    split
    · exact continues row mem (by assumption)
    · exact .refl row
  have evolves : Evolves t t' := fun row mem => ⟨_, mem_of_update done mem, each row mem⟩
  have sameIds : ids t' = ids t := by
    rw [mapped]
    exact ids_map fun row mem => (each row mem).id
  refine ⟨⟨sameIds ▸ wf.nodupIds, nodup, ?_⟩, evolves⟩
  intro row' mem' old link
  rw [mapped] at mem'
  obtain ⟨row, mem, rfl⟩ := mem_map.mp mem'
  rw [(each row mem).supersedesId] at link
  obtain ⟨⟨target, targetMem, isOld, archived⟩, earlier⟩ := wf.linked row mem old link
  obtain ⟨target', targetMem', follows⟩ := evolves target targetMem
  rw [sameIds, (each row mem).id]
  exact ⟨⟨target', targetMem', follows.id.trans isOld, follows.not_active archived⟩, earlier⟩

/-- **An insert that links to an archived row keeps the table well formed.** -/
theorem WellFormed.of_insert (wf : WellFormed t) (done : insert t row = .ok t')
    (linked : ∀ old, row.supersedesId = some old → ∃ row' ∈ t, row'.id = old ∧ ¬ row'.Active) :
    WellFormed t' ∧ Evolves t t' := by
  obtain ⟨rfl, freshId, freshKey, -⟩ := insert_eq_ok done
  have newIds : ids (t ++ [row]) = ids t ++ [row.id] := by simp [ids]
  refine ⟨⟨?_, ?_, ?_⟩, fun row mem => ⟨row, mem_append_left _ mem, .refl row⟩⟩
  · rw [newIds, ← concat_eq_append]
    exact wf.nodupIds.concat freshId
  · have newKeys : keys (t ++ [row]) = keys t ++ [row.key] := by simp [keys]
    rw [newKeys, ← concat_eq_append]
    exact wf.nodupKeys.concat freshKey
  · intro row' mem' old link
    rw [newIds]
    rcases mem_snoc.mp mem' with before | rfl
    · obtain ⟨⟨target, targetMem, isOld, archived⟩, earlier⟩ := wf.linked row' before old link
      have oldMem : old ∈ ids t := mem_map.mpr ⟨target, targetMem, isOld⟩
      have rowMem : row'.id ∈ ids t := mem_map_of_mem before
      rw [idxOf_append_of_mem oldMem, idxOf_append_of_mem rowMem]
      exact ⟨⟨target, mem_append_left _ targetMem, isOld, archived⟩, earlier⟩
    · obtain ⟨target, targetMem, isOld, archived⟩ := linked old link
      have oldMem : old ∈ ids t := mem_map.mpr ⟨target, targetMem, isOld⟩
      refine ⟨⟨target, mem_append_left _ targetMem, isOld, archived⟩, ?_⟩
      rw [idxOf_append_of_mem oldMem, idxOf_append_of_notMem freshId]
      exact Nat.lt_of_lt_of_le (idxOf_lt_length_iff.mpr oldMem) (Nat.le_add_right _ _)

theorem get_eq_some (wf : WellFormed t) (mem : row ∈ t) (active : row.Active) :
    get t row.key = some row :=
  find?_eq_some_of_unique wf.nodupKeys mem (by simpa using active)
    fun _ selected => (of_decide_eq_true selected).1

end Statements

/-! ## What every operation keeps -/

variable {id : String}

section Operations

variable {strftime : ℕ → String} {t t' : Table} {now : Readings} {new : NewEntry}

theorem WellFormed.of_markKey (wf : WellFormed t) {mark : String} {now : ℕ}
    (done : markKey strftime t id mark now = .ok t') : WellFormed t' ∧ Evolves t t' :=
  wf.of_update done fun _ _ _ => ⟨rfl, rfl, rfl, rfl, fun _ h => h⟩

inductive RememberSpec (strftime : ℕ → String) (t : Table) (new : NewEntry) (id : String)
    (now : Readings) (t' : Table) : Prop
  | fresh (absent : new.key ∉ keys t)
      (inserted : insert t (newRow new id none now.insert) = .ok t')
  | refreshed (old : Entry) (mem : old ∈ t) (sameKey : old.key = new.key) (active : old.Active)
      (sameValue : old.value = new.value) (sameKind : old.kind = new.kind)
      (updated : update t (·.key = new.key) (fun row =>
        { row with source := new.source, ttlDays := new.ttl, updatedAt := now.insert }) = .ok t')
  | superseded (old : Entry) (mem : old ∈ t) (sameKey : old.key = new.key) (active : old.Active)
      (t₁ t₂ : Table)
      (archived : update t (·.id = old.id) (fun row =>
        { row with archivedAt := some now.archive }) = .ok t₁)
      (renamed : markKey strftime t₁ old.id "@archived:" now.suffix = .ok t₂)
      (inserted : insert t₂ (newRow new id (some old.id) now.insert) = .ok t')
  | reactivated (old : Entry) (mem : old ∈ t) (sameKey : old.key = new.key)
      (inactive : ¬ old.Active) (t₁ : Table)
      (renamed : markKey strftime t old.id "@reactivated:" now.suffix = .ok t₁)
      (inserted : insert t₁ (newRow new id (some old.id) now.insert) = .ok t')

theorem rememberTx_spec
    (done : rememberTx strftime t new id now = .ok t') : RememberSpec strftime t new id now t' := by
  simp only [rememberTx] at done
  split at done
  · rename_i absent
    refine .fresh ?_ done
    intro mem
    obtain ⟨row, rowMem, sameKey⟩ := mem_map.mp mem
    have differs := find?_eq_none.mp absent row rowMem
    simp [sameKey] at differs
  · rename_i old found
    have mem := mem_of_find?_eq_some found
    have sameKey : old.key = new.key := by simpa using find?_some found
    split at done
    · rename_i active
      split at done
      · rename_i same
        exact .refreshed old mem sameKey active same.1 same.2 done
      · obtain ⟨t₁, archived, rest⟩ := bind_eq_ok.mp done
        obtain ⟨t₂, renamed, inserted⟩ := bind_eq_ok.mp rest
        exact .superseded old mem sameKey active t₁ t₂ archived renamed inserted
    · rename_i inactive
      obtain ⟨t₁, renamed, inserted⟩ := bind_eq_ok.mp done
      exact .reactivated old mem sameKey inactive t₁ renamed inserted

theorem WellFormed.of_remember (wf : WellFormed t)
    (spec : RememberSpec strftime t new id now t') : WellFormed t' ∧ Evolves t t' := by
  cases spec with
  | fresh absent inserted => exact wf.of_insert inserted fun _ isLink => by cases isLink
  | refreshed old mem sameKey active sameValue sameKind updated =>
    exact wf.of_update updated fun _ _ _ => ⟨rfl, rfl, rfl, rfl, fun _ h => h⟩
  | superseded old mem sameKey active t₁ t₂ archived renamed inserted =>
    obtain ⟨wf₁, evolves₁⟩ := wf.of_update archived fun row rowMem isOld => by
      -- the one row with that id is still active
      obtain rfl : row = old :=
        inj_on_of_nodup_map wf.nodupIds rowMem mem (by simpa using isOld)
      exact ⟨rfl, rfl, rfl, rfl, fun _ h => by simp [active] at h⟩
    obtain ⟨wf₂, evolves₂⟩ := wf₁.of_markKey renamed
    have target := mem_of_update archived mem
    rw [if_pos (by simp)] at target
    obtain ⟨target₂, mem₂, continues₂⟩ := evolves₂ _ target
    obtain ⟨wf', evolves'⟩ := wf₂.of_insert inserted fun link isLink => by
      cases isLink
      exact ⟨target₂, mem₂, continues₂.id, continues₂.not_active (by simp)⟩
    exact ⟨wf', (evolves₁.trans evolves₂).trans evolves'⟩
  | reactivated old mem sameKey inactive t₁ renamed inserted =>
    obtain ⟨wf₁, evolves₁⟩ := wf.of_markKey renamed
    obtain ⟨target₁, mem₁, continues₁⟩ := evolves₁ old mem
    obtain ⟨wf', evolves'⟩ := wf₁.of_insert inserted fun link isLink => by
      cases isLink
      exact ⟨target₁, mem₁, continues₁.id, continues₁.not_active inactive⟩
    exact ⟨wf', evolves₁.trans evolves'⟩

theorem WellFormed.of_bumpRecall (wf : WellFormed t) {bumped : List String} {now : ℕ}
    (done : bumpRecall t bumped now = .ok t') : WellFormed t' ∧ Evolves t t' := by
  unfold bumpRecall at done
  split at done
  · cases done
    exact ⟨wf, .refl t⟩
  · exact wf.of_update done fun _ _ _ => ⟨rfl, rfl, rfl, rfl, fun _ h => h⟩

/-- **Every successful call keeps the table well formed and its rows.** -/
theorem WellFormed.of_step (wf : WellFormed t) {op : Op} (stepped : step strftime t op = some t') :
    WellFormed t' ∧ Evolves t t' := by
  have done := toOption_eq_some.mp stepped
  cases op with
  | remember =>
    obtain ⟨⟨t'', returned⟩, remembered, rfl⟩ := map_eq_ok.mp done
    obtain ⟨_, transacted, result⟩ := bind_eq_ok.mp remembered
    cases result
    exact wf.of_remember (rememberTx_spec transacted)
  | forget =>
    refine wf.of_update done fun row _ isActive => ?_
    simp only [decide_eq_true_eq] at isActive
    exact ⟨rfl, rfl, rfl, rfl, fun _ h => by simp [isActive.2] at h⟩
  | ageExpired =>
    refine wf.of_update done fun row _ expired => ?_
    simp only [decide_eq_true_eq] at expired
    exact ⟨rfl, rfl, rfl, rfl, fun _ h => by simp [expired.1] at h⟩
  | search => exact wf.of_bumpRecall done
  | setEmbedding | setEmbeddingById =>
    exact wf.of_update done fun _ _ _ => ⟨rfl, rfl, rfl, rfl, fun _ h => h⟩

theorem wellFormed_nil : WellFormed [] :=
  ⟨nodup_nil, nodup_nil, forall_mem_nil _⟩

theorem WellFormed.of_run (wf : WellFormed t) {guard : Table → Op → Prop} {ops : List Op}
    (run : Run (step strftime) guard t ops t') : WellFormed t' :=
  run.invariant (fun _ _ _ wf _ stepped => (wf.of_step stepped).1) wf

theorem get_of_remember (wf : WellFormed t) (spec : RememberSpec strftime t new id now t') :
    ∃ row, get t' new.key = some row ∧ row.value = new.value ∧ row.kind = new.kind := by
  have wf' := (wf.of_remember spec).1
  -- in three of the four cases the active row is the inserted one
  have ofInsert : ∀ {s : Table} {row : Entry}, insert s row = .ok t' → row.Active →
      row.key = new.key → row.value = new.value → row.kind = new.kind →
        ∃ row, get t' new.key = some row ∧ row.value = new.value ∧ row.kind = new.kind := by
    intro s row inserted active sameKey sameValue sameKind
    have mem : row ∈ t' := by simp [(insert_eq_ok inserted).1]
    exact ⟨row, sameKey ▸ get_eq_some wf' mem active, sameValue, sameKind⟩
  cases spec with
  | fresh absent inserted => exact ofInsert inserted rfl rfl rfl rfl
  | refreshed old mem sameKey active sameValue sameKind updated =>
    have refreshed := mem_of_update updated mem
    rw [if_pos (by simpa using sameKey)] at refreshed
    have found := get_eq_some wf' refreshed active
    simp only [sameKey] at found
    exact ⟨_, found, sameValue, sameKind⟩
  | superseded old mem sameKey active t₁ t₂ archived renamed inserted =>
    exact ofInsert inserted rfl rfl rfl rfl
  | reactivated old mem sameKey inactive t₁ renamed inserted =>
    exact ofInsert inserted rfl rfl rfl rfl

theorem length_of_remember_same (wf : WellFormed t) {row : Entry}
    (mem : row ∈ t) (active : row.Active) (sameKey : row.key = new.key)
    (sameValue : row.value = new.value) (sameKind : row.kind = new.kind)
    (done : rememberTx strftime t new id now = .ok t') : t'.length = t.length := by
  have found : t.find? (·.key = new.key) = some row :=
    find?_eq_some_of_unique wf.nodupKeys mem (by simpa using sameKey)
      fun _ selected => (of_decide_eq_true selected).trans sameKey.symm
  simp only [rememberTx, found, if_pos active, if_pos (And.intro sameValue sameKind)] at done
  rw [(update_eq_ok done).1, length_map]

end Operations

/-! ## Whole histories -/

def Supersedes (id old : String) : Prop :=
  ∃ row ∈ t, row.id = id ∧ row.supersedesId = some old

theorem WellFormed.acyclic {t : Table} (wf : WellFormed t) (id : String) :
    ¬ Relation.TransGen (Supersedes t) id id := by
  have back : ∀ {id old : String}, Supersedes t id old →
      (ids t).idxOf old < (ids t).idxOf id := by
    rintro _ old ⟨row, mem, rfl, link⟩
    exact (wf.linked row mem old link).2
  have walk : ∀ {id old : String}, Relation.TransGen (Supersedes t) id old →
      (ids t).idxOf old < (ids t).idxOf id := by
    intro id old path
    induction path with
    | single link => exact back link
    | tail _ link ih => exact (back link).trans ih
  exact fun cycle => (walk cycle).false

/-- The laws of the store in a state `t`, and along everything that can happen
after it. -/
structure StoreLaws (strftime : ℕ → String) (t : Table) : Prop where
  oneRow : (ids t).Nodup
  oneActive : ∀ row ∈ t, ∀ row' ∈ t, row.Active → row'.Active → row.key = row'.key → row = row'
  linked : ∀ row ∈ t, ∀ old, row.supersedesId = some old →
    ∃ row' ∈ t, row'.id = old ∧ ¬ row'.Active
  acyclic : ∀ id, ¬ Relation.TransGen (Supersedes t) id id
  kept : ∀ ops t', Run (step strftime) anyStep t ops t' → Evolves t t'
  remembered : ∀ new id now t' returned, remember strftime t new id now = .ok (t', returned) →
    ∃ row, get t' new.key = some row ∧ row.value = new.value ∧ row.kind = new.kind
  repeated : ∀ new id now t' returned, remember strftime t new id now = .ok (t', returned) →
    (∃ row ∈ t, row.Active ∧ row.key = new.key ∧ row.value = new.value ∧ row.kind = new.kind) →
      t'.length = t.length

/-- **The store laws hold after every history of successful calls.** -/
theorem storeLaws_of_history (strftime : ℕ → String) {ops : List Op} {t : Table}
    (history : Run (step strftime) anyStep [] ops t) : StoreLaws strftime t := by
  have wf : WellFormed t := wellFormed_nil.of_run history
  constructor
  · exact wf.nodupIds
  · intro row mem row' mem' _ _ sameKey
    exact inj_on_of_nodup_map wf.nodupKeys mem mem' sameKey
  · intro row mem old link
    exact (wf.linked row mem old link).1
  · exact wf.acyclic
  · intro ops t' later
    exact later.related WellFormed Evolves.refl (fun _ _ _ => Evolves.trans)
      (fun _ _ _ wf _ stepped => (wf.of_step stepped).1)
      (fun _ _ _ wf _ stepped => (wf.of_step stepped).2) wf
  · intro new id now t' returned done
    obtain ⟨_, transacted, result⟩ := bind_eq_ok.mp done
    cases result
    exact get_of_remember wf (rememberTx_spec transacted)
  · rintro new id now t' returned done ⟨row, mem, active, sameKey, sameValue, sameKind⟩
    obtain ⟨_, transacted, result⟩ := bind_eq_ok.mp done
    cases result
    exact length_of_remember_same wf mem active sameKey sameValue sameKind transacted

def epochStamp (ms : ℕ) : String := "1970-01-01T00:00:00.00" ++ toString ms ++ "Z"

def noteHistory : List Op :=
  [.remember ⟨"editor", "vim", .project, .userTold, none⟩ "a" ⟨1, 1, 1⟩,
    .search ["a"] [] 10 2,
    .remember ⟨"editor", "emacs", .project, .userTold, some 0⟩ "b" ⟨3, 3, 3⟩,
    .setEmbedding "editor" [1, 2],
    .ageExpired 4,
    .remember ⟨"editor", "ed", .project, .agentInferred, none⟩ "c" ⟨5, 5, 5⟩,
    .forget "editor" 6,
    .remember ⟨"editor@forgotten", "vim", .event, .userTold, none⟩ "d" ⟨7, 7, 7⟩]

theorem storeLaws_of_noteHistory :
    ∃ t : Table, Run (step epochStamp) anyStep [] noteHistory t ∧ t.length = 4 ∧
      StoreLaws epochStamp t :=
  exists_run_and (by decide +kernel) fun ran _ => storeLaws_of_history epochStamp ran

end Havn.Db.Memory
