import Havn.Lib.Rfc3339
import Havn.Lib.Table

/-!
# The skills index

`havn-db/src/agent/skills_index.rs` and the statements on its table in `havn-runtime`: one row for
each skill the agent has or had.  Archiving only sets a column.  Times are milliseconds.
-/

namespace Havn.Db.SkillsIndex

open Lib

inductive Source
  | bundled
  | workspace
deriving DecidableEq

structure SkillRow where
  id : String
  name : String
  description : String
  body : String
  installedAt : ℤ
  source : Source := .workspace
  pinned : Bool := false
  lastUsedAt : Option ℤ := none
  useCount : ℤ := 0
  archivedAt : Option ℤ := none
  embedding : Option (List UInt32) := none
  embeddingDim : Option ℕ := none
deriving DecidableEq

abbrev Index := Table SkillRow SkillRow.name

structure CuratableSkill where
  id : String
  name : String
  description : String
  body : String
  source : Source
  pinned : Bool
  lastUsedAt : Option ℤ
  useCount : ℤ
deriving DecidableEq

variable (row : SkillRow)

def CuratableSkill.fromRow : CuratableSkill where
  id := row.id
  name := row.name
  description := row.description
  body := row.body
  source := row.source
  pinned := row.pinned
  lastUsedAt := row.lastUsedAt
  useCount := row.useCount

def SkillRow.active : Bool := row.archivedAt.isNone

def SkillRow.curatable : Bool :=
  row.source = .workspace && !row.pinned && row.active

/-- `ORDER BY (last_used_at IS NOT NULL), last_used_at, name`. -/
def SkillRow.coldness : Bool ×ₗ String ×ₗ String :=
  toLex (row.lastUsedAt.isSome, toLex ((row.lastUsedAt.map Rfc3339.stamp).getD "", row.name))

def listCuratable (limit : ℕ) (index : Index) : List CuratableSkill :=
  (((index.rows.filter SkillRow.curatable).insertionSort fun a b => a.coldness ≤ b.coldness).take
    limit).map CuratableSkill.fromRow

/-! ## Statements that write -/

/-- `SET archived_at = now WHERE name = ? AND archived_at IS NULL`, and whether a row was
flipped. -/
def archive (now : ℤ) (name : String) (index : Index) : Bool × Index :=
  (index.rows.any fun row => row.name = name && row.active,
    index.update (fun row => row.name = name && row.active)
      (fun row => { row with archivedAt := some now }) fun _ => rfl)

variable (name : String)

def setPinned (pinned : Bool) (index : Index) : Bool × Index :=
  (index.rows.any fun row => row.name = name,
    index.update (fun row => row.name = name) (fun row => { row with pinned := pinned })
      fun _ => rfl)

def bumpUseFor (now : ℤ) (ids : List String) (index : Index) : Index :=
  index.update (fun row => row.id ∈ ids)
    (fun row => { row with useCount := row.useCount + 1, lastUsedAt := some now }) fun _ => rfl

def setEmbedding (vector : List UInt32) (index : Index) : Bool × Index :=
  (index.rows.any fun row => row.name = name && row.active,
    index.update (fun row => row.name = name && row.active)
      (fun row => { row with embedding := some vector, embeddingDim := some vector.length })
      fun _ => rfl)

/-- The statement of `reindex_one`, and of `write_umbrella`, which names the default source. -/
def upsertText (now : ℤ) (id name description body : String) (index : Index) : Index :=
  index.upsert { id, name, description, body, installedAt := now }
    (fun row => { row with description := description, body := body }) fun _ => rfl

def upsertSkill (now : ℤ) (id name description body : String) (source : Source)
    (index : Index) : Index :=
  index.upsert { id, name, description, body, source, installedAt := now }
    (fun row => { row with description := description, body := body, source := source })
    fun _ => rfl

def deleteByName (index : Index) : Index :=
  index.delete fun row => row.name = name

/-! ## What the statements leave -/

variable {index : Index} {k name : String}

theorem find_archive (now : ℤ) : (archive now name index).2.find k =
    (index.find k).map fun row =>
      if row.name = name && row.active then { row with archivedAt := some now } else row := by
  rw [archive, Table.find_update]

theorem find_archive_of_ne (now : ℤ) (other : k ≠ name) :
    (archive now name index).2.find k = index.find k := by
  rw [find_archive]
  cases found : index.find k with
  | none => rfl
  | some =>
    have named := (Table.find_eq_some.mp found).2
    rw [Option.map_some, if_neg (by simp [named, other])]

theorem find_upsertText {now : ℤ} {id description body : String} :
    (upsertText now id name description body index).find k =
      if k = name then
        some ((index.find name).elim { id, name, description, body, installedAt := now }
          fun row => { row with description := description, body := body })
      else index.find k := by
  rw [upsertText, Table.find_upsert]

theorem mem_listCuratable {limit : ℕ} {skill : CuratableSkill}
    (listed : skill ∈ listCuratable limit index) :
    ∃ row ∈ index.rows, row.curatable = true ∧ skill = .fromRow row := by
  obtain ⟨row, taken, rfl⟩ := List.mem_map.mp listed
  have sorted := (List.mem_insertionSort _).mp (List.mem_of_mem_take taken)
  exact ⟨row, List.mem_of_mem_filter sorted, (List.mem_filter.mp sorted).2, rfl⟩

end Havn.Db.SkillsIndex
