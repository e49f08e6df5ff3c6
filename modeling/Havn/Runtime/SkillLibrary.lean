import Havn.Lib.Machine
import Havn.Runtime.CuratorLaws

/-!
# Histories of a skill library

The agent's skills over time: the tool's actions, start-up indexing, use, and
curator passes, in any order.
-/

namespace Havn.Runtime.Skills

open Lib Db Db.SkillsIndex Curator
open ToolLoop (ToolResult)

inductive Label
  | act (action : Action)
  | startup
  | use (ids : List String)
  | pass

def step (bridge : Bridge) (world : World) : Label → Option World
  | .act action => some (bridge.host.execute action world).2
  | .startup => some (bridge.host.startup world)
  | .use ids =>
    some (bridge.host.statement (fun now index => ((), bumpUseFor now ids index)) world).2
  | .pass => some (runPass bridge world).2

def untouched (tree : FileTree.Tree) : World := ⟨tree, ∅, 0⟩

/-! ## Creating a skill -/

section Create

variable {host : Host} {name description body : String} {version : Option String}
  {triggers : List String} {text : String} {world world' : World}

/-- A successful creation has written the file, in three operations that leave the index alone. -/
theorem create_eq_ok
    (created : host.create name description body version triggers world = (.ok text, world')) :
    ∃ filed : World, filed.index = world.index ∧ filed.ops = world.ops + 3 ∧
      world' = host.embedAndPersist name description
        (host.reindexOne (renderSkillMd name description body version triggers) filed).2 := by
  unfold Host.create at created
  split at created
  · cases created
  split at created
  · cases created
  split at created
  · cases created
  split at created
  · cases created
  split at created
  rename_i looked
  split at created
  · cases created
  split at created
  · cases created
  rename_i made
  unfold Host.store at created
  split at created
  · cases created
  rename_i filed wrote
  split at created
  rename_i reindexed
  refine ⟨filed, ?_, ?_, ?_⟩
  · rw [Host.index_of_io wrote, Host.index_of_io made, Host.index_of_io looked]
  · rw [Host.ops_of_io wrote, Host.ops_of_io made, Host.ops_of_io looked]
  · rw [reindexed]
    exact (Prod.mk.inj created).2.symm

theorem index_reindexOne {content : String} {skill : LoadedSkill}
    (parses : parseSkill host.yaml content = .ok skill) (free : host.fault (world.ops + 1) = none) :
    ∃ now id, (host.reindexOne content world).2.index =
      upsertText now id skill.name skill.description skill.body world.index := by
  refine ⟨millis (host.clock (world.ops + 1)), host.newId world.ops, ?_⟩
  simp only [Host.reindexOne, parses, Host.fresh, Host.statement, World.tick, free]

theorem find_embedAndPersist (host : Host) (name description : String) (world : World)
    (k : String) : ∃ f : SkillRow → SkillRow,
      (∀ row, (f row).description = row.description ∧ (f row).body = row.body ∧
        (f row).archivedAt = row.archivedAt) ∧
      (host.embedAndPersist name description world).index.find k = (world.index.find k).map f := by
  have unchanged : ∃ f : SkillRow → SkillRow,
      (∀ row, (f row).description = row.description ∧ (f row).body = row.body ∧
        (f row).archivedAt = row.archivedAt) ∧
      world.index.find k = (world.index.find k).map f :=
    ⟨id, fun _ => ⟨rfl, rfl, rfl⟩, by simp⟩
  unfold Host.embedAndPersist
  split
  · exact unchanged
  · split
    · exact unchanged
    · rename_i vector embedded
      cases stated : host.statement (fun _ index => setEmbedding name vector index) world.tick with
      | mk =>
        rcases Host.statement_cases stated with ⟨text, -, -, rfl⟩ | ⟨-, -, rfl⟩
        · exact unchanged
        · refine ⟨fun row => if row.name = name && row.active then
            { row with embedding := some vector, embeddingDim := some vector.length } else row,
            fun row => ?_, ?_⟩
          · dsimp only
            split
            · exact ⟨rfl, rfl, rfl⟩
            · exact ⟨rfl, rfl, rfl⟩
          · show (setEmbedding name vector world.index).2.find k = _
            rw [setEmbedding, Table.find_update]

theorem find_created {skill : LoadedSkill}
    (created : host.create name description body version triggers world = (.ok text, world'))
    (parses : parseSkill host.yaml (renderSkillMd name description body version triggers) =
      .ok skill) (named : skill.name = name) (indexed : host.fault (world.ops + 4) = none) :
    ∃ row, world'.index.find name = some row ∧ row.description = skill.description ∧
      row.body = skill.body ∧ row.archivedAt = (world.index.find name).bind (·.archivedAt) := by
  obtain ⟨filed, sameIndex, threeOps, rfl⟩ := create_eq_ok created
  rw [← sameIndex]
  subst named
  have free : host.fault (filed.ops + 1) = none := by
    rw [threeOps]
    exact indexed
  obtain ⟨now, id, upserted⟩ := index_reindexOne parses free
  obtain ⟨f, keeps, embedded⟩ := find_embedAndPersist host skill.name description
    (host.reindexOne (renderSkillMd skill.name description body version triggers) filed).2
      skill.name
  rw [upserted, find_upsertText, if_pos rfl] at embedded
  refine ⟨_, embedded, (keeps _).1.trans ?_, (keeps _).2.1.trans ?_, (keeps _).2.2.trans ?_⟩
  all_goals
    cases found : filed.index.find skill.name with
    | none => rfl
    | some => rfl

def Retrievable (index : Index) (skill : LoadedSkill) : Prop :=
  ∃ row, index.find skill.name = some row ∧ row.active = true ∧
    row.description = skill.description ∧ row.body = skill.body

/-- **When a created skill can be retrieved**: where its file parses and the index could be written,
exactly if its name was not archived. -/
theorem created_retrievable_iff {skill : LoadedSkill}
    (created : host.create name description body version triggers world = (.ok text, world'))
    (parses : parseSkill host.yaml (renderSkillMd name description body version triggers) =
      .ok skill) (named : skill.name = name) (indexed : host.fault (world.ops + 4) = none) :
    Retrievable world'.index skill ↔
      ∀ row, world.index.find name = some row → row.active = true := by
  obtain ⟨row, found, described, sameBody, archived⟩ := find_created created parses named indexed
  subst named
  constructor
  · rintro ⟨row', found', active, -, -⟩ old isOld
    cases found.symm.trans found'
    rw [isOld] at archived
    rw [SkillRow.active, archived] at active
    exact active
  · intro active
    refine ⟨row, found, ?_, described, sameBody⟩
    rw [SkillRow.active, archived]
    cases isOld : world.index.find skill.name with
    | none => rfl
    | some old => exact active old isOld

end Create

/-! ## A name that is used again -/

def succeeded (check : World → Bool) : ToolResult × World → Bool
  | (.ok _, world') => check world'
  | (.error _, _) => false

theorem exists_of_succeeded {check : World → Bool} {run : ToolResult × World}
    (success : succeeded check run = true) :
    ∃ text world', run = (.ok text, world') ∧ check world' = true := by
  obtain ⟨result, world'⟩ := run
  cases result with
  | ok text => exact ⟨text, world', rfl, success⟩
  | error => cases success

def readsNote (text : String) : Except String FrontMatter :=
  if text = renderFrontMatter "note" "Take a note." none [] then
    .ok { name := some "note", description := some "Take a note." }
  else .error "unknown"

def noteBridge : Bridge := calmBridge (calmHost readsNote (someTime * 1000000)) {}

def createNote : World → ToolResult × World :=
  noteBridge.host.create "note" "Take a note." "Write it down." none []

def noteSkill : LoadedSkill where
  name := "note"
  description := "Take a note."
  version := none
  userInvocable := false
  triggers := []
  body := "Write it down."

theorem note_parses : parseSkill readsNote
    (renderSkillMd "note" "Take a note." "Write it down." none []) = .ok noteSkill := by
  decide +kernel

theorem new_note_retrievable : ∃ text world', createNote (untouched ∅) = (.ok text, world') ∧
    Retrievable world'.index noteSkill := by
  have success : succeeded (fun _ => true) (createNote (untouched ∅)) = true := by decide +kernel
  obtain ⟨text, world', created, -⟩ := exists_of_succeeded success
  refine ⟨text, world', created, (created_retrievable_iff created note_parses rfl rfl).mpr ?_⟩
  exact fun row isRow => absurd isRow.symm (Option.some_ne_none row)

/-- **Created again after the curator archived it, the skill stays archived.** -/
theorem archived_note_stays : ∃ world, Run (step noteBridge) anyStep (untouched ∅)
    [.act (.create "note" "Take a note." "Write it down." none []), .pass] world ∧
      ∃ text world' row, createNote world = (.ok text, world') ∧
        world'.index.find "note" = some row ∧ row.active = false ∧
        ¬ Retrievable world'.index noteSkill := by
  obtain ⟨world, ran, checked⟩ : ∃ world, Run (step noteBridge) anyStep (untouched ∅)
      [.act (.create "note" "Take a note." "Write it down." none []), .pass] world ∧
      succeeded (fun world' => ∃ row ∈ world'.index.find "note", row.active = false)
        (createNote world) := exists_run (by decide +kernel)
  obtain ⟨text, world', created, archived⟩ := exists_of_succeeded checked
  obtain ⟨row, found, inactive⟩ := of_decide_eq_true archived
  refine ⟨world, ran, text, world', row, created, found, inactive, ?_⟩
  rintro ⟨row', found', active, -, -⟩
  cases found.symm.trans found'
  rw [inactive] at active
  cases active

end Havn.Runtime.Skills
