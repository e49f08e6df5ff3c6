import Havn.Db.Gateway
import Havn.Db.SkillsIndex
import Havn.Lib.FileTree
import Havn.Lib.Lines
import Havn.Runtime.Files

/-!
# Skills on disk and in the index

`havn-runtime/src/skills.rs`: a skill is a file `SKILL.md` in a directory of its own under
`skills/`; at start-up the files are parsed and their rows put into the index.

A `World` is the file tree, the index and how many operations were made.  A `Host` answers what it
does not decide: which operation fails, the clock, the ids drawn, what the YAML library makes of a
text.  An operation that fails leaves the world as it was.
-/

namespace Havn.Runtime.Skills

open Lib Lib.FileTree Db

/-! ## The file format -/

def maxBodyBytes : ℕ := 100 * 1024

structure LoadedSkill where
  name : String
  description : String
  version : Option String
  userInvocable : Bool
  triggers : List String
  body : String
deriving DecidableEq

inductive SkillError
  | missingFrontmatter
  | unterminatedFrontmatter
  | invalidYaml (message : String)
  | missingField (field : String)
  | bodyTooLarge (bytes : ℕ)
  | io (error : IoError)
  | db (error : DbError)
deriving DecidableEq

def SkillError.display : SkillError → String
  | .missingFrontmatter => "missing frontmatter: SKILL.md must start with `---`"
  | .unterminatedFrontmatter => "unterminated frontmatter: missing closing `---`"
  | .invalidYaml message => "invalid frontmatter YAML: " ++ message
  | .missingField field => "missing required field: " ++ field
  | .bodyTooLarge bytes => "body exceeds 102400 bytes (got " ++ toString bytes ++ ")"
  | .io error => "io: " ++ error.display
  | .db error => error.display

structure FrontMatter where
  name : Option String := none
  description : Option String := none
  version : Option String := none
  userInvocable : Option Bool := none
  triggers : Option (List String) := none
deriving DecidableEq

def findCloseMarker : List (List Char) → Option (List (List Char) × List (List Char))
  | [] => none
  | line :: rest =>
    if (line.reverse.dropWhile fun c => c = '\r' ∨ c = '\n').reverse = "---".toList then
      some ([], line :: rest)
    else (findCloseMarker rest).map fun found => (line :: found.1, found.2)

def afterOpen (content : String) : Option (List Char) :=
  let trimmed := content.toList.dropWhile fun c => c = '\ufeff'
  (trimmed.dropPrefix? "---\n".toList).or (trimmed.dropPrefix? "---\r\n".toList)

def splitSkill (content : String) : Except SkillError (String × String) :=
  match afterOpen content with
  | none => .error .missingFrontmatter
  | some text =>
    match findCloseMarker (splitInclusive text) with
    | none => .error .unterminatedFrontmatter
    | some (front, back) =>
      let afterClose := ['\n'].intercalate ((lines back.flatten).drop 1)
      .ok (String.ofList front.flatten, String.ofList (trimStart afterClose))

def checkFields (parsed : FrontMatter) (body : String) : Except SkillError LoadedSkill :=
  match parsed.name, parsed.description with
  | none, _ => .error (.missingField "name")
  | some _, none => .error (.missingField "description")
  | some name, some description =>
    if trim name = "" then .error (.missingField "name")
    else if trim description = "" then .error (.missingField "description")
    else .ok
      { name
        description
        version := parsed.version
        userInvocable := parsed.userInvocable.getD false
        triggers := parsed.triggers.getD []
        body }

def parseSkill (yaml : String → Except String FrontMatter) (content : String) :
    Except SkillError LoadedSkill :=
  match splitSkill content with
  | .error e => .error e
  | .ok (frontmatter, body) =>
    if maxBodyBytes < body.utf8ByteSize then .error (.bodyTooLarge body.utf8ByteSize)
    else
      match yaml frontmatter with
      | .error e => .error (.invalidYaml e)
      | .ok parsed => checkFields parsed body

/-! ## The runtime's state -/

structure Workspace where
  path : String
  absolute : Files.isAbsolute path = true
  plain : ∀ name ∈ Files.names path, name ≠ ['.', '.']

structure Host where
  workspace : Workspace
  fault : ℕ → Option String
  clock : ℕ → ℤ
  newId : ℕ → String
  yaml : String → Except String FrontMatter
  embedder : Option (ℕ → String → Except String (List UInt32))
  debug : String → String

structure World where
  tree : Tree
  index : SkillsIndex.Index
  ops : ℕ

def World.tick (world : World) : World := { world with ops := world.ops + 1 }

def moves (path : String) : List Move :=
  (if Files.isAbsolute path then [.root] else []) ++
    (Files.names path).map fun name => if name = ['.', '.'] then .up else .down name

theorem moves_join {base name : String} (file : Files.FileName name) :
    moves (Files.join base name) = moves base ++ [.down name.toList] := by
  have relative : Files.isAbsolute name = false := by
    refine decide_eq_false fun slash => file.single ?_
    exact List.mem_of_mem_head? slash
  rw [moves, moves, Files.isAbsolute_join_of_relative base relative, Files.names_join base relative,
    Files.names_of_isName file.named file.single, List.map_append, List.map_singleton,
    if_neg file.down, List.append_assoc]

def millis (nanos : ℤ) : ℤ := nanos / 1000000

variable {world world' : World}

namespace Host

variable {α : Type} (host : Host)

variable (act : Tree → Except IoError (α × Tree))

def io (world : World) : Except IoError α × World :=
  match host.fault world.ops with
  | some text => (.error (.other text), world.tick)
  | none =>
    match act world.tree with
    | .error e => (.error e, world.tick)
    | .ok (result, tree) => (.ok result, { world.tick with tree := tree })

def statement (act : ℤ → SkillsIndex.Index → α × SkillsIndex.Index) (world : World) :
    Except DbError α × World :=
  match host.fault world.ops with
  | some text => (.error (.sqlx text), world.tick)
  | none =>
    let (result, index) := act (millis (host.clock world.ops)) world.index
    (.ok result, { world.tick with index := index })

theorem index_io (world : World) : (host.io act world).2.index = world.index := by
  unfold io
  split
  · rfl
  · split <;> rfl

theorem ops_io (world : World) : (host.io act world).2.ops = world.ops + 1 := by
  unfold io
  split
  · rfl
  · split <;> rfl

variable {host} {result : Except IoError α}

theorem index_of_io {act : Tree → Except IoError (α × Tree)}
    (ran : host.io act world = (result, world')) : world'.index = world.index := by
  rw [← host.index_io act world, ran]

theorem ops_of_io {act : Tree → Except IoError (α × Tree)}
    (ran : host.io act world = (result, world')) : world'.ops = world.ops + 1 := by
  rw [← host.ops_io act world, ran]

theorem io_eq_ok {act : Tree → Except IoError (α × Tree)} {a : α}
    (ran : host.io act world = (.ok a, world')) : act world.tree = .ok (a, world'.tree) := by
  unfold io at ran
  split at ran
  · cases ran
  split at ran
  · cases ran
  · rename_i acted
    cases ran
    exact acted

theorem statement_cases {act : ℤ → SkillsIndex.Index → α × SkillsIndex.Index}
    {result : Except DbError α} (ran : host.statement act world = (result, world')) :
    (∃ text, host.fault world.ops = some text ∧ result = .error (.sqlx text) ∧
        world' = world.tick) ∨
      (host.fault world.ops = none ∧
        result = .ok (act (millis (host.clock world.ops)) world.index).1 ∧
        world' = { world.tick with
          index := (act (millis (host.clock world.ops)) world.index).2 }) := by
  unfold statement at ran
  cases fault : host.fault world.ops with
  | some text =>
    simp only [fault] at ran
    cases ran
    exact .inl ⟨text, rfl, rfl, rfl⟩
  | none =>
    simp only [fault] at ran
    cases ran
    exact .inr ⟨rfl, rfl, rfl⟩

variable (host)

def now (world : World) : ℤ × World := (host.clock world.ops, world.tick)

def fresh (world : World) : String × World := (host.newId world.ops, world.tick)

def tryExists (path : String) : World → Except IoError Bool × World :=
  host.io fun tree => (FileTree.tryExists tree (moves path)).map (·, tree)

def isDir (path : String) : World → Except IoError Bool × World :=
  host.io fun tree => (locate tree [] (moves path)).map fun place =>
    (node? tree place = some .dir, tree)

def readToString (path : String) : World → Except IoError String × World :=
  host.io fun tree => (FileTree.readToString tree (moves path)).map (·, tree)

def readDir (path : String) : World → Except IoError (List Name) × World :=
  host.io fun tree => (FileTree.readDir tree (moves path)).map (·, tree)

def createDirAll (path : String) : World → Except IoError Unit × World :=
  host.io fun tree => (FileTree.createDirAll tree [] (moves path)).map ((), ·)

def write (path content : String) : World → Except IoError Unit × World :=
  host.io fun tree => (FileTree.write tree (moves path) content).map ((), ·)

def removeDirAll (path : String) : World → Except IoError Unit × World :=
  host.io fun tree => (FileTree.removeDirAll tree (moves path)).map ((), ·)

def rename (source target : String) : World → Except IoError Unit × World :=
  host.io fun tree => (FileTree.rename tree (moves source) (moves target)).map ((), ·)

def skillDir (name : String) : String := Files.join (Files.join host.workspace.path "skills") name

def skillPath (name : String) : String := Files.join (host.skillDir name) "SKILL.md"

/-! ## Loading and indexing -/

theorem moves_skillPath (name : String) :
    moves (host.skillPath name) = moves (host.skillDir name) ++ [.down "SKILL.md".toList] :=
  moves_join ⟨by decide, by decide, by decide⟩

def loadEntry (entry : Name) (world : World) : Except SkillError (Option LoadedSkill) × World :=
  let path := host.skillDir (String.ofList entry)
  let skillPath := Files.join path "SKILL.md"
  match host.isDir path world with
  | (.error e, world) => (.error (.io e), world)
  | (.ok false, world) => (.ok none, world)
  | (.ok true, world) =>
    match host.tryExists skillPath world with
    | (.error e, world) => (.error (.io e), world)
    | (.ok false, world) => (.ok none, world)
    | (.ok true, world) =>
      match host.readToString skillPath world with
      | (.error e, world) => (.error (.io e), world)
      | (.ok content, world) =>
        match parseSkill host.yaml content with
        | .ok skill => (.ok (some skill), world)
        | .error _ => (.ok none, world)

def loadEntries : List Name → World → Except SkillError (List LoadedSkill) × World
  | [], world => (.ok [], world)
  | entry :: entries, world =>
    match host.loadEntry entry world with
    | (.error e, world) => (.error e, world)
    | (.ok skill, world) =>
      let (rest, world) := loadEntries entries world
      (rest.map (skill.toList ++ ·), world)

def loadWorkspace (world : World) : Except SkillError (List LoadedSkill) × World :=
  let dir := Files.join host.workspace.path "skills"
  match host.tryExists dir world with
  | (.error e, world) => (.error (.io e), world)
  | (.ok false, world) => (.ok [], world)
  | (.ok true, world) =>
    match host.readDir dir world with
    | (.error e, world) => (.error (.io e), world)
    | (.ok entries, world) => host.loadEntries entries world

def indexInto : List LoadedSkill → World → Except SkillError Unit × World
  | [], world => (.ok (), world)
  | skill :: skills, world =>
    let (id, world) := host.fresh world
    match host.statement (fun now index =>
        ((), SkillsIndex.upsertSkill now id skill.name skill.description skill.body .workspace
          index)) world with
    | (.error e, world) => (.error (.db e), world)
    | (.ok (), world) => indexInto skills world

def startup (world : World) : World :=
  let (loaded, world) := host.loadWorkspace world
  match loaded with
  | .ok skills => (host.indexInto skills world).2
  | .error _ => (host.indexInto [] world).2

end Host

end Havn.Runtime.Skills
