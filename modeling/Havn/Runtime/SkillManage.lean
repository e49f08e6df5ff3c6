import Havn.Runtime.Skills
import Havn.Runtime.ToolLoop

/-!
# The tool `skill_manage`

`havn-runtime/src/tools/skill_manage.rs`: each action checks its input, works on the file and then
on the index; a failure on the index is logged and the action succeeds.
-/

namespace Havn.Runtime.Skills

open Lib Lib.FileTree Db
open ToolLoop (ToolResult)

def isNameChar (c : Char) : Bool := c.isLower || c.isDigit || c = '-' || c = '_'

def validateName (name : String) : Except String Unit :=
  if name = "" then .error "name must be non-empty"
  else if 64 < name.utf8ByteSize then .error "name must be ≤ 64 characters"
  else if !name.toList.all isNameChar then
    .error "name must be kebab-case: lowercase letters, digits, '-' or '_' only"
  else .ok ()

def renderFrontMatter (name description : String) (version : Option String)
    (triggers : List String) : String :=
  "name: " ++ name ++ "\n" ++ ("description: " ++ description ++ "\n")
    ++ (match version with
      | some v => "version: " ++ v ++ "\n"
      | none => "")
    ++ (if triggers.isEmpty then "" else "triggers: [" ++ ", ".intercalate triggers ++ "]\n")
    ++ "metadata:\n  havn:\n    source: agent_created\n"

def renderSkillMd (name description body : String) (version : Option String)
    (triggers : List String) : String :=
  "---\n" ++ renderFrontMatter name description version triggers ++ "---\n\n"
    ++ String.ofList (trimEnd body.toList) ++ "\n"

namespace Host

variable (host : Host)

def reindexOne (content : String) (world : World) : Except String Unit × World :=
  match parseSkill host.yaml content with
  | .error e => (.error e.display, world)
  | .ok parsed =>
    let (id, world) := host.fresh world
    match host.statement (fun now index =>
        ((), SkillsIndex.upsertText now id parsed.name parsed.description parsed.body index))
        world with
    | (.error e, world) => (.error e.display, world)
    | (.ok (), world) => (.ok (), world)

def embedAndPersist (name description : String) (world : World) : World :=
  match host.embedder with
  | none => world
  | some embed =>
    match embed world.ops (name ++ ": " ++ description) with
    | .error _ => world.tick
    | .ok vector =>
      (host.statement (fun _ index => SkillsIndex.setEmbedding name vector index)
        world.tick).2

def store (name description content : String) (done : String) (world : World) :
    ToolResult × World :=
  match host.write (host.skillPath name) content world with
  | (.error e, world) => (.error ("writing SKILL.md: " ++ e.display), world)
  | (.ok (), world) =>
    let (_, world) := host.reindexOne content world
    (.ok done, host.embedAndPersist name description world)

def create (name description body : String) (version : Option String) (triggers : List String)
    (world : World) : ToolResult × World :=
  match validateName name with
  | .error e => (.error e, world)
  | .ok () =>
    if trim description = "" then (.error "description must be non-empty", world)
    else if trim body = "" then (.error "body must be non-empty", world)
    else if maxBodyBytes < body.utf8ByteSize then
      (.error ("body exceeds 102400 byte cap (got " ++ toString body.utf8ByteSize ++ ")"), world)
    else
      let (found, world) := host.tryExists (host.skillPath name) world
      if found.toOption = some true then
        (.error ("skill " ++ host.debug name ++ " already exists; use update to modify"), world)
      else
        match host.createDirAll (host.skillDir name) world with
        | (.error e, world) => (.error ("creating skill dir: " ++ e.display), world)
        | (.ok (), world) =>
          host.store name description (renderSkillMd name description body version triggers)
            ("created skill " ++ host.debug name ++
              ". It will be retrievable on the next user turn.") world

def update (name : String) (description body version : Option String)
    (triggers : Option (List String)) (world : World) : ToolResult × World :=
  match validateName name with
  | .error e => (.error e, world)
  | .ok () =>
    let (found, world) := host.tryExists (host.skillPath name) world
    if found.toOption ≠ some true then
      (.error ("skill " ++ host.debug name ++ " does not exist"), world)
    else
      match host.readToString (host.skillPath name) world with
      | (.error e, world) => (.error ("reading existing SKILL.md: " ++ e.display), world)
      | (.ok existing, world) =>
        match parseSkill host.yaml existing with
        | .error e => (.error ("existing SKILL.md is malformed: " ++ e.display), world)
        | .ok parsed =>
          let newDescription := description.getD parsed.description
          let newBody := body.getD parsed.body
          if maxBodyBytes < newBody.utf8ByteSize then
            (.error ("body exceeds 102400 byte cap (got " ++
              toString newBody.utf8ByteSize ++ ")"), world)
          else
            host.store name newDescription
              (renderSkillMd name newDescription newBody (version.or parsed.version)
                (triggers.getD parsed.triggers))
              ("updated skill " ++ host.debug name) world

def delete (name : String) (world : World) : ToolResult × World :=
  match validateName name with
  | .error e => (.error e, world)
  | .ok () =>
    let (found, world) := host.tryExists (host.skillDir name) world
    if found.toOption ≠ some true then
      (.ok ("skill " ++ host.debug name ++ " did not exist (no-op)"), world)
    else
      match host.removeDirAll (host.skillDir name) world with
      | (.error e, world) => (.error ("removing skill dir: " ++ e.display), world)
      | (.ok (), world) =>
        let (_, world) := host.statement
          (fun _ index => ((), SkillsIndex.deleteByName name index)) world
        (.ok ("deleted skill " ++ host.debug name), world)

def list (world : World) : ToolResult × World :=
  match host.loadWorkspace world with
  | (.error e, world) => (.error ("listing workspace skills: " ++ e.display), world)
  | (.ok [], world) => (.ok "(no workspace skills installed)", world)
  | (.ok skills, world) =>
    (.ok ("# Workspace skills\n\n" ++ String.join (skills.map fun skill =>
      "- `" ++ skill.name ++ "`: " ++ skill.description ++ "\n")), world)

def setPinned (name : String) (pinned : Bool) (world : World) : ToolResult × World :=
  match validateName name with
  | .error e => (.error e, world)
  | .ok () =>
    match host.statement (fun _ index => SkillsIndex.setPinned name pinned index) world with
    | (.error e, world) => (.error ("set_pinned failed: " ++ e.display), world)
    | (.ok true, world) =>
      (.ok ((if pinned then "pinned" else "unpinned") ++ " skill " ++ host.debug name), world)
    | (.ok false, world) =>
      (.error ("skill " ++ host.debug name ++ " not found in index"), world)

end Host

inductive Action
  | create (name description body : String) (version : Option String) (triggers : List String)
  | update (name : String) (description body version : Option String)
      (triggers : Option (List String))
  | delete (name : String)
  | list
  | pin (name : String)
  | unpin (name : String)

def Host.execute (host : Host) : Action → World → ToolResult × World
  | .create name description body version triggers =>
    host.create name description body version triggers
  | .update name description body version triggers =>
    host.update name description body version triggers
  | .delete name => host.delete name
  | .list => host.list
  | .pin name => host.setPinned name true
  | .unpin name => host.setPinned name false

end Havn.Runtime.Skills
