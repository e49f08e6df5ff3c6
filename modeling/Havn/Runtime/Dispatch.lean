import Havn.Core.Policy
import Havn.Runtime.Files
import Havn.Runtime.Hooks
import Havn.Runtime.ToolLoop

/-!
# Tool dispatch

The registry of `havn-runtime/src/tools/mod.rs`: a call passes the context's list of disabled tools,
the PreToolUse hooks, and the check that there is a tool of that name.

The world records which tools were run (`World.executed`), by the loop that ran them; nothing in the
source reads the record.
-/

namespace Havn.Runtime.Dispatch

open Havn.Core Lib Hooks Files
open ToolLoop (ToolResult)

/-! ## The registry -/

/-- How many subagents deep, in which context, and the tool's name. -/
structure Execution where
  depth : ℕ
  context : String
  tool : String
  deriving DecidableEq

structure World (ω : Type) where
  env : ω
  executed : List Execution := []

structure Tool (ω : Type) where
  name : String
  description : String
  inputSchema : Json
  execute : Json → World ω → ToolResult × World ω

/-- The source's `{:?}` of a string, and `to_string` of a JSON value. -/
structure Formats where
  debug : String → String
  toText : Json → String

structure Registry (ω : Type) where
  tools : List (Tool ω)
  policy : Policy
  hooks : Option HookSet := none
  formats : Formats

variable (formats : Formats)

/-- The input as one string for the hooks: the field that matters for the tool. -/
def flattenInputForHook (tool : String) (input : Json) : String :=
  let pick (key : String) := ((input.get key).bind Json.asStr).getD ""
  match tool with
  | "shell" => pick "command"
  | "web_fetch" => pick "url"
  | "file_read" | "file_write" => pick "path"
  | "memory_search" => pick "query"
  | "memory_remember" | "memory_forget" => pick "key"
  | "subagent_spawn" => pick "task"
  | "skill_manage" => pick "action" ++ ":" ++ pick "name"
  | _ => formats.toText input

def preToolUse (hooks : Option HookSet) (name : String) (input : Json) : Veto :=
  match hooks with
  | none => .allow
  | some set =>
    if set.isEmpty then .allow
    else set.veto formats.debug name (flattenInputForHook formats name input)

namespace Registry

variable {ω : Type} (registry : Registry ω)

def withHooks (hooks : HookSet) : Registry ω :=
  { registry with hooks := some hooks }

def disabledIn (context toolName : String) : Bool :=
  (registry.policy.contextToolsets.lookup context).any fun entry =>
    entry.disabled.any fun name => name = toolName

def schemasIter (tools : List (Tool ω)) : Json :=
  .array (tools.map fun tool => .object [("name", .string tool.name),
    ("description", .string tool.description), ("input_schema", tool.inputSchema)])

def schemasFor (context : String) : Json :=
  schemasIter (registry.tools.filter fun tool => !registry.disabledIn context tool.name)

def isEmptyFor (context : String) : Bool :=
  registry.tools.all fun tool => registry.disabledIn context tool.name

def lookup (context name : String) (input : Json) : Except String (Tool ω) :=
  if registry.disabledIn context name then
    .error ("tool " ++ registry.formats.debug name ++ " is disabled in "
      ++ registry.formats.debug context ++ " context by policy")
  else
    match preToolUse registry.formats registry.hooks name input with
    | .deny reason =>
      .error ("tool " ++ registry.formats.debug name ++ " dispatch denied by hook: " ++ reason)
    | .allow =>
      match registry.tools.find? fun tool => tool.name = name with
      | none => .error ("unknown tool: " ++ name)
      | some tool => .ok tool

def executeFor (depth : ℕ) (context name : String) (input : Json)
    (world : World ω) : ToolResult × World ω :=
  match registry.lookup context name input with
  | .error message => (.error message, world)
  | .ok tool =>
    tool.execute input
      { world with executed := world.executed ++ [⟨depth, context, name⟩] }

theorem lookup_eq_ok_iff (context name : String) (input : Json)
    (tool : Tool ω) : registry.lookup context name input = .ok tool ↔
      registry.disabledIn context name = false ∧
        preToolUse registry.formats registry.hooks name input = .allow ∧
          registry.tools.find? (fun tool => tool.name = name) = some tool := by
  unfold lookup
  split
  · rename_i disabled
    exact ⟨nofun, fun ⟨enabled, _⟩ => by rw [disabled] at enabled; cases enabled⟩
  · rename_i enabled
    rw [Bool.not_eq_true] at enabled
    split
    · rename_i reason denied
      exact ⟨nofun, fun ⟨_, allowed, _⟩ => by rw [denied] at allowed; cases allowed⟩
    · rename_i allowed
      cases found : registry.tools.find? fun tool => tool.name = name with
      | none => exact ⟨nofun, fun ⟨_, _, other⟩ => by cases other⟩
      | some =>
        exact ⟨fun same => ⟨enabled, allowed, by cases same; rfl⟩,
          fun ⟨_, _, same⟩ => by cases same; rfl⟩

end Registry

/-! ## Files of rules -/

variable (reader : Reader)

def Denied (formats : Formats) (file : FileRead) (name : String) (input : Json) : Prop :=
  preToolUse formats (some (loadFromWorkspace reader file)) name input ≠ .allow
  deriving Decidable

theorem denied_iff (formats : Formats) (file : FileRead) (name : String)
    (input : Json) : Denied reader formats file name input ↔
      (loadFromWorkspace reader file).Denies name (flattenInputForHook formats name input) := by
  unfold Denied preToolUse
  split
  · cases ‹some _ = none›
  rename_i set loaded
  cases loaded
  split
  · rename_i empty
    exact ⟨fun h => absurd rfl h, fun h => absurd h (HookSet.not_denies_of_isEmpty empty _ _)⟩
  · rw [Ne, HookSet.veto_eq_allow_iff, not_not]

/-- **Deny rules fail safe**: what was denied still is, and a file whose rules cannot be had denies
every call. -/
structure FailSafe (formats : Formats) (original : String) (file : FileRead) :
    Prop where
  monotone : ∀ name input, Denied reader formats (.content original) name input →
    Denied reader formats file name input
  closed : ¬ Loads reader file → ∀ name input, Denied reader formats file name input

/-- **When deny rules fail safe**, for a file whose document, if it has one, extends the original
one: exactly when it loads. -/
theorem failSafe_iff_loads {reader : Reader} {formats : Formats} {original : String}
    {file : FileRead} (present : file ≠ .notFound)
    (more : ∀ text raw raw', file = .content text → reader.fromYaml original = .ok raw →
      reader.fromYaml text = .ok raw' → raw'.Extends raw) :
    FailSafe reader formats original file ↔ Loads reader file := by
  constructor
  · intro safe
    by_contra unloaded
    have denied := (denied_iff ..).mp (safe.closed unloaded "" .null)
    exact HookSet.not_denies_of_isEmpty (isEmpty_of_not_loads unloaded) _ _ denied
  · rintro ⟨text, set', rfl, parsed'⟩
    refine ⟨fun name input denied => ?_, fun unloaded => absurd ⟨text, set', rfl, parsed'⟩ unloaded⟩
    rw [denied_iff, loadFromWorkspace, parsed']
    rw [denied_iff] at denied
    -- an original that does not parse denies nothing
    cases parsed : parse reader original with
    | error =>
      rw [loadFromWorkspace, parsed] at denied
      exact absurd denied (HookSet.not_denies_of_isEmpty rfl _ _)
    | ok =>
      rw [loadFromWorkspace, parsed] at denied
      exact denies_mono (fun raw raw' => more text raw raw' rfl) parsed parsed' denied

/-! ### Rules for the shell, and two ways to add one -/

def rmRules : String := "pre_tool_use:\n  - tool: shell\n    deny: [\"^rm -rf\"]\n"

def fetchRules : String := rmRules ++ "  - tool: web_fetch\n    deny: [\"^http:\"]\n"

def typoRules : String := "pre_tool_use:\n  - tool: shell\n    deny: [\"^rm -rf\", \"[sudo\"]\n"

def shellHook : RawHook := { tool := "shell", deny := ["^rm -rf"] }

def sampleReader : Reader where
  fromYaml := fun text =>
    if text = rmRules then .ok ⟨[shellHook]⟩
    else if text = fetchRules then .ok ⟨[shellHook] ++ [⟨"web_fetch", ["^http:"]⟩]⟩
    else if text = typoRules then .ok ⟨[{ shellHook with deny := shellHook.deny ++ ["[sudo"] }]⟩
    else .error "not a mapping"
  compile := fun pattern => match pattern.toList with
    | '^' :: literal => .ok fun text => literal.isPrefixOf text.toList
    | _ => .error "unclosed character class"
  debug := id

def sampleFormats : Formats := ⟨id, fun _ => ""⟩

def removeAll : Json := .object [("command", .string "rm -rf /")]

theorem fromYaml_rmRules : sampleReader.fromYaml rmRules = .ok ⟨[shellHook]⟩ := by
  simp [sampleReader]

theorem fetchRules_failSafe :
    FailSafe sampleReader sampleFormats rmRules (.content fetchRules) := by
  have longer : sampleReader.fromYaml fetchRules =
      .ok ⟨[shellHook] ++ [⟨"web_fetch", ["^http:"]⟩]⟩ := by
    simp [sampleReader, show fetchRules ≠ rmRules by decide +kernel]
  obtain ⟨set, parsed⟩ : ∃ set, (parse sampleReader fetchRules).toOption = some set :=
    Option.isSome_iff_exists.mp (by decide +kernel)
  have loads : Loads sampleReader (.content fetchRules) :=
    ⟨fetchRules, set, rfl, toOption_eq_some.mp parsed⟩
  have present : FileRead.content fetchRules ≠ .notFound := nofun
  refine (failSafe_iff_loads present ?_).mpr loads
  rintro text raw raw' ⟨⟩ read read'
  obtain rfl := Except.ok.inj (fromYaml_rmRules.symm.trans read)
  obtain rfl := Except.ok.inj (longer.symm.trans read')
  exact Raw.extends_append [shellHook] _

/-- **A typo in an added pattern disarms the rules**, and so does a file that cannot be read. -/
theorem typo_disarms :
    (∀ raw raw', sampleReader.fromYaml rmRules = .ok raw →
      sampleReader.fromYaml typoRules = .ok raw' → raw'.Extends raw) ∧
    Denied sampleReader sampleFormats (.content rmRules) "shell" removeAll ∧
    ¬ Denied sampleReader sampleFormats (.content typoRules) "shell" removeAll ∧
    ¬ Denied sampleReader sampleFormats (.failed "permission denied") "shell" removeAll := by
  have longer : sampleReader.fromYaml typoRules =
      .ok ⟨[{ shellHook with deny := shellHook.deny ++ ["[sudo"] }]⟩ := by
    simp [sampleReader, show typoRules ≠ rmRules by decide +kernel,
      show typoRules ≠ fetchRules by decide +kernel]
  refine ⟨fun raw raw' read read' => ?_, by decide +kernel, by decide +kernel, by decide +kernel⟩
  obtain rfl := Except.ok.inj (fromYaml_rmRules.symm.trans read)
  obtain rfl := Except.ok.inj (longer.symm.trans read')
  exact Raw.extends_pattern [] [] shellHook "[sudo"

/-! ## Spellings of a path -/

def pathOf (input : Json) : Option String := (input.get "path").bind Json.asStr

theorem flattenInputForHook_file {tool : String}
    (fileTool : tool = "file_read" ∨ tool = "file_write") (input : Json) :
    flattenInputForHook formats tool input = (pathOf input).getD "" := by
  rcases fileTool with rfl | rfl <;> rfl

/-- The hooks with one pattern for a tool, which matches one text only. -/
def onlyText (tool text : String) : HookSet :=
  ⟨[⟨tool, [⟨text, fun other => other = text⟩]⟩]⟩

theorem preToolUse_onlyText (formats : Formats) (tool text : String) (input : Json) :
    preToolUse formats (some (onlyText tool text)) tool input = .allow ↔
      flattenInputForHook formats tool input ≠ text := by
  show HookSet.veto (onlyText tool text) _ _ _ = .allow ↔ _
  rw [HookSet.veto_eq_allow_iff]
  simp [HookSet.Denies, onlyText]

/-- **Two spellings of one workspace file get one verdict under all hooks exactly when they are the
same text**, as canonical spellings are. -/
theorem verdicts_eq_iff {formats : Formats} {tool : String} {input input' : Json}
    {workspace path path' resolved resolved' : String}
    (fileTool : tool = "file_read" ∨ tool = "file_write") (called : pathOf input = some path)
    (called' : pathOf input' = some path') (accepted : safeJoin workspace path = .ok resolved)
    (accepted' : safeJoin workspace path' = .ok resolved') (same : SamePath resolved resolved') :
    ((∀ hooks, preToolUse formats hooks tool input = preToolUse formats hooks tool input') ↔
        path = path') ∧
      (Canonical path → Canonical path' → path = path') := by
  have flat : flattenInputForHook formats tool input = path := by
    rw [flattenInputForHook_file formats fileTool, called, Option.getD_some]
  have flat' : flattenInputForHook formats tool input' = path' := by
    rw [flattenInputForHook_file formats fileTool, called', Option.getD_some]
  refine ⟨⟨fun verdicts => ?_, fun text hooks => ?_⟩, eq_of_samePath accepted accepted' same⟩
  · by_contra differ
    have denied := (preToolUse_onlyText formats tool path input).not.mpr (not_not.mpr flat)
    refine denied ?_
    rw [verdicts, preToolUse_onlyText, flat']
    exact Ne.symm differ
  · unfold preToolUse
    rw [flat, flat', text]

def secretHook : HookSet :=
  ⟨[⟨"file_read", [⟨"^secret", fun text => "secret".toList.isPrefixOf text.toList⟩]⟩]⟩

def readOf (path : String) : Json := .object [("path", .string path)]

theorem same_text_same_verdict :
    safeJoin "/ws" "secret/key" = .ok "/ws/secret/key" ∧
      ∀ hooks, preToolUse sampleFormats hooks "file_read" (readOf "secret/key") =
        preToolUse sampleFormats hooks "file_read"
          (.object [("path", .string "secret/key"), ("encoding", .null)]) :=
  have accepted : safeJoin "/ws" "secret/key" = .ok "/ws/secret/key" := by decide +kernel
  ⟨accepted, (verdicts_eq_iff (Or.inl rfl) rfl rfl accepted accepted rfl).1.mpr rfl⟩

/-- **A dot gets around a deny pattern**: of two spellings of one file only one is denied. -/
theorem dot_evades :
    safeJoin "/ws" "secret" = .ok "/ws/secret" ∧ safeJoin "/ws" "./secret" = .ok "/ws/./secret" ∧
      SamePath "/ws/secret" "/ws/./secret" ∧
      preToolUse sampleFormats (some secretHook) "file_read" (readOf "secret") =
        .deny "blocked by PreToolUse hook (file_read/deny): pattern ^secret matched" ∧
      preToolUse sampleFormats (some secretHook) "file_read" (readOf "./secret") = .allow := by
  decide +kernel

end Havn.Runtime.Dispatch
