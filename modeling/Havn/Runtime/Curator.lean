import Havn.Runtime.SkillManage

/-!
# The curator

`havn-runtime/src/curator.rs`: a pass archives by a rule the skills not used for long, sends the
rest to the model and carries out its plan, in which skills are merged under an umbrella or pruned.
-/

namespace Havn.Runtime.Curator

open Lib Lib.FileTree Lib.Calendar Db Db.SkillsIndex Proto
open Skills
open ToolLoop (Exchange)

def staleThresholdDays : ℤ := 90

def lowUseFloor : ℤ := 5

def passCap : ℕ := 100

def perSkillPromptBudgetBytes : ℕ := 4096

structure Consolidation where
  into : String
  umbrellaDescription : String := ""
  umbrellaBody : String := ""
  sources : List String := []
deriving DecidableEq

structure Pruning where
  skill : String
  reason : String := ""
deriving DecidableEq

structure Plan where
  consolidations : List Consolidation := []
  prunings : List Pruning := []
deriving DecidableEq

structure CuratorReport where
  ranAt : ℤ
  considered : ℕ := 0
  archivedByAge : List String := []
  consolidations : List Consolidation := []
  prunings : List Pruning := []
  errors : List String := []
deriving DecidableEq

def CuratorReport.withError (report : CuratorReport) (error : String) : CuratorReport :=
  { report with errors := report.errors ++ [error] }

/-- `exchange` is how the gateway answers the one request, `readPlan` is
`serde_norway::from_str`. -/
structure Bridge where
  host : Host
  model : String
  exchange : LlmRequest → Exchange
  readPlan : String → Except String Plan

/-! ## Timestamps -/

def utc (nanos : ℤ) : Instant := .ofMillis (millis nanos)

def compactStamp (t : Instant) : String :=
  String.ofList (Rfc3339.yearText t.year ++
    FixedWidth.render [⟨2, []⟩, ⟨2, ['T']⟩, ⟨2, []⟩, ⟨2, []⟩, ⟨2, []⟩] (Rfc3339.clock t))

def dateText (t : Instant) : String :=
  String.ofList (Rfc3339.yearText t.year ++ '-' ::
    FixedWidth.render [⟨2, ['-']⟩, ⟨2, []⟩] ((Rfc3339.clock t).take 2))

def minuteText (t : Instant) : String :=
  dateText t ++ " " ++ String.ofList (FixedWidth.render [⟨2, [':']⟩, ⟨2, []⟩]
    (((Rfc3339.clock t).drop 2).take 2)) ++ " UTC"

/-! ## Archiving -/

variable (host : Host) (name : String)

def archiveRoot : String := Files.join host.workspace.path ".archive"

def archivePath (now : ℤ) : String :=
  Files.join (archiveRoot host) (name ++ "-" ++ compactStamp (utc now))

def moveAway (world : World) : Except String Unit × World :=
  match host.tryExists (host.skillDir name) world with
  | (found, world) =>
    if found.toOption ≠ some true then (.ok (), world)
    else
      match host.createDirAll (archiveRoot host) world with
      | (.error _, world) => (.error "mkdir .archive", world)
      | (.ok (), world) =>
        match host.now world with
        | (now, world) =>
          match host.rename (host.skillDir name) (archivePath host name now) world with
          | (.error _, world) =>
            (.error ("mv " ++ host.skillDir name ++ " → " ++ archivePath host name now),
              world)
          | (.ok (), world) => (.ok (), world)

def archiveSkill (world : World) : Except String Unit × World :=
  match host.statement (fun now index => archive now name index) world with
  | (.error _, world) => (.error ("DB archive " ++ name), world)
  | (.ok _, world) => moveAway host name world

/-! ## The rule-based phase -/

def CuratorReport.archived (report : CuratorReport) (name : String) : CuratorReport :=
  { report with archivedByAge := report.archivedByAge ++ [name] }

def stale (cutoff : ℤ) (skill : CuratableSkill) : Bool :=
  skill.lastUsedAt.all fun used => used * 1000000 < cutoff

def ages (cutoff : ℤ) (skill : CuratableSkill) : Bool :=
  stale cutoff skill && skill.useCount < lowUseFloor

def agePhase (host : Host) (cutoff : ℤ) :
    List CuratableSkill → CuratorReport → World → CuratorReport × List CuratableSkill × World
  | [], report, world => (report, [], world)
  | skill :: skills, report, world =>
    if ages cutoff skill then
      match archiveSkill host skill.name world with
      | (.ok (), world) => agePhase host cutoff skills (report.archived skill.name) world
      | (.error e, world) => agePhase host cutoff skills
          (report.withError ("archiving " ++ skill.name ++ ": " ++ e)) world
    else
      let (report, survivors, world) := agePhase host cutoff skills report world
      (report, skill :: survivors, world)

/-! ## Asking the model -/

def systemPrompt : String :=
  "You are the curator for an autonomous agent's skill library. You read "
    ++ "the agent's user-created skills and produce a consolidation plan in "
    ++ "YAML. Be conservative: only propose merging skills that genuinely "
    ++ "overlap or that would be more useful as one umbrella skill. Be "
    ++ "suspicious of merging skills that look superficially similar but "
    ++ "serve different intents. When in doubt, leave a skill alone.\n"
    ++ "\n"
    ++ "Your output is parsed by code. Output ONLY a YAML block, no other "
    ++ "text. Empty lists are OK."

/-- The source's line continuations leave no indentation in the shape shown to the model. -/
def promptHead : String :=
  "Below are the agent's currently-active workspace skills. Each "
    ++ "entry shows the skill name, description, recent use count, "
    ++ "and body. Decide which (if any) should be:\n"
    ++ "\n"
    ++ "- **consolidated** into umbrella skills (multiple narrow "
    ++ "skills merged under a broader one with sub-sections); the "
    ++ "originals will be archived and the umbrella becomes the "
    ++ "agent's go-to.\n"
    ++ "- **pruned** (archived without replacement) because they're "
    ++ "obsolete, redundant, or low-quality.\n"
    ++ "\n"
    ++ "Respond with a YAML block in exactly this shape:\n"
    ++ "\n"
    ++ "```yaml\n"
    ++ "consolidations:\n"
    ++ "- into: umbrella-name-kebab-case\n"
    ++ "umbrella_description: one-liner for the umbrella skill\n"
    ++ "umbrella_body: |\n"
    ++ "full markdown body for the umbrella, including\n"
    ++ "all the sub-section content from the absorbed skills.\n"
    ++ "from: [skill-a, skill-b, skill-c]\n"
    ++ "prunings:\n"
    ++ "- skill: name-of-skill-to-archive\n"
    ++ "reason: one-liner explaining why it's safe to archive\n"
    ++ "```\n"
    ++ "\n"
    ++ "If nothing needs consolidation or pruning, return both lists "
    ++ "empty. Skill names in `from` and `skill` MUST exactly match "
    ++ "the names below.\n"
    ++ "\n"
    ++ "=== SKILLS ===\n"
    ++ "\n"

def bodyExcerpt (body : String) : String :=
  if perSkillPromptBudgetBytes < body.utf8ByteSize then
    String.ofList (body.toList.take (perSkillPromptBudgetBytes - 64))
      ++ "\n…(body truncated for curator prompt)"
  else body

def promptEntry (skill : CuratableSkill) : String :=
  "## " ++ skill.name ++ "\n\n_description_: " ++ skill.description
    ++ "\n_use_count_: " ++ toString skill.useCount
    ++ "\n_last_used_at_: " ++ (match skill.lastUsedAt with
      | none => "never"
      | some used => dateText (.ofMillis used))
    ++ "\n\n" ++ bodyExcerpt skill.body ++ "\n\n---\n\n"

def buildConsolidationPrompt (skills : List CuratableSkill) : String :=
  promptHead ++ String.join (skills.map promptEntry)

def consolidationRequest (model requestId prompt : String) : LlmRequest where
  requestId := requestId
  model := model
  messages := .array [.object [("role", .string "user"), ("content", .string prompt)]]
  options := .object
    [("max_tokens", .number (.posInt 4096)), ("system", .string systemPrompt)]
  billingUserId := none

def beforeLastFence (text : List Char) : Option (List Char) :=
  (text.tails.reverse.find? fun tail => "```".toList <+: tail).map
    fun tail => text.take (text.length - tail.length)

def stripCodeFences (text : String) : String :=
  let trimmed := trim text
  match (trimmed.toList.dropPrefix? "```yaml".toList).or
      (trimmed.toList.dropPrefix? "```".toList) with
  | none => trimmed
  | some rest =>
    match beforeLastFence rest with
    | some inside => trim (String.ofList inside)
    | none => trimmed

variable (bridge : Bridge)

def parseConsolidationYaml (text : String) : Except String Plan :=
  let stripped := stripCodeFences (trim text)
  match bridge.readPlan stripped with
  | .ok plan => .ok plan
  | .error _ => .error ("parsing consolidation YAML; first 200 chars: "
      ++ bridge.host.debug (String.ofList (stripped.toList.take 200)))

def planOf : Exchange → Except String Plan
  | .notSent reason => .error ("enqueue LlmRequest: " ++ reason)
  | .dropped => .error "LlmResponse channel closed for curator pass"
  | .response response =>
    match response.outcome with
    | .error message => .error ("LLM error: " ++ message)
    | .ok =>
      match (response.providerResponse.get "content").bind ToolLoop.extractText with
      | none => .error "LLM response had no text content"
      | some body => parseConsolidationYaml bridge body

def runConsolidation (skills : List CuratableSkill) (world : World) : Except String Plan × World :=
  let (requestId, world) := bridge.host.fresh world
  let request := consolidationRequest bridge.model requestId (buildConsolidationPrompt skills)
  (planOf bridge (bridge.exchange request), world)

/-! ## Carrying out a plan -/

def validateKebabName : Bool :=
  name ≠ "" && name.utf8ByteSize ≤ 64 && name.toList.all isNameChar

def umbrellaMd (name description body : String) (absorbed : List String) : String :=
  "---\n" ++ ("name: " ++ name ++ "\n") ++ ("description: " ++ description ++ "\n")
    ++ "metadata:\n  havn:\n    source: agent_created\n    consolidated_from:\n"
    ++ String.join (absorbed.map fun source => "      - " ++ source ++ "\n")
    ++ "---\n\n" ++ String.ofList (trimEnd body.toList) ++ "\n"

def writeUmbrella (c : Consolidation) (world : World) : Except String Unit × World :=
  let (found, world) := host.tryExists (host.skillPath c.into) world
  if found.toOption = some true then
    (.error ("umbrella name " ++ host.debug c.into ++ " already exists"), world)
  else
    match host.createDirAll (host.skillDir c.into) world with
    | (.error e, world) => (.error e.display, world)
    | (.ok (), world) =>
      match host.write (host.skillPath c.into)
          (umbrellaMd c.into c.umbrellaDescription c.umbrellaBody c.sources) world with
      | (.error e, world) => (.error e.display, world)
      | (.ok (), world) =>
        let (id, world) := host.fresh world
        match host.statement (fun now index => ((), upsertText now id c.into
            c.umbrellaDescription c.umbrellaBody index)) world with
        | (.error e, world) => (.error e.display, world)
        | (.ok (), world) => (.ok (), world)

def archiveSources (host : Host) : List String → CuratorReport → World → CuratorReport × World
  | [], report, world => (report, world)
  | source :: sources, report, world =>
    match archiveSkill host source world with
    | (.ok (), world) => archiveSources host sources report world
    | (.error e, world) => archiveSources host sources
        (report.withError ("archiving absorbed " ++ host.debug source ++ ": " ++ e)) world

variable (known : List String)

def refusal (c : Consolidation) : Option String :=
  let unknown := c.sources.filter fun source => source ∉ known
  if trim c.umbrellaBody = "" ∨ trim c.umbrellaDescription = "" then
    some ("consolidation " ++ host.debug c.into ++ ": empty umbrella body or description")
  else if !validateKebabName c.into then
    some ("consolidation skipped: " ++ host.debug c.into ++ " is not a valid kebab-case name")
  else if unknown ≠ [] then
    some ("consolidation " ++ host.debug c.into ++ ": unknown source skills ["
      ++ ", ".intercalate (unknown.map host.debug) ++ "]")
  else if c.sources.length < 2 then
    some ("consolidation " ++ host.debug c.into ++ ": needs ≥2 source skills")
  else none

def applyConsolidation (c : Consolidation)
    (report : CuratorReport) (world : World) : CuratorReport × World :=
  match refusal host known c with
  | some reason => (report.withError reason, world)
  | none =>
    match writeUmbrella host c world with
    | (.error e, world) =>
      (report.withError ("writing umbrella " ++ host.debug c.into ++ ": " ++ e), world)
    | (.ok (), world) =>
      let (report, world) := archiveSources host c.sources report world
      ({ report with consolidations := report.consolidations ++ [c] }, world)

def applyPruning (p : Pruning) (report : CuratorReport) (world : World) : CuratorReport × World :=
  if p.skill ∉ known then
    (report.withError ("pruning skipped: unknown skill " ++ host.debug p.skill), world)
  else
    match archiveSkill host p.skill world with
    | (.error e, world) =>
      (report.withError ("pruning " ++ host.debug p.skill ++ ": " ++ e), world)
    | (.ok (), world) => ({ report with prunings := report.prunings ++ [p] }, world)

def forEach {α : Type} (act : α → CuratorReport → World → CuratorReport × World) :
    List α → CuratorReport → World → CuratorReport × World
  | [], report, world => (report, world)
  | item :: items, report, world =>
    let (report, world) := act item report world
    forEach act items report world

def applyConsolidations (survivors : List CuratableSkill) (plan : Plan)
    (report : CuratorReport) (world : World) : CuratorReport × World :=
  let known := survivors.map (·.name)
  let (report, world) := forEach (applyConsolidation host known) plan.consolidations report world
  forEach (applyPruning host known) plan.prunings report world

/-! ## The report -/

def reportSection (title : String) (entries : List String) (last : String) : String :=
  if entries.isEmpty then "" else "## " ++ title ++ "\n\n" ++ String.join entries ++ last

def reportText (report : CuratorReport) : String :=
  "# Curator pass — " ++ minuteText (utc report.ranAt) ++ "\n\n"
    ++ "- skills considered: " ++ toString report.considered ++ "\n"
    ++ "- archived by age (>90d unused, <5 uses): " ++ toString report.archivedByAge.length ++ "\n"
    ++ "- consolidated by LLM: " ++ toString report.consolidations.length ++ "\n"
    ++ "- pruned by LLM: " ++ toString report.prunings.length ++ "\n"
    ++ "- errors: " ++ toString report.errors.length ++ "\n\n"
    ++ reportSection "Archived by age"
        (report.archivedByAge.map fun name => "- `" ++ name ++ "`\n") "\n"
    ++ reportSection "Consolidations" (report.consolidations.map fun c =>
        "- **" ++ c.into ++ "** ← " ++
          ", ".intercalate (c.sources.map fun source => "`" ++ source ++ "`") ++ "\n") "\n"
    ++ reportSection "Prunings" (report.prunings.map fun p =>
        "- `" ++ p.skill ++ "` — " ++ p.reason ++ "\n") "\n"
    ++ reportSection "Errors" (report.errors.map fun e => "- " ++ e ++ "\n") ""

def writeReport (report : CuratorReport) (world : World) : Except IoError Unit × World :=
  match host.createDirAll (Files.join host.workspace.path ".curator") world with
  | (.error e, world) => (.error e, world)
  | (.ok (), world) =>
    host.write (Files.join (Files.join host.workspace.path ".curator")
      (compactStamp (utc report.ranAt) ++ "Z.md")) (reportText report) world

/-! ## The pass -/

def staleThreshold : ℤ := staleThresholdDays * 86400 * 1000000000

/-- List the candidates and run the first phase; also the clock reading the cutoff is taken from. -/
def rulePhase (world : World) : Except String (ℤ × CuratorReport × List CuratableSkill) × World :=
  let (ranAt, world) := bridge.host.now world
  match bridge.host.statement (fun _ index => (listCuratable passCap index, index)) world with
  | (.error _, world) => (.error "listing curatable skills", world)
  | (.ok candidates, world) =>
    let (now, world) := bridge.host.now world
    let (report, survivors, world) := agePhase bridge.host (now - staleThreshold) candidates
      { ranAt := ranAt, considered := candidates.length } world
    (.ok (now, report, survivors), world)

def consolidate (survivors : List CuratableSkill) (report : CuratorReport)
    (world : World) : CuratorReport × World :=
  if survivors.length < 2 then (report, world)
  else
    match runConsolidation bridge survivors world with
    | (.ok plan, world) => applyConsolidations bridge.host survivors plan report world
    | (.error e, world) => (report.withError ("LLM consolidation: " ++ e), world)

def runPass (world : World) : Except String CuratorReport × World :=
  match rulePhase bridge world with
  | (.error e, world) => (.error e, world)
  | (.ok (_, report, survivors), world) =>
    let (report, world) := consolidate bridge survivors report world
    let (_, world) := writeReport bridge.host report world
    (.ok report, world)

end Havn.Runtime.Curator
