import Havn.Lib.Text
import Havn.Runtime.Dispatch
import Havn.Runtime.ToolRegistry

/-!
# A session's registries and loops

What `main` of `havn-runtime` puts together after the handshake: a base registry, and three kinds of
loops.

* The **parent** loop serves messages, heartbeats and cron ticks, each under its own context, on the
  base with `subagent_spawn` and `agent_query` added where the policy grants them.
* A **subagent** loop is the body of `subagent_spawn` (`tools/subagent.rs`), on the base registry
  under the context `subagent`.
* An **incoming query** is answered by a loop on the base registry.

The model, the gateway and the built-in tools are whatever they do to an environment `ω`.  A tool is
*plain* if it acts on the environment only; all are but `subagent_spawn`, which runs a loop.
-/

namespace Havn.Runtime.Session

open Havn.Core Lib Proto Hooks Dispatch List
open ToolLoop (ToolResult Exchange LoopHandle Keeps)

variable {ω : Type}

/-! ## Plain tools -/

def lift {α : Type} (act : ω → α × ω) (world : World ω) : α × World ω :=
  ((act world.env).1, { world with env := (act world.env).2 })

theorem executed_of_lift {α : Type} {act : ω → α × ω} {world world' : World ω} {answer : α}
    (lifted : lift act world = (answer, world')) : world'.executed = world.executed := by
  rw [← show (lift act world).2 = world' from congrArg Prod.snd lifted]
  rfl

structure ToolBody (ω : Type) where
  description : String
  inputSchema : Json
  run : Json → ω → ToolResult × ω

def ToolBody.named (body : ToolBody ω) (name : String) : Tool ω where
  name := name
  description := body.description
  inputSchema := body.inputSchema
  execute := fun input => lift (body.run input)

structure McpTool where
  name : String
  description : Option String
  inputSchema : Json

structure McpClient (ω : Type) where
  serverName : String
  tools : List McpTool
  callTool : String → Json → ω → ToolResult × ω

def registryName (server tool : String) : String := "mcp__" ++ server ++ "__" ++ tool

def McpClient.handle (client : McpClient ω) (formats : Formats) (tool : McpTool) : Tool ω :=
  ToolBody.named
    { description := tool.description.getD ("MCP tool exposed by server "
        ++ formats.debug client.serverName ++ " (no description provided).")
      inputSchema := tool.inputSchema
      run := client.callTool tool.name }
    (registryName client.serverName tool.name)

/-! ## Spawning a subagent -/

inductive ContextHint where
  | fork
  | isolated
  deriving DecidableEq

structure SpawnInput where
  task : String
  context : ContextHint

def contextVariant : String → Option ContextHint
  | "fork" => some .fork
  | "isolated" => some .isolated
  | _ => none

/-- The name of a variant, alone or as the only key of an object. -/
def contextHint : Json → Option ContextHint
  | .string name => contextVariant name
  | .object [(name, .null)] => contextVariant name
  | _ => none

/-- An object with the two fields, or their values in order.  The context may be left out. -/
def spawnInput : Json → Option SpawnInput
  | .object fields =>
    match (fields.lookup "task").bind Json.asStr,
        ((fields.lookup "context").map contextHint).getD (some .fork) with
    | some task, some context => some ⟨task, context⟩
    | _, _ => none
  | .array [.string task] => some ⟨task, .fork⟩
  | .array [.string task, hint] => (contextHint hint).map (⟨task, ·⟩)
  | _ => none

/-- The connection to the gateway, the mirror of the parent's messages, and the subagents'
semaphore. -/
structure Host (ω : Type) where
  exchange : LlmRequest → ω → Exchange × ω
  newRequestId : ω → String × ω
  publish : List Json → ω → ω
  parentMessages : ω → List Json
  acquire : ω → Except String Unit × ω
  release : ω → ω
  inputError : Json → String

structure Bridge (ω : Type) where
  parentSystemPrompt : Option String
  childHandle : LoopHandle (World ω)

def forkHistoryDepth : ℕ := 10

/-- The parent's last turns unless it is isolated, and the task. -/
def initialMessages (parentMessages : List Json) (input : SpawnInput) : List Json :=
  (match input.context with
    | .isolated => []
    | .fork => parentMessages.drop (parentMessages.length - forkHistoryDepth))
  ++ [.object [("role", .string "user"), ("content", .string input.task)]]

variable (host : Host ω)

def spawn (bridge : Bridge ω) (input : Json) (world : World ω) : ToolResult × World ω :=
  match spawnInput input with
  | none => (.error ("invalid subagent_spawn input: " ++ host.inputError input), world)
  | some parsed =>
    if trim parsed.task = "" then
      (.error "subagent_spawn: `task` must be non-empty", world)
    else
      match lift host.acquire world with
      | (.error e, world) => (.error ("subagent semaphore closed: " ++ e), world)
      | (.ok (), world) =>
        let messages := initialMessages (host.parentMessages world.env) parsed
        let (result, s) :=
          ToolLoop.run bridge.childHandle "subagent" messages bridge.parentSystemPrompt world
        let world := { s.world with env := host.release s.world.env }
        match result with
        | .ok text => (.ok text, world)
        | .error e => (.error ("subagent failed: " ++ e), world)

def subagentSpawnTool (bridge : Bridge ω) : Tool ω where
  name := "subagent_spawn"
  description :=
    "Spawn a subagent to handle a self-contained sub-task in parallel with other work. "
    ++ "The subagent runs as the same agent (shares your persona, user knowledge, and memory) "
    ++ "and by default sees the last 10 conversation turns. Use this when you have multiple "
    ++ "independent items to handle at once (review N PRs, summarise N papers, check N "
    ++ "endpoints). Call subagent_spawn multiple times in a single assistant turn to run "
    ++ "them concurrently. Each returns its final assistant text. Subagents cannot themselves "
    ++ "spawn subagents."
  inputSchema := .object [("type", .string "object"), ("properties", .object [
      ("task", .object [("type", .string "string"),
        ("description", .string "What the subagent should do (one self-contained sub-task).")]),
      ("context", .object [("type", .string "string"),
        ("enum", .array [.string "fork", .string "isolated"]), ("default", .string "fork"),
        ("description", .string ("fork (default): inherit the last 10 parent turns. "
          ++ "isolated: start fresh with only the system prompt — "
          ++ "use for fully independent work like 'review PR #3'."))])]),
    ("required", .array [.string "task"])]
  execute := spawn host bridge

/-! ## The registries -/

def standard (formats : Formats) (builtin : BuiltinTool → ToolBody ω) (policy : Policy) :
    Registry ω where
  tools := (ToolRegistry.standard policy).tools.map fun tool => (builtin tool).named tool.name
  policy := policy
  formats := formats

def withMcp (registry : Registry ω) (servers : List (McpClient ω)) : Registry ω :=
  if !registry.policy.permissions.canUseMcp then registry
  else
    let mcpTools := servers.flatMap fun client => client.tools.map (client.handle registry.formats)
    { registry with tools := registry.tools ++ mcpTools }

def withSubagent (registry : Registry ω) (host : Host ω) (bridge : Bridge ω) : Registry ω :=
  if !registry.policy.permissions.canSpawnSubagents then registry
  else { registry with tools := registry.tools ++ [subagentSpawnTool host bridge] }

def withAgentQuery (registry : Registry ω) (agentQuery : ToolBody ω) : Registry ω :=
  if !registry.policy.permissions.canQueryOtherAgents then registry
  else { registry with tools := registry.tools ++ [agentQuery.named "agent_query"] }

structure Setup (ω : Type) where
  policy : Policy
  servers : List (McpClient ω)
  hooks : HookSet
  formats : Formats
  builtin : BuiltinTool → ToolBody ω
  agentQuery : ToolBody ω
  host : Host ω
  systemPrompt : Option String
  model : String

def loopHandle (registry : Registry ω) (depth maxIterations : ℕ)
    (mirrored : Bool) (model : String) (billingUserId : Option String) :
    LoopHandle (World ω) where
  exchange := fun request => lift (host.exchange request)
  newRequestId := lift host.newRequestId
  executeFor := registry.executeFor depth
  isEmptyFor := registry.isEmptyFor
  schemasFor := registry.schemasFor
  messagesMirror :=
    if mirrored then some fun messages world =>
      { world with env := host.publish messages world.env }
    else none
  maxIterations := maxIterations
  model := model
  billingUserId := billingUserId

def maxToolIterations : ℕ := 30

def subagentMaxIterations : ℕ := 15

namespace Setup

variable (setup : Setup ω)

def baseRegistry : Registry ω :=
  withMcp ((standard setup.formats setup.builtin setup.policy).withHooks setup.hooks) setup.servers

def subagentRegistry : Registry ω := setup.baseRegistry

def childHandle : LoopHandle (World ω) :=
  loopHandle setup.host setup.subagentRegistry 1 subagentMaxIterations false setup.model none

def bridge : Bridge ω := ⟨setup.systemPrompt, setup.childHandle⟩

def incomingQueryRegistry : Registry ω := setup.baseRegistry

def parentRegistry : Registry ω :=
  withAgentQuery (withSubagent setup.baseRegistry setup.host setup.bridge) setup.agentQuery

def parentHandle : LoopHandle (World ω) :=
  loopHandle setup.host setup.parentRegistry 0 maxToolIterations true setup.model none

def incomingHandle (billingUserId : String) : LoopHandle (World ω) :=
  loopHandle setup.host setup.incomingQueryRegistry 0 (min maxToolIterations 15) false
    setup.model (some billingUserId)

end Setup

/-! ## What is in a registry -/

def schemaNames (schemas : Json) : List String :=
  (schemas.asArray.getD []).filterMap fun schema => (schema.get "name").bind Json.asStr

def Reaches (registry : Registry ω) (context name : String) : Prop :=
  registry.disabledIn context name = false ∧ ∃ tool ∈ registry.tools, tool.name = name

theorem schemaNames_schemasIter (tools : List (Tool ω)) :
    schemaNames (Registry.schemasIter tools) = tools.map Tool.name := by
  show (tools.map _).filterMap _ = _
  rw [filterMap_map]
  exact congrFun filterMap_eq_map' tools

theorem mem_schemaNames_iff (registry : Registry ω) (context name : String) :
    name ∈ schemaNames (registry.schemasFor context) ↔ Reaches registry context name := by
  rw [Registry.schemasFor, schemaNames_schemasIter]
  simp only [mem_map, mem_filter, Bool.not_eq_true', Reaches]
  constructor
  · rintro ⟨tool, ⟨mem, enabled⟩, rfl⟩
    exact ⟨enabled, tool, mem, rfl⟩
  · rintro ⟨enabled, tool, mem, rfl⟩
    exact ⟨tool, ⟨mem, enabled⟩, rfl⟩

variable {input : Json} {registry : Registry ω} {tool : Tool ω}

theorem reaches_iff_lookup (registry : Registry ω) (context name : String)
    (allowed : preToolUse registry.formats registry.hooks name input = .allow) :
    Reaches registry context name ↔ ∃ tool, registry.lookup context name input = .ok tool := by
  simp only [Registry.lookup_eq_ok_iff, allowed, true_and, exists_and_left, Reaches]
  refine and_congr_right fun _ => ?_
  rw [← Option.isSome_iff_exists, find?_isSome]
  simp only [decide_eq_true_eq]

theorem reaches_of_lookup {context name : String}
    (found : registry.lookup context name input = .ok tool) :
    Reaches registry context name ∧ tool ∈ registry.tools ∧ tool.name = name := by
  obtain ⟨enabled, -, first⟩ := (Registry.lookup_eq_ok_iff ..).mp found
  have mem := mem_of_find?_eq_some first
  have same : tool.name = name := by simpa using find?_some first
  exact ⟨⟨enabled, tool, mem, same⟩, mem, same⟩

section Members

variable (setup : Setup ω)

theorem baseRegistry_policy : setup.baseRegistry.policy = setup.policy := by
  unfold Setup.baseRegistry withMcp
  split <;> rfl

theorem baseRegistry_hooks : setup.baseRegistry.hooks = some setup.hooks := by
  unfold Setup.baseRegistry withMcp
  split <;> rfl

theorem parentRegistry_hooks : setup.parentRegistry.hooks = some setup.hooks := by
  unfold Setup.parentRegistry withAgentQuery withSubagent
  split <;> split <;> exact baseRegistry_hooks setup

theorem parentRegistry_policy : setup.parentRegistry.policy = setup.policy := by
  unfold Setup.parentRegistry withAgentQuery withSubagent
  split <;> split <;> exact baseRegistry_policy setup

theorem baseRegistry_tools : setup.baseRegistry.tools =
    (standard setup.formats setup.builtin setup.policy).tools ++
      if setup.policy.permissions.canUseMcp then
        setup.servers.flatMap fun client => client.tools.map (client.handle setup.formats)
      else [] := by
  unfold Setup.baseRegistry withMcp
  show (if !setup.policy.permissions.canUseMcp then _ else _ : Registry ω).tools = _
  cases setup.policy.permissions.canUseMcp with
  | false => exact (append_nil _).symm
  | true => rfl

theorem mem_baseRegistry (mem : tool ∈ setup.baseRegistry.tools) :
    (∃ builtin : BuiltinTool, builtin.granted setup.policy.permissions = true ∧
        tool = (setup.builtin builtin).named builtin.name) ∨
      setup.policy.permissions.canUseMcp = true ∧
        ∃ client ∈ setup.servers, ∃ listed ∈ client.tools,
          tool = client.handle setup.formats listed := by
  rw [baseRegistry_tools] at mem
  rcases mem_append.mp mem with inStandard | inMcp
  · obtain ⟨builtin, registered, rfl⟩ := mem_map.mp inStandard
    exact .inl ⟨builtin, (ToolRegistry.mem_standard_iff _ _).mp registered, rfl⟩
  · split at inMcp
    · rename_i used
      obtain ⟨client, inServers, inClient⟩ := mem_flatMap.mp inMcp
      obtain ⟨listed, inTools, rfl⟩ := mem_map.mp inClient
      exact .inr ⟨used, client, inServers, listed, inTools, rfl⟩
    · exact absurd inMcp not_mem_nil

theorem mem_parentRegistry_iff : tool ∈ setup.parentRegistry.tools ↔
    tool ∈ setup.baseRegistry.tools ∨
      (setup.policy.permissions.canSpawnSubagents = true ∧
        tool = subagentSpawnTool setup.host setup.bridge) ∨
      (setup.policy.permissions.canQueryOtherAgents = true ∧
        tool = setup.agentQuery.named "agent_query") := by
  have policy := baseRegistry_policy setup
  unfold Setup.parentRegistry withAgentQuery withSubagent
  cases spawns : setup.policy.permissions.canSpawnSubagents <;>
    cases queries : setup.policy.permissions.canQueryOtherAgents <;>
      simp [policy, spawns, queries]

end Members

/-! ## What is run -/

def ExtendsWithin (kind : Execution → Prop) (before after : List Execution) : Prop :=
  ∃ new, after = before ++ new ∧ ∀ execution ∈ new, kind execution

variable {execution : Execution}

namespace ExtendsWithin

variable {kind kind' : Execution → Prop} {before between after : List Execution}

theorem refl (kind : Execution → Prop) (before : List Execution) :
    ExtendsWithin kind before before :=
  ⟨[], (append_nil before).symm, forall_mem_nil _⟩

theorem trans (first : ExtendsWithin kind before between)
    (second : ExtendsWithin kind between after) : ExtendsWithin kind before after := by
  obtain ⟨new, rfl, each⟩ := first
  obtain ⟨new', rfl, each'⟩ := second
  exact ⟨new ++ new', append_assoc .., forall_mem_append.mpr ⟨each, each'⟩⟩

theorem imp (weaker : ∀ execution, kind execution → kind' execution)
    (grown : ExtendsWithin kind before after) : ExtendsWithin kind' before after := by
  obtain ⟨new, rfl, each⟩ := grown
  exact ⟨new, rfl, fun execution mem => weaker execution (each execution mem)⟩

theorem mem (grown : ExtendsWithin kind before after) (earlier : execution ∈ before) :
    execution ∈ after := by
  obtain ⟨new, rfl, -⟩ := grown
  exact mem_append_left new earlier

theorem single (is : kind execution) : ExtendsWithin kind before (before ++ [execution]) :=
  ⟨[execution], rfl, forall_mem_singleton.mpr is⟩

end ExtendsWithin

variable {messages : List Json}

section Executions

variable {kind : Execution → Prop} {depth : ℕ} {context : String} {registry : Registry ω}

theorem executeFor_extends
    (recorded : ∀ name, Reaches registry context name → kind ⟨depth, context, name⟩)
    (ran : ∀ tool ∈ registry.tools, Reaches registry context tool.name → ∀ input world,
      ExtendsWithin kind world.executed (tool.execute input world).2.executed)
    (name : String) (input : Json) (world : World ω) :
    ExtendsWithin kind world.executed
      (registry.executeFor depth context name input world).2.executed := by
  unfold Registry.executeFor
  split
  · exact .refl kind _
  · rename_i tool found
    obtain ⟨reached, mem, rfl⟩ := reaches_of_lookup found
    exact (ExtendsWithin.single (recorded _ reached)).trans (ran tool mem reached input _)

theorem loopHandle_keeps (Inv : List Execution → Prop)
    (stable : ∀ {before after}, ExtendsWithin kind before after → Inv before → Inv after)
    (executed : ∀ name input world, ExtendsWithin kind world.executed
      (registry.executeFor depth context name input world).2.executed) (host : Host ω)
    (maxIterations : ℕ) (mirrored : Bool) (model : String) (billingUserId : Option String) :
    Keeps (loopHandle host registry depth maxIterations mirrored model billingUserId) context
      fun world => Inv world.executed where
  exchange := fun _ _ inv => inv
  newRequestId := fun _ inv => inv
  executeFor := fun name input world inv => stable (executed name input world) inv
  publish := by
    intro publish isMirror messages world inv
    cases mirrored with
    | false => cases isMirror
    | true =>
      cases isMirror
      exact inv

theorem mem_executed_of_asked {host : Host ω} {name : String}
    {maxIterations : ℕ} (executed : ∀ name input world, ExtendsWithin kind world.executed
      (registry.executeFor depth context name input world).2.executed) (room : 0 < maxIterations)
    (asks : ∀ request env, request.messages = .array messages →
      (host.exchange request env).1 = .response (ToolLoop.toolUse name input)) (ran : ∀ world,
      execution ∈ (registry.executeFor depth context name input world).2.executed) (mirrored : Bool)
    (model : String) (billingUserId systemPrompt : Option String) (world : World ω) :
    execution ∈ (ToolLoop.run
      (loopHandle host registry depth maxIterations mirrored model billingUserId) context messages
      systemPrompt world).2.world.executed :=
  (loopHandle_keeps (execution ∈ ·) (fun more mem => more.mem mem) executed ..).run_of_toolUse
    room (fun request world => asks request world.env) ran systemPrompt world

end Executions

def Direct (registry : Registry ω) (depth : ℕ) (context : String) (execution : Execution) : Prop :=
  execution.depth = depth ∧ execution.context = context ∧
    Reaches registry context execution.tool

section Loops

variable (setup : Setup ω) (context : String) (messages : List Json)
  (systemPrompt : Option String) (world : World ω)

theorem base_plain (mem : tool ∈ setup.baseRegistry.tools) (input : Json)
    (world : World ω) : (tool.execute input world).2.executed = world.executed := by
  rcases mem_baseRegistry setup mem with ⟨builtin, -, rfl⟩ | ⟨-, client, -, listed, -, rfl⟩ <;> rfl

theorem base_executeFor_extends (depth : ℕ) (name : String) (input : Json) (world : World ω) :
    ExtendsWithin (Direct setup.baseRegistry depth context) world.executed
      (setup.baseRegistry.executeFor depth context name input world).2.executed := by
  refine executeFor_extends (fun name reached => ⟨rfl, rfl, reached⟩) ?_ name input world
  intro tool mem _ input world
  rw [base_plain setup mem]
  exact .refl _ _

/-- **What a subagent runs**: enabled tools of the base registry. -/
theorem child_extends :
    ExtendsWithin (Direct setup.baseRegistry 1 context) world.executed
      (ToolLoop.run setup.childHandle context messages systemPrompt world).2.world.executed :=
  (loopHandle_keeps (ExtendsWithin _ world.executed) (fun more grown => grown.trans more)
    (base_executeFor_extends setup context 1) ..).run messages systemPrompt (.refl _ _)

/-- **What an incoming query runs**: enabled tools of the base registry. -/
theorem incoming_extends (billingUserId : String) :
    ExtendsWithin (Direct setup.baseRegistry 0 context) world.executed
      (ToolLoop.runTyped (setup.incomingHandle billingUserId) context messages systemPrompt
        world).2.world.executed :=
  (loopHandle_keeps (ExtendsWithin _ world.executed) (fun more grown => grown.trans more)
    (base_executeFor_extends setup context 0) ..).runTyped messages systemPrompt (.refl _ _)

theorem spawn_extends (input : Json) :
    ExtendsWithin (Direct setup.baseRegistry 1 "subagent") world.executed
      (spawn setup.host setup.bridge input world).2.executed := by
  unfold spawn
  split
  · exact .refl _ _
  · split
    · exact .refl _ _
    · split
      · rename_i world' refused
        rw [← executed_of_lift refused]
        exact .refl _ _
      · rename_i parsed _ _ _ world' started
        have ran := child_extends setup "subagent"
          (initialMessages (setup.host.parentMessages world'.env) parsed) setup.systemPrompt world'
        rw [← executed_of_lift started]
        dsimp only
        split <;> exact ran

theorem spawn_executed {host : Host ω} {bridge : Bridge ω} {parsed : SpawnInput} {env : ω}
    (read : spawnInput input = some parsed) (given : trim parsed.task ≠ "")
    (acquired : host.acquire world.env = (.ok (), env)) :
    (spawn host bridge input world).2.executed =
      (ToolLoop.run bridge.childHandle "subagent"
        (initialMessages (host.parentMessages env) parsed) bridge.parentSystemPrompt
        { world with env := env }).2.world.executed := by
  simp only [spawn, read, if_neg given, lift, acquired]
  split <;> rfl

/-- An execution that a parent loop leads to: its own, or one of a subagent it
may spawn. -/
def Led (setup : Setup ω) (context : String) (execution : Execution) : Prop :=
  Direct setup.parentRegistry 0 context execution ∨
    (Reaches setup.parentRegistry context "subagent_spawn" ∧
      Direct setup.baseRegistry 1 "subagent" execution)

theorem parent_executeFor_extends (name : String) (input : Json) (world : World ω) :
    ExtendsWithin (Led setup context) world.executed
      (setup.parentRegistry.executeFor 0 context name input world).2.executed := by
  refine executeFor_extends (fun name reached => .inl ⟨rfl, rfl, reached⟩) ?_ name input world
  intro tool mem reached input world
  rcases (mem_parentRegistry_iff setup).mp mem with inBase | ⟨-, rfl⟩ | ⟨-, rfl⟩
  · rw [base_plain setup inBase]
    exact .refl _ _
  · exact (spawn_extends setup world input).imp fun execution direct => .inr ⟨reached, direct⟩
  · exact .refl _ _

/-- **What a parent loop leads to.** -/
theorem parent_extends :
    ExtendsWithin (Led setup context) world.executed
      (ToolLoop.run setup.parentHandle context messages systemPrompt world).2.world.executed :=
  (loopHandle_keeps (ExtendsWithin _ world.executed) (fun more grown => grown.trans more)
    (parent_executeFor_extends setup context) ..).run messages systemPrompt (.refl _ _)

end Loops

/-! ## The three registries -/

def gate (name : String) : Option (Permissions → Bool) :=
  if "mcp__".toList.isPrefixOf name.toList then some Permissions.canUseMcp
  else match name with
    | "web_fetch" => some Permissions.canAccessNetwork
    | "shell" => some Permissions.canUseShell
    | "skill_manage" => some Permissions.canInstallSkills
    | "subagent_spawn" => some Permissions.canSpawnSubagents
    | "agent_query" => some Permissions.canQueryOtherAgents
    | _ => none

theorem isPrefixOf_registryName (server tool : String) :
    "mcp__".toList.isPrefixOf (registryName server tool).toList = true := by
  rw [List.isPrefixOf_iff_prefix, registryName]
  simp only [String.toList_append, append_assoc]
  exact prefix_append _ _

variable {flag : Permissions → Bool}

theorem gate_builtin {builtin : BuiltinTool} (gated : gate builtin.name = some flag)
    (permissions : Permissions) : flag permissions = builtin.granted permissions := by
  cases builtin <;> cases gated <;> rfl

section Gates

variable (setup : Setup ω)

theorem base_gated (mem : tool ∈ setup.baseRegistry.tools) (gated : gate tool.name = some flag) :
    flag setup.policy.permissions = true := by
  rcases mem_baseRegistry setup mem with ⟨builtin, granted, rfl⟩ | ⟨used, client, -, listed, -, rfl⟩
  · rw [gate_builtin gated]
    exact granted
  · have isMcp : gate (registryName client.serverName listed.name) = some Permissions.canUseMcp :=
      if_pos (isPrefixOf_registryName _ _)
    cases isMcp.symm.trans gated
    exact used

theorem base_name_ne (mem : tool ∈ setup.baseRegistry.tools) :
    tool.name ≠ "subagent_spawn" ∧ tool.name ≠ "agent_query" := by
  rcases mem_baseRegistry setup mem with ⟨builtin, -, rfl⟩ | ⟨-, client, -, listed, -, rfl⟩
  · show builtin.name ≠ _ ∧ builtin.name ≠ _
    cases builtin <;> decide
  · have isMcp := isPrefixOf_registryName client.serverName listed.name
    show registryName _ _ ≠ _ ∧ registryName _ _ ≠ _
    constructor
    · intro same
      rw [same] at isMcp
      exact absurd isMcp (by decide)
    · intro same
      rw [same] at isMcp
      exact absurd isMcp (by decide)

theorem eq_spawnTool_of_name (mem : tool ∈ setup.parentRegistry.tools)
    (named : tool.name = "subagent_spawn") :
    setup.policy.permissions.canSpawnSubagents = true ∧
      tool = subagentSpawnTool setup.host setup.bridge := by
  rcases (mem_parentRegistry_iff setup).mp mem with inBase | spawns | ⟨-, rfl⟩
  · exact absurd named (base_name_ne setup inBase).1
  · exact spawns
  · exact absurd named (show "agent_query" ≠ "subagent_spawn" by decide)

theorem parent_gated (mem : tool ∈ setup.parentRegistry.tools)
    (gated : gate tool.name = some flag) :
    flag setup.policy.permissions = true := by
  rcases (mem_parentRegistry_iff setup).mp mem with inBase | ⟨granted, rfl⟩ | ⟨granted, rfl⟩
  · exact base_gated setup inBase gated
  · have spawns : gate "subagent_spawn" = some Permissions.canSpawnSubagents := rfl
    cases spawns.symm.trans gated
    exact granted
  · have queries : gate "agent_query" = some Permissions.canQueryOtherAgents := rfl
    cases queries.symm.trans gated
    exact granted

end Gates

/-- It advertises the tools it dispatches to, and none whose capability is missing. -/
structure Faithful (permissions : Permissions) (registry : Registry ω) (context : String) :
    Prop where
  /-- A call of an advertised name that no hook denies is run by a tool of that name. -/
  reached : ∀ name ∈ schemaNames (registry.schemasFor context), ∀ input,
    preToolUse registry.formats registry.hooks name input = .allow →
    ∃ tool ∈ registry.tools, tool.name = name ∧ ∀ depth world,
      registry.executeFor depth context name input world = tool.execute input
        { world with executed := world.executed ++ [⟨depth, context, name⟩] }
  /-- A call of any other name is answered by an error and runs nothing. -/
  refused : ∀ name ∉ schemaNames (registry.schemasFor context), ∀ input,
    ∃ message, ∀ depth world,
      registry.executeFor depth context name input world = (.error message, world)
  gated : ∀ name flag, gate name = some flag → flag permissions = false →
    name ∉ schemaNames (registry.schemasFor context)

theorem faithful_of_gated {permissions : Permissions}
    (granted : ∀ tool ∈ registry.tools, ∀ flag, gate tool.name = some flag →
      flag permissions = true) (context : String) : Faithful permissions registry context where
  reached := by
    intro name advertised input allowed
    obtain ⟨tool, found⟩ := (reaches_iff_lookup registry context name allowed).mp
      ((mem_schemaNames_iff ..).mp advertised)
    obtain ⟨-, mem, same⟩ := reaches_of_lookup found
    refine ⟨tool, mem, same, fun depth world => ?_⟩
    rw [Registry.executeFor, found]
  refused := by
    intro name unadvertised input
    cases found : registry.lookup context name input with
    | ok tool =>
      exact absurd ((mem_schemaNames_iff ..).mpr (reaches_of_lookup found).1) unadvertised
    | error message =>
      refine ⟨message, fun depth world => ?_⟩
      rw [Registry.executeFor, found]
  gated := by
    intro name flag gated denied advertised
    obtain ⟨-, tool, mem, rfl⟩ := (mem_schemaNames_iff ..).mp advertised
    rw [granted tool mem flag gated] at denied
    cases denied

def Leaf (execution : Execution) : Prop :=
  execution.tool ≠ "subagent_spawn" ∧ execution.tool ≠ "agent_query"

theorem leaf_of_direct {setup : Setup ω} {depth : ℕ} {context : String}
    (direct : Direct setup.baseRegistry depth context execution) : Leaf execution := by
  obtain ⟨-, -, -, tool, mem, same⟩ := direct
  rw [Leaf, ← same]
  exact base_name_ne setup mem

/-- **The registries of a session** advertise exactly what they dispatch and nothing without its
capability; subagents and queries neither spawn nor query, and a parent loop leads at most one
subagent deep. -/
theorem registries_faithful (setup : Setup ω) (context : String) :
    (∀ registry ∈ [setup.parentRegistry, setup.subagentRegistry, setup.incomingQueryRegistry],
      Faithful setup.policy.permissions registry context) ∧
    ∀ messages systemPrompt world,
      ExtendsWithin Leaf world.executed
        (ToolLoop.run setup.childHandle context messages systemPrompt world).2.world.executed ∧
      (∀ billingUserId, ExtendsWithin Leaf world.executed
        (ToolLoop.runTyped (setup.incomingHandle billingUserId) context messages systemPrompt
          world).2.world.executed) ∧
      ExtendsWithin (fun execution => execution.depth ≤ 1 ∧ (execution.depth = 1 → Leaf execution))
        world.executed
        (ToolLoop.run setup.parentHandle context messages systemPrompt
          world).2.world.executed := by
  have base := faithful_of_gated (fun tool mem flag => base_gated setup mem) context
  have parent := faithful_of_gated (fun tool mem flag => parent_gated setup mem) context
  refine ⟨forall_mem_cons.mpr ⟨parent, forall_mem_cons.mpr ⟨base,
    forall_mem_singleton.mpr base⟩⟩, fun messages systemPrompt world => ⟨?_, ?_, ?_⟩⟩
  · exact (child_extends setup context messages systemPrompt world).imp fun _ => leaf_of_direct
  · intro billingUserId
    exact (incoming_extends setup context messages systemPrompt world billingUserId).imp
      fun _ => leaf_of_direct
  · refine (parent_extends setup context messages systemPrompt world).imp fun execution led => ?_
    rcases led with ⟨top, -, -⟩ | ⟨-, direct⟩
    · exact ⟨by omega, fun nested => by omega⟩
    · exact ⟨Nat.le_of_eq direct.1, fun _ => leaf_of_direct direct⟩

/-! ## The disabled tools of a context -/

section Disabled

variable (setup : Setup ω) (context tool : String)

/-- A subagent that a loop in this context may spawn can run the tool: the policy grants spawning,
`subagent_spawn` is enabled in the context, and the tool is a base tool enabled in `subagent`. -/
def Escapes : Prop :=
  setup.policy.permissions.canSpawnSubagents = true ∧
    setup.parentRegistry.disabledIn context "subagent_spawn" = false ∧
    Reaches setup.baseRegistry "subagent" tool

structure Unused : Prop where
  parent : ∀ messages systemPrompt world,
    ExtendsWithin (fun execution => execution.tool ≠ tool) world.executed
      (ToolLoop.run setup.parentHandle context messages systemPrompt world).2.world.executed
  child : ∀ messages systemPrompt world,
    ExtendsWithin (fun execution => execution.tool ≠ tool) world.executed
      (ToolLoop.run setup.childHandle context messages systemPrompt world).2.world.executed
  incoming : ∀ billingUserId messages systemPrompt world,
    ExtendsWithin (fun execution => execution.tool ≠ tool) world.executed
      (ToolLoop.runTyped (setup.incomingHandle billingUserId) context messages systemPrompt
        world).2.world.executed

theorem reaches_spawn_iff : Reaches setup.parentRegistry context "subagent_spawn" ↔
    setup.policy.permissions.canSpawnSubagents = true ∧
      setup.parentRegistry.disabledIn context "subagent_spawn" = false := by
  constructor
  · rintro ⟨enabled, found, mem, named⟩
    exact ⟨(eq_spawnTool_of_name setup mem named).1, enabled⟩
  · rintro ⟨granted, enabled⟩
    exact ⟨enabled, _, (mem_parentRegistry_iff setup).mpr (.inr (.inl ⟨granted, rfl⟩)), rfl⟩

theorem escapes_congr (host : Host ω) (hooks : HookSet) :
    Escapes { setup with host := host, hooks := hooks } context tool ↔
      Escapes setup context tool := by
  simp only [Escapes, Reaches, Registry.disabledIn, parentRegistry_policy, baseRegistry_policy,
    baseRegistry_tools]

variable {setup context tool}

theorem not_reaches_of_disabled (disabled : registry.disabledIn context tool = true) :
    ¬ Reaches registry context tool := by
  rintro ⟨enabled, -⟩
  rw [disabled] at enabled
  cases enabled

theorem base_not_reaches (disabled : setup.parentRegistry.disabledIn context tool = true) :
    ¬ Reaches setup.baseRegistry context tool := by
  apply not_reaches_of_disabled
  rw [← disabled]
  simp only [Registry.disabledIn, parentRegistry_policy, baseRegistry_policy]

theorem unused_of_not_escapes (disabled : setup.parentRegistry.disabledIn context tool = true)
    (confined : ¬ Escapes setup context tool) : Unused setup context tool where
  parent := by
    intro messages systemPrompt world
    refine (parent_extends setup context messages systemPrompt world).imp fun execution led => ?_
    rintro rfl
    rcases led with ⟨-, -, reached⟩ | ⟨spawns, -, -, reached⟩
    · exact not_reaches_of_disabled disabled reached
    · obtain ⟨granted, enabled⟩ := (reaches_spawn_iff setup context).mp spawns
      exact confined ⟨granted, enabled, reached⟩
  child := fun messages systemPrompt world =>
    (child_extends setup context messages systemPrompt world).imp fun execution direct same =>
      base_not_reaches disabled (same ▸ direct.2.2)
  incoming := fun billingUserId messages systemPrompt world =>
    (incoming_extends setup context messages systemPrompt world billingUserId).imp
      fun execution direct same => base_not_reaches disabled (same ▸ direct.2.2)

theorem child_runs (unhooked : setup.hooks = {})
    (reached : Reaches setup.baseRegistry "subagent" tool) (input : Json)
    (asks : ∀ request env, request.messages = .array messages →
      (setup.host.exchange request env).1 = .response (ToolLoop.toolUse tool input))
    (systemPrompt : Option String) (world : World ω) :
    ⟨1, "subagent", tool⟩ ∈ (ToolLoop.run setup.childHandle "subagent" messages systemPrompt
      world).2.world.executed := by
  refine mem_executed_of_asked (base_executeFor_extends setup "subagent" 1) (by decide) asks ?_ ..
  intro world
  obtain ⟨found, looked⟩ := (reaches_iff_lookup setup.baseRegistry "subagent" tool (by
    rw [baseRegistry_hooks, unhooked]
    rfl)).mp reached
  rw [Registry.executeFor, looked]
  show _ ∈ (found.execute _ _).2.executed
  rw [base_plain setup (reaches_of_lookup looked).2.1]
  exact mem_concat_self

theorem parent_runs (unhooked : setup.hooks = {})
    (reached : Reaches setup.parentRegistry context "subagent_spawn") (input : Json)
    (asks : ∀ request env, request.messages = .array messages →
      (setup.host.exchange request env).1 = .response (ToolLoop.toolUse "subagent_spawn" input))
    (spawned : ∀ world,
      execution ∈ (spawn setup.host setup.bridge input world).2.executed)
    (systemPrompt : Option String) (world : World ω) :
    execution ∈ (ToolLoop.run setup.parentHandle context messages systemPrompt
      world).2.world.executed := by
  refine mem_executed_of_asked (parent_executeFor_extends setup context) (by decide) asks ?_ ..
  intro world
  obtain ⟨found, looked⟩ := (reaches_iff_lookup setup.parentRegistry context _ (by
    rw [parentRegistry_hooks, unhooked]
    rfl)).mp reached
  obtain ⟨-, mem, named⟩ := reaches_of_lookup looked
  obtain ⟨-, rfl⟩ := eq_spawnTool_of_name setup mem named
  rw [Registry.executeFor, looked]
  exact spawned _

def openingText (messages : Json) : Option String :=
  ((messages.asArray.bind List.head?).bind (Json.get "content")).bind Json.asStr

def spawnRequest : Json :=
  .object [("task", .string "go"), ("context", .string "isolated")]

/-- A runtime that does nothing but ask the model. -/
def quietHost (exchange : LlmRequest → ω → Exchange × ω) : Host ω where
  exchange := exchange
  newRequestId := fun env => ("", env)
  publish := fun _ env => env
  parentMessages := fun _ => []
  acquire := fun env => (.ok (), env)
  release := id
  inputError := fun _ => ""

/-- A session without servers or hooks, whose tools answer nothing. -/
def plainSetup (policy : Policy) (host : Host ω) : Setup ω where
  policy := policy
  servers := []
  hooks := {}
  formats := sampleFormats
  builtin := fun _ => ⟨"", .null, fun _ env => (.ok "", env)⟩
  agentQuery := ⟨"", .null, fun _ env => (.ok "", env)⟩
  host := host
  systemPrompt := none
  model := ""

/-- A model that asks for that subagent, and in a conversation that opens with its
task for one tool. -/
def lure (tool : String) (input : Json) : Host ω :=
  quietHost fun request env =>
    (.response (if openingText request.messages = some "go" then ToolLoop.toolUse tool input
      else ToolLoop.toolUse "subagent_spawn" spawnRequest), env)

/-- **With that model and without hooks, the tool is run**, by a subagent of the
first turn. -/
theorem lure_runs (lured : setup.host = lure tool input) (unhooked : setup.hooks = {})
    (escapes : Escapes setup context tool) (opened : openingText (.array messages) ≠ some "go")
    (systemPrompt : Option String) (world : World ω) :
    ⟨1, "subagent", tool⟩ ∈ (ToolLoop.run setup.parentHandle context messages systemPrompt
      world).2.world.executed := by
  obtain ⟨granted, enabled, reached⟩ := escapes
  refine parent_runs unhooked ((reaches_spawn_iff setup context).mpr ⟨granted, enabled⟩)
    spawnRequest ?_ ?_ systemPrompt world
  · intro request env sent
    rw [lured, lure, quietHost]
    simp only [sent, if_neg opened]
  · intro world
    have read : spawnInput spawnRequest = some ⟨"go", .isolated⟩ := rfl
    have acquired : setup.host.acquire world.env = (.ok (), world.env) := by
      rw [lured, lure, quietHost]
    rw [spawn_executed world read (by decide +kernel) acquired]
    refine child_runs unhooked reached input ?_ setup.systemPrompt world
    intro request env sent
    have task : openingText request.messages = some "go" := by
      rw [sent]
      rfl
    rw [lured, lure, quietHost]
    simp only [task, if_true]

/-- **When the disabled tools of a context stay unused**, whatever the model answers: exactly when
no subagent can run them. -/
theorem disabled_unused_iff [Inhabited ω]
    (disabled : setup.parentRegistry.disabledIn context tool = true) :
    (∀ host hooks, Unused { setup with host := host, hooks := hooks } context tool) ↔
      ¬ Escapes setup context tool := by
  constructor
  · intro unused escapes
    have escapes' := (escapes_congr setup context tool (lure tool .null) {}).mpr escapes
    have ran := lure_runs rfl rfl escapes' (show openingText (.array []) ≠ some "go" from nofun)
      none ⟨default, []⟩
    obtain ⟨new, all, each⟩ := (unused (lure tool .null) {}).parent [] none ⟨default, []⟩
    rw [nil_append] at all
    have mem : ⟨1, "subagent", tool⟩ ∈ new := by
      rw [← all]
      exact ran
    exact each _ mem rfl
  · intro confined host hooks
    refine unused_of_not_escapes ?_ (mt (escapes_congr setup context tool host hooks).mp confined)
    rw [← disabled]
    simp only [Registry.disabledIn, parentRegistry_policy]

end Disabled

def shellDisabledIn (contexts : List String) : Policy where
  permissions := { canSpawnSubagents := true }
  contextToolsets := contexts.map fun context => (context, ⟨["shell"]⟩)

def shellSession (contexts : List String) : Setup Unit :=
  plainSetup (shellDisabledIn contexts) (lure "shell" (.object [("command", .string "id")]))

theorem shell_unused :
    (shellSession ["cron", "subagent"]).parentRegistry.disabledIn "cron" "shell" = true ∧
      Unused (shellSession ["cron", "subagent"]) "cron" "shell" := by
  have disabled : (shellSession ["cron", "subagent"]).parentRegistry.disabledIn "cron" "shell" =
    true := by decide
  have confined : ¬ Escapes (shellSession ["cron", "subagent"]) "cron" "shell" := by
    rintro ⟨-, -, enabled, -⟩
    exact absurd enabled (by decide)
  exact ⟨disabled, (disabled_unused_iff disabled).mpr confined (shellSession []).host {}⟩

/-- Disabled for cron ticks only, the shell is run by a subagent of the tick. -/
theorem shell_escapes_cron :
    (shellSession ["cron"]).parentRegistry.disabledIn "cron" "shell" = true ∧
      ⟨1, "subagent", "shell"⟩ ∈ (ToolLoop.run (shellSession ["cron"]).parentHandle "cron"
        [.object [("role", .string "user"), ("content", .string "Check the disk.")]] none
        ⟨(), []⟩).2.world.executed := by
  refine ⟨by decide, lure_runs rfl rfl ?_ (by decide) none ⟨(), []⟩⟩
  exact ⟨rfl, by decide, by decide, _, mem_map.mpr ⟨.shell, by decide, rfl⟩, rfl⟩

end Havn.Runtime.Session
