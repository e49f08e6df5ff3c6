import Mathlib.Data.List.Infix
import Havn.Db.Conversations
import Havn.Gateway.CronScheduler
import Havn.Runtime.Session

/-!
# Running a cron tick

`handle_cron` of `havn-runtime/src/main.rs`: the prompt of a job is the only turn of a tool loop in
the context `cron`, on the parent's registry.
-/

namespace Havn.Runtime.CronRun

open Havn.Core Db Lib Proto Session
open Gateway.CronScheduler (cronTick)
open Dispatch (World Registry)
open Hooks (HookSet)
open ToolLoop (Call LoopState)

variable {ω : Type}

/-! ## The handler -/

variable (uppercase : String → String)

def isSilentOutput (text : String) : Bool :=
  "[SILENT]".toList <:+: (uppercase (trim text)).toList

structure CronHandling (ω : Type) where
  tick : CronTick
  setup : Setup ω
  world : World ω
  augmented : Option String := none
  receivedAt : ℕ := 0
  answeredAt : ℕ := 0
  unsaved : Option DbError := none
  lost : Option DbError := none

namespace CronHandling

variable (h : CronHandling ω)

def channelId : String := "cron:" ++ h.tick.jobId

def messages : List Json :=
  [.object [("role", .string "user"), ("content", .string h.tick.prompt)]]

def runToolLoop : Except String String × LoopState (World ω) :=
  ToolLoop.run h.setup.parentHandle "cron" h.messages h.augmented h.world

end CronHandling

structure Handled (ω : Type) where
  table : Conversations.Table
  loop : LoopState (World ω)
  result : CronResult

variable (h : CronHandling ω)

def handleCron (t : Conversations.Table) : Handled ω :=
  -- the run does not depend on the turn being stored
  let t := (Conversations.record t h.unsaved h.receivedAt h.channelId .user h.tick.prompt).2
  match h.runToolLoop.1 with
  | .ok text =>
    { table := (Conversations.record t h.lost h.answeredAt h.channelId .assistant text).2
      loop := h.runToolLoop.2
      result := ⟨h.tick.jobId, .success, text, isSilentOutput uppercase text⟩ }
  | .error e =>
    { table := t
      loop := h.runToolLoop.2
      result := ⟨h.tick.jobId, .error e, "", false⟩ }

theorem handleCron_loop (t : Conversations.Table) : (handleCron uppercase h t).loop =
      (ToolLoop.runTyped h.setup.parentHandle "cron" h.messages h.augmented h.world).2 := by
  rw [← ToolLoop.run_snd]
  unfold handleCron
  dsimp only
  split <;> rfl

/-! ## What a run may use -/

def advertisedTools (call : Call) : List String :=
  schemaNames ((call.request.options.get "tools").getD (.array []))

/-- A tool of the list, if there is one, that the policy allows in the context. -/
def Allowed (setup : Setup ω) (toolsets : List String) (name : String) : Prop :=
  (toolsets ≠ [] → name ∈ toolsets) ∧ Reaches setup.parentRegistry "cron" name

/-- **The run keeps to the list of its job.** -/
structure Confined (s : LoopState (World ω)) : Prop where
  advertised : ∀ call ∈ s.calls, ∀ name ∈ advertisedTools call,
    Allowed h.setup h.tick.enabledToolsets name
  executed : ExtendsWithin (fun execution =>
    Allowed h.setup h.tick.enabledToolsets execution.tool) h.world.executed s.world.executed

/-- The list has all that the policy allows a cron run, and a subagent of it can use no more. -/
structure Within (setup : Setup ω) (toolsets : List String) : Prop where
  listed : toolsets ≠ [] → ∀ name, Reaches setup.parentRegistry "cron" name → name ∈ toolsets
  spawned : Reaches setup.parentRegistry "cron" "subagent_spawn" →
    ∀ name, Reaches setup.baseRegistry "subagent" name → Reaches setup.parentRegistry "cron" name

section Reach

variable (setup : Setup ω) (host : Host ω) (hooks : HookSet) (context name : String)

theorem reaches_base_congr :
    Reaches (Setup.baseRegistry { setup with host := host, hooks := hooks }) context name ↔
      Reaches setup.baseRegistry context name := by
  simp only [Reaches, Registry.disabledIn, baseRegistry_policy, baseRegistry_tools]

theorem reaches_parent_iff : Reaches setup.parentRegistry context name ↔
    Registry.disabledIn setup.baseRegistry context name = false ∧
      ((∃ tool ∈ setup.baseRegistry.tools, tool.name = name) ∨
        (setup.policy.permissions.canSpawnSubagents = true ∧ "subagent_spawn" = name) ∨
        (setup.policy.permissions.canQueryOtherAgents = true ∧ "agent_query" = name)) := by
  have enabled : setup.parentRegistry.disabledIn context name =
      setup.baseRegistry.disabledIn context name := by
    simp only [Registry.disabledIn, parentRegistry_policy, baseRegistry_policy]
  rw [Reaches, enabled]
  refine and_congr_right fun _ => ⟨?_, ?_⟩
  · rintro ⟨tool, mem, rfl⟩
    rcases (mem_parentRegistry_iff setup).mp mem with inBase | ⟨granted, rfl⟩ | ⟨granted, rfl⟩
    · exact .inl ⟨tool, inBase, rfl⟩
    · exact .inr (.inl ⟨granted, rfl⟩)
    · exact .inr (.inr ⟨granted, rfl⟩)
  · rintro (⟨tool, inBase, rfl⟩ | ⟨granted, rfl⟩ | ⟨granted, rfl⟩)
    · exact ⟨tool, (mem_parentRegistry_iff setup).mpr (.inl inBase), rfl⟩
    · exact ⟨_, (mem_parentRegistry_iff setup).mpr (.inr (.inl ⟨granted, rfl⟩)), rfl⟩
    · exact ⟨_, (mem_parentRegistry_iff setup).mpr (.inr (.inr ⟨granted, rfl⟩)), rfl⟩

theorem reaches_parent_congr :
    Reaches (Setup.parentRegistry { setup with host := host, hooks := hooks }) context name ↔
      Reaches setup.parentRegistry context name := by
  simp only [reaches_parent_iff, Registry.disabledIn, baseRegistry_policy, baseRegistry_tools]

theorem within_congr (toolsets : List String) :
    Within { setup with host := host, hooks := hooks } toolsets ↔ Within setup toolsets := by
  constructor
  · rintro ⟨listed, spawned⟩
    simp only [reaches_base_congr, reaches_parent_congr] at listed spawned
    exact ⟨listed, spawned⟩
  · rintro ⟨listed, spawned⟩
    refine ⟨?_, ?_⟩ <;> simpa only [reaches_base_congr, reaches_parent_congr]

end Reach

/-! ## What a run uses -/

section Runs

variable {uppercase : String → String} {h : CronHandling ω} {t : Conversations.Table}

theorem not_reaches_of_isEmptyFor {registry : Registry ω} {context name : String}
    (empty : registry.isEmptyFor context = true) : ¬ Reaches registry context name := by
  rintro ⟨enabled, tool, mem, rfl⟩
  rw [List.all_eq_true.mp empty tool mem] at enabled
  cases enabled

/-- **A run advertises what the policy allows a cron run**, whatever its list. -/
theorem mem_advertisedTools_iff {call : Call} (mem : call ∈ (handleCron uppercase h t).loop.calls)
    (name : String) : name ∈ advertisedTools call ↔ Reaches h.setup.parentRegistry "cron" name := by
  rw [handleCron_loop] at mem
  have sent : ∀ call ∈ (ToolLoop.runTyped h.setup.parentHandle "cron" h.messages h.augmented
      h.world).2.calls, call.request.options =
        ToolLoop.callOptions h.setup.parentHandle "cron" h.augmented := by
    refine ToolLoop.runTyped_calls (fun _ call (_ : True) sent => ?_) (fun _ _ _ _ => trivial)
      trivial h.world
    obtain ⟨requestId, world, rfl⟩ := sent
    rfl
  have tools : (call.request.options.get "tools").getD (.array []) =
      if h.setup.parentRegistry.isEmptyFor "cron" then .array []
      else h.setup.parentRegistry.schemasFor "cron" := by
    rw [sent call mem]
    show (Json.get "tools" (.object (_ ++ (if h.setup.parentRegistry.isEmptyFor "cron" then []
      else [("tools", h.setup.parentRegistry.schemasFor "cron")])))).getD _ = _
    cases h.augmented <;> cases h.setup.parentRegistry.isEmptyFor "cron" <;> rfl
  rw [advertisedTools, tools]
  split
  · rename_i empty
    exact iff_of_false List.not_mem_nil (not_reaches_of_isEmptyFor empty)
  · exact mem_schemaNames_iff _ _ _

theorem confined_of_within (within : Within h.setup h.tick.enabledToolsets) :
    Confined h (handleCron uppercase h t).loop where
  advertised := by
    intro call mem name advertised
    have reached := (mem_advertisedTools_iff mem name).mp advertised
    exact ⟨fun restricted => within.listed restricted name reached, reached⟩
  executed := by
    rw [handleCron_loop, ← ToolLoop.run_snd]
    refine (parent_extends h.setup "cron" h.messages h.augmented h.world).imp
      fun execution led => ?_
    have reached : Reaches h.setup.parentRegistry "cron" execution.tool := by
      rcases led with ⟨-, -, reached⟩ | ⟨spawns, -, -, reached⟩
      · exact reached
      · exact within.spawned spawns execution.tool reached
    exact ⟨fun restricted => within.listed restricted _ reached, reached⟩

end Runs

def diskJob (toolsets : List String) : Db.Cron.CronJob where
  id := ⟨uuidOf 1⟩
  agentId := ⟨uuidOf 2⟩
  name := "disk"
  prompt := "Check the disk."
  schedule := .interval 60
  nextRunAt := .startOf 2026
  wakeCheck := none
  deliver := "local"
  enabledToolsets := toolsets
  enabled := true
  createdAt := .startOf 2026

def luredRun [Inhabited ω] (setup : Setup ω) (toolsets : List String) (name : String) :
    CronHandling ω where
  tick := cronTick (diskJob toolsets)
  setup := { setup with host := lure name .null, hooks := {} }
  world := ⟨default, []⟩

section Lured

variable [Inhabited ω] {uppercase : String → String} {setup : Setup ω} {toolsets : List String}
  {name : String}

theorem reaches_lured (context : String) :
    Reaches (luredRun setup toolsets name).setup.parentRegistry context name ↔
      Reaches setup.parentRegistry context name :=
  reaches_parent_congr setup (lure name .null) {} context name

theorem mem_of_confined (confined : Confined (luredRun setup toolsets name)
    (handleCron uppercase (luredRun setup toolsets name) []).loop) (restricted : toolsets ≠ [])
    (reached : Reaches setup.parentRegistry "cron" name) : name ∈ toolsets := by
  obtain ⟨call, first⟩ := ToolLoop.exists_first_call
    (luredRun setup toolsets name).setup.parentHandle "cron"
    (luredRun setup toolsets name).messages (luredRun setup toolsets name).augmented
    (luredRun setup toolsets name).world (show 0 < maxToolIterations by decide)
  have mem : call ∈ (handleCron uppercase (luredRun setup toolsets name) []).loop.calls := by
    rw [handleCron_loop]
    exact List.mem_of_mem_head? first
  have advertised := (mem_advertisedTools_iff mem name).mpr ((reaches_lured "cron").mpr reached)
  exact (confined.advertised call mem name advertised).1 restricted

theorem lured_executed (escapes : Escapes setup "cron" name) :
    ⟨1, "subagent", name⟩ ∈
      (handleCron uppercase (luredRun setup toolsets name) []).loop.world.executed := by
  have lured : (luredRun setup toolsets name).setup.host = lure name .null := rfl
  have escapes : Escapes (luredRun setup toolsets name).setup "cron" name :=
    (escapes_congr setup "cron" name (lure name .null) {}).mpr escapes
  have opening : openingText (.array (luredRun setup toolsets name).messages) =
    some "Check the disk." := rfl
  have opened : openingText (.array (luredRun setup toolsets name).messages) ≠ some "go" := by
    rw [opening]
    decide
  rw [handleCron_loop, ← ToolLoop.run_snd]
  exact lure_runs lured rfl escapes opened _ _

theorem reaches_of_confined (confined : Confined (luredRun setup toolsets name)
    (handleCron uppercase (luredRun setup toolsets name) []).loop)
    (spawns : Reaches setup.parentRegistry "cron" "subagent_spawn")
    (reached : Reaches setup.baseRegistry "subagent" name) :
    Reaches setup.parentRegistry "cron" name := by
  obtain ⟨granted, enabled⟩ := (reaches_spawn_iff setup "cron").mp spawns
  have ran : ⟨1, "subagent", name⟩ ∈
      (handleCron uppercase (luredRun setup toolsets name) []).loop.world.executed :=
    lured_executed ⟨granted, enabled, reached⟩
  obtain ⟨new, all, each⟩ := confined.executed
  rw [all] at ran
  exact (reaches_lured "cron").mp (each _ ran).2

end Lured

/-- **When the runs of jobs with a list keep to it**: exactly when the policy allows cron runs
nothing else. -/
theorem confined_iff_within [Inhabited ω] (uppercase : String → String) (setup : Setup ω)
    (toolsets : List String) :
    ((∀ (job : Db.Cron.CronJob) (h : CronHandling ω) (t : Conversations.Table) host hooks,
        job.enabledToolsets = toolsets → h.tick = cronTick job →
        h.setup = { setup with host := host, hooks := hooks } →
        Confined h (handleCron uppercase h t).loop) ↔ Within setup toolsets) ∧
      ∀ (h : CronHandling ω) (t : Conversations.Table),
        ∀ call ∈ (handleCron uppercase h t).loop.calls, ∀ name,
          name ∈ advertisedTools call ↔ Reaches h.setup.parentRegistry "cron" name := by
  refine ⟨⟨fun confined => ?_, ?_⟩, fun h t call mem name => mem_advertisedTools_iff mem name⟩
  · have lured : ∀ name, Confined (luredRun setup toolsets name)
        (handleCron uppercase (luredRun setup toolsets name) []).loop := fun name =>
      confined (diskJob toolsets) (luredRun setup toolsets name) [] (lure name .null) {} rfl rfl rfl
    exact ⟨fun restricted name => mem_of_confined (lured name) restricted,
      fun spawns name => reaches_of_confined (lured name) spawns⟩
  · intro within job h t host hooks list tick same
    apply confined_of_within
    rw [same, tick, within_congr]
    show Within setup job.enabledToolsets
    rw [list]
    exact within

/-! ### A restricted job -/

def leavingCron (tools : List BuiltinTool) : Policy where
  contextToolsets := [("cron", ⟨(((ToolRegistry.standard {}).tools.filter (· ∉ tools)).map
    BuiltinTool.name)⟩)]

def shellAsker (policy : Policy) : Setup Unit :=
  { shellSession [] with
    policy := policy
    host := { (shellSession []).host with
      exchange := fun _ env => (.response (ToolLoop.toolUse "shell" .null), env) } }

def searchRun (policy : Policy) : CronHandling Unit where
  tick := cronTick (diskJob ["memory_search"])
  setup := shellAsker policy
  world := ⟨(), []⟩

theorem leavingCron_within :
    Within (shellAsker (leavingCron [.memorySearch])) ["memory_search"] where
  listed := by
    rintro - name ⟨enabled, tool, mem, rfl⟩
    have only : ∀ tool ∈ (shellAsker (leavingCron [.memorySearch])).parentRegistry.tools.map
        (·.name), (shellAsker (leavingCron [.memorySearch])).parentRegistry.disabledIn "cron" tool =
          false → tool ∈ ["memory_search"] := by decide
    exact only tool.name (List.mem_map_of_mem mem) enabled
  spawned := by
    intro spawns
    exact absurd ((reaches_spawn_iff _ _).mp spawns).1 (by decide)

theorem search_confined : Confined (searchRun (leavingCron [.memorySearch]))
    (handleCron id (searchRun (leavingCron [.memorySearch])) []).loop :=
  (confined_iff_within id (shellAsker (leavingCron [.memorySearch])) ["memory_search"]).1.mpr
    leavingCron_within (diskJob ["memory_search"]) (searchRun (leavingCron [.memorySearch])) []
    (shellAsker {}).host {} rfl rfl rfl

theorem shell_unconfined :
    (∃ call ∈ (handleCron id (searchRun {}) []).loop.calls, "shell" ∈ advertisedTools call) ∧
      ⟨0, "cron", "shell"⟩ ∈ (handleCron id (searchRun {}) []).loop.world.executed ∧
      ¬ Confined (searchRun {}) (handleCron id (searchRun {}) []).loop := by
  obtain ⟨call, first⟩ := ToolLoop.exists_first_call (searchRun {}).setup.parentHandle "cron"
    (searchRun {}).messages (searchRun {}).augmented (searchRun {}).world
    (show 0 < maxToolIterations by decide)
  have mem : call ∈ (handleCron id (searchRun {}) []).loop.calls := by
    rw [handleCron_loop]
    exact List.mem_of_mem_head? first
  have reached : Reaches (shellAsker {}).parentRegistry "cron" "shell" :=
    ⟨by decide, _, List.mem_map.mpr ⟨.shell, by decide, rfl⟩, rfl⟩
  have advertised := (mem_advertisedTools_iff mem "shell").mpr reached
  refine ⟨⟨call, mem, advertised⟩, ?_, fun confined => ?_⟩
  · rw [handleCron_loop, ← ToolLoop.run_snd]
    refine mem_executed_of_asked (parent_executeFor_extends (shellAsker {}) "cron") (by decide)
      (fun _ _ _ => rfl) (fun world => ?_) _ _ _ _ _
    exact List.mem_concat_self
  · have listed := (confined.advertised call mem "shell" advertised).1
    exact absurd (listed (by decide)) (by decide)

end Havn.Runtime.CronRun
