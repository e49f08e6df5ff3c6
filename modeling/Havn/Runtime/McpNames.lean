import Mathlib.Data.List.Nodup
import Havn.Runtime.Session

/-!
# The names of MCP tools

An MCP tool is registered as `mcp__<server>__<tool>` (`mcp/tool.rs`), and a call goes to the first
tool of its name.  Neither part is free of the separator, so a name can be read in two ways;
`registryName_eq_iff` says exactly when.
-/

namespace Havn.Runtime.Session

open Havn.Core Lib Proto Hooks Dispatch List
open ToolLoop (ToolResult)

variable {ω : Type}

/-! ## When two names are one -/

/-- The second server's name is longer, and what it has more begins the first server's tool. -/
def Overlaps (server tool server' tool' : String) : Prop :=
  ∃ more, more ≠ "" ∧ server' = server ++ more ∧ "__" ++ tool = more ++ "__" ++ tool'

theorem registryName_append_eq_iff (server more tool tool' : String) :
    registryName server tool = registryName (server ++ more) tool' ↔
      "__" ++ tool = more ++ "__" ++ tool' := by
  simp only [registryName, String.append_assoc, String.append_right_inj]

theorem registryName_eq_iff (server tool server' tool' : String) :
    registryName server tool = registryName server' tool' ↔
      (server = server' ∧ tool = tool') ∨ Overlaps server tool server' tool' ∨
        Overlaps server' tool' server tool := by
  constructor
  · intro same
    -- one of the two server names begins the other
    have begins : (∃ more, server' = server ++ more) ∨ ∃ more, server = server' ++ more := by
      have lists := congrArg String.toList same
      simp only [registryName, String.append_assoc, String.toList_append,
        append_cancel_left_eq] at lists
      rcases append_eq_append_iff.mp lists with ⟨more, longer, -⟩ | ⟨more, longer, -⟩
      · exact .inl ⟨String.ofList more, by rw [← String.toList_inj]; simpa using longer⟩
      · exact .inr ⟨String.ofList more, by rw [← String.toList_inj]; simpa using longer⟩
    rcases begins with ⟨more, rfl⟩ | ⟨more, rfl⟩
    · have rest := (registryName_append_eq_iff ..).mp same
      by_cases empty : more = ""
      · subst empty
        exact .inl ⟨(String.append_empty).symm, by simpa using rest⟩
      · exact .inr (.inl ⟨more, empty, rfl, rest⟩)
    · have rest := (registryName_append_eq_iff ..).mp same.symm
      by_cases empty : more = ""
      · subst empty
        exact .inl ⟨String.append_empty, by simpa using rest.symm⟩
      · exact .inr (.inr ⟨more, empty, rfl, rest⟩)
  · rintro (⟨rfl, rfl⟩ | ⟨more, -, rfl, rest⟩ | ⟨more, -, rfl, rest⟩)
    · rfl
    · exact (registryName_append_eq_iff ..).mpr rest
    · exact ((registryName_append_eq_iff ..).mpr rest).symm

/-- No listed tool can be taken for one of another server. -/
def Separated (servers : List (McpClient ω)) : Prop :=
  ∀ client ∈ servers, ∀ tool ∈ client.tools, ∀ client' ∈ servers, ∀ tool' ∈ client'.tools,
    ¬ Overlaps client.serverName tool.name client'.serverName tool'.name

theorem registryName_ne {name : String} (plain : "mcp__".toList.isPrefixOf name.toList = false)
    (server tool : String) : registryName server tool ≠ name := by
  rintro rfl
  exact absurd (plain.symm.trans (isPrefixOf_registryName server tool)) (by decide)

theorem registryName_ne_builtin (server tool : String) (builtin : BuiltinTool) :
    registryName server tool ≠ builtin.name :=
  registryName_ne (by cases builtin <;> decide) server tool

theorem builtin_eq_of_name {builtin builtin' : BuiltinTool}
    (same : builtin.name = builtin'.name) : builtin = builtin' := by
  cases builtin <;> cases builtin' <;> first | rfl | exact absurd same (by decide)

theorem not_overlaps_of_length_le {server server' : String}
    (shorter : server'.length ≤ server.length) (tool tool' : String) :
    ¬ Overlaps server tool server' tool' := by
  rintro ⟨more, nonempty, rfl, -⟩
  rw [String.length_append] at shorter
  exact nonempty (String.length_eq_zero_iff.mp (by omega))

/-! ## What a call by name reaches -/

section Reached

variable {setup : Setup ω} (distinct : (setup.servers.map McpClient.serverName).Nodup)
  (separated : Separated setup.servers)

include distinct separated

theorem eq_of_registryName_eq {client client' : McpClient ω} {tool tool' : McpTool}
    (configured : client ∈ setup.servers) (listed : tool ∈ client.tools)
    (configured' : client' ∈ setup.servers) (listed' : tool' ∈ client'.tools)
    (same : registryName client.serverName tool.name = registryName client'.serverName tool'.name) :
    client = client' ∧ tool.name = tool'.name := by
  rcases (registryName_eq_iff ..).mp same with ⟨server, upstream⟩ | overlaps | overlaps
  · exact ⟨inj_on_of_nodup_map distinct configured configured' server, upstream⟩
  · exact (separated client configured tool listed client' configured' tool' listed' overlaps).elim
  · exact (separated client' configured' tool' listed' client configured tool listed overlaps).elim

theorem base_execute_eq {tool tool' : Tool ω} (mem : tool ∈ setup.baseRegistry.tools)
    (mem' : tool' ∈ setup.baseRegistry.tools) (same : tool.name = tool'.name) :
    tool.execute = tool'.execute := by
  rcases mem_baseRegistry setup mem with
    ⟨builtin, -, rfl⟩ | ⟨-, client, configured, listed, lists, rfl⟩ <;>
  rcases mem_baseRegistry setup mem' with
    ⟨builtin', -, rfl⟩ | ⟨-, client', configured', listed', lists', rfl⟩
  · rw [builtin_eq_of_name same]
  · exact absurd same.symm (registryName_ne_builtin _ _ _)
  · exact absurd same (registryName_ne_builtin _ _ _)
  · obtain ⟨rfl, upstream⟩ :=
      eq_of_registryName_eq distinct separated configured lists configured' lists' same
    show (fun input => lift (client.callTool listed.name input)) = _
    rw [upstream]
    rfl

theorem execute_eq {registry : Registry ω}
    (one : registry ∈ [setup.parentRegistry, setup.subagentRegistry, setup.incomingQueryRegistry])
    {tool tool' : Tool ω} (mem : tool ∈ registry.tools) (mem' : tool' ∈ registry.tools)
    (same : tool.name = tool'.name) : tool.execute = tool'.execute := by
  have base := @base_execute_eq _ _ distinct separated
  simp only [mem_cons, not_mem_nil, or_false] at one
  rcases one with rfl | rfl | rfl
  · rcases (mem_parentRegistry_iff setup).mp mem with inBase | ⟨-, rfl⟩ | ⟨-, rfl⟩ <;>
    rcases (mem_parentRegistry_iff setup).mp mem' with inBase' | ⟨-, rfl⟩ | ⟨-, rfl⟩
    · exact base inBase inBase' same
    · exact absurd same (base_name_ne setup inBase).1
    · exact absurd same (base_name_ne setup inBase).2
    · exact absurd same.symm (base_name_ne setup inBase').1
    · rfl
    · exact absurd same (show "subagent_spawn" ≠ "agent_query" by decide)
    · exact absurd same.symm (base_name_ne setup inBase').2
    · exact absurd same (show "agent_query" ≠ "subagent_spawn" by decide)
    · rfl
  · exact base mem mem' same
  · exact base mem mem' same

end Reached

/-- Different pairs of a server and a tool have different names. -/
def Named (servers : List (McpClient ω)) : Prop :=
  ∀ client ∈ servers, ∀ tool ∈ client.tools, ∀ client' ∈ servers, ∀ tool' ∈ client'.tools,
    registryName client.serverName tool.name = registryName client'.serverName tool'.name →
      client = client' ∧ tool.name = tool'.name

theorem separated_of_named {servers : List (McpClient ω)} (named : Named servers) :
    Separated servers := by
  intro client configured tool listed client' configured' tool' listed' overlaps
  obtain ⟨rfl, -⟩ := named client configured tool listed client' configured' tool' listed'
    ((registryName_eq_iff ..).mpr (.inr (.inl overlaps)))
  exact not_overlaps_of_length_le le_rfl _ _ overlaps

/-- **When a call by name reaches the tool that was shown**: different pairs have different names
exactly if no two listed tools overlap, and then a call that no hook denies runs the tool whose
schema was shown.  No name is a built-in tool's. -/
theorem call_reaches_shown (setup : Setup ω)
    (distinct : (setup.servers.map McpClient.serverName).Nodup) :
    (Named setup.servers ↔ Separated setup.servers) ∧
    (∀ client ∈ setup.servers, ∀ tool ∈ client.tools,
      (∀ builtin : BuiltinTool, registryName client.serverName tool.name ≠ builtin.name) ∧
      registryName client.serverName tool.name ≠ "subagent_spawn" ∧
      registryName client.serverName tool.name ≠ "agent_query") ∧
    (Separated setup.servers →
      ∀ registry ∈ [setup.parentRegistry, setup.subagentRegistry, setup.incomingQueryRegistry],
      ∀ context, ∀ shown ∈ registry.tools.filter fun tool => !registry.disabledIn context tool.name,
        ∀ depth input world,
          preToolUse registry.formats registry.hooks shown.name input = .allow →
            registry.executeFor depth context shown.name input world =
              shown.execute input
                { world with executed := world.executed ++ [⟨depth, context, shown.name⟩] }) := by
  have named : Separated setup.servers → Named setup.servers :=
    fun separated client configured tool listed client' configured' tool' listed' =>
      eq_of_registryName_eq distinct separated configured listed configured' listed'
  refine ⟨⟨separated_of_named, named⟩, fun client _ tool _ => ⟨registryName_ne_builtin _ _,
    registryName_ne (by decide) _ _, registryName_ne (by decide) _ _⟩, ?_⟩
  intro separated registry one context shown mem depth input world allowed
  obtain ⟨registered, enabled⟩ := mem_filter.mp mem
  obtain ⟨found, looked⟩ := (reaches_iff_lookup registry context shown.name allowed).mp
    ⟨by simpa using enabled, shown, registered, rfl⟩
  obtain ⟨-, registered', named⟩ := reaches_of_lookup looked
  rw [Registry.executeFor, looked, execute_eq distinct separated one registered registered'
    named.symm]

def echoing (server tool : String) : McpClient Unit where
  serverName := server
  tools := [⟨tool, none, .object []⟩]
  callTool := fun called _ env => (.ok (server ++ ": " ++ called), env)

def connected (first second : McpClient Unit) : Setup Unit :=
  { shellSession [] with
    policy := { permissions := { canUseMcp := true } }
    servers := [first, second] }

def said (setup : Setup Unit) (name : String) : ToolResult :=
  (setup.parentRegistry.executeFor 0 "chat" name (.object []) ⟨(), []⟩).1

theorem both_search : said (connected (echoing "docs" "search") (echoing "code" "search"))
    "mcp__code__search" = .ok "code: search" := by
  have separated : Separated [echoing "docs" "search", echoing "code" "search"] := by
    intro client configured tool _ client' configured' tool' _
    have four : ∀ client ∈ [echoing "docs" "search", echoing "code" "search"],
        client.serverName.length = 4 := by decide
    apply not_overlaps_of_length_le
    rw [four client configured, four client' configured']
  have reached := (call_reaches_shown
    (connected (echoing "docs" "search") (echoing "code" "search")) (by decide)).2.2 separated _
      mem_cons_self "chat" ((echoing "code" "search").handle sampleFormats
        ⟨"search", none, .object []⟩) ?_ 0 (.object []) ⟨(), []⟩ rfl
  · exact congrArg Prod.fst reached
  · exact mem_filter.mpr ⟨mem_of_getElem? (i := 9) rfl, rfl⟩

/-- Both tools are `mcp__docs__api__search`, and the call meant for the second is answered by the
first. -/
theorem api_search_misrouted :
    registryName "docs" "api__search" = registryName "docs__api" "search" ∧
      said (connected (echoing "docs" "api__search") (echoing "docs__api" "search"))
        (registryName "docs__api" "search") = .ok "docs: api__search" :=
  ⟨by decide, rfl⟩

end Havn.Runtime.Session
