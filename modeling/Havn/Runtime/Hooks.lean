import Havn.Lib.Except

/-!
# PreToolUse hooks

`havn-runtime/src/hooks.rs`: deny rules from `<workspace>/.havn/hooks.yaml`, read once at the start
of a session.  A call of a rule's tool whose flattened input some pattern matches is refused.
Nothing is assumed of the YAML reader and the regex compiler (`Reader`).
-/

namespace Havn.Runtime.Hooks

open Lib

structure Regex where
  asStr : String
  isMatch : String → Bool

structure ToolHook where
  tool : String
  deny : List Regex

structure HookSet where
  rules : List ToolHook := []

structure RawHook where
  tool : String
  deny : List String := []

structure Raw where
  preToolUse : List RawHook := []

structure Reader where
  fromYaml : String → Except String Raw
  compile : String → Except String (String → Bool)
  debug : String → String

variable (reader : Reader)

def Reader.regex (pattern : String) : Except String Regex :=
  (reader.compile pattern).map fun isMatch => ⟨pattern, isMatch⟩

def compileHook (hook : RawHook) : Except String ToolHook :=
  (hook.deny.mapM fun pattern => (reader.regex pattern).mapError fun e =>
    "regex " ++ reader.debug pattern ++ " for tool " ++ reader.debug hook.tool ++ ": " ++ e).map
      fun deny => ⟨hook.tool, deny⟩

/-- The first pattern that does not compile fails the whole document. -/
def parse (yaml : String) : Except String HookSet := do
  let raw ← (reader.fromYaml yaml).mapError fun e => "yaml: " ++ e
  (raw.preToolUse.mapM (compileHook reader)).map HookSet.mk

inductive FileRead where
  | content (text : String)
  | notFound
  | failed (error : String)

def loadFromWorkspace : FileRead → HookSet
  | .notFound => {}
  | .failed _ => {}
  | .content text =>
    match parse reader text with
    | .ok set => set
    | .error _ => {}

inductive Veto where
  | allow
  | deny (reason : String)
  deriving DecidableEq

namespace HookSet

def fires (debug : String → String) (tool flatInput : String) (rule : ToolHook) : Option String :=
  if rule.tool ≠ tool then none
  else (rule.deny.find? (·.isMatch flatInput)).map fun pattern =>
    "blocked by PreToolUse hook (" ++ rule.tool ++ "/deny): pattern " ++ debug pattern.asStr
      ++ " matched"

variable (set : HookSet)

/-- Whether a dispatch is denied.  The first matching rule wins. -/
def veto (debug : String → String) (tool flatInput : String) : Veto :=
  match set.rules.findSome? (fires debug tool flatInput) with
  | some reason => .deny reason
  | none => .allow

def isEmpty (set : HookSet) : Bool := set.rules.isEmpty

def Denies (tool flatInput : String) : Prop :=
  ∃ rule ∈ set.rules, rule.tool = tool ∧ ∃ pattern ∈ rule.deny, pattern.isMatch flatInput = true

theorem fires_isSome_iff (debug : String → String) (tool flatInput : String) (rule : ToolHook) :
    (fires debug tool flatInput rule).isSome = true ↔
      rule.tool = tool ∧ ∃ pattern ∈ rule.deny, pattern.isMatch flatInput = true := by
  unfold fires
  split
  · rename_i other
    exact ⟨nofun, fun ⟨same, _⟩ => absurd same other⟩
  · rename_i same
    rw [Option.isSome_map, List.find?_isSome]
    exact ⟨fun found => ⟨not_not.mp same, found⟩, And.right⟩

theorem veto_eq_allow_iff (debug : String → String) (tool flatInput : String) :
    set.veto debug tool flatInput = .allow ↔ ¬ set.Denies tool flatInput := by
  have silent : set.rules.findSome? (fires debug tool flatInput) = none ↔
      ¬ set.Denies tool flatInput := by
    rw [List.findSome?_eq_none_iff]
    simp only [← Option.not_isSome_iff_eq_none, fires_isSome_iff, Denies, not_exists, not_and]
  rw [← silent]
  unfold veto
  cases set.rules.findSome? (fires debug tool flatInput) with
  | none => exact ⟨fun _ => rfl, fun _ => rfl⟩
  | some => exact ⟨nofun, nofun⟩

theorem not_denies_of_isEmpty {set : HookSet} (empty : set.isEmpty = true)
    (tool flatInput : String) : ¬ set.Denies tool flatInput := by
  rintro ⟨rule, mem, -⟩
  rw [List.isEmpty_iff.mp empty] at mem
  exact List.not_mem_nil mem

end HookSet

/-! ## Documents -/

/-- Every rule of the other is still there, for its tool and with its patterns. -/
def Raw.Extends (raw : Raw) (other : Raw) : Prop :=
  ∀ hook ∈ other.preToolUse, ∃ hook' ∈ raw.preToolUse,
    hook'.tool = hook.tool ∧ hook.deny ⊆ hook'.deny

theorem Raw.extends_append (hooks more : List RawHook) : Raw.Extends ⟨hooks ++ more⟩ ⟨hooks⟩ :=
  fun hook mem => ⟨hook, List.mem_append_left more mem, rfl, List.Subset.refl _⟩

theorem Raw.extends_pattern (before after : List RawHook) (hook : RawHook) (pattern : String) :
    Raw.Extends ⟨before ++ { hook with deny := hook.deny ++ [pattern] } :: after⟩
      ⟨before ++ hook :: after⟩ := by
  intro rule mem
  rcases List.mem_append.mp mem with earlier | here
  · exact ⟨rule, List.mem_append_left _ earlier, rfl, List.Subset.refl _⟩
  · rcases List.mem_cons.mp here with rfl | later
    · exact ⟨_, List.mem_append_right _ List.mem_cons_self, rfl, List.subset_append_left _ _⟩
    · exact ⟨rule, List.mem_append_right _ (List.mem_cons_of_mem _ later), rfl,
        List.Subset.refl _⟩

section

variable {reader : Reader}

theorem compileHook_matches {hook : RawHook} {rule : ToolHook}
    (compiled : compileHook reader hook = .ok rule) (flatInput : String) :
    rule.tool = hook.tool ∧ ((∃ pattern ∈ rule.deny, pattern.isMatch flatInput = true) ↔
      ∃ pattern ∈ hook.deny, ∃ isMatch, reader.compile pattern = .ok isMatch ∧
        isMatch flatInput = true) := by
  obtain ⟨deny, collected, rfl⟩ := map_eq_ok.mp compiled
  refine ⟨rfl, ?_⟩
  simp only [mem_iff_of_mapM_eq_ok collected, mapError_eq_ok, Reader.regex, map_eq_ok]
  constructor
  · rintro ⟨_, ⟨pattern, mem, isMatch, found, rfl⟩, hit⟩
    exact ⟨pattern, mem, isMatch, found, hit⟩
  · rintro ⟨pattern, mem, isMatch, found, hit⟩
    exact ⟨_, ⟨pattern, mem, isMatch, found, rfl⟩, hit⟩

theorem denies_parse_iff {yaml : String} {set : HookSet} (parsed : parse reader yaml = .ok set) :
    ∃ raw, reader.fromYaml yaml = .ok raw ∧ ∀ tool flatInput, set.Denies tool flatInput ↔
      ∃ hook ∈ raw.preToolUse, hook.tool = tool ∧ ∃ pattern ∈ hook.deny, ∃ isMatch,
        reader.compile pattern = .ok isMatch ∧ isMatch flatInput = true := by
  obtain ⟨raw, read, compiled⟩ := bind_eq_ok.mp parsed
  obtain ⟨rules, collected, rfl⟩ := map_eq_ok.mp compiled
  refine ⟨raw, mapError_eq_ok.mp read, fun tool flatInput => ?_⟩
  constructor
  · rintro ⟨rule, mem, rfl, hit⟩
    obtain ⟨hook, inRaw, found⟩ := mem_of_mapM_eq_ok collected mem
    obtain ⟨same, hits⟩ := compileHook_matches found flatInput
    exact ⟨hook, inRaw, same.symm, hits.mp hit⟩
  · rintro ⟨hook, inRaw, rfl, hit⟩
    obtain ⟨rule, mem, found⟩ :=
      exists_of_mem_forall₂ (forall₂_of_mapM_eq_ok collected).flip inRaw
    obtain ⟨same, hits⟩ := compileHook_matches found flatInput
    exact ⟨rule, mem, same, hits.mpr hit⟩

/-- **More rules and patterns deny more**, between documents that load. -/
theorem denies_mono {original extended : String} {set set' : HookSet}
    (more : ∀ raw raw', reader.fromYaml original = .ok raw → reader.fromYaml extended = .ok raw' →
      raw'.Extends raw) (parsed : parse reader original = .ok set)
    (parsed' : parse reader extended = .ok set') {tool flatInput : String}
    (denied : set.Denies tool flatInput) : set'.Denies tool flatInput := by
  obtain ⟨raw, read, denies⟩ := denies_parse_iff parsed
  obtain ⟨raw', read', denies'⟩ := denies_parse_iff parsed'
  obtain ⟨hook, mem, rfl, pattern, inDeny, isMatch, compiled, hit⟩ :=
    (denies tool flatInput).mp denied
  obtain ⟨hook', mem', same, fewer⟩ := more raw raw' read read' hook mem
  exact (denies' hook.tool flatInput).mpr
    ⟨hook', mem', same, pattern, fewer inDeny, isMatch, compiled, hit⟩

end

def Loads (file : FileRead) : Prop :=
  ∃ text set, file = .content text ∧ parse reader text = .ok set

theorem isEmpty_of_not_loads {reader : Reader} {file : FileRead}
    (unloaded : ¬ Loads reader file) : (loadFromWorkspace reader file).isEmpty = true := by
  cases file with
  | notFound => rfl
  | failed => rfl
  | content text =>
    cases parsed : parse reader text with
    | ok set => exact absurd ⟨text, set, rfl, parsed⟩ unloaded
    | error =>
      rw [loadFromWorkspace, parsed]
      rfl

end Havn.Runtime.Hooks
