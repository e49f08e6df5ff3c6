import Havn.Gateway.Gemini

/-!
# Tool schemas sent to Gemini

`sanitizeSchemaForGemini` removes the stripped keys from every object.  Most objects of a schema are
keyed by keywords, but `properties` is keyed by the names of parameters.
-/

namespace Havn.Gateway.Gemini

open Lib List

/-! ## The walk of the code -/

theorem sanitizeItems_eq (items : List Json) :
    sanitizeItems items = items.map sanitizeSchemaForGemini := by
  induction items with
  | nil => rfl
  | cons item items ih => rw [sanitizeItems, ih, map_cons]

variable (fields : List (String × Json))

theorem sanitizeFields_eq :
    sanitizeFields fields = (fields.filter (·.1 ∉ strip)).map
      fun field => (field.1, sanitizeSchemaForGemini field.2) := by
  induction fields with
  | nil => rfl
  | cons field fields ih =>
    obtain ⟨key, child⟩ := field
    rw [sanitizeFields]
    by_cases stripped : key ∈ strip
    · rw [if_pos stripped, ih, filter_cons_of_neg (by simpa using stripped)]
    · rw [if_neg stripped, ih, filter_cons_of_pos (by simpa using stripped), map_cons]

theorem sanitize_object :
    sanitizeSchemaForGemini (.object fields) = .object (sanitizeFields fields) := by
  rw [sanitizeSchemaForGemini]

theorem sanitize_array (items : List Json) :
    sanitizeSchemaForGemini (.array items) = .array (items.map sanitizeSchemaForGemini) := by
  rw [sanitizeSchemaForGemini, sanitizeItems_eq]

theorem lookup_sanitizeFields (key : String) :
    (sanitizeFields fields).lookup key =
      if key ∈ strip then none else (fields.lookup key).map sanitizeSchemaForGemini := by
  induction fields with
  | nil =>
    rw [sanitizeFields]
    split <;> rfl
  | cons field fields ih =>
    obtain ⟨key', child⟩ := field
    rw [sanitizeFields]
    by_cases stripped : key' ∈ strip
    · rw [if_pos stripped, ih]
      split
      · rfl
      rename_i kept
      have other : (key == key') = false :=
        beq_eq_false_iff_ne.mpr fun same => kept (same ▸ stripped)
      rw [lookup_cons, other]
    · rw [if_neg stripped, lookup_cons, lookup_cons]
      by_cases same : key = key'
      · subst same
        rw [if_neg stripped, beq_self_eq_true]
        rfl
      · rw [beq_eq_false_iff_ne.mpr same]
        exact ih

theorem lookup_sanitizeFields_eq_some {fields : List (String × Json)} {key : String}
    {child' : Json} : (sanitizeFields fields).lookup key = some child' ↔
      key ∉ strip ∧ ∃ child, fields.lookup key = some child ∧
        sanitizeSchemaForGemini child = child' := by
  rw [lookup_sanitizeFields]
  split
  · rename_i stripped
    exact ⟨nofun, fun held => absurd stripped held.1⟩
  · rename_i kept
    rw [Option.map_eq_some_iff]
    exact ⟨fun found => ⟨kept, found⟩, fun held => held.2⟩

theorem sanitize_eq_object {value : Json} {fields' : List (String × Json)}
    (sent : sanitizeSchemaForGemini value = .object fields') :
    ∃ fields, value = .object fields ∧ sanitizeFields fields = fields' := by
  cases value with
  | object fields =>
    rw [sanitize_object] at sent
    exact ⟨fields, rfl, Json.object.inj sent⟩
  | _ => simp [sanitizeSchemaForGemini] at sent

theorem sanitize_eq_array {value : Json} {items' : List Json}
    (sent : sanitizeSchemaForGemini value = .array items') :
    ∃ items, value = .array items ∧ items.map sanitizeSchemaForGemini = items' := by
  cases value with
  | array items =>
    rw [sanitize_array] at sent
    exact ⟨items, rfl, Json.array.inj sent⟩
  | _ => simp [sanitizeSchemaForGemini] at sent

theorem sanitize_idem (value : Json) :
    sanitizeSchemaForGemini (sanitizeSchemaForGemini value) = sanitizeSchemaForGemini value := by
  induction value using Json.induction with
  | null => rfl
  | bool => rfl
  | number => rfl
  | string => rfl
  | array items ih =>
    rw [sanitize_array, sanitize_array, map_map]
    exact congrArg Json.array (map_congr_left ih)
  | object fields ih =>
    rw [sanitize_object, sanitize_object, sanitizeFields_eq, sanitizeFields_eq, filter_map,
      map_map, filter_filter]
    simp only [Function.comp_def, Bool.and_self]
    refine congrArg Json.object (map_congr_left fun field mem => ?_)
    rw [ih field (mem_of_mem_filter mem)]

inductive Inside : Json → Json → Prop
  | self (value : Json) : Inside value value
  | item {items : List Json} {item inner : Json} (mem : item ∈ items) (inside : Inside item inner) :
      Inside (.array items) inner
  | field {fields : List (String × Json)} {field : String × Json} {inner : Json}
      (mem : field ∈ fields) (inside : Inside field.2 inner) : Inside (.object fields) inner

theorem not_stripped_of_inside {value : Json} {fields : List (String × Json)}
    (inside : Inside (sanitizeSchemaForGemini value) (.object fields)) :
    ∀ field ∈ fields, field.1 ∉ strip := by
  induction value using Json.induction with
  | null | bool | number | string => cases inside
  | array items ih =>
    rw [sanitize_array] at inside
    cases inside with
    | item mem inside =>
      obtain ⟨item, mem', rfl⟩ := mem_map.mp mem
      exact ih item mem' inside
  | object children ih =>
    rw [sanitize_object, sanitizeFields_eq] at inside
    cases inside with
    | self =>
      intro field mem
      obtain ⟨child, mem', rfl⟩ := mem_map.mp mem
      simpa using (mem_filter.mp mem').2
    | field mem inside =>
      obtain ⟨child, mem', rfl⟩ := mem_map.mp mem
      exact ih child (mem_of_mem_filter mem') inside

/-! ## The walk of the schema -/

/-- `nested` keywords hold a schema or a list of them, `maps` ones, as `properties`, an object that
gives schemas names. -/
structure Vocabulary where
  nested : String → Prop
  maps : String → Prop

inductive Step
  | key (key : String)
  | item (i : ℕ)

variable {vocab : Vocabulary}

inductive Sub (vocab : Vocabulary) : Json → List Step → Json → Prop
  | here (schema : Json) : Sub vocab schema [] schema
  | nested {fields : List (String × Json)} {key : String} {inner schema : Json} {path : List Step}
      (keyword : vocab.nested key) (found : fields.lookup key = some inner)
      (rest : Sub vocab inner path schema) : Sub vocab (.object fields) (.key key :: path) schema
  | item {items : List Json} {i : ℕ} {inner schema : Json} {path : List Step}
      (found : items[i]? = some inner) (rest : Sub vocab inner path schema) :
      Sub vocab (.array items) (.item i :: path) schema
  | named {fields entries : List (String × Json)} {key name : String} {inner schema : Json}
      {path : List Step} (keyword : key = "properties" ∨ vocab.maps key)
      (found : fields.lookup key = some (.object entries))
      (entry : entries.lookup name = some inner) (rest : Sub vocab inner path schema) :
      Sub vocab (.object fields) (.key key :: .key name :: path) schema

def Declares (vocab : Vocabulary) (schema : Json) (path : List Step) (name : String) : Prop :=
  ∃ inner entries, Sub vocab schema path inner ∧ inner.get "properties" = some (.object entries) ∧
    (entries.lookup name).isSome = true

def Requires (vocab : Vocabulary) (schema : Json) (path : List Step) (name : String) : Prop :=
  ∃ inner names, Sub vocab schema path inner ∧ inner.get "required" = some (.array names) ∧
    Json.string name ∈ names

def Kept (path : List Step) : Prop := ∀ key, Step.key key ∈ path → key ∉ strip

theorem kept_cons_key {key : String} {path : List Step} :
    Kept (.key key :: path) ↔ key ∉ strip ∧ Kept path := by
  simp only [Kept, mem_cons, Step.key.injEq, forall_eq_or_imp]

theorem kept_cons_item {i : ℕ} {path : List Step} : Kept (.item i :: path) ↔ Kept path := by
  simp [Kept]

theorem sub_sanitize {schema inner : Json} {path : List Step} (sub : Sub vocab schema path inner)
    (kept : Kept path) : Sub vocab (sanitizeSchemaForGemini schema) path
      (sanitizeSchemaForGemini inner) := by
  induction sub with
  | here => exact .here _
  | nested keyword found rest ih =>
    obtain ⟨here, later⟩ := kept_cons_key.mp kept
    rw [sanitize_object]
    exact .nested keyword (lookup_sanitizeFields_eq_some.mpr ⟨here, _, found, rfl⟩) (ih later)
  | item found rest ih =>
    rw [sanitize_array]
    refine .item ?_ (ih (kept_cons_item.mp kept))
    rw [getElem?_map, found, Option.map_some]
  | named keyword found entry rest ih =>
    obtain ⟨here, next⟩ := kept_cons_key.mp kept
    obtain ⟨name, later⟩ := kept_cons_key.mp next
    rw [sanitize_object]
    exact .named keyword
      (lookup_sanitizeFields_eq_some.mpr ⟨here, _, found, sanitize_object _⟩)
      (lookup_sanitizeFields_eq_some.mpr ⟨name, _, entry, rfl⟩) (ih later)

/-- **The walk over the sanitized schema** is that over the original along the paths that are
kept. -/
theorem sub_sanitize_iff {schema inner' : Json} {path : List Step} :
    Sub vocab (sanitizeSchemaForGemini schema) path inner' ↔
      ∃ inner, Sub vocab schema path inner ∧ Kept path ∧
        inner' = sanitizeSchemaForGemini inner := by
  constructor
  · intro sub
    generalize sent : sanitizeSchemaForGemini schema = value at sub
    induction sub generalizing schema with
    | here => exact ⟨schema, .here _, nofun, sent.symm⟩
    | nested keyword found rest ih =>
      obtain ⟨fields, rfl, rfl⟩ := sanitize_eq_object sent
      obtain ⟨here, child, found', same⟩ := lookup_sanitizeFields_eq_some.mp found
      obtain ⟨inner, sub, later, rfl⟩ := ih same
      exact ⟨inner, .nested keyword found' sub, kept_cons_key.mpr ⟨here, later⟩, rfl⟩
    | item found rest ih =>
      obtain ⟨items, rfl, rfl⟩ := sanitize_eq_array sent
      rw [getElem?_map, Option.map_eq_some_iff] at found
      obtain ⟨item, found', same⟩ := found
      obtain ⟨inner, sub, later, rfl⟩ := ih same
      exact ⟨inner, .item found' sub, kept_cons_item.mpr later, rfl⟩
    | named keyword found entry rest ih =>
      obtain ⟨fields, rfl, rfl⟩ := sanitize_eq_object sent
      obtain ⟨here, named, found', same⟩ := lookup_sanitizeFields_eq_some.mp found
      obtain ⟨entries, rfl, rfl⟩ := sanitize_eq_object same
      obtain ⟨name, child, entry', same'⟩ := lookup_sanitizeFields_eq_some.mp entry
      obtain ⟨inner, sub, later, rfl⟩ := ih same'
      exact ⟨inner, .named keyword found' entry' sub,
        kept_cons_key.mpr ⟨here, kept_cons_key.mpr ⟨name, later⟩⟩, rfl⟩
  · rintro ⟨inner, sub, kept, rfl⟩
    exact sub_sanitize sub kept

/-! ## What the sent schema declares -/

variable {schema : Json} {path : List Step} {name : String}

/-- **What is declared afterwards**: the parameters whose name and path are kept. -/
theorem declares_sanitize_iff : Declares vocab (sanitizeSchemaForGemini schema) path name ↔
    Declares vocab schema path name ∧ Kept path ∧ name ∉ strip := by
  constructor
  · rintro ⟨inner', entries', sub', held, declared⟩
    obtain ⟨inner, sub, kept, rfl⟩ := sub_sanitize_iff.mp sub'
    cases inner with
    | object =>
      rw [sanitize_object] at held
      obtain ⟨-, named, found, same⟩ := lookup_sanitizeFields_eq_some.mp held
      obtain ⟨entries, rfl, rfl⟩ := sanitize_eq_object same
      obtain ⟨child', entry⟩ := Option.isSome_iff_exists.mp declared
      obtain ⟨own, child, entry', -⟩ := lookup_sanitizeFields_eq_some.mp entry
      exact ⟨⟨_, entries, sub, found, Option.isSome_iff_exists.mpr ⟨child, entry'⟩⟩, kept, own⟩
    | array => rw [sanitize_array] at held; cases held
    | _ => cases held
  · rintro ⟨⟨inner, entries, sub, held, declared⟩, kept, own⟩
    cases inner with
    | object =>
      obtain ⟨child, entry⟩ := Option.isSome_iff_exists.mp declared
      refine ⟨_, sanitizeFields entries, sub_sanitize sub kept, ?_, ?_⟩
      · rw [sanitize_object]
        exact lookup_sanitizeFields_eq_some.mpr ⟨by decide, _, held, sanitize_object _⟩
      · exact Option.isSome_iff_exists.mpr
          ⟨_, lookup_sanitizeFields_eq_some.mpr ⟨own, child, entry, rfl⟩⟩
    | _ => cases held

structure SchemaLaws (vocab : Vocabulary) (schema sent : Json) : Prop where
  clean : ∀ fields, Inside sent (.object fields) → ∀ field ∈ fields, field.1 ∉ strip
  names : ∀ path name, Declares vocab sent path name ↔ Declares vocab schema path name
  required : ∀ path name, Requires vocab schema path name → Declares vocab schema path name →
    Declares vocab sent path name
  again : sanitizeSchemaForGemini sent = sent

def Spared (vocab : Vocabulary) (schema : Json) : Prop :=
  ∀ path name, Declares vocab schema path name → Kept path ∧ name ∉ strip

theorem schemaLaws_iff :
    SchemaLaws vocab schema (sanitizeSchemaForGemini schema) ↔ Spared vocab schema := by
  constructor
  · intro laws path name declared
    exact (declares_sanitize_iff.mp ((laws.names path name).mpr declared)).2
  · intro spared
    have names : ∀ path name, Declares vocab (sanitizeSchemaForGemini schema) path name ↔
        Declares vocab schema path name := fun path name =>
      declares_sanitize_iff.trans (and_iff_left_of_imp (spared path name))
    exact
      { clean := fun _ => not_stripped_of_inside
        names := names
        required := fun path name _ => (names path name).mpr
        again := sanitize_idem schema }

/-- **The declarations sent to Gemini** are right exactly when no parameter is named like a stripped
keyword or declared under one. -/
theorem sent_schemas_iff (vocab : Vocabulary) (print : Json → String) (tools : List Json)
    (out : Json) (translated : translateToolsToGemini print (.array tools) = .ok out) :
    ∃ declarations, out = .array [.object [("functionDeclarations", .array declarations)]] ∧
      List.Forall₂ (fun tool declaration => ∃ sent, declaration.get "parameters" = some sent ∧
        (SchemaLaws vocab (inputSchema tool) sent ↔ Spared vocab (inputSchema tool)))
        tools declarations := by
  obtain ⟨declarations, each, rfl⟩ := map_eq_ok.mp translated
  refine ⟨declarations, rfl, (forall₂_of_mapM_eq_ok each).imp fun tool declaration done => ?_⟩
  unfold translateTool at done
  cases name : tool.strAt "name" with
  | none => rw [name] at done; cases done
  | some =>
    rw [name] at done
    obtain rfl := Except.ok.inj done
    exact ⟨_, rfl, schemaLaws_iff⟩

def schemars : Vocabulary where
  nested key := key ∈ ["items", "additionalProperties", "not", "allOf", "anyOf", "oneOf"]
  maps key := key ∈ ["definitions", "$defs"]

def citySchema : Json := .object [("type", .string "string"), ("title", .string "City")]

def weatherTool : Json :=
  .object [("name", .string "weather"), ("input_schema", .object [("type", .string "object"),
    ("properties", .object [("city", citySchema)]), ("required", .array [.string "city"]),
    ("additionalProperties", .bool false)])]

theorem not_declares_city (path : List Step) (name : String) :
    ¬ Declares schemars citySchema path name := by
  rintro ⟨inner, entries, sub, held, -⟩
  cases sub with
  | here => cases held
  | nested keyword found =>
    simp only [schemars, mem_cons, not_mem_nil, or_false] at keyword
    rcases keyword with rfl | rfl | rfl | rfl | rfl | rfl <;> cases found
  | named keyword found =>
    simp only [schemars, mem_cons, not_mem_nil, or_false] at keyword
    rcases keyword with rfl | rfl | rfl <;> cases found

theorem weather_spared : Spared schemars (inputSchema weatherTool) := by
  rintro path name ⟨inner, entries, sub, held, declared⟩
  cases sub with
  | here =>
    obtain rfl : [("city", citySchema)] = entries := Json.object.inj (Option.some.inj held)
    refine ⟨nofun, fun stripped => ?_⟩
    have other : ∀ key ∈ strip, (List.lookup key [("city", citySchema)]).isSome = false := by
      decide
    rw [other name stripped] at declared
    cases declared
  | nested keyword found rest =>
    -- `additionalProperties` is there, but holds no schema
    simp only [schemars, mem_cons, not_mem_nil, or_false] at keyword
    rcases keyword with rfl | rfl | rfl | rfl | rfl | rfl
    · cases found
    · obtain rfl := Option.some.inj found
      cases rest
      cases held
    all_goals cases found
  | @named _ entries' _ name' _ _ _ keyword found entry rest =>
    simp only [schemars, mem_cons, not_mem_nil, or_false] at keyword
    rcases keyword with rfl | rfl | rfl
    · obtain rfl : [("city", citySchema)] = entries' := Json.object.inj (Option.some.inj found)
      rw [lookup_cons] at entry
      split at entry
      · obtain rfl := Option.some.inj entry
        exact absurd ⟨inner, entries, rest, held, declared⟩ (not_declares_city _ name)
      · cases entry
    all_goals cases found

theorem weather_sent :
    ∃ declaration sent, translateToolsToGemini (fun _ => "") (.array [weatherTool]) =
        .ok (.array [.object [("functionDeclarations", .array [declaration])]]) ∧
      declaration.get "parameters" = some sent ∧
      SchemaLaws schemars (inputSchema weatherTool) sent := by
  obtain ⟨declarations, same, pairs⟩ := sent_schemas_iff schemars (fun _ => "") [weatherTool] _ rfl
  cases pairs with
  | @cons _ declaration _ _ first rest =>
    cases rest
    obtain ⟨sent, parameters, laws⟩ := first
    exact ⟨declaration, sent, congrArg Except.ok same, parameters, laws.mpr weather_spared⟩

def noteTool : Json :=
  .object [("name", .string "note"), ("input_schema", .object [("type", .string "object"),
    ("properties", .object [("title", .object [("type", .string "string")]),
      ("body", .object [("type", .string "string")])]),
    ("required", .array [.string "title"])])]

theorem title_lost :
    Declares schemars (inputSchema noteTool) [] "title" ∧
      Requires schemars (inputSchema noteTool) [] "title" ∧
      Requires schemars (sanitizeSchemaForGemini (inputSchema noteTool)) [] "title" ∧
      ¬ Declares schemars (sanitizeSchemaForGemini (inputSchema noteTool)) [] "title" := by
  refine ⟨⟨_, _, .here _, rfl, rfl⟩, ⟨_, _, .here _, rfl, mem_singleton_self _⟩,
    ⟨_, _, .here _, rfl, mem_singleton_self _⟩, fun declared => ?_⟩
  exact (declares_sanitize_iff.mp declared).2.2 (by decide)

end Havn.Gateway.Gemini
