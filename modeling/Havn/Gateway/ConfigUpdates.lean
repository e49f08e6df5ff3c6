import Havn.Lib.Keyed
import Havn.Gateway.AgentApi

/-!
# Updates of an agent's config

Both `PATCH` endpoints read the config of the agent, change it and write the whole of it back.
Edits of different parts commute (`Edit.Disjoint`, `Edit.contains_of_disjoint`).
-/

namespace Havn.Gateway.AgentApi

open Havn.Core Lib Lib.Decode Db Api List
open McpApi (McpPatch)

/-! ## Edits of different parts -/

variable (patch : List (String × Json))

def valueAt (key : String) : Option (Option Json) :=
  (patch.reverse.lookup key).map fun
    | .null => none
    | value => some value

theorem lookup_mergeEntry (base : List (String × Json)) (entry : String × Json) (key : String) :
    (mergeEntry base entry).lookup key = (valueAt [entry] key).getD (base.lookup key) := by
  obtain ⟨name, value⟩ := entry
  by_cases same : key = name
  · subst same
    have own : valueAt [(key, value)] key = some (match value with
        | .null => none
        | value => some value) := by
      rw [valueAt, reverse_singleton, lookup_cons_self]
      rfl
    rw [own]
    cases value with
    | null => exact lookup_removeField_self key base
    | bool | number | string | array | object => exact lookup_setField_self key _ base
  · have untouched : valueAt [(name, value)] key = none := by
      rw [valueAt, reverse_singleton, lookup_cons, beq_false_of_ne same]
      rfl
    rw [untouched]
    cases value with
    | null => exact lookup_removeField_of_ne same base
    | bool | number | string | array | object => exact lookup_setField_of_ne same _ base

theorem valueAt_append (entry : String × Json) (key : String) :
    valueAt (patch ++ [entry]) key = (valueAt [entry] key).or (valueAt patch key) := by
  unfold valueAt
  rw [reverse_append, reverse_singleton, singleton_append, lookup_cons,
    lookup_cons]
  cases key == entry.1 <;> rfl

/-- **What is merged at a key.** -/
theorem lookup_merge (base patch : List (String × Json)) (key : String) :
    (patch.foldl mergeEntry base).lookup key = (valueAt patch key).getD (base.lookup key) := by
  induction patch using List.reverseRecOn with
  | nil => rfl
  | append_singleton patch entry ih =>
    rw [foldl_append, foldl_cons, foldl_nil, lookup_mergeEntry, ih, valueAt_append]
    cases valueAt [entry] key <;> rfl

theorem valueAt_eq_none {patch : List (String × Json)} {key : String}
    (absent : key ∉ patch.map Prod.fst) : valueAt patch key = none := by
  rw [valueAt, Option.map_eq_none_iff, lookup_eq_none_iff]
  intro entry mem
  refine bne_iff_ne.mpr ?_
  rintro rfl
  exact absent (mem_map_of_mem (mem_reverse.mp mem))

theorem get_merge (config : Json) (key : String) :
    (merge patch config).get key = (valueAt patch key).getD (config.get key) := by
  rw [McpApi.get_eq_lookup config]
  exact lookup_merge _ patch key

def PatchAgentRequest.keys (request : PatchAgentRequest) : List String :=
  (request.config.getD []).map Prod.fst

namespace Edit

/-- The MCP settings are two parts of the policy, and the policy is a key that a patch can set. -/
def Disjoint : Edit → Edit → Prop
  | .agent request, .agent other => ∀ key ∈ request.keys, key ∉ other.keys
  | .agent request, .mcp _ => "policy" ∉ request.keys
  | .mcp _, .agent other => "policy" ∉ other.keys
  | .mcp request, .mcp other =>
    (request.canUseMcp = none ∨ other.canUseMcp = none) ∧
      (request.servers = none ∨ other.servers = none)

theorem Disjoint.symm {edit other : Edit} (disjoint : edit.Disjoint other) :
    other.Disjoint edit := by
  cases edit with
  | agent =>
    cases other with
    | agent => exact fun key mem mem' => disjoint key mem' mem
    | mcp => exact disjoint
  | mcp =>
    cases other with
    | agent => exact disjoint
    | mcp => exact ⟨disjoint.1.symm, disjoint.2.symm⟩

instance (edit other : Edit) : Decidable (edit.Disjoint other) := by
  unfold Edit.Disjoint
  split <;> infer_instance

def Contained (config : Json) : Edit → Prop
  | .agent request => ∀ key value, valueAt (request.config.getD []) key = some value →
      config.get key = value
  | .mcp request =>
    (∀ can, request.canUseMcp = some can →
      ((config.get "policy").bind (Json.get "permissions")).bind (Json.get "can_use_mcp") =
        some (.bool can)) ∧
    ∀ servers, request.servers = some servers →
      (config.get "policy").bind (Json.get "mcp_servers") =
        some (McpServerConfig.mapToValue servers)

end Edit

theorem get_policy (config : Json) (key : String) :
    (config.get "policy").bind (Json.get key) =
      (McpApi.objectAt "policy" (config.asObject.getD [])).lookup key := by
  rw [McpApi.get_eq_lookup, McpApi.objectAt]
  cases (config.asObject.getD []).lookup "policy" with
  | none => rfl
  | some value => exact McpApi.get_eq_lookup value key

variable (request : McpPatch) (policy : List (String × Json))

theorem lookup_permissions :
    (McpApi.splicePolicy request policy).lookup "permissions" =
      match request.canUseMcp with
      | none => policy.lookup "permissions"
      | some can => some (.object (setField "can_use_mcp" (.bool can)
          (McpApi.objectAt "permissions" policy))) := by
  have servers : (McpApi.splicePolicy request policy).lookup "permissions" =
      (McpApi.splicePermissions request.canUseMcp policy).lookup "permissions" := by
    unfold McpApi.splicePolicy McpApi.spliceServers
    cases request.servers with
    | none => rfl
    | some => exact lookup_setField_of_ne (by decide) _ _
  rw [servers]
  cases request.canUseMcp with
  | none => rfl
  | some => exact lookup_setField_self _ _ _

theorem lookup_servers :
    (McpApi.splicePolicy request policy).lookup "mcp_servers" =
      match request.servers with
      | none => policy.lookup "mcp_servers"
      | some servers => some (McpServerConfig.mapToValue servers) := by
  unfold McpApi.splicePolicy
  cases request.servers with
  | some => exact lookup_setField_self _ _ _
  | none =>
    show (McpApi.splicePermissions request.canUseMcp policy).lookup "mcp_servers" = _
    cases request.canUseMcp with
    | none => rfl
    | some => exact lookup_setField_of_ne (by decide) _ _

namespace Edit

variable {edit other : Edit} {current : Json}

def applied (edit : Edit) (current : Json) : Json := (edit.config current).getD current

theorem applied_mcp_policy (current : Json) (key : String) :
    (((Edit.mcp request).applied current).get "policy").bind (Json.get key) =
      (McpApi.splicePolicy request
        (McpApi.objectAt "policy" (current.asObject.getD []))).lookup key := by
  show ((McpApi.splice request current).get "policy").bind _ = _
  rw [McpApi.get_splice_policy]
  rfl

/-- **An edit is contained in what it writes.** -/
theorem contained_applied (edit : Edit) (current : Json) :
    Contained (edit.applied current) edit := by
  cases edit with
  | agent request =>
    intro key value set
    cases given : request.config with
    | none =>
      rw [given] at set
      cases set
    | some patch =>
      rw [given] at set
      have written : (Edit.agent request).applied current = merge patch current := by
        simp only [applied, config, given, Option.map_some, Option.getD_some]
      change valueAt patch key = some value at set
      rw [written, get_merge, set]
      rfl
  | mcp =>
    constructor
    · intro can given
      rw [applied_mcp_policy, lookup_permissions, given]
      exact lookup_setField_self _ _ _
    · intro servers given
      rw [applied_mcp_policy, lookup_servers, given]

theorem get_applied_agent {request : PatchAgentRequest} {key : String}
    (untouched : key ∉ request.keys) (current : Json) :
    ((Edit.agent request).applied current).get key = current.get key := by
  show ((request.config.map fun patch => merge patch current).getD current).get key = _
  cases given : request.config with
  | none => rfl
  | some patch =>
    have absent : key ∉ patch.map Prod.fst := by
      rwa [PatchAgentRequest.keys, given] at untouched
    show (merge patch current).get key = _
    rw [get_merge, valueAt_eq_none absent]
    rfl

/-- **An edit of other parts keeps what is contained.** -/
theorem contained_of_disjoint (disjoint : edit.Disjoint other)
    (contained : Contained current edit) : Contained (other.applied current) edit := by
  cases edit with
  | agent request =>
    intro key value set
    have touched : key ∈ request.keys := by
      by_contra absent
      cases (valueAt_eq_none absent).symm.trans set
    rw [← contained key value set]
    cases other with
    | agent => exact get_applied_agent (disjoint key touched) current
    | mcp request' =>
      refine McpApi.get_splice_of_ne ?_ request' current
      rintro rfl
      exact disjoint touched
  | mcp =>
    cases other with
    | agent =>
      have same := get_applied_agent disjoint current
      unfold Contained
      rw [same]
      exact contained
    | mcp =>
      obtain ⟨permission, servers⟩ := disjoint
      constructor
      · intro can given
        rcases permission with absent | absent
        · cases absent.symm.trans given
        rw [applied_mcp_policy, lookup_permissions, absent]
        show (List.lookup "permissions" _).bind _ = _
        rw [← get_policy]
        exact contained.1 can given
      · intro configs given
        rcases servers with absent | absent
        · cases absent.symm.trans given
        rw [applied_mcp_policy, lookup_servers, absent]
        show List.lookup "mcp_servers" _ = _
        rw [← get_policy]
        exact contained.2 configs given

end Edit

/-! ## The config of an agent -/

def configOf (db : GatewayDb) (agent : AgentId) : Option Json :=
  (db.agents.find? (·.id = agent)).map Agent.config

section ConfigOf

variable {db db' : GatewayDb} {agent id : AgentId} {name : Option String} {config : Option Json}

def UniqueIds (db : GatewayDb) : Prop := (db.agents.map (·.id)).Nodup

theorem configOf_of_mem {row : Agent} (unique : UniqueIds db) (mem : row ∈ db.agents) :
    configOf db row.id = some row.config := by
  rw [configOf, find?_eq_some_of_unique unique mem (decide_eq_true rfl) fun _ => of_decide_eq_true]
  rfl

theorem configOf_update (written : Agents.update db id name config = .ok db') :
    configOf db' agent =
      (configOf db agent).map fun current =>
        if agent = id then config.getD current else current := by
  obtain rfl := Agents.update_eq_ok written
  have found : ∀ row : Agent,
      decide ((if row.id = id then Agents.updated name config row else row).id = agent) =
        decide (row.id = agent) := by
    intro row
    by_cases same : row.id = id
    · rw [if_pos same]; rfl
    · rw [if_neg same]
  unfold configOf
  rw [find?_map]
  simp only [Function.comp_def, found]
  cases mem : db.agents.find? (·.id = agent) with
  | none => rfl
  | some row =>
    have isAgent : row.id = agent := by simpa using find?_some mem
    simp only [Option.map_some, isAgent]
    by_cases same : agent = id
    · rw [if_pos same, if_pos same]; rfl
    · rw [if_neg same, if_neg same]

theorem configOf_insert {row : Agent} {current : Json} (inserted : Agents.insert db row = .ok db')
    (found : configOf db agent = some current) : configOf db' agent = some current := by
  obtain ⟨-, rfl⟩ := Agents.insert_eq_ok inserted
  obtain ⟨old, isOld, rfl⟩ := Option.map_eq_some_iff.mp found
  rw [configOf, find?_append, isOld]
  rfl

theorem uniqueIds_update (unique : UniqueIds db)
    (written : Agents.update db id name config = .ok db') : UniqueIds db' := by
  obtain rfl := Agents.update_eq_ok written
  unfold UniqueIds
  rw [map_map]
  refine (congrArg List.Nodup (map_congr_left fun row _ => ?_)).mpr unique
  show (if row.id = id then Agents.updated name config row else row).id = row.id
  split <;> rfl

theorem uniqueIds_insert {row : Agent} (unique : UniqueIds db)
    (inserted : Agents.insert db row = .ok db') : UniqueIds db' := by
  obtain ⟨fresh, rfl⟩ := Agents.insert_eq_ok inserted
  show ((db.agents ++ [row]).map (·.id)).Nodup
  rw [map_append, nodup_append]
  refine ⟨unique, nodup_singleton _, ?_⟩
  intro id mem id' new
  obtain ⟨old, isOld, rfl⟩ := mem_map.mp mem
  rw [map_singleton, mem_singleton] at new
  rw [new]
  exact fresh old isOld

theorem uniqueIds_written {call : Call} (unique : UniqueIds db) (written : Written db call db') :
    UniqueIds db' := by
  cases written with
  | same => exact unique
  | inserted _ done => exact uniqueIds_insert unique done
  | updated _ done => exact uniqueIds_update unique done

end ConfigOf

/-! ## What a call holds -/

def Call.edit (call : Call) : Option Edit :=
  match call.request.endpoint with
  | .patch _ edit => some edit
  | .create _ => none

def Stored (db : GatewayDb) (agent : AgentId) (edit : Edit) : Prop :=
  ∃ config, configOf db agent = some config ∧ edit.Contained config

/-- Before the write it holds its edit of the config that is there; from the write on its edit is
stored. -/
def Phase.Current (agent : AgentId) (db : GatewayDb) (call : Call) : Phase → Prop
  | .resolving _ edit => call.edit = some edit ∧ call.resolved = none
  | .writing edit id config => call.edit = some edit ∧ call.resolved = some id ∧
      (id = agent → ∃ current, configOf db agent = some current ∧ config = edit.config current)
  | .rereading edit id => call.edit = some edit ∧ call.resolved = some id ∧
      (id = agent → Stored db agent edit)
  | .auditing _ _ | .answered (.ok _) => ∀ edit ∈ call.edit, call.resolved = some agent →
      Stored db agent edit
  | .answered (.error _) | .dropped => True
  | .resolvingPolicy _ | .counting .. | .inserting _ | .rereadingNew | .ensuring _
  | .auditingNew _ => call.resolved = none

def Current (agent : AgentId) (db : GatewayDb) (call : Call) : Prop :=
  call.phase.Current agent db call

def Phase.holds (agent : AgentId) : Phase → Bool
  | .writing _ id (some _) => id = agent
  | _ => false

/-- No request writes the agent's config while another one is between its read and its
write. -/
def Unshared (agent : AgentId) (s : State) : Label → Prop
  | .act n .done => ∀ call ∈ s.calls[n]?, call.phase.holds agent = true →
      ∀ other ∈ s.calls.eraseIdx n, other.phase.holds agent = false
  | _ => True

instance (agent : AgentId) (s : State) (label : Label) : Decidable (Unshared agent s label) := by
  unfold Unshared
  split <;> infer_instance

def DisjointOn (agent : AgentId) (call call' : Call) : Prop :=
  call.resolved = some agent → call'.resolved = some agent →
    ∀ edit ∈ call.edit, ∀ edit' ∈ call'.edit, edit.Disjoint edit'
  deriving Decidable

variable {agent : AgentId}

theorem DisjointOn.symm {call call' : Call}
    (disjoint : DisjointOn agent call call') : DisjointOn agent call' call :=
  fun mine mine' edit asked edit' asked' => (disjoint mine' mine edit' asked' edit asked).symm

def PairwiseDisjoint (agent : AgentId) (s : State) : Prop := s.calls.Pairwise (DisjointOn agent)

theorem pairwiseDisjoint_iff {s : State} : PairwiseDisjoint agent s ↔
    ∀ (n n' : ℕ) (call call' : Call), n ≠ n' → s.calls[n]? = some call →
      s.calls[n']? = some call' → DisjointOn agent call call' := by
  unfold PairwiseDisjoint
  rw [pairwise_iff_getElem]
  constructor
  · intro pairwise n n' call call' different found found'
    obtain ⟨bound, rfl⟩ := List.getElem?_eq_some_iff.mp found
    obtain ⟨bound', rfl⟩ := List.getElem?_eq_some_iff.mp found'
    rcases Nat.lt_or_gt_of_ne different with lt | gt
    · exact pairwise n n' bound bound' lt
    · exact (pairwise n' n bound' bound gt).symm
  · intro indexed n n' bound bound' lt
    exact indexed n n' _ _ (Nat.ne_of_lt lt) (getElem?_eq_getElem bound)
      (getElem?_eq_getElem bound')

section Current

variable {server : Server} {agent : AgentId} {db db' : GatewayDb} {store : Store}
  {call other : Call} {edit : Edit} {config : Option Json}

theorem current_begin (request : Request) : Current agent db (begin request) := by
  unfold Current begin
  cases endpoint : request.endpoint with
  | create =>
    dsimp only
    split
    · trivial
    · rfl
  | patch path edit => exact ⟨by simp only [Call.edit, endpoint], rfl⟩

theorem configOf_written {id : AgentId} (phase : call.phase = .writing edit id config)
    (current : Current agent db call) (written : Agents.update db id edit.name config = .ok db') :
    configOf db' agent =
      (configOf db agent).map fun old => if id = agent then edit.applied old else old := by
  unfold Current at current
  rw [phase] at current
  rw [configOf_update written]
  by_cases mine : id = agent
  · subst mine
    obtain ⟨old, found, rfl⟩ := current.2.2 rfl
    rw [found, Option.map_some, Option.map_some, if_pos rfl, if_pos rfl]
    rfl
  · simp only [if_neg mine, if_neg (Ne.symm mine)]

/-- **What is stored stays stored**, unless an edit of the same part is written. -/
theorem Stored.written {edit' : Edit} (stored : Stored db agent edit')
    (current : Current agent db call)
    (disjoint : ∀ edit config, call.phase = .writing edit agent config → edit'.Disjoint edit)
    (written : Written db call db') : Stored db' agent edit' := by
  obtain ⟨config, found, contained⟩ := stored
  cases written with
  | same => exact ⟨config, found, contained⟩
  | inserted phase done => exact ⟨config, configOf_insert done found, contained⟩
  | @updated edit id new _ phase done =>
    have after := configOf_written phase current done
    rw [found, Option.map_some] at after
    refine ⟨_, after, ?_⟩
    split
    · rename_i mine
      exact Edit.contained_of_disjoint (disjoint edit new (mine ▸ phase)) contained
    · exact contained

theorem stored_update (phase : call.phase = .writing edit agent config)
    (current : Current agent db call)
    (written : Agents.update db agent edit.name config = .ok db') : Stored db' agent edit := by
  have after := configOf_written phase current written
  unfold Current at current
  rw [phase] at current
  obtain ⟨old, found, -⟩ := current.2.2 rfl
  rw [found, Option.map_some, if_pos rfl] at after
  exact ⟨_, after, Edit.contained_applied edit old⟩

theorem current_act {await : Await} {after : Store × Call} (unique : UniqueIds store.db)
    (current : Current agent store.db call) (acted : act server store call await = some after) :
    Current agent after.1.db after.2 := by
  have before := current
  unfold Current at before
  cases act_spec acted with
  | refused | dropped => trivial
  | capped phase | admitted phase | inserted phase | rereadNew phase | ensured phase =>
    rw [phase] at before
    exact before
  | created phase =>
    rw [phase] at before
    intro edit _ mine
    cases before.symm.trans mine
  | resolved phase found =>
    -- the row that the path is resolved to is the row whose config is edited
    rw [phase] at before
    refine ⟨before.1, rfl, ?_⟩
    rintro rfl
    exact ⟨_, configOf_of_mem unique (mem_of_resolveAgent found), rfl⟩
  | updated phase written =>
    rw [phase] at before
    refine ⟨before.1, before.2.1, ?_⟩
    rintro rfl
    exact stored_update phase current written
  | reread phase =>
    rw [phase] at before
    intro edit' asked mine
    cases before.1.symm.trans asked
    exact before.2.2 (Option.some.inj (before.2.1.symm.trans mine))
  | edited phase =>
    rw [phase] at before
    exact before

theorem Edit.config_eq_none {old new : Json} (none_ : edit.config old = none) :
    edit.config new = none := by
  cases edit with
  | agent => exact Option.map_eq_none_iff.mpr (Option.map_eq_none_iff.mp none_)
  | mcp => cases none_

theorem held_written {id : AgentId} {old : Json} (waiting : other.phase = .writing edit id config)
    (own : id = agent) (found : configOf db agent = some old) (held : config = edit.config old)
    (current : Current agent db call)
    (unheld : call.phase.holds agent = true → other.phase.holds agent = false)
    (written : Written db call db') :
    ∃ new, configOf db' agent = some new ∧ config = edit.config new := by
  cases written with
  | same => exact ⟨old, found, held⟩
  | inserted phase done => exact ⟨old, configOf_insert done found, held⟩
  | @updated edit' id' config' _ phase done =>
    have after := configOf_written phase current done
    rw [found, Option.map_some] at after
    refine ⟨_, after, ?_⟩
    split
    · rename_i mine
      subst mine
      unfold Current at current
      rw [phase] at current
      obtain ⟨old', found', writes⟩ := current.2.2 rfl
      cases found.symm.trans found'
      cases config' with
      | none =>
        -- a request that only renames leaves the config as it is
        rw [Edit.applied, ← writes]
        exact held
      | some =>
        have silent : config = none := by
          have idle := unheld (by rw [phase]; exact decide_eq_true rfl)
          rw [waiting] at idle
          cases config with
          | none => rfl
          | some => exact absurd own (of_decide_eq_false idle)
        rw [silent] at held ⊢
        exact (Edit.config_eq_none held.symm).symm
    · exact held

theorem Current.written (theirs : Current agent db other) (current : Current agent db call)
    (unheld : call.phase.holds agent = true → other.phase.holds agent = false)
    (disjoint : ∀ edit config, call.phase = .writing edit agent config →
      other.resolved = some agent → ∀ edit' ∈ other.edit, edit'.Disjoint edit)
    (written : Written db call db') : Current agent db' other := by
  have stored : ∀ edit' ∈ other.edit, other.resolved = some agent → Stored db agent edit' →
      Stored db' agent edit' := fun edit' asked mine before =>
    before.written current (fun edit config phase => disjoint edit config phase mine edit' asked)
      written
  unfold Current at theirs ⊢
  cases phase : other.phase with
  | writing =>
    rw [phase] at theirs
    refine ⟨theirs.1, theirs.2.1, fun own => ?_⟩
    obtain ⟨old, found, held⟩ := theirs.2.2 own
    exact held_written phase own found held current unheld written
  | rereading edit =>
    rw [phase] at theirs
    refine ⟨theirs.1, theirs.2.1, fun own => ?_⟩
    exact stored edit theirs.1 (own ▸ theirs.2.1) (theirs.2.2 own)
  | auditing =>
    rw [phase] at theirs
    exact fun edit' asked mine => stored edit' asked mine (theirs edit' asked mine)
  | answered answer =>
    rw [phase] at theirs
    cases answer with
    | error => trivial
    | ok => exact fun edit' asked mine => stored edit' asked mine (theirs edit' asked mine)
  | resolvingPolicy | counting | inserting | rereadingNew | ensuring | auditingNew | resolving
  | dropped => rw [phase] at theirs; exact theirs

end Current

/-! ## Requests keep what they are about -/

def Call.Unresolved (call : Call) : Prop :=
  ∀ path edit, call.phase = .resolving path edit → call.resolved = none

structure Follows (call after : Call) : Prop where
  request : after.request = call.request
  resolved : call.Unresolved → ∀ agent, call.resolved = some agent → after.resolved = some agent
  onward : ∀ path edit, after.phase ≠ .resolving path edit

section Follows

variable {server : Server} {store : Store} {call : Call}

theorem follows_moveTo {phase : Phase} (onward : ∀ path edit, phase ≠ .resolving path edit) :
    Follows call (call.moveTo phase) :=
  ⟨rfl, fun _ _ found => found, onward⟩

theorem follows_act {await : Await} {after : Store × Call}
    (acted : act server store call await = some after) : Follows call after.2 := by
  -- a path is resolved once
  have fresh : ∀ {path : String} {edit : Edit} {resolved : Option AgentId},
      call.phase = .resolving path edit → call.Unresolved →
      ∀ agent, call.resolved = some agent → resolved = some agent := by
    intro path edit resolved phase unresolved agent found
    cases (unresolved path edit phase).symm.trans found
  cases act_spec acted with
  | refused error resolved onward =>
    refine ⟨rfl, ?_, nofun⟩
    rcases onward with rfl | ⟨path, edit, phase⟩
    · exact fun _ _ found => found
    · exact fresh phase
  | resolved phase => exact ⟨rfl, fresh phase, nofun⟩
  | capped | admitted | inserted | rereadNew | ensured | created | updated | reread | edited
  | dropped => exact follows_moveTo nofun

theorem Follows.edit {after : Call} (follows : Follows call after) : after.edit = call.edit := by
  unfold Call.edit
  rw [follows.request]

end Follows

theorem respects_unresolved (server : Server) (guard : State → Label → Prop) :
    Handlers.Respects (handlers server) guard (fun _ => True) (fun _ call => call.Unresolved) where
  begins := fun _ _ _ _ _ _ => rfl
  acts := fun _ _ _ _ _ _ _ _ _ acted =>
    ⟨trivial, fun path edit phase => absurd phase ((follows_act acted).onward path edit)⟩
  spares := fun _ _ _ _ _ _ _ _ _ _ _ _ unresolved => unresolved
  outside := fun _ _ _ _ => ⟨trivial, fun _ _ unresolved => unresolved⟩

theorem PairwiseDisjoint.inherited {server : Server} {s s' : State} {label : Label}
    (fresh : ∀ call ∈ s.calls, call.Unresolved) (next : (handlers server).step s label = some s')
    (disjoint : PairwiseDisjoint agent s') : PairwiseDisjoint agent s := by
  -- every call goes on under its number
  have followed : ∀ (n : ℕ) (call : Call), s.calls[n]? = some call → call.resolved = some agent →
      ∃ after, s'.calls[n]? = some after ∧ after.resolved = some agent ∧
        after.edit = call.edit := by
    intro n call found mine
    cases label with
    | arrive =>
      cases next
      exact ⟨call, List.getElem?_append_left (List.getElem?_eq_some_iff.mp found).1 ▸ found, mine,
        rfl⟩
    | outside => cases next; exact ⟨call, found, mine, rfl⟩
    | act n' =>
      obtain ⟨moving, after, found', acted, rfl⟩ := Handlers.step_act next
      by_cases same : n' = n
      · subst same
        cases found'.symm.trans found
        have follows := follows_act acted
        refine ⟨after.2, ?_, follows.resolved (fresh call (mem_of_getElem? found)) agent mine,
          follows.edit⟩
        rw [List.getElem?_set_self (List.getElem?_eq_some_iff.mp found).1]
      · exact ⟨call, by rw [List.getElem?_set_ne same, found], mine, rfl⟩
  rw [pairwiseDisjoint_iff] at disjoint ⊢
  intro n n' call call' different found found' mine mine'
  obtain ⟨after, isAfter, resolved, editEq⟩ := followed n call found mine
  obtain ⟨after', isAfter', resolved', editEq'⟩ := followed n' call' found' mine'
  rw [← editEq, ← editEq']
  exact disjoint n n' after after' different isAfter isAfter' resolved resolved'

/-! ## Acknowledged updates -/

def TakesTurns (agent : AgentId) (s : State) (label : Label) : Prop :=
  Unshared agent s label ∧ PairwiseDisjoint agent s

theorem respects_current (server : Server) (agent : AgentId) :
    Handlers.Respects (handlers server) (TakesTurns agent) (fun store => UniqueIds store.db)
      (fun store => Current agent store.db) where
  begins := fun _ request _ => current_begin request
  acts := fun s n call await after _ _ unique current acted =>
    ⟨uniqueIds_written unique (written_act acted), current_act unique current acted⟩
  spares := by
    rintro s n call await after ⟨unshared, disjoint⟩ found unique current acted other mem theirs
    obtain ⟨n', bound, different, rfl⟩ := mem_eraseIdx_iff_getElem.mp mem
    have moved : act server s.shared call await = some after := acted
    cases await with
    | failed | dropped =>
      rw [store_of_not_done moved nofun]
      exact theirs
    | done =>
      refine theirs.written current (fun holds => unshared call found holds _ mem) ?_
        (written_act moved)
      intro edit config phase mine edit' asked'
      unfold Current at current
      rw [phase] at current
      exact pairwiseDisjoint_iff.mp disjoint n' n _ call different
        (getElem?_eq_getElem bound) found mine current.2.1 edit' asked' edit current.1
  outside := fun _ _ _ unique => ⟨unique, fun _ _ current => current⟩

/-- **No acknowledged update is lost** when the requests on an agent take turns and touch different
parts of its config. -/
theorem acknowledged_stored {server : Server} {db : GatewayDb} {agent : AgentId}
    {labels : List Label} {s : State} (unique : UniqueIds db)
    (ran : Run (handlers server).step (Unshared agent) (start db) labels s)
    (disjoint : PairwiseDisjoint agent s) :
    ∀ call ∈ s.calls, ∀ answer, call.phase = .answered (.ok answer) →
      call.resolved = some agent → ∀ edit ∈ call.edit, Stored s.shared.db agent edit := by
  have turns : Run (handlers server).step (TakesTurns agent) (start db) labels s :=
    ran.imp_of_inherited _ (fun _ _ _ => (respects_unresolved server _).step)
      (fun _ _ _ fresh next => PairwiseDisjoint.inherited fresh.calls next)
      (fun _ _ disjoint unshared => ⟨unshared, disjoint⟩) (.initial trivial) disjoint
  intro call mem answer phase mine edit asked
  have current := ((respects_current server agent).sustained unique turns).calls call mem
  unfold Current at current
  rw [phase] at current
  exact current edit asked mine

/-! ## Two requests -/

def notary : AgentId := ⟨uuidOf 7⟩

def soleServer : Server where
  parseAgentId := fun _ => some notary
  debug := id

def soleAgent : GatewayDb where
  agents := [{ id := notary, ownerId := ⟨uuidOf 1⟩, name := "notary" }]

def setModel : Edit := .agent { config := some [("model", .string "small")] }

def allowMcp : Edit := .mcp { canUseMcp := some true }

def asking (edit : Edit) : Request where
  user := ⟨uuidOf 1⟩
  endpoint := .patch "notary" edit
  newId := notary

def Phase.acknowledged : Phase → Bool
  | .answered (.ok _) => true
  | _ => false

theorem Phase.exists_of_acknowledged {phase : Phase} (acknowledged : phase.acknowledged = true) :
    ∃ answer, phase = .answered (.ok answer) := by
  unfold Phase.acknowledged at acknowledged
  split at acknowledged
  · exact ⟨_, rfl⟩
  · cases acknowledged

def bothAnswered (s : State) : Bool :=
  s.calls.length = 2 ∧ ∀ call ∈ s.calls, call.resolved = some notary ∧
    call.phase.acknowledged = true

theorem both_stored : ∃ (labels : List Label) (s : State),
    Run (handlers soleServer).step (Unshared notary) (start soleAgent) labels s ∧
      PairwiseDisjoint notary s ∧ bothAnswered s = true ∧
      ∀ call ∈ s.calls, ∀ edit ∈ call.edit, Stored s.shared.db notary edit := by
  obtain ⟨s, ran, disjoint, answered⟩ : ∃ s, Run (handlers soleServer).step (Unshared notary)
      (start soleAgent) (.arrive (asking setModel) :: List.replicate 4 (.act 0 .done) ++
        .arrive (asking allowMcp) :: List.replicate 4 (.act 1 .done)) s ∧
      s.calls.Pairwise (DisjointOn notary) ∧ bothAnswered s = true := exists_run (by decide +kernel)
  refine ⟨_, s, ran, disjoint, answered, fun call mem edit asked => ?_⟩
  obtain ⟨mine, acknowledged⟩ := (of_decide_eq_true answered).2 call mem
  obtain ⟨answer, phase⟩ := Phase.exists_of_acknowledged acknowledged
  have unique : UniqueIds soleAgent := nodup_singleton notary
  exact acknowledged_stored unique ran disjoint call mem answer phase mine edit asked

def Edit.model : Edit → Option String
  | .agent request => ((valueAt (request.config.getD []) "model").getD none).bind Json.asStr
  | .mcp _ => none

theorem strAt_of_stored {db : GatewayDb} {edit : Edit} {model : String}
    (sets : edit.model = some model) (stored : Stored db agent edit) :
    (configOf db agent).bind (Json.strAt "model") = some model := by
  obtain ⟨config, found, contained⟩ := stored
  cases edit with
  | mcp => cases sets
  | agent request =>
    obtain ⟨value, set, isModel⟩ := Option.bind_eq_some_iff.mp sets
    cases named : valueAt (request.config.getD []) "model" with
    | none => rw [named] at set; cases set
    | some given =>
      rw [named, Option.getD_some] at set
      have written := contained "model" given named
      rw [found, Option.bind_some, Json.strAt, written, set]
      exact isModel

/-- **An acknowledged update is lost**: both requests read before either writes. -/
theorem model_lost : ∃ (labels : List Label) (s : State) (call : Call) (edit : Edit),
    Run (handlers soleServer).step anyStep (start soleAgent) labels s ∧
      PairwiseDisjoint notary s ∧ bothAnswered s = true ∧ call ∈ s.calls ∧
      call.edit = some edit ∧ ¬ Stored s.shared.db notary edit := by
  obtain ⟨s, ran, disjoint, answered, ⟨call, mem, sets⟩, absent⟩ :
      ∃ s, Run (handlers soleServer).step anyStep (start soleAgent)
        ([.arrive (asking setModel), .arrive (asking allowMcp), .act 0 .done, .act 1 .done,
          .act 0 .done, .act 1 .done] ++ List.replicate 2 (.act 0 .done) ++
          List.replicate 2 (.act 1 .done)) s ∧
        s.calls.Pairwise (DisjointOn notary) ∧ bothAnswered s = true ∧
        (∃ call ∈ s.calls, call.edit.bind Edit.model = some "small") ∧
        (configOf s.shared.db notary).bind (Json.strAt "model") = none :=
    exists_run (by decide +kernel)
  obtain ⟨edit, asked, sets⟩ := Option.bind_eq_some_iff.mp sets
  refine ⟨_, s, call, edit, ran, disjoint, answered, mem, asked, fun stored => ?_⟩
  cases absent.symm.trans (strAt_of_stored sets stored)

end Havn.Gateway.AgentApi
