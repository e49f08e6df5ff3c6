import Havn.Gateway.AgentApi

/-!
# The quota of agents

`POST /agents` refuses the request of a user who owns `max_agents` agents.  The count and the
insertion are two statements, so requests that count before any of them inserts are all admitted.
-/

namespace Havn.Gateway.AgentApi

open Havn.Core Lib Db

def owned (db : GatewayDb) (user : UserId) : ℕ :=
  (db.agents.filter (·.ownerId = user)).length

def Phase.admitted : Phase → Bool
  | .inserting _ => true
  | _ => false

def Phase.resolvesPolicy : Phase → Bool
  | .resolvingPolicy _ => true
  | _ => false

variable (server : Server) (user : UserId)

def capOf (db : GatewayDb) (user : UserId) : Await → Option ℕ
  | .done => some (PolicyResolver.forUser server.env db user).maxAgents
  | .failed _ => some (PolicyResolver.base server.env).maxAgents
  | .dropped => none

def Capped (m : ℕ) (s : State) : Label → Prop
  | .act n await => ∀ call ∈ s.calls[n]?, call.request.user = user →
      call.phase.resolvesPolicy = true → ∀ cap ∈ capOf server s.shared.db user await, cap = m
  | _ => True

instance (server : Server) (user : UserId) (m : ℕ) (s : State) (label : Label) :
    Decidable (Capped server user m s label) := by
  unfold Capped
  split <;> infer_instance

def Spaced (s : State) : Label → Prop
  | .act n _ => ∀ call ∈ s.calls[n]?, call.request.user = user → call.phase.admitted = true →
      ∀ other ∈ s.calls.eraseIdx n, other.request.user = user → other.phase.admitted = false
  | _ => True

instance (user : UserId) (s : State) (label : Label) : Decidable (Spaced user s label) := by
  unfold Spaced
  split <;> infer_instance

/-! ## What a statement does to the number -/

section Owned

variable {db db' : GatewayDb} {user : UserId} {call : Call}

theorem owned_insert {agent : Agent} (inserted : Agents.insert db agent = .ok db') :
    owned db' user = owned db user + if agent.ownerId = user then 1 else 0 := by
  obtain ⟨-, rfl⟩ := Agents.insert_eq_ok inserted
  show ((db.agents ++ [agent]).filter _).length = _
  rw [List.filter_append, List.length_append]
  by_cases mine : agent.ownerId = user
  · simp [owned, mine]
  · simp [owned, mine]

theorem owned_update {id : AgentId} {name : Option String} {config : Option Json}
    (written : Agents.update db id name config = .ok db') : owned db' user = owned db user := by
  obtain rfl := Agents.update_eq_ok written
  show ((db.agents.map _).filter _).length = _
  rw [List.filter_map, List.length_map]
  refine congrArg List.length (List.filter_congr fun agent _ => ?_)
  by_cases same : agent.id = id
  · simp [same, Agents.updated]
  · simp [same]

/-- **The number grows by an admitted request of the user only.** -/
theorem owned_written (written : Written db call db') :
    owned db' user = owned db user ∨
      (call.request.user = user ∧ call.phase.admitted = true ∧
        owned db' user = owned db user + 1) := by
  cases written with
  | same => exact .inl rfl
  | inserted phase done =>
    have grown : owned db' user = _ := owned_insert done
    by_cases mine : call.request.user = user
    · exact .inr ⟨mine, by rw [phase]; rfl, grown.trans (by rw [newAgent, if_pos mine])⟩
    · exact .inl (grown.trans (by rw [newAgent, if_neg mine]; rfl))
  | updated phase done => exact .inl (owned_update done)

end Owned

/-! ## What a call relies on -/

def Phase.HasRoom (m : ℕ) (db : GatewayDb) : Phase → Prop
  | .counting _ cap => cap = m
  | .inserting _ => owned db user < m
  | _ => True

def HasRoom (user : UserId) (m : ℕ) (db : GatewayDb) (call : Call) : Prop :=
  call.request.user = user → call.phase.HasRoom user m db

section HasRoom

variable {server : Server} {user : UserId} {m : ℕ} {db db' : GatewayDb} {store : Store}
  {call : Call}

theorem hasRoom_begin (request : Request) : HasRoom user m db (begin request) := by
  intro _
  unfold begin
  cases request.endpoint with
  | create =>
    dsimp only
    split <;> trivial
  | patch => trivial

theorem HasRoom.of_le (room : HasRoom user m db call)
    (le : call.request.user = user → call.phase.admitted = true → owned db' user ≤ owned db user) :
    HasRoom user m db' call := by
  intro mine
  have before := room mine
  have le := le mine
  revert before le
  cases call.phase with
  | inserting => exact fun before le => (le rfl).trans_lt before
  | resolvingPolicy | counting | rereadingNew | ensuring | auditingNew | resolving | writing
  | rereading | auditing | answered | dropped => exact fun before _ => before

theorem owned_lt_of_count (fits : m < 2 ^ 32) (below : ¬ m ≤ Agents.countForOwner db user) :
    owned db user < m := by
  unfold Agents.countForOwner at below
  change ¬ m ≤ min (owned db user) (2 ^ 32 - 1) at below
  omega

theorem hasRoom_act {await : Await} {after : Store × Call} (fits : m < 2 ^ 32)
    (room : HasRoom user m store.db call)
    (capped : call.request.user = user → call.phase.resolvesPolicy = true →
      ∀ cap ∈ capOf server store.db user await, cap = m)
    (acted : act server store call await = some after) : HasRoom user m after.1.db after.2 := by
  cases act_spec acted with
  | capped phase cap resolved =>
    intro mine
    have isUser : call.request.user = user := mine
    refine capped isUser (by rw [phase]; rfl) cap ?_
    rcases resolved with ⟨rfl, rfl⟩ | ⟨⟨message, rfl⟩, rfl⟩
    · rw [isUser]
      rfl
    · rfl
  | @admitted create cap phase below =>
    intro mine
    have isUser : call.request.user = user := mine
    have capEq : cap = m := by
      have carried := room isUser
      rwa [phase] at carried
    subst capEq
    rw [isUser] at below
    exact owned_lt_of_count fits below
  | refused | inserted | rereadNew | ensured | created | resolved | updated | reread | edited
  | dropped => exact fun _ => trivial

end HasRoom

/-! ## The quota -/

def Orderly (m : ℕ) (s : State) (label : Label) : Prop :=
  Capped server user m s label ∧ Spaced user s label
  deriving Decidable

theorem respects_quota {m : ℕ} (fits : m < 2 ^ 32) (n : ℕ) :
    Handlers.Respects (handlers server) (Orderly server user m)
      (fun store => owned store.db user ≤ max m n) (fun store => HasRoom user m store.db) where
  begins := fun _ request _ => hasRoom_begin request
  acts := by
    rintro s i call await after ⟨capped, -⟩ found bound room acted
    constructor
    · rcases owned_written (written_act acted) with same | ⟨mine, admitted, grown⟩
      · exact same.trans_le bound
      · have below := room mine
        revert below admitted
        cases call.phase with
        | inserting => intro _ below; exact (grown.trans_le below).trans (le_max_left _ _)
        | resolvingPolicy | counting | rereadingNew | ensuring | auditingNew | resolving
        | writing | rereading | auditing | answered | dropped => nofun
    · exact hasRoom_act fits room (capped call found) acted
  spares := by
    rintro s i call await after ⟨-, spaced⟩ found - - acted other mem room
    refine room.of_le fun theirs waiting => ?_
    rcases owned_written (written_act acted) with same | ⟨mine, admitted, -⟩
    · exact same.le
    · have idle := spaced call found mine admitted other mem theirs
      rw [waiting] at idle
      cases idle
  outside := fun _ _ _ bound => ⟨bound, fun _ _ room => room.of_le fun _ _ => le_rfl⟩

/-- **The quota is kept** when no request of the user inserts while another is between its count and
its insertion. -/
theorem owned_le_quota {server : Server} {db : GatewayDb} {user : UserId} {m : ℕ}
    {labels : List Label} {s : State} (fits : m < 2 ^ 32)
    (ran : Run (handlers server).step (Orderly server user m) (start db) labels s) :
    owned s.shared.db user ≤ max m (owned db user) :=
  ((respects_quota server user fits (owned db user)).sustained (le_max_right _ _) ran).shared

def Phase.isCreated : Phase → Bool
  | .answered (.ok (.created _)) => true
  | _ => false

theorem Phase.exists_of_isCreated {phase : Phase} (created : phase.isCreated = true) :
    ∃ view, phase = .answered (.ok (.created view)) := by
  unfold Phase.isCreated at created
  split at created
  · exact ⟨_, rfl⟩
  · cases created

def oneEach : Server where
  env := some "1"
  parseAgentId := fun _ => none
  debug := id

def ann : UserId := ⟨uuidOf 1⟩

def creating (k : ℕ) (name : String) : Request where
  user := ann
  endpoint := .create { name := name }
  newId := ⟨uuidOf k⟩

theorem second_refused : ∃ (labels : List Label) (s : State),
    Run (handlers oneEach).step (Orderly oneEach ann 1) (start {}) labels s ∧
      owned s.shared.db ann = 1 ∧ owned s.shared.db ann ≤ max 1 (owned ({} : GatewayDb) ann) := by
  refine ⟨.arrive (creating 1 "a") :: List.replicate 6 (.act 0 .done) ++
    [.arrive (creating 2 "b"), .act 1 .done, .act 1 .done], ?_⟩
  exact exists_run_and (by decide +kernel) fun ran _ => owned_le_quota (by decide) ran

/-- **Two requests at once exceed the quota**: both count before either inserts. -/
theorem both_admitted : ∃ (labels : List Label) (s : State),
    Run (handlers oneEach).step (Capped oneEach ann 1) (start {}) labels s ∧
      (∀ call ∈ s.calls, ∃ view, call.phase = .answered (.ok (.created view))) ∧
      ¬ owned s.shared.db ann ≤ max 1 (owned ({} : GatewayDb) ann) := by
  obtain ⟨s, ran, answered, two⟩ : ∃ s,
      Run (handlers oneEach).step (Capped oneEach ann 1) (start {})
      ([.arrive (creating 1 "a"), .arrive (creating 2 "b"), .act 0 .done, .act 0 .done,
        .act 1 .done, .act 1 .done] ++ List.replicate 4 (.act 0 .done) ++
        List.replicate 4 (.act 1 .done)) s ∧
      s.calls.all (·.phase.isCreated) ∧ owned s.shared.db ann = 2 := exists_run (by decide +kernel)
  refine ⟨_, s, ran, fun call mem => ?_, by rw [two]; decide⟩
  exact Phase.exists_of_isCreated (List.all_eq_true.mp answered call mem)

end Havn.Gateway.AgentApi
