import Havn.Gateway.CredentialUsage
import Havn.Gateway.LlmRequest
import Havn.Gateway.PolicyResolver
import Havn.Runtime.Curator
import Havn.Runtime.Session

/-!
# The policy's limits on LLM requests

A policy names the models an agent may use and a budget of tokens per day (`havn-core`,
`policy.rs`). The requests of an agent come from six places of its runtime and all go through
`handle_llm_request`.
-/

namespace Havn.Gateway.PolicyGate

open Havn.Core Lib Db Proto
open LlmProxy LlmRequests CredentialUsage
open Runtime.Session (Setup plainSetup quietHost)
open Runtime.ToolLoop (llmReq)

/-! ## What the policy says -/

def AdmitsModel (policy : Policy) (model : String) : Prop :=
  "*" ∈ policy.allowedModels ∨ model ∈ policy.allowedModels
  deriving Decidable

def Limited (policy : Policy) : Prop :=
  policy.budget.maxTokensPerDay ≠ 0 ∧ policy.budget.onExhaust ≠ .warnOnly
  deriving Decidable

def tokensToday (user : UserId) (world : UsageWorld) : Int :=
  ((world.usages.filter fun row => row.usage.userId = user ∧
    dayOf row.recordedAt = dayOf world.clock).map (·.tokens)).sum

/-- The policy lets a request for the model go upstream after so many tokens. -/
def Admits (policy : Policy) (model : String) (used : Int) : Prop :=
  AdmitsModel policy model ∧ (Limited policy → used < policy.budget.maxTokensPerDay)

/-! ## The requests of a session -/

/-- The runtime's set-up with the policy that was resolved for it, and the gateway with its usage
table. -/
structure Session (ω : Type) where
  setup : Setup ω
  ctx : AgentSocketCtx UsageWorld
  agent : AgentId
  row : Agent
  fromValue : Json → Option Policy
  env : Option String
  found : Agents.findById ctx.db agent = .ok (some row)
  welcomed : setup.policy = PolicyResolver.forSession fromValue env ctx.db row
  reads : ctx.reads = tableReads

def curatorModel : String := "claude-sonnet-4-6"

inductive Path
  | chat
  | heartbeat
  | cron
  | subagent
  | query (billingUserId : String)
  | curator (skills : List SkillsIndex.CuratableSkill)

variable {ω : Type}

def Path.request (setup : Setup ω) (systemPrompt : Option String) (requestId : String)
    (messages : List Json) : Path → LlmRequest
  | .chat => llmReq setup.parentHandle "webchat" systemPrompt requestId messages
  | .heartbeat => llmReq setup.parentHandle "heartbeat" systemPrompt requestId messages
  | .cron => llmReq setup.parentHandle "cron" systemPrompt requestId messages
  | .subagent => llmReq setup.childHandle "subagent" systemPrompt requestId messages
  | .query billingUserId =>
    llmReq (setup.incomingHandle billingUserId) "agent_query" systemPrompt requestId messages
  | .curator skills => Runtime.Curator.consolidationRequest curatorModel requestId
      (Runtime.Curator.buildConsolidationPrompt skills)

def Path.model (own : String) : Path → String
  | .curator _ => curatorModel
  | _ => own

theorem Path.request_model (path : Path) (setup : Setup ω) (systemPrompt : Option String)
    (requestId : String) (messages : List Json) :
    (path.request setup systemPrompt requestId messages).model = path.model setup.model := by
  cases path <;> rfl

def Forwarded (ctx : AgentSocketCtx UsageWorld) (turn : Turn UsageWorld) : Prop :=
  turn.outcome.isSome = true ∧ ∃ decrypt plaintext apiKey, ctx.keyring = some decrypt ∧
    decrypt turn.member.apiKeyCiphertext = .ok plaintext ∧ utf8 plaintext = some apiKey

/-- A request that such a session makes on the path is forwarded only as the policy admits. -/
def EnforcedOn (ω : Type) (policy : Policy) (path : Path) : Prop :=
  ∀ (session : Session ω) (systemPrompt : Option String) (requestId : String)
    (messages : List Json) (world : UsageWorld), session.setup.policy = policy →
    ∀ turn ∈ (handleLlmRequest session.ctx session.agent
        (path.request session.setup systemPrompt requestId messages) world).turns,
      Forwarded session.ctx turn →
        Admits policy (path.request session.setup systemPrompt requestId messages).model
          (tokensToday session.row.ownerId turn.world)

/-! ## A gateway that can forward -/

def openKey (owner : UserId) (provider : String) : Credential where
  id := ⟨uuidOf 1⟩
  scope := .user
  scopeId := owner.toString
  provider := provider
  apiKeyCiphertext := []
  createdAt := ""

def owner : UserId := ⟨uuidOf 3⟩

/-- The models and the budget of a policy, as an agent's config has them. -/
def policyValue (policy : Policy) : Json :=
  .object [("allowed_models", .array (policy.allowedModels.map .string)),
    ("budget", .object [("max_tokens_per_day", .number (.posInt policy.budget.maxTokensPerDay)),
      ("on_exhaust", .string (match policy.budget.onExhaust with
        | .warnOnly => "warn_only"
        | .warnAndPause => "warn_and_pause"
        | .fail => "fail"))])]

variable (policy : Policy)

def agentRow : Agent where
  id := ⟨uuidOf 2⟩
  ownerId := owner
  name := "agent"
  config := .object [("policy", policyValue policy)]

def openDb (provider : String) : GatewayDb where
  agents := [agentRow policy]
  credentials := [openKey owner provider]

def reply : AnthropicResponse := ⟨"", "", "assistant", .null, none, ⟨1, 1⟩⟩

def openCtx (model : String) : AgentSocketCtx UsageWorld where
  db := openDb policy (providerForModel model)
  registry := {}
  keyring := some fun bytes => .ok bytes
  reads := tableReads
  complete := fun _ _ _ world => (.ok reply, world)
  write := fun _ world => (.ok (), world)
  parseUserId := fun _ => none
  debug := id

theorem resolveForUser_openDb (provider : String) :
    resolveForUser (openDb policy provider) owner provider =
      .ok [openKey owner provider] := by
  have foreign : provider ≠ "llm:" ++ provider := by
    intro same
    have lengths := congrArg String.length same
    rw [String.length_append] at lengths
    have four : "llm:".length = 4 := rfl
    omega
  have namespaced : Credentials.listActiveForProvider (openDb policy provider) .user
      owner.toString ("llm:" ++ provider) = .ok [] := by
    simp [Credentials.listActiveForProvider, GatewayDb.reading, openDb, openKey, foreign]
  have bare : Credentials.listActiveForProvider (openDb policy provider) .user
      owner.toString provider = .ok [openKey owner provider] := by
    simp [Credentials.listActiveForProvider, GatewayDb.reading, openDb, openKey]
  have own : scopeChain (openDb policy provider) provider .user owner.toString =
      .ok [openKey owner provider] := by
    simp only [scopeChain, providerCandidates, gather, namespaced, bare]
    rfl
  rw [resolveForUser, own]
  rfl

theorem exists_dispatch (model : String) :
    ∃ provider, dispatchProvider (providerForModel model) = .ok provider := by
  unfold providerForModel
  split
  · exact ⟨.anthropic, rfl⟩
  · split
    · exact ⟨.openai, rfl⟩
    · split
      · exact ⟨.gemini, rfl⟩
      · split
        · exact ⟨.openrouter, rfl⟩
        · exact ⟨.anthropic, rfl⟩

/-- Any request that is well formed and names no provider is sent to one. -/
theorem turns_openCtx {request : LlmRequest} {built : AnthropicRequest}
    (isBuilt : buildAnthropicRequest request = .ok built)
    (unnamed : request.options.get "provider" = none) (world : UsageWorld) :
    (handleLlmRequest (openCtx policy request.model) (agentRow policy).id request world).turns =
      [⟨openKey owner (providerForModel request.model), world, some (.ok reply)⟩] := by
  have owned : (agentRow policy).ownerId = owner := rfl
  have found :
      Agents.findById (openDb policy (providerForModel request.model)) (agentRow policy).id =
      .ok (some (agentRow policy)) := rfl
  have asked : built.model = request.model := by
    unfold buildAnthropicRequest at isBuilt
    split at isBuilt
    · cases isBuilt
    · cases isBuilt
      rfl
  obtain ⟨provider, known⟩ := exists_dispatch request.model
  have open_ : budgetGate tableReads owner
      (openKey owner (providerForModel request.model)) world = (true, world) := by
    rw [budgetGate_tableReads]
    rfl
  simp only [handleLlmRequest, found, isBuilt, unnamed, asked, openCtx, billingUser_eq_owner, owned,
    Option.bind_none, Option.getD_none]
  rw [completeWithProvider_eq_fallback known (resolveForUser_openDb policy _)]
  simp only [fallback, open_]
  rfl

/-! ## What the runtime sends it -/

def greeting : Json := .object [("role", .string "user"), ("content", .string "hello")]

theorem Path.exists_built (path : Path) (setup : Setup ω) (requestId : String) :
    ∃ built, buildAnthropicRequest (path.request setup none requestId [greeting]) = .ok built := by
  cases path <;> exact ⟨_, rfl⟩

theorem llmReq_unnamed {σ : Type} (handle : Runtime.ToolLoop.LoopHandle σ)
    (context requestId : String) (messages : List Json) :
    (llmReq handle context none requestId messages).options.get "provider" = none := by
  simp only [llmReq, Runtime.ToolLoop.callOptions]
  split <;> rfl

theorem Path.unnamed (path : Path) (setup : Setup ω) (requestId : String) (messages : List Json) :
    (path.request setup none requestId messages).options.get "provider" = none := by
  cases path with
  | curator => rfl
  | _ => exact llmReq_unnamed ..

def quietSetup (ω : Type) (policy : Policy) (model : String) : Setup ω :=
  { plainSetup policy (quietHost fun _ env => (.dropped, env)) with model := model }

def openSession (ω : Type) (policy : Policy) (fromValue : Json → Option Policy)
    (read : fromValue (policyValue policy) = some policy) (own asked : String) : Session ω where
  setup := quietSetup ω policy own
  ctx := openCtx policy asked
  agent := (agentRow policy).id
  row := agentRow policy
  fromValue := fromValue
  env := none
  found := rfl
  welcomed := by
    have given : PolicyResolver.overrideFor fromValue (agentRow policy) = some policy := read
    rw [PolicyResolver.forSession, given]
    rfl
  reads := rfl

theorem exists_forwarded (policy : Policy) (path : Path) (own : String) (world : UsageWorld) :
    ∃ turn ∈ (handleLlmRequest (openCtx policy (path.model own)) (agentRow policy).id
        (path.request (quietSetup ω policy own) none "" [greeting]) world).turns,
      Forwarded (openCtx policy (path.model own)) turn ∧ turn.world = world := by
  obtain ⟨built, isBuilt⟩ := path.exists_built (quietSetup ω policy own) ""
  have turns := turns_openCtx policy isBuilt (path.unnamed ..) world
  rw [path.request_model] at turns
  refine ⟨_, turns ▸ List.mem_singleton_self _, ⟨rfl, ?_⟩, rfl⟩
  exact ⟨_, [], "", rfl, rfl, by decide⟩

def spent (tokens : ℕ) : UsageWorld where
  clock := 0
  usages := List.replicate tokens
    ⟨⟨⟨uuidOf 1⟩, owner, none, "anthropic", "claude-opus-4-1", 1, 0⟩, 0⟩

theorem tokensToday_spent (tokens : ℕ) : tokensToday owner (spent tokens) = tokens := by
  simp [tokensToday, spent, UsageRow.tokens]

theorem EnforcedOn.admits {policy : Policy} {path : Path} (enforced : EnforcedOn ω policy path)
    (own : String) (tokens : ℕ) : Admits policy (path.model own) tokens := by
  obtain ⟨turn, tried, forwarded, at_⟩ :=
    exists_forwarded (ω := ω) policy path own (spent tokens)
  have admits := enforced (openSession ω policy (fun _ => some policy) rfl own (path.model own))
    none "" [greeting] (spent tokens) rfl turn tried forwarded
  rw [path.request_model, at_] at admits
  rwa [← tokensToday_spent]

/-! ## Where the limits hold -/

/-- **The limits hold where there is nothing to enforce**: iff the policy admits whatever the path
can ask for and its budget ends nothing. -/
theorem enforced_iff (policy : Policy) (path : Path) :
    EnforcedOn ω policy path ↔
      (∀ own, AdmitsModel policy (path.model own)) ∧ ¬ Limited policy := by
  constructor
  · intro enforced
    refine ⟨fun own => (enforced.admits own 0).1, fun limited => ?_⟩
    have below := (enforced.admits "" policy.budget.maxTokensPerDay).2 limited
    exact absurd below (lt_irrefl _)
  · rintro ⟨admitted, unlimited⟩ session systemPrompt requestId messages world - turn - -
    rw [path.request_model]
    exact ⟨admitted _, fun limited => absurd limited unlimited⟩

theorem default_policy_enforced : EnforcedOn Unit Policy.default .chat :=
  (enforced_iff Policy.default .chat).2
    ⟨fun _ => .inl (List.mem_singleton_self _), fun limited => limited.1 rfl⟩

def haikuOnly : Policy :=
  { allowedModels := ["claude-haiku-4-5"]
    budget := { maxTokensPerDay := 1000, onExhaust := .fail } }

def opusSession : Session Unit :=
  openSession Unit haikuOnly (Policy.fromValue fun _ => ⟨0⟩) rfl "claude-opus-4-1" "claude-opus-4-1"

theorem unlisted_model_forwarded :
    opusSession.setup.policy = haikuOnly ∧
    (Path.chat.request opusSession.setup none "" [greeting]).model = "claude-opus-4-1" ∧
    ¬ AdmitsModel haikuOnly "claude-opus-4-1" ∧ Limited haikuOnly ∧
    ∃ turn ∈ (handleLlmRequest opusSession.ctx opusSession.agent
        (Path.chat.request opusSession.setup none "" [greeting]) (spent 1000)).turns,
      Forwarded opusSession.ctx turn ∧
        tokensToday opusSession.row.ownerId turn.world = haikuOnly.budget.maxTokensPerDay := by
  refine ⟨rfl, rfl, by decide, by decide, ?_⟩
  obtain ⟨turn, tried, forwarded, at_⟩ :=
    exists_forwarded (ω := Unit) haikuOnly .chat "claude-opus-4-1" (spent 1000)
  refine ⟨turn, tried, forwarded, ?_⟩
  rw [at_]
  exact tokensToday_spent 1000

end Havn.Gateway.PolicyGate
