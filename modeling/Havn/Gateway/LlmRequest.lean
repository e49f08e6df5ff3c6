import Havn.Proto.Messages
import Havn.Gateway.AgentRegistry
import Havn.Gateway.LlmProxy

/-!
# The gateway's handler of LLM requests

`handle_llm_request` in `havn-gateway/src/agent_socket.rs`: a completion for an agent runs on its
owner's credential chain, and the response goes back to the agent.
-/

namespace Havn.Gateway.LlmRequests

open Havn.Core Lib Db Proto LlmProxy

universe u

/-- `keyring` is absent when no encryption key is configured; `debug` quotes a string. -/
structure AgentSocketCtx (σ : Type u) where
  db : GatewayDb
  registry : AgentRegistry
  keyring : Option (List UInt8 → Except String (List UInt8))
  reads : UsageReads σ
  complete : Provider → String → AnthropicRequest → σ → Except ProviderError AnthropicResponse × σ
  write : Write → σ → Except DbError Unit × σ
  parseUserId : String → Option UserId
  debug : String → String

/-! ## Building the provider's request -/

/-- An object with the two fields, or their values in order. -/
def anthropicMessage : Json → Option AnthropicMessage
  | .object fields =>
    match (fields.lookup "role").bind Json.asStr, fields.lookup "content" with
    | some role, some content => some ⟨role, content⟩
    | _, _ => none
  | .array [.string role, content] => some ⟨role, content⟩
  | _ => none

def anthropicMessages (messages : Json) : Option (List AnthropicMessage) :=
  messages.asArray.bind fun items => items.mapM anthropicMessage

def asNumber : Json → Option Number
  | .number n => some n
  | _ => none

def buildAnthropicRequest (req : LlmRequest) : Except String AnthropicRequest :=
  match anthropicMessages req.messages with
  | none => .error "messages field is not a valid Anthropic messages array"
  | some messages => .ok
      { model := req.model
        maxTokens :=
          (((req.options.get "max_tokens").bind Json.asU64).filter (· < 2 ^ 32)).getD 1024
        messages := messages
        system := (req.options.get "system").bind Json.asStr
        temperature := (req.options.get "temperature").bind asNumber
        tools := req.options.get "tools" }

/-! ## Building the agent's response -/

def proxyErrorDisplay (debug : String → String) : ProxyError → String
  | .noCredential provider => "no usable credential for provider " ++ debug provider
  | .upstream status message =>
    "upstream provider error: " ++ toString status ++ " — " ++ message
  | .transport message => "transport: " ++ message
  | .db e => "database: " ++ e.display
  | .invalidResponse message => "invalid response body: " ++ message
  | .unknownProvider provider => "unknown provider: " ++ debug provider

def responseValue (resp : AnthropicResponse) : Json :=
  .object
    [ ("id", .string resp.id), ("model", .string resp.model), ("role", .string resp.role),
      ("content", resp.content),
      ("stop_reason", match resp.stopReason with
        | some reason => .string reason
        | none => .null),
      ("usage", .object
        [ ("input_tokens", .number (.posInt resp.usage.inputTokens)),
          ("output_tokens", .number (.posInt resp.usage.outputTokens)) ]) ]

def errorResponse (requestId message : String) : LlmResponse :=
  { requestId := requestId, outcome := .error message }

def completionResponse (debug : String → String) (requestId : String) :
    Except ProxyError AnthropicResponse → LlmResponse
  | .ok resp =>
    { requestId := requestId
      outcome := .ok
      providerResponse := responseValue resp
      usage := some
        { inputTokens := resp.usage.inputTokens, outputTokens := resp.usage.outputTokens } }
  | .error e => errorResponse requestId (proxyErrorDisplay debug e)

/-! ## The handler -/

def billingUser (billingOverride : Option UserId) (owner : UserId) : UserId :=
  match billingOverride with
  | some user => if user = owner then user else owner
  | none => owner

/-- The turns given to credentials, the statements, the response and whether the registry accepted
it. -/
structure Handled (σ : Type u) where
  turns : List (Turn σ) := []
  writes : List Write := []
  response : LlmResponse
  delivery : Except SendError Unit

variable {σ : Type u}

def handleLlmRequest (ctx : AgentSocketCtx σ) (agent : AgentId) (req : LlmRequest) (world : σ) :
    Handled σ :=
  let billingOverride := req.billingUserId.bind ctx.parseUserId
  let answer := fun response : LlmResponse =>
    ({ response := response, delivery := ctx.registry.send agent } : Handled σ)
  match Agents.findById ctx.db agent with
  | .ok none =>
    answer (errorResponse req.requestId ("agent " ++ agent.toString ++ " not found in registry"))
  | .error e => answer (errorResponse req.requestId ("owner lookup failed: " ++ e.display))
  | .ok (some row) =>
    match buildAnthropicRequest req with
    | .error e => answer (errorResponse req.requestId ("invalid request: " ++ e))
    | .ok request =>
      match ctx.keyring with
      | none => answer (errorResponse req.requestId
          ("credential encryption is not configured: "
            ++ "set HAVN_AGE_KEY and restart the gateway"))
      | some decrypt =>
        let provider := ((req.options.get "provider").bind Json.asStr).getD
          (providerForModel request.model)
        let completion := completeWithProvider
          ⟨ctx.reads, decrypt, ctx.complete, ctx.write⟩ ctx.db
          (billingUser billingOverride row.ownerId) provider request world
        { turns := completion.turns
          writes := completion.writes
          response := completionResponse ctx.debug req.requestId completion.result
          delivery := ctx.registry.send agent }

/-! ## Whose credentials are spent -/

@[simp] theorem billingUser_eq_owner (billingOverride : Option UserId) (owner : UserId) :
    billingUser billingOverride owner = owner := by
  unfold billingUser
  split
  · split
    · assumption
    · rfl
  · rfl

theorem member_of_completeWithProvider {env : Env σ} {db : GatewayDb} {user : UserId}
    {provider : String} {request : AnthropicRequest} {world : σ} {turn : Turn σ}
    (mem : turn ∈ (completeWithProvider env db user provider request world).turns) :
    turn.member ∈ db.credentials ∧ turn.member.enabled = true ∧
      Spendable db user turn.member := by
  rcases refused_or_fallback env db user provider request world with
    ⟨noTurns, -⟩ | ⟨dispatched, chain, resolved, isFallback⟩
  · rw [noTurns] at mem
    cases mem
  · rw [isFallback] at mem
    have inOrder : (fallback env user provider dispatched request chain world).turns.map
        (·.member) <+: chain := (fallback_laws chain world).inOrder
    exact mem_of_resolveForUser resolved (inOrder.subset (List.mem_map_of_mem mem))

/-- Every credential whose turn comes is enabled, and the agent's owner may spend it. -/
theorem member_of_handleLlmRequest {ctx : AgentSocketCtx σ} {agent : AgentId} {req : LlmRequest}
    {world : σ} {turn : Turn σ} (mem : turn ∈ (handleLlmRequest ctx agent req world).turns) :
    turn.member ∈ ctx.db.credentials ∧ turn.member.enabled = true ∧
      ∃ row, Agents.findById ctx.db agent = .ok (some row) ∧
        Spendable ctx.db row.ownerId turn.member := by
  unfold handleLlmRequest at mem
  cases found : Agents.findById ctx.db agent with
  | error => simp [found] at mem
  | ok row? =>
    cases row? with
    | none => simp [found] at mem
    | some row =>
      cases built : buildAnthropicRequest req with
      | error => simp [found, built] at mem
      | ok =>
        cases ring : ctx.keyring with
        | none => simp [found, built, ring] at mem
        | some =>
          simp only [found, built, ring, billingUser_eq_owner] at mem
          obtain ⟨stored, enabled, spendable⟩ := member_of_completeWithProvider mem
          exact ⟨stored, enabled, row, rfl, spendable⟩

/-- **The billing field decides nothing**: runs that differ only in it give the same turns, rows
and response, and every credential tried belongs to the owner or a team of theirs. -/
theorem handleLlmRequest_noninterference (ctx : AgentSocketCtx σ) (agent : AgentId)
    (req : LlmRequest) (billing billing' : Option String) (world : σ) :
    handleLlmRequest ctx agent { req with billingUserId := billing } world =
        handleLlmRequest ctx agent { req with billingUserId := billing' } world ∧
      ∀ turn ∈ (handleLlmRequest ctx agent { req with billingUserId := billing } world).turns,
        turn.member ∈ ctx.db.credentials ∧ turn.member.enabled = true ∧
          ∃ row, Agents.findById ctx.db agent = .ok (some row) ∧
            Spendable ctx.db row.ownerId turn.member := by
  refine ⟨?_, fun turn => member_of_handleLlmRequest⟩
  simp only [handleLlmRequest, billingUser_eq_owner]
  rfl

end Havn.Gateway.LlmRequests
