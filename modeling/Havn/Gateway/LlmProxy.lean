import Havn.Lib.Fallback
import Havn.Gateway.CredentialResolver

/-!
# The LLM proxy

`havn-gateway/src/llm_proxy/`: each credential of the payer's chain gets a turn, which checks the
budgets, decrypts the key, calls the provider and classifies what came back, until one succeeds or
fails for good.

`Env.complete` (the call and its translation), `Env.decrypt` and `Env.reads` may depend on a world
`σ` that every step threads.  `Completion.writes` keeps the two statements of the loop in order;
`Env.write` says what one does to the world and whether it failed, which the loop ignores.
-/

namespace Havn.Gateway.LlmProxy

open Havn.Core Lib Db List

universe u

/-! ## Requests, responses and errors -/

structure AnthropicMessage where
  role : String
  content : Json

structure AnthropicRequest where
  model : String
  maxTokens : ℕ
  messages : List AnthropicMessage
  system : Option String
  temperature : Option Number
  tools : Option Json

structure AnthropicUsage where
  inputTokens : ℕ
  outputTokens : ℕ

structure AnthropicResponse where
  id : String
  model : String
  role : String
  content : Json
  stopReason : Option String
  usage : AnthropicUsage

inductive ProxyError
  | noCredential (provider : String)
  | upstream (status : ℕ) (message : String)
  | transport (message : String)
  | db (error : DbError)
  | invalidResponse (message : String)
  | unknownProvider (provider : String)

inductive ProviderError
  | unauthorized (body : String)
  | quotaOrRateLimit (status : ℕ) (body : String)
  | upstream (status : ℕ) (body : String)
  | badRequest (status : ℕ) (body : String)
  | transport (message : String)
  | translation (message : String)

inductive Attempt
  | ok (response : AnthropicResponse)
  | tryNext (reason : String)
  | disable (reason : String)
  | fatal (error : ProxyError)

def classify : ProviderError → Attempt
  | .unauthorized body => .disable ("401 unauthorized: " ++ body)
  | .quotaOrRateLimit status body => .tryNext (toString status ++ ": " ++ body)
  | .upstream status body => .tryNext ("upstream " ++ toString status ++ ": " ++ body)
  | .transport message => .tryNext ("transport: " ++ message)
  | .badRequest status body => .fatal (.upstream status body)
  | .translation message => .fatal (.invalidResponse message)

inductive Provider
  | anthropic
  | gemini
  | openai
  | openrouter
deriving DecidableEq

def dispatchProvider (name : String) : Except ProxyError Provider :=
  if name = "anthropic" then .ok .anthropic
  else if name = "gemini" then .ok .gemini
  else if name = "openai" then .ok .openai
  else if name = "openrouter" then .ok .openrouter
  else .error (.unknownProvider name)

def providerForModel (model : String) : String :=
  if model.startsWith "claude-" then "anthropic"
  else if model.startsWith "gpt-" || model.startsWith "o1" || model.startsWith "o3"
      || model.startsWith "o4" || model.startsWith "chatgpt-" then "openai"
  else if model.startsWith "gemini-" then "gemini"
  else if model.contains '/' then "openrouter"
  else "anthropic"

/-! ## One credential -/

/-- The call is attributed to a user and a credential; the proxy leaves the agent out. -/
structure NewUsage where
  credentialId : CredentialId
  userId : UserId
  agentId : Option AgentId
  provider : String
  model : String
  tokensIn : Int
  tokensOut : Int

inductive Write
  | disable (id : CredentialId)
  | record (usage : NewUsage)

structure Env (σ : Type u) where
  reads : UsageReads σ
  decrypt : List UInt8 → Except String (List UInt8)
  complete : Provider → String → AnthropicRequest → σ → Except ProviderError AnthropicResponse × σ
  write : Write → σ → Except DbError Unit × σ

variable {σ : Type u} (env : Env σ) (provider : Provider) (reads : UsageReads σ) (user : UserId)
  (cred : Credential) (world : σ)

def utf8 (bytes : List UInt8) : Option String := String.fromUTF8? ⟨bytes.toArray⟩

def tryOne (cred : Credential) (request : AnthropicRequest) (world : σ) : Attempt × σ :=
  match env.decrypt cred.apiKeyCiphertext with
  | .error e => (.disable
      ("could not decrypt api_key — wrong HAVN_AGE_KEY or corrupted row (" ++ e ++ ")"), world)
  | .ok plaintext =>
    match utf8 plaintext with
    | none => (.disable
        "decrypted api_key bytes are not valid UTF-8 — credential is malformed", world)
    | some apiKey =>
      match env.complete provider apiKey request world with
      | (.ok response, world) => (.ok response, world)
      | (.error e, world) => (classify e, world)

def budgetGate : Bool × σ :=
  match dailyTokensRemaining reads cred world with
  | (.error _, world) => (false, world)
  | (.ok remaining, world) =>
    if remaining.any (· ≤ 0) then (false, world)
    else
      match perUserCeilingsRemaining reads cred user world with
      | (.ok .allowed, world) => (true, world)
      | (_, world) => (false, world)

def usageOf (providerName : String) (cred : Credential)
    (response : AnthropicResponse) : NewUsage where
  credentialId := cred.id
  userId := user
  agentId := none
  provider := providerName
  model := response.model
  tokensIn := wrapI64 response.usage.inputTokens
  tokensOut := wrapI64 response.usage.outputTokens

/-! ## The chain -/

abbrev Turn (σ : Type u) := Fallback.Turn Credential σ (Option Attempt)

structure Completion (σ : Type u) where
  result : Except ProxyError AnthropicResponse
  turns : List (Turn σ)
  writes : List Write
  world : σ

def Completion.after (turn : Turn σ) (writes : List Write) (rest : Completion σ) : Completion σ :=
  { rest with turns := turn :: rest.turns, writes := writes ++ rest.writes }

def fallback (env : Env σ) (user : UserId) (providerName : String) (provider : Provider)
    (request : AnthropicRequest) : List Credential → σ → Completion σ
  | [], world => ⟨.error (.noCredential providerName), [], [], world⟩
  | cred :: chain, start =>
    match budgetGate env.reads user cred start with
    | (false, world) =>
      (fallback env user providerName provider request chain world).after
        ⟨cred, start, none⟩ []
    | (true, world) =>
      match tryOne env provider cred request world with
      | (.ok response, world) =>
        let row := .record (usageOf user providerName cred response)
        ⟨.ok response, [⟨cred, start, some (.ok response)⟩], [row], (env.write row world).2⟩
      | (.disable reason, world) =>
        (fallback env user providerName provider request chain
          (env.write (.disable cred.id) world).2).after
          ⟨cred, start, some (.disable reason)⟩ [.disable cred.id]
      | (.tryNext reason, world) =>
        (fallback env user providerName provider request chain world).after
          ⟨cred, start, some (.tryNext reason)⟩ []
      | (.fatal e, world) =>
        ⟨.error e, [⟨cred, start, some (.fatal e)⟩], [], world⟩

def completeWithProvider (db : GatewayDb) (user : UserId)
    (providerName : String) (request : AnthropicRequest) (world : σ) : Completion σ :=
  match dispatchProvider providerName with
  | .error e => ⟨.error e, [], [], world⟩
  | .ok provider =>
    match resolveForUser db user providerName with
    | .error e => ⟨.error (.db e), [], [], world⟩
    | .ok [] => ⟨.error (.noCredential providerName), [], [], world⟩
    | .ok chain => fallback env user providerName provider request chain world

/-! ## The loop as a fallback chain -/

section Chain

variable (env : Env σ) (user : UserId) (providerName : String) (provider : Provider)
  (request : AnthropicRequest)

def turnOf (cred : Credential) (start : σ) : Option Attempt × σ :=
  match budgetGate env.reads user cred start with
  | (false, world) => (none, world)
  | (true, world) =>
    match tryOne env provider cred request world with
    | (.ok response, world) =>
      (some (.ok response),
        (env.write (.record (usageOf user providerName cred response)) world).2)
    | (.disable reason, world) =>
      (some (.disable reason), (env.write (.disable cred.id) world).2)
    | (attempt, world) => (some attempt, world)

def decides : Option Attempt → Option (Except ProxyError AnthropicResponse)
  | some (.ok response) => some (.ok response)
  | some (.fatal e) => some (.error e)
  | _ => none

def turnWrites (turn : Turn σ) : List Write :=
  match turn.outcome with
  | some (.ok response) => [.record (usageOf user providerName turn.member response)]
  | some (.disable _) => [.disable turn.member.id]
  | _ => []

/-- **The loop is a fallback chain**, and what it wrote is what its turns wrote. -/
theorem fallback_eq_run : ∀ (chain : List Credential) (world : σ),
    fallback env user providerName provider request chain world =
      { result := ((Fallback.run (turnOf env user providerName provider request) decides
          chain world).result).getD (.error (.noCredential providerName))
        turns := (Fallback.run (turnOf env user providerName provider request) decides
          chain world).log
        writes := (Fallback.run (turnOf env user providerName provider request) decides
          chain world).log.flatMap (turnWrites user providerName)
        world := (Fallback.run (turnOf env user providerName provider request) decides
          chain world).world } := by
  intro chain
  induction chain with
  | nil => intro world; rfl
  | cons cred chain ih =>
    intro start
    cases gate : budgetGate env.reads user cred start with
    | mk passed world =>
      cases passed with
      | false =>
        simp only [fallback, Fallback.run, turnOf, gate, decides, ih, Completion.after]
        rfl
      | true =>
        cases tried : tryOne env provider cred request world with
        | mk attempt =>
          cases attempt with
          | ok | fatal =>
            simp only [fallback, Fallback.run, turnOf, gate, tried, decides]
            rfl
          | tryNext | disable =>
            simp only [fallback, Fallback.run, turnOf, gate, tried, decides, ih,
              Completion.after]
            rfl

end Chain

/-! ## What a turn comes to -/

def OverBudget : Prop :=
  (∃ remaining, (dailyTokensRemaining reads cred world).1 = .ok (some remaining) ∧
      remaining ≤ 0) ∨
    (perUserCeilingsRemaining reads cred user (dailyTokensRemaining reads cred world).2).1 =
      .ok .denyTokens ∨
    (perUserCeilingsRemaining reads cred user (dailyTokensRemaining reads cred world).2).1 =
      .ok .denyRequests

def CheckFailed : Prop :=
  (∃ e, (dailyTokensRemaining reads cred world).1 = .error e) ∨
    ∃ e, (perUserCeilingsRemaining reads cred user
      (dailyTokensRemaining reads cred world).2).1 = .error e

/-- The key does not decrypt, is not text, or the provider answers that it is unauthorized. -/
def Revoked (request : AnthropicRequest) (cred : Credential) (world : σ) : Prop :=
  (∃ e, env.decrypt cred.apiKeyCiphertext = .error e) ∨
    ∃ plaintext, env.decrypt cred.apiKeyCiphertext = .ok plaintext ∧
      (utf8 plaintext = none ∨
        ∃ apiKey body, utf8 plaintext = some apiKey ∧
          (env.complete provider apiKey request world).1 = .error (.unauthorized body))

theorem budgetGate_eq_false_iff :
    (budgetGate reads user cred world).1 = false ↔
      OverBudget reads user cred world ∨ CheckFailed reads user cred world := by
  unfold budgetGate OverBudget CheckFailed
  cases daily : dailyTokensRemaining reads cred world with
  | mk outcome world =>
    cases outcome with
    | error => simp
    | ok remaining =>
      cases perUser : perUserCeilingsRemaining reads cred user world with
      | mk verdict =>
        by_cases exhausted : remaining.any (· ≤ 0) = true
        · obtain ⟨r, rfl, low⟩ := Option.any_eq_true _ _ |>.mp exhausted
          simp [of_decide_eq_true low]
        · have open_ : ∀ r, remaining = some r → ¬ r ≤ 0 := by
            rintro r rfl low
            exact exhausted (decide_eq_true low)
          simp only [exhausted, perUser]
          match verdict with
          | .ok .allowed => simpa using open_
          | .ok .denyTokens => simp
          | .ok .denyRequests => simp
          | .error e => simp

theorem tryOne_disables_iff (cred : Credential) (request : AnthropicRequest) (world : σ) :
    (∃ reason, (tryOne env provider cred request world).1 = .disable reason) ↔
      Revoked env provider request cred world := by
  unfold tryOne Revoked
  cases env.decrypt cred.apiKeyCiphertext with
  | error => simp
  | ok plaintext =>
    cases text : utf8 plaintext with
    | none => simp [text]
    | some apiKey =>
      cases answer : env.complete provider apiKey request world with
      | mk outcome =>
        cases outcome with
        | ok => simp [text, answer]
        | error e => cases e <;> simp [text, answer, classify]

section Turns

variable (env : Env σ) (user : UserId) (providerName : String) (provider : Provider)
  (request : AnthropicRequest)

/-- A turn is skipped exactly when the gate is closed. -/
theorem turnOf_fst (cred : Credential) (start : σ) :
    (turnOf env user providerName provider request cred start).1 =
      if (budgetGate env.reads user cred start).1 then
        some (tryOne env provider cred request (budgetGate env.reads user cred start).2).1
      else none := by
  unfold turnOf
  cases budgetGate env.reads user cred start with
  | mk passed world =>
    cases passed with
    | false => rfl
    | true =>
      cases tried : tryOne env provider cred request world with
      | mk attempt => cases attempt <;> simp [tried]

def Write.usage : Write → Option NewUsage
  | .record usage => some usage
  | .disable _ => none

/-- **What a completion over `chain` promises.** -/
structure CompletionLaws (chain : List Credential) (c : Completion σ) : Prop where
  inOrder : c.turns.map (·.member) <+: chain
  skipped_iff : ∀ turn ∈ c.turns, turn.outcome = none ↔
    OverBudget env.reads user turn.member turn.world ∨
      CheckFailed env.reads user turn.member turn.world
  attempted : ∀ turn ∈ c.turns, ∀ attempt, turn.outcome = some attempt →
    attempt = (tryOne env provider turn.member request
      (budgetGate env.reads user turn.member turn.world).2).1
  nothingAfter : ∀ earlier turn later, c.turns = earlier ++ turn :: later →
    (decides turn.outcome).isSome → later = []
  ok_iff : ∀ response, c.result = .ok response ↔
    ∃ turn ∈ c.turns, turn.outcome = some (.ok response)
  error_iff : ∀ e, c.result = .error e ↔
    (∃ turn ∈ c.turns, turn.outcome = some (.fatal e)) ∨
      (e = .noCredential providerName ∧ c.turns.map (·.member) = chain ∧
        ∀ turn ∈ c.turns, decides turn.outcome = none)
  disabled_iff : ∀ id, Write.disable id ∈ c.writes ↔
    ∃ turn ∈ c.turns, turn.member.id = id ∧ turn.outcome ≠ none ∧
      Revoked env provider request turn.member
        (budgetGate env.reads user turn.member turn.world).2
  /-- One row, for the credential whose call answered, the provider and the answer's own model and
  counters. -/
  usage_ok : ∀ response, c.result = .ok response →
    ∃ turn ∈ c.turns, turn.outcome = some (.ok response) ∧
      c.writes.filterMap Write.usage =
        [{ credentialId := turn.member.id, userId := user, agentId := none
           provider := providerName, model := response.model
           tokensIn := wrapI64 response.usage.inputTokens
           tokensOut := wrapI64 response.usage.outputTokens }]
  usage_error : ∀ e, c.result = .error e → c.writes.filterMap Write.usage = []

variable {env user providerName provider request} {outcome : Option Attempt}

theorem decides_eq_ok {response : AnthropicResponse} :
    decides outcome = some (.ok response) ↔ outcome = some (.ok response) := by
  match outcome with
  | none | some (.ok _) | some (.tryNext _) | some (.disable _) | some (.fatal _) =>
    simp [decides]

theorem decides_eq_error {e : ProxyError} :
    decides outcome = some (.error e) ↔ outcome = some (.fatal e) := by
  match outcome with
  | none | some (.ok _) | some (.tryNext _) | some (.disable _) | some (.fatal _) =>
    simp [decides]

theorem usage_turnWrites (turn : Turn σ) :
    (turnWrites user providerName turn).filterMap Write.usage =
      match turn.outcome with
      | some (.ok response) => [usageOf user providerName turn.member response]
      | _ => [] := by
  unfold turnWrites
  match turn.outcome with
  | none | some (.ok _) | some (.tryNext _) | some (.disable _) | some (.fatal _) => rfl

theorem disable_mem_turnWrites (turn : Turn σ) (id : CredentialId) :
    Write.disable id ∈ turnWrites user providerName turn ↔
      turn.member.id = id ∧ ∃ reason, turn.outcome = some (.disable reason) := by
  unfold turnWrites
  match turn.outcome with
  | none | some (.ok _) | some (.tryNext _) | some (.disable _) | some (.fatal _) =>
    simp [eq_comm]

theorem usage_flatMap_eq_nil {turns : List (Turn σ)}
    (h : ∀ turn ∈ turns, ∀ response, turn.outcome ≠ some (.ok response)) :
    (turns.flatMap (turnWrites user providerName)).filterMap Write.usage = [] := by
  rw [filterMap_flatMap, flatMap_eq_nil_iff]
  intro turn mem
  rw [usage_turnWrites]
  have notOk := h turn mem
  match outcome : turn.outcome with
  | some (.ok response) => exact absurd outcome (notOk response)
  | none | some (.tryNext _) | some (.disable _) | some (.fatal _) => rfl

theorem fallback_laws (chain : List Credential) (world : σ) :
    CompletionLaws env user providerName provider request chain
      (fallback env user providerName provider request chain world) := by
  rw [fallback_eq_run]
  have laws := Fallback.run_laws (turnOf env user providerName provider request) decides
    chain world
  generalize Fallback.run (turnOf env user providerName provider request) decides
    chain world = ended at laws
  have outcome_eq : ∀ turn ∈ ended.log, turn.outcome =
      if (budgetGate env.reads user turn.member turn.world).1 then
        some (tryOne env provider turn.member request
          (budgetGate env.reads user turn.member turn.world).2).1
      else none := fun turn mem => by rw [laws.outcome_eq turn mem, turnOf_fst]
  exact
    { inOrder := laws.reached
      skipped_iff := by
        intro turn mem
        rw [← budgetGate_eq_false_iff, outcome_eq turn mem]
        cases (budgetGate env.reads user turn.member turn.world).1 <;> simp
      attempted := by
        intro turn mem attempt outcome
        rw [outcome_eq turn mem] at outcome
        split at outcome
        · exact (Option.some.inj outcome).symm
        · cases outcome
      nothingAfter := laws.last
      ok_iff := by
        intro response
        simp only [← decides_eq_ok, ← laws.result_iff]
        cases ended.result <;> simp
      error_iff := by
        intro e
        simp only [← decides_eq_error, ← laws.result_iff]
        cases result : ended.result with
        | none =>
          have all := laws.exhausted result
          have passes := laws.passes_of_undecided result
          simp only [Option.getD_none, Except.error.injEq, reduceCtorEq, false_or]
          exact ⟨fun h => ⟨h.symm, all, passes⟩, fun h => h.1.symm⟩
        | some r =>
          obtain ⟨turn, mem, decisive⟩ := (laws.result_iff r).mp result
          simp only [Option.getD_some, Option.some.injEq]
          refine ⟨Or.inl, ?_⟩
          rintro (h | ⟨-, -, passes⟩)
          · exact h
          · rw [passes turn mem] at decisive
            cases decisive
      disabled_iff := by
        intro id
        simp only [mem_flatMap, disable_mem_turnWrites, ← tryOne_disables_iff]
        refine exists_congr fun turn => and_congr_right fun mem => and_congr_right fun _ => ?_
        rw [outcome_eq turn mem]
        split <;> simp
      usage_ok := by
        intro response result
        cases decided : ended.result with
        | none => simp [decided] at result
        | some r =>
          obtain rfl : r = .ok response := by simpa [decided] using result
          obtain ⟨earlier, turn, split, decisive, passes⟩ := laws.decided decided
          have outcome := decides_eq_ok.mp decisive
          refine ⟨turn, by simp [split], outcome, ?_⟩
          show _ = [usageOf user providerName turn.member response]
          have before : ((earlier.flatMap (turnWrites user providerName)).filterMap
              Write.usage) = [] := by
            refine usage_flatMap_eq_nil fun t mem response isOk => ?_
            have := passes t mem
            rw [isOk] at this
            cases this
          simp only [split, flatMap_append, flatMap_singleton,
            filterMap_append, before, nil_append, usage_turnWrites, outcome]
      usage_error := by
        intro e result
        refine usage_flatMap_eq_nil fun turn mem response isOk => ?_
        have := (laws.result_iff (.ok response)).mpr ⟨turn, mem, decides_eq_ok.mpr isOk⟩
        simp [this] at result }

end Turns

theorem completeWithProvider_eq_fallback {env : Env σ} {db : GatewayDb} {user : UserId}
    {providerName : String} {request : AnthropicRequest} {world : σ} {provider : Provider}
    {chain : List Credential} (known : dispatchProvider providerName = .ok provider)
    (resolved : resolveForUser db user providerName = .ok chain) :
    completeWithProvider env db user providerName request world =
      fallback env user providerName provider request chain world := by
  cases chain with
  | nil => simp only [completeWithProvider, known, resolved, fallback]
  | cons cred chain => simp only [completeWithProvider, known, resolved]

/-- A completion is refused before it turns to a credential, or it is the loop over the chain. -/
theorem refused_or_fallback (env : Env σ) (db : GatewayDb) (user : UserId) (providerName : String)
    (request : AnthropicRequest) (world : σ) :
    (completeWithProvider env db user providerName request world).turns = [] ∧
        (completeWithProvider env db user providerName request world).writes = [] ∨
      ∃ provider chain, resolveForUser db user providerName = .ok chain ∧
        completeWithProvider env db user providerName request world =
          fallback env user providerName provider request chain world := by
  cases known : dispatchProvider providerName with
  | error => exact .inl (by simp [completeWithProvider, known])
  | ok provider =>
    cases resolved : resolveForUser db user providerName with
    | error => exact .inl (by simp [completeWithProvider, known, resolved])
    | ok chain => exact .inr ⟨provider, chain, rfl, completeWithProvider_eq_fallback known resolved⟩

/-- **A completion tries the chain in order, and accounts for what it does.** -/
theorem completeWithProvider_completionLaws {env : Env σ} {db : GatewayDb} {user : UserId}
    {providerName : String} {request : AnthropicRequest} {world : σ} {provider : Provider}
    {chain : List Credential} (known : dispatchProvider providerName = .ok provider)
    (resolved : resolveForUser db user providerName = .ok chain) :
    CompletionLaws env user providerName provider request chain
      (completeWithProvider env db user providerName request world) := by
  rw [completeWithProvider_eq_fallback known resolved]
  exact fallback_laws chain world

def twoKeys : GatewayDb where
  credentials :=
    [ { id := ⟨uuidOf 2⟩, scope := .user, scopeId := (UserId.mk (uuidOf 1)).toString
        provider := "anthropic", apiKeyCiphertext := [104, 105], createdAt := "2026-01-01" },
      { id := ⟨uuidOf 3⟩, scope := .user, scopeId := (UserId.mk (uuidOf 1)).toString
        provider := "anthropic", apiKeyCiphertext := [], priority := 7
        createdAt := "2026-01-02" } ]

def obliging : Env Unit where
  reads :=
    { todayStart := fun _ => ("2026-01-03T00:00:00.000Z", ())
      minuteAgo := fun _ => ("2026-01-03T10:00:00.000Z", ())
      tokensSince := fun _ _ _ => (.ok 0, ())
      tokensSinceForUser := fun _ _ _ _ => (.ok 0, ())
      requestsSinceForUser := fun _ _ _ _ => (.ok 0, ()) }
  decrypt := fun bytes => if bytes = [] then .error "decrypt: empty" else .ok bytes
  complete := fun _ _ request _ => (.ok
    { id := "msg", model := request.model, role := "assistant", content := .array []
      stopReason := some "end_turn", usage := { inputTokens := 3, outputTokens := 4 } }, ())
  write := fun _ _ => (.ok (), ())

theorem twoKeys_completionLaws :
    CompletionLaws obliging ⟨uuidOf 1⟩ "anthropic" .anthropic
        { model := "claude", maxTokens := 16, messages := [], system := none
          temperature := none, tools := none }
        twoKeys.credentials.reverse
        (completeWithProvider obliging twoKeys ⟨uuidOf 1⟩ "anthropic"
          { model := "claude", maxTokens := 16, messages := [], system := none
            temperature := none, tools := none } ()) :=
  completeWithProvider_completionLaws rfl rfl

end Havn.Gateway.LlmProxy
