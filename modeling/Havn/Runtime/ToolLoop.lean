import Mathlib.Data.List.Basic
import Havn.Proto.Messages

/-!
# The LLM and tool loop of the runtime

`havn-runtime/src/tool_loop.rs`: ask the model, append its turn, run the tools it asked for, append
their results as one user turn, and ask again, until a response stops or the iteration cap is
reached.

The socket, the tools and the mirror that `subagent_spawn` reads share a state `σ` (the *world*),
which every interaction may read and change.  `LoopHandle` holds the interactions; nothing is
assumed of them.
-/

namespace Havn.Runtime.ToolLoop

open Lib Proto List

universe u

/-! ## The loop -/

inductive ToolResult where
  | ok (text : String)
  | error (text : String)

/-- It could not be enqueued, the channel for its response was dropped, or a response arrived. -/
inductive Exchange where
  | notSent (reason : String)
  | dropped
  | response (response : LlmResponse)

def Exchange.delivered : Exchange → Bool
  | response _ => true
  | _ => false

/-- The registry appears as the three functions the loop calls on it. -/
structure LoopHandle (σ : Type u) where
  exchange : LlmRequest → σ → Exchange × σ
  newRequestId : σ → String × σ
  executeFor : String → String → Json → σ → ToolResult × σ
  isEmptyFor : String → Bool
  schemasFor : String → Json
  messagesMirror : Option (List Json → σ → σ)
  maxIterations : ℕ
  model : String
  billingUserId : Option String

inductive RunError where
  | llm (message : String)
  | iterationCap (cap : ℕ) (partialText : String)
  | infra (message : String)
  deriving DecidableEq

structure Call where
  request : LlmRequest
  exchange : Exchange

structure LoopState (σ : Type u) where
  messages : List Json
  calls : List Call
  world : σ

def defaultMaxTokens : ℕ := 1024

def assistantTurn (content : Json) : Json :=
  .object [("role", .string "assistant"), ("content", content)]

def userTurn (blocks : List Json) : Json :=
  .object [("role", .string "user"), ("content", .array blocks)]

def blockType (block : Json) : Option String :=
  (block.get "type").bind Json.asStr

def extractText (content : Json) : Option String :=
  content.asArray.bind fun blocks =>
    let text := blocks.foldl (fun text block =>
      if blockType block = some "text" then
        text ++ ((block.get "text").bind Json.asStr).getD ""
      else text) ""
    if text.isEmpty then none else some text

def stopReason (providerResponse : Json) : String :=
  ((providerResponse.get "stop_reason").bind Json.asStr).getD "end_turn"

def contentOf (providerResponse : Json) : Json :=
  (providerResponse.get "content").getD (.array [])

def toolUseId (block : Json) : String :=
  ((block.get "id").bind Json.asStr).getD ""

def toolResultBlock (id : String) (result : ToolResult) : Json :=
  match result with
  | .ok text => .object [("type", .string "tool_result"), ("tool_use_id", .string id),
      ("content", .string text), ("is_error", .bool false)]
  | .error text => .object [("type", .string "tool_result"), ("tool_use_id", .string id),
      ("content", .string text), ("is_error", .bool true)]

variable {σ : Type u}

def executeBlocks (handle : LoopHandle σ) (context : String) :
    List Json → σ → List Json × σ
  | [], world => ([], world)
  | block :: blocks, world =>
    if blockType block = some "tool_use" then
      let name := ((block.get "name").bind Json.asStr).getD ""
      let input := (block.get "input").getD .null
      let (result, world) := handle.executeFor context name input world
      let (out, world) := executeBlocks handle context blocks world
      (toolResultBlock (toolUseId block) result :: out, world)
    else executeBlocks handle context blocks world

variable (handle : LoopHandle σ) (context : String)

def executeToolUses (content : Json) (world : σ) : List Json × σ :=
  match content.asArray with
  | none => ([], world)
  | some blocks => executeBlocks handle context blocks world

variable (systemPrompt : Option String)

def callOptions : Json :=
  .object ([("max_tokens", .number (.posInt defaultMaxTokens))]
    ++ (match systemPrompt with
        | some prompt => [("system", .string prompt)]
        | none => [])
    ++ (if handle.isEmptyFor context then [] else [("tools", handle.schemasFor context)]))

def llmReq (requestId : String) (messages : List Json) : LlmRequest :=
  { requestId := requestId
    model := handle.model
    messages := .array messages
    options := callOptions handle context systemPrompt
    billingUserId := handle.billingUserId }

def callLlm (s : LoopState σ) : Except String LlmResponse × LoopState σ :=
  let (requestId, world) := handle.newRequestId s.world
  let request := llmReq handle context systemPrompt requestId s.messages
  let (exchange, world) := handle.exchange request world
  let s := { s with calls := s.calls ++ [⟨request, exchange⟩], world := world }
  match exchange with
  | .notSent reason => (.error ("failed to enqueue LlmRequest: " ++ reason), s)
  | .dropped => (.error ("LlmResponse channel closed for " ++ requestId), s)
  | .response response => (.ok response, s)

/-- With a `return`, or at the bottom with the text captured so far. -/
inductive Iteration (σ : Type u) where
  | done (result : Except RunError String) (s : LoopState σ)
  | again (lastText : String) (s : LoopState σ)

def handleContent (providerResponse : Json) (s : LoopState σ) : Iteration σ :=
  let content := contentOf providerResponse
  let s := { s with messages := s.messages ++ [assistantTurn content] }
  let lastText := (extractText content).getD ""
  if stopReason providerResponse ≠ "tool_use" then .done (.ok lastText) s
  else
    let (toolResults, world) := executeToolUses handle context content s.world
    let s := { s with world := world }
    if toolResults.isEmpty then .done (.ok lastText) s
    else .again lastText { s with messages := s.messages ++ [userTurn toolResults] }

def iteration (s : LoopState σ) : Iteration σ :=
  let s := match handle.messagesMirror with
    | some publish => { s with world := publish s.messages s.world }
    | none => s
  match callLlm handle context systemPrompt s with
  | (.error e, s) => .done (.error (.infra e)) s
  | (.ok response, s) =>
    match response.outcome with
    | .error message => .done (.error (.llm message)) s
    | .ok => handleContent handle context response.providerResponse s

def loop (handle : LoopHandle σ) (context : String) (systemPrompt : Option String) :
    ℕ → String → LoopState σ → Except RunError String × LoopState σ
  | 0, lastText, s => (.error (.iterationCap handle.maxIterations lastText), s)
  | left + 1, _, s =>
    match iteration handle context systemPrompt s with
    | .done result s => (result, s)
    | .again lastText s => loop handle context systemPrompt left lastText s

def runTyped (messages : List Json)
    (systemPrompt : Option String) (world : σ) : Except RunError String × LoopState σ :=
  loop handle context systemPrompt handle.maxIterations "" ⟨messages, [], world⟩

/-- Errors of the model and the cap become text; only infrastructure failures remain errors. -/
def run (messages : List Json)
    (systemPrompt : Option String) (world : σ) : Except String String × LoopState σ :=
  match runTyped handle context messages systemPrompt world with
  | (.ok text, s) => (.ok text, s)
  | (.error (.llm message), s) => (.ok ("(LLM error: " ++ message ++ ")"), s)
  | (.error (.iterationCap cap _), s) =>
    (.ok ("(reached the " ++ toString cap ++ "-iteration tool-use cap before finishing)"), s)
  | (.error (.infra message), s) => (.error message, s)

/-! ## What a response asks for -/

def toolUseIds (content : Json) : List String :=
  ((content.asArray.getD []).filter fun block => blockType block = some "tool_use").map toolUseId

inductive Verdict where
  | error (message : String)
  | stop (content : Json)
  | tools (content : Json)

/-- A response stops unless its stop reason is `tool_use` and it has a
`tool_use` block. -/
def verdict (response : LlmResponse) : Verdict :=
  match response.outcome with
  | .error message => .error message
  | .ok =>
    if stopReason response.providerResponse = "tool_use" ∧
        toolUseIds (contentOf response.providerResponse) ≠ [] then
      .tools (contentOf response.providerResponse)
    else .stop (contentOf response.providerResponse)

def Call.verdict (call : Call) : Option Verdict :=
  match call.exchange with
  | .response response => some (ToolLoop.verdict response)
  | _ => none

def answeredId (block : Json) : Option String × Option String :=
  (blockType block, (block.get "tool_use_id").bind Json.asStr)

/-- The blocks of a content that call a tool. -/
def useBlocks (content : Json) : List Json :=
  (content.asArray.getD []).filter fun block => blockType block = some "tool_use"

/-- `tool_result`s with exactly the ids of the content's tool calls, in order and one each. -/
def Answers (content : Json) (blocks : List Json) : Prop :=
  blocks.map answeredId = (toolUseIds content).map fun id => (some "tool_result", some id)

theorem answeredId_toolResultBlock (id : String) (result : ToolResult) :
    answeredId (toolResultBlock id result) = (some "tool_result", some id) := by
  cases result <;> rfl

/-- The call asked the model with this message list, and its exchange is what came of it. -/
def Sent (messages : List Json) (call : Call) : Prop :=
  ∃ requestId world, call = ⟨llmReq handle context systemPrompt requestId messages,
    (handle.exchange (llmReq handle context systemPrompt requestId messages) world).1⟩

/-- The block holds, under the id of the call `use`, what its tool gave for its input. -/
def RanFor (use block : Json) : Prop :=
  ∃ world, block = toolResultBlock (toolUseId use) (handle.executeFor context
    (((use.get "name").bind Json.asStr).getD "") ((use.get "input").getD .null) world).1

/-- The blocks are the results of the content's tool calls, in order and one each. -/
def Ran (content : Json) (blocks : List Json) : Prop :=
  List.Forall₂ (RanFor handle context) (useBlocks content) blocks

variable {call : Call}

theorem Sent.messages {handle : LoopHandle σ} {context : String} {systemPrompt : Option String}
    {messages : List Json} (sent : Sent handle context systemPrompt messages call) :
    call.request.messages = .array messages := by
  obtain ⟨requestId, world, rfl⟩ := sent
  rfl

variable (handle : LoopHandle σ) (context : String) (messages : List Json)
  (systemPrompt : Option String) (s : LoopState σ)

theorem executeBlocks_ran :
    ∀ (blocks : List Json) (world : σ), List.Forall₂ (RanFor handle context)
      (blocks.filter fun block => blockType block = some "tool_use")
      (executeBlocks handle context blocks world).1 := by
  intro blocks
  induction blocks with
  | nil => exact fun _ => .nil
  | cons block blocks ih =>
    intro world
    by_cases isUse : blockType block = some "tool_use"
    · simp only [executeBlocks, isUse, if_true, decide_true, filter_cons_of_pos]
      exact .cons ⟨world, rfl⟩ (ih _)
    · simp only [executeBlocks, isUse, if_false, decide_false, Bool.false_eq_true,
        not_false_eq_true, filter_cons_of_neg]
      exact ih world

/-- **Every tool call is run and gets its result**, in its place. -/
theorem executeToolUses_ran (content : Json) (world : σ) :
    Ran handle context content (executeToolUses handle context content world).1 := by
  unfold Ran executeToolUses useBlocks
  cases content.asArray with
  | none => exact .nil
  | some blocks => exact executeBlocks_ran handle context blocks world

theorem Ran.answers {handle : LoopHandle σ} {context : String} {content : Json}
    {blocks : List Json} (ran : Ran handle context content blocks) : Answers content blocks := by
  show _ = ((useBlocks content).map toolUseId).map _
  unfold Ran at ran
  generalize useBlocks content = uses at ran ⊢
  induction ran with
  | nil => rfl
  | cons first _ ih =>
    obtain ⟨world, rfl⟩ := first
    rw [map_cons, answeredId_toolResultBlock, ih]
    rfl

theorem Answers.eq_nil_iff {content : Json} {blocks : List Json}
    (answers : Answers content blocks) : blocks = [] ↔ toolUseIds content = [] := by
  rw [← map_eq_nil_iff (f := answeredId), answers, map_eq_nil_iff]

/-! ## One pass -/

/-- What one pass of the loop body does from `s`: it sends the message list once, and goes by the
verdict on the response. -/
inductive Pass (s : LoopState σ) : Iteration σ → Prop
  | infra {call : Call} {world : σ} {message : String}
      (sent : call.request.messages = .array s.messages) (verdict : call.verdict = none) :
      Pass s (.done (.error (.infra message)) ⟨s.messages, s.calls ++ [call], world⟩)
  | llm {call : Call} {world : σ} {message : String}
      (sent : call.request.messages = .array s.messages)
      (verdict : call.verdict = some (.error message)) :
      Pass s (.done (.error (.llm message)) ⟨s.messages, s.calls ++ [call], world⟩)
  | stop {call : Call} {world : σ} {content : Json}
      (sent : call.request.messages = .array s.messages)
      (verdict : call.verdict = some (.stop content)) :
      Pass s (.done (.ok ((extractText content).getD ""))
        ⟨s.messages ++ [assistantTurn content], s.calls ++ [call], world⟩)
  | tools {call : Call} {world : σ} {content : Json} {blocks : List Json}
      (sent : call.request.messages = .array s.messages)
      (verdict : call.verdict = some (.tools content)) (answers : Answers content blocks) :
      Pass s (.again ((extractText content).getD "")
        ⟨s.messages ++ [assistantTurn content, userTurn blocks], s.calls ++ [call], world⟩)

variable {world : σ}

theorem handleContent_pass {response : LlmResponse}
    (sent : call.request.messages = .array s.messages)
    (arrived : call.exchange = .response response) (ok : response.outcome = .ok) :
    Pass s (handleContent handle context response.providerResponse
      ⟨s.messages, s.calls ++ [call], world⟩) := by
  have answers := (executeToolUses_ran handle context
    (contentOf response.providerResponse) world).answers
  have verdictEq : call.verdict = some (verdict response) := by
    simp only [Call.verdict, arrived]
  simp only [verdict, ok] at verdictEq
  unfold handleContent
  by_cases reason : stopReason response.providerResponse = "tool_use"
  · by_cases unused : (executeToolUses handle context
        (contentOf response.providerResponse) world).1 = []
    · -- `tool_use` without a `tool_use` block
      have noIds := answers.eq_nil_iff.mp unused
      simp only [reason, noIds, ne_eq, not_true_eq_false, and_false, if_false] at verdictEq
      simp only [reason, unused, ne_eq, not_true_eq_false, if_false, isEmpty_nil, if_true]
      exact .stop sent verdictEq
    · have someIds := mt answers.eq_nil_iff.mpr unused
      simp only [reason, someIds, ne_eq, not_false_eq_true, and_self, if_true] at verdictEq
      simp only [reason, unused, ne_eq, not_true_eq_false, if_false, List.isEmpty_iff,
        List.append_assoc, List.singleton_append]
      exact .tools sent verdictEq answers
  · simp only [reason, false_and, if_false] at verdictEq
    simp only [ne_eq, reason, not_false_eq_true, if_true]
    exact .stop sent verdictEq

theorem callLlm_spec :
    ∃ (call : Call) (world : σ), Sent handle context systemPrompt s.messages call ∧
      ((∃ message, call.verdict = none ∧
          callLlm handle context systemPrompt s =
            (.error message, ⟨s.messages, s.calls ++ [call], world⟩)) ∨
        ∃ response, call.exchange = .response response ∧
          callLlm handle context systemPrompt s =
            (.ok response, ⟨s.messages, s.calls ++ [call], world⟩)) := by
  cases fresh : handle.newRequestId s.world with
  | mk requestId before =>
    cases ended : handle.exchange
        (llmReq handle context systemPrompt requestId s.messages) before with
    | mk exchange world =>
      refine ⟨⟨llmReq handle context systemPrompt requestId s.messages, exchange⟩,
        world, ⟨requestId, before, by rw [ended]⟩, ?_⟩
      simp only [callLlm, fresh, ended]
      cases exchange with
      | notSent | dropped => exact .inl ⟨_, rfl, rfl⟩
      | response response => exact .inr ⟨response, rfl, rfl⟩

theorem iteration_spec :
    ∃ (call : Call) (world : σ), Sent handle context systemPrompt s.messages call ∧
      ((∃ message, call.verdict = none ∧ iteration handle context systemPrompt s =
          .done (.error (.infra message)) ⟨s.messages, s.calls ++ [call], world⟩) ∨
        ∃ response, call.exchange = .response response ∧
          ((∃ message, response.outcome = .error message ∧
              iteration handle context systemPrompt s =
                .done (.error (.llm message)) ⟨s.messages, s.calls ++ [call], world⟩) ∨
            (response.outcome = .ok ∧ iteration handle context systemPrompt s =
              handleContent handle context response.providerResponse
                ⟨s.messages, s.calls ++ [call], world⟩))) := by
  -- publishing to the mirror changes the world only
  obtain ⟨published, mirrored⟩ : ∃ published : σ, (match handle.messagesMirror with
      | some publish => { s with world := publish s.messages s.world }
      | none => s) = ⟨s.messages, s.calls, published⟩ := by
    cases handle.messagesMirror with
    | none => exact ⟨s.world, rfl⟩
    | some publish => exact ⟨publish s.messages s.world, rfl⟩
  obtain ⟨call, world, sent, ⟨message, failed, eq⟩ | ⟨response, arrived, eq⟩⟩ :=
    callLlm_spec handle context systemPrompt ⟨s.messages, s.calls, published⟩
  · refine ⟨call, world, sent, .inl ⟨message, failed, ?_⟩⟩
    simp only [iteration, mirrored, eq]
  · refine ⟨call, world, sent, .inr ⟨response, arrived, ?_⟩⟩
    simp only [iteration, mirrored, eq]
    cases outcome : response.outcome with
    | error message => exact .inl ⟨message, rfl, rfl⟩
    | ok => exact .inr ⟨rfl, rfl⟩

theorem iteration_pass : Pass s (iteration handle context systemPrompt s) := by
  obtain ⟨call, world, sent, ⟨message, failed, eq⟩ |
    ⟨response, arrived, ⟨message, outcome, eq⟩ | ⟨outcome, eq⟩⟩⟩ :=
      iteration_spec handle context systemPrompt s
  · rw [eq]
    exact .infra sent.messages failed
  · rw [eq]
    refine .llm sent.messages ?_
    simp only [Call.verdict, arrived, verdict, outcome]
  · rw [eq]
    exact handleContent_pass handle context s sent.messages arrived outcome

/-! ## The conversation a loop builds -/

/-- **A conversation of answered tool calls**: an assistant turn and a user turn for each of
`calls`, which sent the messages of its moment. -/
inductive Conversation (initial : List Json) : List Call → List Json → Prop
  | start : Conversation initial [] initial
  | round {calls : List Call} {messages : List Json} {call : Call} {content : Json}
      {blocks : List Json} (earlier : Conversation initial calls messages)
      (sent : call.request.messages = .array messages)
      (verdict : call.verdict = some (.tools content)) (answers : Answers content blocks) :
      Conversation initial (calls ++ [call])
        (messages ++ [assistantTurn content, userTurn blocks])

def capturedText (calls : List Call) : String :=
  match calls.getLast?.bind Call.verdict with
  | some (.tools content) => (extractText content).getD ""
  | _ => ""

/-- **How a loop ends**: a conversation, then the cap or one more call that does
not ask for tools. -/
inductive Ended (cap : ℕ) (initial : List Json) :
    Except RunError String → List Call → List Json → Prop
  | infra {calls : List Call} {messages : List Json} {call : Call} {message : String}
      (before : Conversation initial calls messages) (room : calls.length < cap)
      (sent : call.request.messages = .array messages) (verdict : call.verdict = none) :
      Ended cap initial (.error (.infra message)) (calls ++ [call]) messages
  | llm {calls : List Call} {messages : List Json} {call : Call} {message : String}
      (before : Conversation initial calls messages) (room : calls.length < cap)
      (sent : call.request.messages = .array messages)
      (verdict : call.verdict = some (.error message)) :
      Ended cap initial (.error (.llm message)) (calls ++ [call]) messages
  | stop {calls : List Call} {messages : List Json} {call : Call} {content : Json}
      (before : Conversation initial calls messages) (room : calls.length < cap)
      (sent : call.request.messages = .array messages)
      (verdict : call.verdict = some (.stop content)) :
      Ended cap initial (.ok ((extractText content).getD "")) (calls ++ [call])
        (messages ++ [assistantTurn content])
  | capped {calls : List Call} {messages : List Json}
      (before : Conversation initial calls messages) (full : calls.length = cap) :
      Ended cap initial (.error (.iterationCap cap (capturedText calls))) calls messages

/-- **The loop extends a conversation to its end.** -/
theorem loop_ended (initial : List Json) :
    ∀ (left : ℕ) (lastText : String) (s : LoopState σ),
      Conversation initial s.calls s.messages →
      s.calls.length + left = handle.maxIterations → lastText = capturedText s.calls →
      Ended handle.maxIterations initial (loop handle context systemPrompt left lastText s).1
        (loop handle context systemPrompt left lastText s).2.calls
        (loop handle context systemPrompt left lastText s).2.messages := by
  intro left
  induction left with
  | zero =>
    intro lastText s before budget captured
    rw [captured]
    exact .capped before budget
  | succ left ih =>
    intro lastText s before budget captured
    have room : s.calls.length < handle.maxIterations := by omega
    have pass := iteration_pass handle context systemPrompt s
    rw [loop]
    generalize iteration handle context systemPrompt s = ended at pass
    cases pass with
    | infra sent verdict => exact .infra before room sent verdict
    | llm sent verdict => exact .llm before room sent verdict
    | stop sent verdict => exact .stop before room sent verdict
    | tools sent verdict answers =>
      refine ih _ _ (.round before sent verdict answers) ?_ ?_
      · rw [List.length_append, List.length_singleton]; omega
      · simp only [capturedText, getLast?_concat, Option.bind_some, verdict]

theorem runTyped_ended (world : σ) :
    Ended handle.maxIterations messages
      (runTyped handle context messages systemPrompt world).1
      (runTyped handle context messages systemPrompt world).2.calls
      (runTyped handle context messages systemPrompt world).2.messages :=
  loop_ended handle context systemPrompt messages _ _ _ .start (Nat.zero_add _) rfl

/-! ## Reading a conversation by its calls -/

section Conversations

variable {cap : ℕ} {initial messages : List Json} {calls : List Call}
  {result : Except RunError String}

section

variable (talk : Conversation initial calls messages)

include talk

theorem Conversation.length_eq : messages.length = initial.length + 2 * calls.length := by
  induction talk with
  | start => rfl
  | round _ _ _ _ ih =>
    simp only [List.length_append, length_cons, length_nil, ih]
    omega

theorem Conversation.initial_kept : initial <+: messages := by
  induction talk with
  | start => exact prefix_rfl
  | round _ _ _ _ ih => exact ih.trans (prefix_append _ _)

theorem Conversation.asks
    (mem : call ∈ calls) : ∃ content, call.verdict = some (.tools content) := by
  induction talk with
  | start => simp at mem
  | round _ _ verdict _ ih =>
    rcases mem_append.mp mem with earlier | last
    · exact ih earlier
    · rw [mem_singleton.mp last]
      exact ⟨_, verdict⟩

/-- **The `i`-th round of a conversation**: what its call sent, and the two turns that follow it. -/
theorem Conversation.round_at :
    ∀ (turns : List Json) {i : ℕ} {call : Call}, calls[i]? = some call →
      ∃ content blocks, call.verdict = some (.tools content) ∧ Answers content blocks ∧
        call.request.messages = .array ((messages ++ turns).take (initial.length + 2 * i)) ∧
        (messages ++ turns).take (initial.length + 2 * (i + 1)) =
          (messages ++ turns).take (initial.length + 2 * i)
            ++ [assistantTurn content, userTurn blocks] := by
  induction talk with
  | start => intro turns i call found; simp at found
  | @round calls messages last content blocks earlier sent verdict answers ih =>
    intro turns i call found
    have length := earlier.length_eq
    have bound := (List.getElem?_eq_some_iff.mp found).1
    rw [List.length_append, List.length_singleton] at bound
    rw [List.append_assoc]
    rcases Nat.lt_or_ge i calls.length with before | after
    · rw [getElem?_append_left before] at found
      exact ih _ found
    · obtain rfl : i = calls.length := by omega
      rw [getElem?_concat_length, Option.some.injEq] at found
      subst found
      refine ⟨content, blocks, verdict, answers, ?_, ?_⟩
      · rw [← length, take_left, sent]
      · rw [← length, take_left, Nat.mul_succ, ← Nat.add_assoc, ← length,
          take_length_add_append]
        rfl

end

section

variable (ended : Ended cap initial result calls messages)

include ended

/-- An ended loop is a conversation, at most one more call on its messages, and
what that call appended. -/
theorem Ended.conversation :
    ∃ asked before last turns, Conversation initial asked before ∧
      calls = asked ++ last ∧ messages = before ++ turns ∧
      last.length ≤ 1 ∧ (∀ call ∈ last, call.request.messages = .array before) ∧
      calls.length ≤ cap := by
  cases ended with
  | @infra calls messages call _ before room sent _
  | @llm calls messages call _ before room sent _ =>
    exact ⟨calls, messages, [call], [], before, rfl, by simp, by simp, by simp [sent],
      by rw [List.length_append]; exact room⟩
  | @stop calls messages call content before room sent _ =>
    exact ⟨calls, messages, [call], [assistantTurn content], before, rfl, rfl, by simp,
      by simp [sent], by rw [List.length_append]; exact room⟩
  | capped before full =>
    exact ⟨calls, messages, [], [], before, by simp, by simp, by simp, by simp, Nat.le_of_eq full⟩

theorem Ended.appends : initial <+: messages := by
  obtain ⟨asked, before, last, turns, talk, -, rfl, -⟩ := ended.conversation
  exact talk.initial_kept.trans (prefix_append _ _)

theorem Ended.sent {i : ℕ} (found : calls[i]? = some call) :
    call.request.messages = .array (messages.take (initial.length + 2 * i)) := by
  obtain ⟨asked, before, last, turns, talk, rfl, rfl, single, sent, -⟩ := ended.conversation
  rcases Nat.lt_or_ge i asked.length with early | late
  · rw [getElem?_append_left early] at found
    obtain ⟨_, _, _, _, sentEq, _⟩ := talk.round_at turns found
    exact sentEq
  · rw [List.getElem?_append_right late] at found
    have bound := (List.getElem?_eq_some_iff.mp found).1
    obtain rfl : i = asked.length := by omega
    rw [sent call (mem_of_getElem? found), ← talk.length_eq, take_left]

/-- Every later call sends what the one before it sent, then the content and the results of its tool
calls. -/
theorem Ended.answered {i : ℕ} {earlier later : Call} (foundEarlier : calls[i]? = some earlier)
    (foundLater : calls[i + 1]? = some later) :
    ∃ sent content blocks, earlier.request.messages = .array sent ∧
      earlier.verdict = some (.tools content) ∧ Answers content blocks ∧
      later.request.messages = .array (sent ++ [assistantTurn content, userTurn blocks]) := by
  have sentLater := ended.sent foundLater
  obtain ⟨asked, before, last, turns, talk, rfl, rfl, single, -, -⟩ := ended.conversation
  have bound := (List.getElem?_eq_some_iff.mp foundLater).1
  rw [List.length_append] at bound
  rw [getElem?_append_left (by omega)] at foundEarlier
  obtain ⟨content, blocks, verdict, answers, sent, grown⟩ := talk.round_at turns foundEarlier
  rw [grown] at sentLater
  exact ⟨_, content, blocks, sent, verdict, answers, sentLater⟩

/-- The verdict on any call of an ended loop is a tool request, or the one that its
result reports. -/
theorem Ended.reported (mem : call ∈ calls) :
    match call.verdict with
    | some (.tools _) => True
    | none => ∃ message, result = .error (.infra message)
    | some (.error message) => result = .error (.llm message)
    | some (.stop content) => result = .ok ((extractText content).getD "") := by
  cases ended with
  | infra before _ _ verdict | llm before _ _ verdict | stop before _ _ verdict =>
    rcases mem_append.mp mem with asked | last
    · obtain ⟨_, verdict⟩ := before.asks asked
      rw [verdict]
      trivial
    · simp [mem_singleton.mp last, verdict]
  | capped before _ =>
    obtain ⟨_, verdict⟩ := before.asks mem
    rw [verdict]
    trivial

theorem Ended.ok_iff (text : String) :
    result = .ok text ↔ ∃ call ∈ calls, ∃ content,
      call.verdict = some (.stop content) ∧ text = (extractText content).getD "" := by
  constructor
  · rintro rfl
    cases ended with
    | stop _ _ _ verdict => exact ⟨_, mem_concat_self, _, verdict, rfl⟩
  · rintro ⟨call, mem, content, verdict, rfl⟩
    have reported := ended.reported mem
    rwa [verdict] at reported

theorem Ended.llm_iff (message : String) :
    result = .error (.llm message) ↔
      ∃ call ∈ calls, call.verdict = some (.error message) := by
  constructor
  · rintro rfl
    cases ended with
    | llm _ _ _ verdict => exact ⟨_, mem_concat_self, verdict⟩
  · rintro ⟨call, mem, verdict⟩
    have reported := ended.reported mem
    rwa [verdict] at reported

theorem Ended.calls_ne_nil (room : 0 < cap) : calls ≠ [] := by
  cases ended with
  | infra | llm | stop => exact concat_ne_nil _ _
  | capped _ full => exact ne_nil_of_length_pos (full ▸ room)

end

theorem Call.verdict_eq_none_iff (call : Call) :
    call.verdict = none ↔ call.exchange.delivered = false := by
  unfold Call.verdict Exchange.delivered
  cases call.exchange <;> simp

theorem Ended.infra_iff (ended : Ended cap initial result calls messages) :
    (∃ message, result = .error (.infra message)) ↔
      ∃ call ∈ calls, call.exchange.delivered = false := by
  simp only [← Call.verdict_eq_none_iff]
  constructor
  · rintro ⟨message, rfl⟩
    cases ended with
    | infra _ _ _ verdict => exact ⟨_, mem_concat_self, verdict⟩
  · rintro ⟨call, mem, verdict⟩
    have reported := ended.reported mem
    rwa [verdict] at reported

theorem Ended.cap_iff (ended : Ended cap initial result calls messages) (n : ℕ) (text : String) :
    result = .error (.iterationCap n text) ↔
      (n = cap ∧ text = capturedText calls) ∧
        calls.length = cap ∧ ∀ call ∈ calls, ∃ content, call.verdict = some (.tools content) := by
  constructor
  · rintro rfl
    cases ended with
    | capped before full => exact ⟨⟨rfl, rfl⟩, full, fun _ => before.asks⟩
  · rintro ⟨⟨rfl, rfl⟩, -, asks⟩
    -- the last call of every other ending did not ask for tools
    have lastAsks : ∀ {asked : List Call} {last : Call}, calls = asked ++ [last] →
        ∃ content, last.verdict = some (.tools content) := by
      rintro asked last rfl
      exact asks last mem_concat_self
    cases ended with
    | infra _ _ _ verdict | llm _ _ _ verdict | stop _ _ _ verdict =>
      obtain ⟨_, tools⟩ := lastAsks rfl; rw [verdict] at tools; cases tools
    | capped => rfl

end Conversations

theorem exists_first_call (world : σ) (room : 0 < handle.maxIterations) :
    ∃ call, (runTyped handle context messages systemPrompt world).2.calls.head? = some call :=
  ⟨_, head?_eq_some_head ((runTyped_ended ..).calls_ne_nil room)⟩

variable {handle context messages systemPrompt} in
theorem first_sends {world : σ}
    (first : (runTyped handle context messages systemPrompt world).2.calls.head? = some call) :
    call.request.messages = .array messages := by
  have ended := runTyped_ended handle context messages systemPrompt world
  rw [head?_eq_getElem?] at first
  rw [ended.sent first, Nat.mul_zero, Nat.add_zero, ← prefix_iff_eq_take.mp ended.appends]

/-! ## What a loop sends -/

def Iteration.state : Iteration σ → LoopState σ
  | done _ s => s
  | again _ s => s

section Calls

variable {handle : LoopHandle σ} {context : String} {systemPrompt : Option String}
  {Inv : List Json → Prop} {P : Call → Prop}
  (sends : ∀ messages call, Inv messages → Sent handle context systemPrompt messages call → P call)
  (grows : ∀ messages content world, Inv messages → Inv (messages ++
    [assistantTurn content, userTurn (executeToolUses handle context content world).1]))

include sends grows

theorem iteration_calls {s : LoopState σ} (inv : Inv s.messages)
    (calls : ∀ call ∈ s.calls, P call) :
    (∀ call ∈ (iteration handle context systemPrompt s).state.calls, P call) ∧
      ∀ text s', iteration handle context systemPrompt s = .again text s' → Inv s'.messages := by
  obtain ⟨call, world, sent, ended⟩ := iteration_spec handle context systemPrompt s
  have calls : ∀ call' ∈ s.calls ++ [call], P call' :=
    forall_mem_append.mpr ⟨calls, forall_mem_singleton.mpr (sends _ call inv sent)⟩
  rcases ended with ⟨message, -, eq⟩ | ⟨response, -, ⟨message, -, eq⟩ | ⟨-, eq⟩⟩
  · rw [eq]
    exact ⟨calls, nofun⟩
  · rw [eq]
    exact ⟨calls, nofun⟩
  · have round := grows s.messages (contentOf response.providerResponse) world inv
    rw [eq]
    simp only [handleContent]
    split
    · exact ⟨calls, nofun⟩
    split
    · exact ⟨calls, nofun⟩
    refine ⟨calls, fun text s' again => ?_⟩
    obtain ⟨-, rfl⟩ := Iteration.again.inj again
    rw [List.append_assoc]
    exact round

/-- **What every call of a run is**, by an invariant of the messages that are sent. -/
theorem runTyped_calls {messages : List Json} (start : Inv messages) (world : σ) :
    ∀ call ∈ (runTyped handle context messages systemPrompt world).2.calls, P call := by
  have run : ∀ (left : ℕ) (lastText : String) (s : LoopState σ), Inv s.messages →
      (∀ call ∈ s.calls, P call) →
        ∀ call ∈ (loop handle context systemPrompt left lastText s).2.calls, P call := by
    intro left
    induction left with
    | zero => exact fun _ _ _ calls => calls
    | succ left ih =>
      intro lastText s inv calls
      obtain ⟨calls', again⟩ := iteration_calls sends grows inv calls
      rw [loop]
      cases pass : iteration handle context systemPrompt s <;> rw [pass] at calls'
      case done => exact calls'
      case again text s' => exact ih text s' (again text s' pass) calls'
  exact run _ _ ⟨messages, [], world⟩ start (forall_mem_nil _)

end Calls

/-! ## What the loop promises its callers -/

/-- A loop on `initial` that ended with `result` in `s`: what the model was asked, what the tools
were run for, and how the verdicts on the responses decide the result. -/
structure LoopLaws (initial : List Json) (result : Except RunError String) (s : LoopState σ) :
    Prop where
  appends : initial <+: s.messages
  bounded : s.calls.length ≤ handle.maxIterations
  /-- The `i`-th call asks the model with exactly the list as it is then: two turns longer for
  every call before it. -/
  sent : ∀ (i : ℕ) (call : Call), s.calls[i]? = some call →
    Sent handle context systemPrompt (s.messages.take (initial.length + 2 * i)) call
  /-- A later call's list ends with the previous response's content and one user turn, with the
  results of running exactly its tool calls under their ids. -/
  answered : ∀ (i : ℕ) (earlier later : Call),
    s.calls[i]? = some earlier → s.calls[i + 1]? = some later →
    ∃ sent content blocks, earlier.request.messages = .array sent ∧
      earlier.verdict = some (.tools content) ∧ Answers content blocks ∧
      Ran handle context content blocks ∧
      later.request.messages = .array (sent ++ [assistantTurn content, userTurn blocks])
  ok_iff : ∀ text, result = .ok text ↔
    ∃ call ∈ s.calls, ∃ content, call.verdict = some (.stop content) ∧
      text = (extractText content).getD ""
  llm_iff : ∀ message, result = .error (.llm message) ↔
    ∃ call ∈ s.calls, call.verdict = some (.error message)
  cap_iff : ∀ n text, result = .error (.iterationCap n text) ↔
    (n = handle.maxIterations ∧ text = capturedText s.calls) ∧
      s.calls.length = handle.maxIterations ∧
      ∀ call ∈ s.calls, ∃ content, call.verdict = some (.tools content)
  infra_iff : (∃ message, result = .error (.infra message)) ↔
    ∃ call ∈ s.calls, call.exchange.delivered = false

/-- Message lists that grew by a content and what running its tool calls gave. -/
inductive Grown (initial : List Json) : List Json → Prop
  | start : Grown initial initial
  | round {messages : List Json} (content : Json) (world : σ) (earlier : Grown initial messages) :
      Grown initial (messages ++ [assistantTurn content,
        userTurn (executeToolUses handle context content world).1])

variable {handle context} in
theorem Grown.ran {initial sent blocks : List Json} {content : Json}
    (grown : Grown handle context initial (sent ++ [assistantTurn content, userTurn blocks]))
    (longer : initial.length ≤ sent.length) : Ran handle context content blocks := by
  generalize whole : sent ++ [assistantTurn content, userTurn blocks] = messages at grown
  cases grown with
  | start =>
    have size := congrArg List.length whole
    simp only [length_append, length_cons, length_nil] at size
    omega
  | round content' world =>
    obtain ⟨-, turns⟩ := append_inj' whole rfl
    simp only [assistantTurn, userTurn, cons.injEq, Json.object.injEq, Prod.mk.injEq,
      Json.array.injEq, true_and, and_true] at turns
    obtain ⟨rfl, rfl⟩ := turns
    exact executeToolUses_ran handle context content world

/-- **The loop keeps its promises**, whatever the provider answers and the tools do. -/
theorem runTyped_loopLaws (messages : List Json) (systemPrompt : Option String) (world : σ) :
    LoopLaws handle context systemPrompt messages
      (runTyped handle context messages systemPrompt world).1
      (runTyped handle context messages systemPrompt world).2 := by
  have ended := runTyped_ended handle context messages systemPrompt world
  obtain ⟨-, -, -, -, -, -, -, -, -, bounded⟩ := ended.conversation
  have asked := runTyped_calls (P := fun call => ∃ sent, Grown handle context messages sent ∧
      Sent handle context systemPrompt sent call)
    (fun sent _ grown isSent => ⟨sent, grown, isSent⟩)
    (fun _ content world grown => .round content world grown) .start world
  refine
    { appends := ended.appends
      bounded := bounded
      sent := fun i call found => ?_
      answered := fun i earlier later foundEarlier foundLater => ?_
      ok_iff := ended.ok_iff
      llm_iff := ended.llm_iff
      cap_iff := ended.cap_iff
      infra_iff := ended.infra_iff }
  · obtain ⟨sent, -, isSent⟩ := asked call (mem_of_getElem? found)
    rwa [← Json.array.inj (isSent.messages.symm.trans (ended.sent found))]
  · obtain ⟨sent, content, blocks, sends, verdict, answers, grows⟩ :=
      ended.answered foundEarlier foundLater
    obtain ⟨list, grown, isSent⟩ := asked later (mem_of_getElem? foundLater)
    obtain rfl := Json.array.inj (isSent.messages.symm.trans grows)
    have longer : messages.length ≤ sent.length := by
      rw [Json.array.inj (sends.symm.trans (ended.sent foundEarlier)), length_take]
      exact le_min (Nat.le_add_right _ _) ended.appends.length_le
    exact ⟨sent, content, blocks, sends, verdict, answers, grown.ran longer, grows⟩

/-! ## What a loop does to the world -/

/-- Everything a loop does in a context keeps a property of the world. -/
structure Keeps (Inv : σ → Prop) : Prop where
  exchange : ∀ request world, Inv world → Inv (handle.exchange request world).2
  newRequestId : ∀ world, Inv world → Inv (handle.newRequestId world).2
  executeFor : ∀ name input world, Inv world →
    Inv (handle.executeFor context name input world).2
  publish : ∀ publish, handle.messagesMirror = some publish →
    ∀ messages world, Inv world → Inv (publish messages world)

theorem run_snd (world : σ) :
    (run handle context messages systemPrompt world).2 =
      (runTyped handle context messages systemPrompt world).2 := by
  unfold run
  split <;> (rename_i ended; rw [ended])

namespace Keeps

variable {handle : LoopHandle σ} {context : String} {Inv : σ → Prop}

section

variable (keeps : Keeps handle context Inv)

include keeps

theorem executeBlocks : ∀ (blocks : List Json) (world : σ),
    Inv world → Inv (ToolLoop.executeBlocks handle context blocks world).2 := by
  intro blocks
  induction blocks with
  | nil => intro world inv; exact inv
  | cons block blocks ih =>
    intro world inv
    rw [ToolLoop.executeBlocks]
    split
    · exact ih _ (keeps.executeFor _ _ _ inv)
    · exact ih world inv

theorem executeToolUses (content : Json) (inv : Inv world) :
    Inv (ToolLoop.executeToolUses handle context content world).2 := by
  unfold ToolLoop.executeToolUses
  split
  · exact inv
  · exact keeps.executeBlocks _ world inv

theorem callLlm (systemPrompt : Option String) {s : LoopState σ} (inv : Inv s.world) :
    Inv (ToolLoop.callLlm handle context systemPrompt s).2.world := by
  have fresh := keeps.newRequestId s.world inv
  have answered := keeps.exchange (llmReq handle context systemPrompt
    (handle.newRequestId s.world).1 s.messages) _ fresh
  unfold ToolLoop.callLlm
  dsimp only
  split <;> exact answered

theorem handleContent (providerResponse : Json) {s : LoopState σ} (inv : Inv s.world) :
    Inv (ToolLoop.handleContent handle context providerResponse s).state.world := by
  have ran := keeps.executeToolUses (contentOf providerResponse) inv
  unfold ToolLoop.handleContent
  dsimp only
  split
  · exact inv
  · split <;> exact ran

theorem iteration (systemPrompt : Option String) {s : LoopState σ} (inv : Inv s.world) :
    Inv (ToolLoop.iteration handle context systemPrompt s).state.world := by
  have mirrored : Inv (match handle.messagesMirror with
      | some publish => { s with world := publish s.messages s.world }
      | none => s).world := by
    split
    · exact keeps.publish _ ‹_› _ _ inv
    · exact inv
  have called := keeps.callLlm systemPrompt mirrored
  unfold ToolLoop.iteration
  dsimp only
  split
  · rename_i failed
    rw [failed] at called
    exact called
  · rename_i arrived
    rw [arrived] at called
    split
    · exact called
    · exact keeps.handleContent _ called

theorem loop (systemPrompt : Option String) :
    ∀ (left : ℕ) (lastText : String) (s : LoopState σ), Inv s.world →
      Inv (ToolLoop.loop handle context systemPrompt left lastText s).2.world := by
  intro left
  induction left with
  | zero => intro lastText s inv; exact inv
  | succ left ih =>
    intro lastText s inv
    have passed := keeps.iteration systemPrompt inv
    rw [ToolLoop.loop]
    split <;> rename_i ended <;> rw [ended] at passed
    · exact passed
    · exact ih _ _ passed

/-- **What every interaction keeps, a whole run keeps.** -/
theorem runTyped (messages : List Json) (systemPrompt : Option String) (inv : Inv world) :
    Inv (ToolLoop.runTyped handle context messages systemPrompt world).2.world :=
  keeps.loop systemPrompt handle.maxIterations "" ⟨messages, [], world⟩ inv

theorem run (messages : List Json) (systemPrompt : Option String)
    (inv : Inv world) : Inv (ToolLoop.run handle context messages systemPrompt world).2.world := by
  rw [run_snd]
  exact keeps.runTyped messages systemPrompt inv

end

end Keeps

/-! ### A model that asks for a tool -/

def toolUse (name : String) (input : Json) : LlmResponse where
  requestId := ""
  outcome := .ok
  providerResponse := .object [("stop_reason", .string "tool_use"), ("content", .array [
    .object [("type", .string "tool_use"), ("name", .string name), ("input", input)]])]

theorem iteration_toolUse {name : String} {input : Json}
    (asks : ∀ request world, request.messages = .array s.messages →
      (handle.exchange request world).1 = .response (toolUse name input)) :
    ∃ text s' world, iteration handle context systemPrompt s = .again text s' ∧
      s'.world = (handle.executeFor context name input world).2 ∧
      ∃ call : Call, s'.calls = s.calls ++ [call] ∧
        call.exchange = .response (toolUse name input) := by
  obtain ⟨call, world, ⟨requestId, before, rfl⟩, ended⟩ :=
    iteration_spec handle context systemPrompt s
  have answered := asks (llmReq handle context systemPrompt requestId s.messages) before rfl
  rcases ended with ⟨message, lost, -⟩ | ⟨response, arrived, ended⟩
  · rw [Call.verdict, answered] at lost
    cases lost
  · obtain rfl := Exchange.response.inj (answered.symm.trans arrived)
    rcases ended with ⟨message, failed, -⟩ | ⟨-, eq⟩
    · cases failed
    · exact ⟨_, _, world, eq, rfl, _, rfl, answered⟩

theorem Keeps.run_of_toolUse {handle : LoopHandle σ} {context : String} {Inv : σ → Prop}
    (keeps : Keeps handle context Inv) (room : 0 < handle.maxIterations) {messages : List Json}
    {name : String} {input : Json} (asks : ∀ request world, request.messages = .array messages →
      (handle.exchange request world).1 = .response (toolUse name input))
    (ran : ∀ world, Inv (handle.executeFor context name input world).2)
    (systemPrompt : Option String) (world : σ) :
    Inv (ToolLoop.run handle context messages systemPrompt world).2.world := by
  obtain ⟨left, budget⟩ := Nat.exists_eq_add_one.mpr room
  obtain ⟨text, s', before, again, after, -⟩ :=
    iteration_toolUse handle context systemPrompt ⟨messages, [], world⟩ asks
  rw [run_snd, ToolLoop.runTyped, budget, ToolLoop.loop, again]
  refine keeps.loop systemPrompt left text s' ?_
  rw [after]
  exact ran before

end Havn.Runtime.ToolLoop
