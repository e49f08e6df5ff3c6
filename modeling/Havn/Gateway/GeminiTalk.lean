import Mathlib.Data.List.Induction
import Havn.Gateway.StopReason
import Havn.Runtime.Session

/-!
# Conversations sent to Gemini

Gemini pairs a `functionResponse` with its `functionCall` by name and order.  The runtime's
`tool_result` blocks carry the id of the call only, and the translator sees one message at a time.
-/

namespace Havn.Gateway.GeminiTalk

open Lib Proto LlmProxy LlmRequests Gemini StopReason List
open Runtime.ToolLoop hiding stopReason

/-! ## What is sent -/

def callName (part : Json) : Option String := (part.get "functionCall").bind (Json.strAt "name")

def responseName (part : Json) : Option String :=
  (part.get "functionResponse").bind (Json.strAt "name")

def contentParts (content : Json) : List Json := ((content.get "parts").bind Json.asArray).getD []

def bodyParts (body : Json) : List Json :=
  (((body.get "contents").bind Json.asArray).getD []).flatMap contentParts

def blocksOf (m : AnthropicMessage) : List Json := m.content.asArray.getD []

def talkUses (messages : List AnthropicMessage) : List ToolUse :=
  messages.flatMap fun m => (blocksOf m).filterMap toolUse?

def resultsOf {α : Type} (f : Json → α) (m : AnthropicMessage) : List α :=
  (blocksOf m).filterMap fun block =>
    if blockType block = some "tool_result" then some (f block) else none

def answeredIds (messages : List AnthropicMessage) : List (Option String) :=
  messages.flatMap (resultsOf (Json.strAt "tool_use_id"))

/-- **Calls and responses correspond**: there is one tool result for each call, in the same order,
and its `functionResponse` has the name of that call. -/
structure Paired (messages : List AnthropicMessage) (body : Json) : Prop where
  calls : (bodyParts body).filterMap callName = (talkUses messages).map (·.name)
  answers : answeredIds messages = (talkUses messages).map fun use => some use.id
  responses : (bodyParts body).filterMap responseName = (talkUses messages).map (·.name)

/-! ## The translation of a message -/

variable {print : Json → String} {content : Json} {m : AnthropicMessage}

def sentName (block : Json) : String := (block.strAt "name").getD "tool"

theorem names_of_translateBlock {block : Json} {parts : List Json}
    (translated : translateBlock print block = .ok parts) :
    parts.filterMap callName = ((toolUse? block).map (·.name)).toList ∧
      parts.filterMap responseName = (if blockType block = some "tool_result" then
        some (sentName block) else none).toList := by
  have kinds : blockType block = block.strAt "type" := rfl
  rw [toolUse?, kinds]
  unfold translateBlock at translated
  cases kind : block.strAt "type" with
  | none => rw [kind] at translated; cases translated
  | some =>
    simp only [kind] at translated
    split at translated
    · rename_i isText
      subst isText
      obtain rfl := Except.ok.inj translated
      cases block.strAt "text" <;> exact ⟨rfl, rfl⟩
    · split at translated
      · rename_i isUse
        subst isUse
        cases name : block.strAt "name" with
        | none => rw [name] at translated; cases translated
        | some name' =>
          rw [name] at translated
          obtain rfl := Except.ok.inj translated
          have read : (block.get "name").bind Json.asStr = some name' := name
          refine ⟨?_, rfl⟩
          rw [if_pos rfl, read]
          rfl
      · split at translated
        · rename_i isResult
          subst isResult
          obtain rfl := Except.ok.inj translated
          exact ⟨rfl, rfl⟩
        · rename_i notText notUse notResult
          obtain rfl := Except.ok.inj translated
          rw [if_neg (by simpa using notUse), if_neg (by simpa using notResult)]
          exact ⟨rfl, rfl⟩

theorem names_of_translateMessage
    (translated : translateMessageToGemini print m = .ok content) :
    (contentParts content).filterMap callName = ((blocksOf m).filterMap toolUse?).map (·.name) ∧
      (contentParts content).filterMap responseName = resultsOf sentName m := by
  unfold translateMessageToGemini at translated
  split at translated
  · rename_i text held
    obtain rfl := Except.ok.inj translated
    rw [resultsOf, blocksOf, held]
    exact ⟨rfl, rfl⟩
  · rename_i blocks held
    obtain ⟨parts, each, rest⟩ := bind_eq_ok.mp translated
    obtain rfl := Except.ok.inj rest
    rw [resultsOf, blocksOf, held]
    show parts.flatten.filterMap callName = (blocks.filterMap toolUse?).map _ ∧
      parts.flatten.filterMap responseName = blocks.filterMap _
    have pairs := forall₂_of_mapM_eq_ok each
    have calls : (parts.flatMap id).filterMap callName =
        blocks.flatMap fun block => ((toolUse? block).map (·.name)).toList :=
      filterMap_flatMap_of_forall₂ (fun _ _ done => (names_of_translateBlock done).1) pairs
    have responses : (parts.flatMap id).filterMap responseName = blocks.flatMap fun block =>
        (if blockType block = some "tool_result" then
          some (sentName block) else none).toList :=
      filterMap_flatMap_of_forall₂ (fun _ _ done => (names_of_translateBlock done).2) pairs
    rw [flatMap_id] at calls responses
    rw [calls, responses, map_filterMap, filterMap_eq_flatMap_toList,
      filterMap_eq_flatMap_toList]
    exact ⟨rfl, rfl⟩
  · cases translated

theorem names_of_anthropicToGemini {float : Number → F64} {req : AnthropicRequest} {body : Json}
    (translated : anthropicToGemini print float req = .ok body) :
    (bodyParts body).filterMap callName = (talkUses req.messages).map (·.name) ∧
      (bodyParts body).filterMap responseName = req.messages.flatMap (resultsOf sentName) := by
  obtain ⟨contents, each, rest⟩ := bind_eq_ok.mp translated
  obtain ⟨tools, -, whole⟩ := bind_eq_ok.mp rest
  obtain rfl := Except.ok.inj whole
  show (contents.flatMap contentParts).filterMap callName = _ ∧
    (contents.flatMap contentParts).filterMap responseName = _
  have pairs := forall₂_of_mapM_eq_ok each
  rw [talkUses, map_flatMap]
  exact ⟨filterMap_flatMap_of_forall₂ (fun _ _ done => (names_of_translateMessage done).1) pairs,
    filterMap_flatMap_of_forall₂ (fun _ _ done => (names_of_translateMessage done).2) pairs⟩

/-! ## The conversations of the loop -/

def answerBlocks (content : Json) (results : List ToolResult) : List Json :=
  List.zipWith (fun use result => toolResultBlock use.id result) (toolUses content) results

def roundTurns (content : Json) (results : List ToolResult) : List AnthropicMessage :=
  [⟨"assistant", content⟩, ⟨"user", .array (answerBlocks content results)⟩]

inductive Rounds (start : List AnthropicMessage) : List AnthropicMessage → Prop
  | start : Rounds start start
  | round {messages : List AnthropicMessage} {content : Json} {results : List ToolResult}
      (earlier : Rounds start messages) (each : results.length = (toolUses content).length) :
      Rounds start (messages ++ roundTurns content results)

/-- **A conversation** of texts and whole rounds. -/
inductive Talk : List AnthropicMessage → Prop
  | nil : Talk []
  | text {messages : List AnthropicMessage} {m : AnthropicMessage} (earlier : Talk messages)
      (plain : ∃ text, m.content = .string text) : Talk (messages ++ [m])
  | round {messages : List AnthropicMessage} {content : Json} {results : List ToolResult}
      (earlier : Talk messages) (each : results.length = (toolUses content).length) :
      Talk (messages ++ roundTurns content results)

theorem talk_of_texts {messages : List AnthropicMessage}
    (plain : ∀ m ∈ messages, ∃ text, m.content = .string text) : Talk messages := by
  induction messages using List.reverseRecOn with
  | nil => exact .nil
  | append_singleton messages m ih =>
    obtain ⟨before, last⟩ := forall_mem_append.mp plain
    exact .text (ih before) (last m (mem_singleton_self m))

variable {start messages : List AnthropicMessage} {σ : Type} (handle : LoopHandle σ)
  {initial : List Json}

theorem Rounds.talk (rounds : Rounds start messages)
    (talk : Talk start) : Talk messages := by
  induction rounds with
  | start => exact talk
  | round _ each ih => exact ih.round each

theorem Rounds.fork (rounds : Rounds start messages)
    (plain : ∀ m ∈ start, ∃ text, m.content = .string text) (half : ℕ) :
    Talk (messages.drop (messages.length - 2 * half)) := by
  induction rounds generalizing half with
  | start => exact talk_of_texts fun m mem => plain m (mem_of_mem_drop mem)
  | @round messages content results _ each ih =>
    cases half with
    | zero =>
      rw [Nat.mul_zero, Nat.sub_zero, drop_length]
      exact .nil
    | succ half =>
      have length : (messages ++ roundTurns content results).length - 2 * (half + 1) =
          messages.length - 2 * half := by
        rw [length_append, roundTurns, length_cons, length_singleton]
        omega
      rw [length, drop_append_of_le_length (Nat.sub_le _ _)]
      exact (ih half).round each

theorem exists_results (context : String) (uses : List ToolUse)
    (world : σ) : ∃ results : List ToolResult, results.length = uses.length ∧
      (runTools handle context uses world).1 =
        List.zipWith (fun use result => toolResultBlock use.id result) uses results := by
  induction uses generalizing world with
  | nil => exact ⟨[], rfl, rfl⟩
  | cons use uses ih =>
    obtain ⟨results, length, rest⟩ := ih (handle.executeFor context use.name use.input world).2
    refine ⟨(handle.executeFor context use.name use.input world).1 :: results, ?_, ?_⟩
    · rw [length_cons, length_cons, length]
    · rw [runTools, zipWith_cons_cons, rest]

def Extends (start : List AnthropicMessage) (turns : List Json) : Prop :=
  ∃ messages, turns.mapM anthropicMessage = some messages ∧ Rounds start messages

theorem Extends.round {start : List AnthropicMessage} {turns : List Json}
    (extends' : Extends start turns) (content : Json) (handle : LoopHandle σ) (context : String)
    (world : σ) : Extends start (turns ++ [assistantTurn content,
      userTurn (executeToolUses handle context content world).1]) := by
  obtain ⟨messages, read, rounds⟩ := extends'
  obtain ⟨results, length, answers⟩ := exists_results handle context (toolUses content) world
  rw [executeToolUses_eq, answers]
  refine ⟨_, ?_, rounds.round length⟩
  rw [mapM_append, read]
  rfl

def Sends (start : List AnthropicMessage) (call : Call) : Prop :=
  ∃ turns, call.request.messages = .array turns ∧ Extends start turns

/-- **What a run sends**: its initial messages and whole rounds. -/
theorem runTyped_sends (context : String) (systemPrompt : Option String)
    (world : σ) {start : List AnthropicMessage} (read : initial.mapM anthropicMessage = some start)
    {call : Call} (mem : call ∈ (runTyped handle context initial systemPrompt world).2.calls) :
    Sends start call :=
  runTyped_calls (fun turns _ extends' sent => ⟨turns, sent.messages, extends'⟩)
    (fun _ content world extends' => extends'.round content handle context world)
    ⟨start, read, .start⟩ world call mem

def Texts (turns : List Json) : Prop :=
  ∀ turn ∈ turns, ∃ role text, anthropicMessage turn = some ⟨role, .string text⟩

/-- **What a loop is started on**: texts, or what a subagent gets of a run on texts. -/
inductive Starts : List Json → Prop
  | texts {initial : List Json} (texts : Texts initial) : Starts initial
  | fork {σ : Type} {handle : LoopHandle σ} {context : String} {initial turns : List Json}
      {systemPrompt : Option String} {world : σ} {call : Call} (input : Runtime.Session.SpawnInput)
      (texts : Texts initial)
      (mem : call ∈ (runTyped handle context initial systemPrompt world).2.calls)
      (sent : call.request.messages = .array turns) :
      Starts (Runtime.Session.initialMessages turns input)

theorem Texts.read (texts : Texts initial) :
    ∃ messages, initial.mapM anthropicMessage = some messages ∧
      ∀ m ∈ messages, ∃ text, m.content = .string text := by
  induction initial with
  | nil => exact ⟨[], rfl, forall_mem_nil _⟩
  | cons turn initial ih =>
    obtain ⟨⟨role, text, first⟩, later⟩ := forall_mem_cons.mp texts
    obtain ⟨messages, rest, plain⟩ := ih later
    refine ⟨⟨role, .string text⟩ :: messages, ?_, forall_mem_cons.mpr ⟨⟨text, rfl⟩, plain⟩⟩
    rw [mapM_cons, first, rest]
    rfl

theorem Starts.read (starts : Starts initial) :
    ∃ messages, initial.mapM anthropicMessage = some messages ∧ Talk messages := by
  cases starts with
  | texts texts =>
    obtain ⟨messages, read, plain⟩ := texts.read
    exact ⟨messages, read, talk_of_texts plain⟩
  | @fork _ handle context initial turns systemPrompt world call input texts mem sent =>
    obtain ⟨first, read, plain⟩ := texts.read
    obtain ⟨turns', sent', messages, decoded, rounds⟩ :=
      runTyped_sends handle context systemPrompt world read mem
    obtain rfl : turns = turns' := Json.array.inj (sent.symm.trans sent')
    have task : List.mapM anthropicMessage
        [Json.object [("role", .string "user"), ("content", .string input.task)]] =
          some [⟨"user", .string input.task⟩] := rfl
    rw [Runtime.Session.initialMessages]
    cases input.context with
    | isolated =>
      refine ⟨_, task, talk_of_texts fun m mem => ⟨input.task, ?_⟩⟩
      rw [mem_singleton.mp mem]
    | fork =>
      have forked : Talk (messages.drop (messages.length - 10) ++
          [AnthropicMessage.mk "user" (.string input.task)]) :=
        (rounds.fork plain 5).text ⟨input.task, rfl⟩
      refine ⟨_, ?_, forked⟩
      rw [mapM_append, length_of_mapM decoded, mapM_drop decoded, task]
      rfl

/-! ## What becomes of a conversation -/

def Sided (messages : List AnthropicMessage) : Prop :=
  ∀ m ∈ messages, m.role = "assistant" →
    ∀ block ∈ blocksOf m, blockType block ≠ some "tool_result"

variable {results : List ToolResult}

theorem filterMap_answerBlocks {α : Type}
    (each : results.length = (toolUses content).length) {f : Json → Option α}
    {g : ToolUse → Option α} (reads : ∀ use result, f (toolResultBlock use.id result) = g use) :
    (answerBlocks content results).filterMap f = (toolUses content).filterMap g := by
  rw [answerBlocks]
  generalize toolUses content = uses at each
  induction uses generalizing results with
  | nil => rfl
  | cons use uses ih =>
    cases results with
    | nil => cases each
    | cons result results =>
      rw [zipWith_cons_cons, filterMap_cons, filterMap_cons, reads,
        ih (Nat.succ.inj each)]

theorem blocksOf_text (plain : ∃ text, m.content = .string text) :
    blocksOf m = [] := by
  obtain ⟨text, held⟩ := plain
  rw [blocksOf, held]
  rfl

theorem talkUses_round (messages : List AnthropicMessage)
    (each : results.length = (toolUses content).length) :
    talkUses (messages ++ roundTurns content results) = talkUses messages ++ toolUses content := by
  have noUse : (answerBlocks content results).filterMap toolUse? = [] := by
    refine (filterMap_answerBlocks each fun use result => ?_).trans (filterMap_none _)
    cases result <;> rfl
  have user : blocksOf ⟨"user", .array (answerBlocks content results)⟩ =
      answerBlocks content results := rfl
  rw [talkUses, talkUses, roundTurns, flatMap_append, flatMap_cons, flatMap_cons, user, noUse,
    flatMap_nil, append_nil, append_nil]
  rfl

theorem results_round {α : Type} (messages : List AnthropicMessage)
    (each : results.length = (toolUses content).length) (f : Json → α) (g : ToolUse → α)
    (reads : ∀ use result, f (toolResultBlock use.id result) = g use) :
    List.flatMap (resultsOf f) (messages ++ roundTurns content results) =
      messages.flatMap (resultsOf f) ++ (resultsOf f ⟨"assistant", content⟩ ++
        (toolUses content).map g) := by
  have all : resultsOf f ⟨"user", .array (answerBlocks content results)⟩ =
      (toolUses content).map g := by
    show (answerBlocks content results).filterMap _ = _
    rw [← filterMap_eq_map]
    refine filterMap_answerBlocks each fun use result => ?_
    rw [Function.comp_apply, ← reads use result]
    cases result <;> rfl
  rw [roundTurns, flatMap_append, flatMap_cons, flatMap_cons, all, flatMap_nil, append_nil]

theorem resultsOf_eq_nil_iff {α : Type} {f : Json → α} :
    resultsOf f m = [] ↔ ∀ block ∈ blocksOf m, blockType block ≠ some "tool_result" := by
  rw [resultsOf, filterMap_eq_nil_iff]
  refine forall₂_congr fun block _ => ?_
  split
  · rename_i isResult
    exact iff_of_false (Option.some_ne_none _) (absurd isResult)
  · rename_i other
    exact iff_of_true rfl other

theorem resultsOf_text {α : Type} (f : Json → α) (plain : ∃ text, m.content = .string text) :
    resultsOf f m = [] := by
  rw [resultsOf, blocksOf_text plain, filterMap_nil]

theorem talkUses_text (messages : List AnthropicMessage)
    (plain : ∃ text, m.content = .string text) :
    talkUses (messages ++ [m]) = talkUses messages := by
  rw [talkUses, flatMap_append, flatMap_singleton, blocksOf_text plain, filterMap_nil, append_nil]
  rfl

theorem results_text {α : Type} (messages : List AnthropicMessage) (f : Json → α)
    (plain : ∃ text, m.content = .string text) :
    List.flatMap (resultsOf f) (messages ++ [m]) = messages.flatMap (resultsOf f) := by
  rw [flatMap_append, flatMap_singleton, resultsOf_text f plain, append_nil]

theorem answeredIds_round (messages : List AnthropicMessage)
    (each : results.length = (toolUses content).length) :
    answeredIds (messages ++ roundTurns content results) = answeredIds messages ++
      (resultsOf (Json.strAt "tool_use_id") ⟨"assistant", content⟩ ++
        (toolUses content).map fun use => some use.id) := by
  refine results_round messages each _ _ fun use result => ?_
  cases result <;> rfl

/-- **Results among the calls are one too many.** -/
theorem Talk.sided {messages : List AnthropicMessage} (talk : Talk messages) :
    (talkUses messages).length ≤ (answeredIds messages).length ∧
      ((answeredIds messages).length ≤ (talkUses messages).length → Sided messages) := by
  induction talk with
  | nil => exact ⟨le_rfl, fun _ => forall_mem_nil _⟩
  | @text messages m earlier plain ih =>
    rw [talkUses_text messages plain, answeredIds, results_text messages _ plain]
    refine ⟨ih.1, fun few => forall_mem_append.mpr ⟨ih.2 few, forall_mem_singleton.mpr ?_⟩⟩
    intro _ block mem
    rw [blocksOf_text plain] at mem
    exact absurd mem not_mem_nil
  | @round messages content results earlier each ih =>
    have counts : (answeredIds (messages ++ roundTurns content results)).length =
        (answeredIds messages).length +
          ((resultsOf (Json.strAt "tool_use_id") ⟨"assistant", content⟩).length +
            (toolUses content).length) := by
      rw [answeredIds_round messages each, length_append, length_append, length_map]
    rw [talkUses_round messages each, length_append, counts]
    refine ⟨by omega, fun few => forall_mem_append.mpr ⟨ih.2 (by omega), ?_⟩⟩
    have silent : resultsOf (Json.strAt "tool_use_id") ⟨"assistant", content⟩ = [] :=
      length_eq_zero_iff.mp (by omega)
    refine forall_mem_cons.mpr ⟨fun _ => resultsOf_eq_nil_iff.mp silent, ?_⟩
    refine forall_mem_singleton.mpr fun isAssistant => ?_
    have differs : "user" ≠ "assistant" := by decide
    exact absurd isAssistant differs

/-- **What a conversation's results say**: each answers the call at its place, and none has a
name. -/
theorem Talk.answered {messages : List AnthropicMessage} (talk : Talk messages)
    (sided : Sided messages) :
    answeredIds messages = (talkUses messages).map (fun use => some use.id) ∧
      messages.flatMap (resultsOf sentName) = (talkUses messages).map fun _ => "tool" := by
  induction talk with
  | nil => exact ⟨rfl, rfl⟩
  | @text messages m earlier plain ih =>
    obtain ⟨ids, names⟩ := ih (forall_mem_append.mp sided).1
    rw [talkUses_text messages plain, ← ids, ← names, answeredIds, results_text messages _ plain,
      results_text messages _ plain]
    exact ⟨rfl, rfl⟩
  | @round messages content results earlier each ih =>
    obtain ⟨before, last⟩ := forall_mem_append.mp sided
    have here := last _ mem_cons_self rfl
    obtain ⟨ids, names⟩ := ih before
    have named : ∀ use result, sentName (toolResultBlock use result) = "tool" := by
      intro use result
      cases result <;> rfl
    rw [talkUses_round messages each, map_append, map_append, ← ids, ← names,
      answeredIds_round messages each, resultsOf_eq_nil_iff.mpr here, nil_append,
      results_round messages each sentName (fun _ => "tool") fun use => named use.id,
      resultsOf_eq_nil_iff.mpr here, nil_append]
    exact ⟨rfl, rfl⟩

/-- **Gemini's pairing**: calls and results correspond, in order and by name, exactly when no answer
of the model holds a result and every tool is called `tool`. -/
theorem paired_iff (print : Json → String) (float : Number → F64) (handle : LoopHandle σ)
    (context : String) (initial : List Json) (systemPrompt : Option String) (world : σ)
    (starts : Starts initial) (call : Call)
    (mem : call ∈ (runTyped handle context initial systemPrompt world).2.calls)
    (req : AnthropicRequest) (built : buildAnthropicRequest call.request = .ok req)
    (body : Json) (translated : anthropicToGemini print float req = .ok body) :
    Paired req.messages body ↔
      Sided req.messages ∧ ∀ use ∈ talkUses req.messages, use.name = "tool" := by
  obtain ⟨start, first, talk⟩ := starts.read
  obtain ⟨turns, sent, messages, read, rounds⟩ :=
    runTyped_sends handle context systemPrompt world first mem
  have same : req.messages = messages := by
    rw [buildAnthropicRequest, sent] at built
    have decoded : anthropicMessages (.array turns) = some messages := read
    rw [decoded] at built
    rw [← Except.ok.inj built]
  have isTalk : Talk req.messages := same ▸ rounds.talk talk
  obtain ⟨calls, responses⟩ := names_of_anthropicToGemini translated
  constructor
  · intro paired
    have sided : Sided req.messages := isTalk.sided.2 (by rw [paired.answers, length_map])
    obtain ⟨-, names⟩ := isTalk.answered sided
    have equal := (names.symm.trans responses.symm).trans paired.responses
    exact ⟨sided, fun use mem => (map_inj_left.mp equal use mem).symm⟩
  · rintro ⟨sided, tool⟩
    obtain ⟨ids, names⟩ := isTalk.answered sided
    refine ⟨calls, ids, (responses.trans names).trans ?_⟩
    exact map_congr_left fun use mem => (tool use mem).symm

/-! ### A question and a tool -/

section Clock

variable (name : String)

def question : Json := .object [("role", .string "user"), ("content", .string "What time is it?")]

def clockAnswer (turns : ℕ) : LlmResponse where
  requestId := ""
  outcome := .ok
  providerResponse :=
    if turns = 1 then .object [("stop_reason", .string "tool_use"), ("content", .array [
      OpenAi.toolUseBlock "gemini_call_1" name (.object [])])]
    else .object [("stop_reason", .string "end_turn"), ("content", .array [])]

def clockHandle : LoopHandle Unit where
  exchange request _ :=
    (.response (clockAnswer name (request.messages.asArray.getD []).length), ())
  newRequestId _ := ("", ())
  executeFor _ _ _ _ := (.ok "noon", ())
  isEmptyFor _ := true
  schemasFor _ := .array []
  messagesMirror := none
  maxIterations := 4
  model := "gemini-pro"
  billingUserId := none

def secondCall : Call :=
  ⟨llmReq (clockHandle name) "" none "" [question,
    assistantTurn (.array [OpenAi.toolUseBlock "gemini_call_1" name (.object [])]),
    userTurn [toolResultBlock "gemini_call_1" (.ok "noon")]], .response (clockAnswer name 3)⟩

def clockRequest : AnthropicRequest where
  model := "gemini-pro"
  maxTokens := 1024
  messages := [⟨"user", .string "What time is it?"⟩,
    ⟨"assistant", .array [OpenAi.toolUseBlock "gemini_call_1" name (.object [])]⟩,
    ⟨"user", .array [toolResultBlock "gemini_call_1" (.ok "noon")]⟩]
  system := none
  temperature := none
  tools := none

def clockBody : Json :=
  ((anthropicToGemini (fun _ => "") (fun _ => ⟨0⟩) (clockRequest name)).toOption).getD .null

theorem secondCall_mem :
    secondCall name ∈ (runTyped (clockHandle name) "" [question] none ()).2.calls := by
  have two : (runTyped (clockHandle name) "" [question] none ()).2.calls =
      [⟨llmReq (clockHandle name) "" none "" [question], .response (clockAnswer name 1)⟩,
        secondCall name] := rfl
  rw [two]
  exact mem_cons_of_mem _ (mem_singleton_self _)

end Clock

theorem paired_of_tool : Paired (clockRequest "tool").messages (clockBody "tool") := by
  have starts : Starts [question] :=
    .texts (forall_mem_singleton.mpr ⟨"user", "What time is it?", rfl⟩)
  have sided : Sided (clockRequest "tool").messages := by
    refine forall_mem_cons.mpr ⟨nofun, forall_mem_cons.mpr ⟨fun _ => ?_,
      forall_mem_singleton.mpr nofun⟩⟩
    exact forall_mem_singleton.mpr (by decide)
  refine (paired_iff (fun _ => "") (fun _ => ⟨0⟩) (clockHandle "tool") "" [question] none () starts
    (secondCall "tool") (secondCall_mem "tool") (clockRequest "tool") rfl (clockBody "tool")
    rfl).mpr ⟨sided, ?_⟩
  exact forall_mem_singleton.mpr rfl

theorem clock_unpaired :
    secondCall "clock" ∈ (runTyped (clockHandle "clock") "" [question] none ()).2.calls ∧
      buildAnthropicRequest (secondCall "clock").request = .ok (clockRequest "clock") ∧
      anthropicToGemini (fun _ => "") (fun _ => ⟨0⟩) (clockRequest "clock") =
        .ok (clockBody "clock") ∧
      (bodyParts (clockBody "clock")).filterMap callName = ["clock"] ∧
      (bodyParts (clockBody "clock")).filterMap responseName = ["tool"] ∧
      ¬ Paired (clockRequest "clock").messages (clockBody "clock") := by
  refine ⟨secondCall_mem "clock", rfl, rfl, rfl, rfl, fun paired => ?_⟩
  have same : ["tool"] = ["clock"] := paired.responses
  exact absurd same (by decide)

end Havn.Gateway.GeminiTalk
