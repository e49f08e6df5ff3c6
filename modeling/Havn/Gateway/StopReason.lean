import Havn.Gateway.Gemini
import Havn.Gateway.LlmRequest
import Havn.Gateway.OpenAiTurns
import Havn.Runtime.ToolLoop

/-!
# Stop reasons and tool calls

The runtime's loop runs the tools of a response when its stop reason is `tool_use` and ends
otherwise: a call under another stop reason is left in the history without an answer.
-/

namespace Havn.Gateway.StopReason

open Lib LlmProxy LlmRequests List
open Runtime.ToolLoop

/-! ## What the loop does with a response -/

structure ToolUse where
  id : String
  name : String
  input : Json

def toolUse? (block : Json) : Option ToolUse :=
  if blockType block = some "tool_use" then
    some ⟨toolUseId block, ((block.get "name").bind Json.asStr).getD "",
      (block.get "input").getD .null⟩
  else none

def toolUses (content : Json) : List ToolUse := (content.asArray.getD []).filterMap toolUse?

def HasToolUse (content : Json) : Prop :=
  ∃ block ∈ content.asArray.getD [], blockType block = some "tool_use"

variable {σ : Type} (handle : LoopHandle σ) (context : String) {resp : AnthropicResponse}

def runTools (handle : LoopHandle σ) (context : String) : List ToolUse → σ → List Json × σ
  | [], world => ([], world)
  | use :: uses, world =>
    let ran := handle.executeFor context use.name use.input world
    let rest := runTools handle context uses ran.2
    (toolResultBlock use.id ran.1 :: rest.1, rest.2)

/-- End if there is nothing to run, else run exactly the content's tools and answer them. -/
def respond (content : Json) (s : LoopState σ) : Iteration σ :=
  let text := (extractText content).getD ""
  if toolUses content = [] then
    .done (.ok text) { s with messages := s.messages ++ [assistantTurn content] }
  else
    let ran := runTools handle context (toolUses content) s.world
    .again text
      { s with messages := s.messages ++ [assistantTurn content, userTurn ran.1], world := ran.2 }

instance (uses : List ToolUse) : Decidable (uses = []) := decidable_of_iff _ List.isEmpty_iff

/-- **The response says what it asks for.**  `Means` relates a `tool_use` block to one of the calls
`made`. -/
structure Faithful (Means : Json → ToolUse → Prop) (made : List Json) (resp : AnthropicResponse) :
    Prop where
  stop : resp.stopReason = some "tool_use" ↔ HasToolUse resp.content
  calls : List.Forall₂ Means made (toolUses resp.content)
  runs : ∀ (σ : Type) (handle : LoopHandle σ) (context : String) (s : LoopState σ),
    handleContent handle context (responseValue resp) s = respond handle context resp.content s

theorem hasToolUse_iff {content : Json} : HasToolUse content ↔ toolUses content ≠ [] := by
  rw [HasToolUse, toolUses, Ne, filterMap_eq_nil_iff]
  push Not
  refine exists_congr fun block => and_congr_right fun _ => ?_
  rw [toolUse?]
  split <;> simp_all

theorem executeBlocks_eq (blocks : List Json)
    (world : σ) : executeBlocks handle context blocks world =
      runTools handle context (blocks.filterMap toolUse?) world := by
  induction blocks generalizing world with
  | nil => rfl
  | cons block blocks ih =>
    by_cases call : blockType block = some "tool_use"
    · have read : toolUse? block = some ⟨toolUseId block,
          ((block.get "name").bind Json.asStr).getD "", (block.get "input").getD .null⟩ :=
        if_pos call
      simp only [filterMap_cons_some read, runTools, executeBlocks, if_pos call, ih]
    · have read : toolUse? block = none := if_neg call
      rw [filterMap_cons_none read, executeBlocks, if_neg call, ih]

theorem executeToolUses_eq (content : Json) (world : σ) :
    executeToolUses handle context content world =
      runTools handle context (toolUses content) world := by
  rw [executeToolUses, toolUses]
  cases content.asArray with
  | none => rfl
  | some blocks => exact executeBlocks_eq handle context blocks world

theorem runTools_fst_eq_nil_iff {handle : LoopHandle σ} {context : String} {uses : List ToolUse}
    {world : σ} : (runTools handle context uses world).1 = [] ↔ uses = [] := by
  cases uses with
  | nil => exact ⟨fun _ => rfl, fun _ => rfl⟩
  | cons use uses => exact ⟨nofun, nofun⟩

theorem stopReason_responseValue (resp : AnthropicResponse) :
    Runtime.ToolLoop.stopReason (responseValue resp) = resp.stopReason.getD "end_turn" := by
  cases stopped : resp.stopReason with
  | none | some =>
    simp only [Runtime.ToolLoop.stopReason, responseValue, stopped]
    rfl

theorem handleContent_of_stop (stop : resp.stopReason = some "tool_use" ↔ HasToolUse resp.content)
    (handle : LoopHandle σ) (context : String) (s : LoopState σ) :
    handleContent handle context (responseValue resp) s =
      respond handle context resp.content s := by
  have content : contentOf (responseValue resp) = resp.content := rfl
  rw [hasToolUse_iff] at stop
  simp only [handleContent, content, stopReason_responseValue, respond, executeToolUses_eq]
  by_cases silent : toolUses resp.content = []
  · have other : resp.stopReason.getD "end_turn" ≠ "tool_use" := by
      intro same
      refine stop.mp ?_ silent
      cases stopped : resp.stopReason with
      | none =>
        rw [stopped] at same
        exact absurd same (by decide)
      | some =>
        rw [stopped] at same
        exact congrArg some same
    rw [if_pos other, if_pos silent]
  · have same : resp.stopReason.getD "end_turn" = "tool_use" := by
      rw [stop.mpr silent, Option.getD_some]
    have ran : (runTools handle context (toolUses resp.content) s.world).1.isEmpty ≠ true := by
      rw [Ne, List.isEmpty_iff, runTools_fst_eq_nil_iff]
      exact silent
    rw [if_neg (not_not.mpr same), if_neg silent, if_neg ran, append_assoc, singleton_append]

/-! ## OpenAI -/

section OpenAi

open OpenAi

def madeCalls (raw : Json) : List Json := ((chosenMessage raw).map toolCalls).getD []

def finishReason (raw : Json) : Option String := (choice? raw).bind (Json.strAt "finish_reason")

def Consistent (raw : Json) : Prop :=
  (finishReason raw = some "tool_calls" ∨ finishReason raw = some "tool_use") ↔ madeCalls raw ≠ []

/-- The block is the call: its id, its name, and its arguments if they are JSON. -/
def OpenAiMeans (parse : String → Option Json) (call : Json) (use : ToolUse) : Prop :=
  call.strAt "id" = some use.id ∧ (call.get "function").bind (Json.strAt "name") = some use.name ∧
    ∀ value, argumentsOf parse call = some value → use.input = value

theorem stopReason_eq_toolUse_iff {reason : Option String} :
    OpenAi.stopReason reason = some "tool_use" ↔
      reason = some "tool_calls" ∨ reason = some "tool_use" := by
  cases reason with
  | none => simp [OpenAi.stopReason]
  | some =>
    simp only [OpenAi.stopReason, Option.map_some, Option.some.injEq]
    split
    · rename_i same
      subst same
      decide
    · split
      · rename_i same
        subst same
        decide
      · split
        · rename_i same
          exact ⟨fun _ => .inl same, fun _ => rfl⟩
        · split
          · rename_i same
            subst same
            decide
          · rename_i other _
            exact ⟨.inr, fun either => either.resolve_left other⟩

variable {serde : Serde}

theorem means_of_translateToolCall {call block : Json}
    (translated : translateToolCall serde.parse call = .ok block) :
    ∃ use, toolUse? block = some use ∧ OpenAiMeans serde.parse call use := by
  obtain ⟨callId, f, callName, id, function, name, rfl⟩ := translateToolCall_eq_ok translated
  refine ⟨⟨callId, callName, _⟩, rfl, id, ?_, fun value means => ?_⟩
  · rw [function, Option.bind_some, name]
  · exact (taken_of_argumentsOf function means).1

theorem forall₂_filterMap {R : Json → Json → Prop} {S : Json → ToolUse → Prop}
    {xs ys : List Json} (each : ∀ x y, R x y → ∃ use, toolUse? y = some use ∧ S x use)
    (pairs : List.Forall₂ R xs ys) : List.Forall₂ S xs (ys.filterMap toolUse?) := by
  induction pairs with
  | nil => exact .nil
  | cons first _ ih =>
    obtain ⟨use, read, holds⟩ := each _ _ first
    rw [filterMap_cons_some read]
    exact .cons holds ih

theorem openai_calls {raw : Json}
    (accepted : openaiToAnthropic serde.parse raw = .ok resp) :
    List.Forall₂ (OpenAiMeans serde.parse) (madeCalls raw) (toolUses resp.content) := by
  obtain ⟨choice, message, blocks, first, held, translated, content, -⟩ :=
    openaiToAnthropic_eq_ok accepted
  have made : madeCalls raw = toolCalls message := by
    rw [madeCalls, chosenMessage, first, Option.bind_some, held, Option.map_some, Option.getD_some]
  -- the text block in front is no call
  have uses : toolUses resp.content = blocks.filterMap toolUse? := by
    rw [content]
    show List.filterMap toolUse? (((messageText message).map textBlock).toList ++ blocks) = _
    rw [filterMap_append]
    cases messageText message <;> rfl
  rw [made, uses]
  exact forall₂_filterMap (fun _ _ => means_of_translateToolCall) (forall₂_of_mapM_eq_ok translated)

theorem openai_faithful_iff {raw : Json}
    (accepted : openaiToAnthropic serde.parse raw = .ok resp) :
    Faithful (OpenAiMeans serde.parse) (madeCalls raw) resp ↔ Consistent raw := by
  have calls := openai_calls accepted
  obtain ⟨choice, message, blocks, first, -, -, -, stopped, -⟩ := openaiToAnthropic_eq_ok accepted
  have finish : finishReason raw = choice.strAt "finish_reason" := by
    rw [finishReason, first, Option.bind_some]
  have made : HasToolUse resp.content ↔ madeCalls raw ≠ [] := by
    rw [hasToolUse_iff, Ne, Ne, ← length_eq_zero_iff, ← length_eq_zero_iff, calls.length_eq]
  have stop : (resp.stopReason = some "tool_use" ↔ HasToolUse resp.content) ↔ Consistent raw := by
    rw [stopped, ← finish, stopReason_eq_toolUse_iff, made]
    rfl
  rw [← stop]
  exact ⟨Faithful.stop, fun held => ⟨held, calls, fun _ => handleContent_of_stop held⟩⟩

end OpenAi

/-! ## Gemini -/

section Gemini

open Gemini

def candidateParts (raw : Json) : List Json := ((candidate? raw).map partsOf).getD []

/-- The call that a part makes: it has the name of a function. -/
def calledIn (part : Json) : Option Json :=
  (part.get "functionCall").filter fun call => (call.strAt "name").isSome

/-- The calls of the candidate. -/
def functionCalls (raw : Json) : List Json := (candidateParts raw).filterMap calledIn

/-- Without calls no finish reason reads `tool_use`, and no part is a text and a call at once. -/
def GeminiConsistent (lowercase : String → String) (raw : Json) : Prop :=
  (functionCalls raw = [] →
    finishStop lowercase ((candidate? raw).bind (Json.strAt "finishReason")) ≠ some "tool_use") ∧
  ∀ part ∈ candidateParts raw, part.strAt "text" = none ∨ calledIn part = none

/-- The block is the call: its name and its arguments.  Its id is made up. -/
def GeminiMeans (call : Json) (use : ToolUse) : Prop :=
  call.strAt "name" = some use.name ∧ (call.get "args").getD (.object []) = use.input

/-- Of a part with a text only the text is kept. -/
theorem means_of_translateParts {parts : List Json} :
    ∀ {made : ℕ} {blocks : List Json}, translateParts made parts = .ok blocks →
      List.Forall₂ GeminiMeans
        ((parts.filter fun part => (part.strAt "text").isNone).filterMap calledIn)
        (blocks.filterMap toolUse?) := by
  induction parts with
  | nil =>
    intro made blocks translated
    obtain rfl := Except.ok.inj translated
    exact .nil
  | cons part parts ih =>
    intro made blocks translated
    unfold translateParts at translated
    cases text : part.strAt "text" with
    | some text' =>
      simp only [text] at translated
      obtain ⟨rest, translatedRest, rfl⟩ := map_eq_ok.mp translated
      have silent :
          (if text' = "" then [] else [OpenAi.textBlock text']).filterMap toolUse? = [] := by
        split <;> rfl
      rw [filter_cons_of_neg (by simp [text]), filterMap_append, silent]
      exact ih translatedRest
    | none =>
      rw [filter_cons_of_pos (by simp [text])]
      cases call : part.get "functionCall" with
      | none =>
        have uncalled : calledIn part = none := by rw [calledIn, call, Option.filter_none]
        simp only [text, call] at translated
        rw [filterMap_cons_none uncalled]
        exact ih translated
      | some fc =>
        cases name : fc.strAt "name" with
        | none => simp only [text, call, name] at translated; cases translated
        | some =>
          have called : calledIn part = some fc := by
            rw [calledIn, call, Option.filter_some, name, Option.isSome_some, if_pos rfl]
          simp only [text, call, name] at translated
          obtain ⟨rest, translatedRest, rfl⟩ := map_eq_ok.mp translated
          rw [filterMap_cons_some called]
          exact .cons ⟨name, rfl⟩ (ih translatedRest)

/-- What the filter keeps is all that the map finds, exactly if it drops nothing that is found. -/
theorem length_filterMap_filter_eq_iff {f : Json → Option Json} {p : Json → Bool}
    (parts : List Json) :
    ((parts.filter p).filterMap f).length = (parts.filterMap f).length ↔
      ∀ part ∈ parts, p part = true ∨ f part = none := by
  induction parts with
  | nil => simp
  | cons part parts ih =>
    have shorter : ((parts.filter p).filterMap f).length ≤ (parts.filterMap f).length :=
      (filter_sublist.filterMap f).length_le
    rw [forall_mem_cons, ← ih]
    cases kept : p part <;> cases found : f part
    · simp [kept, found]
    · simp [kept, found]
      omega
    · simp [kept, found]
    · simp [kept, found]

theorem stop_iff {blocks : List Json} {reason : Option String} :
    ((if hasToolUse blocks then some "tool_use" else reason) = some "tool_use" ↔
        HasToolUse (.array blocks)) ↔
      (toolUses (.array blocks) = [] → reason ≠ some "tool_use") := by
  have has : hasToolUse blocks = true ↔ HasToolUse (.array blocks) := by
    rw [hasToolUse, any_eq_true]
    simp only [decide_eq_true_eq]
    rfl
  by_cases called : hasToolUse blocks = true
  · have uses := hasToolUse_iff.mp (has.mp called)
    simp [called, has.mp called, uses]
  · have silent : toolUses (.array blocks) = [] := by
      rwa [has, hasToolUse_iff, not_not] at called
    simp [called, mt has.mpr called, silent]

theorem gemini_faithful_iff {lowercase : String → String} {raw : Json} {model : String}
    (accepted : geminiToAnthropic lowercase raw model = .ok resp) :
    Faithful GeminiMeans (functionCalls raw) resp ↔ GeminiConsistent lowercase raw := by
  unfold geminiToAnthropic at accepted
  cases first : candidate? raw with
  | none => rw [first] at accepted; cases accepted
  | some candidate =>
    simp only [first] at accepted
    obtain ⟨blocks, translated, rest⟩ := bind_eq_ok.mp accepted
    obtain rfl := Except.ok.inj rest
    have parts : candidateParts raw = partsOf candidate := by
      rw [candidateParts, first, Option.map_some, Option.getD_some]
    have calls := means_of_translateParts translated
    have exclusive := length_filterMap_filter_eq_iff (f := calledIn)
      (p := fun part => (part.strAt "text").isNone) (partsOf candidate)
    simp only [Option.isNone_iff_eq_none] at exclusive
    rw [GeminiConsistent, functionCalls, parts, first, Option.bind_some]
    constructor
    · intro faithful
      have all : ((partsOf candidate).filterMap calledIn).length =
          (toolUses (.array blocks)).length := faithful.calls.length_eq
      refine ⟨fun uncalled => stop_iff.mp faithful.stop ?_,
        exclusive.mp (calls.length_eq.trans all.symm)⟩
      rw [← length_eq_zero_iff, ← all, uncalled, length_nil]
    · rintro ⟨silent, apart⟩
      have all : ((partsOf candidate).filter fun part => (part.strAt "text").isNone).filterMap
          calledIn = (partsOf candidate).filterMap calledIn :=
        (filter_sublist.filterMap calledIn).eq_of_length (exclusive.mpr apart)
      rw [all] at calls
      have stop := stop_iff.mpr fun unused => silent <| by
        rw [← length_eq_zero_iff, calls.length_eq]
        exact length_eq_zero_iff.mpr unused
      exact ⟨stop, calls, fun _ => handleContent_of_stop stop⟩

end Gemini

/-- **Accepted responses ask for what the provider asked for**, and the loop runs and answers
exactly that, if and only if its finish reason fits its calls and no part of it is a text and a
call. -/
theorem translators_faithful_iff (serde : OpenAi.Serde) (lowercase : String → String) :
    (∀ (raw : Json) (resp : AnthropicResponse),
      OpenAi.openaiToAnthropic serde.parse raw = .ok resp →
      (Faithful (OpenAiMeans serde.parse) (madeCalls raw) resp ↔ Consistent raw)) ∧
    ∀ (raw : Json) (model : String) (resp : AnthropicResponse),
      Gemini.geminiToAnthropic lowercase raw model = .ok resp →
      (Faithful GeminiMeans (functionCalls raw) resp ↔ GeminiConsistent lowercase raw) :=
  ⟨fun _ _ => openai_faithful_iff, fun _ _ _ => gemini_faithful_iff⟩

/-- Finished with `tool_calls` for one call of a clock, and with `STOP` for the same call. -/
def clockResponse : Json :=
  .object [("choices", .array [.object [
    ("message", .object [("content", .null), ("tool_calls", .array [
      OpenAi.toolCall "call_1" "clock" "\x7b\x7d"])]),
    ("finish_reason", .string "tool_calls")]])]

def geminiClockResponse : Json :=
  .object [("candidates", .array [.object [
    ("content", .object [("parts", .array [.object [("functionCall",
      .object [("name", .string "clock"), ("args", .object [])])]])]),
    ("finishReason", .string "STOP")]])]

theorem clock_faithful :
    Faithful (OpenAiMeans OpenAi.smallSerde.parse) (madeCalls clockResponse)
      { id := "openai-no-id", model := "", role := "assistant", usage := ⟨0, 0⟩
        content := .array [OpenAi.toolUseBlock "call_1" "clock" (.object [])]
        stopReason := some "tool_use" } ∧
    Faithful GeminiMeans (functionCalls geminiClockResponse)
      { id := "gemini-no-id", model := "gemini-pro", role := "assistant", usage := ⟨0, 0⟩
        content := .array [OpenAi.toolUseBlock "gemini_call_1" "clock" (.object [])]
        stopReason := some "tool_use" } := by
  constructor
  · have consistent : Consistent clockResponse :=
      ⟨fun _ => cons_ne_nil _ _, fun _ => .inl rfl⟩
    exact ((translators_faithful_iff OpenAi.smallSerde id).1 clockResponse _ rfl).mpr consistent
  · have consistent : GeminiConsistent id geminiClockResponse :=
      ⟨nofun, forall_mem_singleton.mpr (.inl rfl)⟩
    exact ((translators_faithful_iff OpenAi.smallSerde id).2 geminiClockResponse "gemini-pro" _
      rfl).mpr consistent

def forcedResponse : Json :=
  .object [("choices", .array [.object [
    ("message", .object [("content", .null), ("tool_calls", .array [
      OpenAi.toolCall "call_1" "clock" "\x7b\x7d"])]),
    ("finish_reason", .string "stop")]])]

theorem forced_call_unanswered :
    ∃ resp, OpenAi.openaiToAnthropic OpenAi.smallSerde.parse forcedResponse = .ok resp ∧
      HasToolUse resp.content ∧ resp.stopReason ≠ some "tool_use" ∧
      ∀ (handle : LoopHandle Unit) (context : String),
        handleContent handle context (responseValue resp) ⟨[], [], ()⟩ =
          .done (.ok "") ⟨[assistantTurn resp.content], [], ()⟩ := by
  refine ⟨{ id := "openai-no-id", model := "", role := "assistant", usage := ⟨0, 0⟩
            content := .array [OpenAi.toolUseBlock "call_1" "clock" (.object [])]
            stopReason := some "end_turn" }, rfl, ?_, by decide, fun _ _ => rfl⟩
  exact ⟨_, mem_singleton_self _, rfl⟩

end Havn.Gateway.StopReason
