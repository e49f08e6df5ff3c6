import Havn.Gateway.StopReason

/-!
# Tool calls and their results through the OpenAI translation

On the way out a turn's text is put before its tool results, and the endpoint wants each result
right behind the message that called the tool.  On the way back the arguments of a call are a text;
where it is no JSON, the runtime is handed an empty object.
-/

namespace Havn.Gateway.OpenAi

open Lib LlmProxy LlmRequests StopReason List
open Runtime.ToolLoop

/-! ## The order of the messages -/

def callIds (message : Json) : List String := (toolCalls message).filterMap (Json.strAt "id")

/-- Each reply stands, with only replies between, behind the message that made its call, one of
`made`. -/
def Adjoined (made : List String) : List Json → Prop
  | [] => True
  | message :: rest =>
    if isReply message then
      (∃ id ∈ made, message.strAt "tool_call_id" = some id) ∧ Adjoined made rest
    else Adjoined (callIds message) rest

variable (blocks : List Block) {print : Json → String} {serde : Serde}

def useIds : List String := (blocks.filterMap Block.toolUse?).map Prod.fst

def resultIds : List String :=
  (blocks.filterMap Block.toolResult?).map Prod.fst

def Matched (made : List String) : List (List Block) → Prop
  | [] => True
  | blocks :: rest => resultIds blocks ⊆ made ∧ Matched (useIds blocks) rest

def Unmixed : Prop :=
  resultIds blocks ≠ [] → blocks.filterMap Block.text? = []

theorem adjoined_toolMessages (made : List String) (results : List (String × String))
    (rest : List Json) :
    Adjoined made (results.map (fun result => toolMessage result.1 result.2) ++ rest) ↔
      results.map Prod.fst ⊆ made ∧ Adjoined made rest := by
  induction results with
  | nil => simp
  | cons result results ih =>
    have first : Adjoined made (toolMessage result.1 result.2 ::
        (results.map (fun result => toolMessage result.1 result.2) ++ rest)) ↔
        (∃ id ∈ made, some result.1 = some id) ∧ Adjoined made
          (results.map (fun result => toolMessage result.1 result.2) ++ rest) := Iff.rfl
    rw [map_cons, cons_append, first, ih, map_cons, cons_subset, and_assoc]
    simp

theorem adjoined_cons {made : List String} {message : Json} {role : String} {rest : List Json}
    (has : message.strAt "role" = some role) (other : role ≠ "tool") :
    Adjoined made (message :: rest) ↔ Adjoined (callIds message) rest := by
  rw [Adjoined, isReply_of_role has other]
  rfl

theorem callIds_wires (print : Json → String) (uses : List (String × String × Json)) (text : Json) :
    callIds (.object [("role", .string "assistant"), ("content", text), ("tool_calls", .array
      (uses.map fun use => toolCall use.1 use.2.1 (print use.2.2)))]) = uses.map Prod.fst := by
  show (uses.map fun use => toolCall use.1 use.2.1 (print use.2.2)).filterMap (Json.strAt "id") = _
  rw [filterMap_map, ← filterMap_eq_map]
  rfl

/-- **One turn.**  What it leaves open is at least its own calls. -/
theorem adjoined_messagesOf {m : AnthropicMessage} {blocks : List Block}
    (canonical : CanonicalTurn print m blocks) {made : List String}
    (answers : resultIds blocks ⊆ made) (rest : List Json) :
    ∃ left, useIds blocks ⊆ left ∧
      (Adjoined made (messagesOf print m.role blocks ++ rest) ↔
        Unmixed blocks ∧ Adjoined left rest) := by
  obtain ⟨-, other, calls, results⟩ := canonical
  unfold messagesOf Unmixed useIds resultIds at *
  generalize blocks.filterMap Block.text? = texts
  generalize blocks.filterMap Block.toolUse? = uses at *
  generalize blocks.filterMap Block.toolResult? = replies at *
  rw [append_assoc]
  cases uses with
  | cons use uses =>
    -- a turn with calls is the assistant's and has no results
    have assistant := calls (cons_ne_nil _ _)
    have noReplies : replies = [] := by
      by_contra answered
      exact absurd ((results answered).symm.trans assistant) (by decide)
    subst noReplies
    refine ⟨_, List.Subset.refl _, ?_⟩
    rw [primary, if_pos ⟨assistant, cons_ne_nil _ _⟩, singleton_append,
      adjoined_cons rfl (by decide), callIds_wires]
    simp
  | nil =>
    by_cases silent : texts = []
    · refine ⟨made, nil_subset _, ?_⟩
      rw [silent, map_nil, primary_silent, nil_append, adjoined_toolMessages]
      simp [answers]
    · refine ⟨[], nil_subset _, ?_⟩
      rw [map_nil, primary_said _ _ silent, singleton_append, adjoined_cons rfl other]
      show Adjoined [] _ ↔ _
      rw [adjoined_toolMessages, subset_nil]
      simp [silent]

theorem adjoined_flatten {messages : List AnthropicMessage} {turns : List (List Block)}
    {out : List (List Json)} (canonical : List.Forall₂ (CanonicalTurn serde.print) messages turns)
    (translated :
      List.Forall₂ (fun m out => translateMessageToOpenai serde m = .ok out) messages out)
    {made left : List String} (matched : Matched made turns) (covers : made ⊆ left) :
    Adjoined left out.flatten ↔ ∀ blocks ∈ turns, Unmixed blocks := by
  induction canonical generalizing out made left with
  | nil =>
    cases translated
    simp [Adjoined]
  | cons first _ ih =>
    obtain _ | ⟨here, others⟩ := translated
    cases here.symm.trans (translateMessage_of_readTurn first.read)
    obtain ⟨answers, rest⟩ := matched
    obtain ⟨left', covers', turn⟩ :=
      adjoined_messagesOf first (List.Subset.trans answers covers) (List.flatten _)
    rw [flatten_cons, turn, ih others rest covers', forall_mem_cons]

/-- **Results stand behind their calls exactly when no turn mixes them with text**, in a canonical
request. -/
theorem adjoined_iff {req : AnthropicRequest} {turns : List (List Block)}
    (canonical : List.Forall₂ (CanonicalTurn serde.print) req.messages turns)
    (matched : Matched [] turns)
    (tools : ∀ tools, req.tools = some tools →
      ∃ out, translateToolsToOpenai serde tools = .ok out) :
    ∃ body messages, anthropicToOpenai serde req = .ok body ∧ bodyMessages body = some messages ∧
      (Adjoined [] messages ↔ ∀ blocks ∈ turns, Unmixed blocks) := by
  have each : ∀ m ∈ req.messages, ∃ out, translateMessageToOpenai serde m = .ok out := by
    intro m mem
    obtain ⟨blocks, -, turn⟩ := exists_of_mem_forall₂ canonical.flip mem
    exact ⟨_, translateMessage_of_readTurn turn.read⟩
  obtain ⟨out, translated⟩ := exists_mapM_eq_ok each
  obtain ⟨body, sent, messages⟩ := anthropicToOpenai_eq_ok translated tools
  refine ⟨body, _, sent, messages, ?_⟩
  have system : Adjoined [] (systemMessage req.system ++ out.flatten) ↔
      Adjoined [] out.flatten := by
    rw [systemMessage]
    cases req.system.filter (· ≠ "") with
    | none => rfl
    | some => exact adjoined_cons rfl (by decide)
  rw [system]
  exact adjoined_flatten canonical (forall₂_of_mapM_eq_ok translated) matched (List.Subset.refl _)

def searchTurns (answer : List Block) : List (List Block) :=
  [[.text "Where?"], [.toolUse "call_1" "search" (.object [])],
    .toolResult "call_1" ["here"] :: answer]

def searchWith (texts : List Json) : AnthropicRequest where
  model := "gpt-4o"
  maxTokens := 1024
  messages := [⟨"user", .string "Where?"⟩,
    ⟨"assistant", .array [toolUseBlock "call_1" "search" (.object [])]⟩,
    ⟨"user", .array (.object [("type", .string "tool_result"), ("tool_use_id", .string "call_1"),
      ("content", .string "here")] :: texts)⟩]
  system := none
  temperature := none
  tools := none

theorem search_adjoined : ∃ body messages, anthropicToOpenai smallSerde (searchWith []) = .ok body ∧
    bodyMessages body = some messages ∧ Adjoined [] messages := by
  have canonical : List.Forall₂ (CanonicalTurn smallSerde.print) (searchWith []).messages
      (searchTurns []) :=
    .cons ⟨rfl, by decide, nofun, nofun⟩ (.cons ⟨rfl, by decide, fun _ => rfl, nofun⟩
      (.cons ⟨rfl, by decide, nofun, fun _ => rfl⟩ .nil))
  obtain ⟨body, messages, sent, found, iff⟩ := adjoined_iff canonical
    ⟨nil_subset _, nil_subset _, List.Subset.refl _, trivial⟩ nofun
  refine ⟨body, messages, sent, found, iff.mpr ?_⟩
  simp [searchTurns, Unmixed, resultIds, Block.toolResult?, Block.text?]

/-- **A text comes between** the result of the tool and its call. -/
theorem search_torn : ∃ body messages,
    anthropicToOpenai smallSerde (searchWith [textBlock "Well?"]) = .ok body ∧
    bodyMessages body = some messages ∧ ¬ Adjoined [] messages ∧
    messages.map (Json.strAt "role") =
      [some "user", some "assistant", some "user", some "tool"] := by
  refine ⟨_, _, rfl, rfl, ?_, rfl⟩
  rintro ⟨⟨id, mem, -⟩, -⟩
  exact absurd mem not_mem_nil

/-! ## The inputs of the tools -/

def Verbatim (parse : String → Option Json) (call : Json) (use : ToolUse) : Prop :=
  call.strAt "id" = some use.id ∧ (call.get "function").bind (Json.strAt "name") = some use.name ∧
    argumentsOf parse call = some use.input

def executed (resp : AnthropicResponse) : List ToolUse :=
  if resp.stopReason = some "tool_use" then toolUses resp.content else []

def world {σ : Type} : Iteration σ → σ
  | .done _ s | .again _ s => s.world

theorem world_handleContent {σ : Type} (handle : LoopHandle σ) (context : String)
    (resp : AnthropicResponse) (s : LoopState σ) :
    world (handleContent handle context (responseValue resp) s) =
      (runTools handle context (executed resp) s.world).2 := by
  have content : contentOf (responseValue resp) = resp.content := rfl
  have same : resp.stopReason.getD "end_turn" = "tool_use" ↔ resp.stopReason = some "tool_use" := by
    cases resp.stopReason <;> simp
  simp only [handleContent, content, stopReason_responseValue, executeToolUses_eq, executed]
  by_cases asked : resp.stopReason = some "tool_use"
  · rw [if_neg (not_not.mpr (same.mpr asked)), if_pos asked]
    split <;> rfl
  · rw [if_pos (mt same.mp asked), if_neg asked]
    rfl

/-- **Tools are run on what the model sent exactly when it sent JSON**: if and only if the arguments
of every call are missing or a text that parses. -/
theorem inputs_sent_iff {raw : Json} {resp : AnthropicResponse}
    (accepted : openaiToAnthropic serde.parse raw = .ok resp) :
    (∀ (σ : Type) (handle : LoopHandle σ) (context : String) (s : LoopState σ),
      world (handleContent handle context (responseValue resp) s) =
        (runTools handle context (executed resp) s.world).2) ∧
    (executed resp ≠ [] →
      (List.Forall₂ (Verbatim serde.parse) (madeCalls raw) (executed resp) ↔
        ∀ call ∈ madeCalls raw, argumentsOf serde.parse call ≠ none)) := by
  refine ⟨fun _ handle context => world_handleContent handle context resp, fun calls => ?_⟩
  have asked : executed resp = toolUses resp.content :=
    if_pos (by_contra fun other => calls (if_neg other))
  rw [asked]
  constructor
  · intro verbatim call mem
    obtain ⟨use, -, -, -, sent⟩ := exists_of_mem_forall₂ verbatim.flip mem
    rw [sent]
    exact Option.some_ne_none _
  · intro valid
    refine ((forall₂_and_left _ _).mpr ⟨valid, openai_calls accepted⟩).imp ?_
    rintro call use ⟨valid, id, name, means⟩
    obtain ⟨value, found⟩ := Option.ne_none_iff_exists'.mp valid
    exact ⟨id, name, by rw [means value found, found]⟩

def calling (name arguments : String) : Json :=
  .object [("id", .string "r"), ("choices", .array [.object [("message",
    .object [("role", .string "assistant"),
      ("tool_calls", .array [toolCall "call_1" name arguments])]),
    ("finish_reason", .string "tool_calls")]])]

theorem search_sent : ∃ resp, openaiToAnthropic smallSerde.parse
      (calling "search" "\x7b\"q\":1\x7d") = .ok resp ∧
    List.Forall₂ (Verbatim smallSerde.parse)
      (madeCalls (calling "search" "\x7b\"q\":1\x7d")) (executed resp) := by
  refine ⟨_, rfl, ((inputs_sent_iff ?_).2 ?_).mpr ?_⟩
  · rfl
  · exact cons_ne_nil _ _
  · exact forall_mem_singleton.mpr nofun

/-- **An input that nobody sent**: the arguments are cut off, and the tool is run on the empty
object. -/
theorem cutOff_executed : ∃ resp, openaiToAnthropic smallSerde.parse
      (calling "delete" "\x7b\"keep\":[1,") = .ok resp ∧
    smallSerde.parse "\x7b\"keep\":[1," = none ∧
    executed resp = [⟨"call_1", "delete", .object []⟩] :=
  ⟨_, rfl, rfl, rfl⟩

end Havn.Gateway.OpenAi
