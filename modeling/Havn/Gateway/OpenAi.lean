import Havn.Gateway.LlmProxy

/-!
# The OpenAI translation

`havn-gateway/src/llm_proxy/openai.rs`: a canonical request becomes a body for the chat completions
endpoint, and its answer a canonical response.  A canonical turn is a list of blocks; here tool
calls hang on one message beside its text, and every tool result is a message of its own.
-/

namespace Havn.Gateway.OpenAi

open Lib LlmProxy

/-- Printing a value that was parsed gives a text that parses to it again. -/
structure Serde where
  print : Json → String
  parse : String → Option Json
  float : Number → F64
  parse_print : ∀ {text : String} {value : Json},
    parse text = some value → parse (print value) = some value
  parse_braces : parse "\x7b\x7d" = some (.object [])

variable (serde : Serde)

/-! ## Requests -/

def resultText (print : Json → String) : Option Json → String
  | some (.string s) => s
  | some (.array parts) => "\n".intercalate (parts.filterMap (Json.strAt "text"))
  | some other => print other
  | none => ""

def toolCall (id name arguments : String) : Json :=
  .object [("id", .string id), ("type", .string "function"),
    ("function", .object [("name", .string name), ("arguments", .string arguments)])]

def toolMessage (id content : String) : Json :=
  .object [("role", .string "tool"), ("tool_call_id", .string id), ("content", .string content)]

def plainMessage (role content : String) : Json :=
  .object [("role", .string role), ("content", .string content)]

inductive Piece where
  | text (s : String)
  | toolCall (call : Json)
  | toolResult (message : Json)
  | nothing

def Piece.text? : Piece → Option String
  | .text s => some s
  | _ => none

def Piece.toolCall? : Piece → Option Json
  | .toolCall call => some call
  | _ => none

def Piece.toolResult? : Piece → Option Json
  | .toolResult message => some message
  | _ => none

def translateBlock (block : Json) : Except String Piece :=
  match block.strAt "type" with
  | none => .error ("content block missing 'type': " ++ serde.print block)
  | some kind =>
    if kind = "text" then
      .ok (((block.strAt "text").map Piece.text).getD .nothing)
    else if kind = "tool_use" then
      match block.strAt "id" with
      | none => .error "tool_use block missing 'id'"
      | some id =>
        match block.strAt "name" with
        | none => .error "tool_use block missing 'name'"
        | some name => .ok (.toolCall (toolCall id name
            (serde.print ((block.get "input").getD (.object [])))))
    else if kind = "tool_result" then
      match block.strAt "tool_use_id" with
      | none => .error "tool_result block missing 'tool_use_id'"
      | some id => .ok (.toolResult (toolMessage id (resultText serde.print (block.get "content"))))
    else
      -- images, documents and the like: their text, or a marker
      .ok (.text ((block.strAt "text").getD ("(unsupported block: " ++ kind ++ ")")))

def primary (role : String) (texts : List String) (toolCalls : List Json) : List Json :=
  if role = "assistant" ∧ toolCalls ≠ [] then
    [.object [("role", .string "assistant"),
      ("content", if texts = [] then .null else .string ("\n".intercalate texts)),
      ("tool_calls", .array toolCalls)]]
  else if texts ≠ [] then [plainMessage role ("\n".intercalate texts)]
  else []

def translateMessageToOpenai (m : AnthropicMessage) : Except String (List Json) :=
  match m.content with
  | .string s => .ok [plainMessage m.role s]
  | .array blocks => do
      let pieces ← blocks.mapM (translateBlock serde)
      .ok (primary m.role (pieces.filterMap Piece.text?) (pieces.filterMap Piece.toolCall?) ++
        pieces.filterMap Piece.toolResult?)
  | other => .error ("message.content must be string or array, got " ++ serde.print other)

def translateTool (tool : Json) : Except String Json :=
  match tool.strAt "name" with
  | none => .error "tool entry missing 'name'"
  | some name => .ok (.object [("type", .string "function"), ("function", .object [
      ("name", .string name),
      ("description", .string ((tool.strAt "description").getD "")),
      ("parameters", (tool.get "input_schema").getD
        (.object [("type", .string "object"), ("properties", .object [])]))])])

def translateToolsToOpenai : Json → Except String Json
  | .array tools => (tools.mapM translateTool).map .array
  | tools => .error ("tools must be an array, got " ++ serde.print tools)

def systemMessage (system : Option String) : List Json :=
  ((system.filter (· ≠ "")).map (plainMessage "system")).toList

def toolsField : Option Json → Except String (List (String × Json))
  | none => .ok []
  | some tools => (translateToolsToOpenai serde tools).map fun tools => [("tools", tools)]

def anthropicToOpenai (req : AnthropicRequest) : Except String Json := do
  let turns ← req.messages.mapM (translateMessageToOpenai serde)
  let tools ← toolsField serde req.tools
  .ok (.object ([("model", .string req.model),
      ("messages", .array (systemMessage req.system ++ turns.flatten)),
      ("max_tokens", .number (.posInt req.maxTokens))] ++
    (req.temperature.map fun t => ("temperature", Json.number (.float (serde.float t)))).toList ++
    tools))

/-! ## Responses -/

def choice? (raw : Json) : Option Json :=
  ((raw.get "choices").bind Json.asArray).bind List.head?

def toolCalls (message : Json) : List Json :=
  ((message.get "tool_calls").bind Json.asArray).getD []

def messageText (message : Json) : Option String :=
  (message.strAt "content").filter (· ≠ "")

def textBlock (text : String) : Json :=
  .object [("type", .string "text"), ("text", .string text)]

def toolUseBlock (id name : String) (input : Json) : Json :=
  .object [("type", .string "tool_use"), ("id", .string id), ("name", .string name),
    ("input", input)]

def translateToolCall (parse : String → Option Json) (call : Json) : Except String Json :=
  match call.strAt "id" with
  | none => .error "tool_call missing 'id'"
  | some id =>
    match call.get "function" with
    | none => .error "tool_call missing 'function'"
    | some f =>
      match f.strAt "name" with
      | none => .error "tool_call.function missing 'name'"
      | some name => .ok (toolUseBlock id name
          ((parse ((f.strAt "arguments").getD "\x7b\x7d")).getD (.object [])))

theorem translateToolCall_eq_ok {parse : String → Option Json} {call block : Json}
    (translated : translateToolCall parse call = .ok block) :
    ∃ id f name, call.strAt "id" = some id ∧ call.get "function" = some f ∧
      f.strAt "name" = some name ∧ block = toolUseBlock id name
        ((parse ((f.strAt "arguments").getD "\x7b\x7d")).getD (.object [])) := by
  unfold translateToolCall at translated
  cases id : call.strAt "id" with
  | none => rw [id] at translated; cases translated
  | some callId =>
    cases function : call.get "function" with
    | none => rw [id, function] at translated; cases translated
    | some f =>
      cases name : f.strAt "name" with
      | none => simp only [id, function, name] at translated; cases translated
      | some callName =>
        simp only [id, function, name] at translated
        obtain rfl := Except.ok.inj translated
        exact ⟨callId, f, callName, rfl, rfl, name, rfl⟩

def stopReason (finishReason : Option String) : Option String :=
  finishReason.map fun reason =>
    if reason = "stop" then "end_turn"
    else if reason = "length" then "max_tokens"
    else if reason = "tool_calls" then "tool_use"
    else if reason = "content_filter" then "stop_sequence"
    else reason

def counter (usage : Option Json) (key : String) : ℕ :=
  ((usage.bind (Json.get key)).bind Json.asU64).getD 0

def openaiToAnthropic (parse : String → Option Json) (raw : Json) :
    Except String AnthropicResponse :=
  match choice? raw with
  | none => .error "response.choices[0] missing"
  | some choice =>
    match choice.get "message" with
    | none => .error "response.choices[0].message missing"
    | some message => do
        let toolUses ← (toolCalls message).mapM (translateToolCall parse)
        .ok
          { id := (raw.strAt "id").getD "openai-no-id"
            model := (raw.strAt "model").getD ""
            role := "assistant"
            content := .array (((messageText message).map textBlock).toList ++ toolUses)
            stopReason := stopReason (choice.strAt "finish_reason")
            usage :=
              { inputTokens := counter (raw.get "usage") "prompt_tokens"
                outputTokens := counter (raw.get "usage") "completion_tokens" } }

end Havn.Gateway.OpenAi
