import Havn.Gateway.OpenAi

/-!
# The Gemini translation

`havn-gateway/src/llm_proxy/gemini.rs`: a canonical request becomes a body for `generateContent`,
and its answer a canonical response.  Every block is a part of its message; Gemini pairs a
`functionResponse` with its `functionCall` by name and order, the canonical format by id.
-/

namespace Havn.Gateway.Gemini

open Lib LlmProxy
open OpenAi (resultText textBlock toolUseBlock counter)

/-! ## Requests -/

section Requests

variable (print : Json → String)

def functionResponse (name result : String) : Json :=
  .object [("functionResponse", .object [("name", .string name),
    ("response", .object [("result", .string result)])])]

def functionCall (name : String) (args : Json) : Json :=
  .object [("functionCall", .object [("name", .string name), ("args", args)])]

def textPart (text : String) : Json := .object [("text", .string text)]

def translateBlock (block : Json) : Except String (List Json) :=
  match block.strAt "type" with
  | none => .error ("content block missing 'type': " ++ print block)
  | some kind =>
    if kind = "text" then .ok ((block.strAt "text").map textPart).toList
    else if kind = "tool_use" then
      match block.strAt "name" with
      | none => .error "tool_use block missing 'name'"
      | some name => .ok [functionCall name ((block.get "input").getD (.object []))]
    else if kind = "tool_result" then
      -- the block holds the id of the call, not its name
      .ok [functionResponse ((block.strAt "name").getD "tool")
        (resultText print (block.get "content"))]
    else .ok [textPart ((block.strAt "text").getD ("(unsupported block: " ++ kind ++ ")"))]

def geminiRole (role : String) : String := if role = "assistant" then "model" else role

def content (role : String) (parts : List Json) : Json :=
  .object [("role", .string role), ("parts", .array parts)]

def translateMessageToGemini (m : AnthropicMessage) : Except String Json :=
  match m.content with
  | .string s => .ok (content (geminiRole m.role) [textPart s])
  | .array blocks => do
      let parts ← blocks.mapM (translateBlock print)
      .ok (content (geminiRole m.role) parts.flatten)
  | other => .error ("message.content must be string or array, got " ++ print other)

end Requests

/-! ## Tool schemas -/

def strip : List String :=
  ["additionalProperties", "$schema", "$ref", "definitions", "$defs", "allOf", "anyOf", "oneOf",
    "not", "examples", "title"]

mutual

def sanitizeSchemaForGemini : Json → Json
  | .object fields => .object (sanitizeFields fields)
  | .array items => .array (sanitizeItems items)
  | value => value

def sanitizeItems : List Json → List Json
  | [] => []
  | item :: items => sanitizeSchemaForGemini item :: sanitizeItems items

def sanitizeFields : List (String × Json) → List (String × Json)
  | [] => []
  | (key, child) :: fields =>
    if key ∈ strip then sanitizeFields fields
    else (key, sanitizeSchemaForGemini child) :: sanitizeFields fields

end

def inputSchema (tool : Json) : Json :=
  (tool.get "input_schema").getD
    (.object [("type", .string "object"), ("properties", .object [])])

def translateTool (tool : Json) : Except String Json :=
  match tool.strAt "name" with
  | none => .error "tool entry missing 'name'"
  | some name => .ok (.object [("name", .string name),
      ("description", .string ((tool.strAt "description").getD "")),
      ("parameters", sanitizeSchemaForGemini (inputSchema tool))])

variable (print : Json → String)

def translateToolsToGemini : Json → Except String Json
  | .array tools => (tools.mapM translateTool).map fun declarations =>
    .array [.object [("functionDeclarations", .array declarations)]]
  | tools => .error ("tools must be an array, got " ++ print tools)

def toolsField : Option Json → Except String (List (String × Json))
  | none => .ok []
  | some tools => (translateToolsToGemini print tools).map fun tools => [("tools", tools)]

def anthropicToGemini (float : Number → F64) (req : AnthropicRequest) : Except String Json := do
  let contents ← req.messages.mapM (translateMessageToGemini print)
  let tools ← toolsField print req.tools
  .ok (.object ([("contents", .array contents),
      ("generationConfig", .object ([("maxOutputTokens", .number (.posInt req.maxTokens))] ++
        (req.temperature.map fun t => ("temperature", Json.number (.float (float t)))).toList))] ++
    ((req.system.filter (· ≠ "")).map fun system =>
      ("systemInstruction", Json.object [("parts", .array [textPart system])])).toList ++
    tools))

/-! ## Responses -/

def candidate? (raw : Json) : Option Json :=
  ((raw.get "candidates").bind Json.asArray).bind List.head?

def partsOf (candidate : Json) : List Json :=
  (((candidate.get "content").bind (Json.get "parts")).bind Json.asArray).getD []

def translateParts : ℕ → List Json → Except String (List Json)
  | _, [] => .ok []
  | made, part :: parts =>
    match part.strAt "text" with
    | some text =>
      (translateParts made parts).map ((if text = "" then [] else [textBlock text]) ++ ·)
    | none =>
      match part.get "functionCall" with
      | none => translateParts made parts
      | some call =>
        match call.strAt "name" with
        | none => .error "functionCall missing 'name'"
        | some name => (translateParts (made + 1) parts).map
            (toolUseBlock ("gemini_call_" ++ toString (made + 1)) name
              ((call.get "args").getD (.object [])) :: ·)

def finishStop (lowercase : String → String) (finishReason : Option String) : Option String :=
  finishReason.bind fun reason =>
    if reason = "STOP" then some "end_turn"
    else if reason = "MAX_TOKENS" then some "max_tokens"
    else if reason ∈ ["SAFETY", "RECITATION", "BLOCKLIST", "PROHIBITED_CONTENT"] then
      some "stop_sequence"
    else if reason ≠ "" then some (lowercase reason)
    else none

def hasToolUse (blocks : List Json) : Bool :=
  blocks.any fun block => block.strAt "type" = some "tool_use"

def geminiToAnthropic (lowercase : String → String) (raw : Json) (model : String) :
    Except String AnthropicResponse :=
  match candidate? raw with
  | none => .error "response.candidates[0] missing"
  | some candidate => do
      let blocks ← translateParts 0 (partsOf candidate)
      .ok
        { id := (raw.strAt "responseId").getD "gemini-no-id"
          model := model
          role := "assistant"
          content := .array blocks
          stopReason :=
            if hasToolUse blocks then some "tool_use"
            else finishStop lowercase (candidate.strAt "finishReason")
          usage :=
            { inputTokens := counter (raw.get "usageMetadata") "promptTokenCount"
              outputTokens := counter (raw.get "usageMetadata") "candidatesTokenCount" } }

end Havn.Gateway.Gemini
