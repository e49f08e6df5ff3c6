import Havn.Gateway.OpenAi

/-!
# What survives the OpenAI translation

A response that is translated and sent back as an assistant turn is the message the provider sent.
And a canonical request keeps its turns: each turn's messages carry, in order, its text, its tool
calls and one reply for every tool result (`Renders`).
-/

namespace Havn.Gateway.OpenAi

open Lib LlmProxy List Function

variable {serde : Serde}

/-! ## Canonical turns -/

/-- A block of a canonical turn; a tool result holds texts. -/
inductive Block where
  | text (s : String)
  | toolUse (id name : String) (input : Json)
  | toolResult (id : String) (texts : List String)

namespace Block

def text? : Block → Option String
  | .text s => some s
  | _ => none

def toolUse? : Block → Option (String × String × Json)
  | .toolUse id name input => some (id, name, input)
  | _ => none

/-- A tool result with its texts on lines of their own. -/
def toolResult? : Block → Option (String × String)
  | .toolResult id texts => some (id, "\n".intercalate texts)
  | _ => none

def piece (print : Json → String) : Block → Piece
  | .text s => .text s
  | .toolUse id name input => .toolCall (toolCall id name (print input))
  | .toolResult id texts => .toolResult (toolMessage id ("\n".intercalate texts))

end Block

variable (print : Json → String)

/-- The texts that the content of a tool result holds: a string is one, of a list the parts that
have a text, and a value of another kind is shown as it prints. -/
def resultTexts : Option Json → List String
  | none => []
  | some (.string s) => [s]
  | some (.array parts) => parts.filterMap (Json.strAt "text")
  | some other => [print other]

theorem resultText_eq (content : Option Json) :
    resultText print content = "\n".intercalate (resultTexts print content) := by
  match content with
  | none | some (.array _) | some .null | some (.bool _) | some (.number _) | some (.string _)
  | some (.object _) => rfl

/-- What a content block says, read by the rules of the canonical format. -/
def readBlock (block : Json) : Option Block :=
  if block.strAt "type" = some "text" then (block.strAt "text").map .text
  else if block.strAt "type" = some "tool_use" then
    (block.strAt "id").bind fun id => (block.strAt "name").map fun name =>
      .toolUse id name ((block.get "input").getD (.object []))
  else if block.strAt "type" = some "tool_result" then
    (block.strAt "tool_use_id").map fun id =>
      .toolResult id (resultTexts print (block.get "content"))
  else none

def readTurn (m : AnthropicMessage) : Option (List Block) :=
  match m.content with
  | .string s => some [.text s]
  | .array blocks => blocks.mapM (readBlock print)
  | _ => none

theorem translateBlock_of_readBlock {json : Json} {block : Block}
    (read : readBlock serde.print json = some block) :
    translateBlock serde json = .ok (block.piece serde.print) := by
  rw [readBlock] at read
  split at read
  · rename_i kind
    obtain ⟨text, found, rfl⟩ := Option.map_eq_some_iff.mp read
    simp only [translateBlock, kind, found, if_true]
    rfl
  · split at read
    · rename_i kind
      obtain ⟨id, foundId, rest⟩ := Option.bind_eq_some_iff.mp read
      obtain ⟨name, foundName, rfl⟩ := Option.map_eq_some_iff.mp rest
      simp only [translateBlock, kind, foundId, foundName, if_true]
      rfl
    · split at read
      · rename_i kind
        obtain ⟨id, found, rfl⟩ := Option.map_eq_some_iff.mp read
        simp only [translateBlock, kind, found, if_true, resultText_eq]
        rfl
      · cases read

def messagesOf (role : String) (blocks : List Block) : List Json :=
  primary role (blocks.filterMap Block.text?)
      ((blocks.filterMap Block.toolUse?).map fun use => toolCall use.1 use.2.1 (print use.2.2)) ++
    (blocks.filterMap Block.toolResult?).map fun result => toolMessage result.1 result.2

theorem translateMessage_of_readTurn {m : AnthropicMessage} {blocks : List Block}
    (read : readTurn serde.print m = some blocks) :
    translateMessageToOpenai serde m = .ok (messagesOf serde.print m.role blocks) := by
  rw [readTurn] at read
  split at read
  · rename_i s content
    obtain rfl := Option.some.inj read
    simp [translateMessageToOpenai, content, messagesOf, primary, Block.text?, Block.toolUse?,
      Block.toolResult?]
  · rename_i items content
    have pieces : items.mapM (translateBlock serde) = .ok (blocks.map (Block.piece serde.print)) :=
      mapM_eq_ok_of_mapM_eq_some (fun _ _ => translateBlock_of_readBlock) read
    simp only [translateMessageToOpenai, content, pieces]
    refine congrArg Except.ok ?_
    -- each of the three lists holds what the blocks of its kind became
    have texts : (blocks.map (Block.piece serde.print)).filterMap Piece.text? =
        blocks.filterMap Block.text? := by
      rw [filterMap_map]
      exact filterMap_congr fun block _ => by cases block <;> rfl
    have calls : (blocks.map (Block.piece serde.print)).filterMap Piece.toolCall? =
        (blocks.filterMap Block.toolUse?).map
          fun use => toolCall use.1 use.2.1 (serde.print use.2.2) := by
      rw [filterMap_map, map_filterMap]
      exact filterMap_congr fun block _ => by cases block <;> rfl
    have results : (blocks.map (Block.piece serde.print)).filterMap Piece.toolResult? =
        (blocks.filterMap Block.toolResult?).map
          fun result => toolMessage result.1 result.2 := by
      rw [filterMap_map, map_filterMap]
      exact filterMap_congr fun block _ => by cases block <;> rfl
    rw [texts, calls, results]
    rfl
  · cases read

/-! ## Reading the wire format -/

structure ToolCall where
  id : String
  name : String
  arguments : Json

def ToolCall.wire (call : ToolCall) : Json :=
  toolCall call.id call.name (print call.arguments)

def argumentsText (call : Json) : Option String :=
  (call.get "function").bind (Json.strAt "arguments")

variable (parse : String → Option Json)

/-- What the provider sent as arguments: none at all stand for no arguments, a text for the value
it prints; arguments that are no text stand for nothing. -/
def argumentsOf (call : Json) : Option Json :=
  match (call.get "function").bind (Json.get "arguments") with
  | none => some (.object [])
  | some (.string text) => parse text
  | some _ => none

def readCall (call : Json) : Option ToolCall :=
  (call.strAt "id").bind fun id =>
    ((call.get "function").bind (Json.strAt "name")).bind fun name =>
      (argumentsOf parse call).map fun arguments => ⟨id, name, arguments⟩

def readCalls (message : Json) : Option (List ToolCall) :=
  (toolCalls message).mapM (readCall parse)

/-! ## From a response back to a message -/

variable {message : Json}

section RoundTrip

variable {call block : Json}

/-- The arguments are a value that survives printing, and what the translation takes them for. -/
theorem taken_of_argumentsOf {f value : Json} (function : call.get "function" = some f)
    (means : argumentsOf serde.parse call = some value) :
    (serde.parse ((f.strAt "arguments").getD "\x7b\x7d")).getD (.object []) = value ∧
      serde.parse (serde.print value) = some value := by
  rw [argumentsOf, function, Option.bind_some] at means
  rw [Json.strAt]
  split at means
  · rename_i missing
    obtain rfl := Option.some.inj means
    rw [missing, Option.bind_none, Option.getD_none, serde.parse_braces, Option.getD_some]
    exact ⟨rfl, serde.parse_print serde.parse_braces⟩
  · rename_i text given
    have asText : (some (Json.string text)).bind Json.asStr = some text := rfl
    rw [given, asText, Option.getD_some, means, Option.getD_some]
    exact ⟨rfl, serde.parse_print means⟩
  · cases means

/-- A translated call is a block that says what the call says, and so is the way back. -/
theorem readCall_of_translated (translated : translateToolCall serde.parse call = .ok block)
    (valid : argumentsOf serde.parse call ≠ none) :
    ∃ read, readCall serde.parse call = some read ∧
      block = toolUseBlock read.id read.name read.arguments ∧
      readCall serde.parse (read.wire serde.print) = some read := by
  obtain ⟨callId, f, callName, id, function, name, rfl⟩ := translateToolCall_eq_ok translated
  obtain ⟨value, means⟩ := Option.ne_none_iff_exists'.mp valid
  obtain ⟨taken, prints⟩ := taken_of_argumentsOf function means
  refine ⟨⟨callId, callName, value⟩, ?_, ?_, ?_⟩
  · simp only [readCall, id, function, name, Option.bind_some, means, Option.map_some]
  · rw [taken]
  · show (serde.parse (serde.print value)).map _ = _
    rw [prints]
    rfl

theorem translateToolCalls_eq_ok {calls blocks : List Json}
    (translated : calls.mapM (translateToolCall serde.parse) = .ok blocks)
    (valid : ∀ call ∈ calls, argumentsOf serde.parse call ≠ none) :
    ∃ reads, calls.mapM (readCall serde.parse) = some reads ∧
      blocks = reads.map (fun read => toolUseBlock read.id read.name read.arguments) ∧
      (reads.map (ToolCall.wire serde.print)).mapM (readCall serde.parse) = some reads := by
  have pairs := forall₂_of_mapM_eq_ok translated
  clear translated
  induction pairs with
  | nil => exact ⟨[], rfl, rfl, rfl⟩
  | cons first _ ih =>
    obtain ⟨here, later⟩ := forall_mem_cons.mp valid
    obtain ⟨read, reads, rfl, again⟩ := readCall_of_translated first here
    obtain ⟨rest, readsRest, rfl, againRest⟩ := ih later
    refine ⟨read :: rest, ?_, rfl, ?_⟩
    · rw [mapM_cons, reads, readsRest]
      rfl
    · rw [map_cons, mapM_cons, again, againRest]
      rfl

def chosenMessage (raw : Json) : Option Json := (choice? raw).bind (Json.get "message")

theorem openaiToAnthropic_eq_ok {parse : String → Option Json} {raw : Json}
    {resp : AnthropicResponse} (accepted : openaiToAnthropic parse raw = .ok resp) :
    ∃ choice message blocks, choice? raw = some choice ∧ choice.get "message" = some message ∧
      (toolCalls message).mapM (translateToolCall parse) = .ok blocks ∧
      resp.content = .array (((messageText message).map textBlock).toList ++ blocks) ∧
      resp.stopReason = stopReason (choice.strAt "finish_reason") ∧ resp.role = "assistant" := by
  unfold openaiToAnthropic at accepted
  cases first : choice? raw with
  | none => rw [first] at accepted; cases accepted
  | some choice =>
    cases held : choice.get "message" with
    | none => simp only [first, held] at accepted; cases accepted
    | some message =>
      simp only [first, held] at accepted
      obtain ⟨blocks, translated, rest⟩ := bind_eq_ok.mp accepted
      obtain rfl := Except.ok.inj rest
      exact ⟨choice, message, blocks, rfl, held, translated, rfl, rfl, rfl⟩

theorem readTurn_response {reads : List ToolCall} (print : Json → String) :
    readTurn print ⟨"assistant", .array (((messageText message).map textBlock).toList ++
        reads.map fun read => toolUseBlock read.id read.name read.arguments)⟩ =
      some ((messageText message).toList.map .text ++
        reads.map fun read => .toolUse read.id read.name read.arguments) := by
  have uses : ∀ reads : List ToolCall,
      (reads.map fun read => toolUseBlock read.id read.name read.arguments).mapM (readBlock print) =
        some (reads.map fun read => .toolUse read.id read.name read.arguments) := by
    intro reads
    induction reads with
    | nil => rfl
    | cons read reads ih =>
      rw [map_cons, mapM_cons, ih]
      rfl
  show List.mapM (readBlock print) _ = _
  cases messageText message with
  | none => exact uses reads
  | some =>
    rw [Option.map_some, Option.toList_some, singleton_append, mapM_cons, uses]
    rfl

theorem messagesOf_response (print : Json → String) (text : Option String)
    (reads : List ToolCall) (said : text ≠ none ∨ reads ≠ []) :
    ∃ msg, messagesOf print "assistant" (text.toList.map .text ++
        reads.map fun read => .toolUse read.id read.name read.arguments) = [msg] ∧
      msg.strAt "role" = some "assistant" ∧ msg.strAt "content" = text ∧
      toolCalls msg = reads.map (ToolCall.wire print) := by
  have texts : (text.toList.map Block.text ++ reads.map fun read =>
      Block.toolUse read.id read.name read.arguments).filterMap Block.text? = text.toList := by
    simp [filterMap_append, filterMap_map, comp_def, Block.text?]
  have uses : (text.toList.map Block.text ++ reads.map fun read =>
      Block.toolUse read.id read.name read.arguments).filterMap Block.toolUse? =
        reads.map fun read => (read.id, read.name, read.arguments) := by
    simp [filterMap_append, filterMap_map, comp_def, Block.toolUse?]
  have results : (text.toList.map Block.text ++ reads.map fun read =>
      Block.toolUse read.id read.name read.arguments).filterMap Block.toolResult? = [] := by
    simp [filterMap_append, filterMap_map, comp_def, Block.toolResult?]
  rw [messagesOf, texts, uses, results, map_map, map_nil, append_nil]
  cases reads with
  | nil =>
    cases text with
    | none => exact absurd said (by simp)
    | some text => exact ⟨plainMessage "assistant" text, rfl, rfl, rfl, rfl⟩
  | cons read reads =>
    refine ⟨_, rfl, rfl, ?_, rfl⟩
    cases text <;> rfl

/-- **A response survives the way back**: its turn is sent as one message with its text and tool
calls. -/
theorem resent_of_accepted {raw : Json} {resp : AnthropicResponse}
    (accepted : openaiToAnthropic serde.parse raw = .ok resp)
    (chosen : chosenMessage raw = some message)
    (said : messageText message ≠ none ∨ toolCalls message ≠ [])
    (valid : ∀ call ∈ toolCalls message, argumentsOf serde.parse call ≠ none) :
    ∃ msg calls, translateMessageToOpenai serde ⟨resp.role, resp.content⟩ = .ok [msg] ∧
      msg.strAt "role" = some "assistant" ∧ messageText msg = messageText message ∧
      readCalls serde.parse message = some calls ∧ readCalls serde.parse msg = some calls := by
  obtain ⟨choice, message', blocks, first, held, translated, content, -, role⟩ :=
    openaiToAnthropic_eq_ok accepted
  obtain rfl : message' = message := by
    rw [chosenMessage, first, Option.bind_some, held] at chosen
    exact Option.some.inj chosen
  obtain ⟨reads, readsMessage, rfl, again⟩ := translateToolCalls_eq_ok translated valid
  have saidAgain : messageText message' ≠ none ∨ reads ≠ [] := by
    refine said.imp_right fun calls noReads => calls ?_
    have same := (forall₂_of_mapM_eq_ok translated).length_eq
    rw [noReads] at same
    exact eq_nil_of_length_eq_zero same
  obtain ⟨msg, one, roleOf, text, calls⟩ :=
    messagesOf_response serde.print (messageText message') reads saidAgain
  refine ⟨msg, reads, ?_, roleOf, ?_, readsMessage, ?_⟩
  · rw [role, content, translateMessage_of_readTurn (readTurn_response serde.print), one]
  · -- a text that passed the test for emptiness passes it again
    rw [messageText, text, messageText, Option.filter_filter]
    simp
  · rw [readCalls, calls, again]

end RoundTrip

/-! ## From a request to the body -/

section Requests

def isReply (message : Json) : Bool := message.strAt "role" = some "tool"

def reply (message : Json) : Option String × Option String :=
  (message.strAt "tool_call_id", message.strAt "content")

def wireCall (call : Json) : Option String × Option String × Option String :=
  (call.strAt "id", (call.get "function").bind (Json.strAt "name"), argumentsText call)

/-- **The messages carry the turn**: one reply for each tool result, and at most one other message,
with the turn's role, texts and tool calls. -/
structure Renders (print : Json → String) (role : String) (blocks : List Block)
    (messages : List Json) : Prop where
  replies : (messages.filter isReply).map reply =
    (blocks.filterMap Block.toolResult?).map fun result => (some result.1, some result.2)
  single : (messages.filter (!isReply ·)).length ≤ 1
  roles : ∀ message ∈ messages.filter (!isReply ·), message.strAt "role" = some role
  texts : (messages.filter (!isReply ·)).filterMap (Json.strAt "content") =
    if blocks.filterMap Block.text? = [] then []
    else ["\n".intercalate (blocks.filterMap Block.text?)]
  calls : (messages.filter (!isReply ·)).flatMap (fun message => (toolCalls message).map wireCall) =
    (blocks.filterMap Block.toolUse?).map fun use =>
      (some use.1, some use.2.1, some (print use.2.2))

/-- Tool calls only on the assistant's side and tool results only on the user's. -/
structure CanonicalTurn (print : Json → String) (m : AnthropicMessage) (blocks : List Block) :
    Prop where
  read : readTurn print m = some blocks
  role : m.role ≠ "tool"
  calls : blocks.filterMap Block.toolUse? ≠ [] → m.role = "assistant"
  results : blocks.filterMap Block.toolResult? ≠ [] → m.role = "user"

theorem filter_reply_toolMessages (results : List (String × String)) :
    (results.map fun result => toolMessage result.1 result.2).filter isReply =
        results.map (fun result => toolMessage result.1 result.2) ∧
      (results.map fun result => toolMessage result.1 result.2).filter (!isReply ·) = [] := by
  have tool : ∀ result ∈ results, isReply (toolMessage result.1 result.2) = true :=
    fun _ _ => decide_eq_true rfl
  constructor
  · exact filter_eq_self.mpr (forall_mem_map.mpr tool)
  · refine filter_eq_nil_iff.mpr (forall_mem_map.mpr fun result mem => ?_)
    rw [tool result mem]
    exact Bool.false_ne_true

theorem isReply_of_role {role : String} (has : message.strAt "role" = some role)
    (other : role ≠ "tool") : isReply message = false := by
  rw [isReply, has]
  simpa using other

theorem filter_primary {role : String} (other : role ≠ "tool") (texts : List String)
    (calls : List Json) :
    (primary role texts calls).filter isReply = [] ∧
      (primary role texts calls).filter (!isReply ·) = primary role texts calls ∧
      ∀ message ∈ primary role texts calls, message.strAt "role" = some role := by
  have roles : ∀ message ∈ primary role texts calls, message.strAt "role" = some role := by
    intro message mem
    rw [primary] at mem
    split at mem
    · rename_i assistant
      rw [mem_singleton.mp mem, assistant.1]
      rfl
    · split at mem
      · rw [mem_singleton.mp mem]
        rfl
      · exact absurd mem not_mem_nil
  refine ⟨filter_eq_nil_iff.mpr fun message mem => ?_,
    filter_eq_self.mpr fun message mem => ?_, roles⟩
  · rw [isReply_of_role (roles message mem) other]
    exact Bool.false_ne_true
  · rw [isReply_of_role (roles message mem) other]
    rfl

section Primary

variable (print : Json → String) (role : String) (texts : List String)
  (uses : List (String × String × Json))

theorem primary_silent : primary role [] [] = [] := by
  rw [primary, if_neg (by simp), if_neg (by simp)]

theorem primary_said (said : texts ≠ []) :
    primary role texts [] = [plainMessage role ("\n".intercalate texts)] := by
  rw [primary, if_neg (by simp), if_pos said]

/-- The primary message holds the texts and the calls of its turn. -/
theorem primary_renders (side : uses ≠ [] → role = "assistant") :
    let main := primary role texts (uses.map fun use => toolCall use.1 use.2.1 (print use.2.2))
    main.length ≤ 1 ∧
      main.filterMap (Json.strAt "content") =
        (if texts = [] then [] else ["\n".intercalate texts]) ∧
      main.flatMap (fun message => (toolCalls message).map wireCall) =
        uses.map fun use => (some use.1, some use.2.1, some (print use.2.2)) := by
  intro main
  cases uses with
  | nil =>
    by_cases silent : texts = []
    · have empty : main = [] := by
        subst silent
        exact primary_silent role
      rw [empty, if_pos silent]
      exact ⟨Nat.zero_le 1, rfl, rfl⟩
    · have one : main = [plainMessage role ("\n".intercalate texts)] :=
        primary_said role texts silent
      rw [one, if_neg silent]
      exact ⟨Nat.le_refl 1, rfl, rfl⟩
  | cons use uses =>
    obtain rfl := side (cons_ne_nil _ _)
    have one : main = [.object [("role", .string "assistant"),
        ("content", if texts = [] then .null else .string ("\n".intercalate texts)),
        ("tool_calls", .array ((use :: uses).map fun use =>
          toolCall use.1 use.2.1 (print use.2.2)))]] :=
      if_pos ⟨rfl, cons_ne_nil _ _⟩
    rw [one, flatMap_singleton]
    refine ⟨Nat.le_refl 1, ?_, ?_⟩
    · split <;> rfl
    · show ((use :: uses).map fun use => toolCall use.1 use.2.1 (print use.2.2)).map wireCall = _
      rw [map_map]
      rfl

end Primary

theorem renders_messagesOf {print : Json → String} {m : AnthropicMessage} {blocks : List Block}
    (canonical : CanonicalTurn print m blocks) :
    Renders print m.role blocks (messagesOf print m.role blocks) := by
  obtain ⟨-, other, calls, -⟩ := canonical
  obtain ⟨noReply, own, roles⟩ := filter_primary other (blocks.filterMap Block.text?)
    ((blocks.filterMap Block.toolUse?).map fun use => toolCall use.1 use.2.1 (print use.2.2))
  obtain ⟨replies, noOwn⟩ := filter_reply_toolMessages (blocks.filterMap Block.toolResult?)
  obtain ⟨single, texts, wires⟩ := primary_renders print m.role (blocks.filterMap Block.text?)
    (blocks.filterMap Block.toolUse?) calls
  have main : (messagesOf print m.role blocks).filter (!isReply ·) =
      primary m.role (blocks.filterMap Block.text?)
        ((blocks.filterMap Block.toolUse?).map fun use =>
          toolCall use.1 use.2.1 (print use.2.2)) := by
    rw [messagesOf, filter_append, own, noOwn, append_nil]
  constructor
  · rw [messagesOf, filter_append, noReply, replies, nil_append, map_map]
    rfl
  · rw [main]
    exact single
  · rw [main]
    exact roles
  · rw [main]
    exact texts
  · rw [main]
    exact wires

def bodyMessages (body : Json) : Option (List Json) := (body.get "messages").bind Json.asArray

theorem translated_of_canonical {messages : List AnthropicMessage}
    (canonical : ∀ m ∈ messages, ∃ blocks, CanonicalTurn serde.print m blocks) :
    ∃ turns, messages.mapM (translateMessageToOpenai serde) = .ok turns ∧
      List.Forall₂ (fun m out => ∃ blocks, readTurn serde.print m = some blocks ∧
        Renders serde.print m.role blocks out) messages turns := by
  have each : ∀ m ∈ messages, ∃ out, translateMessageToOpenai serde m = .ok out ∧
      ∃ blocks, readTurn serde.print m = some blocks ∧ Renders serde.print m.role blocks out := by
    intro m mem
    obtain ⟨blocks, turn⟩ := canonical m mem
    exact ⟨_, translateMessage_of_readTurn turn.read, blocks, turn.read, renders_messagesOf turn⟩
  obtain ⟨turns, translated⟩ := exists_mapM_eq_ok fun m mem =>
    (each m mem).imp fun out held => held.1
  refine ⟨turns, translated, ?_⟩
  have pairs := forall₂_of_mapM_eq_ok translated
  refine ((forall₂_and_left _ _).mpr ⟨each, pairs⟩).imp ?_
  rintro m out ⟨⟨out', found, held⟩, found'⟩
  obtain rfl := Except.ok.inj (found.symm.trans found')
  exact held

theorem anthropicToOpenai_eq_ok {req : AnthropicRequest} {turns : List (List Json)}
    (translated : req.messages.mapM (translateMessageToOpenai serde) = .ok turns)
    (tools : ∀ tools, req.tools = some tools →
      ∃ out, translateToolsToOpenai serde tools = .ok out) :
    ∃ body, anthropicToOpenai serde req = .ok body ∧
      bodyMessages body = some (systemMessage req.system ++ turns.flatten) := by
  obtain ⟨field, sent⟩ : ∃ field, toolsField serde req.tools = .ok field := by
    cases given : req.tools with
    | none => exact ⟨[], rfl⟩
    | some value =>
      obtain ⟨out, sent⟩ := tools value given
      exact ⟨_, map_eq_ok.mpr ⟨out, sent, rfl⟩⟩
  exact ⟨_, bind_eq_ok.mpr ⟨turns, translated, bind_eq_ok.mpr ⟨field, sent, rfl⟩⟩, rfl⟩

/-- **The translation loses nothing**: an accepted response is sent again with the same text and
calls, if its arguments are JSON; a canonical request becomes the system prompt and then, in order,
what each turn became. -/
theorem translation_preserves (serde : Serde) :
    (∀ (raw message : Json) (resp : AnthropicResponse),
      openaiToAnthropic serde.parse raw = .ok resp → chosenMessage raw = some message →
      (messageText message ≠ none ∨ toolCalls message ≠ []) →
      (∀ call ∈ toolCalls message, argumentsOf serde.parse call ≠ none) →
      ∃ msg calls, translateMessageToOpenai serde ⟨resp.role, resp.content⟩ = .ok [msg] ∧
        msg.strAt "role" = some "assistant" ∧ messageText msg = messageText message ∧
        readCalls serde.parse message = some calls ∧ readCalls serde.parse msg = some calls) ∧
    ∀ req : AnthropicRequest,
      (∀ m ∈ req.messages, ∃ blocks, CanonicalTurn serde.print m blocks) →
      (∀ tools, req.tools = some tools → ∃ out, translateToolsToOpenai serde tools = .ok out) →
      ∃ body turns, anthropicToOpenai serde req = .ok body ∧
        bodyMessages body = some (systemMessage req.system ++ turns.flatten) ∧
        List.Forall₂ (fun m out => ∃ blocks, readTurn serde.print m = some blocks ∧
          Renders serde.print m.role blocks out) req.messages turns := by
  refine ⟨fun raw message resp => resent_of_accepted, fun req canonical tools => ?_⟩
  obtain ⟨turns, translated, renders⟩ := translated_of_canonical canonical
  obtain ⟨body, sent, messages⟩ := anthropicToOpenai_eq_ok translated tools
  exact ⟨body, turns, sent, messages, renders⟩

def smallSerde : Serde where
  print
    | .object [] => "\x7b\x7d"
    | .object _ => "\x7b\"q\":1\x7d"
    | _ => ""
  parse text :=
    if text = "\x7b\x7d" then some (.object [])
    else if text = "\x7b\"q\":1\x7d" then some (.object [("q", .number (.posInt 1))])
    else none
  float _ := ⟨0⟩
  parse_print := by
    intro text value parsed
    split at parsed
    · obtain rfl := Option.some.inj parsed
      rfl
    · split at parsed
      · obtain rfl := Option.some.inj parsed
        rfl
      · cases parsed
  parse_braces := rfl

def searchMessage : Json :=
  .object [("role", .string "assistant"), ("content", .string "Searching."),
    ("tool_calls", .array [toolCall "call_1" "search" "\x7b\"q\":1\x7d",
      toolCall "call_2" "clock" "\x7b\x7d"])]

def searchResponse : Json :=
  .object [("id", .string "r"), ("choices", .array [.object [("message", searchMessage),
    ("finish_reason", .string "tool_calls")]])]

def searchRequest : AnthropicRequest where
  model := "gpt-4o"
  maxTokens := 1024
  messages := [⟨"user", .string "Where?"⟩,
    ⟨"assistant", .array [textBlock "Searching.",
      toolUseBlock "call_1" "search" (.object [("q", .number (.posInt 1))])]⟩,
    ⟨"user", .array [.object [("type", .string "tool_result"), ("tool_use_id", .string "call_1"),
      ("content", .string "here")], textBlock "Well?"]⟩]
  system := some "Be brief."
  temperature := none
  tools := none

theorem search_preserved :
    (∃ msg calls, translateMessageToOpenai smallSerde ⟨"assistant", .array [textBlock "Searching.",
        toolUseBlock "call_1" "search" (.object [("q", .number (.posInt 1))]),
        toolUseBlock "call_2" "clock" (.object [])]⟩ = .ok [msg] ∧
      messageText msg = some "Searching." ∧ readCalls smallSerde.parse msg = some calls) ∧
    ∃ body, ∃ turns : List (List Json), anthropicToOpenai smallSerde searchRequest = .ok body ∧
      bodyMessages body = some (plainMessage "system" "Be brief." :: turns.flatten) := by
  constructor
  · have valid : ∀ call ∈ toolCalls searchMessage, argumentsOf smallSerde.parse call ≠ none := by
      intro call mem
      rcases mem_pair.mp mem with rfl | rfl
      · exact Option.some_ne_none _
      · exact Option.some_ne_none _
    obtain ⟨msg, calls, sent, -, text, -, again⟩ :=
      (translation_preserves smallSerde).1 searchResponse searchMessage
        { id := "r", model := "", role := "assistant", stopReason := some "tool_use"
          usage := ⟨0, 0⟩
          content := .array [textBlock "Searching.",
            toolUseBlock "call_1" "search" (.object [("q", .number (.posInt 1))]),
            toolUseBlock "call_2" "clock" (.object [])] }
        rfl rfl (.inr (cons_ne_nil _ _)) valid
    exact ⟨msg, calls, sent, text, again⟩
  · have canonical : ∀ m ∈ searchRequest.messages, ∃ blocks,
        CanonicalTurn smallSerde.print m blocks := by
      refine forall_mem_cons.mpr ⟨?_, forall_mem_cons.mpr ⟨?_,
        forall_mem_singleton.mpr ?_⟩⟩
      · exact ⟨[.text "Where?"], rfl, by decide, nofun, nofun⟩
      · exact ⟨[.text "Searching.",
          .toolUse "call_1" "search" (.object [("q", .number (.posInt 1))])],
          rfl, by decide, fun _ => rfl, nofun⟩
      · exact ⟨[.toolResult "call_1" ["here"], .text "Well?"], rfl, by decide, nofun, fun _ => rfl⟩
    obtain ⟨body, turns, sent, messages, -⟩ :=
      (translation_preserves smallSerde).2 searchRequest canonical nofun
    exact ⟨body, turns, sent, messages⟩

end Requests

end Havn.Gateway.OpenAi
