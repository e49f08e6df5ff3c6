import Mathlib.Data.List.Chain
import Havn.Runtime.Inbound

/-!
# The history of a forked subagent

A subagent in fork mode starts with the last ten messages of its parent and its task
(`initialMessages`).  Where the cut falls depends on how many rounds of tools the parent has made.
-/

namespace Havn.Runtime.ForkHistory

open Lib Proto Session Inbound ToolLoop List
open Dispatch (World)

universe u

/-! ## Well-formed requests -/

def role (message : Json) : Option String := message.strAt "role"

variable (message : Json)

def blocks : List Json := ((message.get "content").bind Json.asArray).getD []

def NoResults : Prop :=
  ∀ block ∈ blocks message, blockType block ≠ some "tool_result"

def AnsweredBy (before message : Json) : Prop :=
  ∀ block ∈ blocks message, blockType block = some "tool_result" →
    role before = some "assistant" ∧
      ∃ use ∈ blocks before, blockType use = some "tool_use" ∧
        block.strAt "tool_use_id" = some (toolUseId use)

/-- It opens with the user, and every result follows the call it answers. -/
structure WellFormedRequest (messages : List Json) : Prop where
  opens : ∀ first ∈ messages.head?, role first = some "user" ∧ NoResults first
  paired : messages.IsChain AnsweredBy

/-! ## The conversation of a parent -/

inductive Begun {σ : Type u} (handle : LoopHandle σ) (context : String)
    (systemPrompt : Option String) (initial : List Json) (world : σ) : LoopState σ → Prop
  | start : Begun handle context systemPrompt initial world ⟨initial, [], world⟩
  | again {s s' : LoopState σ} {text : String}
      (earlier : Begun handle context systemPrompt initial world s)
      (next : iteration handle context systemPrompt s = .again text s') :
      Begun handle context systemPrompt initial world s'

theorem Begun.conversation {σ : Type u} {handle : LoopHandle σ} {context : String}
    {systemPrompt : Option String} {initial : List Json} {world : σ} {s : LoopState σ}
    (begun : Begun handle context systemPrompt initial world s) :
    Conversation initial s.calls s.messages := by
  induction begun with
  | start => exact .start
  | @again s s' text _ next ih =>
    have pass := iteration_pass handle context systemPrompt s
    rw [next] at pass
    cases pass with
    | tools sent verdict answers => exact .round ih sent verdict answers

/-- The stored turns of a channel, or the one prompt of a heartbeat or a cron job. -/
inductive Opening : List Json → Prop
  | turns (history : List Db.Conversations.Turn) : Opening (history.filterMap turnMessage)
  | prompt (text : String) : Opening [userMessage text]

def Spoken : Prop :=
  ∃ text, message = userMessage text ∨ message = assistantMessage text

theorem spoken_task (task : String) : Spoken (userMessage task) := ⟨task, .inl rfl⟩

variable {message : Json}

theorem spoken_of_turnMessage {turn : Db.Conversations.Turn}
    (shown : turnMessage turn = some message) : Spoken message := by
  rw [turnMessage] at shown
  split at shown
  · exact ⟨turn.content, .inl (Option.some.inj shown).symm⟩
  · exact ⟨turn.content, .inr (Option.some.inj shown).symm⟩
  · exact absurd shown (Option.some_ne_none message).symm
  · exact absurd shown (Option.some_ne_none message).symm

theorem Opening.spoken {initial : List Json} (opening : Opening initial) :
    ∀ message ∈ initial, Spoken message := by
  cases opening with
  | turns =>
    intro message mem
    obtain ⟨turn, -, shown⟩ := mem_filterMap.mp mem
    exact spoken_of_turnMessage shown
  | prompt text => exact forall_mem_singleton.mpr (spoken_task text)

def Strays (call : Call) : Prop :=
  ∃ content, call.verdict = some (.tools content) ∧ ¬ NoResults (assistantTurn content)

section Conversations

variable {initial messages : List Json} {calls : List Call}

theorem Spoken.blocks_eq (spoken : Spoken message) : blocks message = [] := by
  obtain ⟨text, rfl | rfl⟩ := spoken <;> rfl

theorem Spoken.noResults (spoken : Spoken message) : NoResults message := by
  rw [NoResults, spoken.blocks_eq]
  exact forall_mem_nil _

theorem NoResults.answeredBy (free : NoResults message) (before : Json) :
    AnsweredBy before message :=
  fun block mem isResult => absurd isResult (free block mem)

def Settled (message : Json) : Prop := role message = some "user" ∨ blocks message = []

theorem Spoken.settled (spoken : Spoken message) : Settled message :=
  .inr spoken.blocks_eq

theorem Settled.answeredBy_iff {before : Json} (settled : Settled before) :
    AnsweredBy before message ↔ NoResults message := by
  refine ⟨fun answered block mem isResult => ?_, fun without => without.answeredBy before⟩
  obtain ⟨isAssistant, use, useMem, -⟩ := answered block mem isResult
  rcases settled with isUser | empty
  · rw [isUser] at isAssistant
    exact absurd isAssistant (by decide)
  · rw [empty] at useMem
    exact absurd useMem not_mem_nil

theorem answeredBy_userTurn {content : Json} {results : List Json}
    (answers : Answers content results) :
    AnsweredBy (assistantTurn content) (userTurn results) := by
  intro block mem _
  refine ⟨rfl, ?_⟩
  have answered : answeredId block ∈ results.map answeredId := mem_map_of_mem mem
  rw [answers] at answered
  obtain ⟨id, idMem, isAnswer⟩ := mem_map.mp answered
  obtain ⟨use, useMem, rfl⟩ := mem_map.mp idMem
  obtain ⟨inContent, isUse⟩ := mem_filter.mp useMem
  exact ⟨use, inContent, of_decide_eq_true isUse, (congrArg Prod.snd isAnswer).symm⟩

theorem settled_getLast (spoken : ∀ message ∈ initial, Spoken message)
    (talk : Conversation initial calls messages) :
    ∀ message ∈ messages.getLast?, Settled message := by
  induction talk with
  | start => exact fun message mem => (spoken message (mem_of_mem_getLast? mem)).settled
  | @round _ messages _ content results _ _ _ _ _ =>
    intro message mem
    have last : (messages ++ [assistantTurn content, userTurn results]).getLast? =
        some (userTurn results) := by simp
    rw [last] at mem
    cases mem
    exact .inl rfl

/-- **What is left of a conversation without some of its first messages is paired**, unless a
response strays. -/
theorem paired_drop_iff (spoken : ∀ message ∈ initial, Spoken message)
    (talk : Conversation initial calls messages) {n : ℕ} (inside : n < initial.length) :
    (messages.drop n).IsChain AnsweredBy ↔ ∀ call ∈ calls, ¬ Strays call := by
  induction talk with
  | start =>
    refine iff_of_true ?_ (forall_mem_nil _)
    refine (pairwise_of_forall_mem_list ?_).isChain
    intro before _ message mem
    exact (spoken message (mem_of_mem_drop mem)).noResults.answeredBy before
  | @round calls messages call content results earlier sent verdict answers ih =>
    have long : n < messages.length := by
      rw [earlier.length_eq]
      omega
    -- something is left, and its last message is the conversation's
    have left : (messages.drop n).getLast? = messages.getLast? := by
      rw [getLast?_drop, if_neg (Nat.not_le.mpr long)]
    obtain ⟨last, isLast⟩ : ∃ last, messages.getLast? = some last :=
      ⟨_, getLast?_eq_some_getLast (ne_nil_of_length_pos (Nat.zero_lt_of_lt long))⟩
    have settled := settled_getLast spoken earlier last isLast
    have strays : Strays call ↔ ¬ NoResults (assistantTurn content) := by
      constructor
      · rintro ⟨other, isOther, stray⟩
        rw [verdict] at isOther
        cases isOther
        exact stray
      · exact fun stray => ⟨content, verdict, stray⟩
    rw [drop_append_of_le_length long.le, isChain_append, ih, isChain_pair,
      forall_mem_append, forall_mem_singleton, left, isLast, strays, not_not,
      ← settled.answeredBy_iff]
    refine and_congr_right fun _ => ⟨fun joined => joined.2 last rfl _ rfl, fun joined => ?_⟩
    refine ⟨answeredBy_userTurn answers, ?_⟩
    rintro _ ⟨⟩ _ ⟨⟩
    exact joined

/-! ## The cut -/

/-- Beyond the opening the cut falls on an assistant turn: a round is two messages and the depth is
even. -/
theorem assistant_at_cut (talk : Conversation initial calls messages)
    (rounds : forkHistoryDepth ≤ 2 * calls.length) :
    ∃ content, messages[messages.length - forkHistoryDepth]? = some (assistantTurn content) := by
  have ten : forkHistoryDepth = 10 := rfl
  have length := talk.length_eq
  have bound : calls.length - 5 < calls.length := by omega
  obtain ⟨content, results, -, -, -, grown⟩ :=
    talk.round_at [] (getElem?_eq_getElem bound)
  rw [append_nil] at grown
  have cut : messages.length - forkHistoryDepth = initial.length + 2 * (calls.length - 5) := by
    omega
  refine ⟨content, ?_⟩
  have found := congrArg (fun front => front[initial.length + 2 * (calls.length - 5)]?) grown
  rw [cut]
  simpa [getElem?_take, length_take, length] using found

theorem paired_task_iff (history : List Json) (task : String) :
    (history ++ [userMessage task]).IsChain AnsweredBy ↔ history.IsChain AnsweredBy := by
  rw [isChain_append]
  refine ⟨And.left, fun paired => ⟨paired, isChain_singleton _, ?_⟩⟩
  rintro before - _ ⟨⟩
  exact (spoken_task task).noResults.answeredBy before

/-- **When the first request of a fork is well formed.** -/
theorem wellFormed_fork_iff (spoken : ∀ message ∈ initial, Spoken message)
    (opened : initial ≠ []) (talk : Conversation initial calls messages) (task : String) :
    WellFormedRequest (initialMessages messages ⟨task, .fork⟩) ↔
      2 * calls.length < forkHistoryDepth ∧
      (∀ message ∈ initial[messages.length - forkHistoryDepth]?, role message = some "user") ∧
      ∀ call ∈ calls, ¬ Strays call := by
  have shape : initialMessages messages ⟨task, .fork⟩ =
      messages.drop (messages.length - forkHistoryDepth) ++ [userMessage task] := rfl
  have ten : forkHistoryDepth = 10 := rfl
  have length := talk.length_eq
  have nonempty := length_pos_of_ne_nil opened
  rw [shape]
  rcases Nat.lt_or_ge (2 * calls.length) forkHistoryDepth with few | many
  · have inside : messages.length - forkHistoryDepth < initial.length := by omega
    obtain ⟨later, rfl⟩ := talk.initial_kept
    -- the cut falls into the opening
    have first : ((initial ++ later).drop ((initial ++ later).length - forkHistoryDepth) ++
        [userMessage task]).head? = initial[(initial ++ later).length - forkHistoryDepth]? := by
      rw [head?_append, head?_drop, getElem?_append_left inside,
        getElem?_eq_getElem inside, Option.some_or]
    constructor
    · rintro ⟨opens, paired⟩
      rw [paired_task_iff, paired_drop_iff spoken talk inside] at paired
      rw [first] at opens
      exact ⟨few, fun message mem => (opens message mem).1, paired⟩
    · rintro ⟨-, isUser, unstrayed⟩
      refine ⟨?_, (paired_task_iff _ _).mpr ((paired_drop_iff spoken talk inside).mpr unstrayed)⟩
      rw [first]
      exact fun message mem =>
        ⟨isUser message mem, (spoken message (mem_of_getElem? mem)).noResults⟩
  · refine iff_of_false (fun wellFormed => ?_) fun few => absurd few.1 (Nat.not_lt.mpr many)
    obtain ⟨content, atCut⟩ := assistant_at_cut talk many
    have first : (messages.drop (messages.length - forkHistoryDepth) ++
        [userMessage task]).head? = some (assistantTurn content) := by
      rw [head?_append, head?_drop, atCut, Option.some_or]
    have isUser := (wellFormed.opens _ first).1
    have isAssistant : role (assistantTurn content) = some "assistant" := rfl
    exact absurd (isAssistant.symm.trans isUser) (by decide)

end Conversations

/-! ## Spawning -/

variable {ω : Type}

def subagentLoop (host : Host ω) (bridge : Bridge ω) (parsed : SpawnInput) (world : World ω) :
    Except String String × LoopState (World ω) :=
  ToolLoop.run bridge.childHandle "subagent"
    (initialMessages (host.parentMessages world.env) parsed) bridge.parentSystemPrompt world

def subagentResult : Except String String → ToolResult
  | .ok text => .ok text
  | .error e => .error ("subagent failed: " ++ e)

theorem spawn_fst {host : Host ω} {bridge : Bridge ω} {input : Json} {parsed : SpawnInput}
    {world : World ω} {env : ω} (read : spawnInput input = some parsed)
    (given : trim parsed.task ≠ "") (acquired : host.acquire world.env = (.ok (), env)) :
    (spawn host bridge input world).1 =
      subagentResult (subagentLoop host bridge parsed { world with env := env }).1 := by
  simp only [spawn, read, if_neg given, lift, acquired, subagentLoop]
  split
  · rename_i ended
    rw [ended, subagentResult]
  · rename_i ended
    rw [ended, subagentResult]

theorem exists_first_request (host : Host ω) (bridge : Bridge ω) (parsed : SpawnInput)
    (world : World ω) (room : 0 < bridge.childHandle.maxIterations) :
    ∃ call, (subagentLoop host bridge parsed world).2.calls.head? = some call ∧
      call.request.messages =
        .array (initialMessages (host.parentMessages world.env) parsed) := by
  rw [subagentLoop, run_snd]
  obtain ⟨call, first⟩ := exists_first_call bridge.childHandle "subagent"
    (initialMessages (host.parentMessages world.env) parsed) bridge.parentSystemPrompt world room
  exact ⟨call, first, first_sends first⟩

/-- **The first request of a forked subagent** is well formed exactly if the parent had made fewer
than five rounds, the message at the cut is the user's, and no response held a result. -/
theorem fork_request_wellFormed_iff (setup : Setup ω) {context : String}
    {systemPrompt : Option String} {initial : List Json} {start world : World ω} {env : ω}
    {s : LoopState (World ω)} {input : Json} {task : String} (opening : Opening initial)
    (opened : initial ≠ []) (begun : Begun setup.parentHandle context systemPrompt initial start s)
    (read : spawnInput input = some ⟨task, .fork⟩) (given : trim task ≠ "")
    (acquired : setup.host.acquire world.env = (.ok (), env))
    (mirrored : setup.host.parentMessages env = s.messages) :
    let loop := subagentLoop setup.host setup.bridge ⟨task, .fork⟩ { world with env := env }
    (spawn setup.host setup.bridge input world).1 = subagentResult loop.1 ∧
      ∃ call sent, loop.2.calls.head? = some call ∧ call.request.messages = .array sent ∧
        (WellFormedRequest sent ↔
          2 * s.calls.length < forkHistoryDepth ∧
          (∀ message ∈ initial[s.messages.length - forkHistoryDepth]?,
            role message = some "user") ∧
          ∀ call ∈ s.calls, ¬ Strays call) := by
  intro loop
  refine ⟨spawn_fst read given acquired, ?_⟩
  obtain ⟨call, first, sent⟩ := exists_first_request setup.host setup.bridge ⟨task, .fork⟩
    { world with env := env } (show 0 < subagentMaxIterations by decide)
  refine ⟨call, _, first, sent, ?_⟩
  have mirrored : setup.host.parentMessages { world with env := env }.env = s.messages := mirrored
  rw [mirrored]
  exact wellFormed_fork_iff opening.spoken opened begun.conversation task

/-! ### A model that keeps searching -/

def searcher : Setup (List Json) :=
  plainSetup { permissions := { canSpawnSubagents := true } }
    { quietHost (fun _ env => (.response (toolUse "memory_search" .null), env)) with
      publish := fun messages _ => messages
      parentMessages := id }

def greeting : List Json := [userMessage "hello"]

def forkRequest : Json := .object [("task", .string "look it up")]

theorem exists_begun (rounds : ℕ) : ∃ s,
    Begun searcher.parentHandle "webchat" none greeting ⟨[], []⟩ s ∧ s.calls.length = rounds ∧
      ∀ call ∈ s.calls, call.exchange = .response (toolUse "memory_search" .null) := by
  induction rounds with
  | zero => exact ⟨_, .start, rfl, forall_mem_nil _⟩
  | succ rounds ih =>
    obtain ⟨s, begun, made, asked⟩ := ih
    obtain ⟨text, s', -, again, -, call, grown, answered⟩ :=
      iteration_toolUse searcher.parentHandle "webchat" none s fun _ _ _ => rfl
    refine ⟨s', begun.again again, ?_, ?_⟩
    · rw [grown, length_append, made, length_singleton]
    · rw [grown]
      exact forall_mem_append.mpr ⟨asked, forall_mem_singleton.mpr answered⟩

theorem not_strays {call : Call}
    (asked : call.exchange = .response (toolUse "memory_search" .null)) : ¬ Strays call := by
  rintro ⟨content, verdict, strays⟩
  rw [Call.verdict, asked] at verdict
  cases verdict
  refine strays ?_
  unfold NoResults
  decide

/-- After three rounds. -/
theorem third_round_wellFormed : ∃ s,
    Begun searcher.parentHandle "webchat" none greeting ⟨[], []⟩ s ∧ s.calls.length = 3 ∧
      ∃ call sent, (subagentLoop searcher.host searcher.bridge ⟨"look it up", .fork⟩
          ⟨s.messages, []⟩).2.calls.head? = some call ∧
        call.request.messages = .array sent ∧ WellFormedRequest sent := by
  obtain ⟨s, begun, made, asked⟩ := exists_begun 3
  have read : spawnInput forkRequest = some ⟨"look it up", .fork⟩ := rfl
  have acquired : searcher.host.acquire (World.mk s.messages []).env = (.ok (), s.messages) := rfl
  obtain ⟨-, call, sent, first, carries, wellFormed⟩ := fork_request_wellFormed_iff searcher
    (.prompt "hello") (cons_ne_nil _ _) begun read (by decide) acquired rfl
  have length := begun.conversation.length_eq
  have atStart : s.messages.length - forkHistoryDepth = 0 := by
    rw [length, made]
    decide
  refine ⟨s, begun, made, call, sent, first, carries, wellFormed.mpr ⟨?_, ?_, ?_⟩⟩
  · rw [made]
    decide
  · rw [atStart]
    decide
  · exact fun call mem => not_strays (asked call mem)

theorem fifth_round_malformed : ∃ s,
    Opening greeting ∧ Begun searcher.parentHandle "webchat" none greeting ⟨[], []⟩ s ∧
      s.calls.length = 5 ∧
      spawnInput forkRequest = some ⟨"look it up", .fork⟩ ∧
      ∃ call sent, (subagentLoop searcher.host searcher.bridge ⟨"look it up", .fork⟩
          ⟨searcher.host.publish s.messages s.world.env, []⟩).2.calls.head? = some call ∧
        call.request.messages = .array sent ∧ ¬ WellFormedRequest sent := by
  obtain ⟨s, begun, made, -⟩ := exists_begun 5
  obtain ⟨call, first, sent⟩ := exists_first_request searcher.host searcher.bridge
    ⟨"look it up", .fork⟩ ⟨s.messages, []⟩ (show 0 < subagentMaxIterations by decide)
  have opening : Opening greeting := .prompt "hello"
  refine ⟨s, opening, begun, made, rfl, call, _, first, sent, fun wellFormed => ?_⟩
  have few := ((wellFormed_fork_iff opening.spoken (cons_ne_nil _ _) begun.conversation
    "look it up").mp wellFormed).1
  rw [made] at few
  exact absurd few (by decide)

end Havn.Runtime.ForkHistory
