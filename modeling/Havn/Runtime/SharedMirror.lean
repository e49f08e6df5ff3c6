import Havn.Lib.Handlers
import Havn.Runtime.ForkHistory

/-!
# Parent loops side by side

Every frame of the gateway is handled in a task of its own.  The loops share one mirror: each
overwrites it with its own messages before it asks the model, and `subagent_spawn` reads it.

Here the loop of `ToolLoop` is cut at its awaits, which leaves its conversation with the model as it
was (`talks_of_run`).  A loop is *exposed* from its publishing to its last fork of the pass, and a
fork takes the conversation of its own loop if no other loop publishes meanwhile.
-/

namespace Havn.Runtime.SharedMirror

open Lib Proto Session ToolLoop ForkHistory List
open Inbound (userMessage)

variable {ω : Type}

/-! ## A loop between its awaits -/

structure Start where
  context : String
  systemPrompt : Option String
  messages : List Json

inductive Phase where
  | publishing
  | asking
  | calling (blocks results : List Json)
  | spawning (input : SpawnInput) (blocks results : List Json)
  | awaiting (blocks results : List Json)
  | ended

structure Parent where
  start : Start
  messages : List Json
  calls : List Call := []
  subagents : List (SpawnInput × List Json) := []
  phase : Phase := .publishing

inductive Answer where
  | ready
  | exchanged (requestId : String) (exchange : Exchange)
  | result (result : ToolResult)
  | permit (permit : Except String Unit)

def toolName (block : Json) : String := ((block.get "name").bind Json.asStr).getD ""

def toolInput (block : Json) : Json := (block.get "input").getD .null

def toolUses (content : Json) : List Json :=
  (content.asArray.getD []).filter fun block => blockType block = some "tool_use"

namespace Parent

def responded (p : Parent) (call : Call) : Parent :=
  match call.verdict with
  | none | some (.error _) => { p with calls := p.calls ++ [call], phase := .ended }
  | some (.stop content) =>
    { p with
      messages := p.messages ++ [assistantTurn content]
      calls := p.calls ++ [call]
      phase := .ended }
  | some (.tools content) =>
    { p with
      messages := p.messages ++ [assistantTurn content]
      calls := p.calls ++ [call]
      phase := .calling (toolUses content) [] }

/-- After the last result, the results are a turn, and the `for` loop goes on as long as it may. -/
def answered (p : Parent) (block : Json) (rest results : List Json) (result : ToolResult) :
    Parent :=
  match rest with
  | [] =>
    { p with
      messages := p.messages ++ [userTurn (results ++ [toolResultBlock (toolUseId block) result])]
      phase := if p.calls.length < maxToolIterations then .publishing else .ended }
  | _ :: _ =>
    { p with phase := .calling rest (results ++ [toolResultBlock (toolUseId block) result]) }

variable (setup : Setup ω)

def spawn (p : Parent) (block : Json) (rest results : List Json) : Parent :=
  match spawnInput (toolInput block) with
  | none =>
    p.answered block rest results
      (.error ("invalid subagent_spawn input: " ++ setup.host.inputError (toolInput block)))
  | some parsed =>
    if trim parsed.task = "" then
      p.answered block rest results (.error "subagent_spawn: `task` must be non-empty")
    else { p with phase := .spawning parsed (block :: rest) results }

def dispatch (p : Parent) (block : Json) (rest results : List Json) :
    Answer → Option Parent
  | .ready =>
    match setup.parentRegistry.lookup p.start.context (toolName block) (toolInput block) with
    | .error message => some (p.answered block rest results (.error message))
    | .ok tool => if tool.name = "subagent_spawn" then some (p.spawn setup block rest results)
        else none
  | .result result =>
    match setup.parentRegistry.lookup p.start.context (toolName block) (toolInput block) with
    | .error _ => none
    | .ok tool => if tool.name = "subagent_spawn" then none
        else some (p.answered block rest results result)
  | _ => none

def act (mirror : List Json) (p : Parent) (answer : Answer) : Option (List Json × Parent) :=
  match p.phase, answer with
  | .publishing, .ready => some (p.messages, { p with phase := .asking })
  | .asking, .exchanged requestId exchange =>
    some (mirror, p.responded ⟨llmReq setup.parentHandle p.start.context p.start.systemPrompt
      requestId p.messages, exchange⟩)
  | .calling (block :: rest) results, answer =>
    (p.dispatch setup block rest results answer).map (mirror, ·)
  | .spawning _ (block :: rest) results, .permit (.error e) =>
    some (mirror, p.answered block rest results (.error ("subagent semaphore closed: " ++ e)))
  | .spawning input (block :: rest) results, .permit (.ok ()) =>
    some (mirror, { p with
      subagents := p.subagents ++ [(input, initialMessages mirror input)]
      phase := .awaiting (block :: rest) results })
  | .awaiting (block :: rest) results, .result result =>
    some (mirror, p.answered block rest results result)
  | _, _ => none

end Parent

/-- The loops of subagents and of incoming queries have no mirror. -/
def handlers (setup : Setup ω) : Handlers (List Json) Start Parent Answer Empty where
  begin start := { start := start, messages := start.messages }
  act := Parent.act setup
  outside := fun _ mirror => mirror

/-! ## What a step does -/

def Phase.round : Phase → Option (List Json × List Json)
  | .calling blocks results | .spawning _ blocks results | .awaiting blocks results =>
    some (blocks, results)
  | _ => none

def Phase.isPublishing : Phase → Bool
  | .publishing => true
  | _ => false

def forks (setup : Setup ω) (context : String) (block : Json) : Bool :=
  match setup.parentRegistry.lookup context (toolName block) (toolInput block) with
  | .error _ => false
  | .ok tool => tool.name = "subagent_spawn" ∧
      (spawnInput (toolInput block)).any fun input => input.context = .fork

inductive Moved (setup : Setup ω) (mirror : List Json) (p : Parent) : List Json × Parent → Prop
  | published (phase : p.phase = .publishing) :
      Moved setup mirror p (p.messages, { p with phase := .asking })
  | responded {call : Call} (phase : p.phase = .asking)
      (sent : call.request.messages = .array p.messages) :
      Moved setup mirror p (mirror, p.responded call)
  | answered {block : Json} {rest results : List Json} (result : ToolResult)
      (round : p.phase.round = some (block :: rest, results)) :
      Moved setup mirror p (mirror, p.answered block rest results result)
  | spawning {block : Json} {rest results : List Json} {input : SpawnInput}
      (phase : p.phase = .calling (block :: rest) results)
      (fork : input.context = .fork → forks setup p.start.context block = true) :
      Moved setup mirror p (mirror, { p with phase := .spawning input (block :: rest) results })
  | spawned {block : Json} {rest results : List Json} {input : SpawnInput}
      (phase : p.phase = .spawning input (block :: rest) results) :
      Moved setup mirror p (mirror, { p with
        subagents := p.subagents ++ [(input, initialMessages mirror input)]
        phase := .awaiting (block :: rest) results })

variable {results : List Json} {after : List Json × Parent} {rest : List Json} {block : Json}

section Steps

variable {setup : Setup ω} {mirror : List Json} {p : Parent}

theorem moved_dispatch {answer : Answer} {p' : Parent}
    (phase : p.phase = .calling (block :: rest) results)
    (dispatched : p.dispatch setup block rest results answer = some p') :
    Moved setup mirror p (mirror, p') := by
  have round : p.phase.round = some (block :: rest, results) := by rw [phase]; rfl
  unfold Parent.dispatch at dispatched
  split at dispatched
  · split at dispatched
    · cases dispatched
      exact .answered _ round
    · rename_i tool found
      split at dispatched
      · rename_i named
        cases dispatched
        unfold Parent.spawn
        split
        · exact .answered _ round
        · rename_i input read
          split
          · exact .answered _ round
          · refine .spawning phase fun fork => ?_
            rw [forks, found]
            simp only [named, read, fork, Option.any_some, decide_true, and_self]
      · cases dispatched
  · split at dispatched
    · cases dispatched
    split at dispatched
    · cases dispatched
    · cases dispatched
      exact .answered _ round
  · cases dispatched

theorem moved_of_act {answer : Answer}
    (acted : p.act setup mirror answer = some after) : Moved setup mirror p after := by
  unfold Parent.act at acted
  split at acted
  · rename_i phase
    cases acted
    exact .published phase
  · rename_i phase
    cases acted
    exact .responded phase rfl
  · rename_i phase
    obtain ⟨p', dispatched, rfl⟩ := Option.map_eq_some_iff.mp acted
    exact moved_dispatch phase dispatched
  · rename_i phase
    cases acted
    exact .answered _ (by rw [phase]; rfl)
  · rename_i phase
    cases acted
    exact .spawned phase
  · rename_i phase
    cases acted
    exact .answered _ (by rw [phase]; rfl)
  · cases acted

end Steps

/-! ## The conversation of a loop -/

def Answering (content : Json) (blocks results : List Json) : Prop :=
  results.map answeredId ++ blocks.map (fun block => (some "tool_result", some (toolUseId block))) =
    (toolUseIds content).map fun id => (some "tool_result", some id)

variable (p : Parent)

def InRound (blocks results : List Json) : Prop :=
  ∃ earlier sent call content, Conversation p.start.messages earlier sent ∧
    earlier.length < maxToolIterations ∧ call.request.messages = .array sent ∧
    call.verdict = some (.tools content) ∧ p.calls = earlier ++ [call] ∧
    p.messages = sent ++ [assistantTurn content] ∧ Answering content blocks results

/-- A loop that is cut at its awaits is at some place of a conversation of `ToolLoop`. -/
def Talks : Prop :=
  match p.phase with
  | .publishing | .asking =>
    Conversation p.start.messages p.calls p.messages ∧ p.calls.length < maxToolIterations
  | .calling blocks results | .spawning _ blocks results | .awaiting blocks results =>
    InRound p blocks results
  | .ended => ∃ result, Ended maxToolIterations p.start.messages result p.calls p.messages

section Talks

variable {p : Parent}

theorem talks_responded {call : Call} (talk : Conversation p.start.messages p.calls p.messages)
    (room : p.calls.length < maxToolIterations)
    (sent : call.request.messages = .array p.messages) : Talks (p.responded call) := by
  unfold Parent.responded
  split
  · rename_i verdict
    exact ⟨.error (.infra ""), .infra talk room sent verdict⟩
  · rename_i message verdict
    exact ⟨.error (.llm message), .llm talk room sent verdict⟩
  · rename_i content verdict
    exact ⟨_, .stop talk room sent verdict⟩
  · rename_i content verdict
    refine ⟨p.calls, p.messages, call, content, talk, room, sent, verdict, rfl, rfl, ?_⟩
    rw [Answering, toolUseIds, map_map]
    rfl

theorem talks_answered (result : ToolResult)
    (round : InRound p (block :: rest) results) : Talks (p.answered block rest results result) := by
  obtain ⟨earlier, sent, call, content, talk, room, carries, verdict, calls, messages, asked⟩ :=
    round
  have asked : Answering content rest (results ++ [toolResultBlock (toolUseId block) result]) := by
    rw [Answering, ← asked, map_append, map_singleton, answeredId_toolResultBlock,
      append_assoc]
    rfl
  unfold Parent.answered
  split
  · -- the round is over
    have answers : Answers content (results ++ [toolResultBlock (toolUseId block) result]) := by
      rw [Answering, map_nil, append_nil] at asked
      exact asked
    have longer : Conversation p.start.messages p.calls
        (p.messages ++ [userTurn (results ++ [toolResultBlock (toolUseId block) result])]) := by
      rw [calls, messages, append_assoc]
      exact .round talk carries verdict answers
    unfold Talks
    split_ifs with more
    · exact ⟨longer, more⟩
    · refine ⟨_, .capped longer ?_⟩
      rw [calls, length_append, length_singleton] at more ⊢
      omega
  · exact ⟨earlier, sent, call, content, talk, room, carries, verdict, calls, messages, asked⟩

theorem InRound.of_round {blocks : List Json} (talks : Talks p)
    (round : p.phase.round = some (blocks, results)) : InRound p blocks results := by
  unfold Talks at talks
  cases phase : p.phase <;> rw [phase] at round talks <;> cases round <;> exact talks

theorem Moved.talks {setup : Setup ω} {mirror : List Json}
    (moved : Moved setup mirror p after) (talks : Talks p) : Talks after.2 := by
  cases moved with
  | published phase | spawning phase _ | spawned phase =>
    rw [Talks, phase] at talks
    exact talks
  | responded phase sent =>
    rw [Talks, phase] at talks
    exact talks_responded talks.1 talks.2 sent
  | answered result round => exact talks_answered result (.of_round talks round)

end Talks

/-- **Every loop of every interleaving has a conversation of the sequential loop.** -/
theorem talks_of_run {setup : Setup ω} {labels : List (Handlers.Label Start Answer Empty)}
    {t : Handlers.State (List Json) Parent}
    (run : Run (handlers setup).step anyStep { shared := [] } labels t) :
    ∀ p ∈ t.calls, Talks p := by
  have respects : Handlers.Respects (handlers setup) anyStep (fun _ => True)
      (fun _ p => Talks p) :=
    { begins := fun _ start _ => ⟨.start, show 0 < maxToolIterations by decide⟩
      acts := fun _ _ _ _ _ _ _ _ talks acted => ⟨trivial, (moved_of_act acted).talks talks⟩
      spares := fun _ _ _ _ _ _ _ _ _ _ _ _ talks => talks
      outside := fun _ event => event.elim }
  exact (respects.sustained trivial run).calls

/-! ## Whose messages a fork gets -/

def Exposed (setup : Setup ω) (p : Parent) : Bool :=
  match p.phase with
  | .publishing | .ended => false
  | .asking => true
  | .calling blocks _ => blocks.any (forks setup p.start.context)
  | .spawning input blocks _ =>
    input.context = .fork || blocks.tail.any (forks setup p.start.context)
  | .awaiting blocks _ => blocks.tail.any (forks setup p.start.context)

def Apart (setup : Setup ω) (s : Handlers.State (List Json) Parent) :
    Handlers.Label Start Answer Empty → Prop
  | .act n _ => ∀ p ∈ s.calls[n]?, p.phase.isPublishing = true →
      ∀ other ∈ s.calls.eraseIdx n, Exposed setup other = false
  | _ => True

instance (setup : Setup ω) (s label) : Decidable (Apart setup s label) := by
  unfold Apart
  split <;> infer_instance

def Parent.current : Option Json :=
  match p.phase with
  | .asking => some (.array p.messages)
  | _ => p.calls.getLast?.map fun call => call.request.messages

def Own (history : List Json) : Prop :=
  ∃ call ∈ p.calls, ∃ sent, call.request.messages = .array sent ∧ history <:+ sent

def ForksOwn : Prop :=
  ∀ input started, (input, started) ∈ p.subagents → input.context = .fork →
    ∃ history, started = history ++ [userMessage input.task] ∧ Own p history

structure Relies (setup : Setup ω) (mirror : List Json) (p : Parent) : Prop where
  mirrored : Exposed setup p = true → p.current = some (.array mirror)
  own : ForksOwn p

section Forks

variable {setup : Setup ω} {mirror : List Json} {p p' : Parent}

theorem ForksOwn.mono (own : ForksOwn p) (subagents : p'.subagents = p.subagents)
    (calls : p.calls ⊆ p'.calls) : ForksOwn p' := by
  intro input started mem fork
  rw [subagents] at mem
  obtain ⟨history, shape, call, called, suffix⟩ := own input started mem fork
  exact ⟨history, shape, call, calls called, suffix⟩

theorem relies_responded {call : Call} (phase : p.phase = .asking)
    (sent : call.request.messages = .array p.messages) (relies : Relies setup mirror p) :
    Relies setup mirror (p.responded call) := by
  have mirrored : p.messages = mirror := by
    have current := relies.mirrored (by rw [Exposed, phase])
    rw [Parent.current, phase] at current
    exact Json.array.inj (Option.some.inj current)
  constructor
  · unfold Parent.responded
    split
    · exact fun exposed => absurd exposed Bool.false_ne_true
    · exact fun exposed => absurd exposed Bool.false_ne_true
    · exact fun exposed => absurd exposed Bool.false_ne_true
    · intro _
      rw [Parent.current, getLast?_concat, Option.map_some, sent, mirrored]
  · refine relies.own.mono ?_ ?_
    · unfold Parent.responded
      split <;> rfl
    · unfold Parent.responded
      split <;> exact subset_append_left _ _

theorem exposed_of_round (round : p.phase.round = some (block :: rest, results))
    (later : rest.any (forks setup p.start.context) = true) : Exposed setup p = true := by
  unfold Exposed
  cases phase : p.phase <;> rw [phase] at round <;> cases round
  · exact any_cons.trans (by rw [later, Bool.or_true])
  · exact (congrArg _ later).trans (Bool.or_true _)
  · exact later

theorem current_of_round {blocks : List Json} (round : p.phase.round = some (blocks, results)) :
    p.current = p.calls.getLast?.map fun call => call.request.messages := by
  unfold Parent.current
  split
  · rename_i phase
    rw [phase] at round
    cases round
  · rfl

theorem relies_answered (result : ToolResult)
    (round : p.phase.round = some (block :: rest, results)) (relies : Relies setup mirror p) :
    Relies setup mirror (p.answered block rest results result) := by
  unfold Parent.answered
  split
  · refine ⟨fun exposed => ?_, relies.own.mono rfl (List.Subset.refl _)⟩
    unfold Exposed at exposed
    split_ifs at exposed
  · refine ⟨fun exposed => ?_, relies.own.mono rfl (List.Subset.refl _)⟩
    exact (current_of_round round).symm.trans (relies.mirrored (exposed_of_round round exposed))

theorem relies_spawned {input : SpawnInput}
    (phase : p.phase = .spawning input (block :: rest) results) (relies : Relies setup mirror p) :
    Relies setup mirror { p with
      subagents := p.subagents ++ [(input, initialMessages mirror input)]
      phase := .awaiting (block :: rest) results } := by
  have round : p.phase.round = some (block :: rest, results) := by rw [phase]; rfl
  constructor
  · intro exposed
    exact (current_of_round round).symm.trans (relies.mirrored (exposed_of_round round exposed))
  · intro input' started mem fork
    rcases mem_append.mp mem with old | new
    · exact relies.own input' started old fork
    · cases mem_singleton.mp new
      have exposed : Exposed setup p = true := by
        rw [Exposed, phase]
        simp only [fork, decide_true, Bool.true_or]
      have current := relies.mirrored exposed
      rw [current_of_round round] at current
      obtain ⟨call, last, carries⟩ := Option.map_eq_some_iff.mp current
      refine ⟨mirror.drop (mirror.length - forkHistoryDepth), ?_, call,
        mem_of_getLast? last, mirror, carries, drop_suffix _ _⟩
      rw [initialMessages, fork]
      rfl

theorem Moved.relies (moved : Moved setup mirror p after)
    (relies : Relies setup mirror p) : Relies setup after.1 after.2 := by
  cases moved with
  | published => exact ⟨fun _ => rfl, relies.own.mono rfl (List.Subset.refl _)⟩
  | responded phase sent => exact relies_responded phase sent relies
  | answered result round => exact relies_answered result round relies
  | @spawning block rest results input phase fork =>
    refine ⟨fun exposed => ?_, relies.own.mono rfl (List.Subset.refl _)⟩
    have round : p.phase.round = some (block :: rest, results) := by rw [phase]; rfl
    rw [← relies.mirrored, current_of_round round]
    · rfl
    · rw [Exposed, phase]
      rcases Bool.or_eq_true_iff.mp exposed with now | later
      · exact any_cons.trans (by rw [fork (of_decide_eq_true now), Bool.true_or])
      · exact any_cons.trans (by rw [show rest.any _ = true from later, Bool.or_true])
  | spawned phase => exact relies_spawned phase relies

theorem Moved.mirror_eq (moved : Moved setup mirror p after) :
    p.phase.isPublishing = true ∨ after.1 = mirror := by
  cases moved with
  | published phase => exact .inl (by rw [phase]; rfl)
  | responded | answered | spawning | spawned => exact .inr rfl

theorem respects_mirror (setup : Setup ω) :
    Handlers.Respects (handlers setup) (Apart setup) (fun _ => True) (Relies setup) where
  begins := fun _ start _ =>
    ⟨fun exposed => absurd exposed Bool.false_ne_true, fun _ _ mem => absurd mem not_mem_nil⟩
  acts := fun _ _ _ _ _ _ _ _ relies acted => ⟨trivial, (moved_of_act acted).relies relies⟩
  spares := by
    intro s n p answer after apart found _ _ acted other mem relies
    rcases (moved_of_act acted).mirror_eq with publishing | same
    · -- whoever is spared is not exposed
      have covered := apart p found publishing other mem
      exact ⟨fun exposed => absurd (covered.symm.trans exposed) Bool.false_ne_true, relies.own⟩
    · rw [same]
      exact relies
  outside := fun _ event => event.elim

end Forks

/-- **Forks are given their own loop's messages** if no loop publishes while another has published
and may still fork. -/
theorem forksOwn_of_apart (setup : Setup ω) {labels : List (Handlers.Label Start Answer Empty)}
    {t : Handlers.State (List Json) Parent}
    (run : Run (handlers setup).step (Apart setup) { shared := [] } labels t) :
    ∀ p ∈ t.calls, ForksOwn p :=
  fun p mem => ((respects_mirror setup).sustained trivial run).calls p mem |>.own

/-! ### Two channels -/

def texts (messages : List Json) : List (Option String) := messages.map (Json.strAt "content")

def sentTexts : List (List (Option String)) :=
  p.calls.map fun call => texts (call.request.messages.asArray.getD [])

def forkTexts : List (List (Option String)) :=
  (p.subagents.filter fun subagent => subagent.1.context = .fork).map fun subagent =>
    texts subagent.2

theorem texts_of_forksOwn {p : Parent} (own : ForksOwn p) :
    ∀ started ∈ forkTexts p, ∃ sent ∈ sentTexts p, started.dropLast <:+ sent := by
  intro started mem
  obtain ⟨⟨input, messages⟩, chosen, rfl⟩ := mem_map.mp mem
  obtain ⟨spawned, fork⟩ := mem_filter.mp chosen
  obtain ⟨history, rfl, call, called, sent, carries, suffix⟩ :=
    own input messages spawned (of_decide_eq_true fork)
  refine ⟨texts sent, mem_map.mpr ⟨call, called, by rw [carries]; rfl⟩, ?_⟩
  rw [texts, map_append, map_singleton, dropLast_concat]
  exact suffix.map (Json.strAt "content")

def channel (text : String) : Start := ⟨"webchat", none, [userMessage text]⟩

def forkResponse : Exchange := .response (toolUse "subagent_spawn" forkRequest)

def forking (n : ℕ) : List (Handlers.Label Start Answer Empty) :=
  [.act n (.exchanged "" forkResponse), .act n .ready, .act n (.permit (.ok ()))]

def inTurn : List (Handlers.Label Start Answer Empty) :=
  [.arrive (channel "hello"), .arrive (channel "my PIN is 1234"), .act 0 .ready] ++ forking 0 ++
    [.act 1 .ready] ++ forking 1

def crossed : List (Handlers.Label Start Answer Empty) :=
  [.arrive (channel "hello"), .arrive (channel "my PIN is 1234"), .act 0 .ready, .act 1 .ready] ++
    forking 0

theorem inTurn_own : ∃ t, Run (handlers searcher).step (Apart searcher) { shared := [] } inTurn t ∧
    t.calls.map forkTexts =
      [[[some "hello", some "look it up"]], [[some "my PIN is 1234", some "look it up"]]] ∧
    ∀ p ∈ t.calls, ForksOwn p :=
  exists_run_and (by decide +kernel) fun run _ => forksOwn_of_apart searcher run

theorem crossed_talks : ∃ t, Run (handlers searcher).step anyStep { shared := [] } crossed t ∧
    t.calls.length = 2 ∧ ∀ p ∈ t.calls, Talks p :=
  exists_run_and (by decide +kernel) fun run _ => talks_of_run run

theorem crossed_not_own : ∃ t p, exec (handlers searcher).step { shared := [] } crossed = some t ∧
    t.calls[0]? = some p ∧ sentTexts p = [[some "hello"]] ∧
    forkTexts p = [[some "my PIN is 1234", some "look it up"]] ∧ ¬ ForksOwn p := by
  obtain ⟨t, ran, p, first, sent, forked⟩ :
      ∃ t, exec (handlers searcher).step { shared := [] } crossed = some t ∧
        ∃ p ∈ t.calls[0]?, sentTexts p = [[some "hello"]] ∧
          forkTexts p = [[some "my PIN is 1234", some "look it up"]] :=
    exists_exec (by decide +kernel)
  refine ⟨t, p, ran, first, sent, forked, fun own => ?_⟩
  obtain ⟨said, mem, suffix⟩ :=
    texts_of_forksOwn own _ (by rw [forked]; exact mem_singleton_self _)
  rw [sent, mem_singleton] at mem
  rw [mem] at suffix
  exact absurd suffix (by decide)

end Havn.Runtime.SharedMirror
