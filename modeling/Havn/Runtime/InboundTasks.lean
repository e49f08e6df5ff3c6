import Havn.Lib.Handlers
import Havn.Runtime.Inbound

/-!
# Inbound messages side by side

The reader loop of `havn-runtime` starts a task for every inbound message, so the handlers of
`Havn.Runtime.Inbound` run side by side.  That the turns are stored as the messages came and each
request ends with its own message needs the messages of a channel to come one at a time
(`OneByOne`).
-/

namespace Havn.Runtime.InboundTasks

open Havn.Core Db Lib Inbound List Function
open Db.Conversations (Turn Table turnsOf)

/-! ## The tasks -/

inductive Phase
  | recording
  | reading
  /-- In the tool loop. -/
  | answering
  | storing (text : String)
  | ended
  deriving DecidableEq

/-- A message and the task that handles it. -/
structure Task where
  channelId : String
  text : String
  /-- The messages of the channel up to this one. -/
  upTo : List String
  phase : Phase := .recording
  /-- The turns that the first request is made of. -/
  history : Option (List Turn) := none
  outbound : Option OutboundMessage := none

inductive Answer
  | executed (now : ℕ) (fault : Option DbError)
  | fetched (fault : Option DbError)
  | finished (result : Except String String)

/-- `handle_inbound`, from one await to the next. -/
def Task.act (t : Table) (task : Task) (answer : Answer) : Option (Table × Task) :=
  match task.phase, answer with
  | .recording, .executed now fault =>
    match Conversations.record t fault now task.channelId .user task.text with
    | (.error _, t) => some (t, { task with phase := .ended })
    | (.ok (), t) => some (t, { task with phase := .reading })
  | .reading, .fetched fault =>
    match Conversations.recent t fault task.channelId historyWindow with
    | .error _ => some (t, { task with phase := .ended })
    | .ok history => some (t, { task with history := some history, phase := .answering })
  | .answering, .finished (.ok text) => some (t, { task with phase := .storing text })
  | .answering, .finished (.error e) =>
    some (t, { task with phase := .storing ("(internal error: " ++ e ++ ")") })
  | .storing text, .executed now fault =>
    -- an answer that cannot be stored is sent all the same
    some ((Conversations.record t fault now task.channelId .assistant text).2,
      { task with outbound := some ⟨task.channelId, .text text, none⟩, phase := .ended })
  | _, _ => none

structure State where
  table : Table
  /-- The messages of each channel, as they came. -/
  arrived : String → List String := fun _ => []
  tasks : List Task := []

inductive Label
  | arrive (message : InboundMessage)
  | act (n : ℕ) (answer : Answer)

def step (rendering : Rendering) (s : State) : Label → Option State
  | .arrive message =>
    match renderContentForLlm rendering message.content with
    | none => some s
    | some text =>
      let upTo := s.arrived message.channelId ++ [text]
      some { s with
        arrived := update s.arrived message.channelId upTo
        tasks := s.tasks ++ [{ channelId := message.channelId, text, upTo }] }
  | .act n answer => s.tasks[n]?.bind fun task => (task.act s.table answer).map fun after =>
    { s with table := after.1, tasks := s.tasks.set n after.2 }

/-! ## What is asked of an interleaving -/

def userTexts (turns : List Turn) : List String :=
  (turns.filter fun turn => turn.role = .user).map Turn.content

/-- The user turns stored since `t₀` are among the texts, in their order. -/
def Since (t₀ t : Table) (channelId : String) (texts : List String) : Prop :=
  ∃ stored, userTexts (turnsOf t channelId) = userTexts (turnsOf t₀ channelId) ++ stored ∧
    stored.Sublist texts

/-- The request ends with the task's own text, after the user turns that arrived before it. -/
def Task.Asked (t₀ : Table) (task : Task) (history : List Turn) : Prop :=
  (history.filterMap turnMessage).getLast? = some (userMessage task.text) ∧
    ∃ stored, userTexts history <:+ userTexts (turnsOf t₀ task.channelId) ++ stored ∧
      stored.Sublist task.upTo

/-- **The messages of a channel are taken as they come.** -/
structure InOrder (t₀ : Table) (s : State) : Prop where
  recorded : ∀ channelId, Since t₀ s.table channelId (s.arrived channelId)
  asked : ∀ task ∈ s.tasks, ∀ history ∈ task.history, task.Asked t₀ history

def Phase.isPending : Phase → Bool
  | .recording | .reading => true
  | _ => false

/-- A turn is stored under a clock that has not gone back, while no other task of the channel has
still to read. -/
def OneByOne (s : State) : Label → Prop
  | .act n (.executed now none) => ∀ task ∈ s.tasks[n]?,
      (∀ turn ∈ turnsOf s.table task.channelId, turn.createdAt ≤ now) ∧
      ∀ other ∈ s.tasks.eraseIdx n, other.channelId = task.channelId →
        other.phase.isPending = false
  | _ => True

instance (s : State) (label : Label) : Decidable (OneByOne s label) := by
  unfold OneByOne
  split <;> infer_instance

/-! ## Turns that are added -/

section Turns

variable {t₀ t : Table} {channelId other text : String} {texts : List String} {turn : Turn}

theorem turnsOf_concat : turnsOf (t ++ [⟨channelId, turn⟩]) channelId =
    turnsOf t channelId ++ [turn] := by
  rw [Conversations.turnsOf_append]
  exact congrArg _ (Conversations.turnsOf_self [turn] channelId)

theorem turnsOf_concat_of_ne (ne : channelId ≠ other) :
    turnsOf (t ++ [⟨channelId, turn⟩]) other = turnsOf t other := by
  rw [Conversations.turnsOf_append]
  exact (congrArg _ (Conversations.turnsOf_other ne [turn])).trans (append_nil _)

theorem userTexts_concat (turns : List Turn) : userTexts (turns ++ [turn]) =
    userTexts turns ++ if turn.role = .user then [turn.content] else [] := by
  rw [userTexts, filter_append, map_append]
  by_cases isUser : turn.role = .user <;> simp [userTexts, isUser]

theorem Since.user {now : ℕ} (since : Since t₀ t channelId texts) :
    Since t₀ (t ++ [⟨channelId, ⟨.user, text, now⟩⟩]) channelId (texts ++ [text]) := by
  obtain ⟨stored, isStored, among⟩ := since
  refine ⟨stored ++ [text], ?_, among.append (.refl _)⟩
  rw [turnsOf_concat, userTexts_concat, isStored, if_pos rfl, append_assoc]

theorem Since.assistant {now : ℕ} (since : Since t₀ t channelId texts) :
    Since t₀ (t ++ [⟨channelId, ⟨.assistant, text, now⟩⟩]) channelId texts := by
  rw [Since, turnsOf_concat, userTexts_concat, if_neg nofun, append_nil]
  exact since

theorem Since.mono {more : List String} (since : Since t₀ t channelId texts)
    (sub : texts.Sublist more) : Since t₀ t channelId more := by
  obtain ⟨stored, isStored, among⟩ := since
  exact ⟨stored, isStored, among.trans sub⟩

def Chronological (t : Table) : Prop :=
  ∀ channelId, (turnsOf t channelId).Pairwise fun a b => a.createdAt ≤ b.createdAt

theorem Chronological.concat (sorted : Chronological t)
    (clock : ∀ before ∈ turnsOf t channelId, before.createdAt ≤ turn.createdAt) :
    Chronological (t ++ [⟨channelId, turn⟩]) := by
  intro other
  by_cases same : channelId = other
  · rw [← same, turnsOf_concat]
    refine pairwise_append.mpr ⟨sorted channelId, pairwise_singleton _ _, ?_⟩
    intro before mem after last
    rw [mem_singleton.mp last]
    exact clock before mem
  · rw [turnsOf_concat_of_ne same]
    exact sorted other

end Turns

/-! ## The invariant -/

/-- What a task relies on between two of its steps. -/
structure Task.Fits (t₀ t : Table) (task : Task) : Prop where
  recording : task.phase = .recording →
    ∃ before, task.upTo = before ++ [task.text] ∧ Since t₀ t task.channelId before
  /-- Its own turn is the last. -/
  reading : task.phase = .reading → Since t₀ t task.channelId task.upTo ∧
    ∃ before now, turnsOf t task.channelId = before ++ [⟨.user, task.text, now⟩]
  asked : ∀ history ∈ task.history, task.Asked t₀ history

structure Kept (t₀ : Table) (s : State) : Prop where
  fits : ∀ task ∈ s.tasks, task.Fits t₀ s.table
  known : ∀ task ∈ s.tasks, task.upTo.Sublist (s.arrived task.channelId)
  recorded : ∀ channelId, Since t₀ s.table channelId (s.arrived channelId)
  sorted : Chronological s.table

variable {t₀ t : Table} {s : State} {n : ℕ} {task task' : Task}

theorem Task.Fits.past (asked : ∀ history ∈ task.history, task.Asked t₀ history)
    (past : task.phase.isPending = false) : task.Fits t₀ t := by
  refine ⟨fun phase => ?_, fun phase => ?_, asked⟩
  all_goals
    rw [phase] at past
    cases past

theorem Task.Fits.of_turnsOf (fits : task.Fits t₀ s.table)
    (same : turnsOf t task.channelId = turnsOf s.table task.channelId) : task.Fits t₀ t := by
  obtain ⟨recording, reading, asked⟩ := fits
  unfold Since at recording reading
  rw [← same] at recording reading
  exact ⟨recording, reading, asked⟩

theorem Kept.arrive (kept : Kept t₀ s) (channelId text : String) :
    Kept t₀ { s with
      arrived := update s.arrived channelId (s.arrived channelId ++ [text])
      tasks := s.tasks ++ [{ channelId, text, upTo := s.arrived channelId ++ [text] }] } := by
  have grown : ∀ other, (s.arrived other).Sublist
      (update s.arrived channelId (s.arrived channelId ++ [text]) other) := by
    intro other
    rw [update_apply]
    split
    · rename_i same
      rw [same]
      exact sublist_append_left _ _
    · exact .refl _
  refine ⟨forall_mem_append.mpr ⟨kept.fits, forall_mem_singleton.mpr ?_⟩,
    forall_mem_append.mpr ⟨fun task mem => (kept.known task mem).trans (grown _),
      forall_mem_singleton.mpr ?_⟩, fun other => (kept.recorded other).mono (grown other),
    kept.sorted⟩
  · exact ⟨fun _ => ⟨_, rfl, kept.recorded channelId⟩, nofun, nofun⟩
  · show (s.arrived channelId ++ [text]).Sublist (update s.arrived channelId _ channelId)
    rw [update_self]

/-- A task moves, and the turns may be others. -/
theorem Kept.act (kept : Kept t₀ s) (found : s.tasks[n]? = some task)
    (channel : task'.channelId = task.channelId) (upTo : task'.upTo = task.upTo)
    (fits : task'.Fits t₀ t) (others : ∀ other ∈ s.tasks.eraseIdx n, other.Fits t₀ t)
    (recorded : ∀ channelId, Since t₀ t channelId (s.arrived channelId))
    (sorted : Chronological t) :
    Kept t₀ { s with table := t, tasks := s.tasks.set n task' } := by
  refine ⟨fun other mem => ?_, fun other mem => ?_, recorded, sorted⟩
  · rcases Handlers.mem_set mem with rfl | mem
    · exact fits
    · exact others other mem
  · rcases Handlers.mem_set mem with rfl | mem
    · rw [channel, upTo]
      exact kept.known task (mem_of_getElem? found)
    · exact kept.known other (mem_of_mem_eraseIdx mem)

/-- A task moves and leaves the table as it is. -/
theorem Kept.quiet (kept : Kept t₀ s) (found : s.tasks[n]? = some task)
    (channel : task'.channelId = task.channelId) (upTo : task'.upTo = task.upTo)
    (past : task'.phase.isPending = false)
    (asked : ∀ history ∈ task'.history, task'.Asked t₀ history) :
    Kept t₀ { s with tasks := s.tasks.set n task' } :=
  kept.act found channel upTo (.past asked past)
    (fun other mem => kept.fits other (mem_of_mem_eraseIdx mem)) kept.recorded kept.sorted

/-- A task stores a turn on its channel. -/
theorem Kept.store {turn : Turn} (kept : Kept t₀ s) (found : s.tasks[n]? = some task)
    (ok : OneByOne s (.act n (.executed turn.createdAt none)))
    (channel : task'.channelId = task.channelId) (upTo : task'.upTo = task.upTo)
    (since : Since t₀ (s.table ++ [⟨task.channelId, turn⟩]) task.channelId
      (s.arrived task.channelId)) (fits : task'.Fits t₀ (s.table ++ [⟨task.channelId, turn⟩])) :
    Kept t₀ { s with
      table := s.table ++ [⟨task.channelId, turn⟩], tasks := s.tasks.set n task' } := by
  obtain ⟨clock, alone⟩ := ok task found
  refine kept.act found channel upTo fits (fun other mem => ?_) (fun channelId => ?_)
    (kept.sorted.concat clock)
  · have before := kept.fits other (mem_of_mem_eraseIdx mem)
    by_cases same : other.channelId = task.channelId
    · exact .past before.asked (alone other mem same)
    · exact before.of_turnsOf (turnsOf_concat_of_ne (Ne.symm same))
  · by_cases same : task.channelId = channelId
    · exact same ▸ since
    · rw [Since, turnsOf_concat_of_ne same]
      exact kept.recorded channelId

/-- A task reads its channel: its own turn is the last. -/
theorem Kept.read (kept : Kept t₀ s) (mem : task ∈ s.tasks) {history : List Turn}
    (phase : task.phase = .reading)
    (fetched : Conversations.recent s.table none task.channelId historyWindow = .ok history) :
    task.Asked t₀ history := by
  obtain ⟨⟨stored, isStored, among⟩, before, now, last⟩ := (kept.fits task mem).reading phase
  have read := Conversations.recent_eq_ok (kept.sorted _) fetched
  refine ⟨?_, stored, ?_, among⟩
  · rw [read, last, Conversations.lastTurns_concat (by decide), filterMap_append]
    exact getLast?_concat
  · rw [← isStored, read]
    exact ((drop_suffix _ _).filter _).map _

theorem Kept.step {rendering : Rendering} {label : Label} {s' : State} (kept : Kept t₀ s)
    (ok : OneByOne s label) (next : step rendering s label = some s') : Kept t₀ s' := by
  cases label with
  | arrive message =>
    simp only [InboundTasks.step] at next
    split at next
    · cases next
      exact kept
    · cases next
      exact kept.arrive message.channelId _
  | act =>
    obtain ⟨task, found, moved⟩ := Option.bind_eq_some_iff.mp next
    obtain ⟨after, acted, rfl⟩ := Option.map_eq_some_iff.mp moved
    have mem := mem_of_getElem? found
    have fits := kept.fits task mem
    unfold Task.act at acted
    split at acted
    · rename_i now fault phase
      cases fault with
      | some =>
        cases acted
        exact kept.quiet found rfl rfl rfl fits.asked
      | none =>
        cases acted
        obtain ⟨before, isBefore, since⟩ := fits.recording phase
        have upTo : Since t₀ (s.table ++ [⟨task.channelId, ⟨.user, task.text, now⟩⟩])
            task.channelId task.upTo := isBefore ▸ since.user
        exact kept.store found ok rfl rfl (upTo.mono (kept.known task mem))
          ⟨nofun, fun _ => ⟨upTo, _, now, turnsOf_concat⟩, fits.asked⟩
    · rename_i fault phase
      cases fault with
      | some =>
        cases acted
        exact kept.quiet found rfl rfl rfl fits.asked
      | none =>
        cases acted
        refine kept.quiet found rfl rfl rfl ?_
        rintro history ⟨⟩
        exact kept.read mem phase rfl
    · cases acted
      exact kept.quiet found rfl rfl rfl fits.asked
    · cases acted
      exact kept.quiet found rfl rfl rfl fits.asked
    · rename_i fault _
      cases fault with
      | some =>
        cases acted
        exact kept.quiet found rfl rfl rfl fits.asked
      | none =>
        cases acted
        exact kept.store found ok rfl rfl (kept.recorded _).assistant (.past fits.asked rfl)
    · cases acted

/-- **Messages that come one by one are taken as they come.** -/
theorem inOrder_of_oneByOne {rendering : Rendering} (sorted : Chronological t₀)
    {labels : List Label} (ran : Run (step rendering) OneByOne { table := t₀ } labels s) :
    InOrder t₀ s := by
  have start : Kept t₀ { table := t₀ } :=
    ⟨forall_mem_nil _, forall_mem_nil _, fun _ => ⟨[], (append_nil _).symm, .refl _⟩, sorted⟩
  have kept : Kept t₀ s := ran.invariant (fun _ _ _ kept ok next => kept.step ok next) start
  exact ⟨kept.recorded, fun task mem => (kept.fits task mem).asked⟩

/-! ## Two messages of a chat -/

def sent (text : String) : Label :=
  .arrive ⟨"chat", "user", "webchat", .text text, .startOf 2026, .null⟩

def stores (n : ℕ) : Label := .act n (.executed 0 none)

def reads (n : ℕ) : Label := .act n (.fetched none)

/-- The second message comes while the first is answered. -/
theorem chat_inOrder : ∃ s,
    Run (step plainRendering) OneByOne { table := [] }
      [sent "first", stores 0, reads 0, sent "second", stores 1, reads 1] s ∧
    userTexts (turnsOf s.table "chat") = ["first", "second"] ∧ InOrder [] s :=
  exists_run_and (by decide +kernel) fun ran _ => inOrder_of_oneByOne (fun _ => .nil) ran

/-- **The second message is stored first**; or both are stored before the first task reads. -/
theorem chat_out_of_order :
    (∃ s, Run (step plainRendering) anyStep { table := [] }
        [sent "first", sent "second", stores 1, stores 0] s ∧
      userTexts (turnsOf s.table "chat") = ["second", "first"] ∧ ¬ InOrder [] s) ∧
    ∃ s, Run (step plainRendering) anyStep { table := [] }
        [sent "first", sent "second", stores 0, stores 1, reads 0] s ∧
      (∃ task ∈ s.tasks, task.upTo = ["first"] ∧
        task.history.map userTexts = some ["first", "second"]) ∧ ¬ InOrder [] s := by
  constructor
  · obtain ⟨s, ran, texts, arrived⟩ : ∃ s, Run (step plainRendering) anyStep { table := [] }
        [sent "first", sent "second", stores 1, stores 0] s ∧
        userTexts (turnsOf s.table "chat") = ["second", "first"] ∧
          s.arrived "chat" = ["first", "second"] := exists_run (by decide +kernel)
    refine ⟨s, ran, texts, fun inOrder => ?_⟩
    obtain ⟨stored, isStored, among⟩ := inOrder.recorded "chat"
    obtain rfl : ["second", "first"] = stored := texts.symm.trans isStored
    rw [arrived] at among
    exact absurd among (by decide)
  · refine exists_run_and (by decide +kernel) fun {s} ran ⟨task, mem, upTo, texts⟩ inOrder => ?_
    obtain ⟨history, asked, both⟩ := Option.map_eq_some_iff.mp texts
    obtain ⟨-, stored, isEnd, among⟩ := inOrder.asked task mem history asked
    rw [both] at isEnd
    rw [upTo] at among
    exact absurd (isEnd.length_le.trans among.length_le) (by decide)

end Havn.Runtime.InboundTasks
