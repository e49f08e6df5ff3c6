import Mathlib.Data.List.Induction
import Havn.Core.Message
import Havn.Db.Conversations
import Havn.Runtime.Session

/-!
# Handling inbound messages

`handle_inbound` of `havn-runtime/src/main.rs`: a message is stored as a user turn, the last forty
turns of its channel are the messages of a tool loop, and the loop's text is stored as an assistant
turn.  Handlers of a channel run one after the other here, each with a session, an environment, a
clock and faults of its own.
-/

namespace Havn.Runtime.Inbound

open Havn.Core Db Lib Session List
open Db.Conversations (Turn Table Row turnsOf lastTurns lastTurns_concat turnsOf_append turnsOf_self
  turnsOf_other)
open Dispatch (World)
open ToolLoop (Call LoopState)

variable {ω : Type}

/-! ## The handler -/

structure Rendering where
  fixed : Float → String
  jsonEscape : String → String

variable (rendering : Rendering)

def renderContentForLlm : MessageContent → Option String
  | .text text => some text
  | .audio transcript durationSeconds _ =>
    some ("[Audio transcript (machine-generated STT, untrusted"
      ++ (durationSeconds.map fun d => ", " ++ toString d ++ "s").getD "" ++ ")]: "
      ++ rendering.jsonEscape transcript)
  | .location latitude longitude _ name address =>
    some ("[Location (user-supplied, untrusted): " ++ rendering.fixed latitude ++ ", "
      ++ rendering.fixed longitude
      ++ (name.map fun n => " name=" ++ rendering.jsonEscape n).getD ""
      ++ (address.map fun a => " address=" ++ rendering.jsonEscape a).getD "" ++ "]")
  | .contact displayName phoneNumber _ =>
    some ("[Contact (user-supplied, untrusted): name=" ++ rendering.jsonEscape displayName
      ++ (phoneNumber.map fun p => " phone=" ++ rendering.jsonEscape p).getD "" ++ "]")
  | .image _ caption => caption.map fun c =>
    "[Image caption (user-supplied, untrusted; image bytes not seen by model)]: "
      ++ rendering.jsonEscape c
  | .file _ _ => none

def historyWindow : ℕ := 40

def userMessage (content : String) : Json :=
  .object [("role", .string "user"), ("content", .string content)]

def assistantMessage (content : String) : Json :=
  .object [("role", .string "assistant"), ("content", .string content)]

def turnMessage (turn : Turn) : Option Json :=
  match turn.role with
  | .user => some (userMessage turn.content)
  | .assistant => some (assistantMessage turn.content)
  | .system | .tool => none

/-- The session, the environment of the loop, the system prompt, the clock at the two inserts, and
what the three statements fail with. -/
structure Handling (ω : Type) where
  message : InboundMessage
  setup : Setup ω
  world : World ω
  augmented : Option String := none
  receivedAt : ℕ := 0
  answeredAt : ℕ := 0
  unsaved : Option DbError := none
  unread : Option DbError := none
  lost : Option DbError := none

namespace Handling

variable (h : Handling ω)

def runToolLoop (history : List Turn) : Except String String × LoopState (World ω) :=
  ToolLoop.run h.setup.parentHandle "webchat" (history.filterMap turnMessage) h.augmented h.world

def finalText (history : List Turn) : String :=
  match (h.runToolLoop history).1 with
  | .ok text => text
  | .error e => "(internal error: " ++ e ++ ")"

end Handling

structure Handled where
  table : Table
  calls : List Call := []
  outbound : Option OutboundMessage := none

def handleInbound (h : Handling ω) (t : Table) : Handled :=
  match renderContentForLlm rendering h.message.content with
  | none => { table := t }
  | some userText =>
    match Conversations.record t h.unsaved h.receivedAt h.message.channelId .user userText with
    | (.error _, t) => { table := t }
    | (.ok (), t) =>
      match Conversations.recent t h.unread h.message.channelId historyWindow with
      | .error _ => { table := t }
      | .ok history =>
        -- an answer that cannot be stored is sent all the same
        { table := (Conversations.record t h.lost h.answeredAt h.message.channelId .assistant
            (h.finalText history)).2
          calls := (h.runToolLoop history).2.calls
          outbound := some ⟨h.message.channelId, .text (h.finalText history), none⟩ }

def tableAfter (history : List (Handling ω)) : Table :=
  history.foldl (fun t h => (handleInbound rendering h t).table) []

/-! ## One message -/

section Step

variable (rendering : Rendering) (h : Handling ω) (t : Table)

def Handling.userTurn (text : String) : Turn := ⟨.user, text, h.receivedAt⟩

def Handling.assistantTurn (text : String) : Turn := ⟨.assistant, text, h.answeredAt⟩

inductive Step (rendering : Rendering) (h : Handling ω) (t : Table) : List Turn → List Call → Prop
  | skipped (incomplete : renderContentForLlm rendering h.message.content = none ∨
      h.unsaved ≠ none) : Step rendering h t [] []
  | unread {text : String} (rendered : renderContentForLlm rendering h.message.content = some text)
      (incomplete : h.unread ≠ none) : Step rendering h t [h.userTurn text] []
  | answered {text : String} {history : List Turn}
      (rendered : renderContentForLlm rendering h.message.content = some text)
      (read : Conversations.recent (t ++ [⟨h.message.channelId, h.userTurn text⟩]) none
        h.message.channelId historyWindow = .ok history) (stored : h.lost = none) :
      Step rendering h t [h.userTurn text, h.assistantTurn (h.finalText history)]
        (h.runToolLoop history).2.calls
  | lost {text : String} {history : List Turn}
      (rendered : renderContentForLlm rendering h.message.content = some text)
      (read : Conversations.recent (t ++ [⟨h.message.channelId, h.userTurn text⟩]) none
        h.message.channelId historyWindow = .ok history) (incomplete : h.lost ≠ none) :
      Step rendering h t [h.userTurn text] (h.runToolLoop history).2.calls

/-- **What a handler does to the table.** -/
theorem handleInbound_step : ∃ turns,
    (handleInbound rendering h t).table = t ++ turns.map (Row.mk h.message.channelId) ∧
      Step rendering h t turns (handleInbound rendering h t).calls := by
  unfold handleInbound
  cases rendered : renderContentForLlm rendering h.message.content with
  | none => exact ⟨[], (append_nil t).symm, .skipped (.inl rendered)⟩
  | some text =>
    simp only
    cases unsaved : h.unsaved with
    | some =>
      exact ⟨[], (append_nil t).symm, .skipped (.inr (by rw [unsaved]; nofun))⟩
    | none =>
      simp only [Conversations.record]
      cases unread : h.unread with
      | some =>
        exact ⟨[h.userTurn text], rfl, .unread rendered (by rw [unread]; nofun)⟩
      | none =>
        cases read : Conversations.recent
            (t ++ [⟨h.message.channelId, h.userTurn text⟩]) none h.message.channelId
            historyWindow with
        | error => cases read
        | ok history =>
          simp only [Handling.userTurn] at read
          simp only [read]
          cases stored : h.lost with
          | some =>
            exact ⟨[h.userTurn text], rfl,
              .lost rendered read (by rw [stored]; nofun)⟩
          | none =>
            refine ⟨[h.userTurn text, h.assistantTurn (h.finalText history)], ?_,
              .answered rendered read stored⟩
            exact append_assoc t _ _

end Step

/-! ## The turns of a channel -/

def onChannel (channelId : String) (history : List (Handling ω)) : List (Handling ω) :=
  history.filter (·.message.channelId = channelId)

variable {h : Handling ω}

section Channel

variable {rendering : Rendering} {channelId : String} (history : List (Handling ω))

theorem tableAfter_concat (h : Handling ω) :
    tableAfter rendering (history ++ [h]) =
      (handleInbound rendering h (tableAfter rendering history)).table := by
  rw [tableAfter, foldl_append]
  rfl

theorem onChannel_concat (same : h.message.channelId = channelId) :
    onChannel channelId (history ++ [h]) = onChannel channelId history ++ [h] := by
  rw [onChannel, filter_append, filter_singleton, decide_eq_true same]
  rfl

/-- **Induction over a channel**: what holds of no turns and survives every message of the channel
holds after every history. -/
theorem channel_induction {P : List (Handling ω) → List Turn → Prop} (nil : P [] [])
    (more : ∀ {earlier turns h t new calls}, P earlier turns →
      Step rendering h t new calls → P (earlier ++ [h]) (turns ++ new))
    (history : List (Handling ω)) :
    P (onChannel channelId history) (turnsOf (tableAfter rendering history) channelId) := by
  induction history using List.reverseRecOn with
  | nil => exact nil
  | append_singleton history h ih =>
    obtain ⟨new, table, step⟩ :=
      handleInbound_step rendering h (tableAfter rendering history)
    rw [tableAfter_concat, table, turnsOf_append]
    by_cases same : h.message.channelId = channelId
    · rw [onChannel_concat history same, ← same, turnsOf_self]
      rw [← same] at ih
      exact more ih step
    · rw [turnsOf_other same, append_nil, onChannel, filter_append,
        filter_singleton, decide_eq_false same]
      simpa [onChannel] using ih

def Handling.readings (h : Handling ω) : List ℕ := [h.receivedAt, h.answeredAt]

def Chronological (channelId : String) (history : List (Handling ω)) : Prop :=
  ((onChannel channelId history).flatMap Handling.readings).Pairwise (· ≤ ·)

theorem Step.stamps_sublist {t : Table} {new : List Turn} {calls : List Call}
    (step : Step rendering h t new calls) : (new.map Turn.createdAt).Sublist h.readings := by
  cases step with
  | skipped => exact nil_sublist _
  | answered => exact List.Sublist.refl _
  | unread | lost => exact (nil_sublist _).cons_cons _

theorem stamps_sublist :
    ((turnsOf (tableAfter rendering history) channelId).map Turn.createdAt).Sublist
      ((onChannel channelId history).flatMap Handling.readings) := by
  refine channel_induction (P := fun hs turns =>
    (turns.map Turn.createdAt).Sublist (hs.flatMap Handling.readings)) List.Sublist.slnil ?_ history
  intro earlier turns h t new calls ih step
  rw [map_append, flatMap_append, flatMap_singleton]
  exact ih.append step.stamps_sublist

theorem voices :
    ∀ turn ∈ turnsOf (tableAfter rendering history) channelId,
      turn.role = .user ∨ turn.role = .assistant := by
  refine channel_induction (P := fun _ turns => ∀ turn ∈ turns, turn.role = .user ∨
    turn.role = .assistant) (forall_mem_nil _) ?_ history
  intro earlier turns h t new calls ih step
  refine forall_mem_append.mpr ⟨ih, ?_⟩
  cases step with
  | skipped => exact forall_mem_nil _
  | unread | lost => exact forall_mem_singleton.mpr (.inl rfl)
  | answered => exact forall_mem_cons.mpr ⟨.inl rfl, forall_mem_singleton.mpr (.inr rfl)⟩

def Opens (turns : List Turn) : Prop := turns.head?.map Turn.role = some .user

theorem opens_of_history :
    turnsOf (tableAfter rendering history) channelId = [] ∨
      Opens (turnsOf (tableAfter rendering history) channelId) := by
  refine channel_induction (P := fun _ turns => turns = [] ∨ Opens turns) (.inl rfl) ?_ history
  intro earlier turns h t new calls ih step
  rcases ih with rfl | opens
  · rw [nil_append]
    cases step with
    | skipped => exact .inl rfl
    | unread | lost | answered => exact .inr rfl
  · cases turns with
    | nil => cases opens
    | cons first rest => exact .inr opens

structure Complete (rendering : Rendering) (h : Handling ω) : Prop where
  rendered : renderContentForLlm rendering h.message.content ≠ none
  saved : h.unsaved = none
  read : h.unread = none
  stored : h.lost = none

theorem roles_of_complete (complete : ∀ h ∈ onChannel channelId history, Complete rendering h) :
    (turnsOf (tableAfter rendering history) channelId).map Turn.role =
      (onChannel channelId history).flatMap fun _ => [.user, .assistant] := by
  revert complete
  refine channel_induction (P := fun hs turns => (∀ h ∈ hs, Complete rendering h) →
    turns.map Turn.role = hs.flatMap fun _ => [.user, .assistant]) (fun _ => rfl) ?_ history
  intro earlier turns h t new calls ih step complete
  obtain ⟨before, last⟩ := forall_mem_append.mp complete
  have whole := forall_mem_singleton.mp last
  rw [map_append, flatMap_append, flatMap_singleton, ih before]
  congr 1
  cases step with
  | skipped incomplete =>
    exact absurd incomplete (not_or.mpr ⟨whole.rendered, not_not.mpr whole.saved⟩)
  | unread _ incomplete => exact absurd whole.read incomplete
  | lost _ _ incomplete => exact absurd whole.stored incomplete
  | answered => rfl

end Channel

/-! ## What the model is asked -/

/-- A user opens, the new text ends, and no message is empty. -/
structure Accepted (messages : List Json) (text : String) : Prop where
  opens : ∃ content rest, messages = userMessage content :: rest
  ends : ∃ before, messages = before ++ [userMessage text]
  full : ∀ message ∈ messages, message.get "content" ≠ some (.string "")

theorem turnMessage_of_voice {turn : Turn} (voice : turn.role = .user ∨ turn.role = .assistant) :
    ∃ message, turnMessage turn = some message ∧
      message.get "content" = some (.string turn.content) ∧
      (turn.role = .user ↔ message = userMessage turn.content) := by
  unfold turnMessage
  rcases voice with user | assistant
  · rw [user]
    exact ⟨_, rfl, rfl, iff_of_true rfl rfl⟩
  · rw [assistant]
    refine ⟨_, rfl, rfl, iff_of_false nofun fun same => ?_⟩
    have role := congrArg (Json.strAt "role") same
    exact absurd (Option.some.inj role) (by decide)

variable {text : String} {earlier : List (Handling ω)}

theorem accepted_iff {before : List Turn} {now : ℕ}
    (spoken : ∀ turn ∈ before, turn.role = .user ∨ turn.role = .assistant) :
    Accepted ((before ++ [Turn.mk .user text now]).filterMap turnMessage) text ↔
      Opens (before ++ [Turn.mk .user text now]) ∧
        ∀ turn ∈ before ++ [Turn.mk .user text now], turn.content ≠ "" := by
  have all : ∀ turn ∈ before ++ [Turn.mk .user text now],
      turn.role = .user ∨ turn.role = .assistant :=
    forall_mem_append.mpr ⟨spoken, forall_mem_singleton.mpr (.inl rfl)⟩
  have ends : (before ++ [Turn.mk .user text now]).filterMap turnMessage =
      before.filterMap turnMessage ++ [userMessage text] := filterMap_append
  generalize before ++ [Turn.mk .user text now] = turns at all ends ⊢
  have full : (∀ message ∈ turns.filterMap turnMessage,
      message.get "content" ≠ some (.string "")) ↔ ∀ turn ∈ turns, turn.content ≠ "" := by
    constructor
    · intro each turn mem empty
      obtain ⟨message, shown, content, -⟩ := turnMessage_of_voice (all turn mem)
      refine each message (mem_filterMap.mpr ⟨turn, mem, shown⟩) ?_
      rw [content, empty]
    · intro each message mem empty
      obtain ⟨turn, held, shown⟩ := mem_filterMap.mp mem
      obtain ⟨message', shown', content, -⟩ := turnMessage_of_voice (all turn held)
      cases shown.symm.trans shown'
      exact each turn held (Json.string.inj (Option.some.inj (content.symm.trans empty)))
  have opens : (∃ content rest, turns.filterMap turnMessage = userMessage content :: rest) ↔
      Opens turns := by
    cases turns with
    | nil => exact iff_of_false nofun nofun
    | cons first rest =>
      obtain ⟨message, shown, content, user⟩ := turnMessage_of_voice (all first mem_cons_self)
      rw [filterMap_cons_some shown, Opens, head?_cons, Option.map_some,
        Option.some.injEq, user]
      constructor
      · rintro ⟨content', rest', same⟩
        obtain ⟨rfl, -⟩ := List.cons.inj same
        rw [Json.string.inj (Option.some.inj content)]
      · rintro rfl
        exact ⟨first.content, _, rfl⟩
  constructor
  · intro accepted
    exact ⟨opens.mp accepted.opens, full.mp accepted.full⟩
  · rintro ⟨opened, filled⟩
    exact ⟨opens.mpr opened, ⟨_, ends⟩, full.mpr filled⟩

def sentTurns (call : Call) : List Json := call.request.messages.asArray.getD []

theorem sentTurns_first {history : List Turn} {call : Call}
    (first : (h.runToolLoop history).2.calls.head? = some call) :
    sentTurns call = history.filterMap turnMessage := by
  rw [Handling.runToolLoop, ToolLoop.run_snd] at first
  rw [sentTurns, ToolLoop.first_sends first]
  rfl

section Window

variable {rendering : Rendering}

def window (rendering : Rendering) (earlier : List (Handling ω)) (h : Handling ω) (text : String) :
    List Turn :=
  lastTurns historyWindow
    (turnsOf (tableAfter rendering earlier) h.message.channelId ++ [h.userTurn text])

theorem window_eq (earlier : List (Handling ω)) (h : Handling ω) (text : String) :
    window rendering earlier h text =
      (turnsOf (tableAfter rendering earlier) h.message.channelId).drop
        ((turnsOf (tableAfter rendering earlier) h.message.channelId).length + 1 - historyWindow) ++
          [h.userTurn text] :=
  lastTurns_concat (by decide) _ _

theorem sentTurns_window
    (rendered : renderContentForLlm rendering h.message.content = some text)
    (ordered : Chronological h.message.channelId (earlier ++ [h])) {call : Call}
    (first : (handleInbound rendering h (tableAfter rendering earlier)).calls.head? = some call) :
    sentTurns call = (window rendering earlier h text).filterMap turnMessage := by
  have turns : turnsOf (tableAfter rendering earlier ++ [⟨h.message.channelId, h.userTurn text⟩])
      h.message.channelId =
        turnsOf (tableAfter rendering earlier) h.message.channelId ++ [h.userTurn text] := by
    rw [turnsOf_append]
    exact congrArg _ (turnsOf_self [h.userTurn text] h.message.channelId)
  have stamps : (turnsOf (tableAfter rendering earlier ++
      [⟨h.message.channelId, h.userTurn text⟩]) h.message.channelId).Pairwise
        fun a b => a.createdAt ≤ b.createdAt := by
    rw [turns, ← pairwise_map, map_append]
    refine List.Pairwise.sublist ?_ ordered
    rw [onChannel_concat earlier rfl, flatMap_append, flatMap_singleton]
    exact (stamps_sublist earlier).append ((nil_sublist _).cons_cons _)
  obtain ⟨new, -, step⟩ := handleInbound_step rendering h (tableAfter rendering earlier)
  generalize (handleInbound rendering h (tableAfter rendering earlier)).calls = calls at first step
  cases step with
  | skipped | unread => cases first
  | answered rendered' read | lost rendered' read =>
    cases rendered.symm.trans rendered'
    rw [sentTurns_first first, Conversations.recent_eq_ok stamps read, turns]
    rfl

theorem opens_of_room (text : String)
    (room : (turnsOf (tableAfter rendering earlier) h.message.channelId).length < historyWindow) :
    Opens (window rendering earlier h text) := by
  have all : (turnsOf (tableAfter rendering earlier) h.message.channelId).length + 1 -
      historyWindow = 0 := by omega
  rw [window_eq, all, drop_zero]
  have opens : turnsOf (tableAfter rendering earlier) h.message.channelId = [] ∨
    Opens (turnsOf (tableAfter rendering earlier) h.message.channelId) := opens_of_history earlier
  revert opens
  cases turnsOf (tableAfter rendering earlier) h.message.channelId with
  | nil => exact fun _ => rfl
  | cons first rest => exact fun opens => opens.resolve_left nofun

theorem Complete.exists_first_call (complete : Complete rendering h) (t : Table) :
    ∃ call, (handleInbound rendering h t).calls.head? = some call := by
  obtain ⟨new, -, step⟩ := handleInbound_step rendering h t
  generalize (handleInbound rendering h t).calls = calls at step
  cases step with
  | skipped incomplete =>
    exact absurd incomplete (not_or.mpr ⟨complete.rendered, not_not.mpr complete.saved⟩)
  | unread _ incomplete => exact absurd complete.read incomplete
  | answered | lost =>
    rw [Handling.runToolLoop, ToolLoop.run_snd]
    exact ToolLoop.exists_first_call _ _ _ _ _ (show 0 < maxToolIterations by decide)

theorem answer_at {α : Type} (messages : List α) (j : ℕ) (lt : j < messages.length) :
    (messages.flatMap fun _ => [Conversations.Role.user, .assistant])[2 * j + 1]? =
      some .assistant := by
  induction messages generalizing j with
  | nil => cases lt
  | cons _ messages ih =>
    cases j with
    | zero => rfl
    | succ j => exact ih j (Nat.lt_of_succ_lt_succ lt)

/-- **The window opens with an answer from the twenty-first message on**. -/
theorem opens_iff_of_complete (text : String)
    (complete : ∀ h' ∈ onChannel h.message.channelId earlier, Complete rendering h') :
    Opens (window rendering earlier h text) ↔
      (onChannel h.message.channelId earlier).length < 20 := by
  have roles := roles_of_complete earlier complete
  have length : (turnsOf (tableAfter rendering earlier) h.message.channelId).length =
      2 * (onChannel h.message.channelId earlier).length := by
    rw [← length_map Turn.role, roles, length_flatMap]
    simp [Nat.mul_comm]
  constructor
  · intro opens
    by_contra many
    obtain ⟨j, total⟩ := Nat.exists_eq_add_of_le (Nat.le_of_not_lt many)
    -- the window leaves out `2 * j + 1` turns: all of `j` messages and one text
    have cut : (turnsOf (tableAfter rendering earlier) h.message.channelId).length + 1 -
        historyWindow = 2 * j + 1 := by
      rw [length, historyWindow]
      omega
    have answer : ((turnsOf (tableAfter rendering earlier) h.message.channelId).map
        Turn.role)[2 * j + 1]? = some .assistant := by
      rw [roles]
      exact answer_at _ j (by omega)
    rw [getElem?_map] at answer
    obtain ⟨turn, found, role⟩ := Option.map_eq_some_iff.mp answer
    have head : (window rendering earlier h text).head? = some turn := by
      rw [window_eq, cut, head?_append, head?_drop, found]
      rfl
    rw [Opens, head, Option.map_some, role] at opens
    cases opens
  · intro few
    apply opens_of_room
    rw [length, historyWindow]
    omega

theorem accepted_window_iff
    (rendered : renderContentForLlm rendering h.message.content = some text)
    (ordered : Chronological h.message.channelId (earlier ++ [h])) {call : Call}
    (first : (handleInbound rendering h (tableAfter rendering earlier)).calls.head? = some call) :
    Accepted (sentTurns call) text ↔ Opens (window rendering earlier h text) ∧
      ∀ turn ∈ window rendering earlier h text, turn.content ≠ "" := by
  rw [sentTurns_window rendered ordered first, window_eq]
  exact accepted_iff fun turn mem => voices earlier turn (mem_of_mem_drop mem)

/-- **What the first call of a message is asked with**, where the clock does not go back: it is
accepted exactly if the window opens with a user's turn and has no empty one. -/
theorem first_call_accepted_iff (rendering : Rendering) (earlier : List (Handling ω))
    (h : Handling ω) (text : String)
    (rendered : renderContentForLlm rendering h.message.content = some text)
    (ordered : Chronological h.message.channelId (earlier ++ [h])) (call : Call)
    (first : (handleInbound rendering h (tableAfter rendering earlier)).calls.head? = some call) :
    (Accepted (sentTurns call) text ↔ Opens (window rendering earlier h text) ∧
        ∀ turn ∈ window rendering earlier h text, turn.content ≠ "") ∧
      ((turnsOf (tableAfter rendering earlier) h.message.channelId).length < historyWindow →
        Opens (window rendering earlier h text)) ∧
      ((∀ h' ∈ onChannel h.message.channelId earlier, Complete rendering h') →
        (Opens (window rendering earlier h text) ↔
          (onChannel h.message.channelId earlier).length < 20)) :=
  ⟨accepted_window_iff rendered ordered first, opens_of_room text, opens_iff_of_complete text⟩

end Window

/-! ### A chat -/

section Chat

def answering (content : List Json) : Setup Unit :=
  plainSetup {} (quietHost fun request env => (.response ⟨request.requestId, .ok,
    .object [("stop_reason", .string "end_turn"), ("content", .array content)], none⟩, env))

def hello (content : List Json) : Handling Unit where
  message := ⟨"chat", "user", "webchat", .text "hello", .startOf 2026, .null⟩
  setup := answering content
  world := ⟨(), []⟩

def hi : Json := .object [("type", .string "text"), ("text", .string "hi")]

def plainRendering : Rendering := ⟨fun _ => "", id⟩

theorem hello_complete (content : List Json) : Complete plainRendering (hello content) :=
  ⟨nofun, rfl, rfl, rfl⟩

theorem chronological_hello (contents : List (List Json)) :
    Chronological "chat" (contents.map hello) := by
  have zero : ∀ n ∈ (onChannel "chat" (contents.map hello)).flatMap Handling.readings, n = 0 := by
    intro n mem
    obtain ⟨h, held, reading⟩ := mem_flatMap.mp mem
    obtain ⟨content, -, rfl⟩ := mem_map.mp (mem_of_mem_filter held)
    simpa [Handling.readings, hello] using reading
  refine pairwise_of_forall_mem_list ?_
  intro a inA b inB
  rw [zero a inA, zero b inB]

end Chat

theorem second_hello_accepted : ∃ call,
    (handleInbound plainRendering (hello [hi])
        (tableAfter plainRendering [hello [hi]])).calls.head? =
      some call ∧ Accepted (sentTurns call) "hello" := by
  obtain ⟨call, first⟩ := (hello_complete [hi]).exists_first_call
    (tableAfter plainRendering [hello [hi]])
  refine ⟨call, first, (first_call_accepted_iff plainRendering [hello [hi]] (hello [hi]) "hello" rfl
    (chronological_hello [[hi], [hi]]) call first).1.mpr ⟨rfl, ?_⟩⟩
  have three : window plainRendering [hello [hi]] (hello [hi]) "hello" =
      [⟨.user, "hello", 0⟩, ⟨.assistant, "hi", 0⟩, ⟨.user, "hello", 0⟩] := rfl
  rw [three]
  decide

/-- After twenty answered messages the next is put after an answer; after an answer without a text,
it follows an empty message. -/
theorem later_hello_refused : (∃ call,
      (handleInbound plainRendering (hello [hi])
        (tableAfter plainRendering (List.replicate 20 (hello [hi])))).calls.head? = some call ∧
      ¬ Accepted (sentTurns call) "hello") ∧
    ∃ call,
      (handleInbound plainRendering (hello [hi])
        (tableAfter plainRendering [hello []])).calls.head? = some call ∧
      ¬ Accepted (sentTurns call) "hello" := by
  constructor
  · obtain ⟨call, first⟩ := (hello_complete [hi]).exists_first_call
      (tableAfter plainRendering (List.replicate 20 (hello [hi])))
    refine ⟨call, first, fun accepted => ?_⟩
    have opens := ((accepted_window_iff rfl (chronological_hello (List.replicate 21 [hi]))
      first).mp accepted).1
    have few := (opens_iff_of_complete "hello" fun h mem => ?_).mp opens
    · exact absurd few (by decide)
    · rw [eq_of_mem_replicate (mem_of_mem_filter mem)]
      exact hello_complete [hi]
  · obtain ⟨call, first⟩ := (hello_complete [hi]).exists_first_call
      (tableAfter plainRendering [hello []])
    refine ⟨call, first, fun accepted => ?_⟩
    have full := ((accepted_window_iff rfl (chronological_hello [[], [hi]]) first).mp accepted).2
    have three : window plainRendering [hello []] (hello [hi]) "hello" =
        [⟨.user, "hello", 0⟩, ⟨.assistant, "", 0⟩, ⟨.user, "hello", 0⟩] := rfl
    rw [three] at full
    exact full ⟨.assistant, "", 0⟩ (by decide) rfl

end Havn.Runtime.Inbound
