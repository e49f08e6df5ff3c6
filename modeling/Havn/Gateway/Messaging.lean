import Havn.Gateway.ChannelApi
import Havn.Gateway.WebChat
import Havn.Lib.Machine
import Havn.Lib.Slots

/-!
# Messages between people and agents

The web console (`api/webchat_ws.rs`, `webchat.rs`), the channel adapters (`api/channel.rs`,
`channel_router.rs`) and the frames in which agents speak (`agent_socket.rs`), put together.  Every
tab and every adapter is a socket that opens, closes and breaks at any time.
-/

namespace Havn.Gateway.Messaging

open Havn.Core Lib Lib.Calendar Proto ChannelApi ChannelIdCodec ChannelRouter Config Function
open WebChat hiding DeliverError Push
open List

/-! ## The system -/

structure Setup where
  reader : UuidReader
  cfg : ChannelConfig
  newV5 : String → Uuid
  debug : MessageContent → String
  coordinate : Float → String

structure Chat where
  user : UserId
  agentId : AgentId
deriving DecidableEq

def Setup.sessionId (g : Setup) (chat : Chat) : SessionId :=
  g.newV5 ("havn-webchat:" ++ chat.user.toString ++ ":" ++ chat.agentId.toString)

/-- What reached someone, and which agent said it; `none` is the gateway. -/
inductive Pushed
  | chat (speaker : Option AgentId) (push : WebChat.Push)
  | account (speaker : AgentId) (push : ChannelRouter.Push)

def Pushed.speaker : Pushed → Option AgentId
  | .chat speaker _ => speaker
  | .account speaker _ => some speaker

structure State where
  webchat : WebChatRouter := {}
  channels : ChannelRouter := {}
  chats : List (ℕ × Chat) := []
  adapters : List (ℕ × AccountKey) := []
  mismatches : ℕ → ℕ := fun _ => 0
  ended : List ℕ := []
  nextSocket : ℕ := 0
  clock : ℕ := 0
  opened : List Chat := []
  forwarded : List (AgentId × InboundMessage) := []
  pushed : List Pushed := []

inductive Label
  | openChat (user : UserId) (agentId : AgentId)
  | chatText (n : ℕ) (text : String) (timestamp : Instant) (notSent : Option SendError)
  | closeChat (n : ℕ)
  | openAdapter (upgrade : Upgrade) (channel accountId : String)
  | adapterMessage (n : ℕ) (message : WsMessage) (world : World)
  | closeAdapter (n : ℕ)
  | breakWriter (n : ℕ)
  | outbound (agentId : AgentId) (msg : OutboundMessage)
  | wait (nanoseconds : ℕ)

/-! ## The steps -/

/-- The content of a reply as the adapters know it; what has no counterpart is
written out as text. -/
def channelContent (g : Setup) : MessageContent → ChannelMessageContent
  | .text text => .text text
  | .image url caption => .image url caption
  | .file url filename => .file url filename
  | .audio transcript _ _ => .text transcript
  | .location latitude longitude _ name _ =>
    let label := name.getD ""
    let coords := g.coordinate latitude ++ "," ++ g.coordinate longitude
    if label.isEmpty then .text ("[location: " ++ coords ++ "]")
    else .text ("[location: " ++ coords ++ " (" ++ label ++ ")]")
  | .contact displayName phoneNumber _ =>
    match phoneNumber with
    | some phone => .text ("[contact: " ++ displayName ++ " " ++ phone ++ "]")
    | none => .text ("[contact: " ++ displayName ++ "]")

namespace State

def alive (s : State) (n : ℕ) : Bool :=
  n ∉ s.ended

def chat? (s : State) (n : ℕ) : Option Chat :=
  (s.chats.find? (·.1 = n)).map Prod.snd

def adapter? (s : State) (n : ℕ) : Option AccountKey :=
  (s.adapters.find? (·.1 = n)).map Prod.snd

section

variable (g : Setup) (s : State)

def openChat (chat : Chat) : State :=
  { s with
    webchat := s.webchat.register (g.sessionId chat) chat.agentId s.nextSocket
    chats := (s.nextSocket, chat) :: s.chats
    opened := chat :: s.opened
    nextSocket := s.nextSocket + 1 }

def closeChat (n : ℕ) (chat : Chat) : State :=
  { s with
    webchat := s.webchat.unregister (g.sessionId chat)
    chats := s.chats.filter (·.1 ≠ n)
    ended := n :: s.ended }

def chatText (chat : Chat) (text : String) (timestamp : Instant) (notSent : Option SendError) :
    State :=
  let sessionId := g.sessionId chat
  match notSent with
  | none =>
    let msg : InboundMessage :=
      { channelId := sessionId.toString
        senderId := chat.user.toString
        channel := "webchat"
        content := .text text
        timestamp := timestamp }
    { s with forwarded := s.forwarded ++ [(chat.agentId, msg)] }
  | some e =>
    let notice : OutboundMessage :=
      ⟨sessionId.toString, .text ("Couldn't reach the agent: " ++ e.display), none⟩
    match s.webchat.deliver g.reader g.debug s.alive notice with
    | .ok push => { s with pushed := s.pushed ++ [.chat none push] }
    | .error _ => s

def openAdapter (session : AdapterSession) : State :=
  let key : AccountKey := ⟨session.channel, session.accountId⟩
  { s with
    channels := s.channels.register key s.nextSocket
    adapters := (s.nextSocket, key) :: s.adapters
    nextSocket := s.nextSocket + 1 }

def closeAdapter (n : ℕ) (key : AccountKey) : State :=
  { s with
    channels := s.channels.unregister key
    adapters := s.adapters.filter (·.1 ≠ n)
    ended := n :: s.ended }

def act (n : ℕ) (key : AccountKey) (message : WsMessage) : AdapterSession × Action :=
  match receive ⟨key.channel, key.accountId, s.mismatches n⟩ message with
  | (session, .answerPing) => (session, if s.alive n then .answerPing else .close)
  | result => result

def adapterMessage (n : ℕ) (key : AccountKey) (message : WsMessage) (world : World) : State :=
  match s.act n key message with
  | (_, .close) => s.closeAdapter n key
  | (session, .inbound frame) =>
    { s with
      mismatches := update s.mismatches n session.mismatches
      forwarded := s.forwarded ++ (handleInbound g.reader g.cfg world key.channel frame).toList }
  -- the frames are written to the socket itself
  | (session, .resume sinceSeq) =>
    { s with
      mismatches := update s.mismatches n session.mismatches
      channels := (s.channels.replaySince s.clock key sinceSeq).1 }
  | (session, .skip) | (session, .answerPing) =>
    { s with mismatches := update s.mismatches n session.mismatches }

/-- A frame for an account counts as soon as it is numbered: the next socket may have it
replayed. -/
def outbound (agentId : AgentId) (msg : OutboundMessage) : State :=
  if msg.channelId = "broadcast" then
    { s with pushed := s.pushed ++
        (s.webchat.broadcast g.debug s.alive agentId msg).map (.chat (some agentId)) }
  else
    match decode msg.channelId with
    | some (channel, accountId, senderId) =>
      let content := channelContent g msg.content
      let channels :=
        (s.channels.deliver s.alive s.clock channel accountId senderId msg.replyTo content).1
      match s.channels.prepare s.clock s.clock channel accountId senderId msg.replyTo content with
      | .ok (_, tx, frame) =>
        { s with
          channels
          pushed := s.pushed ++ [.account agentId ⟨⟨channel, accountId⟩, tx, frame⟩] }
      | .error _ => { s with channels }
    | none =>
      match s.webchat.deliver g.reader g.debug s.alive msg with
      | .ok push => { s with pushed := s.pushed ++ [.chat (some agentId) push] }
      | .error _ => s

end

end State

def step (g : Setup) (s : State) : Label → Option State
  | .openChat user agentId => some (s.openChat g ⟨user, agentId⟩)
  | .chatText n text timestamp notSent =>
    (s.chat? n).map fun chat => s.chatText g chat text timestamp notSent
  | .closeChat n => (s.chat? n).map fun chat => s.closeChat g n chat
  | .openAdapter upgrade channel accountId =>
    (handler g.cfg.toGatewayConfig upgrade channel accountId).toOption.map fun session =>
      s.openAdapter session
  | .adapterMessage n message world =>
    (s.adapter? n).map fun key => s.adapterMessage g n key message world
  | .closeAdapter n => (s.adapter? n).map fun key => s.closeAdapter n key
  | .breakWriter n => some { s with ended := n :: s.ended }
  | .outbound agentId msg => some (s.outbound g agentId msg)
  | .wait nanoseconds => some { s with clock := s.clock + nanoseconds }

variable {n : ℕ} {β : Type} {sockets : List (ℕ × β)}

theorem mem_of_find?_socket {b : β}
    (found : (sockets.find? (·.1 = n)).map Prod.snd = some b) : (n, b) ∈ sockets := by
  obtain ⟨⟨m, b⟩, isFirst, rfl⟩ := Option.map_eq_some_iff.mp found
  have number := find?_some isFirst
  simp only [decide_eq_true_eq] at number
  subst number
  exact mem_of_find?_eq_some isFirst

/-! ## Who an agent speaks to -/

variable {label : Label} {msg : OutboundMessage}

section Isolation

variable (g : Setup) (a : AgentId)

def Isolated : Pushed → Prop
  | .chat speaker push => ∀ agentId ∈ speaker, push.session.agentId = agentId
  | .account speaker push =>
    boundAgent g.reader g.cfg.bindings push.key.channel push.key.accountId = some speaker

instance (pushed : Pushed) : Decidable (Isolated g pushed) := by
  unfold Isolated
  split <;> infer_instance

/-- **The agent only answers**: it broadcasts or names a channel it was addressed on; and consoles
of different agents have different ids. -/
def Answers (s : State) : Label → Prop
  | .outbound agentId msg => agentId = a → msg.channelId = "broadcast" ∨
      ∃ entry ∈ s.forwarded, entry.1 = a ∧ entry.2.channelId = msg.channelId
  | .openChat user agentId => ∀ chat ∈ s.opened,
      g.sessionId chat = g.sessionId ⟨user, agentId⟩ → chat.agentId = agentId
  | _ => True

instance (s : State) (label : Label) : Decidable (Answers g a s label) := by
  unfold Answers
  split <;> infer_instance

def OwnChat (s : State) (agentId : AgentId) (channelId : String) : Prop :=
  ∃ chat ∈ s.opened, channelId = (g.sessionId chat).toString ∧ chat.agentId = agentId

def OwnAccount (agentId : AgentId) (channelId : String) : Prop :=
  ∃ channel accountId senderId, channelId = encode channel accountId senderId ∧ senderId ≠ "" ∧
    boundAgent g.reader g.cfg.bindings channel accountId = some agentId

structure Confined (s : State) : Prop where
  distinct : ∀ chat ∈ s.opened, ∀ chat' ∈ s.opened, g.sessionId chat = g.sessionId chat' →
    chat.agentId = chat'.agentId
  opened : ∀ entry ∈ s.chats, entry.2 ∈ s.opened
  entries : ∀ sessionId session, s.webchat.inner.lookup sessionId = some session →
    ∃ chat ∈ s.opened, g.sessionId chat = sessionId ∧ chat.agentId = session.agentId
  addressed : ∀ entry ∈ s.forwarded,
    OwnChat g s entry.1 entry.2.channelId ∨ OwnAccount g entry.1 entry.2.channelId
  isolated : ∀ pushed ∈ s.pushed, pushed.speaker = some a → Isolated g pushed

variable {g a} {s s' : State} {agentId : AgentId}

theorem validPart_of_boundAgent {channel accountId : String}
    (bound : boundAgent g.reader g.cfg.bindings channel accountId = some agentId) :
    ValidPart channel ∧ ValidPart accountId := by
  obtain ⟨text, found, -⟩ := Option.bind_eq_some_iff.mp bound
  obtain ⟨binding, routed, -⟩ := Option.map_eq_some_iff.mp found
  have selected := find?_some routed
  simp only [decide_eq_true_eq] at selected
  have valid := ChannelConfig.validPart_of_mem (mem_of_find?_eq_some routed)
  rw [selected.1, selected.2] at valid
  exact valid

theorem decode_of_ownAccount {channelId : String}
    (own : OwnAccount g agentId channelId) :
    ∃ channel accountId senderId, decode channelId = some (channel, accountId, senderId) ∧
      boundAgent g.reader g.cfg.bindings channel accountId = some agentId := by
  obtain ⟨channel, accountId, senderId, rfl, validSender, bound⟩ := own
  obtain ⟨validChannel, validAccount⟩ := validPart_of_boundAgent bound
  exact ⟨channel, accountId, senderId, decode_encode validChannel validAccount validSender, bound⟩

/-- What `outbound` pushes: to the agent's consoles, to an account, or to one console. -/
inductive Said (g : Setup) (s : State) (agentId : AgentId) (msg : OutboundMessage) : Pushed → Prop
  | broadcast {push : WebChat.Push}
      (sent : push ∈ s.webchat.broadcast g.debug s.alive agentId msg) :
      Said g s agentId msg (.chat (some agentId) push)
  | account {channel accountId senderId : String} {tx : ℕ} {frame : ChannelOutbound}
      (named : msg.channelId ≠ "broadcast")
      (decoded : decode msg.channelId = some (channel, accountId, senderId)) :
      Said g s agentId msg (.account agentId ⟨⟨channel, accountId⟩, tx, frame⟩)
  | chat {push : WebChat.Push} (named : msg.channelId ≠ "broadcast")
      (notAccount : decode msg.channelId = none)
      (delivered : s.webchat.deliver g.reader g.debug s.alive msg = .ok push) :
      Said g s agentId msg (.chat (some agentId) push)

theorem Said.speaker {pushed : Pushed} (said : Said g s agentId msg pushed) :
    pushed.speaker = some agentId := by
  cases said <;> rfl

theorem outbound_spec (g : Setup) (s : State) (agentId : AgentId) (msg : OutboundMessage) :
    ∃ channels pushes, s.outbound g agentId msg =
        { s with channels := channels, pushed := s.pushed ++ pushes } ∧
      channels.target = s.channels.target ∧ ∀ pushed ∈ pushes, Said g s agentId msg pushed := by
  unfold State.outbound
  split
  · refine ⟨s.channels, _, rfl, rfl, fun pushed mem => ?_⟩
    obtain ⟨push, sent, rfl⟩ := mem_map.mp mem
    exact .broadcast sent
  rename_i named
  split
  · rename_i decoded
    dsimp only
    split
    · exact ⟨_, [_], rfl, ChannelRouter.target_deliver,
        forall_mem_singleton.mpr (.account named decoded)⟩
    · exact ⟨_, [], by rw [append_nil], ChannelRouter.target_deliver, forall_mem_nil _⟩
  rename_i notAccount
  split
  · rename_i delivered
    exact ⟨_, [_], rfl, rfl, forall_mem_singleton.mpr (.chat named notAccount delivered)⟩
  · exact ⟨_, [], by rw [append_nil], rfl, forall_mem_nil _⟩

section

variable (inv : Confined g a s)

include inv

/-- **One frame.**  An id that the agent was addressed on leads back to what is
bound to it. -/
theorem Confined.isolated_of_said {pushed : Pushed} (said : Said g s agentId msg pushed)
    (answers : msg.channelId = "broadcast" ∨
      OwnChat g s agentId msg.channelId ∨ OwnAccount g agentId msg.channelId) :
    Isolated g pushed := by
  cases said with
  | broadcast sent =>
    rintro _ ⟨⟩
    exact WebChatRouter.agentId_of_mem_broadcast sent
  | account named decoded =>
    rcases answers.resolve_left named with ⟨chat, -, isChat, -⟩ | ownAccount
    · rw [isChat, decode_toString] at decoded
      cases decoded
    · obtain ⟨_, _, _, decoded', bound⟩ := decode_of_ownAccount ownAccount
      cases decoded'.symm.trans decoded
      exact bound
  | chat named notAccount delivered =>
    rintro _ ⟨⟩
    obtain ⟨parsed, found⟩ := WebChatRouter.lookup_of_deliver delivered
    rcases answers.resolve_left named with ⟨chat, opened, isChat, rfl⟩ | ownAccount
    · rw [isChat, g.reader.parseStr_toString] at parsed
      obtain ⟨chat', opened', same, agent⟩ := inv.entries _ _ found
      rw [← agent]
      exact inv.distinct chat' opened' chat opened (same.trans (Option.some.inj parsed).symm)
    · obtain ⟨_, _, _, decoded, -⟩ := decode_of_ownAccount ownAccount
      cases decoded.symm.trans notAccount

theorem Confined.frame (webchat : s'.webchat = s.webchat)
    (chats : s'.chats = s.chats) (opened : s'.opened = s.opened)
    (forwarded : ∀ entry ∈ s'.forwarded, entry ∈ s.forwarded ∨
      OwnChat g s entry.1 entry.2.channelId ∨ OwnAccount g entry.1 entry.2.channelId)
    (pushed : ∀ pushed ∈ s'.pushed, pushed ∈ s.pushed ∨
      (pushed.speaker = some a → Isolated g pushed)) : Confined g a s' where
  distinct := by rw [opened]; exact inv.distinct
  opened := by rw [opened, chats]; exact inv.opened
  entries := by rw [opened, webchat]; exact inv.entries
  addressed := by
    intro entry mem
    have before : OwnChat g s entry.1 entry.2.channelId ∨ OwnAccount g entry.1 entry.2.channelId :=
      (forwarded entry mem).elim (inv.addressed entry) id
    rw [OwnChat, opened]
    exact before
  isolated := by
    intro push mem speaks
    rcases pushed push mem with old | new
    · exact inv.isolated push old speaks
    · exact new speaks

theorem Confined.openChat {chat : Chat}
    (fresh : ∀ chat' ∈ s.opened, g.sessionId chat' = g.sessionId chat →
      chat'.agentId = chat.agentId) : Confined g a (s.openChat g chat) where
  distinct := by
    intro c mem c' mem' same
    rcases mem_cons.mp mem with rfl | old
    · rcases mem_cons.mp mem' with rfl | old'
      · rfl
      · exact (fresh c' old' same.symm).symm
    · rcases mem_cons.mp mem' with rfl | old'
      · exact fresh c old same
      · exact inv.distinct c old c' old' same
  opened := by
    intro entry mem
    rcases mem_cons.mp mem with rfl | old
    · exact mem_cons_self
    · exact mem_cons_of_mem _ (inv.opened entry old)
  entries := by
    intro sessionId session found
    by_cases same : sessionId = g.sessionId chat
    · subst same
      rw [State.openChat, WebChatRouter.register, AList.lookup_insert] at found
      cases found
      exact ⟨chat, mem_cons_self, rfl, rfl⟩
    · rw [State.openChat, WebChatRouter.register, AList.lookup_insert_ne same] at found
      obtain ⟨chat', opened, isId, agent⟩ := inv.entries sessionId session found
      exact ⟨chat', mem_cons_of_mem _ opened, isId, agent⟩
  addressed := by
    intro entry mem
    rcases inv.addressed entry mem with ⟨chat', opened, isId, agent⟩ | account
    · exact .inl ⟨chat', mem_cons_of_mem _ opened, isId, agent⟩
    · exact .inr account
  isolated := inv.isolated

theorem Confined.closeChat (n : ℕ) (chat : Chat) :
    Confined g a (s.closeChat g n chat) where
  __ := inv
  opened := fun entry mem => inv.opened entry (mem_of_mem_filter mem)
  entries := by
    intro sessionId session found
    by_cases same : sessionId = g.sessionId chat
    · subst same
      rw [State.closeChat, WebChatRouter.unregister, AList.lookup_erase] at found
      cases found
    · rw [State.closeChat, WebChatRouter.unregister, AList.lookup_erase_ne same] at found
      exact inv.entries sessionId session found

theorem Confined.chatText {chat : Chat} (found : s.chat? n = some chat)
    (text : String) (timestamp : Instant) (notSent : Option SendError) :
    Confined g a (s.chatText g chat text timestamp notSent) := by
  cases notSent with
  | none =>
    refine inv.frame rfl rfl rfl (fun entry mem => ?_) fun _ => .inl
    rcases mem_snoc.mp mem with old | rfl
    · exact .inl old
    · exact .inr (.inl ⟨chat, inv.opened _ (mem_of_find?_socket found), rfl, rfl⟩)
  | some =>
    unfold State.chatText
    dsimp only
    split
    · refine inv.frame rfl rfl rfl (fun _ => .inl) fun pushed mem => ?_
      rcases mem_snoc.mp mem with old | rfl
      · exact .inl old
      · exact .inr nofun
    · exact inv

theorem Confined.adapterMessage (n : ℕ) (key : AccountKey)
    (message : WsMessage) (world : World) :
    Confined g a (s.adapterMessage g n key message world) := by
  unfold State.adapterMessage
  split
  case h_2 =>
    refine inv.frame rfl rfl rfl (fun entry mem => ?_) fun _ => .inl
    rcases mem_append.mp mem with old | new
    · exact .inl old
    · obtain ⟨bound, valid, -, channelId⟩ := of_handleInbound (Option.mem_toList.mp new)
      exact .inr (.inr ⟨_, _, _, channelId, valid.1, bound⟩)
  all_goals exact inv.frame rfl rfl rfl (fun _ => .inl) fun _ => .inl

end

theorem Confined.outbound (inv : Confined g a s)
    (answers : Answers g a s (.outbound agentId msg)) :
    Confined g a (s.outbound g agentId msg) := by
  obtain ⟨channels, pushes, ends, -, said⟩ := outbound_spec g s agentId msg
  rw [ends]
  refine inv.frame rfl rfl rfl (fun _ => .inl) fun pushed mem => ?_
  rcases mem_append.mp mem with old | new
  · exact .inl old
  refine .inr fun speaksA => ?_
  obtain rfl : agentId = a := Option.some.inj ((said pushed new).speaker.symm.trans speaksA)
  refine inv.isolated_of_said (said pushed new) ((answers rfl).imp_right ?_)
  rintro ⟨entry, mem, rfl, same⟩
  rw [← same]
  exact inv.addressed entry mem

/-- **One step.** -/
theorem Confined.step (inv : Confined g a s) (answers : Answers g a s label)
    (stepped : Messaging.step g s label = some s') : Confined g a s' := by
  cases label with
  | openChat =>
    cases stepped
    exact inv.openChat answers
  | chatText n text timestamp notSent =>
    obtain ⟨chat, found, rfl⟩ := Option.map_eq_some_iff.mp stepped
    exact inv.chatText found text timestamp notSent
  | closeChat n =>
    obtain ⟨chat, -, rfl⟩ := Option.map_eq_some_iff.mp stepped
    exact inv.closeChat n chat
  | openAdapter =>
    obtain ⟨session, -, rfl⟩ := Option.map_eq_some_iff.mp stepped
    exact inv.frame rfl rfl rfl (fun _ => .inl) fun _ => .inl
  | adapterMessage n message world =>
    obtain ⟨key, -, rfl⟩ := Option.map_eq_some_iff.mp stepped
    exact inv.adapterMessage n key message world
  | closeAdapter =>
    obtain ⟨key, -, rfl⟩ := Option.map_eq_some_iff.mp stepped
    exact inv.frame rfl rfl rfl (fun _ => .inl) fun _ => .inl
  | breakWriter | wait =>
    cases stepped
    exact inv.frame rfl rfl rfl (fun _ => .inl) fun _ => .inl
  | outbound =>
    cases stepped
    exact inv.outbound answers

theorem confined_initial : Confined g a {} where
  distinct := forall_mem_nil _
  opened := forall_mem_nil _
  entries := nofun
  addressed := forall_mem_nil _
  isolated := forall_mem_nil _

/-- **An agent that only answers stays with what is its own**, whatever the others send. -/
theorem replies_isolated {labels : List Label}
    (run : Run (Messaging.step g) (Answers g a) {} labels s) :
    ∀ pushed ∈ s.pushed, pushed.speaker = some a → Isolated g pushed := by
  have inv : Confined g a s :=
    run.invariant (fun _ _ _ inv answers stepped => inv.step answers stepped) confined_initial
  exact inv.isolated

end Isolation

/-! ### Two agents with a bot each -/

def helper (n : ℕ) : AgentId := ⟨uuidOf n⟩

def botId (n : ℕ) : String := "bot-" ++ toString n

def twoBots : GatewayConfig where
  channels := AList.singleton "telegram"
    { accounts := [1, 2].map fun n => ⟨botId n, "secret:channel:telegram:bot", .open', []⟩ }
  bindings := [1, 2].map fun n => ⟨(helper n).toString, "telegram", botId n⟩

def office : Setup where
  reader := .hyphenated
  cfg := { toGatewayConfig := twoBots, debug := id, validated := by decide +kernel }
  newV5 := fun name => uuidOf (name.toByteArray.data.toList.getLast?.elim 0 UInt8.toNat)
  debug := fun _ => ""
  coordinate := fun _ => ""

def desk : Chat := ⟨⟨uuidOf 1⟩, helper 1⟩

def deskOpens : Label := .openChat desk.user desk.agentId

def botConnects : Label := .openAdapter genuine "telegram" (botId 1)

def personWrites (n : ℕ) : Label :=
  .adapterMessage n
    (.text (some (.inbound ⟨1, botId 1, "m", "tg:7", .text "hello", .startOf 2026, none⟩)))
    { row := .ok none }

def speaksTwice (n : ℕ) : List Label :=
  [.outbound (helper n) ⟨(office.sessionId desk).toString, .text "hi", none⟩,
    .outbound (helper n) ⟨encode "telegram" (botId 1) "tg:7", .text "hi", none⟩]

/-- The user and the person write to agent 1, it answers both, and agent 2 joins
in unasked. -/
def conversation : List Label :=
  [deskOpens, botConnects, .chatText 0 "hello" (.startOf 2026) none, personWrites 1] ++
    speaksTwice 1 ++ speaksTwice 2

theorem helper_answers_isolated : ∃ s,
    Run (step office) (Answers office (helper 1)) {} conversation s ∧
    (s.pushed.filter (·.speaker = some (helper 1))).length = 2 ∧
    ∀ pushed ∈ s.pushed, pushed.speaker = some (helper 1) → Isolated office pushed :=
  exists_run_and (by decide +kernel) fun run _ => replies_isolated run

/-- **An outsider is heard**: addressed by nobody, agent 2 speaks at agent 1's console and through
its bot. -/
theorem outsider_heard : ∃ s,
    exec (step office) {} ([deskOpens, botConnects] ++ speaksTwice 2) = some s ∧
    s.forwarded.length = 0 ∧ s.pushed.length = 2 ∧
    ∀ pushed ∈ s.pushed, pushed.speaker = some (helper 2) ∧ ¬ Isolated office pushed :=
  exists_exec (by decide +kernel)

/-! ## Which socket hears it -/

section Sessions

variable (g : Setup)

/-- A delivery to the session goes to socket `n`, whatever the state of the others. -/
def ChatReached (s : State) (sessionId : SessionId) (n : ℕ) : Prop :=
  ∀ (alive : ℕ → Bool) (msg : OutboundMessage), alive n = true →
    g.reader.parseStr msg.channelId = some sessionId →
      ∃ push, s.webchat.deliver g.reader g.debug alive msg = .ok push ∧ push.session.tx = n

def AccountReached (s : State) (key : AccountKey) (n : ℕ) : Prop :=
  ∀ (alive : ℕ → Bool) (now : ℕ) (senderId : String) (inReplyTo : Option String)
    (content : ChannelMessageContent), alive n = true → ∃ push : ChannelRouter.Push,
      (s.channels.deliver alive now key.channel key.accountId senderId inReplyTo content).2 =
        .ok push ∧ push.tx = n

def chatKeys (s : State) : List (ℕ × SessionId) :=
  s.chats.map fun entry => (entry.1, g.sessionId entry.2)

/-- **The latest open socket of every key is the one that deliveries reach.** -/
structure KeepsReaching (s : State) : Prop where
  consoles : ∀ sessionId n, latest (chatKeys g s) sessionId = some n → ChatReached g s sessionId n
  accounts : ∀ key n, latest s.adapters key = some n → AccountReached s key n

def ChatAlone (s : State) (n : ℕ) : Prop :=
  ∀ own ∈ chatKeys g s, own.1 = n → ∀ other ∈ chatKeys g s, other.2 = own.2 → other.1 = n

def AdapterAlone (s : State) (n : ℕ) : Prop :=
  ∀ own ∈ s.adapters, own.1 = n → ∀ other ∈ s.adapters, other.2 = own.2 → other.1 = n

def EndsLoop (s : State) (n : ℕ) (message : WsMessage) : Prop :=
  ∃ own ∈ s.adapters, own.1 = n ∧ (s.act n own.2 message).2.isClose = true

def Alone (s : State) : Label → Prop
  | .closeChat n => ChatAlone g s n
  | .closeAdapter n => AdapterAlone s n
  | .adapterMessage n message _ => EndsLoop s n message → AdapterAlone s n
  | _ => True

instance (s : State) (label : Label) : Decidable (Alone g s label) := by
  unfold Alone ChatAlone AdapterAlone EndsLoop
  split <;> infer_instance

variable {g} {s s' : State}

def chatSlots (g : Setup) (s : State) : Slots SessionId :=
  ⟨s.webchat.target, chatKeys g s⟩

def adapterSlots (s : State) : Slots AccountKey :=
  ⟨s.channels.target, s.adapters⟩

theorem keepsReaching_iff :
    KeepsReaching g s ↔ (chatSlots g s).Reaches ∧ (adapterSlots s).Reaches := by
  constructor
  · rintro ⟨consoles, accounts⟩
    exact ⟨fun id n => WebChatRouter.deliver_reaches_iff.mpr ∘ consoles id n,
      fun key n => ChannelRouter.deliver_reaches_iff.mpr ∘ accounts key n⟩
  · rintro ⟨consoles, accounts⟩
    exact ⟨fun id n => WebChatRouter.deliver_reaches_iff.mp ∘ consoles id n,
      fun key n => ChannelRouter.deliver_reaches_iff.mp ∘ accounts key n⟩

structure Numbered (s : State) : Prop where
  chats : (s.chats.map Prod.fst).Nodup
  adapters : (s.adapters.map Prod.fst).Nodup
  chatsBelow : ∀ entry ∈ s.chats, entry.1 < s.nextSocket
  adaptersBelow : ∀ entry ∈ s.adapters, entry.1 < s.nextSocket

/-! ### What the steps do to the slots -/

theorem chatSlots_openChat (chat : Chat) :
    chatSlots g (s.openChat g chat) = (chatSlots g s).opened s.nextSocket (g.sessionId chat) := by
  rw [chatSlots, State.openChat, WebChatRouter.target_register]
  rfl

theorem chatSlots_closeChat (n : ℕ) (chat : Chat) :
    chatSlots g (s.closeChat g n chat) = (chatSlots g s).closed n (g.sessionId chat) := by
  rw [chatSlots, State.closeChat, WebChatRouter.target_unregister, chatKeys]
  rw [Slots.closed, chatSlots, chatKeys, filter_map]
  rfl

theorem adapterSlots_openAdapter (session : AdapterSession) :
    adapterSlots (s.openAdapter session) =
      (adapterSlots s).opened s.nextSocket ⟨session.channel, session.accountId⟩ := by
  rw [adapterSlots, State.openAdapter, ChannelRouter.target_register]
  rfl

theorem adapterSlots_closeAdapter (n : ℕ) (key : AccountKey) :
    adapterSlots (s.closeAdapter n key) = (adapterSlots s).closed n key := by
  rw [adapterSlots, State.closeAdapter, ChannelRouter.target_unregister]
  rfl

theorem adapterSlots_adapterMessage {key : AccountKey} {message : WsMessage} {world : World}
    (goesOn : (s.act n key message).2.isClose = false) :
    adapterSlots (s.adapterMessage g n key message world) = adapterSlots s := by
  unfold State.adapterMessage
  split
  · rename_i ends
    rw [ends] at goesOn
    cases goesOn
  · rfl
  · rw [adapterSlots, ChannelRouter.target_replaySince]
    rfl
  · rfl
  · rfl

/-! ### One step -/

/-- What a step does to the sockets, and what it asks for if none is to be lost. -/
inductive Effect (g : Setup) (s : State) (label : Label) : State → Prop
  | openChat (chat : Chat) (free : Alone g s label) : Effect g s label (s.openChat g chat)
  | openAdapter (session : AdapterSession) (free : Alone g s label) :
      Effect g s label (s.openAdapter session)
  | closeChat {n : ℕ} {chat : Chat} (found : s.chat? n = some chat)
      (asks : Alone g s label ↔ ChatAlone g s n) : Effect g s label (s.closeChat g n chat)
  | closeAdapter {n : ℕ} {key : AccountKey} (found : s.adapter? n = some key)
      (asks : Alone g s label ↔ AdapterAlone s n) : Effect g s label (s.closeAdapter n key)
  | quiet {s' : State} (free : Alone g s label) (next : s'.nextSocket = s.nextSocket)
      (chats : s'.chats = s.chats) (webchat : s'.webchat = s.webchat)
      (adapters : adapterSlots s' = adapterSlots s) : Effect g s label s'

theorem eq_of_mem_sockets
    (distinct : (sockets.map Prod.fst).Nodup) {b c : β} (memB : (n, b) ∈ sockets)
    (memC : (n, c) ∈ sockets) : b = c :=
  (Prod.mk.inj (inj_on_of_nodup_map distinct memB memC rfl)).2

theorem effect_chatText (label : Label) (free : Alone g s label) (chat : Chat) (text : String)
    (timestamp : Instant) (notSent : Option SendError) :
    Effect g s label (s.chatText g chat text timestamp notSent) := by
  cases notSent with
  | none => exact .quiet free rfl rfl rfl rfl
  | some =>
    unfold State.chatText
    dsimp only
    split <;> exact .quiet free rfl rfl rfl rfl

theorem effect_outbound (label : Label) (free : Alone g s label) (agentId : AgentId)
    (msg : OutboundMessage) : Effect g s label (s.outbound g agentId msg) := by
  obtain ⟨channels, pushes, ends, target, -⟩ := outbound_spec g s agentId msg
  rw [ends]
  exact .quiet free rfl rfl rfl (by rw [adapterSlots, target]; rfl)

theorem effect_adapterMessage (inv : Numbered s) {key : AccountKey}
    (found : s.adapter? n = some key) (message : WsMessage) (world : World) :
    Effect g s (.adapterMessage n message world) (s.adapterMessage g n key message world) := by
  have mem := mem_of_find?_socket found
  cases ends : (s.act n key message).2.isClose with
  | true =>
    have loopEnds : EndsLoop s n message := ⟨(n, key), mem, rfl, ends⟩
    have closes : s.adapterMessage g n key message world = s.closeAdapter n key := by
      unfold State.adapterMessage
      split
      · rfl
      all_goals
        rename_i goesOn
        rw [goesOn] at ends
        cases ends
    rw [closes]
    exact .closeAdapter found ⟨fun alone => alone loopEnds, fun alone _ => alone⟩
  | false =>
    have goesOn : ¬ EndsLoop s n message := by
      rintro ⟨⟨m, key'⟩, open', rfl, closes⟩
      obtain rfl := eq_of_mem_sockets inv.adapters mem open'
      exact Bool.noConfusion (ends.symm.trans closes)
    have frame : (s.adapterMessage g n key message world).nextSocket = s.nextSocket ∧
        (s.adapterMessage g n key message world).chats = s.chats ∧
        (s.adapterMessage g n key message world).webchat = s.webchat := by
      unfold State.adapterMessage
      split <;> exact ⟨rfl, rfl, rfl⟩
    exact .quiet (fun loopEnds => absurd loopEnds goesOn) frame.1 frame.2.1 frame.2.2
      (adapterSlots_adapterMessage ends)

theorem effect_of_step (inv : Numbered s) (stepped : Messaging.step g s label = some s') :
    Effect g s label s' := by
  cases label with
  | openChat =>
    cases stepped
    exact .openChat _ trivial
  | chatText n text timestamp notSent =>
    obtain ⟨chat, -, rfl⟩ := Option.map_eq_some_iff.mp stepped
    have free : Alone g s (.chatText n text timestamp notSent) := trivial
    exact effect_chatText _ free chat text timestamp notSent
  | closeChat =>
    obtain ⟨chat, found, rfl⟩ := Option.map_eq_some_iff.mp stepped
    exact .closeChat found Iff.rfl
  | openAdapter =>
    obtain ⟨session, -, rfl⟩ := Option.map_eq_some_iff.mp stepped
    exact .openAdapter session trivial
  | adapterMessage n message world =>
    obtain ⟨key, found, rfl⟩ := Option.map_eq_some_iff.mp stepped
    exact effect_adapterMessage inv found message world
  | closeAdapter =>
    obtain ⟨key, found, rfl⟩ := Option.map_eq_some_iff.mp stepped
    exact .closeAdapter found Iff.rfl
  | breakWriter | wait =>
    cases stepped
    exact .quiet trivial rfl rfl rfl rfl
  | outbound agentId msg =>
    cases stepped
    have free : Alone g s (.outbound agentId msg) := trivial
    exact effect_outbound _ free agentId msg

theorem nodup_cons_socket {next : ℕ} (b : β)
    (distinct : (sockets.map Prod.fst).Nodup) (below : ∀ entry ∈ sockets, entry.1 < next) :
    (((next, b) :: sockets).map Prod.fst).Nodup ∧
      ∀ entry ∈ (next, b) :: sockets, entry.1 < next + 1 := by
  constructor
  · refine nodup_cons.mpr ⟨fun mem => ?_, distinct⟩
    obtain ⟨entry, inSockets, same⟩ := mem_map.mp mem
    exact absurd same (below entry inSockets).ne
  · intro entry mem
    rcases mem_cons.mp mem with rfl | old
    · exact Nat.lt_succ_self next
    · exact Nat.lt_succ_of_lt (below entry old)

theorem Numbered.step (inv : Numbered s) (stepped : Messaging.step g s label = some s') :
    Numbered s' := by
  cases effect_of_step inv stepped with
  | openChat chat =>
    obtain ⟨distinct, below⟩ := nodup_cons_socket chat inv.chats inv.chatsBelow
    exact ⟨distinct, inv.adapters, below,
      fun entry mem => Nat.lt_succ_of_lt (inv.adaptersBelow entry mem)⟩
  | openAdapter session =>
    obtain ⟨distinct, below⟩ := nodup_cons_socket
      (⟨session.channel, session.accountId⟩ : AccountKey) inv.adapters inv.adaptersBelow
    exact ⟨inv.chats, distinct, fun entry mem => Nat.lt_succ_of_lt (inv.chatsBelow entry mem),
      below⟩
  | closeChat =>
    exact ⟨inv.chats.sublist (filter_sublist.map _), inv.adapters,
      fun entry mem => inv.chatsBelow entry (mem_of_mem_filter mem), inv.adaptersBelow⟩
  | closeAdapter =>
    exact ⟨inv.chats, inv.adapters.sublist (filter_sublist.map _), inv.chatsBelow,
      fun entry mem => inv.adaptersBelow entry (mem_of_mem_filter mem)⟩
  | quiet _ next chats _ adapters =>
    have adapters : s'.adapters = s.adapters := congrArg Slots.sessions adapters
    exact ⟨chats ▸ inv.chats, adapters ▸ inv.adapters, by rw [chats, next]; exact inv.chatsBelow,
      by rw [adapters, next]; exact inv.adaptersBelow⟩

/-- **One step** loses no socket exactly if it closes none while another of its
key is open. -/
theorem keepsReaching_step_iff (inv : Numbered s) (reaching : KeepsReaching g s)
    (stepped : Messaging.step g s label = some s') : KeepsReaching g s' ↔ Alone g s label := by
  obtain ⟨consoles, accounts⟩ := keepsReaching_iff.mp reaching
  rw [keepsReaching_iff]
  cases effect_of_step inv stepped with
  | openChat chat free =>
    rw [chatSlots_openChat]
    exact iff_of_true ⟨Slots.reaches_opened consoles, accounts⟩ free
  | openAdapter session free =>
    rw [adapterSlots_openAdapter]
    exact iff_of_true ⟨consoles, Slots.reaches_opened accounts⟩ free
  | closeChat found asks =>
    rename_i n chat
    have mem := mem_of_find?_socket found
    have mem' : (n, g.sessionId chat) ∈ chatKeys g s := mem_map_of_mem mem
    have own : ∀ key, (n, key) ∈ chatKeys g s → key = g.sessionId chat := by
      intro key inKeys
      obtain ⟨⟨m, chat'⟩, inChats, same⟩ := mem_map.mp inKeys
      obtain ⟨rfl, rfl⟩ := Prod.mk.inj same
      rw [eq_of_mem_sockets inv.chats mem inChats]
    rw [asks, chatSlots_closeChat, Slots.reaches_closed_iff own consoles]
    exact (and_iff_left accounts).trans (forall_alone_iff mem' own)
  | closeAdapter found asks =>
    rename_i n key
    have mem := mem_of_find?_socket found
    have own : ∀ key', (n, key') ∈ s.adapters → key' = key :=
      fun key' inAdapters => eq_of_mem_sockets inv.adapters inAdapters mem
    rw [asks, adapterSlots_closeAdapter, Slots.reaches_closed_iff own accounts]
    exact (and_iff_right consoles).trans (forall_alone_iff mem own)
  | quiet free _ chats webchat adapters =>
    have slots : chatSlots g s' = chatSlots g s := by
      rw [chatSlots, chatSlots, chatKeys, chatKeys, webchat, chats]
    rw [slots, adapters]
    exact iff_of_true ⟨consoles, accounts⟩ free

/-- **When the latest socket of every key stays reachable**: exactly when sockets of one key never
overlap at a close. -/
theorem sessions_reached_iff {labels : List Label}
    (ran : exec (Messaging.step g) {} labels = some s) :
    Always (Messaging.step g) (KeepsReaching g) {} labels ↔
      Run (Messaging.step g) (Alone g) {} labels s := by
  have numbered : Numbered {} :=
    ⟨nodup_nil, nodup_nil, forall_mem_nil _, forall_mem_nil _⟩
  have reaching : KeepsReaching g {} := ⟨nofun, nofun⟩
  exact (run_iff_always Numbered (fun _ _ _ inv _ stepped => inv.step stepped)
    (fun _ _ _ inv reaching _ stepped => keepsReaching_step_iff inv reaching stepped)
    numbered reaching (run_of_exec ran)).symm

end Sessions

/-! ### Tabs and reconnects -/

def reloads : List Label :=
  [deskOpens, botConnects, .closeChat 0, deskOpens,
    .adapterMessage 1 .readError { row := .ok none }, botConnects]

theorem reloads_reached : ∃ s, exec (step office) {} reloads = some s ∧
    s.chats.length = 1 ∧ s.adapters.length = 1 ∧
    Always (step office) (KeepsReaching office) {} reloads := by
  obtain ⟨s, run, chats, adapters⟩ : ∃ s, Run (step office) (Alone office) {} reloads s ∧
      s.chats.length = 1 ∧ s.adapters.length = 1 := exists_run (by decide +kernel)
  exact ⟨s, exec_of_run run, chats, adapters, (sessions_reached_iff (exec_of_run run)).mpr run⟩

def olderOnesGo : List Label :=
  [deskOpens, deskOpens, botConnects, botConnects, .closeChat 0, .closeAdapter 2]

/-- **The older tab takes the newer one's slot with it**: nothing can be delivered to the latest
sockets. -/
theorem latest_not_reached : ∃ s, exec (step office) {} olderOnesGo = some s ∧
    latest (chatKeys office s) (office.sessionId desk) = some 1 ∧
    latest s.adapters ⟨"telegram", botId 1⟩ = some 3 ∧ s.alive 1 = true ∧ s.alive 3 = true ∧
    (∀ content reply, s.webchat.deliver office.reader office.debug s.alive
      ⟨(office.sessionId desk).toString, content, reply⟩ =
        .error (.noSession (office.sessionId desk))) ∧
    (∀ now senderId inReplyTo content, (s.channels.deliver s.alive now "telegram" (botId 1) senderId
      inReplyTo content).2 = .error (.noSession ⟨"telegram", botId 1⟩)) ∧
    ¬ Always (step office) (KeepsReaching office) {} olderOnesGo := by
  obtain ⟨s, ran, isLatest, isLatest', alive, alive', noConsole, noAdapter⟩ :
      ∃ s, exec (step office) {} olderOnesGo = some s ∧
        latest (chatKeys office s) (office.sessionId desk) = some 1 ∧
        latest s.adapters ⟨"telegram", botId 1⟩ = some 3 ∧ s.alive 1 = true ∧ s.alive 3 = true ∧
        s.webchat.inner.lookup (office.sessionId desk) = none ∧
        s.channels.target ⟨"telegram", botId 1⟩ = none := exists_exec (by decide +kernel)
  refine ⟨s, ran, isLatest, isLatest', alive, alive', ?_, ?_, ?_⟩
  · intro content reply
    simp only [WebChatRouter.deliver, office.reader.parseStr_toString, noConsole]
  · intro now senderId inReplyTo content
    rw [ChannelRouter.deliver, ChannelRouter.deliverAt,
      ChannelRouter.prepare_of_target_eq_none noAdapter]
  · intro always
    have reaching := always olderOnesGo [] s (append_nil _).symm ran
    have held := WebChatRouter.deliver_reaches_iff.mpr (reaching.consoles _ _ isLatest)
    rw [WebChatRouter.target, noConsole] at held
    cases held

end Havn.Gateway.Messaging
