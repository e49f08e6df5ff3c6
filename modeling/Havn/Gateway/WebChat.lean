import Mathlib.Data.List.AList
import Havn.Core.Ids
import Havn.Core.Message

/-!
# Sessions of the web console

`havn-gateway/src/webchat.rs`: a map from session ids to the agent a session is bound to and its
outbound channel.  A delivery takes the map's lock for the lookup and sends afterwards.
-/

namespace Havn.Gateway.WebChat

open Havn.Core Function

abbrev SessionId := Uuid

inductive ServerMessage
  | agentMessage (content : String)
  | error (message : String)
deriving DecidableEq

structure Session where
  agentId : AgentId
  tx : ℕ
deriving DecidableEq

structure WebChatRouter where
  inner : AList (fun _ : SessionId => Session) := ∅

inductive DeliverError
  | invalidChannelId (channelId : String)
  | noSession (sessionId : SessionId)
  | writerClosed
deriving DecidableEq

structure Push where
  sessionId : SessionId
  session : Session
  message : ServerMessage
deriving DecidableEq

def serverMessage (debug : MessageContent → String) : MessageContent → ServerMessage
  | .text text => .agentMessage text
  | other => .agentMessage ("(unsupported content variant: " ++ debug other ++ ")")

namespace WebChatRouter

def register (router : WebChatRouter) (sessionId : SessionId) (agentId : AgentId) (tx : ℕ) :
    WebChatRouter :=
  ⟨router.inner.insert sessionId ⟨agentId, tx⟩⟩

def unregister (router : WebChatRouter) (sessionId : SessionId) : WebChatRouter :=
  ⟨router.inner.erase sessionId⟩

section Sending

-- `alive` says which sockets' channels still have their receiving half
variable (reader : UuidReader) (debug : MessageContent → String) (alive : ℕ → Bool)

def deliver (router : WebChatRouter) (msg : OutboundMessage) : Except DeliverError Push :=
  match reader.parseStr msg.channelId with
  | none => .error (.invalidChannelId msg.channelId)
  | some sessionId =>
    match router.inner.lookup sessionId with
    | none => .error (.noSession sessionId)
    | some session =>
      if alive session.tx then .ok ⟨sessionId, session, serverMessage debug msg.content⟩
      else .error .writerClosed

def broadcast (router : WebChatRouter) (agentId : AgentId) (msg : OutboundMessage) : List Push :=
  (router.inner.entries.filter fun entry =>
    entry.2.agentId = agentId ∧ alive entry.2.tx).map fun entry =>
      ⟨entry.1, entry.2, serverMessage debug msg.content⟩

variable {reader debug alive} {router : WebChatRouter} {msg : OutboundMessage} {push : Push}

theorem lookup_of_deliver (delivered : router.deliver reader debug alive msg = .ok push) :
    reader.parseStr msg.channelId = some push.sessionId ∧
      router.inner.lookup push.sessionId = some push.session := by
  unfold deliver at delivered
  split at delivered
  · cases delivered
  rename_i sessionId parsed
  split at delivered
  · cases delivered
  rename_i session found
  split at delivered
  · cases delivered
    exact ⟨parsed, found⟩
  · cases delivered

def target (router : WebChatRouter) (sessionId : SessionId) : Option ℕ :=
  (router.inner.lookup sessionId).map Session.tx

theorem target_register (router : WebChatRouter) (sessionId : SessionId) (agentId : AgentId)
    (tx : ℕ) : (router.register sessionId agentId tx).target =
      update router.target sessionId (some tx) := by
  funext id
  by_cases same : id = sessionId
  · subst same
    rw [update_self, target, register, AList.lookup_insert, Option.map_some]
  · rw [update_of_ne same, target, register, AList.lookup_insert_ne same, target]

theorem target_unregister (router : WebChatRouter) (sessionId : SessionId) :
    (router.unregister sessionId).target = update router.target sessionId none := by
  funext id
  by_cases same : id = sessionId
  · subst same
    rw [update_self, target, unregister, AList.lookup_erase, Option.map_none]
  · rw [update_of_ne same, target, unregister, AList.lookup_erase_ne same, target]

/-- **Which socket a delivery reaches.** -/
theorem deliver_reaches_iff {sessionId : SessionId} {tx : ℕ} :
    router.target sessionId = some tx ↔
      ∀ (alive : ℕ → Bool) (msg : OutboundMessage), alive tx = true →
        reader.parseStr msg.channelId = some sessionId →
          ∃ push, router.deliver reader debug alive msg = .ok push ∧ push.session.tx = tx := by
  constructor
  · intro held alive msg isAlive parsed
    obtain ⟨session, found, rfl⟩ := Option.map_eq_some_iff.mp held
    refine ⟨⟨sessionId, session, serverMessage debug msg.content⟩, ?_, rfl⟩
    simp only [deliver, parsed, found, if_pos isAlive]
  · intro reached
    obtain ⟨push, delivered, rfl⟩ := reached (fun n => n = tx) ⟨sessionId.toString, .text "", none⟩
      (decide_eq_true rfl) (reader.parseStr_toString sessionId)
    obtain ⟨parsed, found⟩ := lookup_of_deliver delivered
    rw [reader.parseStr_toString] at parsed
    rw [target, Option.some.inj parsed, found, Option.map_some]

theorem agentId_of_mem_broadcast {agentId : AgentId}
    (mem : push ∈ router.broadcast debug alive agentId msg) : push.session.agentId = agentId := by
  obtain ⟨entry, inMap, rfl⟩ := List.mem_map.mp mem
  exact (of_decide_eq_true (List.mem_filter.mp inMap).2).1

end Sending

end WebChatRouter

end Havn.Gateway.WebChat
