import Mathlib.Algebra.Order.BigOperators.Group.List
import Havn.Core.Message
import Havn.Gateway.AgentRegistry
import Havn.Gateway.Api
import Havn.Gateway.ChannelRouter

/-!
# The adapters' WebSocket

`havn-gateway/src/api/channel.rs`: an adapter authenticates for one account of a channel.  Its
inbound frames go to the agent the account is bound to, which is started if it is not running.
-/

namespace Havn.Gateway.ChannelApi

open List

open Havn.Core Lib Lib.Calendar Proto Db Config ChannelIdCodec ChannelRouter Api

/-! ## Secret references -/

structure SecretRef where
  provider : String
  name : String
deriving DecidableEq

inductive SecretRefError
  | missingMarker (s : String)
  | missingFields (s : String)
  | emptyProvider (s : String)
  | emptyName (s : String)
deriving DecidableEq

def SecretRef.parse (s : String) : Except SecretRefError SecretRef :=
  match "secret:".toList.isPrefixOf? s.toList with
  | none => .error (.missingMarker s)
  | some body =>
    match splitOnce ':' body.reverse with
    | none => .error (.missingFields s)
    | some (name, provider) =>
      if provider.isEmpty then .error (.emptyProvider s)
      else if name.isEmpty then .error (.emptyName s)
      else .ok ⟨.ofList provider.reverse, .ofList name.reverse⟩

/-! ## Authentication -/

def tokensMatch (a b : List UInt8) : Bool :=
  if a.length ≠ b.length then false
  else (a.zip b).foldl (fun diff (x, y) => diff ||| (x ^^^ y)) 0 = 0

structure Upgrade where
  token : Option (List UInt8)
  credential : SecretRef → Except DbError (Option Credential)
  decrypt : Option (List UInt8 → Option (List UInt8))

structure AdapterSession where
  channel : String
  accountId : String
  mismatches : ℕ := 0
deriving DecidableEq

def declaredAccount (cfg : GatewayConfig) (channel accountId : String) : Option ChannelAccount :=
  (cfg.channels.lookup channel).bind fun entry => entry.accounts.find? (·.id = accountId)

def handler (cfg : GatewayConfig) (upgrade : Upgrade) (channel accountId : String) :
    Except ApiError AdapterSession :=
  match upgrade.token with
  | none => .error (.badRequest "missing X-Adapter-Token header")
  | some presented =>
    match declaredAccount cfg channel accountId with
    | none => .error .unauthorized
    | some account =>
      match SecretRef.parse account.adapterTokenRef with
      | .error _ => .error .unauthorized
      | .ok reference =>
        match upgrade.credential reference with
        | .error e => .error (.internal ("credential lookup: " ++ e.display))
        | .ok none => .error .unauthorized
        | .ok (some row) =>
          if row.enabled = false then .error .unauthorized
          else
            match upgrade.decrypt with
            | none => .error (.internal "credential decryption unavailable")
            | some decrypt =>
              match decrypt row.apiKeyCiphertext with
              | none => .error .unauthorized
              | some plaintext =>
                if tokensMatch plaintext presented then .ok { channel, accountId }
                else .error .unauthorized

theorem foldl_diff_eq_zero (pairs : List (UInt8 × UInt8)) (diff : UInt8) :
    pairs.foldl (fun diff (x, y) => diff ||| (x ^^^ y)) diff = 0 ↔
      diff = 0 ∧ ∀ pair ∈ pairs, pair.1 = pair.2 := by
  induction pairs generalizing diff with
  | nil => simp
  | cons pair pairs ih =>
    rw [foldl_cons, ih, UInt8.or_eq_zero_iff, UInt8.xor_eq_zero_iff, forall_mem_cons,
      and_assoc]

theorem tokensMatch_iff {a b : List UInt8} : tokensMatch a b = true ↔ a = b := by
  unfold tokensMatch
  split
  · rename_i length
    exact ⟨nofun, fun same => absurd (congrArg List.length same) length⟩
  · rename_i length
    rw [decide_eq_true_iff, foldl_diff_eq_zero]
    constructor
    · rintro ⟨-, same⟩
      refine ext_getElem (not_not.mp length) fun i inA inB => ?_
      refine same (a[i], b[i]) (mem_iff_getElem.mpr ⟨i, ?_, getElem_zip⟩)
      rw [length_zip]
      omega
    · rintro rfl
      refine ⟨rfl, fun pair mem => ?_⟩
      obtain ⟨i, inZip, rfl⟩ := mem_iff_getElem.mp mem
      rw [getElem_zip]

/-- **Who gets a session**: an adapter that presents the token of a declared
account. -/
theorem of_handler_eq_ok {cfg : GatewayConfig} {upgrade : Upgrade} {channel accountId : String}
    {session : AdapterSession} (upgraded : handler cfg upgrade channel accountId = .ok session) :
    session = { channel, accountId } ∧
      ∃ account reference row decrypt, declaredAccount cfg channel accountId = some account ∧
        SecretRef.parse account.adapterTokenRef = .ok reference ∧
        upgrade.credential reference = .ok (some row) ∧ row.enabled = true ∧
        upgrade.decrypt = some decrypt ∧ decrypt row.apiKeyCiphertext = upgrade.token := by
  unfold handler at upgraded
  split at upgraded
  · cases upgraded
  rename_i presented token
  split at upgraded
  · cases upgraded
  rename_i account declared
  split at upgraded
  · cases upgraded
  rename_i reference parsed
  split at upgraded
  · cases upgraded
  · cases upgraded
  rename_i row found
  split at upgraded
  · cases upgraded
  rename_i enabled
  split at upgraded
  · cases upgraded
  rename_i decrypt ring
  split at upgraded
  · cases upgraded
  rename_i plaintext decrypted
  split at upgraded
  · rename_i same
    cases upgraded
    refine ⟨rfl, account, reference, row, decrypt, declared, parsed, found, ?_, ring, ?_⟩
    · exact Bool.not_eq_false _ ▸ enabled
    · rw [decrypted, token, tokensMatch_iff.mp same]
  · cases upgraded

/-! ## Frames -/

inductive WsMessage
  | text (parsed : Option ChannelFrame)
  | close
  | ping
  | pong
  | binary
  | readError

inductive Action
  | skip
  | close
  | answerPing
  | inbound (frame : ChannelInbound)
  | resume (sinceSeq : UInt64)

def Action.isClose : Action → Bool
  | .close => true
  | _ => false

def maxAccountMismatches : ℕ := 10

def receive (session : AdapterSession) : WsMessage → AdapterSession × Action
  | .readError | .close => (session, .close)
  | .ping => (session, .answerPing)
  | .pong | .binary | .text none => (session, .skip)
  | .text (some (.inbound frame)) =>
    if frame.accountId ≠ session.accountId then
      let mismatches := session.mismatches + 1
      ({ session with mismatches },
        if maxAccountMismatches ≤ mismatches then .close else .skip)
    else (session, .inbound frame)
  | .text (some (.outbound _)) => (session, .skip)
  | .text (some (.resume frame)) => (session, .resume frame.sinceSeq)
  | .text (some .ping) => (session, .answerPing)
  | .text (some .pong) => (session, .skip)

def messageContent : ChannelMessageContent → MessageContent
  | .text text => .text text
  | .image url caption => .image url caption
  | .file url filename => .file url filename
  | .audio transcript durationSeconds url => .audio transcript durationSeconds url
  | .location latitude longitude accuracyMeters name address =>
    .location latitude longitude accuracyMeters name address
  | .contact displayName phoneNumber vcard => .contact displayName phoneNumber vcard

def inboundMessage (channel : String) (frame : ChannelInbound) : InboundMessage where
  channelId := encode channel frame.accountId frame.senderId
  senderId := frame.senderId
  channel := channel
  content := messageContent frame.content
  timestamp := frame.timestamp
  raw := frame.raw.getD .null

structure World where
  connected : Bool := true
  row : Except DbError (Option Agent)
  notStarted : Option ApiError := none
  notSent : Option SendError := none
  writerEnded : Bool := false

def boundAgent (reader : UuidReader) (bindings : List ChannelBindingConfig)
    (channel accountId : String) : Option AgentId :=
  (agentForAccount bindings channel accountId).bind reader.agentId

section Sessions

variable (reader : UuidReader) (cfg : ChannelConfig)

def handleInbound (world : World) (channel : String) (frame : ChannelInbound) :
    Option (AgentId × InboundMessage) :=
  match boundAgent reader cfg.bindings channel frame.accountId with
  | none => none
  | some agentId =>
    match validateChannelIdPart cfg.debug "sender_id" frame.senderId with
    | .error _ => none
    | .ok () =>
      let running : Bool := world.connected ||
        match world.row with
        | .ok (some _) => world.notStarted.isNone
        | .ok none | .error _ => false
      if running ∧ world.notSent = none then some (agentId, inboundMessage channel frame) else none

def serve (session : AdapterSession) : List (WsMessage × World) → List (AgentId × InboundMessage)
  | [] => []
  | (msg, world) :: rest =>
    match receive session msg with
    | (_, .close) => []
    | (session, .inbound frame) =>
      (handleInbound reader cfg world session.channel frame).toList ++ serve session rest
    | (session, .answerPing) => if world.writerEnded then [] else serve session rest
    | (session, .skip) | (session, .resume _) => serve session rest

end Sessions

section Forwarding

variable {reader : UuidReader} {cfg : ChannelConfig} {agentId : AgentId} {msg : InboundMessage}

/-- **What is forwarded**: to the bound agent, from a sender with a valid id, under the
conversation's id. -/
theorem of_handleInbound {world : World} {channel : String} {frame : ChannelInbound}
    (forwarded : handleInbound reader cfg world channel frame = some (agentId, msg)) :
    boundAgent reader cfg.bindings channel frame.accountId = some agentId ∧
      ValidPart frame.senderId ∧ msg.senderId = frame.senderId ∧
      msg.channelId = encode channel frame.accountId frame.senderId := by
  unfold handleInbound at forwarded
  split at forwarded
  · cases forwarded
  rename_i bound boundTo
  split at forwarded
  · cases forwarded
  rename_i checked
  simp only [Option.ite_none_right_eq_some, Option.some.injEq, Prod.mk.injEq] at forwarded
  obtain ⟨-, rfl, rfl⟩ := forwarded
  exact ⟨boundTo, validateChannelIdPart_eq_ok.mp checked, rfl, rfl⟩

/-- A message leaves it whose session it is, and only frames of its account are handled. -/
theorem receive_spec (session : AdapterSession) (message : WsMessage) :
    (receive session message).1.channel = session.channel ∧
      (receive session message).1.accountId = session.accountId ∧
      ∀ frame, (receive session message).2 = .inbound frame →
        frame.accountId = session.accountId := by
  -- a frame that is skipped, answered or closed upon is not handled
  have idle : ∀ action : Action, (∀ frame, action ≠ .inbound frame) →
      ∀ frame, action = .inbound frame → frame.accountId = session.accountId :=
    fun _ other frame same => absurd same (other frame)
  cases message with
  | text parsed =>
    cases parsed with
    | none => exact ⟨rfl, rfl, idle _ fun _ => Action.noConfusion⟩
    | some sent =>
      cases sent with
      | inbound =>
        simp only [receive]
        split
        · refine ⟨rfl, rfl, idle _ fun frame => ?_⟩
          split <;> exact Action.noConfusion
        · rename_i same
          refine ⟨rfl, rfl, fun frame isSent => ?_⟩
          cases isSent
          exact not_not.mp same
      | outbound | resume | ping | pong => exact ⟨rfl, rfl, idle _ fun _ => Action.noConfusion⟩
  | close | ping | pong | binary | readError =>
    exact ⟨rfl, rfl, idle _ fun _ => Action.noConfusion⟩

theorem exists_frame_of_mem_serve {messages : List (WsMessage × World)} {session : AdapterSession}
    (mem : (agentId, msg) ∈ serve reader cfg session messages) :
    ∃ world frame, frame.accountId = session.accountId ∧
      handleInbound reader cfg world session.channel frame = some (agentId, msg) := by
  induction messages generalizing session with
  | nil => cases mem
  | cons entry rest ih =>
    obtain ⟨message, world⟩ := entry
    obtain ⟨channel, account, ofAccount⟩ := receive_spec session message
    -- a session after this message has the same channel and account
    have later : (agentId, msg) ∈ serve reader cfg (receive session message).1 rest →
        ∃ world frame, frame.accountId = session.accountId ∧
          handleInbound reader cfg world session.channel frame = some (agentId, msg) := by
      intro mem
      rw [← channel, ← account]
      exact ih mem
    rw [serve] at mem
    split at mem
    · cases mem
    · rename_i received
      rw [received] at channel account ofAccount later
      rcases mem_append.mp mem with here | after
      · refine ⟨world, _, ofAccount _ rfl, ?_⟩
        rw [← channel]
        exact Option.mem_toList.mp here
      · exact later after
    · rename_i received
      rw [received] at later
      split at mem
      · cases mem
      · exact later mem
    · rename_i received
      rw [received] at later
      exact later mem
    · rename_i received
      rw [received] at later
      exact later mem

end Forwarding

/-! ## The account's policy -/

/-- The configuration does not say which sender ids are the owner's, so any answer is allowed
for. -/
def Admits (isOwner : AgentId → String → Prop) (account : ChannelAccount) (agentId : AgentId)
    (senderId : String) : Prop :=
  match account.dmPolicy with
  | .allowlist => senderId ∈ account.allowFrom
  | .open' => True
  | .ownerOnly => isOwner agentId senderId

theorem exists_validPart_not_mem (ids : List String) : ∃ id, ValidPart id ∧ id ∉ ids := by
  let longer := List.replicate ((ids.map String.length).sum + 1) 'x'
  refine ⟨.ofList longer, ⟨?_, ?_⟩, fun mem => ?_⟩
  · intro empty
    have := congrArg String.toList empty
    simp [longer] at this
  · rw [String.toList_ofList]
    intro mem
    exact absurd (eq_of_mem_replicate mem) (by decide)
  · have short := le_sum_of_mem (mem_map_of_mem (f := String.length) mem)
    rw [String.length_ofList, length_replicate] at short
    omega

section DmPolicy

variable {reader : UuidReader} {cfg : ChannelConfig} {session : AdapterSession}
  {isOwner : AgentId → String → Prop}

def PolicyEnforced (reader : UuidReader) (cfg : ChannelConfig) (session : AdapterSession)
    (isOwner : AgentId → String → Prop) : Prop :=
  ∀ account ∈ declaredAccount cfg.toGatewayConfig session.channel session.accountId,
    ∀ messages, ∀ forwarded ∈ serve reader cfg session messages,
      Admits isOwner account forwarded.1 forwarded.2.senderId

theorem exists_serve_of_validPart {agentId : AgentId} {senderId : String}
    (bound : boundAgent reader cfg.bindings session.channel session.accountId = some agentId)
    (valid : ValidPart senderId) :
    ∃ messages msg, serve reader cfg session messages = [(agentId, msg)] ∧
      msg.senderId = senderId := by
  let frame : ChannelInbound :=
    ⟨0, session.accountId, "", senderId, .text "", .startOf 1970, none⟩
  have checked : validateChannelIdPart cfg.debug "sender_id" senderId = .ok () :=
    validateChannelIdPart_eq_ok.mpr valid
  have received : receive session (.text (some (.inbound frame))) = (session, .inbound frame) :=
    if_neg (not_not.mpr rfl)
  refine ⟨[(.text (some (.inbound frame)), { row := .ok none })],
    inboundMessage session.channel frame, ?_, rfl⟩
  rw [serve, received]
  simp only [handleInbound, bound, frame, checked]
  rfl

/-- **When the policy of an authenticated adapter's account is enforced.** -/
theorem dmPolicy_enforced_iff {upgrade : Upgrade} {channel accountId : String}
    (upgraded : handler cfg.toGatewayConfig upgrade channel accountId = .ok session) :
    PolicyEnforced reader cfg session isOwner ↔
      ∀ account ∈ declaredAccount cfg.toGatewayConfig channel accountId,
        account.dmPolicy = .open' ∨ boundAgent reader cfg.bindings channel accountId = none ∨
          account.dmPolicy = .ownerOnly ∧
            ∀ agentId ∈ boundAgent reader cfg.bindings channel accountId,
              ∀ senderId, ValidPart senderId → isOwner agentId senderId := by
  obtain ⟨rfl, -⟩ := of_handler_eq_ok upgraded
  refine forall₂_congr fun account _ => ⟨fun enforced => ?_, fun harmless => ?_⟩
  · cases bound : boundAgent reader cfg.bindings channel accountId with
    | none => exact .inr (.inl rfl)
    | some agentId =>
      have admitted : ∀ senderId, ValidPart senderId → Admits isOwner account agentId senderId := by
        intro senderId valid
        have reached : ∃ messages msg, serve reader cfg { channel, accountId } messages =
            [(agentId, msg)] ∧ msg.senderId = senderId := exists_serve_of_validPart bound valid
        obtain ⟨messages, msg, forwarded, rfl⟩ := reached
        exact enforced messages (agentId, msg) (by rw [forwarded]; exact mem_singleton_self _)
      unfold Admits at admitted
      cases policy : account.dmPolicy with
      | open' => exact .inl rfl
      | allowlist =>
        rw [policy] at admitted
        obtain ⟨senderId, valid, notListed⟩ := exists_validPart_not_mem account.allowFrom
        exact absurd (admitted senderId valid) notListed
      | ownerOnly =>
        rw [policy] at admitted
        refine .inr (.inr ⟨rfl, ?_⟩)
        rintro _ ⟨⟩
        exact admitted
  · intro messages forwarded mem
    obtain ⟨world, frame, account', handled⟩ := exists_frame_of_mem_serve mem
    obtain ⟨bound, valid, sender, -⟩ := of_handleInbound handled
    rw [account'] at bound
    rcases harmless with policy | unbound | ⟨policy, owns⟩
    · rw [Admits, policy]
      trivial
    · rw [unbound] at bound
      cases bound
    · rw [Admits, policy, sender]
      exact owns _ bound _ valid

/-! ## A bot with an allowlist -/

variable (policy : DmPolicy)

def oneBot : GatewayConfig where
  channels := AList.singleton "telegram"
    { accounts := [⟨"alice-tg-bot", "secret:channel:telegram:alice-tg-bot", policy, ["tg:1"]⟩] }
  bindings := [⟨(⟨uuidOf 1⟩ : AgentId).toString, "telegram", "alice-tg-bot"⟩]

def oneBotConfig : ChannelConfig where
  toGatewayConfig := oneBot policy
  debug := id
  validated := by cases policy <;> decide +kernel

def genuine : Upgrade where
  token := some [104, 117, 110, 116, 101, 114, 50]
  credential := fun reference => .ok (some
    { id := ⟨uuidOf 1⟩
      scope := .user
      scopeId := (uuidOf 2).toString
      provider := reference.provider
      name := some reference.name
      apiKeyCiphertext := [104, 117, 110, 116, 101, 114, 50]
      createdAt := "" })
  decrypt := some some

def botSession : AdapterSession :=
  ⟨"telegram", "alice-tg-bot", 0⟩

theorem handler_genuine :
    handler (oneBotConfig policy).toGatewayConfig genuine "telegram" "alice-tg-bot" =
      .ok botSession := by
  cases policy <;> rfl

theorem openBot_enforced :
    PolicyEnforced .hyphenated (oneBotConfig .open') botSession fun _ _ => False := by
  refine (dmPolicy_enforced_iff (handler_genuine .open')).mpr ?_
  rintro account ⟨⟩
  exact .inl rfl

/-- **A stranger writes to a bot with an allowlist**, and the message reaches the agent. -/
theorem stranger_forwarded :
    handler (oneBotConfig .allowlist).toGatewayConfig genuine "telegram" "alice-tg-bot" =
        .ok botSession ∧
      ((serve .hyphenated (oneBotConfig .allowlist) botSession
        [(.text (some (.inbound
            ⟨1, "alice-tg-bot", "m", "tg:2", .text "hello", .startOf 2026, none⟩)),
          { row := .ok none })]).map fun (agentId, msg) => (agentId, msg.senderId)) =
        [(⟨uuidOf 1⟩, "tg:2")] ∧
      ∀ isOwner, ¬ PolicyEnforced .hyphenated (oneBotConfig .allowlist) botSession isOwner := by
  have forwarded : ((serve .hyphenated (oneBotConfig .allowlist) botSession
      [(.text (some (.inbound
          ⟨1, "alice-tg-bot", "m", "tg:2", .text "hello", .startOf 2026, none⟩)),
        { row := .ok none })]).map fun (agentId, msg) => (agentId, msg.senderId)) =
      [(⟨uuidOf 1⟩, "tg:2")] := by decide +kernel
  refine ⟨handler_genuine .allowlist, forwarded, fun isOwner enforced => ?_⟩
  obtain ⟨⟨agentId, msg⟩, mem, same⟩ := mem_map.mp (forwarded ▸ mem_singleton_self _)
  have admitted : msg.senderId ∈ ["tg:1"] := enforced _ rfl _ (agentId, msg) mem
  rw [(Prod.mk.inj same).2] at admitted
  exact absurd admitted (by decide)

end DmPolicy

end Havn.Gateway.ChannelApi
