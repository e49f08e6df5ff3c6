import Havn.Gateway.Config
import Havn.Proto.Channel

/-!
# Accounts of the channel adapters

`havn-gateway/src/channel_router.rs`: for each (channel, account) the channel to the adapter's
WebSocket, the number of the next reply and the replies of the last five minutes.  The last two
survive a disconnect.
-/

namespace Havn.Gateway

open Proto Config Function

namespace ChannelRouter

def replayWindow : ℕ := 300 * 1000000000

def replayMaxFrames : ℕ := 1024

structure AccountKey where
  channel : String
  accountId : String
deriving DecidableEq

structure ReplayEntry where
  seq : UInt64
  frame : ChannelOutbound
  insertedAt : ℕ

structure AccountState where
  tx : Option ℕ
  nextSeq : UInt64 := 1
  replay : List ReplayEntry := []

end ChannelRouter

structure ChannelRouter where
  inner : AList (fun _ : ChannelRouter.AccountKey => ChannelRouter.AccountState) := ∅

namespace ChannelRouter

inductive DeliverError
  | noSession (key : AccountKey)
  | writerClosed
deriving DecidableEq

def evictAged (now : ℕ) (replay : List ReplayEntry) : List ReplayEntry :=
  replay.dropWhile fun entry => replayWindow < now - entry.insertedAt

/-- Drop what is too old, then the oldest until there is room, and append. -/
def pushReplay (now insertedAt : ℕ) (replay : List ReplayEntry) (seq : UInt64)
    (frame : ChannelOutbound) : List ReplayEntry :=
  let recent := evictAged now replay
  recent.drop (recent.length + 1 - replayMaxFrames) ++ [⟨seq, frame, insertedAt⟩]

def saturatingSucc (n : UInt64) : UInt64 :=
  if n.toNat + 1 < UInt64.size then n + 1 else n

def agentForAccount (bindings : List ChannelBindingConfig) (channel accountId : String) :
    Option String :=
  (bindings.find? fun b => b.channel = channel ∧ b.accountId = accountId).map (·.agentId)

variable (router : ChannelRouter) (key : AccountKey)

def register (tx : ℕ) : ChannelRouter :=
  match router.inner.lookup key with
  | some state => ⟨router.inner.insert key { state with tx := some tx }⟩
  | none => ⟨router.inner.insert key { tx := some tx }⟩

def unregister : ChannelRouter :=
  match router.inner.lookup key with
  | some state => ⟨router.inner.insert key { state with tx := none }⟩
  | none => router

def prepare (now insertedAt : ℕ) (channel accountId senderId : String) (inReplyTo : Option String)
    (content : ChannelMessageContent) : Except DeliverError (ChannelRouter × ℕ × ChannelOutbound) :=
  let key : AccountKey := ⟨channel, accountId⟩
  match router.inner.lookup key with
  | none => .error (.noSession key)
  | some state =>
    match state.tx with
    | none => .error (.noSession key)
    | some tx =>
      let frame : ChannelOutbound := ⟨state.nextSeq, accountId, senderId, inReplyTo, content⟩
      let state := { state with
        nextSeq := saturatingSucc state.nextSeq
        replay := pushReplay now insertedAt state.replay state.nextSeq frame }
      .ok (⟨router.inner.insert key state⟩, tx, frame)

structure Push where
  key : AccountKey
  tx : ℕ
  frame : ChannelOutbound

/-- `alive` says which sockets still receive.  A frame that cannot be sent stays buffered. -/
def deliverAt (alive : ℕ → Bool) (router : ChannelRouter) (now insertedAt : ℕ)
    (channel accountId senderId : String) (inReplyTo : Option String)
    (content : ChannelMessageContent) : ChannelRouter × Except DeliverError Push :=
  match router.prepare now insertedAt channel accountId senderId inReplyTo content with
  | .error e => (router, .error e)
  | .ok (router', tx, frame) =>
    (router', if alive tx then .ok ⟨⟨channel, accountId⟩, tx, frame⟩ else .error .writerClosed)

def deliver (alive : ℕ → Bool) (router : ChannelRouter) (now : ℕ)
    (channel accountId senderId : String) (inReplyTo : Option String)
    (content : ChannelMessageContent) : ChannelRouter × Except DeliverError Push :=
  deliverAt alive router now now channel accountId senderId inReplyTo content

def replaySince (now : ℕ) (key : AccountKey) (sinceSeq : UInt64) :
    ChannelRouter × List ChannelOutbound :=
  match router.inner.lookup key with
  | none => (router, [])
  | some state =>
    let replay := evictAged now state.replay
    (⟨router.inner.insert key { state with replay }⟩,
      (replay.filter (sinceSeq < ·.seq)).map (·.frame))

def target : Option ℕ :=
  (router.inner.lookup key).bind (·.tx)

theorem target_insert (state : AccountState) :
    target ⟨router.inner.insert key state⟩ = update router.target key state.tx := by
  funext key'
  by_cases same : key' = key
  · subst same
    rw [update_self, target, AList.lookup_insert, Option.bind_some]
  · rw [update_of_ne same, target, AList.lookup_insert_ne same, target]

theorem target_register (tx : ℕ) :
    (router.register key tx).target = update router.target key (some tx) := by
  unfold register
  split <;> exact target_insert router key _

theorem target_unregister : (router.unregister key).target = update router.target key none := by
  unfold unregister
  split
  · exact target_insert router key _
  · rename_i absent
    have noTarget : router.target key = none := by rw [target, absent, Option.bind_none]
    rw [← noTarget, update_eq_self]

section Deliver

variable {router : ChannelRouter} {channel accountId senderId : String}
  {inReplyTo : Option String} {content : ChannelMessageContent} {now insertedAt : ℕ}
  {alive : ℕ → Bool}

theorem prepare_of_target_eq_none (absent : router.target ⟨channel, accountId⟩ = none) :
    router.prepare now insertedAt channel accountId senderId inReplyTo content =
      .error (.noSession ⟨channel, accountId⟩) := by
  unfold prepare
  dsimp only
  split
  · rfl
  · rename_i state found
    rw [target, found, Option.bind_some] at absent
    rw [absent]

theorem prepare_of_target_eq_some {tx : ℕ} (held : router.target ⟨channel, accountId⟩ = some tx) :
    ∃ router' frame, router.prepare now insertedAt channel accountId senderId inReplyTo content =
      .ok (router', tx, frame) ∧ router'.target = router.target := by
  obtain ⟨state, found, socket⟩ := Option.bind_eq_some_iff.mp held
  unfold prepare
  simp only [found, socket]
  refine ⟨_, _, rfl, ?_⟩
  rw [target_insert, ← held, update_eq_self]

theorem target_deliver :
    (router.deliver alive now channel accountId senderId inReplyTo content).1.target =
      router.target := by
  unfold deliver deliverAt
  cases held : router.target ⟨channel, accountId⟩ with
  | none => rw [prepare_of_target_eq_none held]
  | some =>
    obtain ⟨router', frame, prepared, same⟩ := prepare_of_target_eq_some held
    rw [prepared]
    exact same

/-- **Which socket a delivery reaches.** -/
theorem deliver_reaches_iff {key : AccountKey} {tx : ℕ} : router.target key = some tx ↔
    ∀ (alive : ℕ → Bool) (now : ℕ) (senderId : String) (inReplyTo : Option String)
      (content : ChannelMessageContent), alive tx = true → ∃ push : Push,
        (router.deliver alive now key.channel key.accountId senderId inReplyTo content).2 =
          .ok push ∧ push.tx = tx := by
  constructor
  · intro held alive now senderId inReplyTo content isAlive
    obtain ⟨router', frame, prepared, -⟩ := prepare_of_target_eq_some held
    refine ⟨⟨key, tx, frame⟩, ?_, rfl⟩
    rw [deliver, deliverAt, prepared]
    exact if_pos isAlive
  · intro reached
    obtain ⟨push, delivered, rfl⟩ :=
      reached (fun n => n = tx) 0 "" none (.text "") (decide_eq_true rfl)
    rw [deliver, deliverAt] at delivered
    cases held : router.target key with
    | none =>
      rw [prepare_of_target_eq_none held] at delivered
      cases delivered
    | some =>
      obtain ⟨router', frame, prepared, -⟩ := prepare_of_target_eq_some held
      rw [prepared] at delivered
      dsimp only at delivered
      split at delivered
      · cases delivered
        rfl
      · cases delivered

end Deliver

theorem target_replaySince (now : ℕ) (key : AccountKey) (sinceSeq : UInt64) :
    (router.replaySince now key sinceSeq).1.target = router.target := by
  unfold replaySince
  split
  · rfl
  rename_i state found
  have held : router.target key = state.tx := by rw [target, found, Option.bind_some]
  show target _ = router.target
  rw [target_insert, ← held, update_eq_self]

end ChannelRouter

end Havn.Gateway
