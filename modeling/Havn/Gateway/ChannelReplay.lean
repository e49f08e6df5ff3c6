import Mathlib.Data.List.Chain
import Havn.Gateway.ChannelRouter
import Havn.Lib.Window

/-!
# The replay buffer of an account

The calls on one account of `channel_router.rs`, one after the other.  Beside the router a `Trace`
keeps every frame that was ever numbered, with the time it was buffered, and the numbers that
`deliver` returned.
-/

namespace Havn.Gateway.ChannelReplay

open Lib Proto ChannelRouter List

inductive Call
  | register (tx : ℕ)
  | unregister
  | deliver (alive : ℕ → Bool) (now insertedAt : ℕ) (senderId : String)
      (inReplyTo : Option String) (content : ChannelMessageContent)
  | replaySince (now : ℕ) (sinceSeq : UInt64)

def Call.readings : Call → List ℕ
  | .register _ | .unregister => []
  | .deliver _ now insertedAt .. => [now, insertedAt]
  | .replaySince now _ => [now]

def Call.isDeliver : Call → Bool
  | .deliver .. => true
  | _ => false

structure Trace where
  router : ChannelRouter := {}
  numbered : List ReplayEntry := []
  returned : List UInt64 := []

def numberedBy (router : ChannelRouter) (now insertedAt : ℕ) (key : AccountKey) (senderId : String)
    (inReplyTo : Option String) (content : ChannelMessageContent) : List ReplayEntry :=
  match router.prepare now insertedAt key.channel key.accountId senderId inReplyTo content with
  | .ok (_, _, frame) => [⟨frame.seq, frame, insertedAt⟩]
  | .error _ => []

def returnedSeq : Except DeliverError Push → List UInt64
  | .ok push => [push.frame.seq]
  | .error _ => []

def Trace.call (key : AccountKey) (trace : Trace) : Call → Trace
  | .register tx => { trace with router := trace.router.register key tx }
  | .unregister => { trace with router := trace.router.unregister key }
  | .deliver alive now insertedAt senderId inReplyTo content =>
    let (router, result) := trace.router.deliverAt alive now insertedAt key.channel key.accountId
      senderId inReplyTo content
    { router
      numbered := trace.numbered ++
        numberedBy trace.router now insertedAt key senderId inReplyTo content
      returned := trace.returned ++ returnedSeq result }
  | .replaySince now sinceSeq =>
    { trace with router := (trace.router.replaySince now key sinceSeq).1 }

def trace (key : AccountKey) (calls : List Call) : Trace :=
  calls.foldl (Trace.call key) {}

def Timed (calls : List Call) : Prop :=
  (calls.flatMap Call.readings).Pairwise (· ≤ ·)

/-! ## The invariant -/

def aged (now : ℕ) (entry : ReplayEntry) : Bool :=
  decide (replayWindow < now - entry.insertedAt)

theorem aged_mono {now later : ℕ} (le : now ≤ later) {entry : ReplayEntry}
    (isAged : aged now entry = true) : aged later entry = true := by
  unfold aged at *
  simp only [decide_eq_true_eq] at *
  omega

def Counted (numbered : List ReplayEntry) : Prop :=
  ∀ i entry, numbered[i]? = some entry → entry.seq.toNat = i + 1 ∧ entry.frame.seq = entry.seq

structure Sound (key : AccountKey) (clock : ℕ) (t : Trace) : Prop where
  counted : Counted t.numbered
  timed : t.numbered.Pairwise fun earlier later => earlier.insertedAt ≤ later.insertedAt
  past : ∀ entry ∈ t.numbered, entry.insertedAt ≤ clock
  unknown : t.router.inner.lookup key = none → t.numbered = []
  retains : ∀ state, t.router.inner.lookup key = some state →
    Retains replayMaxFrames (aged clock) t.numbered state.replay
  next : ∀ state, t.router.inner.lookup key = some state →
    state.nextSeq.toNat = t.numbered.length + 1
  returned : t.returned.Sublist (t.numbered.map ReplayEntry.seq)

variable {key : AccountKey} {clock : ℕ} {t : Trace}

theorem sound_initial : Sound key 0 {} where
  counted := by simp [Counted]
  timed := .nil
  past := by simp
  unknown := fun _ => rfl
  retains := nofun
  next := nofun
  returned := .slnil

section

variable (inv : Sound key clock t)

include inv

theorem Sound.dropWhile_aged {buffer : List ReplayEntry} (part : buffer.Sublist t.numbered)
    (now : ℕ) : evictAged now buffer = buffer.filter fun entry => !aged now entry := by
  refine dropWhile_eq_filter ((inv.timed.sublist part).imp fun {earlier later} le isAged => ?_)
  simp only [decide_eq_true_eq] at *
  omega

theorem Sound.later {now : ℕ} (le : clock ≤ now) : Sound key now t where
  __ := inv
  past := fun entry mem => (inv.past entry mem).trans le
  retains := fun state found => (inv.retains state found).imp fun _ => aged_mono le

theorem Sound.insert {old new : AccountState}
    (found : t.router.inner.lookup key = some old) (next : new.nextSeq = old.nextSeq)
    (retains : Retains replayMaxFrames (aged clock) t.numbered new.replay) :
    Sound key clock { t with router := ⟨t.router.inner.insert key new⟩ } where
  __ := inv
  unknown := by
    intro absent
    rw [AList.lookup_insert] at absent
    cases absent
  retains := by
    intro state held
    cases (AList.lookup_insert _).symm.trans held
    exact retains
  next := by
    intro state held
    cases (AList.lookup_insert _).symm.trans held
    rw [next]
    exact inv.next old found

theorem Sound.register (tx : ℕ) :
    Sound key clock { t with router := t.router.register key tx } := by
  unfold ChannelRouter.register
  split
  · rename_i state found
    exact inv.insert found rfl (inv.retains state found)
  · rename_i absent
    have unsent : t.numbered = [] := inv.unknown absent
    constructor
    · exact inv.counted
    · exact inv.timed
    · exact inv.past
    · exact fun _ => unsent
    · intro state held
      cases (AList.lookup_insert _).symm.trans held
      show Retains _ _ t.numbered []
      rw [unsent]
      exact .nil
    · intro state held
      cases (AList.lookup_insert _).symm.trans held
      show (1 : UInt64).toNat = t.numbered.length + 1
      rw [unsent]
      rfl
    · exact inv.returned

theorem Sound.unregister : Sound key clock { t with router := t.router.unregister key } := by
  unfold ChannelRouter.unregister
  split
  · rename_i state found
    exact inv.insert found rfl (inv.retains state found)
  · exact inv

theorem Sound.replaySince {now : ℕ} (le : clock ≤ now) (sinceSeq : UInt64) :
    Sound key now { t with router := (t.router.replaySince now key sinceSeq).1 } := by
  unfold ChannelRouter.replaySince
  split
  · exact inv.later le
  · rename_i state found
    exact (inv.later le).insert found rfl ((inv.later le).retains state found).evict

end

section Deliver

variable (alive : ℕ → Bool) (now insertedAt : ℕ) (senderId : String)
  (inReplyTo : Option String) (content : ChannelMessageContent)

theorem call_deliver_of_lookup {state : AccountState} {tx : ℕ}
    (found : t.router.inner.lookup key = some state) (connected : state.tx = some tx) :
    ∃ frame : ChannelOutbound, frame.seq = state.nextSeq ∧
      t.call key (.deliver alive now insertedAt senderId inReplyTo content) =
        { router := ⟨t.router.inner.insert key { state with
            nextSeq := saturatingSucc state.nextSeq
            replay := pushReplay now insertedAt state.replay state.nextSeq frame }⟩
          numbered := t.numbered ++ [⟨state.nextSeq, frame, insertedAt⟩]
          returned := t.returned ++ if alive tx then [state.nextSeq] else [] } := by
  refine ⟨⟨state.nextSeq, key.accountId, senderId, inReplyTo, content⟩, rfl, ?_⟩
  simp only [Trace.call, numberedBy, deliverAt, prepare, found, connected]
  cases alive tx <;> rfl

theorem call_deliver_of_not_connected (absent : t.router.target key = none) :
    t.call key (.deliver alive now insertedAt senderId inReplyTo content) = t := by
  simp only [Trace.call, numberedBy, deliverAt, prepare_of_target_eq_none absent, returnedSeq,
    append_nil]

end Deliver

theorem toNat_saturatingSucc {n : UInt64} (fits : n.toNat + 1 < 2 ^ 64) :
    (saturatingSucc n).toNat = n.toNat + 1 := by
  have small : n.toNat + 1 < UInt64.size := fits
  rw [saturatingSucc, if_pos small, UInt64.toNat_add]
  exact Nat.mod_eq_of_lt fits

theorem le_saturatingSucc (n : UInt64) : n ≤ saturatingSucc n := by
  by_cases fits : n.toNat + 1 < UInt64.size
  · rw [UInt64.le_iff_toNat_le, toNat_saturatingSucc fits]
    exact Nat.le_succ _
  · rw [saturatingSucc, if_neg fits]
    exact UInt64.le_refl n

/-- **A delivery**, while the counter has room. -/
theorem Sound.deliver (inv : Sound key clock t) {now insertedAt : ℕ} (le : clock ≤ now)
    (le' : now ≤ insertedAt) (room : t.numbered.length + 1 < 2 ^ 64 - 1) (alive : ℕ → Bool)
    (senderId : String) (inReplyTo : Option String) (content : ChannelMessageContent) :
    Sound key insertedAt
      (t.call key (.deliver alive now insertedAt senderId inReplyTo content)) := by
  cases held : t.router.target key with
  | none =>
    rw [call_deliver_of_not_connected _ _ _ _ _ _ held]
    exact inv.later (le.trans le')
  | some tx =>
    obtain ⟨state, found, connected⟩ := Option.bind_eq_some_iff.mp held
    obtain ⟨frame, sameSeq, called⟩ := call_deliver_of_lookup alive now insertedAt senderId
      inReplyTo content found connected
    have next := inv.next state found
    rw [called]
    constructor
    · intro i entry at'
      rcases Nat.lt_or_ge i t.numbered.length with before | after
      · rw [getElem?_append_left before] at at'
        exact inv.counted i entry at'
      · rw [getElem?_append_right after] at at'
        rw [getElem?_singleton] at at'
        split at at'
        · obtain rfl := Option.some.inj at'
          exact ⟨by rw [next]; omega, sameSeq⟩
        · cases at'
    · refine pairwise_append.mpr ⟨inv.timed, pairwise_singleton _ _, ?_⟩
      rintro earlier mem _ (_ | ⟨_, ⟨⟩⟩)
      exact (inv.past earlier mem).trans (le.trans le')
    · intro entry mem
      rcases mem_append.mp mem with before | here
      · exact (inv.past entry before).trans (le.trans le')
      · obtain rfl := mem_singleton.mp here
        exact le_rfl
    · intro absent
      rw [AList.lookup_insert] at absent
      cases absent
    · intro state' held'
      cases (AList.lookup_insert _).symm.trans held'
      have evicted := ((inv.later le).retains state found).evict
      exact (evicted.push (by decide) _).imp fun _ => aged_mono le'
    · intro state' held'
      cases (AList.lookup_insert _).symm.trans held'
      rw [toNat_saturatingSucc (by omega), next, length_append]
      rfl
    · rw [map_append]
      refine inv.returned.append ?_
      cases alive tx with
      | true => exact .refl _
      | false => exact nil_sublist _

/-! ## Runs -/

theorem numbered_call (call : Call) : t.numbered <+: (t.call key call).numbered := by
  cases call with
  | deliver => exact prefix_append _ _
  | register | unregister | replaySince => exact prefix_refl _

variable (calls : List Call)

theorem numbered_foldl :
    ∀ t : Trace, t.numbered <+: (calls.foldl (Trace.call key) t).numbered := by
  induction calls with
  | nil => exact fun t => prefix_refl _
  | cons call calls ih => exact fun t => (numbered_call call).trans (ih _)

/-- **One call.** -/
theorem Sound.call (inv : Sound key clock t) {call : Call}
    (timed : (clock :: call.readings).Pairwise (· ≤ ·))
    (room : (t.call key call).numbered.length < 2 ^ 64 - 1) :
    Sound key (call.readings.getLastD clock) (t.call key call) := by
  cases call with
  | register tx => exact inv.register tx
  | unregister => exact inv.unregister
  | replaySince now sinceSeq =>
    exact inv.replaySince (rel_of_pairwise_cons timed mem_cons_self) sinceSeq
  | deliver alive now insertedAt senderId inReplyTo content =>
    have le : clock ≤ now := rel_of_pairwise_cons timed mem_cons_self
    have le' : now ≤ insertedAt := rel_of_pairwise_cons timed.tail mem_cons_self
    cases held : t.router.target key with
    | none =>
      rw [call_deliver_of_not_connected _ _ _ _ _ _ held]
      exact inv.later (le.trans le')
    | some =>
      refine inv.deliver le le' ?_ alive senderId inReplyTo content
      obtain ⟨state, found, connected⟩ := Option.bind_eq_some_iff.mp held
      obtain ⟨frame, -, called⟩ := call_deliver_of_lookup alive now insertedAt senderId
        inReplyTo content found connected
      rw [called, length_append] at room
      exact room

theorem getLastD_append (readings later : List ℕ) (clock : ℕ) :
    (readings ++ later).getLastD clock = later.getLastD (readings.getLastD clock) := by
  simp only [getLastD_eq_getLast?, getLast?_append]
  cases later.getLast? <;> rfl

theorem Sound.foldl : ∀ {t : Trace} {clock : ℕ}, Sound key clock t →
    (clock :: calls.flatMap Call.readings).Pairwise (· ≤ ·) →
    (calls.foldl (Trace.call key) t).numbered.length < 2 ^ 64 - 1 →
    Sound key ((calls.flatMap Call.readings).getLastD clock) (calls.foldl (Trace.call key) t) := by
  induction calls with
  | nil => exact fun inv _ _ => inv
  | cons call calls ih =>
    intro t clock inv timed room
    rw [flatMap_cons, ← cons_append, pairwise_append] at timed
    obtain ⟨here, later, between⟩ := timed
    have inv' := inv.call here ((numbered_foldl calls _).length_le.trans_lt room)
    rw [flatMap_cons, getLastD_append]
    refine ih inv' (pairwise_cons.mpr ⟨fun reading mem => ?_, later⟩) room
    exact between _ (getLastD_mem_cons) reading mem

theorem sound_trace {calls : List Call} (timed : Timed calls)
    (room : (trace key calls).numbered.length < 2 ^ 64 - 1) :
    Sound key ((calls.flatMap Call.readings).getLastD 0) (trace key calls) :=
  sound_initial.foldl calls (pairwise_cons.mpr ⟨fun _ _ => Nat.zero_le _, timed⟩) room

/-! ## What the numbers and the buffer promise -/

variable {numbered : List ReplayEntry}

section

variable (counted : Counted numbered)

include counted

theorem Counted.isChain :
    numbered.IsChain fun entry later => later.seq.toNat = entry.seq.toNat + 1 := by
  refine isChain_iff_getElem.mpr fun i inRange => ?_
  rw [(counted i _ (getElem?_eq_getElem (by omega))).1,
    (counted (i + 1) _ (getElem?_eq_getElem inRange)).1]

theorem Counted.pairwise : numbered.Pairwise fun entry later => entry.seq < later.seq := by
  refine pairwise_iff_getElem.mpr fun i j inRange inRange' before => ?_
  rw [UInt64.lt_iff_toNat_lt, (counted i _ (getElem?_eq_getElem inRange)).1,
    (counted j _ (getElem?_eq_getElem inRange')).1]
  omega

theorem Counted.frames_pairwise : (numbered.map (·.frame.seq)).Pairwise (· < ·) := by
  have own : ∀ entry ∈ numbered, entry.frame.seq = entry.seq := by
    intro entry mem
    obtain ⟨i, at'⟩ := mem_iff_getElem?.mp mem
    exact (counted i entry at').2
  refine pairwise_map.mpr (counted.pairwise.imp_of_mem fun {entry later} mem mem' less => ?_)
  rw [own entry mem, own later mem']
  exact less

theorem Counted.getLast? {entry : ReplayEntry}
    (last : numbered.getLast? = some entry) : entry.seq.toNat = numbered.length := by
  rw [List.getLast?_eq_getElem?] at last
  have inRange := (List.getElem?_eq_some_iff.mp last).1
  rw [(counted _ _ last).1]
  omega

end

theorem nextSeq_call {state : AccountState} (found : t.router.inner.lookup key = some state)
    (call : Call) : ∃ state', (t.call key call).router.inner.lookup key = some state' ∧
      state.nextSeq ≤ state'.nextSeq ∧
      (call.isDeliver = false → state'.nextSeq = state.nextSeq) := by
  cases call with
  | register tx =>
    refine ⟨{ state with tx := some tx }, ?_, UInt64.le_refl _, fun _ => rfl⟩
    simp only [Trace.call, ChannelRouter.register, found, AList.lookup_insert]
  | unregister =>
    refine ⟨{ state with tx := none }, ?_, UInt64.le_refl _, fun _ => rfl⟩
    simp only [Trace.call, ChannelRouter.unregister, found, AList.lookup_insert]
  | replaySince now =>
    refine ⟨{ state with replay := evictAged now state.replay }, ?_, UInt64.le_refl _, fun _ => rfl⟩
    simp only [Trace.call, ChannelRouter.replaySince, found, AList.lookup_insert]
  | deliver alive now insertedAt senderId inReplyTo content =>
    cases connected : state.tx with
    | none =>
      have absent : t.router.target key = none := by
        rw [ChannelRouter.target, found, Option.bind_some, connected]
      rw [call_deliver_of_not_connected _ _ _ _ _ _ absent]
      exact ⟨state, found, UInt64.le_refl _, fun _ => rfl⟩
    | some =>
      obtain ⟨frame, -, called⟩ := call_deliver_of_lookup alive now insertedAt senderId
        inReplyTo content found connected
      rw [called]
      refine ⟨_, AList.lookup_insert _, le_saturatingSucc state.nextSeq, fun passive => ?_⟩
      cases passive

theorem nextSeq_foldl : ∀ {t : Trace} {state : AccountState},
    t.router.inner.lookup key = some state →
    ∃ state', (calls.foldl (Trace.call key) t).router.inner.lookup key = some state' ∧
      state.nextSeq ≤ state'.nextSeq ∧
      ((∀ call ∈ calls, call.isDeliver = false) → state'.nextSeq = state.nextSeq) := by
  induction calls with
  | nil => exact fun {t state} found => ⟨state, found, UInt64.le_refl _, fun _ => rfl⟩
  | cons call calls ih =>
    intro t state found
    obtain ⟨between, found', le, same⟩ := nextSeq_call found call
    obtain ⟨state', found'', le', same'⟩ := ih found'
    refine ⟨state', found'', UInt64.le_trans le le', fun undelivered => ?_⟩
    obtain ⟨first, rest⟩ := forall_mem_cons.mp undelivered
    rw [same' rest, same first]

/-- **What the calls on an account promise.** -/
structure ReplayLaws (key : AccountKey) (calls : List Call) : Prop where
  consecutive : ∀ state, (trace key calls).router.inner.lookup key = some state →
    state.replay.IsChain fun entry later => later.seq.toNat = entry.seq.toNat + 1
  short : ∀ state, (trace key calls).router.inner.lookup key = some state →
    state.replay.length ≤ 1024
  ends : ∀ state, (trace key calls).router.inner.lookup key = some state →
    ∀ entry, state.replay.getLast? = some entry → entry.seq.toNat + 1 = state.nextSeq.toNat
  next : ∀ earlier later, calls = earlier ++ later →
    ∀ state, (trace key earlier).router.inner.lookup key = some state →
      ∃ state', (trace key calls).router.inner.lookup key = some state' ∧
        state.nextSeq ≤ state'.nextSeq ∧
        ((∀ call ∈ later, call.isDeliver = false) → state'.nextSeq = state.nextSeq)
  distinct : (trace key calls).returned.Nodup
  /-- Of the last 1024 frames those that are later than asked for and at most 300 s old. -/
  replays : ∀ now, (∀ reading ∈ calls.flatMap Call.readings, reading ≤ now) → ∀ sinceSeq,
    ((trace key calls).router.replaySince now key sinceSeq).2 =
      (((trace key calls).numbered.rtake 1024).filter fun entry =>
        sinceSeq < entry.seq ∧ now - entry.insertedAt ≤ 300 * 1000000000).map (·.frame)
  ordered : ∀ now sinceSeq,
    (((trace key calls).router.replaySince now key sinceSeq).2.map (·.seq)).Pairwise (· < ·)

theorem replaySince_of_lookup {state : AccountState}
    (found : t.router.inner.lookup key = some state) (now : ℕ) (sinceSeq : UInt64) :
    (t.router.replaySince now key sinceSeq).2 =
      ((evictAged now state.replay).filter (sinceSeq < ·.seq)).map (·.frame) := by
  simp only [ChannelRouter.replaySince, found]

theorem replaySince_of_unknown (absent : t.router.inner.lookup key = none) (now : ℕ)
    (sinceSeq : UInt64) : (t.router.replaySince now key sinceSeq).2 = [] := by
  simp only [ChannelRouter.replaySince, absent]

/-- **A replay is what the history says.** -/
theorem Sound.replays (inv : Sound key clock t) {now : ℕ} (le : clock ≤ now) (sinceSeq : UInt64) :
    (t.router.replaySince now key sinceSeq).2 =
      ((t.numbered.rtake 1024).filter fun entry =>
        sinceSeq < entry.seq ∧ now - entry.insertedAt ≤ 300 * 1000000000).map (·.frame) := by
  have recent : ∀ entry : ReplayEntry,
      (!aged now entry) = decide (now - entry.insertedAt ≤ 300 * 1000000000) := by
    intro entry
    rw [aged, ← decide_not, decide_eq_decide]
    exact Nat.not_lt
  cases found : t.router.inner.lookup key with
  | none => rw [replaySince_of_unknown found, inv.unknown found]; rfl
  | some state =>
    have retains := (inv.later le).retains state found
    have window := retains.filter_eq
    rw [replaySince_of_lookup found, inv.dropWhile_aged retains.suffix.sublist, window,
      filter_filter]
    simp only [recent, ← Bool.decide_and, replayMaxFrames]

theorem Sound.ordered (inv : Sound key clock t) (now : ℕ) (sinceSeq : UInt64) :
    ((t.router.replaySince now key sinceSeq).2.map (·.seq)).Pairwise (· < ·) := by
  cases found : t.router.inner.lookup key with
  | none =>
    rw [replaySince_of_unknown found]
    exact .nil
  | some state =>
    have part : ((evictAged now state.replay).filter (sinceSeq < ·.seq)).Sublist t.numbered :=
      filter_sublist.trans ((dropWhile_suffix _).sublist.trans
        (inv.retains state found).suffix.sublist)
    rw [replaySince_of_lookup found, map_map]
    exact inv.counted.frames_pairwise.sublist (part.map _)

/-- **The laws of an account's replay buffer**, under a clock that never goes back, as long as the
counter has room. -/
theorem replay_laws {calls : List Call} (timed : Timed calls)
    (room : (trace key calls).numbered.length < 2 ^ 64 - 1) : ReplayLaws key calls := by
  have inv := sound_trace timed room
  have isLast : ∀ now, (∀ reading ∈ calls.flatMap Call.readings, reading ≤ now) →
      (calls.flatMap Call.readings).getLastD 0 ≤ now := by
    intro now bound
    rcases mem_cons.mp (getLastD_mem_cons (l := calls.flatMap Call.readings) (a := 0))
      with none | mem
    · rw [none]
      exact Nat.zero_le now
    · exact bound _ mem
  constructor
  · exact fun state found => inv.counted.isChain.suffix (inv.retains state found).suffix
  · exact fun state found => (inv.retains state found).short
  · intro state found entry last
    rw [inv.next state found]
    obtain ⟨gone, parts⟩ := (inv.retains state found).suffix
    have last' : (trace key calls).numbered.getLast? = some entry := by
      rw [← parts, getLast?_append, last, Option.some_or]
    rw [inv.counted.getLast? last']
  · rintro earlier later rfl state found
    rw [trace, foldl_append]
    exact nextSeq_foldl later found
  · have distinct : ((trace key calls).numbered.map ReplayEntry.seq).Nodup :=
      pairwise_map.mpr (inv.counted.pairwise.imp fun less => UInt64.ne_of_lt less)
    exact distinct.sublist inv.returned
  · exact fun now bound sinceSeq => inv.replays (isLast now bound) sinceSeq
  · exact inv.ordered

/-! ### An account with one correspondent -/

def bot : AccountKey := ⟨"telegram", "bot"⟩

def reply (now : ℕ) : Call := .deliver (fun _ => true) now now "person" none (.text "hello")

def reconnects : List Call :=
  [.register 0, reply 10, .unregister, .register 1, .replaySince 20 0, reply 30]

theorem reconnects_laws : Timed reconnects ∧
    (trace bot reconnects).numbered.length < 2 ^ 64 - 1 ∧ ReplayLaws bot reconnects := by
  have timed : Timed reconnects := by
    unfold Timed
    decide
  have room : (trace bot reconnects).numbered.length < 2 ^ 64 - 1 := by decide +kernel
  exact ⟨timed, room, replay_laws timed room⟩

def replies (n : ℕ) : List Call := .register 0 :: List.replicate n (reply 0)

theorem trace_replies_succ (n : ℕ) :
    trace bot (replies (n + 1)) = (trace bot (replies n)).call bot (reply 0) := by
  rw [trace, replies, replicate_succ', ← cons_append, foldl_append]
  rfl

theorem replies_numbered (n : ℕ) : (trace bot (replies n)).numbered.length = n ∧
    ∃ state, (trace bot (replies n)).router.inner.lookup bot = some state ∧ state.tx = some 0 := by
  induction n with
  | zero => exact ⟨rfl, _, rfl, rfl⟩
  | succ n ih =>
    obtain ⟨length, state, found, connected⟩ := ih
    obtain ⟨frame, -, called⟩ := call_deliver_of_lookup (fun _ => true) 0 0 "person" none
      (.text "hello") found connected
    rw [trace_replies_succ, reply, called]
    exact ⟨by rw [length_append, length]; rfl, _, AList.lookup_insert _, connected⟩

theorem replies_timed (n : ℕ) : Timed (replies n) := by
  have zeros : ∀ reading ∈ (replies n).flatMap Call.readings, reading = 0 := by
    intro reading mem
    obtain ⟨call, isCall, isReading⟩ := mem_flatMap.mp mem
    rcases mem_cons.mp isCall with rfl | isReply
    · cases isReading
    · obtain rfl := eq_of_mem_replicate isReply
      simpa [reply, Call.readings] using isReading
  refine pairwise_iff_getElem.mpr fun i j inRange inRange' _ => ?_
  rw [zeros _ (getElem_mem inRange)]
  exact Nat.zero_le _

/-- **The last number**: the buffer then ends at the counter itself and no longer before it. -/
theorem counter_saturates : Timed (replies (2 ^ 64 - 1)) ∧
    (replies (2 ^ 64 - 1)).countP Call.isDeliver < 2 ^ 64 ∧
    ∃ state entry, (trace bot (replies (2 ^ 64 - 1))).router.inner.lookup bot = some state ∧
      state.replay.getLast? = some entry ∧ entry.seq.toNat + 1 ≠ state.nextSeq.toNat := by
  refine ⟨replies_timed _, ?_, ?_⟩
  · rw [replies, countP_cons, countP_replicate]
    decide
  · obtain ⟨length, state, found, connected⟩ := replies_numbered (2 ^ 64 - 2)
    have inv : Sound bot _ (trace bot (replies (2 ^ 64 - 2))) :=
      sound_trace (replies_timed (2 ^ 64 - 2)) (by rw [length]; decide)
    have next := inv.next state found
    rw [length] at next
    obtain ⟨frame, -, called⟩ := call_deliver_of_lookup (fun _ => true) 0 0 "person" none
      (.text "hello") found connected
    rw [show 2 ^ 64 - 1 = 2 ^ 64 - 2 + 1 by decide, trace_replies_succ, reply, called]
    refine ⟨_, ⟨state.nextSeq, frame, 0⟩, AList.lookup_insert _, getLast?_concat, ?_⟩
    have stops : saturatingSucc state.nextSeq = state.nextSeq :=
      if_neg (by rw [next]; decide)
    show state.nextSeq.toNat + 1 ≠ (saturatingSucc state.nextSeq).toNat
    rw [stops]
    exact Nat.succ_ne_self _

end Havn.Gateway.ChannelReplay
