import Havn.Gateway.ChannelReplay
import Havn.Lib.Machine

/-!
# What an adapter gets to see

`havn-gateway/src/api/channel.rs` (`handle_session`) over `channel_router.rs`, for one account.  An
adapter connects again and again and asks for everything after the highest number it has received.
The read loop, the deliveries and the writer take turns in any order:

* a delivery is numbered under the router's lock and queued later, perhaps behind a later one;
* a session is registered before its `Resume` is read, so replies can be queued ahead of replayed
  ones.

`adapter_obtains_frames` says what holds when neither happens, `later_frame_overtakes` what is lost.
-/

namespace Havn.Gateway.AdapterStream

open Lib Proto ChannelRouter ChannelReplay List Function

def adapterOutboundCapacity : ℕ := 64

structure Connection where
  registered : Bool := false
  requests : List UInt64 := []
  resumed : Bool := false
  replaying : List ChannelOutbound := []
  queue : List ChannelOutbound := []
  writing : Bool := true
  left : Bool := false

structure Delivery where
  tx : ℕ
  frame : ChannelOutbound

structure State where
  router : ChannelRouter := {}
  clock : ℕ := 0
  opened : ℕ := 0
  connections : ℕ → Connection := fun _ => {}
  deliveries : List Delivery := []
  numbered : List ReplayEntry := []
  current : Option ℕ := none
  highest : UInt64 := 0
  received : List (ℕ × ChannelOutbound) := []

inductive Label
  | connect
  | register (n : ℕ)
  | resume
  | read (n : ℕ)
  | queueReplay (n : ℕ)
  | number (senderId : String) (inReplyTo : Option String) (content : ChannelMessageContent)
      (pause : ℕ)
  | send (seq : UInt64)
  | receive
  | disconnect
  | leave (n : ℕ)
  | stopWriter (n : ℕ)
  | wait (pause : ℕ)

def State.set (s : State) (n : ℕ) (connection : Connection) : State :=
  { s with connections := update s.connections n connection }

def Connection.push (connection : Connection) (frame : ChannelOutbound) : Option Connection :=
  if connection.writing then
    if connection.queue.length < adapterOutboundCapacity then
      some { connection with queue := connection.queue ++ [frame] }
    else none
  else some connection

def State.connect (s : State) : Option State :=
  if s.current = none then some { s with current := some s.opened, opened := s.opened + 1 }
  else none

def State.register (key : AccountKey) (s : State) (n : ℕ) : Option State :=
  if n < s.opened ∧ (s.connections n).registered = false then
    some ({ s with router := s.router.register key n }.set n
      { s.connections n with registered := true })
  else none

def State.resume (s : State) : Option State :=
  s.current.map fun n =>
    s.set n { s.connections n with requests := (s.connections n).requests ++ [s.highest] }

def State.read (key : AccountKey) (s : State) (n : ℕ) : Option State :=
  let connection := s.connections n
  match connection.requests with
  | [] => none
  | since :: requests =>
    if connection.registered = true ∧ connection.left = false ∧
        connection.replaying.isEmpty = true then
      let (router, frames) := s.router.replaySince s.clock key since
      some ({ s with router }.set n
        { connection with requests, resumed := true, replaying := frames })
    else none

def State.queueReplay (s : State) (n : ℕ) : Option State :=
  let connection := s.connections n
  match connection.replaying with
  | [] => none
  | frame :: frames =>
    (connection.push frame).map fun pushed =>
      s.set n { pushed with replaying := if connection.writing then frames else [] }

def State.number (key : AccountKey) (s : State) (senderId : String) (inReplyTo : Option String)
    (content : ChannelMessageContent) (pause : ℕ) : State :=
  match s.router.prepare s.clock (s.clock + pause) key.channel key.accountId senderId inReplyTo
      content with
  | .error _ => s
  | .ok (router, tx, frame) =>
    { s with
      router
      clock := s.clock + pause
      deliveries := s.deliveries ++ [⟨tx, frame⟩]
      numbered := s.numbered ++ [⟨frame.seq, frame, s.clock + pause⟩] }

def State.sent (s : State) (seq : UInt64) : State :=
  { s with deliveries := s.deliveries.filter (·.frame.seq ≠ seq) }

def State.send (s : State) (seq : UInt64) : Option State :=
  match s.deliveries.find? (·.frame.seq = seq) with
  | none => none
  | some delivery =>
    ((s.connections delivery.tx).push delivery.frame).map fun pushed =>
      (s.sent seq).set delivery.tx pushed

def State.receive (s : State) : Option State :=
  match s.current with
  | none => none
  | some n =>
    match (s.connections n).queue with
    | [] => none
    | frame :: queue =>
      some ({ s with
        highest := max s.highest frame.seq
        received := s.received ++ [(n, frame)] }.set n { s.connections n with queue })

def State.leave (key : AccountKey) (s : State) (n : ℕ) : Option State :=
  let connection := s.connections n
  if connection.registered = true ∧ connection.left = false ∧
      connection.replaying.isEmpty = true then
    some ({ s with router := s.router.unregister key }.set n { connection with left := true })
  else none

def State.stopWriter (s : State) (n : ℕ) : Option State :=
  if n < s.opened then some (s.set n { s.connections n with writing := false, queue := [] })
  else none

def step (key : AccountKey) (s : State) : Label → Option State
  | .connect => s.connect
  | .register n => s.register key n
  | .resume => s.resume
  | .read n => s.read key n
  | .queueReplay n => s.queueReplay n
  | .number senderId inReplyTo content pause =>
    some (s.number key senderId inReplyTo content pause)
  | .send seq => s.send seq
  | .receive => s.receive
  | .disconnect => some { s with current := none }
  | .leave n => s.leave key n
  | .stopWriter n => s.stopWriter n
  | .wait pause => some { s with clock := s.clock + pause }

/-! ## What is asked of a run -/

def State.missing (s : State) (since : UInt64) : List ReplayEntry :=
  s.numbered.filter (since < ·.seq)

def State.Buffered (s : State) (since : UInt64) : Prop :=
  (s.missing since).length ≤ 1024 ∧
    ∀ entry ∈ s.missing since, s.clock - entry.insertedAt ≤ 300 * 1000000000
  deriving Decidable

/-- When a `Resume` is read, what it asks for is at most five minutes old and at most 1024
frames. -/
def Within (s : State) : Label → Prop
  | .read n => ∀ since ∈ (s.connections n).requests.head?, s.Buffered since
  | .number .. => s.numbered.length + 2 < 2 ^ 64
  | _ => True

instance (s : State) (a : Label) : Decidable (Within s a) := by
  unfold Within
  split
  -- not by trying all numbers
  · exact Option.decidableForallMem _
  all_goals infer_instance

def State.outstanding (s : State) (n : ℕ) : List ChannelOutbound :=
  (s.deliveries.filter (·.tx = n)).map (·.frame)

/-- On the adapter's connection one `Resume` is sent, and replies are numbered after it has been
read and queued behind what it replays, in order. -/
def Orderly (key : AccountKey) (s : State) : Label → Prop
  | .resume => ∀ n ∈ s.current,
      (s.connections n).requests.isEmpty = true ∧ (s.connections n).resumed = false
  | .number .. => ∀ n ∈ s.current, s.router.target key = some n →
      (s.connections n).resumed = true
  | .send seq => ∀ n ∈ s.current, seq ∈ (s.outstanding n).map (·.seq) →
      (s.connections n).replaying.isEmpty = true ∧
        ((s.outstanding n).map (·.seq)).head? = some seq
  | _ => True

instance (key : AccountKey) (s : State) (a : Label) : Decidable (Orderly key s a) := by
  unfold Orderly
  split <;> infer_instance

/-- The adapter is connected, its `Resume` is answered and nothing is on its way to it. -/
def Settled (key : AccountKey) (s : State) : Prop :=
  ∃ n, s.current = some n ∧ s.router.target key = some n ∧
    (s.connections n).resumed = true ∧ (s.connections n).writing = true ∧
    (s.connections n).requests = [] ∧ (s.connections n).replaying = [] ∧
    (s.connections n).queue = [] ∧ s.outstanding n = []

def State.got (s : State) : List ChannelOutbound := s.received.map (·.2)

def State.frames (s : State) : List ChannelOutbound := s.numbered.map (·.frame)

/-- **The adapter obtains what was numbered.** -/
structure Obtains (key : AccountKey) (s : State) : Prop where
  increasing : ∀ n, ((s.received.filter (·.1 = n)).map (·.2.seq)).Pairwise (· < ·)
  resumable : s.Buffered s.highest → ∀ frame ∈ s.frames,
    frame ∈ s.got ∨ frame ∈ (s.router.replaySince s.clock key s.highest).2
  complete : Settled key s → ∀ frame ∈ s.frames, frame ∈ s.got

/-! ## Numbers and the buffer -/

def State.trace (s : State) : Trace := ⟨s.router, s.numbered, []⟩

variable {key : AccountKey} {s s' : State}

theorem missing_eq_drop (counted : Counted s.numbered) (since : UInt64) :
    s.missing since = s.numbered.drop since.toNat :=
  filter_eq_drop fun i entry at' => by
    rw [decide_eq_true_eq, UInt64.lt_iff_toNat_lt, (counted i entry at').1]
    exact Nat.lt_succ_iff

theorem replaySince_of_buffered (sound : Sound key s.clock s.trace) {since : UInt64}
    (buffered : s.Buffered since) :
    (s.router.replaySince s.clock key since).2 = s.frames.drop since.toNat := by
  obtain ⟨short, young⟩ := buffered
  have all := missing_eq_drop sound.counted since
  have replays := sound.replays le_rfl since
  have enough : s.numbered.length - 1024 ≤ since.toNat := by
    rw [all, length_drop] at short
    omega
  have recent : (s.numbered.rtake 1024).filter (fun entry =>
      since < entry.seq ∧ s.clock - entry.insertedAt ≤ 300 * 1000000000) =
        s.numbered.drop since.toNat := by
    rw [List.rtake, filter_eq_drop (k := since.toNat - (s.numbered.length - 1024)),
      drop_drop, Nat.add_sub_cancel' enough]
    intro i entry at'
    rw [getElem?_drop] at at'
    have own : since < entry.seq ↔ since.toNat - (s.numbered.length - 1024) ≤ i := by
      rw [UInt64.lt_iff_toNat_lt, (sound.counted _ entry at').1]
      omega
    rw [decide_eq_true_eq, ← own, and_iff_left_iff_imp]
    intro later
    exact young entry (mem_filter.mpr
      ⟨mem_of_getElem? at', decide_eq_true later⟩)
  show (s.trace.router.replaySince s.clock key since).2 = _
  rw [replays]
  show ((s.numbered.rtake 1024).filter _).map _ = _
  rw [recent, map_drop]
  rfl

/-! ## The invariant -/

def State.inFlight (s : State) (n : ℕ) : List ChannelOutbound :=
  (s.connections n).queue ++ ((s.connections n).replaying ++ s.outstanding n)

structure Streams (key : AccountKey) (s : State) (n : ℕ) : Prop where
  opened : n < s.opened
  silent : (s.connections n).resumed = false →
    ((s.connections n).requests = [] ∨ (s.connections n).requests = [s.highest]) ∧
      s.inFlight n = []
  asked : (s.connections n).resumed = true → (s.connections n).requests = []
  /-- Then the connection carries what comes next, and all of it while replies go to it. -/
  next : (s.connections n).resumed = true → (s.connections n).writing = true →
    ∃ rest, s.got ++ s.inFlight n ++ rest = s.frames ∧ (s.router.target key = some n → rest = [])

structure Ledger (key : AccountKey) (s : State) : Prop where
  sound : Sound key s.clock s.trace
  pending : (s.deliveries.map (·.frame)).Sublist s.frames
  addressed : ∀ delivery ∈ s.deliveries, delivery.tx < s.opened
  targeted : ∀ n, s.router.target key = some n → n < s.opened
  unopened : ∀ n, s.opened ≤ n → s.connections n = {}
  unread : ∀ n, (s.connections n).registered = false → (s.connections n).resumed = false
  closed : ∀ n, (s.connections n).writing = false → (s.connections n).queue = []
  got : s.got <+: s.frames
  highest : s.highest.toNat = s.received.length

structure Safe (key : AccountKey) (s : State) : Prop extends Ledger key s where
  current : ∀ n, s.current = some n → Streams key s n

theorem safe_initial : Safe key {} where
  sound := sound_initial
  pending := .slnil
  addressed := by simp
  targeted := nofun
  unopened := fun _ _ => rfl
  unread := fun _ _ => rfl
  closed := fun _ _ => rfl
  got := prefix_refl []
  highest := rfl
  current := nofun

/-- **What a `Resume` from the highest number brings** completes what there is. -/
theorem Ledger.got_append_replay (ledger : Ledger key s) (buffered : s.Buffered s.highest) :
    s.got ++ (s.router.replaySince s.clock key s.highest).2 = s.frames := by
  have length : s.highest.toNat = s.got.length := by
    rw [ledger.highest, State.got, length_map]
  rw [replaySince_of_buffered ledger.sound buffered, length]
  obtain ⟨rest, parts⟩ := ledger.got
  rw [← parts, drop_left]

section Set

variable {n m : ℕ} {connection : Connection}

theorem connections_set : (s.set n connection).connections m =
    if m = n then connection else s.connections m :=
  update_apply s.connections n connection m

theorem connections_set_self : (s.set n connection).connections n = connection := by
  rw [connections_set, if_pos rfl]

theorem connections_set_of_ne (other : m ≠ n) :
    (s.set n connection).connections m = s.connections m := by
  rw [connections_set, if_neg other]

theorem inFlight_set_self : (s.set n connection).inFlight n =
    connection.queue ++ (connection.replaying ++ s.outstanding n) := by
  unfold State.inFlight
  rw [connections_set_self]
  rfl

theorem Ledger.set (ledger : Ledger key s) (opened : n < s.opened)
    (unread : connection.registered = false → connection.resumed = false)
    (closed : connection.writing = false → connection.queue = []) :
    Ledger key (s.set n connection) :=
  { ledger with
    unopened := by
      intro m beyond
      rw [connections_set_of_ne (Nat.ne_of_gt (opened.trans_le beyond))]
      exact ledger.unopened m beyond
    unread := by
      intro m
      rw [connections_set]
      split
      · exact unread
      · exact ledger.unread m
    closed := by
      intro m
      rw [connections_set]
      split
      · exact closed
      · exact ledger.closed m }

end Set

variable {n : ℕ} {connection : Connection}

theorem Streams.later {more : List ChannelOutbound} (streams : Streams key s n)
    (opened : s.opened ≤ s'.opened) (same : s'.connections n = s.connections n)
    (highest : s'.highest = s.highest) (outstanding : s'.outstanding n = s.outstanding n)
    (got : s'.got = s.got) (frames : s'.frames = s.frames ++ more)
    (target : (s.connections n).resumed = true → s'.router.target key = some n →
      s.router.target key = some n ∧ more = []) : Streams key s' n := by
  have inFlight : s'.inFlight n = s.inFlight n := by
    rw [State.inFlight, State.inFlight, same, outstanding]
  constructor
  · exact streams.opened.trans_le opened
  · rw [same, highest, inFlight]
    exact streams.silent
  · rw [same]
    exact streams.asked
  · rw [same, got, inFlight, frames]
    intro resumed writing
    obtain ⟨rest, parts, upToDate⟩ := streams.next resumed writing
    refine ⟨rest ++ more, by rw [← append_assoc, parts], fun held => ?_⟩
    obtain ⟨held', noMore⟩ := target resumed held
    rw [upToDate held', noMore, append_nil]

theorem Streams.set_of_ne {m : ℕ} (streams : Streams key s n) (other : n ≠ m)
    (connection : Connection) : Streams key (s.set m connection) n :=
  streams.later le_rfl (connections_set_of_ne other) rfl rfl rfl (append_nil _).symm
    fun _ held => ⟨held, rfl⟩

theorem Streams.of_set (opened : n < s.opened)
    (silent : connection.resumed = false →
      (connection.requests = [] ∨ connection.requests = [s.highest]) ∧
        connection.queue ++ (connection.replaying ++ s.outstanding n) = [])
    (asked : connection.resumed = true → connection.requests = [])
    (next : connection.resumed = true → connection.writing = true →
      ∃ rest, s.got ++ (connection.queue ++ (connection.replaying ++ s.outstanding n)) ++ rest =
        s.frames ∧ (s.router.target key = some n → rest = [])) :
    Streams key (s.set n connection) n where
  opened := opened
  silent := by rw [connections_set_self, inFlight_set_self]; exact silent
  asked := by rw [connections_set_self]; exact asked
  next := by rw [connections_set_self, inFlight_set_self]; exact next

theorem Streams.set (streams : Streams key s n)
    (requests : connection.requests = (s.connections n).requests)
    (resumed : connection.resumed = (s.connections n).resumed)
    (writing : connection.writing = (s.connections n).writing)
    (inFlight : connection.queue ++ connection.replaying =
      (s.connections n).queue ++ (s.connections n).replaying) :
    Streams key (s.set n connection) n := by
  have same : connection.queue ++ (connection.replaying ++ s.outstanding n) = s.inFlight n := by
    rw [← append_assoc, inFlight, append_assoc]
    rfl
  refine .of_set streams.opened ?_ ?_ ?_
  · rw [same, resumed, requests]
    exact streams.silent
  · rw [resumed, requests]
    exact streams.asked
  · rw [same, resumed, writing]
    exact streams.next

theorem Safe.set (safe : Safe key s) (opened : n < s.opened)
    (unread : connection.registered = false → connection.resumed = false)
    (closed : connection.writing = false → connection.queue = [])
    (own : Streams key s n → Streams key (s.set n connection) n) :
    Safe key (s.set n connection) where
  toLedger := safe.toLedger.set opened unread closed
  current := by
    intro m held
    have streams := safe.current m held
    by_cases same : m = n
    · subst same
      exact own streams
    · exact streams.set_of_ne same connection

theorem Safe.router {router : ChannelRouter} (safe : Safe key s)
    (sound : Sound key s.clock ⟨router, s.numbered, []⟩)
    (targeted : ∀ n, router.target key = some n → n < s.opened)
    (target : ∀ n, s.current = some n → (s.connections n).resumed = true →
      router.target key = some n → s.router.target key = some n) : Safe key { s with router } :=
  { safe with
    sound
    targeted
    current := fun n held => (safe.current n held).later le_rfl rfl rfl rfl rfl
      (append_nil _).symm fun resumed aimed => ⟨target n held resumed aimed, rfl⟩ }

/-! ## The steps -/

theorem Safe.lt_opened {n : ℕ} (safe : Safe key s) (used : s.connections n ≠ {}) :
    n < s.opened := by
  by_contra beyond
  exact used (safe.unopened n (Nat.le_of_not_lt beyond))

theorem Safe.connect (safe : Safe key s) (next : s.connect = some s') : Safe key s' := by
  unfold State.connect at next
  split at next <;> cases next
  have nothing : s.outstanding s.opened = [] := by
    refine map_eq_nil_iff.mpr (filter_eq_nil_iff.mpr fun delivery mem => ?_)
    exact fun addressed => absurd (safe.addressed delivery mem)
      (Nat.not_lt_of_ge (of_decide_eq_true addressed).ge)
  exact { safe with
    addressed := fun delivery mem => (safe.addressed delivery mem).trans (Nat.lt_succ_self _)
    targeted := fun n held => (safe.targeted n held).trans (Nat.lt_succ_self _)
    unopened := fun n beyond => safe.unopened n (Nat.le_of_succ_le beyond)
    current := by
      rintro n ⟨⟩
      have fresh : ({ s with current := some s.opened, opened := s.opened + 1 } :
        State).connections s.opened = {} := safe.unopened s.opened le_rfl
      refine ⟨Nat.lt_succ_self _, ?_, ?_, ?_⟩ <;> rw [fresh]
      · refine fun _ => ⟨.inl rfl, ?_⟩
        rw [State.inFlight, fresh]
        exact nothing
      · nofun
      · nofun }

theorem Safe.register (safe : Safe key s) (next : s.register key n = some s') : Safe key s' := by
  unfold State.register at next
  split at next <;> cases next
  rename_i guard
  obtain ⟨opened, unregistered⟩ := guard
  have target : ∀ m, (s.router.register key n).target key = some m → n = m := by
    intro m held
    rw [target_register, update_self] at held
    exact Option.some.inj held
  have routed : Safe key { s with router := s.router.register key n } := by
    refine safe.router (safe.sound.register n) (fun m held => ?_) fun m _ resumed held => ?_
    · exact target m held ▸ opened
    · obtain rfl := target m held
      cases resumed.symm.trans (safe.unread n unregistered)
  exact routed.set opened nofun (safe.closed n) fun streams => streams.set rfl rfl rfl rfl

theorem Safe.resume (safe : Safe key s) (orderly : Orderly key s .resume)
    (next : s.resume = some s') : Safe key s' := by
  obtain ⟨n, held, rfl⟩ := Option.map_eq_some_iff.mp next
  obtain ⟨noRequest, unread⟩ := orderly n held
  have streams := safe.current n held
  refine safe.set streams.opened (safe.unread n) (safe.closed n) fun _ =>
    .of_set streams.opened (fun _ => ⟨.inr ?_, (streams.silent unread).2⟩) (fun resumed => ?_)
      streams.next
  · rw [List.isEmpty_iff.mp noRequest]
    rfl
  · cases unread.symm.trans resumed

/-- **A `Resume` is answered** with everything the adapter has not received. -/
theorem Safe.read {n : ℕ} (safe : Safe key s) (within : Within s (.read n))
    (next : s.read key n = some s') : Safe key s' := by
  unfold State.read at next
  dsimp only at next
  split at next
  · cases next
  rename_i since requests asked
  split at next <;> cases next
  rename_i guard
  obtain ⟨registered, -, -⟩ := guard
  have target := congrFun (target_replaySince s.router s.clock key since) key
  have opened : n < s.opened := safe.lt_opened fun idle => by
    rw [idle] at registered
    cases registered
  have routed : Safe key { s with router := (s.router.replaySince s.clock key since).1 } := by
    refine safe.router (safe.sound.replaySince le_rfl since) ?_ ?_
    · rw [target]
      exact safe.targeted
    · rw [target]
      exact fun _ _ _ held => held
  refine routed.set opened (fun absent => ?_) (safe.closed n) fun streams => ?_
  · cases registered.symm.trans absent
  -- the adapter's own connection: only one `Resume` was sent, and nothing since
  have unread : (s.connections n).resumed = false := by
    by_contra resumed
    cases asked.symm.trans (streams.asked (Bool.eq_true_of_not_eq_false resumed))
  obtain ⟨sent, quiet⟩ := streams.silent unread
  obtain ⟨rfl, rfl⟩ : since = s.highest ∧ requests = [] := by
    rw [show (s.connections n).requests = since :: requests from asked] at sent
    rcases sent with empty | one
    · cases empty
    · exact List.cons.inj one
  obtain ⟨noQueue, rest⟩ := append_eq_nil_iff.mp quiet
  obtain ⟨-, noneNumbered⟩ := append_eq_nil_iff.mp rest
  refine .of_set opened nofun (fun _ => rfl) fun _ _ => ⟨[], ?_, fun _ => rfl⟩
  have all := safe.toLedger.got_append_replay (within s.highest (by rw [asked]; rfl))
  show s.got ++ ((s.connections n).queue ++ (_ ++ s.outstanding n)) ++ [] = s.frames
  rw [show (s.connections n).queue = [] from noQueue,
    show s.outstanding n = [] from noneNumbered, append_nil, nil_append, append_nil, all]

theorem push_eq_some {pushed : Connection} {frame : ChannelOutbound}
    (next : connection.push frame = some pushed) :
    (connection.writing = true ∧
        pushed = { connection with queue := connection.queue ++ [frame] }) ∨
      (connection.writing = false ∧ pushed = connection) := by
  unfold Connection.push at next
  split at next
  · rename_i writing
    split at next
    · exact .inl ⟨writing, (Option.some.inj next).symm⟩
    · cases next
  · rename_i closed
    exact .inr ⟨Bool.eq_false_of_not_eq_true closed, (Option.some.inj next).symm⟩

theorem Safe.queueReplay (safe : Safe key s) (next : s.queueReplay n = some s') : Safe key s' := by
  unfold State.queueReplay at next
  dsimp only at next
  split at next
  · cases next
  rename_i frame frames replaying
  obtain ⟨pushed, push, rfl⟩ := Option.map_eq_some_iff.mp next
  have opened : n < s.opened := safe.lt_opened fun idle => by
    rw [idle] at replaying
    cases replaying
  rcases push_eq_some push with ⟨writing, rfl⟩ | ⟨closed, rfl⟩
  · refine safe.set opened (safe.unread n) (fun closed => ?_) fun streams => ?_
    · cases writing.symm.trans closed
    · refine streams.set rfl rfl rfl ?_
      rw [if_pos writing, replaying, append_assoc]
      rfl
  · refine safe.set opened (safe.unread n) (safe.closed n) fun streams => .of_set opened
      (fun unread => ?_) streams.asked fun _ writing => nomatch closed.symm.trans writing
    obtain ⟨-, rest⟩ := append_eq_nil_iff.mp (streams.silent unread).2
    rw [replaying] at rest
    cases rest

variable (key s) in
theorem number_cases (senderId : String) (inReplyTo : Option String)
    (content : ChannelMessageContent) (pause : ℕ) :
    s.number key senderId inReplyTo content pause = s ∨
      ∃ router tx frame, s.router.prepare s.clock (s.clock + pause) key.channel key.accountId
          senderId inReplyTo content = .ok (router, tx, frame) ∧
        s.router.target key = some tx ∧ router.target = s.router.target ∧
        s.number key senderId inReplyTo content pause =
          { s with
            router
            clock := s.clock + pause
            deliveries := s.deliveries ++ [⟨tx, frame⟩]
            numbered := s.numbered ++ [⟨frame.seq, frame, s.clock + pause⟩] } := by
  unfold State.number
  cases held : s.router.target key with
  | none =>
    left
    rw [prepare_of_target_eq_none held]
  | some tx =>
    right
    obtain ⟨router, frame, prepared, same⟩ := prepare_of_target_eq_some held
    refine ⟨router, tx, frame, prepared, rfl, same, ?_⟩
    rw [prepared]

theorem outstanding_append (deliveries : List Delivery) (tx n : ℕ) (frame : ChannelOutbound) :
    ((deliveries ++ [Delivery.mk tx frame]).filter fun delivery => delivery.tx = n).map
        (·.frame) =
      (deliveries.filter (·.tx = n)).map (·.frame) ++ if tx = n then [frame] else [] := by
  rw [filter_concat, map_append]
  by_cases same : tx = n
  · simp only [same, decide_true, if_true, map_singleton]
  · simp only [same, decide_false, Bool.false_eq_true, if_false, map_nil]

/-- **A reply is numbered**, for the adapter's connection or for another. -/
theorem Safe.number {senderId : String} {inReplyTo : Option String}
    {content : ChannelMessageContent} {pause : ℕ} (safe : Safe key s)
    (within : Within s (.number senderId inReplyTo content pause))
    (orderly : Orderly key s (.number senderId inReplyTo content pause)) :
    Safe key (s.number key senderId inReplyTo content pause) := by
  rcases number_cases key s senderId inReplyTo content pause with
    same | ⟨router, tx, frame, prepared, held, target, numbered⟩
  · rw [same]
    exact safe
  have room : s.numbered.length + 2 < 2 ^ 64 := within
  have sound := safe.sound.deliver le_rfl (Nat.le_add_right s.clock pause)
    (show s.numbered.length + 1 < 2 ^ 64 - 1 by omega) (fun _ => false) senderId inReplyTo content
  have called : s.trace.call key (.deliver (fun _ => false) s.clock (s.clock + pause) senderId
      inReplyTo content) =
      ⟨router, s.numbered ++ [⟨frame.seq, frame, s.clock + pause⟩], []⟩ := by
    simp [Trace.call, State.trace, numberedBy, deliverAt, prepared, returnedSeq]
  rw [called] at sound
  have frames : (s.numbered ++ [ReplayEntry.mk frame.seq frame (s.clock + pause)]).map (·.frame) =
      s.frames ++ [frame] := map_append
  rw [numbered]
  exact { safe with
    sound
    pending := by
      show ((s.deliveries ++ [Delivery.mk tx frame]).map (·.frame)).Sublist
        ((s.numbered ++ [_]).map ReplayEntry.frame)
      rw [frames, map_append]
      exact safe.pending.append (.refl _)
    addressed := by
      intro delivery mem
      rcases mem_snoc.mp mem with before | rfl
      · exact safe.addressed delivery before
      · exact safe.targeted tx held
    targeted := by
      show ∀ n, router.target key = some n → n < s.opened
      rw [target]
      exact safe.targeted
    got := by
      show s.got <+: (s.numbered ++ [_]).map ReplayEntry.frame
      rw [frames]
      exact safe.got.trans (prefix_append _ _)
    current := by
      intro n isCurrent
      have streams := safe.current n isCurrent
      have outstanding := outstanding_append s.deliveries tx n frame
      by_cases own : tx = n
      · -- the reply goes to the adapter: its connection has been resumed
        subst own
        have resumed := orderly tx isCurrent held
        rw [if_pos rfl] at outstanding
        constructor
        · exact streams.opened
        · intro unread
          cases resumed.symm.trans unread
        · exact streams.asked
        · intro _ writing
          obtain ⟨rest, parts, upToDate⟩ := streams.next resumed writing
          rw [upToDate held, append_nil] at parts
          refine ⟨[], ?_, fun _ => rfl⟩
          show s.got ++ ((s.connections tx).queue ++ ((s.connections tx).replaying ++
            List.map _ (List.filter _ _))) ++ [] = (s.numbered ++ [_]).map ReplayEntry.frame
          rw [outstanding, frames, ← parts]
          simp only [State.inFlight, State.outstanding, append_assoc, append_nil]
      · rw [if_neg own, append_nil] at outstanding
        refine streams.later le_rfl rfl rfl outstanding rfl frames fun _ aimed => ?_
        rw [show router.target key = some tx from (congrFun target key).trans held] at aimed
        exact absurd (Option.some.inj aimed) own }

theorem Ledger.seq_of_next (ledger : Ledger key s) {frame : ChannelOutbound}
    {later : List ChannelOutbound} (parts : s.got ++ [frame] ++ later = s.frames) :
    frame.seq.toNat = s.received.length + 1 := by
  have length : s.got.length = s.received.length := length_map _
  have at' : s.frames[s.received.length]? = some frame := by
    rw [← parts, ← length, append_assoc, getElem?_append_right le_rfl, Nat.sub_self]
    rfl
  rw [State.frames, getElem?_map] at at'
  obtain ⟨entry, isEntry, rfl⟩ := Option.map_eq_some_iff.mp at'
  obtain ⟨place, own⟩ := ledger.sound.counted _ entry isEntry
  rw [own, place]

theorem Ledger.increasing (ledger : Ledger key s) : (s.frames.map (·.seq)).Pairwise (· < ·) := by
  rw [State.frames, map_map]
  exact ledger.sound.counted.frames_pairwise

theorem Ledger.distinct (ledger : Ledger key s) : (s.deliveries.map (·.frame.seq)).Nodup := by
  have part := ledger.pending.map (·.seq)
  rw [map_map] at part
  exact (ledger.increasing.imp UInt64.ne_of_lt).sublist part

section Send

variable {delivery : Delivery} {n : ℕ}

section

variable (ledger : Ledger key s)

include ledger

section

variable (mem : delivery ∈ s.deliveries)

include mem

theorem Ledger.eq_of_seq_eq {other : Delivery} (mem' : other ∈ s.deliveries)
    (same : other.frame.seq = delivery.frame.seq) : other = delivery :=
  inj_on_of_nodup_map ledger.distinct mem' mem same

theorem outstanding_sent_of_ne (elsewhere : delivery.tx ≠ n) :
    (s.sent delivery.frame.seq).outstanding n = s.outstanding n := by
  unfold State.outstanding State.sent
  rw [filter_comm, filter_eq_self.mpr]
  intro other mem'
  obtain ⟨mem', here⟩ := mem_filter.mp mem'
  refine decide_eq_true fun sameSeq => elsewhere ?_
  rw [← ledger.eq_of_seq_eq mem mem' sameSeq]
  exact of_decide_eq_true here

theorem outstanding_sent_of_head
    (first : ((s.outstanding n).map (·.seq)).head? = some delivery.frame.seq) :
    s.outstanding n = delivery.frame :: (s.sent delivery.frame.seq).outstanding n := by
  unfold State.outstanding State.sent at *
  rw [filter_comm]
  cases here : s.deliveries.filter (·.tx = n) with
  | nil =>
    rw [here] at first
    cases first
  | cons head rest =>
    rw [here] at first
    have part : (head :: rest).Sublist s.deliveries := here ▸ filter_sublist
    have isHead : head = delivery :=
      ledger.eq_of_seq_eq mem (part.subset mem_cons_self) (Option.some.inj first)
    have distinct := ledger.distinct.sublist (part.map _)
    subst isHead
    rw [filter_cons_of_neg (by simp), filter_eq_self.mpr]
    · rfl
    · intro other mem'
      refine decide_eq_true fun sameSeq => (nodup_cons.mp distinct).1 ?_
      show head.frame.seq ∈ rest.map (·.frame.seq)
      rw [← sameSeq]
      exact mem_map_of_mem mem'

end

theorem Ledger.sent (seq : UInt64) : Ledger key (s.sent seq) :=
  { ledger with
    pending := (filter_sublist.map _).trans ledger.pending
    addressed := fun delivery mem => ledger.addressed delivery (mem_of_mem_filter mem) }

end

/-- **A reply is queued**, on the adapter's connection in its turn. -/
theorem Safe.send {seq : UInt64} (safe : Safe key s) (orderly : Orderly key s (.send seq))
    (next : s.send seq = some s') : Safe key s' := by
  unfold State.send at next
  split at next
  · cases next
  rename_i delivery found
  obtain ⟨pushed, push, rfl⟩ := Option.map_eq_some_iff.mp next
  have mem := mem_of_find?_eq_some found
  have isSeq := find?_some found
  obtain rfl : delivery.frame.seq = seq := of_decide_eq_true isSeq
  have opened := safe.addressed delivery mem
  have cases := push_eq_some push
  refine ⟨(safe.toLedger.sent _).set opened ?_ ?_, fun n held => ?_⟩
  · rcases cases with ⟨-, rfl⟩ | ⟨-, rfl⟩ <;> exact safe.unread delivery.tx
  · rcases cases with ⟨writing, rfl⟩ | ⟨-, rfl⟩
    · exact fun closed => nomatch writing.symm.trans closed
    · exact safe.closed delivery.tx
  have streams := safe.current n held
  by_cases own : delivery.tx = n
  · subst own
    have waits : delivery.frame.seq ∈ (s.outstanding delivery.tx).map (·.seq) :=
      mem_map_of_mem (mem_map_of_mem
        (mem_filter.mpr ⟨mem, decide_eq_true rfl⟩))
    obtain ⟨noReplay, first⟩ := orderly delivery.tx held waits
    have order := outstanding_sent_of_head safe.toLedger mem first
    have resumed : (s.connections delivery.tx).resumed = true := by
      by_contra unread
      have quiet := (streams.silent (Bool.eq_false_of_not_eq_true unread)).2
      rw [State.inFlight, order] at quiet
      simp at quiet
    have read : (s.connections delivery.tx).resumed ≠ false := by simp [resumed]
    rcases cases with ⟨writing, rfl⟩ | ⟨closed, rfl⟩
    · obtain ⟨rest, parts, upToDate⟩ := streams.next resumed writing
      refine .of_set opened (absurd · read) streams.asked fun _ _ => ⟨rest, ?_, upToDate⟩
      have moved : (s.connections delivery.tx).queue ++ [delivery.frame] ++
          ((s.connections delivery.tx).replaying ++
            (s.sent delivery.frame.seq).outstanding delivery.tx) =
          s.inFlight delivery.tx := by
        rw [State.inFlight, order, List.isEmpty_iff.mp noReplay, append_assoc]
        rfl
      show s.got ++ (_ ++ [delivery.frame] ++ _) ++ rest = s.frames
      rw [moved]
      exact parts
    · exact .of_set opened (absurd · read) streams.asked
        fun _ writing => nomatch closed.symm.trans writing
  · have elsewhere : Streams key (s.sent delivery.frame.seq) n :=
      streams.later le_rfl rfl rfl (outstanding_sent_of_ne safe.toLedger mem own) rfl
        (append_nil _).symm fun _ held => ⟨held, rfl⟩
    exact elsewhere.set_of_ne (Ne.symm own) pushed

end Send

/-- **The adapter receives a frame**, and it is the next one. -/
theorem Safe.receive (safe : Safe key s) (next : s.receive = some s') : Safe key s' := by
  unfold State.receive at next
  split at next
  · cases next
  rename_i n held
  split at next
  · cases next
  rename_i frame queue queued
  obtain rfl := Option.some.inj next
  have streams := safe.current n held
  have resumed : (s.connections n).resumed = true := by
    by_contra unread
    have quiet := (streams.silent (Bool.eq_false_of_not_eq_true unread)).2
    rw [State.inFlight, queued] at quiet
    cases quiet
  have writing : (s.connections n).writing = true := by
    by_contra closed
    cases queued.symm.trans (safe.closed n (Bool.eq_false_of_not_eq_true closed))
  obtain ⟨rest, parts, upToDate⟩ := streams.next resumed writing
  have parts' : s.got ++ [frame] ++ (queue ++ ((s.connections n).replaying ++
      s.outstanding n)) ++ rest = s.frames := by
    rw [← parts, State.inFlight, queued]
    simp only [append_assoc, cons_append, nil_append]
  have seq : frame.seq.toNat = s.received.length + 1 :=
    safe.toLedger.seq_of_next ((append_assoc _ _ _).symm.trans parts')
  have grows : s.highest ≤ frame.seq := by
    rw [UInt64.le_iff_toNat_le, safe.highest, seq]
    exact Nat.le_succ _
  have got : (s.received ++ [(n, frame)]).map Prod.snd = s.got ++ [frame] := map_append
  have ledger : Ledger key { s with
      highest := max s.highest frame.seq
      received := s.received ++ [(n, frame)] } :=
    { safe.toLedger with
      got := by
        show (s.received ++ [(n, frame)]).map Prod.snd <+: s.frames
        rw [got, ← parts', append_assoc]
        exact prefix_append _ _
      highest := by
        show (if s.highest ≤ frame.seq then frame.seq else s.highest).toNat = _
        rw [if_pos grows, seq, length_append]
        rfl }
  refine ⟨ledger.set streams.opened (safe.unread n) fun closed => ?_, fun m held' => ?_⟩
  · cases writing.symm.trans closed
  · cases held.symm.trans held'
    refine .of_set streams.opened (fun unread => nomatch resumed.symm.trans unread) streams.asked
      fun _ _ => ⟨rest, ?_, upToDate⟩
    show (s.received ++ [(n, frame)]).map Prod.snd ++ _ ++ rest = s.frames
    rw [got]
    exact parts'

theorem Safe.leave (safe : Safe key s) (next : s.leave key n = some s') : Safe key s' := by
  unfold State.leave at next
  dsimp only at next
  split at next <;> cases next
  rename_i guard
  obtain ⟨registered, -, -⟩ := guard
  have opened : n < s.opened := safe.lt_opened fun idle => by
    rw [idle] at registered
    cases registered
  have target : (s.router.unregister key).target key = none := by
    rw [target_unregister, update_self]
  have routed : Safe key { s with router := s.router.unregister key } := by
    refine safe.router safe.sound.unregister ?_ ?_ <;> rw [target] <;> exact nofun
  exact routed.set opened (safe.unread n) (safe.closed n) fun streams =>
    streams.set rfl rfl rfl rfl

theorem Safe.stopWriter (safe : Safe key s) (next : s.stopWriter n = some s') : Safe key s' := by
  unfold State.stopWriter at next
  split at next <;> cases next
  rename_i opened
  refine safe.set opened (safe.unread n) (fun _ => rfl) fun streams =>
    .of_set opened (fun unread => ?_) streams.asked nofun
  obtain ⟨sent, quiet⟩ := streams.silent unread
  exact ⟨sent, (append_eq_nil_iff.mp quiet).2⟩

/-- **Every step keeps the invariant.** -/
theorem Safe.step {a : Label} (safe : Safe key s) (within : Within s a)
    (orderly : Orderly key s a) (next : step key s a = some s') : Safe key s' := by
  cases a with
  | connect => exact safe.connect next
  | register => exact safe.register next
  | resume => exact safe.resume orderly next
  | read => exact safe.read within next
  | queueReplay => exact safe.queueReplay next
  | number =>
    obtain rfl := Option.some.inj next
    exact safe.number within orderly
  | send => exact safe.send orderly next
  | receive => exact safe.receive next
  | disconnect =>
    obtain rfl := Option.some.inj next
    exact { safe with current := nofun }
  | leave => exact safe.leave next
  | stopWriter => exact safe.stopWriter next
  | wait pause =>
    obtain rfl := Option.some.inj next
    exact { safe with
      sound := safe.sound.later (Nat.le_add_right s.clock pause)
      current := fun n held => (safe.current n held).later le_rfl rfl rfl rfl rfl
        (append_nil _).symm fun _ aimed => ⟨aimed, rfl⟩ }

theorem Safe.obtains (safe : Safe key s) : Obtains key s where
  increasing := by
    intro n
    have whole : (s.received.map (·.2.seq)).Pairwise (· < ·) := by
      have := safe.toLedger.increasing.sublist (safe.got.sublist.map (·.seq))
      rwa [State.got, map_map] at this
    exact whole.sublist (filter_sublist.map _)
  resumable := by
    intro buffered frame mem
    rw [← safe.toLedger.got_append_replay buffered] at mem
    exact mem_append.mp mem
  complete := by
    rintro ⟨n, held, aimed, resumed, writing, -, noReplay, noQueue, noneNumbered⟩ frame mem
    obtain ⟨rest, parts, upToDate⟩ := (safe.current n held).next resumed writing
    rw [State.inFlight, noReplay, noQueue, noneNumbered, upToDate aimed] at parts
    simp only [append_nil] at parts
    rw [parts]
    exact mem

/-- **The adapter obtains every frame that was numbered**, if it comes back in time and replies are
queued in order. -/
theorem adapter_obtains_frames {labels : List Label}
    (run : Run (step key) (fun s a => Within s a ∧ Orderly key s a) {} labels s) : Obtains key s :=
  (run.invariant (fun _ _ _ safe ok next => safe.step ok.1 ok.2 next) safe_initial).obtains

/-! ### Two replies -/

def arrival : List Label := [.connect, .register 0, .resume, .read 0]

def aReply : Label := .number "person" none (.text "hello") 0

def comeback : List Label :=
  [.disconnect, .stopWriter 0, .leave 0, .connect, .register 1, .resume, .read 1]

def inTurn : List Label :=
  arrival ++ [aReply, aReply, .send 1, .receive, .send 2] ++ comeback ++
    [.queueReplay 1, .receive]

def settledOnSecond (s : State) : Bool :=
  s.current = some 1 ∧ s.router.target bot = some 1 ∧ (s.connections 1).resumed = true ∧
    (s.connections 1).writing = true ∧ (s.connections 1).requests.isEmpty = true ∧
    (s.connections 1).replaying.isEmpty = true ∧ (s.connections 1).queue.isEmpty = true ∧
    (s.outstanding 1).isEmpty = true

theorem settled_of_settledOnSecond (settled : settledOnSecond s = true) : Settled bot s := by
  obtain ⟨held, aimed, resumed, writing, noRequest, noReplay, noQueue, noHeld⟩ :=
    of_decide_eq_true settled
  exact ⟨1, held, aimed, resumed, writing, List.isEmpty_iff.mp noRequest,
    List.isEmpty_iff.mp noReplay, List.isEmpty_iff.mp noQueue, List.isEmpty_iff.mp noHeld⟩

theorem inTurn_obtains : ∃ s, Run (step bot) (fun s a => Within s a ∧ Orderly bot s a) {} inTurn s ∧
    Settled bot s ∧ s.frames.length = 2 ∧ Obtains bot s := by
  obtain ⟨s, run, settled, two⟩ : ∃ s, Run (step bot) (fun s a => Within s a ∧ Orderly bot s a) {}
      inTurn s ∧ settledOnSecond s ∧ s.numbered.length = 2 := exists_run (by decide +kernel)
  refine ⟨s, run, settled_of_settledOnSecond settled, ?_, adapter_obtains_frames run⟩
  rw [State.frames, length_map]
  exact two

def overtaken : List Label :=
  arrival ++ [aReply, aReply, .send 2, .receive] ++ comeback ++ [.send 1]

/-- **A later frame overtakes**: the first reply is in the buffer, and is neither received nor ever
replayed. -/
theorem later_frame_overtakes : ∃ s, Run (step bot) Within {} overtaken s ∧ Settled bot s ∧
    s.Buffered s.highest ∧ ¬ Obtains bot s := by
  obtain ⟨s, run, settled, buffered, frames, got⟩ : ∃ s, Run (step bot) Within {} overtaken s ∧
      settledOnSecond s ∧ s.Buffered s.highest ∧ s.frames.map (·.seq) = [1, 2] ∧
        s.got.map (·.seq) = [2] := exists_run (by decide +kernel)
  have isSettled := settled_of_settledOnSecond settled
  refine ⟨s, run, isSettled, buffered, fun obtains => ?_⟩
  have first : (1 : UInt64) ∈ s.frames.map (·.seq) := by
    rw [frames]
    exact mem_cons_self
  obtain ⟨frame, mem, isFirst⟩ := mem_map.mp first
  have received : (1 : UInt64) ∈ s.got.map (·.seq) :=
    mem_map.mpr ⟨frame, obtains.complete isSettled frame mem, isFirst⟩
  rw [got] at received
  exact absurd received (by decide)

end Havn.Gateway.AdapterStream
