import Havn.Gateway.AdapterStream

/-!
# An adapter that stops reading

The reader of an agent's connection (`run_reader` in `agent_socket.rs`) awaits `deliver` for each
reply, and `deliver` awaits room in the queue of the adapter's session (`channel_router.rs`,
`api/channel.rs`), from which the outbound task writes frames to the socket.
-/

namespace Havn.Gateway.Backpressure

open Lib Proto AdapterStream List

structure Queue where
  frames : List ChannelOutbound := []
  bounded : frames.length ≤ adapterOutboundCapacity := by decide

def Queue.push (queue : Queue) (frame : ChannelOutbound) : Option Queue :=
  if room : queue.frames.length < adapterOutboundCapacity then
    some ⟨queue.frames ++ [frame], by rw [length_append]; exact room⟩
  else none

def Queue.pop (queue : Queue) : Queue where
  frames := queue.frames.tail
  bounded := (queue.frames.tail_sublist.length_le).trans queue.bounded

structure State where
  connected : Bool := true
  /-- The reply that the agent's reader is delivering. -/
  reader : Option ChannelOutbound := none
  queue : Queue := {}
  /-- The frame that the outbound task is writing. -/
  writing : Option ChannelOutbound := none
  socket : List ChannelOutbound := []

inductive Label
  | outbound (frame : ChannelOutbound)
  | send
  | take
  | write
  | read
  | close

/-- `room` is what the socket buffers. -/
def step (room : ℕ) (s : State) : Label → Option State
  | .outbound frame =>
    if s.reader.isSome then none
    else some { s with reader := if s.connected then some frame else none }
  | .send =>
    match s.reader with
    | none => none
    | some frame =>
      if s.connected then (s.queue.push frame).map fun queue => { s with reader := none, queue }
      else some { s with reader := none }
  | .take =>
    match s.writing, s.queue.frames.head? with
    | none, some frame => some { s with writing := some frame, queue := s.queue.pop }
    | _, _ => none
  | .write =>
    match s.writing with
    | none => none
    | some frame =>
      if s.socket.length < room then
        some { s with writing := none, socket := s.socket ++ [frame] }
      else none
  | .read => if s.socket.isEmpty then none else some { s with socket := s.socket.tail }
  | .close => some { s with connected := false, queue := {}, writing := none }

/-- The adapter reads from its socket or closes it; every other step is the gateway's. -/
def OfGateway (_ : State) : Label → Prop
  | .read | .close => False
  | _ => True

/-- The gateway by itself can bring the reader back to its loop. -/
def CanComplete (room : ℕ) (s : State) : Prop :=
  ∃ labels s', Run (step room) OfGateway s labels s' ∧ s'.reader = none

/-- Everything between the agent's reader and the adapter is full. -/
def Full (room : ℕ) (s : State) : Prop :=
  s.reader ≠ none ∧ s.connected = true ∧ adapterOutboundCapacity ≤ s.queue.frames.length ∧
    s.writing ≠ none ∧ room ≤ s.socket.length

variable {room : ℕ} {s s' : State} {label : Label}

theorem Full.stuck (full : Full room s) (own : OfGateway s label) : step room s label = none := by
  obtain ⟨delivering, connected, queued, writing, buffered⟩ := full
  obtain ⟨frame, delivering⟩ := Option.ne_none_iff_exists'.mp delivering
  obtain ⟨written, writing⟩ := Option.ne_none_iff_exists'.mp writing
  cases label with
  | outbound => simp [step, delivering]
  | send => simp [step, delivering, connected, Queue.push, Nat.not_lt.mpr queued]
  | take => simp [step, writing]
  | write => simp [step, writing, Nat.not_lt.mpr buffered]
  | read | close => exact own.elim

theorem Full.not_canComplete (full : Full room s) : ¬ CanComplete room s := by
  rintro ⟨labels, s', run, done⟩
  have still : Full room s' := run.invariant
    (fun t label t' full own next => by rw [full.stuck own] at next; cases next) full
  exact still.1 done

theorem CanComplete.cons (next : step room s label = some s') (own : OfGateway s label)
    (complete : CanComplete room s') : CanComplete room s := by
  obtain ⟨labels, t, run, done⟩ := complete
  exact ⟨label :: labels, t, .cons own next run, done⟩

theorem canComplete_of_room (free : s.reader = none ∨ s.connected = false ∨
    s.queue.frames.length < adapterOutboundCapacity) : CanComplete room s := by
  cases delivering : s.reader with
  | none => exact ⟨[], s, .nil s, delivering⟩
  | some =>
    have sends : ∃ s', step room s .send = some s' ∧ s'.reader = none := by
      cases connected : s.connected with
      | false => simp [step, delivering, connected]
      | true => simp_all [step, Queue.push]
    obtain ⟨s', next, done⟩ := sends
    exact .cons next trivial ⟨[], s', .nil s', done⟩

theorem canComplete_of_idle (idle : s.writing = none) : CanComplete room s := by
  cases queued : s.queue.frames with
  | nil => exact canComplete_of_room (.inr (.inr (by rw [queued]; decide)))
  | cons frame frames =>
    have next : step room s .take =
        some { s with writing := some frame, queue := s.queue.pop } := by
      simp [step, idle, queued]
    have bounded := s.queue.bounded
    refine .cons next trivial (canComplete_of_room (.inr (.inr ?_)))
    simp only [Queue.pop, queued, tail_cons, length_cons] at bounded ⊢
    omega

/-- **When a reply can be delivered whatever the adapter does**: exactly when something between
the agent's reader and the adapter has room. -/
theorem canComplete_iff (room : ℕ) (s : State) : CanComplete room s ↔ ¬ Full room s := by
  constructor
  · exact fun complete full => full.not_canComplete complete
  · intro free
    cases writing : s.writing with
    | none => exact canComplete_of_idle writing
    | some frame =>
      by_cases buffered : s.socket.length < room
      · have next : step room s .write =
            some { s with writing := none, socket := s.socket ++ [frame] } := by
          simp [step, writing, buffered]
        exact .cons next trivial (canComplete_of_idle rfl)
      · refine canComplete_of_room ?_
        by_contra none
        push Not at none
        exact free ⟨none.1, Bool.eq_true_of_not_eq_false none.2.1, none.2.2, by simp [writing],
          Nat.not_lt.mp buffered⟩

/-! ## How it comes to that -/

def hello : ChannelOutbound := ⟨1, "bot", "tg:1", none, .text "hello"⟩

theorem exists_socket (room : ℕ) {n : ℕ} (le : n ≤ room) :
    ∃ labels, Run (step room) anyStep {} labels { socket := replicate n hello } := by
  induction n with
  | zero => exact ⟨[], .nil _⟩
  | succ n ih =>
    obtain ⟨labels, run⟩ := ih (by omega)
    refine ⟨labels ++ [.outbound hello, .send, .take, .write], run.append (run_of_exec ?_)⟩
    simp [exec, step, Queue.push, Queue.pop, adapterOutboundCapacity, replicate_succ']
    omega

theorem step_outbound (connected : s.connected = true) (idle : s.reader = none) :
    step room s (.outbound hello) = some { s with reader := some hello } := by
  simp [step, idle, connected]

theorem exists_queue (room : ℕ) {n : ℕ} (le : n ≤ adapterOutboundCapacity) :
    ∃ labels s, Run (step room) anyStep {} labels s ∧ s.connected = true ∧ s.reader = none ∧
      s.queue.frames.length = n ∧ s.writing ≠ none ∧ room ≤ s.socket.length := by
  induction n with
  | zero =>
    obtain ⟨labels, run⟩ := exists_socket room le_rfl
    have taken := run_of_exec (show exec (step room) { socket := replicate room hello }
      [.outbound hello, .send, .take] = some { writing := hello, socket := _ } from rfl)
    exact ⟨_, _, run.append taken, rfl, rfl, rfl, Option.some_ne_none _, by simp⟩
  | succ n ih =>
    obtain ⟨labels, s, run, connected, idle, queued, writing, buffered⟩ := ih (by omega)
    have free : s.queue.frames.length < adapterOutboundCapacity := by omega
    have sent : step room { s with reader := some hello } .send = some { s with
        reader := none
        queue := ⟨s.queue.frames ++ [hello], by rw [length_append]; exact free⟩ } := by
      simp [step, connected, Queue.push, free]
    refine ⟨_, _, .snoc (.snoc run trivial (step_outbound connected idle)) trivial sent,
      connected, rfl, ?_, writing, buffered⟩
    rw [length_append, queued]
    rfl

theorem exists_blocked (room : ℕ) :
    ∃ labels s, Run (step room) anyStep {} labels s ∧ ¬ CanComplete room s := by
  obtain ⟨labels, s, run, connected, idle, queued, writing, buffered⟩ := exists_queue room le_rfl
  refine ⟨_, _, .snoc run trivial (step_outbound connected idle), ?_⟩
  exact Full.not_canComplete
    ⟨Option.some_ne_none _, connected, queued.ge, writing, buffered⟩

/-- **An adapter that stops reading stops an agent**, once its socket buffers no more. -/
theorem adapter_blocks_reader :
    ∃ labels s, Run (step 16) anyStep {} labels s ∧ ¬ CanComplete 16 s :=
  exists_blocked 16

end Havn.Gateway.Backpressure
