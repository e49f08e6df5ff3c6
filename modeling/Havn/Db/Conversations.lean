import Havn.Db.Gateway

/-!
# The agent's conversations

`havn-db/src/agent/conversations.rs`: the turns of all channels, in the order of their `rowid`.  A
turn is stamped in milliseconds and read back by its stamp; the `rowid` decides between equal ones.
-/

namespace Havn.Db.Conversations

open List

inductive Role where
  | user
  | assistant
  | system
  | tool
  deriving DecidableEq

structure Turn where
  role : Role
  content : String
  createdAt : ℕ
  deriving DecidableEq

structure Row where
  channelId : String
  turn : Turn
  deriving DecidableEq

abbrev Table := List Row

def record (t : Table) (fault : Option DbError) (now : ℕ) (channelId : String) (role : Role)
    (content : String) : Except DbError Unit × Table :=
  match fault with
  | some e => (.error e, t)
  | none => (.ok (), t ++ [⟨channelId, ⟨role, content, now⟩⟩])

def turnsOf (t : Table) (channelId : String) : List Turn :=
  (t.filter (·.channelId = channelId)).map Row.turn

/-- `ORDER BY created_at DESC, rowid DESC LIMIT …`, turned round. -/
def recent (t : Table) (fault : Option DbError) (channelId : String) (limit : ℕ) :
    Except DbError (List Turn) :=
  match fault with
  | some e => .error e
  | none => .ok ((((turnsOf t channelId).reverse.insertionSort
      fun a b => b.createdAt ≤ a.createdAt).take limit).reverse)

def lastTurns (limit : ℕ) (turns : List Turn) : List Turn := turns.drop (turns.length - limit)

theorem lastTurns_concat {limit : ℕ} (room : 0 < limit) (turns : List Turn) (turn : Turn) :
    lastTurns limit (turns ++ [turn]) = turns.drop (turns.length + 1 - limit) ++ [turn] := by
  rw [lastTurns, length_append, length_singleton, drop_append_of_le_length]
  omega

section

variable {t : Table} {channelId : String}

theorem recent_eq_ok {fault : Option DbError} {limit : ℕ} {turns : List Turn}
    (ordered : (turnsOf t channelId).Pairwise fun a b => a.createdAt ≤ b.createdAt)
    (read : recent t fault channelId limit = .ok turns) :
    turns = lastTurns limit (turnsOf t channelId) := by
  cases fault with
  | some => cases read
  | none =>
    have sorted : (turnsOf t channelId).reverse.Pairwise fun a b => b.createdAt ≤ a.createdAt :=
      pairwise_reverse.mpr ordered
    rw [← Except.ok.inj read, sorted.insertionSort_eq, take_reverse, reverse_reverse]
    rfl

theorem turnsOf_append (t rows : Table) (channelId : String) :
    turnsOf (t ++ rows) channelId = turnsOf t channelId ++ turnsOf rows channelId := by
  rw [turnsOf, filter_append, map_append]
  rfl

theorem turnsOf_self (turns : List Turn) (channelId : String) :
    turnsOf (turns.map (Row.mk channelId)) channelId = turns := by
  rw [turnsOf, filter_eq_self.mpr, map_map]
  · exact map_id turns
  · intro row mem
    obtain ⟨turn, -, rfl⟩ := mem_map.mp mem
    exact decide_eq_true rfl

theorem turnsOf_other {other : String} (ne : other ≠ channelId) (turns : List Turn) :
    turnsOf (turns.map (Row.mk other)) channelId = [] := by
  rw [turnsOf, filter_eq_nil_iff.mpr, map_nil]
  intro row mem
  obtain ⟨turn, -, rfl⟩ := mem_map.mp mem
  simpa using ne

end

end Havn.Db.Conversations
