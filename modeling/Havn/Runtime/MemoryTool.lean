import Havn.Db.Memory
import Havn.Runtime.ToolLoop

/-!
# The tool `memory_remember`

`havn-runtime/src/tools/memory.rs`: the input is checked field by field; a value beyond the cap is
cut and marked before `memory::remember` is called.
-/

namespace Havn.Runtime.MemoryTool

open Db.Memory Lib
open ToolLoop (ToolResult)

/-! ## The input -/

def maxValueBytes : ℕ := 4096

def truncationMarker : String := "\n…(truncated to fit memory entry size cap)"

def head (value : String) : String := String.ofList (value.toList.take (maxValueBytes - 64))

def storedValue (value : String) : String × Bool :=
  if maxValueBytes < value.utf8ByteSize then (head value ++ truncationMarker, true)
  else (value, false)

structure Request where
  new : NewEntry
  truncated : Bool
  deriving DecidableEq

def required (input : Json) (field missing : String) : Except String String :=
  match input.strAt field with
  | some text => .ok text
  | none => .error missing

def parseKind (debug : String → String) (raw : String) : Except String Kind :=
  match Kind.parse raw with
  | some kind => .ok kind
  | none => .error ("invalid kind " ++ debug raw
      ++ "; expected one of identity|preference|project|event")

def parseSource (input : Json) : Source :=
  ((input.strAt "source").bind Source.parse).getD .agentInferred

/-- The checks of `execute`, in their order; `debug` is `{:?}` of a string. -/
def accept (debug : String → String) (input : Json) : Except String Request := do
  let key ← required input "key" "missing required field: key"
  let value ← required input "value" "missing required field: value"
  let kindRaw ← required input "kind"
    "missing required field: kind (identity|preference|project|event)"
  let kind ← parseKind debug kindRaw
  if key = "" then .error "key must be non-empty"
  else
    .ok {
      new := {
        key := key
        value := (storedValue value).1
        kind := kind
        source := parseSource input
        ttlDays := (input.get "ttl_days").bind Json.asI64 }
      truncated := (storedValue value).2 }

def Request.reply (debug : String → String) (request : Request) : ToolResult :=
  .ok ("remembered " ++ debug request.new.key ++ " as " ++ request.new.kind.asStr
    ++ if request.truncated then " (value was truncated to the memory entry size cap)" else "")

/-! ## What is stored -/

structure Capped (value stored : String) : Prop where
  bounded : stored.utf8ByteSize ≤ maxValueBytes
  form : if value.utf8ByteSize ≤ maxValueBytes then stored = value
    else ∃ kept, kept <+: value.toList ∧ stored = String.ofList kept ++ truncationMarker

/-- The value is within the cap, or its first characters leave room for the marker. -/
def FitsWhenCut (value : String) : Prop :=
  value.utf8ByteSize ≤ maxValueBytes ∨
    (head value).utf8ByteSize + truncationMarker.utf8ByteSize ≤ maxValueBytes
  deriving Decidable

theorem capped_storedValue_iff (value : String) :
    Capped value (storedValue value).1 ↔ FitsWhenCut value := by
  by_cases fits : value.utf8ByteSize ≤ maxValueBytes
  · rw [storedValue, if_neg (Nat.not_lt.mpr fits)]
    exact ⟨fun _ => .inl fits, fun _ => ⟨fits, by rw [if_pos fits]⟩⟩
  · rw [storedValue, if_pos (Nat.not_le.mp fits)]
    constructor
    · intro capped
      exact .inr (String.utf8ByteSize_append ▸ capped.bounded)
    · rintro (whole | room)
      · exact absurd whole fits
      · refine ⟨by rw [String.utf8ByteSize_append]; exact room, ?_⟩
        rw [if_neg fits]
        exact ⟨_, List.take_prefix _ _, rfl⟩

variable {debug : String → String} {input : Json} {value : String} {request : Request}

theorem value_of_accept (accepted : accept debug input = .ok request)
    (given : input.strAt "value" = some value) : request.new.value = (storedValue value).1 := by
  simp only [accept, required, given] at accepted
  obtain ⟨key, -, rest⟩ := bind_eq_ok.mp accepted
  obtain ⟨_, isValue, rest⟩ := bind_eq_ok.mp rest
  obtain ⟨_, -, rest⟩ := bind_eq_ok.mp rest
  obtain ⟨kind, -, rest⟩ := bind_eq_ok.mp rest
  cases isValue
  split at rest
  · cases rest
  · cases rest
    rfl

/-- **The value of the row is capped exactly when the first characters leave room.** -/
theorem remembered_capped_iff {strftime : ℕ → String} {t t' : Table} {id : String} {now : Readings}
    (accepted : accept debug input = .ok request) (given : input.strAt "value" = some value)
    (wf : WellFormed t) (done : rememberTx strftime t request.new id now = .ok t') :
    (∃ row, get t' request.new.key = some row ∧ Capped value row.value) ↔ FitsWhenCut value := by
  obtain ⟨row, found, isValue, -⟩ := get_of_remember wf (rememberTx_spec done)
  rw [value_of_accept accepted given] at isValue
  rw [← capped_storedValue_iff, ← isValue]
  constructor
  · rintro ⟨row', found', capped⟩
    rw [found] at found'
    cases found'
    exact capped
  · exact fun capped => ⟨row, found, capped⟩

def monotone (n : ℕ) (c : Char) : String := String.ofList (List.replicate n c)

theorem utf8ByteSize_monotone (n : ℕ) (c : Char) :
    (monotone n c).utf8ByteSize = n * c.utf8Size := by
  induction n with
  | zero =>
    rw [Nat.zero_mul]
    rfl
  | succ n ih =>
    rw [monotone, List.replicate_succ, String.ofList_cons, String.utf8ByteSize_append,
      String.utf8ByteSize_singleton, Nat.succ_mul, Nat.add_comm, ← ih, monotone]

theorem head_monotone (n : ℕ) (c : Char) :
    head (monotone n c) = monotone (min (maxValueBytes - 64) n) c := by
  rw [head, monotone, String.toList_ofList, List.take_replicate, monotone]

def noteInput (value : String) : Json :=
  .object [("key", .string "notes"), ("value", .string value), ("kind", .string "project")]

def noteRequest (value : String) : Request where
  new := ⟨"notes", (storedValue value).1, .project, .agentInferred, none⟩
  truncated := (storedValue value).2

def noteRow (value : String) : Entry := newRow (noteRequest value).new "a" none 1

theorem accept_noteInput (debug : String → String) (value : String) :
    accept debug (noteInput value) = .ok (noteRequest value) := rfl

theorem remember_note (value : String) :
    rememberTx epochStamp [] (noteRequest value).new "a" ⟨1, 1, 1⟩ = .ok [noteRow value] := rfl

theorem value_noteRow (value : String) : (noteRow value).value = (storedValue value).1 := rfl

theorem get_noteRow (value : String) : get [noteRow value] "notes" = some (noteRow value) := rfl

theorem letters_capped :
    ∃ row, get [noteRow (monotone 5000 'a')] "notes" = some row ∧
      Capped (monotone 5000 'a') row.value := by
  refine (remembered_capped_iff (accept_noteInput id _) rfl wellFormed_nil (remember_note _)).mpr
    (.inr ?_)
  rw [head_monotone, utf8ByteSize_monotone]
  decide +kernel

theorem euros_beyond_cap :
    ∃ row, get [noteRow (monotone 1500 '€')] "notes" = some row ∧
      row.value.utf8ByteSize = 4544 ∧ ¬ Capped (monotone 1500 '€') row.value := by
  have beyond : maxValueBytes < (monotone 1500 '€').utf8ByteSize := by
    rw [utf8ByteSize_monotone]
    decide +kernel
  have size : (noteRow (monotone 1500 '€')).value.utf8ByteSize = 4544 := by
    rw [value_noteRow, storedValue, if_pos beyond, String.utf8ByteSize_append, head_monotone,
      utf8ByteSize_monotone]
    decide +kernel
  refine ⟨_, get_noteRow _, size, fun capped => ?_⟩
  have bounded := capped.bounded
  rw [size] at bounded
  exact absurd bounded (by decide)

end Havn.Runtime.MemoryTool
