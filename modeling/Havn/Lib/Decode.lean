import Mathlib.Data.List.Basic
import Havn.Lib.Json

/-!
# Records in JSON

The decoders a record derives when every field has a default.  It is read off an object, by name, or
off an array, by position, which must not be too long; what is there must decode, and entries of
other names are ignored.
-/

namespace Havn.Lib.Decode

open List

def setField (key : String) (value : Json) : List (String × Json) → List (String × Json)
  | [] => [(key, value)]
  | (key', value') :: fields =>
    if key' = key then (key, value) :: fields else (key', value') :: setField key value fields

theorem lookup_setField_self (key : String) (value : Json) (fields : List (String × Json)) :
    (setField key value fields).lookup key = some value := by
  induction fields with
  | nil => rw [setField, lookup_cons_self]
  | cons entry fields ih =>
    obtain ⟨key', value'⟩ := entry
    rw [setField]
    split
    · rw [lookup_cons_self]
    · rename_i other
      rw [lookup_cons, beq_false_of_ne (Ne.symm other)]
      exact ih

variable {key other : String}

theorem lookup_setField_of_ne (ne : other ≠ key) (value : Json)
    (fields : List (String × Json)) :
    (setField key value fields).lookup other = fields.lookup other := by
  induction fields with
  | nil => rw [setField, lookup_cons, beq_false_of_ne ne]
  | cons entry fields ih =>
    obtain ⟨key', value'⟩ := entry
    rw [setField]
    split
    · rename_i same
      rw [lookup_cons, lookup_cons, same, beq_false_of_ne ne]
    · rw [lookup_cons, lookup_cons, ih]

def removeField (key : String) (fields : List (String × Json)) : List (String × Json) :=
  fields.filter (·.1 ≠ key)

theorem lookup_removeField_self (key : String) (fields : List (String × Json)) :
    (removeField key fields).lookup key = none := by
  rw [lookup_eq_none_iff]
  intro entry mem
  have other : entry.1 ≠ key := of_decide_eq_true (mem_filter.mp mem).2
  exact bne_iff_ne.mpr (Ne.symm other)

theorem lookup_removeField_of_ne (ne : other ≠ key)
    (fields : List (String × Json)) :
    (removeField key fields).lookup other = fields.lookup other := by
  induction fields with
  | nil => rfl
  | cons entry fields ih =>
    rw [removeField, filter_cons]
    split
    · rw [lookup_cons, lookup_cons, ← removeField, ih]
    · rename_i same
      have keyEq : entry.1 = key := by simpa using same
      rw [lookup_cons, keyEq, beq_false_of_ne ne]
      exact ih

theorem removeField_cons_self (key : String) (value : Json) (fields : List (String × Json)) :
    removeField key ((key, value) :: fields) = removeField key fields :=
  filter_cons_of_neg (by simp)

theorem removeField_cons_of_ne (ne : other ≠ key) (value : Json)
    (fields : List (String × Json)) :
    removeField key ((other, value) :: fields) = (other, value) :: removeField key fields :=
  filter_cons_of_pos (decide_eq_true ne)

theorem removeField_setField (key : String) (value : Json) (fields : List (String × Json)) :
    removeField key (setField key value fields) = removeField key fields := by
  induction fields with
  | nil => exact removeField_cons_self key value []
  | cons entry fields ih =>
    obtain ⟨key', value'⟩ := entry
    rw [setField]
    split
    · rename_i same
      rw [same, removeField_cons_self, removeField_cons_self]
    · rename_i differs
      rw [removeField_cons_of_ne differs, removeField_cons_of_ne differs, ih]

theorem removeField_setField_of_ne (ne : other ≠ key) (value : Json)
    (fields : List (String × Json)) :
    removeField key (setField other value fields) =
      setField other value (removeField key fields) := by
  induction fields with
  | nil => exact removeField_cons_of_ne ne value []
  | cons entry fields ih =>
    obtain ⟨key', value'⟩ := entry
    rw [setField]
    split
    · rename_i same
      rw [same, removeField_cons_of_ne ne, removeField_cons_of_ne ne, setField, if_pos rfl]
    · rename_i differs
      by_cases gone : key' = key
      · rw [gone, removeField_cons_self, removeField_cons_self, ih]
      · rw [removeField_cons_of_ne gone, removeField_cons_of_ne gone, ih, setField,
          if_neg differs]

theorem setField_setField (key : String) (value value' : Json) (fields : List (String × Json)) :
    setField key value (setField key value' fields) = setField key value fields := by
  induction fields with
  | nil => simp [setField]
  | cons entry fields ih =>
    obtain ⟨key', value''⟩ := entry
    rw [setField, setField]
    split
    · rw [setField, if_pos rfl]
    · rename_i other
      rw [setField, if_neg other, ih]

def structFields (names : List String) : Json → Option (List (String × Json))
  | .object fields => some fields
  | .array items => if items.length ≤ names.length then some (names.zip items) else none
  | _ => none

section Fields

variable {α : Type} {decode : Json → Option α} {otherwise : α} {fields : List (String × Json)}

def field (fields : List (String × Json)) (key : String) (decode : Json → Option α)
    (otherwise : α) : Option α :=
  match fields.lookup key with
  | none => some otherwise
  | some value => decode value

theorem field_setField_self (key : String) (value : Json) :
    field (setField key value fields) key decode otherwise = decode value := by
  rw [field, lookup_setField_self]

theorem field_setField_of_ne (ne : other ≠ key) (value : Json) :
    field (setField key value fields) other decode otherwise =
      field fields other decode otherwise := by
  rw [field, field, lookup_setField_of_ne ne]

theorem field_removeField_self (key : String) :
    field (removeField key fields) key decode otherwise = some otherwise := by
  rw [field, lookup_removeField_self]

theorem field_removeField_of_ne (ne : other ≠ key) :
    field (removeField key fields) other decode otherwise =
      field fields other decode otherwise := by
  rw [field, field, lookup_removeField_of_ne ne]

theorem field_setField_eq_removeField (ne : other ≠ key) (value : Json) :
    field (setField key value fields) other decode otherwise =
      field (removeField key fields) other decode otherwise := by
  rw [field_setField_of_ne ne, field_removeField_of_ne ne]

end Fields

/-! ## Values -/

def unsigned (bound : ℕ) (value : Json) : Option ℕ := value.asU64.filter (· < bound)

def float (convert : Number → F64) : Json → Option F64
  | .number (.float value) => some value
  | .number n => some (convert n)
  | _ => none

def items {α : Type} (decode : Json → Option α) (value : Json) : Option (List α) :=
  value.asArray.bind (List.mapM decode)

def strings : Json → Option (List String) := items Json.asStr

def entry {α : Type} (decode : Json → Option α) (e : String × Json) : Option (String × α) :=
  (decode e.2).map fun value => (e.1, value)

def entries {α : Type} (decode : Json → Option α) (value : Json) : Option (List (String × α)) :=
  value.asObject.bind (List.mapM (entry decode))

section RoundTrip

variable {α β : Type}

theorem mapM_map_eq_some {f : α → β} {g : β → Option α} (back : ∀ a, g (f a) = some a)
    (as : List α) : (as.map f).mapM g = some as := by
  induction as with
  | nil => rfl
  | cons a as ih =>
    rw [map_cons, mapM_cons, back, ih]
    rfl

theorem strings_array (texts : List String) :
    strings (.array (texts.map .string)) = some texts := by
  have back : ∀ text, Json.asStr (.string text) = some text := fun _ => rfl
  exact mapM_map_eq_some back texts

theorem entries_object {encode : α → Json} {decode : Json → Option α}
    (back : ∀ a, decode (encode a) = some a) (as : List (String × α)) :
    entries decode (.object (as.map fun e => (e.1, encode e.2))) = some as := by
  refine mapM_map_eq_some (fun e => ?_) as
  rw [entry, back]
  rfl

end RoundTrip

end Havn.Lib.Decode
