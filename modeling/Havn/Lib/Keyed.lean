import Mathlib.Data.List.Sort

/-!
# Tables by key

A table is a list of rows; a unique column is a projection without duplicates.  A map from keys is a
function to `Option`, and `HasEntry` says that some value of it has a property.
-/

namespace Havn.Lib

open List Function

variable {ρ κ : Type*} {key : ρ → κ} {rows : List ρ} {row : ρ}

/-- Any filter that selects `row` and otherwise only rows with its key finds
`row`. -/
theorem find?_eq_some_of_unique (unique : (rows.map key).Nodup) (mem : row ∈ rows)
    {selected : ρ → Bool} (isSelected : selected row = true)
    (sameKey : ∀ row', selected row' = true → key row' = key row) :
    rows.find? selected = some row := by
  cases found : rows.find? selected with
  | none => exact absurd isSelected (find?_eq_none.mp found row mem)
  | some row' =>
    have same := sameKey row' (find?_some found)
    rw [inj_on_of_nodup_map unique (mem_of_find?_eq_some found) mem same]

theorem exists_first {κ : Type*} [LinearOrder κ] (key : ρ → κ) (mem : row ∈ rows) :
    ∃ first rest, rows.insertionSort (fun a b => key a ≤ key b) = first :: rest ∧
      first ∈ rows ∧ key first ≤ key row := by
  have total : Std.Total fun a b : ρ => key a ≤ key b := ⟨fun a b => le_total (key a) (key b)⟩
  have trans : IsTrans ρ fun a b => key a ≤ key b := ⟨fun _ _ _ => le_trans⟩
  have sorted := pairwise_insertionSort (fun a b => key a ≤ key b) rows
  have kept := (mem_insertionSort fun a b => key a ≤ key b).mpr mem
  cases order : rows.insertionSort fun a b => key a ≤ key b with
  | nil =>
    rw [order] at kept
    exact absurd kept not_mem_nil
  | cons first rest =>
    rw [order] at kept sorted
    have inRows : first ∈ rows := by
      rw [← mem_insertionSort fun a b => key a ≤ key b, order]
      exact mem_cons_self
    refine ⟨first, rest, rfl, inRows, ?_⟩
    rcases mem_cons.mp kept with rfl | later
    · exact le_rfl
    · exact rel_of_pairwise_cons sorted later

theorem update_eq_some [DecidableEq κ] {map : κ → Option ρ} {k k' : κ} {new found : ρ}
    (h : update map k (some new) k' = some found) :
    (k' = k ∧ found = new) ∨ (k' ≠ k ∧ map k' = some found) := by
  rw [update_apply] at h
  split at h
  · exact .inl ⟨‹_›, (Option.some.inj h).symm⟩
  · exact .inr ⟨‹_›, h⟩

def HasEntry (map : κ → Option ρ) (P : ρ → Prop) : Prop :=
  ∃ k value, map k = some value ∧ P value

namespace HasEntry

variable {map map' : κ → Option ρ} {P Q : ρ → Prop} {k : κ} {new : ρ}

theorem imp (weaker : ∀ value, P value → Q value) (entry : HasEntry map P) : HasEntry map Q := by
  obtain ⟨k, value, found, holds⟩ := entry
  exact ⟨k, value, found, weaker value holds⟩

variable [DecidableEq κ]

theorem of_update (updated : map' = update map k (some new))
    (entry : HasEntry map' P) : P new ∨ HasEntry map P := by
  obtain ⟨k', value, found, holds⟩ := entry
  rw [updated] at found
  rcases update_eq_some found with ⟨-, rfl⟩ | ⟨-, found⟩
  · exact .inl holds
  · exact .inr ⟨k', value, found, holds⟩

theorem update (updated : map' = update map k (some new))
    (kept : ∀ old, map k = some old → P old → P new) (entry : HasEntry map P) :
    HasEntry map' P := by
  obtain ⟨k', value, found, holds⟩ := entry
  subst updated
  by_cases same : k' = k
  · subst same
    exact ⟨k', new, update_self .., kept value found holds⟩
  · exact ⟨k', value, by rw [update_of_ne same, found], holds⟩

theorem update_iff (updated : map' = Function.update map k (some new))
    (before : ∀ old, map k = some old → ¬ P old) (after : ¬ P new) :
    HasEntry map' P ↔ HasEntry map P :=
  ⟨fun entry => (of_update updated entry).resolve_left after,
    update updated fun old found holds => absurd holds (before old found)⟩

end HasEntry

end Havn.Lib
