import Havn.Lib.Keyed

/-!
# Tables with a unique column

A table carries the proof that its key is unique.  What a statement does is said by what a lookup
finds afterwards: `find_update`, `find_delete`, `find_upsert`.
-/

namespace Havn.Lib

open List

universe u v

variable {ρ : Type u} {κ : Type v}

structure Table (ρ : Type u) {κ : Type v} (key : ρ → κ) where
  rows : List ρ
  unique : (rows.map key).Nodup

namespace Table

variable {key : ρ → κ}

instance : EmptyCollection (Table ρ key) := ⟨⟨[], nodup_nil⟩⟩

variable [DecidableEq κ] (t : Table ρ key)

def find (k : κ) : Option ρ := t.rows.find? fun row => key row = k

def update (selected : ρ → Bool) (set : ρ → ρ) (keeps : ∀ row, key (set row) = key row) :
    Table ρ key where
  rows := t.rows.map fun row => if selected row then set row else row
  unique := by
    have same : (t.rows.map fun row => if selected row then set row else row).map key =
        t.rows.map key := by
      rw [map_map]
      refine map_congr_left fun row _ => ?_
      show key (if selected row then set row else row) = key row
      split
      · exact keeps row
      · rfl
    rw [same]
    exact t.unique

def delete (selected : ρ → Bool) : Table ρ key where
  rows := t.rows.filter fun row => !selected row
  unique := (filter_sublist.map key).nodup t.unique

variable {t}

theorem find_eq_some {k : κ} {row : ρ} : t.find k = some row ↔ row ∈ t.rows ∧ key row = k := by
  constructor
  · intro found
    exact ⟨mem_of_find?_eq_some found, by simpa using find?_some found⟩
  · rintro ⟨mem, rfl⟩
    exact find?_eq_some_of_unique t.unique mem (decide_eq_true rfl)
      fun row' same => of_decide_eq_true same

theorem find_eq_none {k : κ} : t.find k = none ↔ ∀ row ∈ t.rows, key row ≠ k := by
  simp [find]

theorem find_key {row : ρ} (mem : row ∈ t.rows) : t.find (key row) = some row :=
  find_eq_some.mpr ⟨mem, rfl⟩

variable (t)

def upsert (new : ρ) (set : ρ → ρ) (keeps : ∀ row, key (set row) = key row) : Table ρ key :=
  if absent : t.find (key new) = none then
    { rows := t.rows ++ [new]
      unique := by
        rw [map_append, map_singleton, nodup_append']
        refine ⟨t.unique, nodup_singleton _, ?_⟩
        simpa using fun row mem => find_eq_none.mp absent row mem }
  else
    t.update (fun row => key row = key new) set keeps

variable {t}

@[simp]
theorem find_update {selected : ρ → Bool} {set : ρ → ρ} {keeps : ∀ row, key (set row) = key row}
    (k : κ) : (t.update selected set keeps).find k =
      (t.find k).map fun row => if selected row then set row else row := by
  have sameKey : (fun row => decide (key (if selected row then set row else row) = k)) =
      fun row => decide (key row = k) := by
    funext row
    split
    · rw [keeps]
    · rfl
  show (t.rows.map _).find? _ = _
  rw [find?_map]
  show Option.map _ (t.rows.find? fun row => decide (key (if selected row then _ else row) = k)) = _
  rw [sameKey]
  rfl

@[simp]
theorem find_delete {selected : ρ → Bool} (k : κ) :
    (t.delete selected).find k = (t.find k).filter fun row => !selected row := by
  cases found : t.find k with
  | none =>
    refine find_eq_none.mpr fun row mem => ?_
    exact find_eq_none.mp found row (mem_of_mem_filter mem)
  | some row =>
    obtain ⟨mem, isKey⟩ := find_eq_some.mp found
    cases gone : selected row with
    | false =>
      rw [Option.filter_some_pos (by simp [gone])]
      exact find_eq_some.mpr ⟨mem_filter.mpr ⟨mem, by simp [gone]⟩, isKey⟩
    | true =>
      rw [Option.filter_some_neg (by simp [gone])]
      refine find_eq_none.mpr fun row' mem' isKey' => ?_
      obtain ⟨mem', kept⟩ := mem_filter.mp mem'
      obtain rfl := inj_on_of_nodup_map t.unique mem' mem (isKey'.trans isKey.symm)
      simp [gone] at kept

theorem find_upsert {new : ρ} {set : ρ → ρ} {keeps : ∀ row, key (set row) = key row} (k : κ) :
    (t.upsert new set keeps).find k =
      if k = key new then some ((t.find (key new)).elim new set) else t.find k := by
  unfold upsert
  split
  · rename_i absent
    by_cases same : k = key new
    · rw [if_pos same, absent, same]
      refine find_eq_some.mpr ⟨?_, rfl⟩
      exact mem_append_right _ mem_cons_self
    · rw [if_neg same]
      show (t.rows ++ [new]).find? _ = t.rows.find? _
      rw [find?_append, find?_singleton, if_neg (by simpa using Ne.symm same),
        Option.or_none]
  · rename_i present
    obtain ⟨row, found⟩ := Option.ne_none_iff_exists'.mp present
    have isKey := (find_eq_some.mp found).2
    rw [find_update]
    by_cases same : k = key new
    · rw [if_pos same, same, found]
      simp [isKey]
    · rw [if_neg same]
      cases other : t.find k with
      | none => rfl
      | some =>
        have isKey' := (find_eq_some.mp other).2
        simp [isKey', same]

end Table

end Havn.Lib
