import Mathlib.Order.MinMax
import Mathlib.Order.Bounds.Basic

/-!
# Folds that accumulate a maximum

A loop that widens an accumulator to the larger of what it has and what the next element offers
computes the maximum of the starting value and all the offers.  Booleans under `||` are the order
`false < true`.
-/

namespace Havn.Lib

variable {α β L : Type*} [LinearOrder L] {merge : β → α → β}

/-- **What an accumulated maximum is above.**  `read` is the component that is widened, `offer` what
an element offers. -/
theorem le_foldl_iff (read : β → L) (offer : α → L)
    (widen : ∀ b a, read (merge b a) = max (read b) (offer a)) (bound : L) :
    ∀ (as : List α) (b : β),
      bound ≤ read (as.foldl merge b) ↔ bound ≤ read b ∨ ∃ a ∈ as, bound ≤ offer a := by
  intro as
  induction as with
  | nil => intro b; simp
  | cons a as ih =>
    intro b
    rw [List.foldl_cons, ih, widen, le_max_iff]
    simp only [List.mem_cons, exists_eq_or_imp, or_assoc]

theorem foldl_flag_iff (read : β → Bool) (offer : α → Bool)
    (widen : ∀ b a, read (merge b a) = (read b || offer a)) (as : List α) (b : β) :
    read (as.foldl merge b) = true ↔ read b = true ∨ ∃ a ∈ as, offer a = true := by
  have isTrue : ∀ x : Bool, true ≤ x ↔ x = true := by decide
  have asMax : ∀ b a, read (merge b a) = max (read b) (offer a) := widen
  simpa only [isTrue] using le_foldl_iff read offer asMax true as b

/-- The accumulated value is the greatest offer when the starting value does not exceed some offer,
and no offer otherwise. -/
theorem foldl_isGreatest_iff (read : β → L) (offer : α → L)
    (widen : ∀ b a, read (merge b a) = max (read b) (offer a)) (as : List α) (b : β) :
    IsGreatest {n | ∃ a ∈ as, offer a = n} (read (as.foldl merge b)) ↔
      ∃ a ∈ as, read b ≤ offer a := by
  constructor
  · rintro ⟨⟨a, mem, attained⟩, -⟩
    refine ⟨a, mem, ?_⟩
    rw [attained]
    exact (le_foldl_iff read offer widen _ as b).mpr (.inl le_rfl)
  · rintro ⟨a, mem, above⟩
    constructor
    · rcases (le_foldl_iff read offer widen _ as b).mp le_rfl with fromStart | ⟨a', mem', below⟩
      · refine ⟨a, mem, le_antisymm ?_ (fromStart.trans above)⟩
        exact (le_foldl_iff read offer widen _ as b).mpr (.inr ⟨a, mem, le_rfl⟩)
      · refine ⟨a', mem', le_antisymm ?_ below⟩
        exact (le_foldl_iff read offer widen _ as b).mpr (.inr ⟨a', mem', le_rfl⟩)
    · rintro n ⟨a', mem', rfl⟩
      exact (le_foldl_iff read offer widen _ as b).mpr (.inr ⟨a', mem', le_rfl⟩)

end Havn.Lib
