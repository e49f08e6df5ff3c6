import Mathlib.Data.List.Infix

/-!
# Matching with `LIKE`

The operator of SQL as SQLite evaluates it without an `ESCAPE` clause: `%` stands for any text, `_`
for any one character, and the letters of ASCII compare without case.
-/

namespace Havn.Lib

open List

def like : List Char → List Char → Bool
  | [], text => text.isEmpty
  | c :: pattern, text =>
    if c = '%' then text.tails.any (like pattern)
    else
      match text with
      | [] => false
      | d :: rest => decide (c = '_' ∨ c.toLower = d.toLower) && like pattern rest

theorem like_nil {text : List Char} : like [] text = true ↔ text = [] := isEmpty_iff

variable {pattern text : List Char}

theorem like_any :
    like ('%' :: pattern) text = true ↔ ∃ u v, text = u ++ v ∧ like pattern v = true := by
  rw [like.eq_def]
  dsimp only
  rw [if_pos rfl, any_eq_true]
  constructor
  · rintro ⟨v, isTail, matched⟩
    obtain ⟨u, rfl⟩ := (mem_tails v text).mp isTail
    exact ⟨u, v, rfl, matched⟩
  · rintro ⟨u, v, rfl, matched⟩
    exact ⟨v, (mem_tails v (u ++ v)).mpr (suffix_append u v), matched⟩

theorem like_cons {c : Char} (single : c ≠ '%') :
    like (c :: pattern) text = true ↔
      ∃ d rest, text = d :: rest ∧ (c = '_' ∨ c.toLower = d.toLower) ∧
        like pattern rest = true := by
  rw [like.eq_def]
  dsimp only
  rw [if_neg single]
  cases text with
  | nil => simp
  | cons d rest => simp

theorem like_append {first second : List Char} {text : List Char} :
    like (first ++ second) text = true ↔
      ∃ u v, text = u ++ v ∧ like first u = true ∧ like second v = true := by
  induction first generalizing text with
  | nil =>
    constructor
    · intro matched
      exact ⟨[], text, rfl, rfl, matched⟩
    · rintro ⟨u, v, rfl, isNil, matched⟩
      rwa [like_nil.mp isNil]
  | cons c first ih =>
    by_cases isAny : c = '%'
    · subst isAny
      rw [cons_append, like_any]
      constructor
      · rintro ⟨skipped, rest, rfl, matched⟩
        obtain ⟨u, v, rfl, before, after⟩ := ih.mp matched
        refine ⟨skipped ++ u, v, (append_assoc _ _ _).symm, ?_, after⟩
        exact like_any.mpr ⟨skipped, u, rfl, before⟩
      · rintro ⟨_, v, rfl, matched, after⟩
        obtain ⟨skipped, u, rfl, before⟩ := like_any.mp matched
        exact ⟨skipped, u ++ v, append_assoc _ _ _, ih.mpr ⟨u, v, rfl, before, after⟩⟩
    · rw [cons_append, like_cons isAny]
      constructor
      · rintro ⟨d, rest, rfl, one, matched⟩
        obtain ⟨u, v, rfl, before, after⟩ := ih.mp matched
        exact ⟨d :: u, v, rfl, (like_cons isAny).mpr ⟨d, u, rfl, one, before⟩, after⟩
      · rintro ⟨_, v, rfl, matched, after⟩
        obtain ⟨d, u, rfl, one, before⟩ := (like_cons isAny).mp matched
        exact ⟨d, u ++ v, rfl, one, ih.mpr ⟨u, v, rfl, before, after⟩⟩

theorem like_self (text : List Char) : like text text = true := by
  induction text with
  | nil => rfl
  | cons c rest ih =>
    by_cases isAny : c = '%'
    · subst isAny
      exact like_any.mpr ⟨['%'], rest, rfl, ih⟩
    · exact (like_cons isAny).mpr ⟨c, rest, rfl, .inr rfl, ih⟩

theorem val_toLower (c : Char) : c.toLower.val =
    if 'A'.val ≤ c.val ∧ c.val ≤ 'Z'.val then c.val + ('a'.val - 'A'.val) else c.val := by
  by_cases upper : 'A'.val ≤ c.val ∧ c.val ≤ 'Z'.val
  · rw [if_pos upper]
    exact congrArg Char.val (dif_pos upper)
  · rw [if_neg upper]
    exact congrArg Char.val (dif_neg upper)

theorem toLower_eq_toLower_iff {c d : Char} (noLetter : c.isAlpha = false) :
    c.toLower = d.toLower ↔ d = c := by
  refine ⟨fun same => ?_, fun same => by rw [same]⟩
  have letters : (decide ('A'.val ≤ c.val ∧ c.val ≤ 'Z'.val) ||
      (decide ('a'.val ≤ c.val) && decide (c.val ≤ 'z'.val))) = false := noLetter
  simp only [Bool.or_eq_false_iff, Bool.and_eq_false_iff, decide_eq_false_iff_not,
    UInt32.le_iff_toNat_le] at letters
  have values := congrArg Char.val same
  rw [val_toLower, val_toLower] at values
  simp only [UInt32.le_iff_toNat_le] at values
  have upperA : 'A'.val.toNat = 65 := rfl
  have upperZ : 'Z'.val.toNat = 90 := rfl
  have lowerA : 'a'.val.toNat = 97 := rfl
  have lowerZ : 'z'.val.toNat = 122 := rfl
  rw [if_neg (by omega)] at values
  split at values
  · rename_i upper
    have moved := congrArg UInt32.toNat values
    have distance : 'a'.val - 'A'.val = 32 := rfl
    have small : (32 : UInt32).toNat = 32 := rfl
    rw [distance, UInt32.toNat_add] at moved
    omega
  · exact (Char.ext values).symm

/-- **The pattern of an extension**: a separator and then anything. -/
theorem like_separated {sep : Char} (single : sep ≠ '%') (literal : sep ≠ '_')
    (noLetter : sep.isAlpha = false) :
    like (pattern ++ [sep, '%']) text = true ↔
      ∃ u v, text = u ++ sep :: v ∧ like pattern u = true := by
  rw [like_append]
  constructor
  · rintro ⟨u, v, rfl, before, after⟩
    obtain ⟨d, rest, rfl, one, -⟩ := (like_cons single).mp after
    rcases one with wild | same
    · exact absurd wild literal
    · obtain rfl := (toLower_eq_toLower_iff noLetter).mp same
      exact ⟨u, rest, rfl, before⟩
  · rintro ⟨u, v, rfl, before⟩
    refine ⟨u, sep :: v, rfl, before, (like_cons single).mpr ⟨sep, v, rfl, .inr rfl, ?_⟩⟩
    exact like_any.mpr ⟨v, [], (append_nil v).symm, rfl⟩

end Havn.Lib
