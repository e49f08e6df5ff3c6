import Mathlib.Data.List.TakeWhile
import Havn.Lib.Text

/-!
# Lines of text

How the source's standard library takes text apart into lines.
-/

namespace Havn.Lib

open List

variable (cs : List Char)

def trimStart : List Char := cs.dropWhile isWhitespace

def trimEnd : List Char := (cs.reverse.dropWhile isWhitespace).reverse

/-- `str::split_inclusive('\n')`: each piece keeps its line feed. -/
def splitInclusive : List Char → List (List Char)
  | [] => []
  | c :: cs =>
    if c = '\n' then [c] :: splitInclusive cs
    else
      match splitInclusive cs with
      | [] => [[c]]
      | line :: rest => (c :: line) :: rest

def stripEnding (line : List Char) : List Char :=
  if line.getLast? = some '\n' then
    if line.dropLast.getLast? = some '\r' then line.dropLast.dropLast else line.dropLast
  else line

def lines : List (List Char) := (splitInclusive cs).map stripEnding

def firstWord (line : List Char) : List Char :=
  (trimStart line).takeWhile fun c => !isWhitespace c

/-! ## Trimming -/

section Trim

variable {before after cs : List Char}

theorem trimmed_of_ends (ends : ∀ c, c ∈ cs.head? ∨ c ∈ cs.getLast? → isWhitespace c = false) :
    trimEnd (trimStart cs) = cs := by
  have keep : ∀ {cs : List Char}, (∀ c ∈ cs.head?, isWhitespace c = false) →
      cs.dropWhile isWhitespace = cs := by
    intro cs first
    cases cs with
    | nil => rfl
    | cons c cs => simp [first c rfl]
  rw [trimStart, keep fun c first => ends c (.inl first), trimEnd,
    keep fun c last => ends c (.inr (by rwa [head?_reverse] at last)), reverse_reverse]

theorem firstWord_append {word rest : List Char} (visible : ∀ c ∈ word, isWhitespace c = false)
    (nonempty : word ≠ []) (ends : ∀ c ∈ rest.head?, isWhitespace c = true) :
    firstWord (word ++ rest) = word := by
  have kept : trimStart (word ++ rest) = word ++ rest := by
    cases word with
    | nil => exact absurd rfl nonempty
    | cons c word =>
      rw [trimStart, cons_append, dropWhile_cons_of_neg]
      simp [visible c mem_cons_self]
  have stops : rest.takeWhile (fun c => !isWhitespace c) = [] := by
    cases rest with
    | nil => rfl
    | cons c rest => simp [ends c rfl]
  rw [firstWord, kept, takeWhile_append_of_pos (by simpa using visible), stops,
    append_nil]

end Trim

theorem isWhitespace_of_isDigit {c : Char} (digit : c.isDigit = true) : isWhitespace c = false := by
  have bounds : 48 ≤ c.toNat ∧ c.toNat ≤ 57 := by
    simpa [Char.isDigit, UInt32.le_iff_toNat_le] using digit
  simp only [isWhitespace, mem_cons, not_mem_nil, or_false, decide_eq_false_iff_not]
  omega

/-! ## Putting lines together -/

theorem splitInclusive_line {line : List Char} (free : '\n' ∉ line) (rest : List Char) :
    splitInclusive (line ++ '\n' :: rest) = (line ++ ['\n']) :: splitInclusive rest := by
  induction line with
  | nil =>
    show splitInclusive ('\n' :: rest) = _
    rw [splitInclusive, if_pos rfl]
    rfl
  | cons c line ih =>
    have other : c ≠ '\n' := fun same => free (same ▸ mem_cons_self)
    rw [cons_append, splitInclusive, if_neg other,
      ih fun mem => free (mem_cons_of_mem c mem)]
    rfl

theorem splitInclusive_flatten {texts : List (List Char)} (free : ∀ line ∈ texts, '\n' ∉ line)
    (rest : List Char) : splitInclusive ((texts.map (· ++ ['\n'])).flatten ++ rest) =
      texts.map (· ++ ['\n']) ++ splitInclusive rest := by
  induction texts with
  | nil => rfl
  | cons line texts ih =>
    obtain ⟨first, others⟩ := forall_mem_cons.mp free
    rw [map_cons, flatten_cons, append_assoc, append_assoc,
      singleton_append, splitInclusive_line first, ih others]
    rfl

theorem stripEnding_line {line : List Char} (ends : line.getLast? ≠ some '\r') :
    stripEnding (line ++ ['\n']) = line := by
  rw [stripEnding, getLast?_concat, if_pos rfl, dropLast_concat, if_neg ends]

theorem lines_flatten {texts : List (List Char)}
    (plain : ∀ line ∈ texts, '\n' ∉ line ∧ line.getLast? ≠ some '\r') :
    lines (texts.map (· ++ ['\n'])).flatten = texts := by
  have split := splitInclusive_flatten (fun line mem => (plain line mem).1) []
  rw [append_nil] at split
  rw [lines, split, splitInclusive, append_nil, map_map]
  refine (map_congr_left fun line mem => ?_).trans (map_id texts)
  exact stripEnding_line (plain line mem).2

end Havn.Lib
