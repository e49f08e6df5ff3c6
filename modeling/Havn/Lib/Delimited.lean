import Mathlib.Data.List.TakeWhile

/-!
# Delimited records in a chunked stream

A buffered transport hands its items over in non-empty chunks whose borders mean nothing.  A reader
sees one chunk at a time; what it is for is a statement about the flat sequence: the next record is
everything before the first delimiter, unless that is longer than a limit or no delimiter comes.
-/

namespace Havn.Lib

open List

variable {α : Type*}

structure Chunk (α : Type*) where
  items : List α
  nonempty : items ≠ []

def flat (chunks : List (Chunk α)) : List α := (chunks.map Chunk.items).flatten

@[simp]
theorem flat_nil : flat ([] : List (Chunk α)) = [] := rfl

@[simp]
theorem flat_cons (chunk : Chunk α) (rest : List (Chunk α)) :
    flat (chunk :: rest) = chunk.items ++ flat rest := by
  simp [flat]

def consume (n : ℕ) : List (Chunk α) → List (Chunk α)
  | [] => []
  | chunk :: rest =>
    if left : chunk.items.drop n = [] then rest else ⟨chunk.items.drop n, left⟩ :: rest

theorem flat_consume_cons (n : ℕ) (chunk : Chunk α) (rest : List (Chunk α)) :
    flat (consume n (chunk :: rest)) = chunk.items.drop n ++ flat rest := by
  by_cases left : chunk.items.drop n = []
  · rw [consume, dif_pos left, left, nil_append]
  · rw [consume, dif_neg left, flat_cons]

inductive Scan (α : Type*) where
  | tooLong
  | ended
  | unterminated
  | found (line rest : List α)

variable [DecidableEq α]

/-- The items before the first `d`, refused when there are more than `limit`. -/
def scan (limit : ℕ) (d : α) (items : List α) : Scan α :=
  let line := items.takeWhile (· ≠ d)
  if limit < line.length then .tooLong
  else
    match items.dropWhile (· ≠ d) with
    | [] => if line = [] then .ended else .unterminated
    | _ :: rest => .found line rest

section Prefixes

variable {limit : ℕ} {d : α} {seen : List α} (free : d ∉ seen)

include free

theorem takeWhile_append_of_free (later : List α) :
    (seen ++ later).takeWhile (· ≠ d) = seen ++ later.takeWhile (· ≠ d) := by
  refine takeWhile_append_of_pos fun item mem => ?_
  simpa using ne_of_mem_of_not_mem mem free

theorem dropWhile_append_of_free (later : List α) :
    (seen ++ later).dropWhile (· ≠ d) = later.dropWhile (· ≠ d) := by
  refine dropWhile_append_of_pos fun item mem => ?_
  simpa using ne_of_mem_of_not_mem mem free

theorem scan_delimited (rest : List α) :
    scan limit d (seen ++ d :: rest) =
      if limit < seen.length then .tooLong else .found seen rest := by
  have line := takeWhile_append_of_free free (d :: rest)
  have after := dropWhile_append_of_free free (d :: rest)
  rw [takeWhile_cons_of_neg (by simp), append_nil] at line
  rw [dropWhile_cons_of_neg (by simp)] at after
  simp only [scan, line, after]

theorem scan_tooLong (exceeds : limit < seen.length) (later : List α) :
    scan limit d (seen ++ later) = .tooLong := by
  have long : limit < ((seen ++ later).takeWhile (· ≠ d)).length := by
    rw [takeWhile_append_of_free free, length_append]
    omega
  simp only [scan, if_pos long]

theorem scan_free (within : seen.length ≤ limit) :
    scan limit d seen = if seen = [] then .ended else .unterminated := by
  have line := takeWhile_append_of_free free []
  have rest := dropWhile_append_of_free free []
  simp only [append_nil, takeWhile_nil, dropWhile_nil] at line rest
  simp only [scan, line, rest, if_neg (Nat.not_lt.mpr within)]

end Prefixes

variable {d : α} {items line line' rest rest' : List α}

theorem scan_rest_length_lt {limit : ℕ} {items line rest : List α}
    (found : scan limit d items = .found line rest) : rest.length < items.length := by
  have parts := congrArg List.length (takeWhile_append_dropWhile (p := (· ≠ d)) (l := items))
  simp only [scan] at found
  split at found
  · cases found
  split at found
  · split at found <;> cases found
  · rename_i left
    cases found
    rw [left] at parts
    simp only [length_append, length_cons] at parts
    omega

theorem split_of_findIdx? {i : ℕ} (found : items.findIdx? (· == d) = some i) :
    items = items.take i ++ d :: items.drop (i + 1) ∧ d ∉ items.take i ∧
      (items.take i).length = i := by
  obtain ⟨bound, isDelim, before⟩ := findIdx?_eq_some_iff_getElem.mp found
  have atIndex : items[i] = d := by simpa using isDelim
  refine ⟨?_, ?_, ?_⟩
  · rw [← atIndex, getElem_cons_drop, take_append_drop]
  · intro mem
    obtain ⟨j, jBound, here⟩ := mem_take_iff_getElem.mp mem
    have earlier : j < i := by omega
    exact before j earlier (by simpa using here)
  · rw [length_take]
    omega

theorem free_of_findIdx?_eq_none (absent : items.findIdx? (· == d) = none) :
    d ∉ items := by
  intro mem
  simpa using findIdx?_eq_none_iff.mp absent d mem

def splitOnce (d : α) (items : List α) : Option (List α × List α) :=
  match items.dropWhile (· ≠ d) with
  | [] => none
  | _ :: rest => some (items.takeWhile (· ≠ d), rest)

theorem splitOnce_append {line : List α} (free : d ∉ line) (rest : List α) :
    splitOnce d (line ++ d :: rest) = some (line, rest) := by
  rw [splitOnce, dropWhile_append_of_free free, takeWhile_append_of_free free]
  simp

theorem splitOnce_of_free (free : d ∉ items) : splitOnce d items = none := by
  have rest := dropWhile_append_of_free free []
  rw [append_nil, dropWhile_nil] at rest
  rw [splitOnce, rest]

theorem splitOnce_eq_some {items line rest : List α}
    (split : splitOnce d items = some (line, rest)) :
    items = line ++ d :: rest := by
  by_cases mem : d ∈ items
  · obtain ⟨before, after, rfl, free⟩ := eq_append_cons_of_mem mem
    rw [splitOnce_append free] at split
    cases split
    rfl
  · rw [splitOnce_of_free mem] at split
    cases split

theorem append_delimiter_inj (free : d ∉ line) (free' : d ∉ line') :
    line ++ d :: rest = line' ++ d :: rest' ↔ line = line' ∧ rest = rest' := by
  constructor
  · intro same
    have split := splitOnce_append free rest
    rw [same, splitOnce_append free' rest'] at split
    obtain ⟨rfl, rfl⟩ := Prod.mk.inj (Option.some.inj split)
    exact ⟨rfl, rfl⟩
  · rintro ⟨rfl, rfl⟩
    rfl

theorem delimiter_append_inj (free : d ∉ rest) (free' : d ∉ rest') :
    line ++ d :: rest = line' ++ d :: rest' ↔ line = line' ∧ rest = rest' := by
  have backwards : ∀ line rest : List α,
      (line ++ d :: rest).reverse = rest.reverse ++ d :: line.reverse := by simp
  rw [← reverse_inj, backwards, backwards, append_delimiter_inj (by simpa) (by simpa),
    reverse_inj, reverse_inj, and_comm]

omit [DecidableEq α] in
theorem append_delimiter_eq_iff {line last before after : List α} (free : d ∉ last) :
    line ++ d :: last = before ++ d :: after ↔
      (before = line ∧ after = last) ∨ ∃ rest, line = before ++ d :: rest ∧
        after = rest ++ d :: last := by
  constructor
  · intro same
    rcases append_eq_append_iff.mp same with ⟨mid, rfl, tail⟩ | ⟨mid, rfl, tail⟩
    · cases mid with
      | nil => exact .inl ⟨append_nil line, (List.cons.inj tail).2.symm⟩
      | cons c mid =>
        rw [(List.cons.inj tail).2] at free
        exact absurd (mem_append_right mid mem_cons_self) free
    · cases mid with
      | nil => exact .inl ⟨(append_nil before).symm, (List.cons.inj tail).2⟩
      | cons c mid =>
        obtain ⟨rfl, rfl⟩ := List.cons.inj tail
        exact .inr ⟨mid, rfl, rfl⟩
  · rintro (⟨rfl, rfl⟩ | ⟨rest, rfl, rfl⟩)
    · rfl
    · simp

end Havn.Lib
