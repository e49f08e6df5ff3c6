import Havn.Lib.Text

/-!
# Free text as a search expression

`escape_fts_query` turns what a user typed into an FTS5 expression.  The reader is FTS5's own:
operators, barewords, and strings in which a doubled quote is one quote.  It reads a C string, so a
character `U+0000` is where the expression ends.
-/

namespace Havn.Db.Conversations

open Lib

/-! ## The expression -/

def splitWhitespace (input : List Char) : List (List Char) :=
  (input.splitOnP isWhitespace).filter (!·.isEmpty)

variable (word : List Char)

def escapeQuotes : List Char :=
  word.flatMap fun c => if c = '"' then ['"', '"'] else [c]

def phrase : List Char := '"' :: escapeQuotes word ++ ['"']

def joinOr (phrases : List (List Char)) : List Char := [' ', 'O', 'R', ' '].intercalate phrases

def escapeFtsQuery (input : String) : String :=
  String.ofList (joinOr ((splitWhitespace input.toList).map phrase))

/-! ## How FTS5 reads an expression -/

inductive Token where
  | string (text : List Char)
  | bareword (text : List Char)
  | operator (sign : Char)
  deriving DecidableEq

/-- In `quoted` the last character was a quote, which ends the string unless another one follows. -/
inductive Mode where
  | between
  | string (text : List Char)
  | quoted (text : List Char)
  | bareword (text : List Char)

def isBareword (c : Char) : Bool := c.isAlphanum ∨ c = '_' ∨ 127 < c.toNat ∨ c.toNat = 26

def start (c : Char) : Option (List Token × Mode) :=
  if c ∈ [' ', '\t', '\n', '\r'] then some ([], .between)
  else if c = '"' then some ([], .string [])
  else if c ∈ ['(', ')', '\x7b', '\x7d', ':', ',', '+', '*', '-', '^'] then
    some ([.operator c], .between)
  else if isBareword c then some ([], .bareword [c])
  else none

def Mode.step : Mode → Char → Option (List Token × Mode)
  | .between, c => start c
  | .string text, c => some ([], if c = '"' then .quoted text else .string (text ++ [c]))
  | .quoted text, c =>
    if c = '"' then some ([], .string (text ++ [c]))
    else (start c).map fun next => (.string text :: next.1, next.2)
  | .bareword text, c =>
    if isBareword c then some ([], .bareword (text ++ [c]))
    else (start c).map fun next => (.bareword text :: next.1, next.2)

def Mode.finish : Mode → Option (List Token)
  | .between => some []
  | .string _ => none
  | .quoted text => some [.string text]
  | .bareword text => some [.bareword text]

def tokens : Mode → List Char → Option (List Token)
  | mode, [] => mode.finish
  | mode, c :: cs =>
    if c = '\x00' then mode.finish
    else do
      let next ← mode.step c
      let rest ← tokens next.2 cs
      return next.1 ++ rest

/-- The alternatives of an expression that is nothing but strings joined by `OR`. -/
def alternatives : List Token → Option (List (List Char))
  | [] => some []
  | [.string text] => some [text]
  | .string text :: .bareword ['O', 'R'] :: .string next :: rest =>
    (alternatives (.string next :: rest)).map (text :: ·)
  | _ => none

variable (words : List (List Char))

def orTokens : List Token :=
  [.bareword ['O', 'R']].intercalate (words.map fun word => [.string word])

/-! ## The expression is read as it was meant -/

@[simp]
theorem alternatives_orTokens : alternatives (orTokens words) = some words := by
  induction words with
  | nil => rfl
  | cons word words ih =>
    cases words with
    | nil => rfl
    | cons next rest =>
      have joined : orTokens (word :: next :: rest) =
          .string word :: .bareword ['O', 'R'] :: orTokens (next :: rest) := rfl
      obtain ⟨after, same⟩ : ∃ after, orTokens (next :: rest) = .string next :: after := by
        cases rest <;> exact ⟨_, rfl⟩
      rw [same] at ih
      rw [joined, same, alternatives, ih, Option.map_some]

theorem escapeQuotes_cons (c : Char) (word : List Char) :
    escapeQuotes (c :: word) = (if c = '"' then ['"', '"'] else [c]) ++ escapeQuotes word :=
  List.flatMap_cons

theorem tokens_string (text rest : List Char) {word : List Char} (whole : '\x00' ∉ word) :
    tokens (.string text) (escapeQuotes word ++ '"' :: rest) =
      tokens (.quoted (text ++ word)) rest := by
  induction word generalizing text with
  | nil => simp [escapeQuotes, tokens, Mode.step]
  | cons c word ih =>
    have notNul : c ≠ '\x00' := fun nul => whole (nul ▸ List.mem_cons_self)
    have ih := fun text => ih text fun mem => whole (List.mem_cons_of_mem _ mem)
    rw [escapeQuotes_cons, List.append_assoc]
    -- a quote takes two steps, through `quoted` and back
    by_cases quote : c = '"'
    · subst quote
      simp [tokens, Mode.step, ih]
    · simp [tokens, Mode.step, quote, notNul, ih]

/-- A string that `U+0000` cuts off is not terminated. -/
theorem tokens_string_cut (text rest : List Char) {word : List Char} (cut : '\x00' ∈ word) :
    tokens (.string text) (escapeQuotes word ++ rest) = none := by
  induction word generalizing text with
  | nil => cases cut
  | cons c word ih =>
    rw [escapeQuotes_cons, List.append_assoc]
    by_cases nul : c = '\x00'
    · subst nul
      simp [tokens, Mode.finish]
    · have later : '\x00' ∈ word := (List.mem_cons.mp cut).resolve_left (Ne.symm nul)
      by_cases quote : c = '"'
      · subst quote
        simp [tokens, Mode.step, ih _ later]
      · simp [tokens, Mode.step, quote, nul, ih _ later]

theorem tokens_phrase (word rest : List Char) :
    tokens .between (phrase word ++ rest) =
      if '\x00' ∈ word then none else tokens (.quoted word) rest := by
  have opened : tokens .between (phrase word ++ rest) =
      tokens (.string []) (escapeQuotes word ++ '"' :: rest) := by
    simp [phrase, tokens, Mode.step, start]
  rw [opened]
  split
  · rename_i cut
    exact tokens_string_cut [] _ cut
  · rename_i whole
    exact tokens_string [] rest whole

theorem tokens_or (word rest : List Char) :
    tokens (.quoted word) (' ' :: 'O' :: 'R' :: ' ' :: rest) =
      (tokens .between rest).map fun later => .string word :: .bareword ['O', 'R'] :: later := by
  cases read : tokens .between rest <;> simp [tokens, Mode.step, start, isBareword, read]

theorem tokens_phrases :
    tokens .between (joinOr ((word :: words).map phrase)) =
      if '\x00' ∈ (word :: words).flatten then none else some (orTokens (word :: words)) := by
  induction words generalizing word with
  | nil =>
    show tokens .between (phrase word ++ []) = _
    rw [tokens_phrase, List.flatten_singleton]
    rfl
  | cons next words ih =>
    have joined : joinOr ((word :: next :: words).map phrase) =
        phrase word ++ ' ' :: 'O' :: 'R' :: ' ' :: joinOr ((next :: words).map phrase) := rfl
    have held : '\x00' ∈ (word :: next :: words).flatten ↔
        '\x00' ∈ word ∨ '\x00' ∈ (next :: words).flatten := by
      rw [List.flatten_cons, List.mem_append]
    rw [joined, tokens_phrase, tokens_or, ih]
    simp only [held]
    by_cases first : '\x00' ∈ word
    · rw [if_pos first, if_pos (.inl first)]
    · simp only [first, if_false, false_or]
      split <;> rfl

theorem flatten_splitOnP {α : Type} (p : α → Bool) (xs : List α) :
    (xs.splitOnP p).flatten = xs.filter (!p ·) := by
  induction xs with
  | nil => rfl
  | cons x xs ih =>
    rw [List.splitOnP_cons_eq_if_modifyHead, List.filter_cons, ← ih]
    cases separates : p x with
    | true => rfl
    | false =>
      obtain ⟨part, parts, split⟩ := List.exists_cons_of_ne_nil (List.splitOnP_ne_nil p xs)
      rw [split]
      rfl

theorem flatten_splitWhitespace (input : List Char) :
    (splitWhitespace input).flatten = input.filter (!isWhitespace ·) := by
  rw [splitWhitespace, List.flatten_filter_not_isEmpty, flatten_splitOnP]

example : (tokens .between (escapeFtsQuery "say \"hi\" -x NEAR(a*").toList).bind alternatives =
    some ["say".toList, "\"hi\"".toList, "-x".toList, "NEAR(a*".toList] := by
  decide +kernel

end Havn.Db.Conversations
