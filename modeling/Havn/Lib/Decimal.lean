/-!
# Decimal numerals

A strict integer parser: an optional sign, at least one digit, nothing else, and a value inside the
type's range.  `readUnsigned` also says why it refuses.
-/

namespace Havn.Lib

def parseDigits (cs : List Char) : Option Nat :=
  if cs ≠ [] ∧ cs.all Char.isDigit then some (Nat.ofDigitChars 10 cs 0) else none

def parseUnsigned (bound : Nat) (s : String) : Option Nat :=
  let digits := match s.toList with
    | '+' :: rest => rest
    | cs => cs
  (parseDigits digits).filter (· < bound)

/-- In the range `-half ≤ i < half`. -/
def parseSigned (half : Nat) (s : String) : Option Int :=
  match s.toList with
  | '-' :: rest => ((parseDigits rest).filter (· ≤ half)).map fun n => -(n : Int)
  | '+' :: rest => ((parseDigits rest).filter (· < half)).map fun n => (n : Int)
  | cs => ((parseDigits cs).filter (· < half)).map fun n => (n : Int)

inductive ParseIntError where
  | empty
  | invalidDigit
  | posOverflow
  deriving DecidableEq

def ParseIntError.display : ParseIntError → String
  | .empty => "cannot parse integer from empty string"
  | .invalidDigit => "invalid digit found in string"
  | .posOverflow => "number too large to fit in target type"

/-- The bound is checked digit by digit, so an overflow is reported before a bad character behind
it. -/
def readDigitsBelow (bound value : Nat) : List Char → Except ParseIntError Nat
  | [] => .ok value
  | c :: rest =>
    if c.isDigit then
      if 10 * value + (c.toNat - '0'.toNat) < bound then
        readDigitsBelow bound (10 * value + (c.toNat - '0'.toNat)) rest
      else .error .posOverflow
    else .error .invalidDigit

def readUnsigned (bound : Nat) : List Char → Except ParseIntError Nat
  | [] => .error .empty
  | ['+'] => .error .invalidDigit
  | '+' :: rest => readDigitsBelow bound 0 rest
  | cs => readDigitsBelow bound 0 cs

theorem lt_of_parseSigned {half : Nat} {s : String} {i : Int}
    (parsed : parseSigned half s = some i) (positive : half ≠ 0) : i < half := by
  unfold parseSigned at parsed
  split at parsed
  all_goals
    simp only [Option.map_eq_some_iff, Option.bind_eq_bind, Option.bind_eq_some_iff,
      Option.filter_eq_some_iff, decide_eq_true_eq] at parsed
    obtain ⟨_, ⟨n, ⟨-, bound⟩, ⟨⟩⟩, rfl⟩ := parsed
    omega

theorem parseDigits_toDigits (n : Nat) : parseDigits (Nat.toDigits 10 n) = some n := by
  have digits : (Nat.toDigits 10 n).all Char.isDigit = true := by
    rw [List.all_eq_true]
    intro c hc
    exact Nat.isDigit_of_mem_toDigits (by decide) (by decide) hc
  rw [parseDigits, if_pos ⟨Nat.toDigits_ne_nil, digits⟩, Nat.ofDigitChars_ten_toDigits]

theorem toDigits_head_isDigit (n : Nat) {c : Char} {rest : List Char}
    (h : Nat.toDigits 10 n = c :: rest) : c.isDigit = true :=
  Nat.isDigit_of_mem_toDigits (b := 10) (n := n) (by decide) (by decide)
    (by rw [h]; exact List.mem_cons_self)

theorem toDigits_inj {m n : Nat} : Nat.toDigits 10 m = Nat.toDigits 10 n ↔ m = n := by
  refine ⟨fun same => ?_, congrArg _⟩
  rw [← Nat.ofDigitChars_ten_toDigits (n := m), same, Nat.ofDigitChars_ten_toDigits]

theorem not_mem_toDigits {c : Char} (other : c.isDigit = false) (n : Nat) :
    c ∉ Nat.toDigits 10 n := by
  intro mem
  rw [Nat.isDigit_of_mem_toDigits (by decide) (by decide) mem] at other
  cases other

theorem le_ofDigitChars (cs : List Char) (value : Nat) : value ≤ Nat.ofDigitChars 10 cs value := by
  induction cs generalizing value with
  | nil => exact Nat.le_refl value
  | cons c cs ih =>
    rw [Nat.ofDigitChars_cons]
    exact Nat.le_trans (by omega) (ih _)

theorem readDigitsBelow_eq_ok {bound value : Nat} {cs : List Char}
    (digits : cs.all Char.isDigit = true) (below : Nat.ofDigitChars 10 cs value < bound) :
    readDigitsBelow bound value cs = .ok (Nat.ofDigitChars 10 cs value) := by
  induction cs generalizing value with
  | nil => rfl
  | cons c cs ih =>
    rw [List.all_cons, Bool.and_eq_true] at digits
    rw [Nat.ofDigitChars_cons] at below ⊢
    -- the value only grows, so it is below the bound at every digit
    have next := Nat.lt_of_le_of_lt (le_ofDigitChars cs _) below
    rw [readDigitsBelow, if_pos digits.1, if_pos next, ih digits.2 below]

theorem readUnsigned_toDigits {bound n : Nat} (below : n < bound) :
    readUnsigned bound (Nat.toDigits 10 n) = .ok n := by
  have digits : (Nat.toDigits 10 n).all Char.isDigit = true :=
    List.all_eq_true.mpr fun c mem => Nat.isDigit_of_mem_toDigits (by decide) (by decide) mem
  have value := Nat.ofDigitChars_ten_toDigits (n := n)
  have read : readDigitsBelow bound 0 (Nat.toDigits 10 n) = .ok n := by
    rw [readDigitsBelow_eq_ok digits (value.symm ▸ below), value]
  unfold readUnsigned
  split
  · rename_i heq; exact absurd heq Nat.toDigits_ne_nil
  · rename_i heq; exact absurd (toDigits_head_isDigit n heq) (by decide)
  · rename_i heq; exact absurd (toDigits_head_isDigit n heq) (by decide)
  · exact read

theorem parseSigned_repr {half n : Nat} (h : n < half) :
    parseSigned half n.repr = some (n : Int) := by
  unfold parseSigned
  rw [Nat.toList_repr]
  cases hd : Nat.toDigits 10 n with
  | nil => exact absurd hd Nat.toDigits_ne_nil
  | cons c rest =>
    have digit := toDigits_head_isDigit n hd
    have whole : parseDigits (c :: rest) = some n := by
      rw [← hd]; exact parseDigits_toDigits n
    -- neither sign is a digit, so the numeral takes the unsigned branch
    split
    · rename_i heq; cases heq; exact absurd digit (by decide)
    · rename_i heq; cases heq; exact absurd digit (by decide)
    · simp [whole, Option.filter, h]

end Havn.Lib
