import Mathlib.Algebra.Ring.Nat
import Mathlib.Data.List.Lex
import Mathlib.Order.Lattice

/-!
# Numbers printed at a fixed width

A record of numbers printed at fixed widths can be read back, and comparing the printed texts
compares the records.  Both are proved for an arbitrary layout.
-/

namespace Havn.Lib.FixedWidth

open List

/-! ## One number -/

def pad : ℕ → ℕ → List Char
  | 0, _ => []
  | w + 1, n => pad w (n / 10) ++ [Nat.digitChar (n % 10)]

@[simp]
theorem length_pad (w n : ℕ) : (pad w n).length = w := by
  induction w generalizing n with
  | zero => rfl
  | succ w ih => simp [pad, ih]

theorem isDigit_of_mem_pad {w n : ℕ} {c : Char} (mem : c ∈ pad w n) : c.isDigit = true := by
  induction w generalizing n with
  | zero => exact absurd mem not_mem_nil
  | succ w ih =>
    rcases mem_append.mp mem with earlier | last
    · exact ih earlier
    · rw [mem_singleton.mp last, Nat.isDigit_digitChar]
      exact decide_eq_true (Nat.mod_lt n (by decide))

theorem ofDigitChars_pad {w n : ℕ} (fits : n < 10 ^ w) : Nat.ofDigitChars 10 (pad w n) 0 = n := by
  induction w generalizing n with
  | zero =>
    have : n = 0 := by simpa using fits
    rw [this]
    rfl
  | succ w ih =>
    have shorter : n / 10 < 10 ^ w := Nat.div_lt_of_lt_mul (by rwa [Nat.pow_succ'] at fits)
    have digit := Nat.toNat_digitChar_of_lt_ten (Nat.mod_lt n (by decide : 0 < 10))
    have zero : '0'.toNat = 48 := rfl
    rw [pad, Nat.ofDigitChars_append, ih shorter, Nat.ofDigitChars_cons, digit, zero]
    simp only [Nat.ofDigitChars, foldl_nil]
    omega

theorem pad_add (v w n : ℕ) : pad (v + w) n = pad v (n / 10 ^ w) ++ pad w n := by
  induction w generalizing n with
  | zero => simp [pad]
  | succ w ih =>
    have quotient : n / 10 / 10 ^ w = n / 10 ^ (w + 1) := by
      rw [Nat.div_div_eq_div_mul, Nat.pow_succ']
    rw [← Nat.add_assoc, pad, ih, quotient, pad, append_assoc]

/-! ## Comparing texts -/

theorem append_lt_append {α : Type*} [LT α] {p q : List α} (same : p.length = q.length)
    (less : p < q) (s t : List α) : p ++ s < q ++ t := by
  induction p generalizing q with
  | nil =>
    rw [length_nil] at same
    rw [eq_nil_of_length_eq_zero same.symm] at less
    exact absurd less (not_lt_nil _)
  | cons a p ih =>
    cases q with
    | nil => exact absurd same (Nat.succ_ne_zero _)
    | cons b q =>
      rcases cons_lt_cons_iff.mp less with head | ⟨heads, tails⟩
      · exact cons_lt_cons_iff.mpr (.inl head)
      · exact cons_lt_cons_iff.mpr
          (.inr ⟨heads, ih (Nat.succ.inj same) tails⟩)

theorem append_left_lt_iff {α : Type*} [LinearOrder α] {p s t : List α} :
    p ++ s < p ++ t ↔ s < t := by
  induction p with
  | nil => exact Iff.rfl
  | cons a p ih =>
    rw [cons_append, cons_append, cons_lt_cons_iff, ih]
    exact ⟨fun either => either.elim (absurd · (lt_irrefl a)) And.right,
      fun less => .inr ⟨rfl, less⟩⟩

theorem digitChar_lt_digitChar {m n : ℕ} (less : m < n) (digit : n < 10) :
    Nat.digitChar m < Nat.digitChar n := by
  have all : ∀ n < 10, ∀ m < n, Nat.digitChar m < Nat.digitChar n := by decide
  exact all n digit m less

/-- **Printing at a fixed width keeps the order.** -/
theorem pad_lt_pad {w m n : ℕ} (less : m < n) (fits : n < 10 ^ w) : pad w m < pad w n := by
  induction w generalizing m n with
  | zero => exact absurd less (by rw [Nat.pow_zero] at fits; omega)
  | succ w ih =>
    have shorter : n / 10 < 10 ^ w := Nat.div_lt_of_lt_mul (by rwa [Nat.pow_succ'] at fits)
    rcases Nat.lt_or_ge (m / 10) (n / 10) with higher | notHigher
    · exact append_lt_append (by simp) (ih higher shorter) _ _
    · -- the leading digits agree, so the last one decides
      have lead : m / 10 = n / 10 := by omega
      have last : m % 10 < n % 10 := by omega
      rw [pad, pad, lead]
      refine append_left_lt (cons_lt_cons_iff.mpr (.inl ?_))
      exact digitChar_lt_digitChar last (Nat.mod_lt n (by decide))

/-! ## Decimal fractions -/

/-- **Decimal fractions of different precision compare as their texts do**, if what ends them sorts
before every digit.  The fraction `x` has `k` digits and lacks `j`. -/
theorem decimals_lt_decimals {j k x j' k' y : ℕ} (precision : j + k = j' + k')
    (less : x * 10 ^ j < y * 10 ^ j') (fits : y < 10 ^ k') {stop : Char}
    (early : ∀ c : Char, c.isDigit = true → stop < c) (rest : List Char) :
    pad k x ++ stop :: rest < pad k' y ++ stop :: rest := by
  rcases Nat.le_total k k' with shorter | longer
  · obtain ⟨d, rfl⟩ := Nat.exists_eq_add_of_le shorter
    obtain rfl : j = j' + d := by omega
    have scaled : x * 10 ^ d < y := by
      refine Nat.lt_of_mul_lt_mul_right (a := 10 ^ j') ?_
      rwa [Nat.mul_assoc, ← Nat.pow_add, Nat.add_comm d]
    have positive : 0 < 10 ^ d := Nat.pow_pos (by decide)
    rw [pad_add, append_assoc]
    rcases (Nat.le_div_iff_mul_le positive).mpr scaled.le |>.lt_or_eq with before | same
    · refine append_lt_append (by simp) (pad_lt_pad before ?_) _ _
      exact Nat.div_lt_of_lt_mul (by rwa [Nat.add_comm, Nat.pow_add] at fits)
    · -- the shorter fraction ends where the longer one still has digits
      rw [same]
      refine append_left_lt ?_
      cases digits : pad d y with
      | nil =>
        have noDigits : d = 0 := by rw [← length_pad d y, digits, length_nil]
        rw [noDigits, Nat.pow_zero, Nat.div_one] at same
        rw [noDigits, Nat.pow_zero, Nat.mul_one] at scaled
        exact absurd same scaled.ne
      | cons c digits' =>
        have isDigit : c.isDigit = true :=
          isDigit_of_mem_pad (by rw [digits]; exact mem_cons_self)
        exact cons_lt_cons_iff.mpr (.inl (early c isDigit))
  · obtain ⟨d, rfl⟩ := Nat.exists_eq_add_of_le longer
    obtain rfl : j' = j + d := by omega
    have scaled : x < 10 ^ d * y := by
      refine Nat.lt_of_mul_lt_mul_right (a := 10 ^ j) ?_
      rwa [Nat.mul_comm (10 ^ d), Nat.mul_assoc, ← Nat.pow_add, Nat.add_comm d]
    rw [pad_add, append_assoc]
    exact append_lt_append (by simp) (pad_lt_pad (Nat.div_lt_of_lt_mul scaled) fits) _ _

/-! ## Records of numbers -/

/-- Its width, and the separators accepted after it, of which the first is printed. -/
structure Field where
  width : ℕ
  separators : List Char
deriving DecidableEq

def render : List Field → List ℕ → List Char
  | f :: layout, v :: values => pad f.width v ++ f.separators.take 1 ++ render layout values
  | _, _ => []

def readDigits (w : ℕ) (cs : List Char) : Option (ℕ × List Char) :=
  if (cs.take w).length = w ∧ (cs.take w).all Char.isDigit then
    some (Nat.ofDigitChars 10 (cs.take w) 0, cs.drop w)
  else
    none

def readSeparator : List Char → List Char → Option (List Char)
  | [], cs => some cs
  | separators, c :: cs => if c ∈ separators then some cs else none
  | _, [] => none

def readRecord : List Field → List Char → Option (List ℕ × List Char)
  | [], cs => some ([], cs)
  | f :: layout, cs => do
      let (v, cs) ← readDigits f.width cs
      let cs ← readSeparator f.separators cs
      let (values, cs) ← readRecord layout cs
      pure (v :: values, cs)

def Fits (layout : List Field) (values : List ℕ) : Prop :=
  List.Forall₂ (fun f v => v < 10 ^ f.width) layout values

theorem readDigits_pad {w n : ℕ} (fits : n < 10 ^ w) (rest : List Char) :
    readDigits w (pad w n ++ rest) = some (n, rest) := by
  have taken : (pad w n ++ rest).take w = pad w n := by
    rw [take_append_of_le_length (by simp), take_of_length_le (by simp)]
  have dropped : (pad w n ++ rest).drop w = rest := by
    rw [drop_append_of_le_length (by simp), drop_of_length_le (by simp), nil_append]
  have digits : (pad w n).all Char.isDigit = true :=
    all_eq_true.mpr fun _ mem => isDigit_of_mem_pad mem
  rw [readDigits, taken, dropped, if_pos ⟨length_pad w n, digits⟩, ofDigitChars_pad fits]

theorem readSeparator_take_one (separators rest : List Char) :
    readSeparator separators (separators.take 1 ++ rest) = some rest := by
  cases separators with
  | nil => rfl
  | cons c separators => simp [readSeparator]

/-- **A printed record reads back.** -/
theorem readRecord_render {layout : List Field} {values : List ℕ} (fits : Fits layout values)
    (rest : List Char) :
    readRecord layout (render layout values ++ rest) = some (values, rest) := by
  induction fits with
  | nil => rfl
  | cons bound _ ih =>
    simp only [render, readRecord, append_assoc, readDigits_pad bound,
      readSeparator_take_one, ih, Option.bind_eq_bind, Option.bind_some, Option.pure_def]

/-- **Printed records compare as the records do**, whatever follows them. -/
theorem render_lt_render {layout : List Field} {values values' : List ℕ}
    (fits : Fits layout values) (fits' : Fits layout values') (less : values < values')
    (s t : List Char) : render layout values ++ s < render layout values' ++ t := by
  induction fits generalizing values' with
  | nil =>
    cases fits'
    exact absurd less (not_lt_nil _)
  | cons _ _ ih =>
    cases fits' with
    | cons bound fits' =>
      simp only [render, append_assoc]
      rcases cons_lt_cons_iff.mp less with head | ⟨rfl, tails⟩
      · exact append_lt_append (by simp) (pad_lt_pad head bound) _ _
      · exact append_left_lt (append_left_lt (ih fits' tails))

end Havn.Lib.FixedWidth
