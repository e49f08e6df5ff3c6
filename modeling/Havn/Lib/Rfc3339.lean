import Mathlib.Data.String.Basic
import Havn.Lib.Calendar
import Havn.Lib.FixedWidth

/-!
# RFC 3339 timestamps

The printer prints UTC with the offset `+00:00` and as many of zero, three, six or nine fraction
digits as the fraction needs; a year that does not fit four digits gets a sign.  The parser is the
strict one: a four-digit year, any offset, nothing left over.
-/

namespace Havn.Lib.Rfc3339

open Calendar FixedWidth List

def FourDigit (t : Instant) : Prop :=
  0 ≤ t.year ∧ t.year ≤ 9999
  deriving Decidable

/-! ## Printing -/

def clockLayout : List Field :=
  [⟨2, ['-']⟩, ⟨2, ['T', 't', ' ']⟩, ⟨2, [':']⟩, ⟨2, [':']⟩, ⟨2, []⟩]

def layout : List Field :=
  ⟨4, ['-']⟩ :: clockLayout

def monthDay (t : Instant) : ℕ × ℕ :=
  place (monthLengths (isLeap t.year)) t.ordinal

def second (t : Instant) : ℕ :=
  t.secs % 60 + if 1000000000 ≤ t.frac then 1 else 0

def clock (t : Instant) : List ℕ :=
  [(monthDay t).1 + 1, (monthDay t).2 + 1, t.secs / 3600, t.secs / 60 % 60, second t]

def nano (t : Instant) : ℕ :=
  t.frac % 1000000000

def yearText (y : ℤ) : List Char :=
  if 0 ≤ y ∧ y ≤ 9999 then pad 4 y.toNat
  else (if y < 0 then '-' else '+') ::
    (if y.natAbs < 10000 then pad 4 y.natAbs else Nat.toDigits 10 y.natAbs)

def fractionText (n : ℕ) : List Char :=
  if n = 0 then []
  else if n % 1000000 = 0 then '.' :: pad 3 (n / 1000000)
  else if n % 1000 = 0 then '.' :: pad 6 (n / 1000)
  else '.' :: pad 9 n

def zone : List Char :=
  ['+', '0', '0', ':', '0', '0']

def toText (t : Instant) : List Char :=
  yearText t.year ++ ['-'] ++ render clockLayout (clock t) ++ (fractionText (nano t) ++ zone)

/-! ## Parsing -/

def readFraction : List Char → Option (ℕ × List Char)
  | '.' :: cs =>
    let digits := (cs.takeWhile Char.isDigit).take 9
    if digits = [] then none
    else some (Nat.ofDigitChars 10 digits 0 * 10 ^ (9 - digits.length),
      cs.dropWhile Char.isDigit)
  | cs => some (0, cs)

def readOffset : List Char → Option ℤ
  | ['Z'] => some 0
  | ['z'] => some 0
  | sign :: cs =>
    match readRecord [⟨2, [':']⟩, ⟨2, []⟩] cs with
    | some ([h, m], []) =>
      if 23 < h ∨ 59 < m then none
      else if sign = '+' then some (60 * h + m)
      else if sign = '-' ∨ sign = '−' then some (-(60 * h + m : ℤ))
      else none
    | _ => none
  | [] => none

def ofClock : List ℕ → ℕ → Option Instant
  | [y, month, day, hour, minute, second], nano => do
      let ordinal ← unplace (monthLengths (isLeap y)) (month - 1) (day - 1)
      if 1 ≤ month ∧ 1 ≤ day ∧ hour < 24 ∧ minute < 60 ∧ second ≤ 60 then
        Instant.ofFields y ordinal (hour * 3600 + minute * 60 + min second 59)
          (nano + if second = 60 then 1000000000 else 0)
      else
        none
  | _, _ => none

def parse (cs : List Char) : Option Instant := do
  let (values, cs) ← readRecord layout cs
  let (nano, cs) ← readFraction cs
  let offset ← readOffset cs
  let t ← ofClock values nano
  pure (t.shiftMinutes (-offset))

/-! ## Reading back -/

theorem ordinal_lt_sum (t : Instant) : t.ordinal < (monthLengths (isLeap t.year)).sum := by
  rw [sum_monthLengths]
  exact t.ordinal_lt

theorem monthDay_bounds (t : Instant) : (monthDay t).1 < 12 ∧ (monthDay t).2 < 31 := by
  have short : ∀ leap, ∀ l ∈ monthLengths leap, l ≤ 31 := by decide
  exact place_bounds (ordinal_lt_sum t) (short _)

theorem second_nano (t : Instant) :
    (t.frac < 1000000000 ∧ second t = t.secs % 60 ∧ nano t = t.frac) ∨
      (1000000000 ≤ t.frac ∧ t.secs % 60 = 59 ∧ second t = 60 ∧ nano t + 1000000000 = t.frac) := by
  have inSecond := t.frac_lt
  unfold second nano
  by_cases leap : 1000000000 ≤ t.frac
  · have last := t.leap_second leap
    rw [if_pos leap]
    omega
  · rw [if_neg leap]
    omega

variable {t : Instant}

theorem fits_layout (year : FourDigit t) : Fits layout (t.year.toNat :: clock t) := by
  obtain ⟨month, day⟩ := monthDay_bounds t
  have inDay := t.secs_lt
  have sixty : second t ≤ 60 := by have := second_nano t; omega
  have four : t.year.toNat < 10 ^ 4 := by have := year.2; omega
  exact .cons four (.cons (by dsimp only; omega) (.cons (by dsimp only; omega)
    (.cons (by dsimp only; omega) (.cons (by dsimp only; omega)
      (.cons (by dsimp only; omega) .nil)))))

theorem toText_eq_render (year : FourDigit t) :
    toText t = render layout (t.year.toNat :: clock t) ++ (fractionText (nano t) ++ zone) := by
  rw [toText, yearText, if_pos ⟨year.1, year.2⟩]
  rfl

theorem ofClock_clock (year : FourDigit t) :
    ofClock (t.year.toNat :: clock t) (nano t) = some t := by
  have ordinal := unplace_place (ordinal_lt_sum t)
  have back : ((t.year.toNat : ℕ) : ℤ) = t.year := Int.toNat_of_nonneg year.1
  have inDay := t.secs_lt
  have parts := second_nano t
  have secs : t.secs / 3600 * 3600 + t.secs / 60 % 60 * 60 + min (second t) 59 = t.secs := by
    omega
  have frac : (nano t + if second t = 60 then 1000000000 else 0) = t.frac := by
    split <;> omega
  have valid : 1 ≤ (monthDay t).1 + 1 ∧ 1 ≤ (monthDay t).2 + 1 ∧ t.secs / 3600 < 24 ∧
      t.secs / 60 % 60 < 60 ∧ second t ≤ 60 := by omega
  simp only [ofClock, clock, back, Nat.add_sub_cancel, monthDay] at valid ⊢
  rw [ordinal, Option.bind_eq_bind, Option.bind_some, if_pos valid, secs, frac]
  exact t.ofFields_self

theorem fractionText_cases {n : ℕ} (bound : n < 1000000000) :
    (n = 0 ∧ fractionText n = []) ∨
      ∃ j k x, j + k = 9 ∧ k ≠ 0 ∧ x < 10 ^ k ∧ n = x * 10 ^ j ∧
        fractionText n = '.' :: pad k x := by
  unfold fractionText
  by_cases zero : n = 0
  · exact .inl ⟨zero, if_pos zero⟩
  rw [if_neg zero]
  refine .inr ?_
  by_cases milli : n % 1000000 = 0
  · exact ⟨6, 3, n / 1000000, rfl, by decide, by omega, by omega, if_pos milli⟩
  · rw [if_neg milli]
    by_cases micro : n % 1000 = 0
    · exact ⟨3, 6, n / 1000, rfl, by decide, by omega, by omega, if_pos micro⟩
    · exact ⟨0, 9, n, rfl, by decide, bound, by omega, if_neg micro⟩

theorem readFraction_fractionText {n : ℕ} (bound : n < 1000000000) :
    readFraction (fractionText n ++ zone) = some (n, zone) := by
  rcases fractionText_cases bound with ⟨rfl, text⟩ | ⟨j, k, x, precision, nonempty, fits, rfl, text⟩
  · rw [text]
    rfl
  · have digits : ∀ c ∈ pad k x, c.isDigit = true := fun _ mem => isDigit_of_mem_pad mem
    have taken : (pad k x ++ zone).takeWhile Char.isDigit = pad k x := by
      rw [takeWhile_append_of_pos digits]
      exact append_nil _
    have dropped : (pad k x ++ zone).dropWhile Char.isDigit = zone := by
      rw [dropWhile_append_of_pos digits]
      rfl
    have nine : (pad k x).take 9 = pad k x := take_of_length_le (by rw [length_pad]; omega)
    have nonempty : pad k x ≠ [] := by
      intro empty
      rw [← length_pad k x, empty] at nonempty
      exact nonempty rfl
    have missing : 9 - k = j := by omega
    rw [text, cons_append, readFraction]
    simp only [taken, dropped, nine, if_neg nonempty, ofDigitChars_pad fits, length_pad, missing]

/-- **A four-digit year reads back.** -/
theorem parse_toText (year : FourDigit t) : parse (toText t) = some t := by
  have bound : nano t < 1000000000 := Nat.mod_lt _ (by decide)
  have offset : readOffset zone = some 0 := by decide
  simp only [parse, toText_eq_render year, readRecord_render (fits_layout year),
    readFraction_fractionText bound, offset, ofClock_clock year, Option.bind_eq_bind,
    Option.bind_some, Option.pure_def, neg_zero, Instant.shiftMinutes_zero]

theorem yearText_signed (year : ¬ FourDigit t) :
    ∃ c rest, yearText t.year = c :: rest ∧ (c = '-' ∨ c = '+') := by
  have wide : ¬ (0 ≤ t.year ∧ t.year ≤ 9999) := year
  rw [yearText, if_neg wide]
  refine ⟨_, _, rfl, ?_⟩
  split
  · exact .inl rfl
  · exact .inr rfl

/-- **Any other year is not a timestamp.** -/
theorem parse_toText_eq_none (year : ¬ FourDigit t) : parse (toText t) = none := by
  obtain ⟨c, rest, text, sign⟩ := yearText_signed year
  have notDigit : c.isDigit = false := by rcases sign with rfl | rfl <;> rfl
  have unread : ∀ rest, readDigits 4 (c :: rest) = none := by
    intro rest
    rw [readDigits, if_neg]
    rintro ⟨-, digits⟩
    rw [take_succ_cons, all_cons, notDigit] at digits
    exact Bool.false_ne_true digits
  rw [toText, text, cons_append, cons_append, cons_append, parse, layout,
    readRecord, unread]
  rfl

/-! ## Comparing timestamps -/

theorem sign_lt_digit {sign : Char} (either : sign = '-' ∨ sign = '+') (c : Char)
    (digit : c.isDigit = true) : sign < c := by
  have atLeast : '0' ≤ c := by
    simp only [Char.isDigit, Bool.and_eq_true, decide_eq_true_eq] at digit
    exact digit.1
  have before : sign < '0' := by rcases either with rfl | rfl <;> decide
  exact UInt32.lt_of_lt_of_le before atLeast

theorem time_lt {t u : Instant} (clocks : t.secs < u.secs ∨ t.secs = u.secs ∧ t.frac < u.frac) :
    t.secs / 3600 < u.secs / 3600 ∨ t.secs / 3600 = u.secs / 3600 ∧
      (t.secs / 60 % 60 < u.secs / 60 % 60 ∨ t.secs / 60 % 60 = u.secs / 60 % 60 ∧
        (second t < second u ∨ second t = second u ∧ nano t < nano u)) := by
  have minutes : t.secs / 60 < u.secs / 60 ∨ t.secs / 60 = u.secs / 60 := by omega
  rcases minutes with earlier | same
  · clear clocks
    omega
  · refine .inr ⟨by omega, .inr ⟨by rw [same], ?_⟩⟩
    -- within a minute a leap second is the last one, so it cannot come first
    have parts := second_nano t
    have parts' := second_nano u
    rcases clocks with before | ⟨together, fraction⟩
    · exact .inl (by omega)
    · omega

theorem monthDay_lt {t u : Instant} (sameYear : t.year = u.year) (earlier : t.ordinal < u.ordinal) :
    (monthDay t).1 < (monthDay u).1 ∨
      (monthDay t).1 = (monthDay u).1 ∧ (monthDay t).2 < (monthDay u).2 := by
  rw [monthDay, monthDay, ← sameYear]
  exact place_lt_place (monthLengths (isLeap t.year)) earlier

theorem record_lt_or {t u : Instant} (year : FourDigit t) (less : t < u) :
    t.year.toNat :: clock t < u.year.toNat :: clock u ∨
      (t.year.toNat :: clock t = u.year.toNat :: clock u ∧ nano t < nano u) := by
  simp only [clock, cons_lt_cons_iff, not_lt_nil, and_false, or_false, List.cons.injEq,
    and_true]
  rcases Instant.lt_iff.mp less with earlier | ⟨sameYear, earlier | ⟨sameDay, clocks⟩⟩
  · have first := year.1
    exact .inl (.inl (by omega))
  · have months := monthDay_lt sameYear earlier
    rw [sameYear]
    refine .inl (.inr ⟨rfl, ?_⟩)
    omega
  · have sameMonth : monthDay t = monthDay u := by
      rw [monthDay, monthDay, sameYear, sameDay]
    have times := time_lt clocks
    rw [sameMonth, sameYear]
    omega

theorem fractionText_lt {m n : ℕ} (less : m < n) (bound : n < 1000000000) :
    fractionText m ++ zone < fractionText n ++ zone := by
  have early : ∀ c : Char, c.isDigit = true → '+' < c := sign_lt_digit (.inr rfl)
  rcases fractionText_cases bound with ⟨rfl, -⟩ | ⟨j', k', y, precision', -, fits', rfl, text'⟩
  · exact absurd less (Nat.not_lt_zero m)
  rw [text']
  rcases fractionText_cases (less.trans bound) with
    ⟨-, text⟩ | ⟨j, k, x, precision, -, -, rfl, text⟩
  · rw [text]
    exact cons_lt_cons_iff.mpr (.inl (by decide))
  · rw [text]
    refine cons_lt_cons_iff.mpr (.inr ⟨rfl, ?_⟩)
    exact decimals_lt_decimals (by omega) less fits' early _

/-- **Timestamps of four-digit years compare as the instants do.** -/
theorem toText_lt_toText {t u : Instant} (year : FourDigit t) (year' : FourDigit u)
    (less : t < u) : toText t < toText u := by
  rw [toText_eq_render year, toText_eq_render year']
  rcases record_lt_or year less with records | ⟨same, fractions⟩
  · exact render_lt_render (fits_layout year) (fits_layout year') records _ _
  · rw [same]
    exact append_left_lt (fractionText_lt fractions (Nat.mod_lt _ (by decide)))

theorem yearText_lt_of_not_fourDigit (year : ¬ FourDigit t) (n : ℕ)
    (s s' : List Char) : yearText t.year ++ s < pad 4 n ++ s' := by
  obtain ⟨c, rest, text, sign⟩ := yearText_signed year
  rw [text]
  cases digits : pad 4 n with
  | nil => exact absurd (congrArg List.length digits) (by simp)
  | cons d digits' =>
    refine cons_lt_cons_iff.mpr (.inl (sign_lt_digit sign d ?_))
    exact isDigit_of_mem_pad (by rw [digits]; exact mem_cons_self)

/-- **A year that does not fit sorts before all that do**, however late it is. -/
theorem toText_lt_of_not_fourDigit {t u : Instant} (year : ¬ FourDigit t) (year' : FourDigit u) :
    toText t < toText u := by
  rw [toText_eq_render year', layout, render, toText]
  simp only [append_assoc]
  exact yearText_lt_of_not_fourDigit year _ _ _

/-! ## Whole seconds without separators -/

def compactLayout : List Field :=
  [⟨2, []⟩, ⟨2, ['T']⟩, ⟨2, []⟩, ⟨2, []⟩, ⟨2, ['Z']⟩]

def compactText (t : Instant) : List Char :=
  yearText t.year ++ render compactLayout (clock t)

def SameSecond (t u : Instant) : Prop := t.year = u.year ∧ clock t = clock u
  deriving Decidable

theorem fits_compactLayout (t : Instant) : Fits compactLayout (clock t) := by
  obtain ⟨month, day⟩ := monthDay_bounds t
  have inDay := t.secs_lt
  have sixty : second t ≤ 60 := by have := second_nano t; omega
  exact .cons (by dsimp only; omega) (.cons (by dsimp only; omega) (.cons (by dsimp only; omega)
    (.cons (by dsimp only; omega) (.cons (by dsimp only; omega) .nil))))

theorem ofDigitChars_signed (n : ℕ) :
    Nat.ofDigitChars 10 (if n < 10000 then pad 4 n else Nat.toDigits 10 n) 0 = n := by
  split
  · rename_i fits
    exact ofDigitChars_pad fits
  · exact Nat.ofDigitChars_ten_toDigits

theorem yearText_injective {y z : ℤ} (same : yearText y = yearText z) : y = z := by
  -- a sign is not a digit, so both years fit four digits or neither does
  have unsigned : ∀ {n : ℕ} {sign : Char} {rest : List Char}, sign = '-' ∨ sign = '+' →
      pad 4 n ≠ sign :: rest := by
    intro n sign rest either text
    have digit := isDigit_of_mem_pad (show sign ∈ pad 4 n from text ▸ mem_cons_self)
    rcases either with rfl | rfl
    · cases digit
    · cases digit
  have sign : ∀ y : ℤ, (if y < 0 then '-' else '+') = '-' ∨ (if y < 0 then '-' else '+') = '+' := by
    intro y
    split
    · exact .inl rfl
    · exact .inr rfl
  unfold yearText at same
  by_cases fits : 0 ≤ y ∧ y ≤ 9999
  · rw [if_pos fits] at same
    by_cases fits' : 0 ≤ z ∧ z ≤ 9999
    · rw [if_pos fits'] at same
      have values : Nat.ofDigitChars 10 (pad 4 y.toNat) 0 =
          Nat.ofDigitChars 10 (pad 4 z.toNat) 0 := by
        rw [same]
      rw [ofDigitChars_pad (by omega), ofDigitChars_pad (by omega)] at values
      omega
    · rw [if_neg fits'] at same
      exact absurd same (unsigned (sign z))
  · rw [if_neg fits] at same
    by_cases fits' : 0 ≤ z ∧ z ≤ 9999
    · rw [if_pos fits'] at same
      exact absurd same.symm (unsigned (sign y))
    · rw [if_neg fits'] at same
      obtain ⟨signs, digits⟩ := List.cons.inj same
      have values := ofDigitChars_signed y.natAbs
      rw [digits, ofDigitChars_signed] at values
      have sides : y < 0 ↔ z < 0 := by
        by_cases before : y < 0
        · rw [if_pos before] at signs
          refine iff_of_true before (by_contra fun after => ?_)
          rw [if_neg after] at signs
          cases signs
        · rw [if_neg before] at signs
          refine iff_of_false before fun after => ?_
          rw [if_pos after] at signs
          cases signs
      omega

/-- **Such a text names a second.** -/
theorem compactText_inj {t u : Instant} : compactText t = compactText u ↔ SameSecond t u := by
  constructor
  · intro same
    have lengths : (render compactLayout (clock t)).length =
        (render compactLayout (clock u)).length := by
      simp only [compactLayout, clock, render, length_append, length_pad, length_take,
        length_nil, length_cons]
    obtain ⟨years, clocks⟩ := append_inj' same lengths
    refine ⟨yearText_injective years, ?_⟩
    have read := readRecord_render (fits_compactLayout t) []
    rw [clocks, readRecord_render (fits_compactLayout u)] at read
    exact (congrArg Prod.fst (Option.some.inj read)).symm
  · rintro ⟨years, clocks⟩
    rw [compactText, compactText, years, clocks]

theorem mem_yearText {y : ℤ} {c : Char} (mem : c ∈ yearText y) :
    c.isDigit = true ∨ c ∈ ['-', '+'] := by
  unfold yearText at mem
  split at mem
  · exact .inl (isDigit_of_mem_pad mem)
  rcases mem_cons.mp mem with rfl | digit
  · split
    · exact .inr mem_cons_self
    · exact .inr (mem_cons_of_mem _ mem_cons_self)
  · split at digit
    · exact .inl (isDigit_of_mem_pad digit)
    · exact .inl (Nat.isDigit_of_mem_toDigits (by decide) (by decide) digit)

theorem mem_compactText {c : Char} (mem : c ∈ compactText t) :
    c.isDigit = true ∨ c ∈ ['-', '+', 'T', 'Z'] := by
  rcases mem_append.mp mem with year | rest
  · rcases mem_yearText year with digit | sign
    · exact .inl digit
    · exact .inr (mem_append_left ['T', 'Z'] sign)
  · simp only [compactLayout, clock, render, take_nil, append_nil, mem_append,
      take_succ_cons, mem_singleton] at rest
    rcases rest with digit | (digit | rfl) | digit | digit | digit | rfl
    · exact .inl (isDigit_of_mem_pad digit)
    · exact .inl (isDigit_of_mem_pad digit)
    · exact .inr (by decide)
    · exact .inl (isDigit_of_mem_pad digit)
    · exact .inl (isDigit_of_mem_pad digit)
    · exact .inl (isDigit_of_mem_pad digit)
    · exact .inr (by decide)

/-! ## Milliseconds -/

/-- The timestamp with three digits of fraction and a `Z`. -/
@[irreducible]
def stamp (ms : ℤ) : String :=
  let t := Instant.ofMillis ms
  String.ofList (render layout (t.year.toNat :: clock t) ++
    ('.' :: (pad 3 (nano t / 1000000) ++ ['Z'])))

theorem mem_stamp {ms : ℤ} {c : Char} (mem : c ∈ (stamp ms).toList) :
    c.isDigit = true ∨ c ∈ ['-', 'T', ':', '.', 'Z'] := by
  rw [stamp, String.toList_ofList] at mem
  simp only [layout, clockLayout, clock, render, take_nil, append_nil, mem_append,
    take_succ_cons, mem_cons, not_mem_nil, or_false] at mem ⊢
  have digit : ∀ {w n : ℕ}, c ∈ pad w n → c.isDigit = true := isDigit_of_mem_pad
  tauto

def FourDigitMillis (ms : ℤ) : Prop :=
  -62167219200000 ≤ ms ∧ ms < 253402300800000

theorem fourDigit_iff_yearOf {day : ℤ} (isYear : t.year = yearOf day) :
    FourDigit t ↔ 0 ≤ day ∧ day < 3652425 := by
  have start : daysBefore 0 = 0 := by decide
  have stop : daysBefore 10000 = 3652425 := by decide
  rw [FourDigit, isYear, ← start, ← stop, ← yearOf_mem_iff]
  omega

theorem fourDigit_ofMillis {ms : ℤ} (within : FourDigitMillis ms) :
    FourDigit (Instant.ofMillis ms) := by
  obtain ⟨after, before⟩ := within
  refine (fourDigit_iff_yearOf rfl).mpr ?_
  omega

def FourDigitNanos (ns : ℤ) : Prop :=
  -62167219200000000000 ≤ ns ∧ ns < 253402300800000000000
  deriving Decidable

theorem fourDigit_ofNanos_iff {ns : ℤ} : FourDigit (Instant.ofNanos ns) ↔ FourDigitNanos ns := by
  have year : (Instant.ofNanos ns).year = yearOf (719528 + ns / 86400000000000) := rfl
  rw [fourDigit_iff_yearOf year, FourDigitNanos]
  omega

/-- **Such timestamps compare as the times do.** -/
theorem stamp_lt_stamp {a b : ℤ} (within : FourDigitMillis a) (within' : FourDigitMillis b)
    (less : a < b) : stamp a < stamp b := by
  have year := fourDigit_ofMillis within
  have year' := fourDigit_ofMillis within'
  rw [stamp, stamp, String.lt_iff_toList_lt, String.toList_ofList, String.toList_ofList]
  rcases record_lt_or year (Instant.ofMillis_lt_ofMillis less) with records | ⟨same, fractions⟩
  · exact render_lt_render (fits_layout year) (fits_layout year') records _ _
  · rw [same]
    refine append_left_lt (cons_lt_cons_iff.mpr (.inr ⟨rfl, ?_⟩))
    refine append_lt_append (by simp) (pad_lt_pad ?_ ?_) _ _
    · simp only [nano, Instant.ofMillis, Instant.ofDays] at fractions ⊢
      omega
    · simp only [nano, Instant.ofMillis, Instant.ofDays]
      omega

theorem stamp_le_stamp_iff {a b : ℤ} (within : FourDigitMillis a) (within' : FourDigitMillis b) :
    stamp a ≤ stamp b ↔ a ≤ b := by
  constructor
  · intro le
    by_contra more
    exact absurd (stamp_lt_stamp within' within (not_le.mp more)) (not_lt.mpr le)
  · intro le
    rcases le.lt_or_eq with less | rfl
    · exact (stamp_lt_stamp within within' less).le
    · exact le_rfl

/-! ## Minutes -/

def minuteLayout : List Field :=
  [⟨2, ['-']⟩, ⟨2, ['T', 't', ' ']⟩, ⟨2, [':']⟩, ⟨2, [':']⟩]

def minuteClock (t : Instant) : List ℕ :=
  [(monthDay t).1 + 1, (monthDay t).2 + 1, t.secs / 3600, t.secs / 60 % 60]

def minuteText (t : Instant) : List Char :=
  render (⟨4, ['-']⟩ :: minuteLayout) (t.year.toNat :: minuteClock t)

def EarlierMinute (t u : Instant) : Prop :=
  t.days < u.days ∨ t.days = u.days ∧ t.secs / 60 < u.secs / 60

def SameMinute (t u : Instant) : Prop := t.days = u.days ∧ t.secs / 60 = u.secs / 60

theorem render_layout_eq (t : Instant) :
    render layout (t.year.toNat :: clock t) = minuteText t ++ pad 2 (second t) := by
  simp only [layout, clockLayout, clock, minuteText, minuteLayout, minuteClock, render,
    append_assoc, take_nil, append_nil]

theorem fits_minute (year : FourDigit t) :
    Fits (⟨4, ['-']⟩ :: minuteLayout) (t.year.toNat :: minuteClock t) := by
  obtain ⟨month, day⟩ := monthDay_bounds t
  have inDay := t.secs_lt
  have four : t.year.toNat < 10 ^ 4 := by have := year.2; omega
  exact .cons four (.cons (by dsimp only; omega) (.cons (by dsimp only; omega)
    (.cons (by dsimp only; omega) (.cons (by dsimp only; omega) .nil))))

/-- **Texts that begin with the minute compare as the minutes do**, whatever follows. -/
theorem minuteText_lt {t u : Instant} (year : FourDigit t) (year' : FourDigit u)
    (earlier : EarlierMinute t u) (s s' : List Char) : minuteText t ++ s < minuteText u ++ s' := by
  refine render_lt_render (fits_minute year) (fits_minute year') ?_ s s'
  simp only [minuteClock, cons_lt_cons_iff, not_lt_nil, and_false, or_false]
  rcases earlier with before | ⟨sameDay, before⟩
  · rcases Instant.date_lt_of_days_lt before with years | ⟨sameYear, days⟩
    · have first := year.1
      exact .inl (by omega)
    · have months := monthDay_lt sameYear days
      rw [sameYear]
      refine .inr ⟨rfl, ?_⟩
      omega
  · obtain ⟨sameYear, sameOrdinal⟩ := Instant.date_eq_of_days_eq sameDay
    have sameMonth : monthDay t = monthDay u := by
      rw [monthDay, monthDay, sameYear, sameOrdinal]
    rw [sameMonth, sameYear]
    omega

theorem minuteText_eq {t u : Instant} (same : SameMinute t u) : minuteText t = minuteText u := by
  obtain ⟨sameYear, sameOrdinal⟩ := Instant.date_eq_of_days_eq same.1
  have sameMonth : monthDay t = monthDay u := by rw [monthDay, monthDay, sameYear, sameOrdinal]
  have sameHour : t.secs / 3600 = u.secs / 3600 := by
    have minute := same.2
    omega
  rw [minuteText, minuteText, minuteClock, minuteClock, sameMonth, sameYear, sameHour, same.2]

end Havn.Lib.Rfc3339
