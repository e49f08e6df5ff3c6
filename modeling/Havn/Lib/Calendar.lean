import Mathlib.Data.Prod.Lex
import Mathlib.Algebra.Order.Ring.Int

/-!
# Instants of the proleptic Gregorian calendar

An instant is a year, a day of it, a second of that and a fraction in nanoseconds, which runs on
past one second in a leap second.  The components carry their bounds as fields.
-/

namespace Havn.Lib.Calendar

/-! ## Years -/

variable (y : ℤ)

def isLeap : Bool :=
  y % 4 = 0 ∧ (y % 100 ≠ 0 ∨ y % 400 = 0)

def yearLength : ℕ :=
  if isLeap y then 366 else 365

theorem yearLength_pos : 0 < yearLength y := by
  unfold yearLength
  split <;> decide

def daysBefore : ℤ :=
  365 * y + (y + 3) / 4 - (y + 99) / 100 + (y + 399) / 400

theorem daysBefore_succ : daysBefore (y + 1) = daysBefore y + yearLength y := by
  unfold daysBefore yearLength isLeap
  split
  · rename_i leap
    have := of_decide_eq_true leap
    omega
  · rename_i common
    have := of_decide_eq_false (Bool.eq_false_iff.mpr common)
    omega

theorem lt_of_daysBefore_lt {y z : ℤ} (less : daysBefore y < daysBefore z) : y < z := by
  unfold daysBefore at less
  omega

/-- Counted from the start of year 0; 400 years have 146097 days, which gives the year up to one. -/
def yearOf (n : ℤ) : ℤ :=
  let guess := 400 * n / 146097
  if n < daysBefore guess then guess - 1
  else if daysBefore (guess + 1) ≤ n then guess + 1
  else guess

theorem yearOf_spec (n : ℤ) : daysBefore (yearOf n) ≤ n ∧ n < daysBefore (yearOf n + 1) := by
  have below : daysBefore (400 * n / 146097 - 1) ≤ n := by unfold daysBefore; omega
  have above : n < daysBefore (400 * n / 146097 + 1 + 1) := by unfold daysBefore; omega
  unfold yearOf
  dsimp only
  split
  · rename_i early
    rw [Int.sub_add_cancel]
    exact ⟨below, early⟩
  · rename_i notEarly
    split
    · rename_i late
      exact ⟨late, above⟩
    · rename_i notLate
      exact ⟨not_lt.mp notEarly, not_le.mp notLate⟩

theorem yearOf_days {y : ℤ} {k : ℕ} (inside : k < yearLength y) :
    yearOf (daysBefore y + k) = y := by
  obtain ⟨lower, upper⟩ := yearOf_spec (daysBefore y + k)
  have next := daysBefore_succ y
  have notAfter : yearOf (daysBefore y + k) < y + 1 :=
    lt_of_daysBefore_lt (by omega)
  have notBefore : y < yearOf (daysBefore y + k) + 1 :=
    lt_of_daysBefore_lt (by omega)
  omega

theorem daysBefore_mono {y z : ℤ} (le : y ≤ z) : daysBefore y ≤ daysBefore z := by
  unfold daysBefore
  omega

theorem yearOf_mem_iff (n a b : ℤ) :
    (a ≤ yearOf n ∧ yearOf n < b) ↔ daysBefore a ≤ n ∧ n < daysBefore b := by
  obtain ⟨low, high⟩ := yearOf_spec n
  constructor
  · rintro ⟨after, before⟩
    exact ⟨(daysBefore_mono after).trans low, high.trans_le (daysBefore_mono before)⟩
  · rintro ⟨after, before⟩
    have first := lt_of_daysBefore_lt (after.trans_lt high)
    exact ⟨by omega, lt_of_daysBefore_lt (low.trans_lt before)⟩

/-! ## Months -/

def monthLengths (leap : Bool) : List ℕ :=
  [31, if leap then 29 else 28, 31, 30, 31, 30, 31, 31, 30, 31, 30, 31]

theorem sum_monthLengths : (monthLengths (isLeap y)).sum = yearLength y := by
  unfold yearLength
  cases isLeap y <;> rfl

/-- Which of the consecutive stretches holds position `k`, and where in it. -/
def place : List ℕ → ℕ → ℕ × ℕ
  | [], k => (0, k)
  | l :: ls, k => if k < l then (0, k) else ((place ls (k - l)).1 + 1, (place ls (k - l)).2)

def unplace (ls : List ℕ) (m d : ℕ) : Option ℕ :=
  ls[m]?.bind fun l => if d < l then some ((ls.take m).sum + d) else none

theorem unplace_place {ls : List ℕ} {k : ℕ} (inside : k < ls.sum) :
    unplace ls (place ls k).1 (place ls k).2 = some k := by
  induction ls generalizing k with
  | nil => exact absurd inside (Nat.not_lt_zero k)
  | cons l ls ih =>
    rw [List.sum_cons] at inside
    rw [place]
    split
    · rename_i first
      simp [unplace, first]
    · rename_i later
      have rest := ih (k := k - l) (by omega)
      simp only [unplace, Option.bind_eq_some_iff] at rest
      obtain ⟨m, found, fits⟩ := rest
      simp only [unplace, List.getElem?_cons_succ, found, Option.bind_some, List.take_succ_cons,
        List.sum_cons]
      split at fits
      · rename_i short
        rw [if_pos short]
        have := Option.some.inj fits
        exact congrArg some (by omega)
      · exact absurd fits nofun

theorem place_lt_place (ls : List ℕ) {j k : ℕ} (less : j < k) :
    (place ls j).1 < (place ls k).1 ∨
      (place ls j).1 = (place ls k).1 ∧ (place ls j).2 < (place ls k).2 := by
  induction ls generalizing j k with
  | nil => exact .inr ⟨rfl, less⟩
  | cons l ls ih =>
    rw [place, place]
    by_cases first : k < l
    · rw [if_pos (less.trans first), if_pos first]
      exact .inr ⟨rfl, less⟩
    · rw [if_neg first]
      by_cases split : j < l
      · rw [if_pos split]
        exact .inl (Nat.succ_pos _)
      · rw [if_neg split]
        rcases ih (j := j - l) (k := k - l) (by omega) with earlier | ⟨same, within⟩
        · exact .inl (Nat.succ_lt_succ earlier)
        · exact .inr ⟨congrArg Nat.succ same, within⟩

theorem place_bounds {ls : List ℕ} {k b : ℕ} (inside : k < ls.sum) (short : ∀ l ∈ ls, l ≤ b) :
    (place ls k).1 < ls.length ∧ (place ls k).2 < b := by
  have placed := unplace_place inside
  simp only [unplace, Option.bind_eq_some_iff] at placed
  obtain ⟨l, found, fits⟩ := placed
  obtain ⟨index, rfl⟩ := List.getElem?_eq_some_iff.mp found
  split at fits
  · rename_i within
    exact ⟨index, within.trans_le (short _ (List.getElem_mem index))⟩
  · exact absurd fits nofun

/-! ## Instants -/

@[ext]
structure Instant where
  year : ℤ
  ordinal : ℕ
  secs : ℕ
  frac : ℕ
  ordinal_lt : ordinal < yearLength year
  secs_lt : secs < 86400
  frac_lt : frac < 2000000000
  leap_second : 1000000000 ≤ frac → secs % 60 = 59
deriving DecidableEq

namespace Instant

def ofFields (year : ℤ) (ordinal secs frac : ℕ) : Option Instant :=
  if valid : ordinal < yearLength year ∧ secs < 86400 ∧ frac < 2000000000 ∧
      (1000000000 ≤ frac → secs % 60 = 59) then
    some ⟨year, ordinal, secs, frac, valid.1, valid.2.1, valid.2.2.1, valid.2.2.2⟩
  else
    none

variable (t : Instant)

theorem ofFields_self : ofFields t.year t.ordinal t.secs t.frac = some t :=
  dif_pos ⟨t.ordinal_lt, t.secs_lt, t.frac_lt, t.leap_second⟩

def startOf (year : ℤ) : Instant :=
  ⟨year, 0, 0, 0, yearLength_pos year, by decide, by decide, nofun⟩

def key : ℤ ×ₗ ℕ ×ₗ ℕ ×ₗ ℕ :=
  toLex (t.year, toLex (t.ordinal, toLex (t.secs, t.frac)))

theorem key_injective : Function.Injective key := by
  intro t u same
  simp only [key, EmbeddingLike.apply_eq_iff_eq, Prod.mk.injEq] at same
  exact Instant.ext same.1 same.2.1 same.2.2.1 same.2.2.2

instance : LinearOrder Instant :=
  LinearOrder.lift' key key_injective

theorem lt_iff {t u : Instant} :
    t < u ↔ t.year < u.year ∨ t.year = u.year ∧ (t.ordinal < u.ordinal ∨
      t.ordinal = u.ordinal ∧ (t.secs < u.secs ∨ t.secs = u.secs ∧ t.frac < u.frac)) := by
  change key t < key u ↔ _
  simp only [key, Prod.Lex.lt_iff, ofLex_toLex]

def days : ℤ :=
  daysBefore t.year + t.ordinal

def ofDays (day : ℤ) (secs frac : ℕ) (secs_lt : secs < 86400) (frac_lt : frac < 2000000000)
    (leap_second : 1000000000 ≤ frac → secs % 60 = 59) : Instant where
  year := yearOf day
  ordinal := (day - daysBefore (yearOf day)).toNat
  secs := secs
  frac := frac
  ordinal_lt := by
    have spec := yearOf_spec day
    have next := daysBefore_succ (yearOf day)
    omega
  secs_lt := secs_lt
  frac_lt := frac_lt
  leap_second := leap_second

theorem days_ofDays (day : ℤ) {secs frac : ℕ} (secs_lt : secs < 86400)
    (frac_lt : frac < 2000000000) (leap_second : 1000000000 ≤ frac → secs % 60 = 59) :
    (ofDays day secs frac secs_lt frac_lt leap_second).days = day := by
  have spec := yearOf_spec day
  simp only [days, ofDays]
  omega

theorem date_lt_of_days_lt {t u : Instant} (less : t.days < u.days) :
    t.year < u.year ∨ t.year = u.year ∧ t.ordinal < u.ordinal := by
  unfold days at less
  have inYear := u.ordinal_lt
  rcases lt_trichotomy t.year u.year with before | same | after
  · exact .inl before
  · rw [same] at less
    exact .inr ⟨same, by omega⟩
  · have next := daysBefore_succ u.year
    have grows : daysBefore (u.year + 1) ≤ daysBefore t.year := by
      unfold daysBefore
      omega
    omega

theorem lt_of_days_lt {t u : Instant} (less : t.days < u.days) : t < u := by
  rw [lt_iff]
  rcases date_lt_of_days_lt less with year | ⟨sameYear, day⟩
  · exact .inl year
  · exact .inr ⟨sameYear, .inl day⟩

theorem date_eq_of_days_eq {t u : Instant} (same : t.days = u.days) :
    t.year = u.year ∧ t.ordinal = u.ordinal := by
  have year : t.year = u.year := by
    rw [← yearOf_days t.ordinal_lt, ← yearOf_days u.ordinal_lt]
    exact congrArg yearOf same
  unfold days at same
  rw [year] at same
  exact ⟨year, by omega⟩

def ofMillis (ms : ℤ) : Instant :=
  ofDays (719528 + ms / 86400000) ((ms % 86400000).toNat / 1000)
    ((ms % 86400000).toNat % 1000 * 1000000) (by omega) (by omega) (by omega)

def ofNanos (ns : ℤ) : Instant :=
  ofDays (719528 + ns / 86400000000000) ((ns % 86400000000000).toNat / 1000000000)
    ((ns % 86400000000000).toNat % 1000000000) (by omega) (by omega) (by omega)

theorem ofMillis_lt_ofMillis {a b : ℤ} (less : a < b) : ofMillis a < ofMillis b := by
  by_cases sameDay : a / 86400000 = b / 86400000
  · refine lt_iff.mpr (.inr ⟨?_, .inr ⟨?_, ?_⟩⟩)
    · simp only [ofMillis, ofDays, sameDay]
    · simp only [ofMillis, ofDays, sameDay]
    · simp only [ofMillis, ofDays]
      omega
  · refine lt_of_days_lt ?_
    rw [ofMillis, ofMillis, days_ofDays, days_ofDays]
    omega

def shiftMinutes (minutes : ℤ) : Instant :=
  ofDays (t.days + (t.secs + 60 * minutes) / 86400) ((t.secs + 60 * minutes) % 86400).toNat t.frac
    (by omega) t.frac_lt (fun leap => by have := t.leap_second leap; omega)

@[simp]
theorem shiftMinutes_zero : t.shiftMinutes 0 = t := by
  have inDay := t.secs_lt
  have day : t.days + ((t.secs : ℤ) + 60 * 0) / 86400 = daysBefore t.year + t.ordinal := by
    unfold days
    omega
  have found := yearOf_days t.ordinal_lt
  ext
  · simp only [shiftMinutes, ofDays, day, found]
  · simp only [shiftMinutes, ofDays, day, found]
    omega
  · simp only [shiftMinutes, ofDays]
    omega
  · rfl

/-- Without a limit on the year.  Leaving a leap second starts from the second before it. -/
def later (n : ℕ) : Instant :=
  if n = 0 then t
  else
    ofDays (t.days + ((t.secs + n) / 86400 : ℕ)) ((t.secs + n) % 86400)
      (if 1000000000 ≤ t.frac then t.frac - 1000000000 else t.frac)
      (Nat.mod_lt _ (by decide))
      (by have := t.frac_lt; split <;> omega)
      (by have := t.frac_lt; split <;> omega)

theorem lt_later {n : ℕ} (positive : 0 < n) : t < t.later n := by
  rw [later, if_neg positive.ne']
  by_cases sameDay : (t.secs + n) / 86400 = 0
  · have found := yearOf_days t.ordinal_lt
    refine lt_iff.mpr (.inr ⟨?_, .inr ⟨?_, .inl ?_⟩⟩)
    · simp only [ofDays, days, sameDay, Nat.cast_zero, add_zero, found]
    · simp only [ofDays, days, sameDay, Nat.cast_zero, add_zero, found]
      omega
    · simp only [ofDays]
      omega
  · refine lt_of_days_lt ?_
    rw [days_ofDays]
    omega

theorem le_later (n : ℕ) : t ≤ t.later n := by
  rcases Nat.eq_zero_or_pos n with rfl | positive
  · rw [later, if_pos rfl]
  · exact (t.lt_later positive).le

/-- Within 64 bits for the milliseconds of the duration and 19 for the years. -/
def addSeconds (n : ℕ) : Option Instant :=
  if n ≤ 9223372036854775 ∧ -262143 ≤ (t.later n).year ∧ (t.later n).year ≤ 262142 then
    some (t.later n)
  else
    none

end Instant

end Havn.Lib.Calendar
