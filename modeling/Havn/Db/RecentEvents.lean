import Havn.Db.Memory
import Havn.Lib.Rfc3339

/-!
# Recent events

`recent_events` of `havn-db/src/agent/memory.rs` picks the active event rows that were updated
within a window, by comparing texts.  The column's `%f` is the second with its milliseconds; the
cutoff is printed by chrono, whose `%f` is the nanosecond, so that there is no second in it.
-/

namespace Havn.Db.RecentEvents

open Memory Lib Lib.Calendar Lib.FixedWidth Lib.Rfc3339 List

/-! ## The query -/

/-- A row as the query reads it, with the time of its `updated_at` in milliseconds. -/
structure StoredRow where
  id : String
  key : String
  value : String
  kind : Kind
  archived : Bool
  written : ℤ
  fourDigit : FourDigitMillis written

def StoredRow.ofEntry (row : Entry) (fourDigit : FourDigitMillis row.updatedAt) : StoredRow where
  id := row.id
  key := row.key
  value := row.value
  kind := row.kind
  archived := row.archivedAt.isSome
  written := row.updatedAt
  fourDigit := fourDigit

def StoredRow.updatedAt (row : StoredRow) : String := stamp row.written

def cutoffText (t : Instant) : String :=
  String.ofList (yearText t.year ++ ['-'] ++ render minuteLayout (minuteClock t) ++
    (pad 9 (nano t) ++ fractionText (nano t) ++ ['Z']))

variable (ns : ℤ)

def Representable : Prop :=
  -262143 ≤ (Instant.ofNanos ns).year ∧ (Instant.ofNanos ns).year ≤ 262142
  deriving Decidable

/-- `Utc::now() - within` and its text, in nanoseconds; `none` is chrono's panic. -/
def cutoff (now within : ℤ) : Option String :=
  if Representable (now - within) then some (cutoffText (Instant.ofNanos (now - within))) else none

def StoredRow.ActiveEvent (row : StoredRow) : Prop := row.archived = false ∧ row.kind = .event
  deriving Decidable

def NewerFirst (row row' : StoredRow) : Prop := row'.updatedAt ≤ row.updatedAt
  deriving Decidable

def recentEvents (rows : List StoredRow) (now within : ℤ) (limit : ℕ) : Option (List StoredRow) :=
  (cutoff now within).map fun text =>
    ((rows.filter fun row => row.ActiveEvent ∧ text ≤ row.updatedAt).insertionSort
      NewerFirst).take limit

/-! ## What it is for -/

def Recent (now within : ℤ) (row : StoredRow) : Prop :=
  row.ActiveEvent ∧ now - within ≤ row.written * 1000000
  deriving Decidable

/-- The newest rows of the window, at most `limit`; rows of one time in any order. -/
def Newest (rows : List StoredRow) (now within : ℤ) (limit : ℕ) (result : List StoredRow) : Prop :=
  ∃ sorted : List StoredRow, sorted.Perm (rows.filter fun row => Recent now within row) ∧
    sorted.Pairwise (fun row row' => row'.written ≤ row.written) ∧ result = sorted.take limit

def Answers (rows : List StoredRow) (now within : ℤ) (limit : ℕ) : Prop :=
  ∃ result, recentEvents rows now within limit = some result ∧ Newest rows now within limit result

/-- The text of the cutoff misleads: the row is of the same minute, and the hundredths of the
cutoff's second decide; or the cutoff lies beyond year 9999. -/
def Misjudged (cutoff written : ℤ) : Prop :=
  253402300800000000000 ≤ cutoff ∨
    cutoff / 60000000000 = written / 60000 ∧
      ¬ (cutoff % 1000000000 / 10000000 < written / 1000 % 60 ↔ cutoff ≤ written * 1000000)
  deriving Decidable

/-! ## Comparing the texts -/

theorem toList_cutoffText {t : Instant} (year : FourDigit t) :
    (cutoffText t).toList = minuteText t ++ (pad 9 (nano t) ++ fractionText (nano t) ++ ['Z']) := by
  have text : yearText t.year = pad 4 t.year.toNat := if_pos ⟨year.1, year.2⟩
  rw [cutoffText, String.toList_ofList, text]
  rfl

variable (ms : ℤ)

theorem toList_stamp :
    (stamp ms).toList = minuteText (Instant.ofMillis ms) ++ (pad 2 (second (Instant.ofMillis ms)) ++
      '.' :: (pad 3 (nano (Instant.ofMillis ms) / 1000000) ++ ['Z'])) := by
  rw [stamp, String.toList_ofList, render_layout_eq, append_assoc]

theorem dot_lt_digits {w n : ℕ} (s s' : List Char) : '.' :: s < pad (1 + w) n ++ s' := by
  cases digits : pad (1 + w) n with
  | nil => exact absurd (congrArg List.length digits) (by simp)
  | cons d rest =>
    have digit : d.isDigit = true :=
      isDigit_of_mem_pad (by rw [digits]; exact mem_cons_self)
    have atLeast : '0' ≤ d := by
      simp only [Char.isDigit, Bool.and_eq_true, decide_eq_true_eq] at digit
      exact digit.1
    exact cons_lt_cons_iff.mpr (Or.inl (lt_of_lt_of_le (by decide) atLeast))

theorem nanos_lt_second_iff {n k : ℕ} (fits : n < 1000000000) (fits' : k < 100) (s s' : List Char) :
    ¬ pad 2 k ++ '.' :: s' < pad 9 n ++ s ↔ n / 10000000 < k := by
  have digits : pad 9 n = pad 2 (n / 10000000) ++ pad 7 n := pad_add 2 7 n
  rw [digits, append_assoc]
  constructor
  · intro notBefore
    by_contra notLess
    refine notBefore ?_
    rcases (Nat.not_lt.mp notLess).lt_or_eq with later | same
    · exact append_lt_append (by simp) (pad_lt_pad later (by omega)) _ _
    · rw [same]
      exact append_left_lt (dot_lt_digits (w := 6) _ _)
  · intro less
    exact lt_asymm (append_lt_append (by simp) (pad_lt_pad less fits') _ _)

theorem secs_ofNanos : ((Instant.ofNanos ns).secs : ℤ) = ns % 86400000000000 / 1000000000 := by
  simp only [Instant.ofNanos, Instant.ofDays]
  omega

theorem secs_ofMillis : ((Instant.ofMillis ms).secs : ℤ) = ms % 86400000 / 1000 := by
  simp only [Instant.ofMillis, Instant.ofDays]
  omega

theorem nano_ofNanos : (nano (Instant.ofNanos ns) : ℤ) = ns % 1000000000 := by
  simp only [nano, Instant.ofNanos, Instant.ofDays]
  omega

theorem second_ofMillis : (second (Instant.ofMillis ms) : ℤ) = ms / 1000 % 60 := by
  have secs := secs_ofMillis ms
  have fraction : ¬ 1000000000 ≤ (Instant.ofMillis ms).frac := by
    simp only [Instant.ofMillis, Instant.ofDays]
    omega
  rw [second, if_neg fraction]
  omega

theorem days_ofNanos : (Instant.ofNanos ns).days = 719528 + ns / 86400000000000 :=
  Instant.days_ofDays _ _ _ _

theorem days_ofMillis : (Instant.ofMillis ms).days = 719528 + ms / 86400000 :=
  Instant.days_ofDays _ _ _ _

/-- **What the comparison of the texts decides.** -/
theorem cutoffText_le_stamp_iff {ns ms : ℤ} (within : FourDigitMillis ms) :
    cutoffText (Instant.ofNanos ns) ≤ stamp ms ↔
      ¬ FourDigitNanos ns ∨ ns / 60000000000 < ms / 60000 ∨
        ns / 60000000000 = ms / 60000 ∧ ns % 1000000000 / 10000000 < ms / 1000 % 60 := by
  have year' := fourDigit_ofMillis within
  have secs := secs_ofNanos ns
  have secs' := secs_ofMillis ms
  have days := days_ofNanos ns
  have days' := days_ofMillis ms
  rw [← not_lt, String.lt_iff_toList_lt, toList_stamp]
  by_cases four : FourDigitNanos ns
  · have year := fourDigit_ofNanos_iff.mpr four
    rw [toList_cutoffText year]
    rcases lt_trichotomy (ns / 60000000000) (ms / 60000) with before | same | after
    · have earlier : EarlierMinute (Instant.ofNanos ns) (Instant.ofMillis ms) := by
        rw [EarlierMinute, days, days']
        omega
      exact iff_of_true (lt_asymm (minuteText_lt year year' earlier _ _)) (.inr (.inl before))
    · have sameMinute : SameMinute (Instant.ofNanos ns) (Instant.ofMillis ms) := by
        rw [SameMinute, days, days']
        omega
      have nanos := nano_ofNanos ns
      have seconds := second_ofMillis ms
      rw [minuteText_eq sameMinute, append_left_lt_iff, append_assoc,
        nanos_lt_second_iff (by omega) (by omega)]
      constructor
      · intro less
        exact .inr (.inr ⟨same, by omega⟩)
      · rintro (wide | before | ⟨-, less⟩)
        · exact absurd four wide
        · omega
        · omega
    · have later : EarlierMinute (Instant.ofMillis ms) (Instant.ofNanos ns) := by
        rw [EarlierMinute, days, days']
        omega
      refine iff_of_false (not_not.mpr (minuteText_lt year' year later _ _)) ?_
      rintro (wide | before | ⟨same, -⟩)
      · exact wide four
      · omega
      · omega
  · have wide : ¬ FourDigit (Instant.ofNanos ns) := fun year =>
      four (fourDigit_ofNanos_iff.mp year)
    refine iff_of_true (lt_asymm ?_) (.inl four)
    rw [cutoffText, String.toList_ofList, minuteText, render]
    simp only [append_assoc]
    exact yearText_lt_of_not_fourDigit wide _ _ _

theorem cutoffText_le_stamp_iff_recent {ns ms : ℤ} (within : FourDigitMillis ms) :
    (cutoffText (Instant.ofNanos ns) ≤ stamp ms ↔ ns ≤ ms * 1000000) ↔ ¬ Misjudged ns ms := by
  obtain ⟨first, last⟩ := within
  rw [cutoffText_le_stamp_iff ⟨first, last⟩, Misjudged, FourDigitNanos]
  omega

/-! ## The answer -/

instance : Std.Total NewerFirst := ⟨fun row row' => le_total row'.updatedAt row.updatedAt⟩

instance : IsTrans StoredRow NewerFirst := ⟨fun _ _ _ first second => le_trans second first⟩

theorem newerFirst_iff {row row' : StoredRow} : NewerFirst row row' ↔ row'.written ≤ row.written :=
  stamp_le_stamp_iff row'.fourDigit row.fourDigit

variable {rows : List StoredRow} {now within : ℤ} {limit : ℕ}

theorem mem_recentEvents (row : StoredRow) (result : List StoredRow) (fits : rows.length ≤ limit)
    (answer : recentEvents rows now within limit = some result) :
    row ∈ result ↔ row ∈ rows ∧ row.ActiveEvent ∧
      cutoffText (Instant.ofNanos (now - within)) ≤ stamp row.written := by
  rw [recentEvents, cutoff] at answer
  split at answer
  · rw [Option.map_some] at answer
    obtain rfl := Option.some.inj answer
    rw [take_of_length_le, mem_insertionSort, mem_filter, decide_eq_true_eq]
    · rfl
    · rw [length_insertionSort]
      exact (length_filter_le _ _).trans fits
  · cases answer

theorem mem_newest {row : StoredRow} {result : List StoredRow} (fits : rows.length ≤ limit)
    (newest : Newest rows now within limit result) :
    row ∈ result ↔ row ∈ rows ∧ Recent now within row := by
  obtain ⟨sorted, perm, -, rfl⟩ := newest
  rw [take_of_length_le, perm.mem_iff, mem_filter, decide_eq_true_eq]
  rw [perm.length_eq]
  exact (length_filter_le _ _).trans fits

/-- **The query answers rightly, for every limit, exactly when the cutoff is a date of
chrono's and no active event is misjudged.** -/
theorem answers_iff_none_misjudged (rows : List StoredRow) (now within : ℤ) :
    (∀ limit, Answers rows now within limit) ↔
      Representable (now - within) ∧
        ∀ row ∈ rows, row.ActiveEvent → ¬ Misjudged (now - within) row.written := by
  constructor
  · intro answers
    obtain ⟨result, answer, newest⟩ := answers rows.length
    constructor
    · by_contra beyond
      rw [recentEvents, cutoff, if_neg beyond] at answer
      cases answer
    · intro row mem event
      rw [← cutoffText_le_stamp_iff_recent row.fourDigit]
      have selected := mem_recentEvents row result le_rfl answer
      rw [mem_newest le_rfl newest] at selected
      constructor
      · intro le
        exact (selected.mpr ⟨mem, event, le⟩).2.2
      · intro recent
        exact (selected.mp ⟨mem, event, recent⟩).2.2
  · rintro ⟨representable, judged⟩ limit
    refine ⟨_, by rw [recentEvents, cutoff, if_pos representable]; rfl,
      (rows.filter fun row => Recent now within row).insertionSort NewerFirst,
      perm_insertionSort _ _, ?_, ?_⟩
    · exact (pairwise_insertionSort NewerFirst _).imp fun newer => newerFirst_iff.mp newer
    · refine congrArg (fun selected => (List.insertionSort NewerFirst selected).take limit)
        (filter_congr fun row mem => decide_eq_decide.mpr (and_congr_right fun event => ?_))
      exact (cutoffText_le_stamp_iff_recent row.fourDigit).mpr (judged row mem event)

def newYear : ℕ := 1767225600000

def week : ℤ := 604800000000000

def note (second : ℕ) : Entry :=
  newRow ⟨"release", "shipped", .event, .userTold, none⟩ "a" none (newYear + second * 1000)

theorem fourDigit_note {second : ℕ} (minute : second < 60) :
    FourDigitMillis (note second).updatedAt := by
  have written : ((note second).updatedAt : ℤ) = 1767225600000 + second * 1000 := rfl
  rw [written]
  constructor <;> omega

def noted (second : ℕ) (minute : second < 60) : StoredRow :=
  .ofEntry (note second) (fourDigit_note minute)

def aWeekLater (hundredths : ℤ) : ℤ := (newYear : ℤ) * 1000000 + week + hundredths * 10000000

theorem noted_found : Answers [noted 55 (by decide)] (aWeekLater 3050) week 20 := by
  refine (answers_iff_none_misjudged _ _ _).mpr ⟨by decide +kernel, fun row mem _ => ?_⟩ 20
  rw [mem_singleton.mp mem]
  decide +kernel

theorem recentEvents_noted {second : ℕ} (minute : second < 60) {hundredths : ℤ}
    (representable : Representable (aWeekLater hundredths - week)) (limit : ℕ) :
    recentEvents [noted second minute] (aWeekLater hundredths) week (limit + 1) =
      some (if cutoffText (Instant.ofNanos (aWeekLater hundredths - week)) ≤
        stamp (noted second minute).written then [noted second minute] else []) := by
  rw [recentEvents, cutoff, if_pos representable, Option.map_some]
  split
  · rename_i le
    rw [filter_cons_of_pos (by exact decide_eq_true ⟨⟨rfl, rfl⟩, le⟩), filter_nil,
      (pairwise_singleton NewerFirst _).insertionSort_eq, take_succ_cons, take_nil]
  · rename_i notLe
    rw [filter_cons_of_neg (by exact fun selected => notLe (of_decide_eq_true selected).2),
      filter_nil, insertionSort_nil, take_nil]

/-- **A row of the window is left out, and one before it is returned.** -/
theorem noted_misjudged :
    (recentEvents [noted 45 (by decide)] (aWeekLater 3050) week 20 = some [] ∧
      Recent (aWeekLater 3050) week (noted 45 (by decide))) ∧
    (recentEvents [noted 10 (by decide)] (aWeekLater 3005) week 20 = some [noted 10 (by decide)] ∧
      ¬ Recent (aWeekLater 3005) week (noted 10 (by decide))) := by
  refine ⟨⟨?_, by decide +kernel⟩, ?_, by decide +kernel⟩
  · rw [recentEvents_noted (by decide) (by decide +kernel) 19, if_neg]
    rw [cutoffText_le_stamp_iff (noted 45 (by decide)).fourDigit]
    decide +kernel
  · rw [recentEvents_noted (by decide) (by decide +kernel) 19, if_pos]
    rw [cutoffText_le_stamp_iff (noted 10 (by decide)).fourDigit]
    decide +kernel

end Havn.Db.RecentEvents
