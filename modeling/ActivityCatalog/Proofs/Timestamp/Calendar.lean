import Mathlib.Order.Monotone.Basic
import Mathlib.Algebra.Order.Group.Int
import ActivityCatalog.Timestamp

namespace ActivityCatalog

/-!
# The day numbers of the calendar

A year ends where the next one starts, on the last day of its last month, and a month ends
where the next one starts.  So the days of the calendar have the order of their day numbers,
also across the ends of months, leap years and centuries.
-/

namespace Date

section Counts

variable
  (year : Int)

theorem daysInMonth_le (month : Nat) : daysInMonth year month ≤ 31 := by
  unfold daysInMonth
  split
  · split
    · decide
    · decide
  all_goals decide

theorem daysBeforeMonth_succ
    {month : Nat}
    (isMonth : 1 ≤ month) :
    daysBeforeMonth year (month + 1) = daysBeforeMonth year month + daysInMonth year month := by
  cases month with
  | zero =>
      cases isMonth
  | succ month =>
      rfl

/-- The months before a month have no more days than those before a later one. -/
theorem daysBeforeMonth_mono
    {month later : Nat}
    (notAfter : month ≤ later) :
    daysBeforeMonth year month ≤ daysBeforeMonth year later := by
  apply monotone_nat_of_le_succ _ notAfter
  intro month
  cases month with
  | zero =>
      exact Nat.le_refl 0
  | succ month =>
      exact Nat.le_add_right _ _

/-- The months of a year have a day more in a leap year. -/
theorem daysBeforeMonth_thirteen :
    daysBeforeMonth year 13 = if isLeapYear year then 366 else 365 := by
  by_cases leaps : isLeapYear year = true
  · simp [daysBeforeMonth, daysInMonth, leaps]
  · simp [daysBeforeMonth, daysInMonth, leaps]

/-- The next year starts when all twelve months are over. -/
theorem daysBeforeYear_succ :
    daysBeforeYear (year + 1) = daysBeforeYear year + daysBeforeMonth year 13 := by
  have leaps : isLeapYear year = true ↔ year % 4 = 0 ∧ (year % 100 ≠ 0 ∨ year % 400 = 0) := by
    simp [isLeapYear]
  rw [daysBeforeMonth_thirteen, daysBeforeYear, daysBeforeYear, add_sub_cancel_right]
  split
  · rename_i isLeap
    have divides := leaps.mp isLeap
    omega
  · rename_i isCommon
    have dividesNot := mt leaps.mpr isCommon
    omega

theorem daysBeforeYear_mono
    {year later : Int}
    (notAfter : year ≤ later) :
    daysBeforeYear year ≤ daysBeforeYear later := by
  apply monotone_int_of_le_succ _ notAfter
  intro year
  rw [daysBeforeYear_succ]
  omega

end Counts

/-- A date comes before another by its year, then by its month and then by its day. -/
def Precedes (left right : Date) : Prop :=
  left.year < right.year ∨
    left.year = right.year ∧
      (left.month < right.month ∨ left.month = right.month ∧ left.day < right.day)

theorem isValid_iff {date : Date} :
    date.isValid = true ↔
      (1 ≤ date.month ∧ date.month ≤ 12) ∧
        1 ≤ date.day ∧ date.day ≤ daysInMonth date.year date.month := by
  simp [isValid, and_assoc]

variable
  {left right : Date}

/-- A day of a month is over before a later month starts. -/
theorem day_le_daysBeforeMonth
    {date : Date}
    (isValid : date.isValid = true)
    {month : Nat}
    (isLater : date.month < month) :
    daysBeforeMonth date.year date.month + date.day ≤ daysBeforeMonth date.year month := by
  obtain ⟨⟨isMonth, -⟩, -, inMonth⟩ := isValid_iff.mp isValid
  calc
    _ ≤ daysBeforeMonth date.year date.month + daysInMonth date.year date.month :=
      Nat.add_le_add_left inMonth _
    _ = daysBeforeMonth date.year (date.month + 1) := (daysBeforeMonth_succ _ isMonth).symm
    _ ≤ daysBeforeMonth date.year month := daysBeforeMonth_mono _ isLater

/-- A day of a year is over before a later year starts. -/
theorem day_le_daysBeforeYear
    {date : Date}
    (isValid : date.isValid = true)
    {year : Int}
    (isLater : date.year < year) :
    daysBeforeYear date.year + daysBeforeMonth date.year date.month + date.day ≤
      daysBeforeYear year := by
  obtain ⟨⟨-, isMonth⟩, -⟩ := isValid_iff.mp isValid
  have inYear : daysBeforeMonth date.year date.month + date.day ≤ daysBeforeMonth date.year 13 :=
    day_le_daysBeforeMonth isValid (Nat.lt_succ_of_le isMonth)
  have nextYear : daysBeforeYear (date.year + 1) ≤ daysBeforeYear year :=
    daysBeforeYear_mono isLater
  rw [daysBeforeYear_succ] at nextYear
  omega

theorem dayNumber_lt_of_precedes
    (leftValid : left.isValid = true)
    (rightValid : right.isValid = true)
    (precedes : left.Precedes right) :
    left.dayNumber < right.dayNumber := by
  obtain ⟨-, isDay, -⟩ := isValid_iff.mp rightValid
  unfold dayNumber
  rcases precedes with earlierYear | ⟨sameYear, earlierMonth | ⟨sameMonth, earlierDay⟩⟩
  · have yearOver := day_le_daysBeforeYear leftValid earlierYear
    omega
  · have monthOver := day_le_daysBeforeMonth leftValid earlierMonth
    rw [sameYear] at monthOver ⊢
    omega
  · rw [sameYear, sameMonth]
    omega

/-- Of two dates one comes first, unless they are the same. -/
theorem precedes_trichotomy (left right : Date) :
    left.Precedes right ∨ left = right ∨ right.Precedes left := by
  cases left
  cases right
  simp only [Precedes, mk.injEq]
  omega

/-- The calendar has the order of its day numbers. -/
theorem dayNumber_lt_iff
    (leftValid : left.isValid = true)
    (rightValid : right.isValid = true) :
    left.dayNumber < right.dayNumber ↔ left.Precedes right := by
  constructor
  · intro lower
    rcases precedes_trichotomy left right with precedes | rfl | follows
    · exact precedes
    · exact absurd lower (lt_irrefl _)
    · exact absurd lower (dayNumber_lt_of_precedes rightValid leftValid follows).asymm
  · exact dayNumber_lt_of_precedes leftValid rightValid

/-- No two dates have one day number. -/
theorem dayNumber_inj
    (leftValid : left.isValid = true)
    (rightValid : right.isValid = true) :
    left.dayNumber = right.dayNumber ↔ left = right := by
  constructor
  · intro same
    rcases precedes_trichotomy left right with precedes | isSame | follows
    · exact absurd same (dayNumber_lt_of_precedes leftValid rightValid precedes).ne
    · exact isSame
    · exact absurd same (dayNumber_lt_of_precedes rightValid leftValid follows).ne'
  · exact congrArg dayNumber

end Date

end ActivityCatalog
