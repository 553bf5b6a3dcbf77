import ActivityCatalog.Proofs.Text.Bytes
import ActivityCatalog.Proofs.Timestamp.Calendar
import ActivityCatalog.Proofs.Timestamp.Numbers

namespace ActivityCatalog.Timestamp

/-!
# Times as they are written

A day of the calendar is written as a bare date or together with a time of day in UTC.  Both are
read as the time that they mean, a bare date as its midnight.  Written with the time of day the
texts of the times have the order of the times.
-/

/-- A day of the calendar, in a year of four digits. -/
structure CalendarDay where
  year : Nat
  month : Nat
  day : Nat
  fourDigits : year < 10000
  isReal : (Date.mk year month day).isValid = true

/-- A time of day to the second. -/
structure TimeOfDay where
  hour : Nat
  minute : Nat
  second : Nat
  hourFits : hour < 24
  minuteFits : minute < 60
  secondFits : second < 60

/-- A time as it is written. -/
inductive WrittenTime where
  | date (day : CalendarDay)
  | dateTime (day : CalendarDay) (time : TimeOfDay)

namespace CalendarDay

/-- The date of a day. -/
def date (day : CalendarDay) : Date :=
  ⟨day.year, day.month, day.day⟩

/-- The text of a day, such as `2024-02-29`. -/
def text (day : CalendarDay) : String :=
  padded 4 day.year ++ "-" ++ padded 2 day.month ++ "-" ++ padded 2 day.day

end CalendarDay

namespace TimeOfDay

/-- The start of a day. -/
def midnight : TimeOfDay :=
  ⟨0, 0, 0, by decide, by decide, by decide⟩

/-- The seconds since the start of the day. -/
def seconds (time : TimeOfDay) : Nat :=
  time.hour * 3600 + time.minute * 60 + time.second

/-- The text of a time of day, such as `09:30:00`. -/
def text (time : TimeOfDay) : String :=
  padded 2 time.hour ++ ":" ++ padded 2 time.minute ++ ":" ++ padded 2 time.second

end TimeOfDay

namespace WrittenTime

/-- The text of a time, such as `2024-02-29` or `2024-02-29T09:30:00Z`. -/
def text : WrittenTime → String
  | .date day => day.text
  | .dateTime day time => day.text ++ "T" ++ time.text ++ "Z"

/-- The text of a time with its time of day: midnight is added to a bare date. -/
def completed : WrittenTime → String
  | .date day => day.text ++ "T00:00:00Z"
  | .dateTime day time => day.text ++ "T" ++ time.text ++ "Z"

/-- The day of a time. -/
def day : WrittenTime → CalendarDay
  | .date day => day
  | .dateTime day _ => day

/-- The time of day of a time, midnight for a bare date. -/
def timeOfDay : WrittenTime → TimeOfDay
  | .date _ => .midnight
  | .dateTime _ time => time

/-- The time that is meant. -/
def meant (written : WrittenTime) : Timestamp :=
  ⟨written.day.date.dayNumber * 86400 + written.timeOfDay.seconds, 0⟩

end WrittenTime

namespace CalendarDay

variable
  (day : CalendarDay)

theorem isValid_date : day.date.isValid = true :=
  day.isReal

theorem month_lt : day.month < 100 := by
  have isMonth : day.month ≤ 12 := (Date.isValid_iff.mp day.isReal).1.2
  omega

theorem day_lt : day.day < 100 := by
  have inMonth : day.day ≤ Date.daysInMonth day.year day.month :=
    (Date.isValid_iff.mp day.isReal).2.2
  have longest := Date.daysInMonth_le day.year day.month
  omega

theorem spells :
    Spells 4 day.year (padded 4 day.year).toList ∧
      Spells 2 day.month (padded 2 day.month).toList ∧
        Spells 2 day.day (padded 2 day.day).toList :=
  ⟨spells_padded (by decide) day.fourDigits, spells_padded (by decide) day.month_lt,
    spells_padded (by decide) day.day_lt⟩

theorem toList_text :
    day.text.toList =
      (padded 4 day.year).toList ++ '-' :: ((padded 2 day.month).toList ++ '-' ::
        (padded 2 day.day).toList) := by
  simp [text]

/-- A bare date is not taken for a date-time. -/
theorem ofDateTime?_text : ofDateTime? day.text.toList = none := by
  obtain ⟨yearSpelled, monthSpelled, daySpelled⟩ := day.spells
  have dayRead := daySpelled.fixedDigits?_eq []
  rw [List.append_nil] at dayRead
  have noMark (isExpected : Char → Bool) : expect? isExpected [] = none :=
    rfl
  rw [toList_text]
  unfold ofDateTime?
  simp only [↓yearSpelled.fixedDigits?_bind, ↓monthSpelled.fixedDigits?_bind, ↓expect?_bind,
    beq_self_eq_true]
  rw [dayRead, Option.bind_eq_bind, Option.bind_some, noMark]
  rfl

/-- A bare date is read as its midnight. -/
theorem ofDate?_text : ofDate? day.text.toList = some (ofDate day.date) := by
  obtain ⟨yearSpelled, monthSpelled, daySpelled⟩ := day.spells
  have dayRead := daySpelled.upToDigits?_eq []
  rw [List.append_nil] at dayRead
  have inRange : leastYear ≤ day.year ∧ (day.year : Int) ≤ greatestYear := by
    have fourDigits := day.fourDigits
    unfold leastYear greatestYear
    omega
  have isAccepted :
      ¬(([] : List Char) ≠ [] ∨ (day.year : Int) < leastYear ∨ greatestYear < day.year ∨
        (!(Date.mk day.year day.month day.day).isValid) = true) := by
    simp [inRange, day.isReal]
  simp only [ofDate?, toList_text, yearSpelled.year?_eq, monthSpelled.upToDigits?_eq,
    dayRead, expect?, beq_self_eq_true, ↓reduceIte, Option.bind_eq_bind, Option.bind_some]
  rw [if_neg isAccepted, date]

end CalendarDay

namespace TimeOfDay

variable
  (time : TimeOfDay)

theorem spells :
    Spells 2 time.hour (padded 2 time.hour).toList ∧
      Spells 2 time.minute (padded 2 time.minute).toList ∧
        Spells 2 time.second (padded 2 time.second).toList :=
  ⟨spells_padded (by decide) (time.hourFits.trans (by decide)),
    spells_padded (by decide) (time.minuteFits.trans (by decide)),
    spells_padded (by decide) (time.secondFits.trans (by decide))⟩

theorem toList_text :
    time.text.toList =
      (padded 2 time.hour).toList ++ ':' :: ((padded 2 time.minute).toList ++ ':' ::
        (padded 2 time.second).toList) := by
  simp [text]

theorem seconds_lt : time.seconds < 86400 := by
  have hourFits := time.hourFits
  have minuteFits := time.minuteFits
  have secondFits := time.secondFits
  unfold seconds
  omega

end TimeOfDay

section DateTimes

variable
  (day : CalendarDay)
  (time : TimeOfDay)

theorem toList_dateTime :
    (day.text ++ "T" ++ time.text ++ "Z").toList =
      (padded 4 day.year).toList ++ '-' :: ((padded 2 day.month).toList ++ '-' ::
        ((padded 2 day.day).toList ++ 'T' :: ((padded 2 time.hour).toList ++ ':' ::
          ((padded 2 time.minute).toList ++ ':' ::
            ((padded 2 time.second).toList ++ ['Z']))))) := by
  simp [CalendarDay.toList_text, TimeOfDay.toList_text]

/-- A date-time is read as the seconds of its day after the midnight of its date. -/
theorem ofDateTime?_dateTime :
    ofDateTime? (day.text ++ "T" ++ time.text ++ "Z").toList =
      some ⟨day.date.dayNumber * 86400 + time.seconds, 0⟩ := by
  obtain ⟨yearSpelled, monthSpelled, daySpelled⟩ := day.spells
  obtain ⟨hourSpelled, minuteSpelled, secondSpelled⟩ := time.spells
  have noLeapSecond : time.second ≠ 60 := time.secondFits.ne
  have isAccepted :
      ¬(([] : List Char) ≠ [] ∨ (!(Date.mk day.year day.month day.day).isValid) = true ∨
        23 < time.hour ∨ 59 < time.minute ∨ 60 < time.second) := by
    simp [day.isReal, Nat.le_of_lt_succ time.hourFits, Nat.le_of_lt_succ time.minuteFits,
      time.secondFits.le]
  have noFraction : fraction? ['Z'] = some (0, ['Z']) :=
    rfl
  have inUtc : offset? ['Z'] = some (0, []) :=
    rfl
  rw [toList_dateTime]
  unfold ofDateTime?
  -- The steps are taken from the outside, so that what follows a step is gone through once.
  simp only [↓yearSpelled.fixedDigits?_bind, ↓monthSpelled.fixedDigits?_bind,
    ↓daySpelled.fixedDigits?_bind, ↓hourSpelled.fixedDigits?_bind,
    ↓minuteSpelled.fixedDigits?_bind, ↓secondSpelled.fixedDigits?_bind, ↓expect?_bind,
    beq_self_eq_true, Bool.true_or]
  simp only [noFraction, inUtc, Option.bind_eq_bind, Option.bind_some]
  rw [if_neg isAccepted]
  simp [noLeapSecond, CalendarDay.date, TimeOfDay.seconds]

end DateTimes

theorem isAfter_iff {left right : Timestamp} :
    left.isAfter right = true ↔
      right.seconds < left.seconds ∨ right.seconds = left.seconds ∧ right.nanos < left.nanos := by
  simp [isAfter]

namespace WrittenTime

/-- Every time that is written is read as what it means. -/
theorem parse?_text (written : WrittenTime) : parse? written.text = some written.meant := by
  cases written with
  | date day =>
      simp [parse?, text, day.ofDateTime?_text, day.ofDate?_text, ofDate, meant,
        WrittenTime.day, timeOfDay, TimeOfDay.midnight, TimeOfDay.seconds]
  | dateTime day time =>
      rw [parse?, text, ofDateTime?_dateTime]
      rfl

theorem completed_eq (written : WrittenTime) :
    written.completed = written.day.text ++ "T" ++ written.timeOfDay.text ++ "Z" := by
  cases written with
  | date day =>
      have midnight : TimeOfDay.midnight.text = "00:00:00" := by
        decide
      rw [completed, WrittenTime.day, timeOfDay, midnight, String.append_assoc, String.append_assoc]
      rfl
  | dateTime day time =>
      rfl

variable
  {left right : WrittenTime}

/-- The texts of times go by the calendar first, and on one day by the time of day. -/
theorem completed_lt_iff :
    left.completed < right.completed ↔
      left.day.date.Precedes right.day.date ∨
        left.day.date = right.day.date ∧ left.timeOfDay.seconds < right.timeOfDay.seconds := by
  obtain ⟨leftYear, leftMonth, leftDay⟩ := left.day.spells
  obtain ⟨rightYear, rightMonth, rightDay⟩ := right.day.spells
  obtain ⟨leftHour, leftMinute, leftSecond⟩ := left.timeOfDay.spells
  obtain ⟨rightHour, rightMinute, rightSecond⟩ := right.timeOfDay.spells
  rw [String.lt_iff_toList_lt, completed_eq, completed_eq, toList_dateTime, toList_dateTime]
  -- The marks between the numbers are the same, so that the numbers decide one after another.
  simp only [leftYear.append_lt_append_iff rightYear, leftMonth.append_lt_append_iff rightMonth,
    leftDay.append_lt_append_iff rightDay, leftHour.append_lt_append_iff rightHour,
    leftMinute.append_lt_append_iff rightMinute, leftSecond.append_lt_append_iff rightSecond,
    List.cons_lt_cons_iff, lt_self_iff_false, true_and, false_or, and_false, or_false]
  have leftMinuteFits := left.timeOfDay.minuteFits
  have leftSecondFits := left.timeOfDay.secondFits
  have rightMinuteFits := right.timeOfDay.minuteFits
  have rightSecondFits := right.timeOfDay.secondFits
  simp only [Date.Precedes, CalendarDay.date, Date.mk.injEq, TimeOfDay.seconds]
  omega

/-- The texts of times have the order of the times. -/
theorem isAfter_meant_iff :
    left.meant.isAfter right.meant = true ↔ right.completed < left.completed := by
  have leftSeconds := left.timeOfDay.seconds_lt
  have rightSeconds := right.timeOfDay.seconds_lt
  have earlier := Date.dayNumber_lt_iff right.day.isValid_date left.day.isValid_date
  have same := Date.dayNumber_inj right.day.isValid_date left.day.isValid_date
  rw [isAfter_iff, completed_lt_iff, ← earlier, ← same]
  simp only [meant]
  omega

end WrittenTime

end ActivityCatalog.Timestamp
