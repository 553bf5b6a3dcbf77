import ActivityCatalog.Text.Blank

namespace ActivityCatalog

/-!
# Times of the proleptic Gregorian calendar

A time is read from a date and time of day with an offset (RFC 3339) or from a
bare date, which means its midnight in UTC.  It is held as seconds from the
start of 1970 and nanoseconds, which reach beyond a second inside a leap second,
and times are compared in that order.

`Date.dayNumber` counts the days of the calendar, and `Date.ofDayNumber` is its
inverse.
-/

/-- A date of the proleptic Gregorian calendar. -/
structure Date where
  year : Int
  month : Nat
  day : Nat
  deriving Repr, DecidableEq

namespace Date

/-- Whether a year has a 29th of February. -/
def isLeapYear (year : Int) : Bool :=
  year % 4 = 0 && (year % 100 ≠ 0 || year % 400 = 0)

/-- The number of days of a month. -/
def daysInMonth (year : Int) (month : Nat) : Nat :=
  match month with
  | 2 => if isLeapYear year then 29 else 28
  | 4 | 6 | 9 | 11 => 30
  | _ => 31

/-- Whether month and day occur in the calendar. -/
def isValid (date : Date) : Bool :=
  1 ≤ date.month && date.month ≤ 12 && 1 ≤ date.day &&
    date.day ≤ daysInMonth date.year date.month

/-- The days between the start of year 1 and the start of a year. -/
def daysBeforeYear (year : Int) : Int :=
  let past := year - 1
  365 * past + past / 4 - past / 100 + past / 400

/-- The days of a year before a month. -/
def daysBeforeMonth (year : Int) : Nat → Nat
  | 0 =>
      0
  | 1 =>
      0
  | month + 1 =>
      daysBeforeMonth year month + daysInMonth year month

/-- The days from the start of 1970 to a date. -/
def dayNumber (date : Date) : Int :=
  daysBeforeYear date.year + daysBeforeMonth date.year date.month + date.day - 1 -
    daysBeforeYear 1970

/-- Find the month of a day of a year, counting both days from zero. -/
def monthOfDay (year : Int) : Nat → Nat → Nat → Date
  | 0, month, dayOfYear =>
      ⟨year, month, dayOfYear + 1⟩
  | budget + 1, month, dayOfYear =>
      if dayOfYear < daysInMonth year month then
        ⟨year, month, dayOfYear + 1⟩
      else
        monthOfDay year budget (month + 1) (dayOfYear - daysInMonth year month)

/-- The year in which a day number lies. -/
def yearOfDayNumber (dayNumber : Int) : Int :=
  let days := dayNumber + daysBeforeYear 1970
  let estimate := days * 400 / 146097 + 1
  if days < daysBeforeYear estimate then
    estimate - 1
  else if daysBeforeYear (estimate + 1) ≤ days then
    estimate + 1
  else
    estimate

/-- The date of a day number. -/
def ofDayNumber (dayNumber : Int) : Date :=
  let year := yearOfDayNumber dayNumber
  monthOfDay year 11 1 (dayNumber + daysBeforeYear 1970 - daysBeforeYear year).toNat

end Date

/-- A time: seconds from the start of 1970 and nanoseconds. -/
structure Timestamp where
  seconds : Int
  nanos : Nat
  deriving Repr, DecidableEq

namespace Timestamp

/-- The nanoseconds of a second. -/
def nanosPerSecond : Nat :=
  1000000000

/-- Whether a time is later than another. -/
def isAfter (left right : Timestamp) : Bool :=
  right.seconds < left.seconds ||
    (right.seconds == left.seconds && right.nanos < left.nanos)

/-- Read a number of exactly so many digits. -/
def fixedDigits? : Nat → List Char → Nat → Option (Nat × List Char)
  | 0, chars, value =>
      some (value, chars)
  | count + 1, char :: rest, value =>
      if char.isDigit then
        fixedDigits? count rest (value * 10 + (char.toNat - '0'.toNat))
      else
        none
  | _ + 1, [], _ =>
      none

/-- Take a character that must come next. -/
def expect? (isExpected : Char → Bool) : List Char → Option (List Char)
  | char :: rest =>
      if isExpected char then some rest else none
  | [] =>
      none

/-- The number that digits write. -/
def digitsValue (digits : List Char) : Nat :=
  digits.foldl (fun value char => value * 10 + (char.toNat - '0'.toNat)) 0

/-- Read the fraction of a second in nanoseconds, dropping digits beyond the ninth. -/
def fraction? : List Char → Option (Nat × List Char)
  | '.' :: rest =>
      let digits := rest.takeWhile Char.isDigit
      if digits = [] then
        none
      else
        let kept := digits.take 9
        some (digitsValue kept * Nat.pow 10 (9 - kept.length), rest.dropWhile Char.isDigit)
  | chars =>
      some (0, chars)

/-- Read an offset from UTC in seconds. -/
def offset? : List Char → Option (Int × List Char)
  | [] =>
      none
  | sign :: rest => do
      if sign = 'Z' ∨ sign = 'z' then
        pure (0, rest)
      else
        let negative ←
          if sign = '+' then some false
          else if sign = '-' ∨ sign = '\u2212' then some true
          else none
        let (hours, rest) ← fixedDigits? 2 rest 0
        let rest ← expect? (· == ':') rest
        let (minutes, rest) ← fixedDigits? 2 rest 0
        if 23 < hours ∨ 59 < minutes then
          none
        else
          let seconds : Int := hours * 3600 + minutes * 60
          pure (if negative then -seconds else seconds, rest)

/-- The midnight in UTC at which a date starts. -/
def ofDate (date : Date) : Timestamp :=
  ⟨date.dayNumber * 86400, 0⟩

/-- Read a date and a time of day with an offset, as RFC 3339 writes them. -/
def ofDateTime? (chars : List Char) : Option Timestamp := do
  let (year, rest) ← fixedDigits? 4 chars 0
  let rest ← expect? (· == '-') rest
  let (month, rest) ← fixedDigits? 2 rest 0
  let rest ← expect? (· == '-') rest
  let (day, rest) ← fixedDigits? 2 rest 0
  let rest ← expect? (fun char => char == 'T' || char == 't' || char == ' ') rest
  let (hour, rest) ← fixedDigits? 2 rest 0
  let rest ← expect? (· == ':') rest
  let (minute, rest) ← fixedDigits? 2 rest 0
  let rest ← expect? (· == ':') rest
  let (second, rest) ← fixedDigits? 2 rest 0
  let (fraction, rest) ← fraction? rest
  let (offset, rest) ← offset? rest
  let date : Date := ⟨year, month, day⟩
  if rest ≠ [] ∨ !date.isValid ∨ 23 < hour ∨ 59 < minute ∨ 60 < second then
    none
  else
    let isLeapSecond := second = 60
    let wholeSecond := if isLeapSecond then 59 else second
    let ofDay : Int := hour * 3600 + minute * 60 + wholeSecond
    some
      { seconds := date.dayNumber * 86400 + ofDay - offset
        nanos := fraction + if isLeapSecond then nanosPerSecond else 0 }

/-- Read one to so many digits after blanks. -/
def upToDigits? (count : Nat) (chars : List Char) : Option (Nat × List Char) :=
  let start := chars.dropWhile Text.isBlank
  let digits := (start.take count).takeWhile Char.isDigit
  if digits = [] then
    none
  else
    some (digitsValue digits, start.drop digits.length)

/-- Read a year after blanks: four digits at most, or any number of them after a sign. -/
def year? (chars : List Char) : Option (Int × List Char) :=
  match chars.dropWhile Text.isBlank with
  | '-' :: rest =>
      let digits := rest.takeWhile Char.isDigit
      if digits = [] then
        none
      else
        some (-(digitsValue digits : Int), rest.drop digits.length)
  | '+' :: rest =>
      let digits := rest.takeWhile Char.isDigit
      if digits = [] then
        none
      else
        some (digitsValue digits, rest.drop digits.length)
  | start =>
      (upToDigits? 4 start).map fun (year, rest) => ((year : Int), rest)

/-- The first year that a date can have. -/
def leastYear : Int :=
  -262143

/-- The last year that a date can have. -/
def greatestYear : Int :=
  262142

/-- Read a bare date. -/
def ofDate? (chars : List Char) : Option Timestamp := do
  let (year, rest) ← year? chars
  let rest ← expect? (· == '-') rest
  let (month, rest) ← upToDigits? 2 rest
  let rest ← expect? (· == '-') rest
  let (day, rest) ← upToDigits? 2 rest
  let date : Date := ⟨year, month, day⟩
  if rest ≠ [] ∨ year < leastYear ∨ greatestYear < year ∨ !date.isValid then
    none
  else
    some (ofDate date)

/-- Read a time: a date and time of day with an offset, or else a bare date. -/
def parse? (text : String) : Option Timestamp :=
  match ofDateTime? text.toList with
  | some time => some time
  | none => ofDate? text.toList

/-- A number with at least so many digits. -/
def padded (width value : Nat) : String :=
  let digits := Nat.toDigits 10 value
  String.ofList (List.replicate (width - digits.length) '0' ++ digits)

/-- The text of a year, with a sign where it has not four digits. -/
def yearText (year : Int) : String :=
  if 0 ≤ year ∧ year ≤ 9999 then
    padded 4 year.toNat
  else
    (if year < 0 then "-" else "+") ++ padded 4 year.natAbs

/-- The text of a fraction of a second, in thousands as fine as needed. -/
def fractionText (nanos : Nat) : String :=
  if nanos = 0 then ""
  else if nanos % 1000000 = 0 then "." ++ padded 3 (nanos / 1000000)
  else if nanos % 1000 = 0 then "." ++ padded 6 (nanos / 1000)
  else "." ++ padded 9 nanos

/-- The text of a time in UTC. -/
def text (time : Timestamp) : String :=
  let date := Date.ofDayNumber (time.seconds / 86400)
  let ofDay := (time.seconds % 86400).toNat
  let isLeapSecond := nanosPerSecond ≤ time.nanos
  let second := ofDay % 60 + if isLeapSecond then 1 else 0
  let nanos := if isLeapSecond then time.nanos - nanosPerSecond else time.nanos
  yearText date.year ++ "-" ++ padded 2 date.month ++ "-" ++ padded 2 date.day ++ "T" ++
    padded 2 (ofDay / 3600) ++ ":" ++ padded 2 (ofDay / 60 % 60) ++ ":" ++
    padded 2 second ++ fractionText nanos ++ "+00:00"

end Timestamp

end ActivityCatalog
