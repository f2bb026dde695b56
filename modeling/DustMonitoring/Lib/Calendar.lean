import Mathlib.Init

/-!
# The proleptic Gregorian calendar

The date part of a timestamp, its day number, and its ISO 8601 week, by
the algorithms of the standard library that the source runs on.  Day `1`
is the first of January of the year `1`, a Monday.
-/

namespace DustMonitoring.Lib

/-- A timestamp in UTC, to the microsecond. -/
structure DateTime where
  year : Nat
  month : Nat
  day : Nat
  hour : Nat := 0
  minute : Nat := 0
  second : Nat := 0
  microsecond : Nat := 0
deriving DecidableEq, Repr

/-- Whether the year has a 29th of February. -/
def isLeap (year : Nat) : Bool :=
  year % 4 == 0 && (year % 100 != 0 || year % 400 == 0)

/-- The days before the first of January of the year. -/
def daysBeforeYear (year : Nat) : Nat :=
  let y := year - 1
  y * 365 + y / 4 - y / 100 + y / 400

/-- The days of the year before the first of the month. -/
def daysBeforeMonth (year month : Nat) : Nat :=
  [0, 31, 59, 90, 120, 151, 181, 212, 243, 273, 304, 334].getD (month - 1) 0 +
    if 2 < month && isLeap year then 1 else 0

/-- The days of the month. -/
def daysInMonth (year month : Nat) : Nat :=
  [31, 28, 31, 30, 31, 30, 31, 31, 30, 31, 30, 31].getD (month - 1) 0 +
    if month = 2 ∧ isLeap year then 1 else 0

/-- The fields are in the ranges of `datetime`. -/
structure DateTime.InRange (ts : DateTime) : Prop where
  year : 1 ≤ ts.year ∧ ts.year ≤ 9999
  month : 1 ≤ ts.month ∧ ts.month ≤ 12
  day : 1 ≤ ts.day ∧ ts.day ≤ daysInMonth ts.year ts.month
  hour : ts.hour < 24
  minute : ts.minute < 60
  second : ts.second < 60
  microsecond : ts.microsecond < 1000000

/-- The day number of a date. -/
def ymd2ord (year month day : Nat) : Nat :=
  daysBeforeYear year + daysBeforeMonth year month + day

/-- The day number of the Monday that starts the first ISO week of the
year.  It is an integer: the year `0` of the computation starts below day
`1`. -/
def isoWeek1Monday (year : Nat) : Int :=
  let firstDay : Int := ymd2ord year 1 1
  let firstWeekday := (firstDay + 6) % 7
  let week1Monday := firstDay - firstWeekday
  if 3 < firstWeekday then week1Monday + 7 else week1Monday

/-- The ISO year and the ISO week of a date. -/
def isocalendar (year month day : Nat) : Nat × Nat :=
  let today : Int := ymd2ord year month day
  let week := (today - isoWeek1Monday year) / 7
  if week < 0 then
    (year - 1, ((today - isoWeek1Monday (year - 1)) / 7).toNat + 1)
  else if 52 ≤ week ∧ isoWeek1Monday (year + 1) ≤ today then
    (year + 1, 1)
  else
    (year, week.toNat + 1)

/-- The day number of the Monday of an ISO week. -/
def fromisocalendar (year week : Nat) : Int :=
  isoWeek1Monday year + (week - 1 : Int) * 7

/-- The date of a day number, as year, month and day. -/
def ord2ymd (day : Nat) : Nat × Nat × Nat :=
  let n := day - 1
  let n400 := n / 146097
  let n := n % 146097
  let n100 := n / 36524
  let n := n % 36524
  let n4 := n / 1461
  let n := n % 1461
  let n1 := n / 365
  let n := n % 365
  let year := n400 * 400 + 1 + n100 * 100 + n4 * 4 + n1
  if n1 = 4 ∨ n100 = 4 then
    (year - 1, 12, 31)
  else
    -- The estimate of the month is at most one too large.
    let month := (n + 50) / 32
    let month := if n < daysBeforeMonth year month then month - 1 else month
    (year, month, n - daysBeforeMonth year month + 1)

/-- The day number of the first of January 1970. -/
def epochDay : Int := 719163

example : isocalendar 2026 1 1 = (2026, 1) ∧ isocalendar 2025 12 29 = (2026, 1) ∧
    isocalendar 2020 12 31 = (2020, 53) := by decide

example : ord2ymd (ymd2ord 2024 2 29) = (2024, 2, 29) ∧
    ord2ymd (ymd2ord 2024 12 31) = (2024, 12, 31) ∧
    ord2ymd (fromisocalendar 2026 1).toNat = (2025, 12, 29) := by decide

end DustMonitoring.Lib
