/-!
# The calendar

Days are numbered from the first day of year 1 of the Gregorian calendar, extended to all years in
both directions; day 1 is a Monday.

* `isLeapYear`, `monthLengths`      the lengths of years and months;
* `daysBeforeYear`, `dayNumber`     the number of a day;
* `yearOf`, `ordinalOf`             year and day of the year of a numbered day;
* `CivilDate.ofDayNumber`           year, month and day;
* `weekdayFromSunday`, `isoYearOf`, `isoWeekOf`, `weekOfYear`   weekdays and weeks.
-/

namespace ExprLang.Calendar

/-- every fourth year, of the full centuries every fourth -/
def isLeapYear (y : Int) : Bool := y % 4 == 0 && (y % 100 != 0 || y % 400 == 0)

/-- the lengths of the twelve months -/
def monthLengths (leap : Bool) : List Nat :=
  [31, if leap then 29 else 28, 31, 30, 31, 30, 31, 31, 30, 31, 30, 31]

/-- the length of a month, zero of a month that there is not -/
def daysInMonth (y : Int) (m : Nat) : Nat :=
  if m = 0 then 0 else (monthLengths (isLeapYear y)).getD (m - 1) 0

/-- the days of the year before a month -/
def daysBeforeMonth (y : Int) (m : Nat) : Nat :=
  ((monthLengths (isLeapYear y)).take (m - 1)).foldl (· + ·) 0

/-- the number of the last day before a year -/
def daysBeforeYear (y : Int) : Int :=
  365 * (y - 1) + (y - 1) / 4 - (y - 1) / 100 + (y - 1) / 400

/-- the number of a day -/
def dayNumber (y : Int) (m d : Nat) : Int := daysBeforeYear y + daysBeforeMonth y m + d

/-- the year of a numbered day -/
def yearOf (n : Int) : Int :=
  let inCycle := (n - 1) % 146097
  let century := min 3 (inCycle / 36524)
  let inCentury := inCycle - century * 36524
  let inFour := inCentury % 1461
  400 * ((n - 1) / 146097) + 100 * century + 4 * (inCentury / 1461) + min 3 (inFour / 365) + 1

/-- the day of the year, from one -/
def ordinalOf (n : Int) : Nat := (n - daysBeforeYear (yearOf n)).toNat

/-- month and day of the `ordinal`-th day, counting from month `m` with these lengths -/
def monthFrom (m ordinal : Nat) : List Nat → Nat × Nat
  | [] => (m, ordinal)
  | length :: rest =>
    if ordinal ≤ length ∨ rest.isEmpty then (m, ordinal)
    else monthFrom (m + 1) (ordinal - length) rest

/-- a day by year, month and day of the month -/
structure CivilDate where
  year : Int
  month : Nat
  day : Nat
deriving DecidableEq, Repr

def CivilDate.ofDayNumber (n : Int) : CivilDate :=
  let y := yearOf n
  let (m, d) := monthFrom 1 (ordinalOf n) (monthLengths (isLeapYear y))
  ⟨y, m, d⟩

/-- is this a day of the calendar -/
def CivilDate.isValid (c : CivilDate) : Bool := 1 ≤ c.day && c.day ≤ daysInMonth c.year c.month

/-- the number of a day given by its date -/
def CivilDate.toDayNumber (c : CivilDate) : Int := dayNumber c.year c.month c.day

/-! ## weeks -/

/-- the days since the last Sunday -/
def weekdayFromSunday (n : Int) : Nat := (n % 7).toNat

/-- the days since the last Monday -/
def weekdayFromMonday (n : Int) : Nat := ((n - 1) % 7).toNat

/-- the Thursday of the week of a day: its year is the year of the week -/
def thursdayOf (n : Int) : Int := n - weekdayFromMonday n + 3

/-- the year that the week of a day is counted in -/
def isoYearOf (n : Int) : Int := yearOf (thursdayOf n)

/-- the number of the week of a day in its year -/
def isoWeekOf (n : Int) : Nat := (ordinalOf (thursdayOf n) - 1) / 7 + 1

/-- the number of the week of a day in its year, where each week starts with one weekday and
`since` days have gone by since the last such day; the days before the first one are in week 0 -/
def weekOfYear (since : Nat) (n : Int) : Nat := (ordinalOf n + 6 - since) / 7

/-- the number of 1970-01-01 -/
def epochDay : Int := 719163

/-- the first day of the calendar's range, -262143-01-01 -/
def minDay : Int := -95746129

/-- the last day of the calendar's range, 262142-12-31 -/
def maxDay : Int := 95745399

theorem minDay_eq : minDay = dayNumber (-262143) 1 1 := by decide
theorem maxDay_eq : maxDay = dayNumber 262142 12 31 := by decide
theorem epochDay_eq : epochDay = dayNumber 1970 1 1 := by decide

end ExprLang.Calendar
