/-!
# Calendar

The Gregorian calendar, extended to all years from 1 to 9999, as a count of days.

* `daysBeforeYear`, `daysBeforeMonth` : days before the first of a year, of a month
* `CivilDate`      : year, month and day
* `CivilDate.ofDay`: the date of a day number
* `CivilDate.toDay?`: the day number of a date, if there is such a date
* `Day`            : a day of the calendar
* `weekDay?`       : the day number of a day in a numbered week
-/

namespace QueryTree

-- The zero of the core library, also where another library brings its own.
attribute [local instance (high)] Zero.ofOfNat0

/-! ## Years and months -/

/-- A leap year is divisible by four, but not by a hundred unless by four hundred. -/
def isLeap (year : Nat) : Bool :=
  year % 4 == 0 && (year % 100 != 0 || year % 400 == 0)

/-- The number of days from the first of January of year 1 to that of a later year. -/
def daysBeforeYear (year : Nat) : Nat :=
  let y := year - 1
  365 * y + y / 4 - y / 100 + y / 400

def monthLengths (leap : Bool) : List Nat :=
  [31, if leap then 29 else 28, 31, 30, 31, 30, 31, 31, 30, 31, 30, 31]

/-- The number of days before a month, from the lengths of the months of the year. -/
def daysBeforeMonth (leap : Bool) (month : Nat) : Nat :=
  ((monthLengths leap).take (month - 1)).sum

/-- The number of days of the years 1 to 9999. -/
def calendarDays : Nat := 3652059

/-! ## Dates -/

structure CivilDate where
  -- the year, from 1
  year : Nat
  -- the month, from 1 to 12
  month : Nat
  -- the day of the month, from 1
  day : Nat
  deriving DecidableEq, Repr

namespace CivilDate

/-- The month and day of the month that a day of the year falls on, counted off along the
    lengths of the months. -/
def locate (month : Nat) : List Nat → Nat → Nat × Nat
  | [], day => (month, day + 1)
  | length :: rest, day => if day < length then (month, day + 1) else locate (month + 1) rest (day - length)

/-- The date of a day number; day 0 is the first of January of year 1.  The count is taken
    apart into cycles of 400, 100, 4 and 1 years, of which the last of a kind may be a day
    longer. -/
def ofDay (day : Nat) : CivilDate :=
  let inCycle := day % 146097
  let centuries := min (inCycle / 36524) 3
  let inCentury := inCycle - centuries * 36524
  let inFour := inCentury % 1461
  let years := min (inFour / 365) 3
  let year := day / 146097 * 400 + centuries * 100 + inCentury / 1461 * 4 + years + 1
  let (month, dayOfMonth) := locate 1 (monthLengths (isLeap year)) (inFour - years * 365)
  ⟨year, month, dayOfMonth⟩

/-- Whether the calendar has the date: a year from 1 to 9999, a month of it, a day of that. -/
def isValid (d : CivilDate) : Bool :=
  1 ≤ d.year && d.year ≤ 9999 && 1 ≤ d.month && d.month ≤ 12 && 1 ≤ d.day &&
    d.day ≤ (monthLengths (isLeap d.year)).getD (d.month - 1) 0

def toDay (d : CivilDate) : Nat :=
  daysBeforeYear d.year + daysBeforeMonth (isLeap d.year) d.month + (d.day - 1)

def toDay? (d : CivilDate) : Option Nat :=
  if d.isValid then some d.toDay else none

end CivilDate

structure Day where
  -- the day number, from 0
  number : Nat
  -- the calendar ends with the year 9999
  inCalendar : number < calendarDays
  deriving DecidableEq, Repr

namespace Day

def civil (d : Day) : CivilDate :=
  CivilDate.ofDay d.number

def ofCivil? (d : CivilDate) : Option Day := do
  let n ← d.toDay?
  if h : n < calendarDays then some ⟨n, h⟩ else none

end Day

/-! ## Weeks -/

/-- The day of the week of a day number, Monday being 0; day 0 is a Monday. -/
def weekday (day : Nat) : Nat :=
  day % 7

/-- The Monday of the first week of a year: the week that holds the year's first Thursday.  It
    may lie up to three days before the year; for year 1 it is day 0. -/
def firstMonday (year : Nat) : Int :=
  let first := daysBeforeYear year
  if weekday first ≤ 3 then (first : Int) - weekday first else (first : Int) - weekday first + 7

/-- Whether a year has 53 numbered weeks: it starts on a Thursday, or is a leap year and starts
    on a Wednesday. -/
def hasLongYear (year : Nat) : Bool :=
  let first := weekday (daysBeforeYear year)
  first == 3 || (first == 2 && isLeap year)

/-- The day number of a day (1 to 7) in a numbered week of a year; none for weeks and days that
    do not exist or lie behind the calendar. -/
def weekDay? (year week day : Nat) : Option Nat :=
  if 1 ≤ year ∧ year ≤ 9999 ∧ 1 ≤ week ∧ (week ≤ 52 ∨ (week = 53 ∧ hasLongYear year)) ∧
      1 ≤ day ∧ day ≤ 7 then
    let n := firstMonday year + (week - 1) * 7 + (day - 1)
    if 0 ≤ n ∧ n < calendarDays then some n.toNat else none
  else none

end QueryTree
