import QueryTree.Calendar
import QueryTree.Text.Digit

/-!
# Moments

Points of the calendar with microseconds, and the dates and times that name them.

* `Moment`          : a microsecond of the years 1 to 9999
* `CivilTime`       : its year, month, day, hour, minute, second and microsecond
* `DateTime`        : a wall-clock reading, with or without the offset of its zone
* `DateTime.utc?`   : the moment that a reading names on the clock of UTC
* `Moment.queryText`: the text of a moment in a query
* `Moment.dumpText` : the text of a moment in a dump
-/

namespace QueryTree

def microsPerDay : Nat := 86400000000

/-- A microsecond of the calendar, counted from the start of year 1. -/
structure Moment where
  -- microseconds since the start of the calendar
  micros : Nat
  -- the calendar ends with the year 9999
  inCalendar : micros < calendarDays * microsPerDay
  deriving DecidableEq, Repr

/-- The parts of a moment, as a calendar and a clock show them. -/
structure CivilTime where
  date : CivilDate
  -- the hour, from 0 to 23
  hour : Nat
  -- the minute, from 0 to 59
  minute : Nat
  -- the second, from 0 to 59
  second : Nat
  -- the microsecond, from 0 to 999999
  micro : Nat
  deriving DecidableEq, Repr

namespace Moment

/-- The moment at a count of microseconds, if it lies in the calendar. -/
def ofMicros? (n : Int) : Option Moment :=
  if h : 0 ≤ n ∧ n < (calendarDays * microsPerDay : Nat) then some ⟨n.toNat, by omega⟩ else none

def ofDay (d : Day) : Moment :=
  ⟨d.number * microsPerDay, by have := d.inCalendar; unfold microsPerDay; omega⟩

def civil (m : Moment) : CivilTime :=
  let ofDay := m.micros % microsPerDay
  { date := CivilDate.ofDay (m.micros / microsPerDay)
    hour := ofDay / 3600000000
    minute := ofDay / 60000000 % 60
    second := ofDay / 1000000 % 60
    micro := ofDay % 1000000 }

end Moment

namespace CivilTime

/-- Whether calendar and clock can show these parts; there is no leap second. -/
def isValid (t : CivilTime) : Bool :=
  t.date.isValid && t.hour < 24 && t.minute < 60 && t.second < 60 && t.micro < 1000000

/-- The microseconds from the start of the calendar to what the parts say. -/
def toMicros (t : CivilTime) : Nat :=
  t.date.toDay * microsPerDay + ((t.hour * 60 + t.minute) * 60 + t.second) * 1000000 + t.micro

/-- The moment at which calendar and clock show these parts, if they ever do. -/
def toMoment? (t : CivilTime) : Option Moment :=
  if t.isValid then Moment.ofMicros? t.toMicros else none

end CivilTime

/-! ## Readings of a wall clock -/

/-- A reading of calendar and wall clock; a reading with a known zone carries the offset of its
    clock from UTC in microseconds. -/
structure DateTime where
  wall : Moment
  -- how far the clock is ahead of UTC, if that is known
  offset : Option Int
  deriving DecidableEq, Repr

namespace DateTime

def ofUtc (m : Moment) : DateTime :=
  ⟨m, some 0⟩

/-- The moment that a reading names; a reading without an offset is taken to be of a UTC clock.
    None if the moment lies outside the calendar, although the reading does not. -/
def utc? (t : DateTime) : Option Moment :=
  match t.offset with
  | none => some t.wall
  | some offset => Moment.ofMicros? (t.wall.micros - offset)

end DateTime

/-! ## Text -/

namespace Moment

def dateText (d : CivilDate) : List Char :=
  Text.padded 4 d.year ++ '-' :: Text.padded 2 d.month ++ '-' :: Text.padded 2 d.day

/-- The text `HH:MM:SS` of a time of day. -/
def clockText (t : CivilTime) : List Char :=
  Text.padded 2 t.hour ++ ':' :: Text.padded 2 t.minute ++ ':' :: Text.padded 2 t.second

/-- The text of a moment in a query: date and UTC time with exactly three places of the second,
    further places cut off. -/
def queryText (m : Moment) : List Char :=
  let t := m.civil
  dateText t.date ++ 'T' :: clockText t ++ '.' :: Text.padded 3 (t.micro / 1000) ++ ['Z']

/-- The places of the second in a dump: none at a full second, else six. -/
def fractionText (micro : Nat) : List Char :=
  if micro = 0 then [] else '.' :: Text.padded 6 micro

/-- The text of a moment in a dump: date and UTC time with all places of the second. -/
def dumpText (m : Moment) : List Char :=
  let t := m.civil
  dateText t.date ++ 'T' :: clockText t ++ fractionText t.micro ++ ['Z']

end Moment

end QueryTree
