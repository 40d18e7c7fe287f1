import QueryTree.Moment.Basic
import QueryTree.Text.Blank

/-!
# Reading moments

The ISO 8601 forms of a date, alone or with a time of day and a zone.

* `dateLength?`   : how many characters of a text make up its date
* `readDate?`     : calendar dates `YYYY-MM-DD`, `YYYYMMDD` and week dates `YYYY-Www-D`,
                    `YYYYWwwD`, `YYYY-Www`, `YYYYWww`
* `readClock?`    : times of day `HH:MM:SS.ffffff`, with parts or colons left out
* `readZone?`     : a zone `Z` or an offset
* `DateTime.read?`: a whole text as a reading of a wall clock
* `Moment.read`   : trimmed text as a moment

Between date and time stands one character, whichever it is.  A `NUL` character
ends the text wherever the end is looked for, so `Char.ofNat 0` stands for the end.
Before a zone one ASCII character may follow a complete time, and any characters
may follow six places of the second; they are passed over.
-/

namespace QueryTree

-- The powers of the core library, also where another library brings its own.
attribute [local instance (high)] instPowNat

/-- The character that stands for the end of the text. -/
def endMark : Char := Char.ofNat 0

def firstOrEnd (cs : List Char) : Char :=
  cs.headD endMark

/-- Reads exactly `n` ASCII digits off a text; `value` is what was read before them. -/
def takeNumber? (value : Nat) : Nat → List Char → Option (Nat × List Char)
  | 0, cs => some (value, cs)
  | _ + 1, [] => none
  | n + 1, c :: cs => do takeNumber? (10 * value + (← Text.asciiDigit? c)) n cs

def digitAt (cs : List Char) (i : Nat) : Bool :=
  (cs[i]?.bind Text.asciiDigit?).isSome

/-! ## Dates -/

/-- The number of characters of the date at the start of a text, judged by its fifth and sixth
    characters.  Two forms are ambiguous.  `YYYY-Www-` goes on with a day of the week unless
    two digits follow, which are an hour.  After `YYYYWww` a long run of digits is a day, a
    separating digit and a time if it is even in number, because the digits of a time come in
    pairs; if it is odd there is no day. -/
def dateLength? (cs : List Char) : Option Nat :=
  if cs.length = 7 then some 7
  else if cs[4]? = some '-' then
    if cs[5]? = some 'W' then
      if cs[8]? = some '-' then
        if cs.length = 9 then none
        else if digitAt cs 10 then some 8
        else some 10
      else some 8
    else some 10
  else if cs[4]? = some 'W' then
    let stop := 7 + ((cs.drop 7).takeWhile fun c => (Text.asciiDigit? c).isSome).length
    if stop < 9 then some stop
    else if stop % 2 = 0 then some 7
    else some 8
  else some 8

/-- Drops a hyphen if the date is written with hyphens, and fails if it is missing then. -/
def takeHyphen? (hyphens : Bool) (cs : List Char) : Option (List Char) :=
  if hyphens then
    match cs with
    | '-' :: rest => some rest
    | _ => none
  else some cs

/-- The date at the start of a text of which it takes `length` characters. -/
def readDate? (length : Nat) (cs : List Char) : Option CivilDate := do
  let (year, cs) ← takeNumber? 0 4 cs
  let hyphens := firstOrEnd cs == '-'
  let cs ← takeHyphen? hyphens cs
  match cs with
  | 'W' :: cs =>
    let (week, cs) ← takeNumber? 0 2 cs
    if (if hyphens then 8 else 7) < length then
      let cs ← takeHyphen? hyphens cs
      let (day, _) ← takeNumber? 0 1 cs
      (weekDay? year week day).map CivilDate.ofDay
    else (weekDay? year week 1).map CivilDate.ofDay
  | cs =>
    let (month, cs) ← takeNumber? 0 2 cs
    let cs ← takeHyphen? hyphens cs
    let (day, _) ← takeNumber? 0 2 cs
    some ⟨year, month, day⟩

/-! ## Times of day -/

/-- The parts of a time of day or of an offset, as they are written. -/
structure ClockReading where
  hour : Nat
  minute : Nat
  second : Nat
  micro : Nat
  -- whether something other than the end stands behind the parts
  trailing : Bool
  deriving DecidableEq, Repr

/-- The places of a second: up to six digits count, further digits are cut off.  Within the first
    six characters nothing but digits may stand. -/
def readFraction? (next : Char) (cs : List Char) : Option (Nat × Bool) := do
  let places := min 6 cs.length
  let (value, rest) ← takeNumber? 0 places cs
  let rest := rest.dropWhile fun c => (Text.asciiDigit? c).isSome
  some (value * 10 ^ (6 - places), rest.headD next != endMark)

/-- Reads hours, minutes and seconds of two digits each and then places of the second.  `parts`
    counts the two-digit parts that may still come, `done` holds those read; `colons` says
    whether the parts are separated, once that is known; `next` is the character behind the
    text. -/
def readParts? (next : Char) : Nat → Option Bool → List Nat → List Char → Option ClockReading
  | 0, _, read, cs => do
    let (micro, trailing) ← readFraction? next cs
    some ⟨read.getD 0 0, read.getD 1 0, read.getD 2 0, micro, trailing⟩
  | parts + 1, colons, read, cs => do
    let (value, rest) ← takeNumber? 0 2 cs
    let read := read ++ [value]
    let stop (c : Char) : ClockReading :=
      ⟨read.getD 0 0, read.getD 1 0, read.getD 2 0, 0, c != endMark⟩
    match rest with
    | [] => some (stop next)
    | [c] => if c.toNat < 128 then some (stop c) else none
    | c :: c' :: rest' =>
      let colons := colons.getD (c == ':')
      if colons && c == ':' then readParts? next parts (some colons) read (c' :: rest')
      else if c = '.' ∨ c = ',' then do
        let (micro, trailing) ← readFraction? next (c' :: rest')
        some ⟨read.getD 0 0, read.getD 1 0, read.getD 2 0, micro, trailing⟩
      else if colons then none
      else readParts? next parts (some colons) read (c :: c' :: rest')

/-- A time of day in a text that `next` follows. -/
def readClock? (next : Char) (cs : List Char) : Option ClockReading :=
  readParts? next 3 none [] cs

/-! ## Zones -/

def startsZone (c : Char) : Bool :=
  c == '+' || c == '-' || c == 'Z'

/-- The offset in microseconds that a zone states; offsets have the parts of a time of day, are
    less than 24 hours, and those below a second count as none. -/
def readZone? : List Char → Option Int
  | 'Z' :: rest => if firstOrEnd rest = endMark then some 0 else none
  | sign :: rest => do
    let r ← readClock? endMark rest
    if r.trailing then none
    else
      let seconds := (r.hour * 60 + r.minute) * 60 + r.second
      let micros := seconds * 1000000 + r.micro
      if seconds = 0 then some 0
      else if micros < microsPerDay then some (if sign = '-' then -(micros : Int) else micros)
      else none
  | [] => none

/-- A time of day with or without a zone. -/
def readTime? (cs : List Char) : Option (ClockReading × Option Int) := do
  let (clock, zone) := cs.span (!startsZone ·)
  let r ← readClock? (firstOrEnd zone) clock
  if zone.isEmpty then
    if r.trailing then none else some (r, none)
  else
    let offset ← readZone? zone
    some (r, some offset)

/-! ## Readings and moments -/

/-- A text as a reading of a wall clock: a date alone is its midnight, and whatever follows the
    date has to be one character and a time. -/
def DateTime.read? (cs : List Char) : Option DateTime := do
  if cs.length < 7 then none
  else
    let length ← dateLength? cs
    let date ← readDate? length cs
    let (time, offset) ←
      match cs.drop length with
      | [] => some (⟨0, 0, 0, 0, false⟩, none)
      | _ :: rest => readTime? rest
    let wall ← CivilTime.toMoment? ⟨date, time.hour, time.minute, time.second, time.micro⟩
    some ⟨wall, offset⟩

inductive MomentError where
  -- the text is in none of the forms, or there is no such date or time
  | unreadable
  -- the text names a moment outside the calendar of UTC
  | outsideCalendar
  deriving DecidableEq, Repr

def Moment.read (cs : List Char) : Except MomentError Moment :=
  match DateTime.read? (Text.trim cs) with
  | none => .error .unreadable
  | some t =>
    match t.utc? with
    | some m => .ok m
    | none => .error .outsideCalendar

end QueryTree
