import ObjectStore.Decimal.Reading
import ObjectStore.Error.Basic

/-!
# Timestamps

A timestamp is a wall clock reading and the clock's distance from universal time. Its wire form is
`2024-01-02T03:04:05.678Z`: universal time, cut to the millisecond. What is read may have any offset
below a day, any number of digits of a second, any one-byte mark between date and time, and a leap
second at the end of a month, which counts as the last nanosecond before it.

Wall clocks run from the year -9999 to the year 9999; a timestamp outside has no form at all.
-/

namespace ObjectStore

/-!
## The calendar

Days are counted from 1 January 1970 in the Gregorian calendar, extended to all years. A year is
taken to begin in March, so that the leap day comes last; four hundred years then have always the
same length.
-/

/-- A day of the calendar. -/
structure CivilDate where
  year : Int
  month : Nat
  day : Nat
  deriving Repr, DecidableEq

namespace CivilDate

/-- Whether a year has a leap day. -/
def isLeap (year : Int) : Bool := year % 4 = 0 && (year % 100 ≠ 0 || year % 400 = 0)

/-- How many days a month has. -/
def monthLength (year : Int) (month : Nat) : Nat :=
  match month with
  | 2 => if isLeap year then 29 else 28
  | 4 | 6 | 9 | 11 => 30
  | _ => 31

/-- Whether the numbers name a day. -/
def isValid (date : CivilDate) : Bool :=
  1 ≤ date.month && date.month ≤ 12 && 1 ≤ date.day
    && date.day ≤ monthLength date.year date.month

/-- Whether the day is the last of its month. -/
def isMonthEnd (date : CivilDate) : Bool := date.day = monthLength date.year date.month

/-- Days in four hundred years. -/
def cycleDays : Int := 146097

/-- Days from 1 March of the year 0 to 1 January 1970. -/
def epochShift : Int := 719468

/-- The number of a day, counted from 1 January 1970. -/
def dayNumber (date : CivilDate) : Int :=
  let year := if date.month ≤ 2 then date.year - 1 else date.year
  let cycle := year / 400
  let yearOfCycle := year % 400
  let monthFromMarch : Int := if date.month ≤ 2 then date.month + 9 else date.month - 3
  let dayOfYear := (153 * monthFromMarch + 2) / 5 + date.day - 1
  let dayOfCycle := yearOfCycle * 365 + yearOfCycle / 4 - yearOfCycle / 100 + dayOfYear
  cycle * cycleDays + dayOfCycle - epochShift

/-- The day of a number. -/
def ofDayNumber (n : Int) : CivilDate :=
  let shifted := n + epochShift
  let cycle := shifted / cycleDays
  let dayOfCycle := shifted % cycleDays
  let yearOfCycle :=
    (dayOfCycle - dayOfCycle / 1460 + dayOfCycle / 36524 - dayOfCycle / 146096) / 365
  let dayOfYear := dayOfCycle - (365 * yearOfCycle + yearOfCycle / 4 - yearOfCycle / 100)
  let monthFromMarch := (5 * dayOfYear + 2) / 153
  let day := dayOfYear - (153 * monthFromMarch + 2) / 5 + 1
  let month := if monthFromMarch < 10 then monthFromMarch + 3 else monthFromMarch - 9
  let year := yearOfCycle + cycle * 400
  ⟨if month ≤ 2 then year + 1 else year, month.toNat, day.toNat⟩

end CivilDate

/-! ## Wall clocks -/

/-- Nanoseconds in a second. -/
def nanosPerSecond : Int := 1000000000

/-- Seconds in a day. -/
def secondsPerDay : Int := 86400

/-- A moment, as read off a clock that is `offset` seconds ahead of universal time. The reading is
counted in nanoseconds from the start of 1970. -/
structure Timestamp where
  wall : Int
  offset : Int
  deriving Repr, DecidableEq

namespace Timestamp

/-- The moment itself, in nanoseconds of universal time. -/
def utc (t : Timestamp) : Int := t.wall - t.offset * nanosPerSecond

/-- The earliest wall clock reading. -/
def firstWall : Int := CivilDate.dayNumber ⟨-9999, 1, 1⟩ * secondsPerDay * nanosPerSecond

/-- The first wall clock reading that is too late. -/
def endWall : Int := CivilDate.dayNumber ⟨10000, 1, 1⟩ * secondsPerDay * nanosPerSecond

/-- Whether a wall clock reading lies in the calendar. -/
def inCalendar (wall : Int) : Bool := firstWall ≤ wall && wall < endWall

/-- Moves a timestamp by a number of seconds, within the calendar. -/
def addSeconds (t : Timestamp) (seconds : Int) : Result Timestamp :=
  let wall := t.wall + seconds * nanosPerSecond
  if inCalendar wall then .ok { t with wall := wall } else .error .calendarLeft

/-! ## Wire form -/

/-- The last `width` decimal digits of a number. -/
def paddedDigits : Nat → Nat → List Char
  | 0, _ => []
  | width + 1, n => paddedDigits width (n / 10) ++ [Nat.digitChar (n % 10)]

/-- A year with four digits, and with a sign if it is negative. -/
def yearText (year : Int) : List Char :=
  if year < 0 then '-' :: paddedDigits 4 year.natAbs else paddedDigits 4 year.natAbs

/-- The wire form of a moment of universal time. -/
def isoText (utc : Int) : String :=
  let seconds := utc / nanosPerSecond
  let millis := (utc % nanosPerSecond / 1000000).toNat
  let date := CivilDate.ofDayNumber (seconds / secondsPerDay)
  let ofDay := (seconds % secondsPerDay).toNat
  String.ofList (yearText date.year ++ '-' :: paddedDigits 2 date.month
    ++ '-' :: paddedDigits 2 date.day
    ++ 'T' :: paddedDigits 2 (ofDay / 3600) ++ ':' :: paddedDigits 2 (ofDay / 60 % 60)
    ++ ':' :: paddedDigits 2 (ofDay % 60) ++ '.' :: paddedDigits 3 millis ++ ['Z'])

/-- The wire form of a timestamp. -/
def toIso (t : Timestamp) : Result String :=
  if inCalendar t.utc then .ok (isoText t.utc) else .error .calendarLeft

/-! ## Reading -/

/-- Reads a number of exactly `width` digits. -/
def readDigits? (width : Nat) (s : List Char) : Option (Nat × List Char) :=
  let digits := s.take width
  if digits.length = width && digits.all Char.isDigit then
    some (Decimal.ofDigits digits, s.drop width)
  else none

/-- Reads one given character. -/
def readChar? (c : Char) : List Char → Option (List Char)
  | d :: rest => if d = c then some rest else none
  | [] => none

/-- Reads any one character of a single byte. -/
def readMark? : List Char → Option (List Char)
  | c :: rest => if c.toNat < 128 then some rest else none
  | [] => none

/-- Nanoseconds of a fraction of a second, from its digits; digits after the ninth do not count. -/
def fractionNanos (digits : List Char) : Int :=
  let counted := digits.take 9
  (Decimal.ofDigits counted * Nat.pow 10 (9 - counted.length) : Nat)

/-- Reads an optional fraction of a second: a point and at least one digit. -/
def readFraction? : List Char → Option (Int × List Char)
  | '.' :: rest =>
    let (digits, rest) := Decimal.takeDigits rest
    if digits.isEmpty then none else some (fractionNanos digits, rest)
  | s => some (0, s)

/-- Reads an offset to the end of the text: `Z`, or a sign with hours and minutes. -/
def readOffset? : List Char → Option Int
  | [c] => if c = 'Z' ∨ c = 'z' then some 0 else none
  | c :: rest => do
    let sign ← if c = '+' then some 1 else if c = '-' then some (-1) else none
    let (hours, rest) ← readDigits? 2 rest
    let rest ← readChar? ':' rest
    let (minutes, rest) ← readDigits? 2 rest
    if hours ≤ 23 ∧ minutes ≤ 59 ∧ rest.isEmpty then
      some (sign * ((hours : Int) * 3600 + minutes * 60))
    else none
  | [] => none

/-- Whether a moment falls into the last second of a month of universal time. -/
def isMonthEnd (t : Timestamp) : Bool :=
  let seconds := t.utc / nanosPerSecond
  seconds % secondsPerDay = secondsPerDay - 1
    && (CivilDate.ofDayNumber (seconds / secondsPerDay)).isMonthEnd && inCalendar t.utc

/-- The timestamp of a date, a time of day and an offset; second 60 is a leap second. -/
def ofParts? (date : CivilDate) (hour minute second : Nat) (nanos offset : Int) :
    Option Timestamp :=
  let leap := second = 60
  let second := if leap then 59 else second
  let nanos := if leap then nanosPerSecond - 1 else nanos
  if date.isValid ∧ hour ≤ 23 ∧ minute ≤ 59 ∧ second ≤ 59 then
    let seconds := date.dayNumber * secondsPerDay + hour * 3600 + minute * 60 + second
    let t : Timestamp := ⟨seconds * nanosPerSecond + nanos, offset⟩
    if leap ∧ !t.isMonthEnd then none else some t
  else none

/-- The timestamp that a text names. -/
def ofIso? (text : String) : Option Timestamp := do
  let (year, s) ← readDigits? 4 text.toList
  let s ← readChar? '-' s
  let (month, s) ← readDigits? 2 s
  let s ← readChar? '-' s
  let (day, s) ← readDigits? 2 s
  let s ← readMark? s
  let (hour, s) ← readDigits? 2 s
  let s ← readChar? ':' s
  let (minute, s) ← readDigits? 2 s
  let s ← readChar? ':' s
  let (second, s) ← readDigits? 2 s
  let (nanos, s) ← readFraction? s
  let offset ← readOffset? s
  ofParts? ⟨year, month, day⟩ hour minute second nanos offset

/-- Reads a timestamp, or tells which text is none. -/
def parse (text : String) : Result Timestamp :=
  match ofIso? text with
  | some t => .ok t
  | none => .error (.invalidJson (.date text))

/-- The wire form of the moment that a text names. -/
def canonical (text : String) : Result String := do (← parse text).toIso

end Timestamp

end ObjectStore
