import AggregateQuery.Time.Calendar
import AggregateQuery.Time.Zone
/-!
Instants to the nanosecond, and their texts to the second: `YYYY-MM-DD`, or the same with `THH:MM`
or `THH:MM:SS`. A second written as 60 is a leap second; it follows second 59 of its minute and
precedes the next.
-/
namespace AggregateQuery

open Text

/-- Nanoseconds past a second. From a thousand million on they lie in the leap second after it. -/
abbrev Nanoseconds := Fin 2000000000

/-- Seconds since 1 January 1970 in UTC, leap seconds not counted, and what is past the second. -/
structure Instant where
  seconds : Int
  nanoseconds : Nanoseconds
  deriving DecidableEq

namespace Instant

def before (a b : Instant) : Bool :=
  decide (a.seconds < b.seconds) ||
    (decide (a.seconds = b.seconds) && decide (a.nanoseconds < b.nanoseconds))

def leastYear : Int := -262143

def greatestYear : Int := 262142

def isYear (year : Int) : Bool := leastYear ≤ year && year ≤ greatestYear

end Instant

structure LocalTime where
  date : Date
  hour : Nat
  minute : Nat
  second : Nat
  nanoseconds : Nanoseconds
  deriving DecidableEq

namespace LocalTime

def seconds (t : LocalTime) : Int :=
  86400 * t.date.toDays + (3600 * t.hour + 60 * t.minute + t.second : Nat)

def ofSeconds (seconds : Int) (nanoseconds : Nanoseconds) : LocalTime :=
  let ofDay := (seconds % 86400).toNat
  ⟨Date.ofDays (seconds / 86400), ofDay / 3600, ofDay / 60 % 60, ofDay % 60, nanoseconds⟩

def isFullHour (t : LocalTime) : Bool := t.minute == 0 && t.second == 0 && t.nanoseconds == 0

def isMidnight (t : LocalTime) : Bool := t.isFullHour && t.hour == 0

/-- The instant at which a clock in the zone shows this time, if its UTC date is in range. -/
def toInstant? (t : LocalTime) (zone : Zone) : Option Instant :=
  let seconds := t.seconds - zone.seconds
  if Instant.isYear (Date.yearOfDay (seconds / 86400)) then some ⟨seconds, t.nanoseconds⟩ else none

def readNumber? (width : Nat) (s : List Char) : Option (Nat × List Char) :=
  let digits := (s.take width).takeWhile Char.isDigit
  (readDigits? digits).map fun value => (value, s.drop digits.length)

def readField? (width : Nat) (s : List Char) : Option (Nat × List Char) :=
  readNumber? width (trimStart s)

/-- Reads blanks and then a year: at most four digits, or a sign and any number of them. -/
def readYear? (s : List Char) : Option (Int × List Char) :=
  match trimStart s with
  | '-' :: rest => (readNumber? rest.length rest).map fun (year, after) => (-(year : Int), after)
  | '+' :: rest => (readNumber? rest.length rest).map fun (year, after) => ((year : Int), after)
  | rest => (readNumber? 4 rest).map fun (year, after) => ((year : Int), after)

def readMark? (mark : Char) : List Char → Option (List Char)
  | [] => none
  | c :: rest => if c = mark then some rest else none

def readDate? (s : List Char) : Option (Date × List Char) := do
  let (year, s) ← readYear? s
  let (month, s) ← readField? 2 (← readMark? '-' s)
  let (day, s) ← readField? 2 (← readMark? '-' s)
  let date : Date := ⟨year, month, day⟩
  if Instant.isYear year && date.isValid then some (date, s) else none

/-- The time of a date and clock fields that are in range. Second 60 is a leap second. -/
def ofFields? (date : Date) (hour minute second : Nat) : Option LocalTime :=
  if hour < 24 && minute < 60 && second ≤ 60 then
    some ⟨date, hour, minute, Nat.min second 59, if second = 60 then 1000000000 else 0⟩
  else none

def readClock? (date : Date) (s : List Char) : Option LocalTime := do
  let (hour, s) ← readField? 2 (← readMark? 'T' s)
  let (minute, s) ← readField? 2 (← readMark? ':' s)
  if s.isEmpty then ofFields? date hour minute 0
  else
    let (second, s) ← readField? 2 (← readMark? ':' s)
    if s.isEmpty then ofFields? date hour minute second else none

def parse? (s : List Char) : Option LocalTime := do
  let (date, s) ← readDate? (trim s)
  if s.isEmpty then ofFields? date 0 0 0 else readClock? date s

/-- Four digits for the years 0 to 9999, otherwise a sign and at least four digits. -/
def yearChars (year : Int) : List Char :=
  if 0 ≤ year ∧ year ≤ 9999 then paddedChars 4 year.natAbs
  else (if year < 0 then '-' else '+') :: paddedChars 4 year.natAbs

/-- A leap second is written with the number after the one that it follows, and what is past a
second is not written. -/
def writtenSecond (t : LocalTime) : Nat := t.second + t.nanoseconds / 1000000000

def chars (t : LocalTime) : List Char :=
  yearChars t.date.year ++ '-' :: paddedChars 2 t.date.month ++ '-' :: paddedChars 2 t.date.day ++
    'T' :: paddedChars 2 t.hour ++ ':' :: paddedChars 2 t.minute ++
    ':' :: paddedChars 2 t.writtenSecond

end LocalTime

namespace Instant

def localTime (i : Instant) (zone : Zone) : LocalTime :=
  LocalTime.ofSeconds (i.seconds + zone.seconds) i.nanoseconds

def chars (i : Instant) : List Char := (i.localTime Zone.utc).chars ++ ['Z']

def parse? (zone : Zone) (s : List Char) : Option Instant := do
  (← LocalTime.parse? s).toInstant? zone

end Instant

end AggregateQuery
