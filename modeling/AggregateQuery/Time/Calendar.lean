/-!
The Gregorian calendar, extended over all years. Days are counted from 1 January 1970.
-/
namespace AggregateQuery

structure Date where
  year : Int
  month : Nat
  day : Nat
  deriving DecidableEq

namespace Date

def isLeapYear (year : Int) : Bool := year % 4 == 0 && (year % 100 != 0 || year % 400 == 0)

def monthLengths (leap : Bool) : List Nat :=
  [31, if leap then 29 else 28, 31, 30, 31, 30, 31, 31, 30, 31, 30, 31]

def monthLength (leap : Bool) (month : Nat) : Nat :=
  if month = 0 then 0 else (monthLengths leap).getD (month - 1) 0

def isValid (d : Date) : Bool :=
  1 ≤ d.month && d.month ≤ 12 && 1 ≤ d.day && d.day ≤ monthLength (isLeapYear d.year) d.month

def yearStart (year : Int) : Int :=
  let past := year - 1
  365 * past + past / 4 - past / 100 + past / 400 - 719162

def daysBefore (leap : Bool) (month : Nat) : Nat :=
  ((monthLengths leap).take (month - 1)).foldl (· + ·) 0

def dayOfYear (d : Date) : Nat := daysBefore (isLeapYear d.year) d.month + (d.day - 1)

def toDays (d : Date) : Int := yearStart d.year + d.dayOfYear

/-- The year that a day lies in. The estimate by the mean length of a year is at most one off. -/
def yearOfDay (day : Int) : Int :=
  let estimate := (day + 719162) * 400 / 146097 + 1
  if day < yearStart estimate then estimate - 1
  else if yearStart (estimate + 1) ≤ day then estimate + 1
  else estimate

/-- The month that begins at `month` or later and the day in it, by counting off the lengths. -/
def monthAndDay (month : Nat) : List Nat → Nat → Nat × Nat
  | [], rest => (month, rest + 1)
  | length :: lengths, rest =>
    if rest < length then (month, rest + 1) else monthAndDay (month + 1) lengths (rest - length)

def ofDays (day : Int) : Date :=
  let year := yearOfDay day
  let (month, dayOfMonth) :=
    monthAndDay 1 (monthLengths (isLeapYear year)) (day - yearStart year).toNat
  ⟨year, month, dayOfMonth⟩

/-- The day of the week, Monday being zero. 1 January 1970 was a Thursday. -/
def weekday (day : Int) : Nat := ((day + 3) % 7).toNat

end Date

end AggregateQuery
