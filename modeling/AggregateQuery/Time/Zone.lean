import AggregateQuery.Number.Integer
import AggregateQuery.Text.Basic
/-!
Time zones with a fixed offset from UTC, to the minute.
-/
namespace AggregateQuery

open Text

/-- An offset in minutes, east of Greenwich positive, short of a day either way. -/
structure Zone where
  minutes : Int
  above : -1440 < minutes
  below : minutes < 1440
  deriving DecidableEq

namespace Zone

def utc : Zone := ⟨0, by decide, by decide⟩

def seconds (z : Zone) : Int := 60 * z.minutes

def ofClock? (negative : Bool) (hours minutes : Int) : Option Zone :=
  if h : 0 ≤ hours ∧ hours ≤ 23 ∧ 0 ≤ minutes ∧ minutes ≤ 59 then
    if negative then some ⟨-(60 * hours + minutes), by omega, by omega⟩
    else some ⟨60 * hours + minutes, by omega, by omega⟩
  else none

/-- The hours and the minutes of an offset without its sign: about the first colon, else two and
two of four characters, else hours alone. -/
def clockParts (text : List Char) : List Char × List Char :=
  match cut? ':' text with
  | some parts => parts
  | none => if text.length = 4 then (text.take 2, text.drop 2) else (text, ['0'])

/-- Reads hours and minutes. Each is an integer and may have a sign of its own. -/
def readClock? (negative : Bool) (text : List Char) : Option Zone := do
  let (hours, minutes) := clockParts text
  ofClock? negative (← readInt? hours) (← readInt? minutes)

def isUtcName (text : List Char) : Bool :=
  sameKeyword text "UTC".toList || sameKeyword text "GMT".toList || sameKeyword text "Z".toList

def parse? (text : List Char) : Option Zone :=
  let trimmed := trim text
  if isUtcName trimmed then some utc
  else match trimmed with
    | '+' :: rest => readClock? false rest
    | '-' :: rest => readClock? true rest
    | _ => none

def chars (z : Zone) : List Char :=
  if z.minutes = 0 then "UTC".toList
  else
    let offset := z.minutes.natAbs
    (if z.minutes < 0 then '-' else '+') ::
      (paddedChars 2 (offset / 60) ++ ':' :: paddedChars 2 (offset % 60))

instance : ToString Zone := ⟨fun z => String.ofList z.chars⟩

end Zone

end AggregateQuery
