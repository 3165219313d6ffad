import AggregateQuery.Time.Instant
/-!
The sizes of time buckets, and the granularity of a query: one bucket for all time, or buckets of
one size.
-/
namespace AggregateQuery

open Text

inductive Grain where
  | hour
  | day
  | week
  | month
  | quarter
  | year
  deriving DecidableEq

namespace Grain

def all : List Grain := [hour, day, week, month, quarter, year]

def name : Grain → String
  | hour => "hour"
  | day => "day"
  | week => "week"
  | month => "month"
  | quarter => "quarter"
  | year => "year"

def ofName? (text : List Char) : Option Grain :=
  all.find? fun g => sameKeyword g.name.toList (trim text)

def beginsAt (g : Grain) (t : LocalTime) : Bool :=
  match g with
  | hour => t.isFullHour
  | day => t.isMidnight
  | week => t.isMidnight && Date.weekday t.date.toDays == 0
  | month => t.isMidnight && t.date.day == 1
  | quarter => t.isMidnight && t.date.day == 1 && (t.date.month - 1) % 3 == 0
  | year => t.isMidnight && t.date.dayOfYear == 0

def isAligned (g : Grain) (instant : Instant) (zone : Zone) : Bool :=
  g.beginsAt (instant.localTime zone)

end Grain

/-- The buckets of a query. The zone, where there is one, is the one whose clocks they follow. -/
inductive Granularity where
  | all
  | every (grain : Grain) (zone : Option Zone)
  deriving DecidableEq

namespace Granularity

def parse? (text : List Char) : Option Granularity :=
  if sameKeyword (trim text) "all".toList then some all
  else (Grain.ofName? text).map (every · none)

def inZone (zone : Zone) : Granularity → Granularity
  | all => all
  | every grain _ => every grain (some zone)

def withoutZone : Granularity → Granularity
  | all => all
  | every grain _ => every grain none

def grain? : Granularity → Option Grain
  | all => none
  | every grain _ => some grain

def zone? : Granularity → Option Zone
  | all => none
  | every _ zone => zone

def chars : Granularity → List Char
  | all => "all".toList
  | every grain none => grain.name.toList
  | every grain (some zone) => grain.name.toList ++ '(' :: zone.chars ++ [')']

instance : ToString Granularity := ⟨fun g => String.ofList g.chars⟩

end Granularity

end AggregateQuery
