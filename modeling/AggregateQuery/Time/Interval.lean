import AggregateQuery.Time.Grain
/-!
Intervals of time, written `start/end`, and what can be wrong with the texts of times.
-/
namespace AggregateQuery

open Text

inductive TimeError where
  | unknownGranularity (text : String)
  | invalidZone (text : String)
  | invalidInstant (text : String)
  | malformedInterval (text : String)
  | emptyInterval (start finish : String)
  deriving DecidableEq

def TimeError.message : TimeError → String
  | .unknownGranularity text => s!"Unknown granularity '{text}'. " ++
    "Expected one of: all, hour, day, week, month, quarter, year"
  | .invalidZone text => s!"Invalid time zone '{text}'. Expected UTC or an offset like +05:30"
  | .invalidInstant text =>
    s!"Invalid instant '{text}'. Expected YYYY-MM-DD or YYYY-MM-DDTHH:MM:SS"
  | .malformedInterval text => s!"Interval '{text}' must be written as <start>/<end>"
  | .emptyInterval start finish => s!"Interval end {finish} must be after start {start}"

def readTime (parse? : List Char → Option α) (error : String → TimeError) (text : List Char) :
    Except TimeError α :=
  match parse? text with
  | some value => .ok value
  | none => .error (error (String.ofList text))

def Zone.parse (text : String) : Except TimeError Zone :=
  readTime Zone.parse? .invalidZone text.toList

def Granularity.parse (text : String) : Except TimeError Granularity :=
  readTime Granularity.parse? .unknownGranularity text.toList

def Instant.parse (zone : Zone) (text : List Char) : Except TimeError Instant :=
  readTime (Instant.parse? zone) .invalidInstant text

structure Interval where
  start : Instant
  finish : Instant
  ordered : start.before finish = true
  deriving DecidableEq

namespace Interval

def ofBounds (start finish : Instant) : Except TimeError Interval :=
  if ordered : start.before finish = true then .ok ⟨start, finish, ordered⟩
  else .error (.emptyInterval (String.ofList start.chars) (String.ofList finish.chars))

def parse (zone : Zone) (text : List Char) : Except TimeError Interval :=
  match cut? '/' (trim text) with
  | none => .error (.malformedInterval (String.ofList text))
  | some (first, last) => do
    let start ← Instant.parse zone first
    let finish ← Instant.parse zone last
    ofBounds start finish

def chars (i : Interval) : List Char := i.start.chars ++ '/' :: i.finish.chars

instance : ToString Interval := ⟨fun i => String.ofList i.chars⟩

end Interval

end AggregateQuery
