import AggregateQuery.Data.Json
import AggregateQuery.Request.Parameter
import AggregateQuery.Text.Basic
/-!
Sorts, written `column|direction`. Without a direction the greatest come first.
-/
namespace AggregateQuery

open Text

inductive SortDirection where
  | ascending
  | descending
  deriving DecidableEq

namespace SortDirection

def name : SortDirection → String
  | ascending => "asc"
  | descending => "desc"

def parse (text : List Char) : Except ParameterError SortDirection :=
  let trimmed := trim text
  if sameKeyword trimmed "asc".toList then .ok ascending
  else if sameKeyword trimmed "desc".toList then .ok descending
  else .error (.unknownSortDirection (String.ofList text))

end SortDirection

inductive SortColumn where
  | dateTime
  | metric (name : String)
  | dimensionField (dimension field : String)
  deriving DecidableEq

namespace SortColumn

def dateTimeName : String := "dateTime"

def parse (text : List Char) : Except ParameterError SortColumn :=
  let trimmed := trim text
  if trimmed.isEmpty then .error (.malformedSort "")
  else if trimmed = dateTimeName.toList then .ok dateTime
  else match cut? '.' trimmed with
    | none => .ok (metric (String.ofList trimmed))
    | some (dimension, field) =>
      if dimension.isEmpty || field.isEmpty then .error (.malformedSort (String.ofList trimmed))
      else .ok (dimensionField (String.ofList dimension) (String.ofList field))

def chars : SortColumn → List Char
  | dateTime => dateTimeName.toList
  | metric name => name.toList
  | dimensionField dimension field => dimension.toList ++ '.' :: field.toList

instance : ToString SortColumn := ⟨fun c => String.ofList c.chars⟩

def isDateTime (c : SortColumn) : Bool := c == dateTime

end SortColumn

structure SortTerm where
  column : SortColumn
  direction : SortDirection
  deriving DecidableEq

namespace SortTerm

/-- Reads a sort. The direction is everything after the first bar, and it is read first. -/
def parse (text : List Char) : Except ParameterError SortTerm :=
  match cut? '|' text with
  | none => (SortColumn.parse text).map (⟨·, .descending⟩)
  | some (column, direction) => do
    let direction ← SortDirection.parse direction
    return ⟨← SortColumn.parse column, direction⟩

def parseAll (delimiter : Char) (query : String) : Except ParameterError (List SortTerm) :=
  (entries delimiter query.toList).mapM parse

def chars (s : SortTerm) : List Char := s.column.chars ++ '|' :: s.direction.name.toList

instance : ToString SortTerm := ⟨fun s => String.ofList s.chars⟩

def json (s : SortTerm) : Json :=
  .object [("column", .string (toString s.column)), ("direction", .string s.direction.name)]

end SortTerm

end AggregateQuery
