import AggregateQuery.Condition.Query
import AggregateQuery.Number.Integer
import AggregateQuery.Request.Response
import AggregateQuery.Time.Interval
/-!
Single parameters of a request, what can be wrong with their values, and why a request cannot be
read from its parameters.
-/
namespace AggregateQuery

open Text

inductive Parameter where
  | granularity
  | timeZone
  | dimensions
  | dateTime
  | sort
  | count
  | topN
  | perPage
  | page
  | format
  | asyncAfter
  deriving DecidableEq

def Parameter.name : Parameter → String
  | granularity => "granularity"
  | timeZone => "timeZone"
  | dimensions => "dimensions"
  | dateTime => "dateTime"
  | sort => "sort"
  | count => "count"
  | topN => "topN"
  | perPage => "perPage"
  | page => "page"
  | format => "format"
  | asyncAfter => "asyncAfter"

inductive ParameterError where
  | notPositive
  | unknownFormat
  | invalidAsyncAfter
  | unknownSortDirection (text : String)
  | malformedSort (text : String)
  | malformedDimension (entry : String)
  | incompletePagination
  | time (cause : TimeError)
  deriving DecidableEq

def ParameterError.message : ParameterError → String
  | notPositive => "expected a positive integer"
  | unknownFormat => "expected one of: json, jsonapi, csv, debug"
  | invalidAsyncAfter => "expected 'never', 'always' or a number of milliseconds"
  | unknownSortDirection text => s!"unknown sort direction '{text}', expected 'asc' or 'desc'"
  | malformedSort text => s!"malformed sort column '{text}'"
  | malformedDimension entry =>
    s!"malformed dimension entry '{entry}', expected <name> or <name>(<field>|<field>...)"
  | incompletePagination => "perPage and page must be given together"
  | time cause => cause.message

def valueOr (error : ParameterError) : Option α → Except ParameterError α
  | some value => .ok value
  | none => .error error

def Positive.parse (text : String) : Except ParameterError Positive :=
  valueOr .notPositive (Positive.parse? text)

def ResponseFormat.parse (text : String) : Except ParameterError ResponseFormat :=
  valueOr .unknownFormat (ResponseFormat.parse? text)

def AsyncAfter.parse (text : String) : Except ParameterError AsyncAfter :=
  valueOr .invalidAsyncAfter (AsyncAfter.parse? text)

def Page.parse (perPage page : String) : Except ParameterError Page := do
  return ⟨← Positive.parse perPage, ← Positive.parse page⟩

inductive RequestError where
  | unknownTable (name : String) (suggestion : Option String)
  | unknownDimension (name table : String) (suggestion : Option String)
  | unknownDimensionField (dimension field : String)
  | unknownMetric (name table : String) (suggestion : Option String)
  | filter (failure : ClauseFailure FilterError)
  | having (failure : ClauseFailure HavingError)
  | parameter (which : Parameter) (value : String) (cause : ParameterError)
  deriving DecidableEq

namespace RequestError

/-- Clauses are numbered from one in messages. -/
def message : RequestError → String
  | unknownTable name suggestion => s!"Unknown table '{name}'" ++ hint suggestion
  | unknownDimension name table suggestion =>
    s!"Unknown dimension '{name}' for table '{table}'" ++ hint suggestion
  | unknownDimensionField dimension field =>
    s!"Unknown field '{field}' for dimension '{dimension}'"
  | unknownMetric name table suggestion =>
    s!"Unknown metric '{name}' for table '{table}'" ++ hint suggestion
  | filter failure =>
    s!"Filter clause {failure.index + 1} '{failure.clause}': {failure.cause.message}"
  | having failure =>
    s!"Having clause {failure.index + 1} '{failure.clause}': {failure.cause.message}"
  | parameter which value cause => s!"Invalid {which.name} '{value}': {cause.message}"

end RequestError

end AggregateQuery
