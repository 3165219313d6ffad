import AggregateQuery.Request.DimensionRequest
import AggregateQuery.Request.Validation
import AggregateQuery.Settings.Basic
/-!
Reading requests from the texts of their parameters. Names are resolved by a resolver; what is
left out comes from the settings. The first thing wrong is the error.
-/
namespace AggregateQuery

open Text

structure RequestParameters where
  table : String := ""
  granularity : Option String := none
  dimensions : Option String := none
  metrics : Option String := none
  intervals : Option String := none
  filters : Option String := none
  having : Option String := none
  sorts : Option String := none
  count : Option String := none
  topN : Option String := none
  perPage : Option String := none
  page : Option String := none
  format : Option String := none
  timeZone : Option String := none
  asyncAfter : Option String := none
  deriving DecidableEq

def readParameter (p : Parameter) (parse : String → Except ParameterError α) (value : String) :
    Except RequestError α :=
  (parse value).mapError (.parameter p value)

def readOptional (p : Parameter) (parse : String → Except ParameterError α) :
    Option String → Except RequestError (Option α)
  | none => .ok none
  | some value => (readParameter p parse value).map some

def readOr (default : α) (p : Parameter) (parse : String → Except ParameterError α)
    (value : Option String) : Except RequestError α :=
  (readOptional p parse value).map (·.getD default)

namespace RequestParameters

def readTable (r : Resolver) (name : String) : Except RequestError Table :=
  match r.table? name with
  | some table => .ok table
  | none => .error (.unknownTable name (closest? name r.knownTables))

def readGranularity (value : Option String) : Except RequestError Granularity :=
  readOr .all .granularity (fun s => (Granularity.parse s).mapError .time) value

def readTimeZone (settings : Settings) (value : Option String) : Except RequestError Zone :=
  readOr settings.defaults.timeZone .timeZone (fun s => (Zone.parse s).mapError .time) value

/-- The name in an entry `name` or `name(field|...)`, and the text between the parentheses. -/
def cutDimensionEntry? (entry : List Char) : Option (List Char × Option (List Char)) :=
  let isNameChar (c : Char) := c != '(' && c != ')' && c != '|' && !isBlank c
  let name := entry.takeWhile isNameChar
  if name.isEmpty then none
  else match entry.dropWhile isNameChar with
    | [] => some (name, none)
    | '(' :: rest =>
      match cut? ')' rest with
      | some (fields, []) => if '(' ∈ fields then none else some (name, some fields)
      | _ => none
    | _ => none

def resolveDimension (r : Resolver) (table : Table) (name : String) :
    Except RequestError Dimension :=
  match r.dimension? name table with
  | some dimension => .ok dimension
  | none => .error (.unknownDimension name table.name (closest? name table.dimensions))

def resolveField (r : Resolver) (dimension : Dimension) (name : String) :
    Except RequestError DimensionField :=
  match r.field? dimension (some name) with
  | some field => .ok field
  | none => .error (.unknownDimensionField dimension.name name)

def fieldNames? (text : List Char) : Option (List String) :=
  let names := (splitOn '|' text).map trim
  if names.any List.isEmpty then none else some (names.map String.ofList)

def readDimensionEntry (r : Resolver) (table : Table) (raw : String) (entry : List Char) :
    Except RequestError (Dimension × List DimensionField) :=
  let malformed : RequestError :=
    .parameter .dimensions raw (.malformedDimension (String.ofList entry))
  match cutDimensionEntry? entry with
  | none => .error malformed
  | some (name, list) => do
    let dimension ← resolveDimension r table (String.ofList name)
    match list with
    | none => return (dimension, [])
    | some text =>
      match fieldNames? text with
      | none => .error malformed
      | some names => return (dimension, ← names.mapM (resolveField r dimension))

def readDimensions (r : Resolver) (table : Table) (raw : String) :
    Except RequestError (List Dimension × DimensionFields) := do
  let read ← (entries ',' raw.toList).mapM (readDimensionEntry r table raw)
  return (read.map Prod.fst,
    read.foldl (fun shown (dimension, fields) => shown.insertAll dimension fields) .empty)

def resolveMetric (r : Resolver) (table : Table) (name : List Char) :
    Except RequestError Metric :=
  let name := String.ofList name
  match r.metric? name table with
  | some metric => .ok metric
  | none => .error (.unknownMetric name table.name (closest? name table.metrics))

def readMetrics (r : Resolver) (table : Table) (raw : String) :
    Except RequestError (List Metric) :=
  (entries ',' raw.toList).mapM (resolveMetric r table)

def readIntervals (delimiter : Char) (zone : Zone) (raw : String) :
    Except ParameterError (List Interval) :=
  ((entries delimiter raw.toList).mapM (Interval.parse zone)).mapError .time

def readFilters (r : Resolver) (table : Table) (delimiter : Char) (raw : String) :
    Except RequestError Filters :=
  (Filters.parse r table delimiter raw).mapError .filter

def readHavings (r : Resolver) (table : Table) (delimiter : Char) (raw : String) :
    Except RequestError Havings :=
  (Havings.parse r table delimiter raw).mapError .having

/-- The page that is asked for. A size alone means the first page; a number alone takes the size
from the settings. -/
def readPage (p : RequestParameters) (settings : Settings) : Except RequestError (Option Page) := do
  let perPage ← readOptional .perPage Positive.parse p.perPage
  let page ← readOptional .page Positive.parse p.page
  match perPage.or settings.defaults.perPage, page with
  | some size, some number => return some ⟨size, number⟩
  | some size, none => return if perPage.isSome then some ⟨size, .one⟩ else none
  | none, some _ => .error (.parameter .page (p.page.getD "") .incompletePagination)
  | none, none => return none

def readFormat (p : RequestParameters) (settings : Settings) :
    Except RequestError ResponseFormat :=
  readOr settings.defaults.format .format ResponseFormat.parse p.format

def readAsyncAfter (p : RequestParameters) (settings : Settings) :
    Except RequestError AsyncAfter :=
  readOr settings.defaults.asyncAfter .asyncAfter AsyncAfter.parse p.asyncAfter

def readGiven (read : String → Except RequestError α) (absent : α) :
    Option String → Except RequestError α
  | none => .ok absent
  | some raw => read raw

def toDataRequest (p : RequestParameters) (r : Resolver) (settings : Settings) :
    Except RequestError DataRequest := do
  let table ← readTable r p.table
  let granularity ← readGranularity p.granularity
  let timeZone ← readTimeZone settings p.timeZone
  let (dimensions, dimensionFields) ←
    readGiven (readDimensions r table) ([], .empty) p.dimensions
  let metrics ← readGiven (readMetrics r table) [] p.metrics
  let intervals ← readOr [] .dateTime
    (readIntervals settings.delimiters.intervals timeZone) p.intervals
  let filters ← readGiven (readFilters r table settings.delimiters.filters) .empty p.filters
  let havings ← readGiven (readHavings r table settings.delimiters.havings) .empty p.having
  let sorts ← readOr [] .sort (SortTerm.parseAll settings.delimiters.sorts) p.sorts
  let count ← readOptional .count Positive.parse p.count
  let topN ← readOptional .topN Positive.parse p.topN
  let page ← p.readPage settings
  let format ← p.readFormat settings
  let asyncAfter ← p.readAsyncAfter settings
  let request : DataRequest := { table, granularity }
  return request.withTimeZone timeZone |>.withDimensions dimensions
    |>.withDimensionFields dimensionFields |>.withMetrics metrics |>.withIntervals intervals
    |>.withFilters filters |>.withHavings havings |>.withSorts sorts |>.withCount count
    |>.withTopN topN |>.withPage page |>.withFormat format |>.withAsyncAfter asyncAfter

def toDimensionRequest (p : RequestParameters) (r : Resolver) (settings : Settings)
    (name : String) : Except RequestError DimensionRequest := do
  let dimension ← match r.anyDimension? name with
    | some dimension => Except.ok dimension
    | none => .error (.unknownDimension name "dimensions" (closest? name r.knownDimensions))
  let request : DimensionRequest := { dimension }
  let filtered ← readGiven (request.mergeFilters r settings.delimiters.filters) request p.filters
  let page ← p.readPage settings
  let format ← p.readFormat settings
  let asyncAfter ← p.readAsyncAfter settings
  return filtered.withPage page |>.withFormat format |>.withAsyncAfter asyncAfter

end RequestParameters

end AggregateQuery
