import AggregateQuery.Condition.Query
import AggregateQuery.Request.Sort
/-!
Requests for aggregated data: metrics of a table, by buckets of time and by dimensions.
-/
namespace AggregateQuery

abbrev DimensionFields := Grouped Dimension DimensionField

structure DataRequest where
  table : Table
  granularity : Granularity
  dimensions : List Dimension := []
  dimensionFields : DimensionFields := .empty
  metrics : List Metric := []
  intervals : List Interval := []
  filters : Filters := .empty
  havings : Havings := .empty
  sorts : List SortTerm := []
  count : Option Positive := none
  topN : Option Positive := none
  timeZone : Zone := .utc
  page : Option Page := none
  format : ResponseFormat := .json
  asyncAfter : AsyncAfter := .never

namespace DataRequest

/-- The sort by time, which counts as one only in front. -/
def dateTimeSort? (r : DataRequest) : Option SortTerm :=
  r.sorts.head?.filter (·.column.isDateTime)

def standardSorts (r : DataRequest) : List SortTerm :=
  if r.dateTimeSort?.isSome then r.sorts.tail else r.sorts

def bucketZone (r : DataRequest) : Zone := r.granularity.zone?.getD r.timeZone

-- What a request holds as a set keeps the first of equal elements.

def withTable (r : DataRequest) (table : Table) : DataRequest := { r with table }

def withGranularity (r : DataRequest) (granularity : Granularity) : DataRequest :=
  { r with granularity }

def withDimensions (r : DataRequest) (dimensions : List Dimension) : DataRequest :=
  { r with dimensions := distinct dimensions }

def withDimensionFields (r : DataRequest) (dimensionFields : DimensionFields) : DataRequest :=
  { r with dimensionFields }

def withMetrics (r : DataRequest) (metrics : List Metric) : DataRequest :=
  { r with metrics := distinct metrics }

def withIntervals (r : DataRequest) (intervals : List Interval) : DataRequest :=
  { r with intervals := distinct intervals }

def withFilters (r : DataRequest) (filters : Filters) : DataRequest := { r with filters }

def mergeFilters (r : DataRequest) (resolver : Resolver) (delimiter : Char) (query : String) :
    Except RequestError DataRequest :=
  match r.filters.merge resolver r.table delimiter query with
  | .ok filters => .ok (r.withFilters filters)
  | .error failure => .error (.filter failure)

def withHavings (r : DataRequest) (havings : Havings) : DataRequest := { r with havings }

def withSorts (r : DataRequest) (sorts : List SortTerm) : DataRequest :=
  { r with sorts := distinct sorts }

def withCount (r : DataRequest) (count : Option Positive) : DataRequest := { r with count }

def withTopN (r : DataRequest) (topN : Option Positive) : DataRequest := { r with topN }

def withTimeZone (r : DataRequest) (timeZone : Zone) : DataRequest := { r with timeZone }

def withPage (r : DataRequest) (page : Option Page) : DataRequest := { r with page }

def withFormat (r : DataRequest) (format : ResponseFormat) : DataRequest := { r with format }

def withAsyncAfter (r : DataRequest) (asyncAfter : AsyncAfter) : DataRequest :=
  { r with asyncAfter }

/-- Requests are equal part by part; sets are compared without their order. -/
instance : BEq DataRequest where
  beq a b := a.table == b.table && a.granularity == b.granularity &&
    sameElements a.dimensions b.dimensions && a.dimensionFields == b.dimensionFields &&
    sameElements a.metrics b.metrics && sameElements a.intervals b.intervals &&
    a.filters == b.filters && a.havings == b.havings && a.sorts == b.sorts &&
    a.count == b.count && a.topN == b.topN && a.timeZone == b.timeZone && a.page == b.page &&
    a.format == b.format && a.asyncAfter == b.asyncAfter

end DataRequest

def Positive.json (p : Positive) : Json := .integer p.value

def Page.json (p : Page) : Json := .object [("perPage", p.perPage.json), ("page", p.page.json)]

def DimensionFields.json (fields : DimensionFields) : Json :=
  .object (fields.groups.map fun (d, names) => (d.name, .array (names.map DimensionField.json)))

def DataRequest.json (r : DataRequest) : Json :=
  .object [("type", .string "data"), ("table", .string r.table.name),
    ("granularity", .string (toString r.granularity)),
    ("dimensions", Json.strings (r.dimensions.map Dimension.name)),
    ("dimensionFields", DimensionFields.json r.dimensionFields),
    ("logicalMetrics", Json.strings (r.metrics.map Metric.name)),
    ("intervals", Json.strings (r.intervals.map toString)),
    ("apiFilters", Filters.json r.filters), ("havings", Havings.json r.havings),
    ("sorts", .array (r.sorts.map SortTerm.json)),
    ("count", Json.ofOption Positive.json r.count), ("topN", Json.ofOption Positive.json r.topN),
    ("timeZone", .string (toString r.timeZone)),
    ("pagination", Json.ofOption Page.json r.page), ("format", .string r.format.name),
    ("asyncAfter", .string (toString r.asyncAfter))]

end AggregateQuery
