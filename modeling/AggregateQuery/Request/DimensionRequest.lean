import AggregateQuery.Request.DataRequest
/-!
Requests for the values of one dimension. Its filters are on this dimension only.
-/
namespace AggregateQuery

structure DimensionRequest where
  dimension : Dimension
  filters : Filters := .empty
  page : Option Page := none
  format : ResponseFormat := .json
  asyncAfter : AsyncAfter := .never

namespace DimensionRequest

def scope (r : DimensionRequest) : Table := .scopeOf r.dimension

/-- Takes over the filters on the request's own dimension. -/
def withFilters (r : DimensionRequest) (filters : Filters) : DimensionRequest :=
  { r with filters := filters.retain fun dimension _ => dimension == r.dimension }

def mergeFilters (r : DimensionRequest) (resolver : Resolver) (delimiter : Char)
    (query : String) : Except RequestError DimensionRequest :=
  match r.filters.merge resolver r.scope delimiter query with
  | .ok filters => .ok (r.withFilters filters)
  | .error failure => .error (.filter failure)

def withPage (r : DimensionRequest) (page : Option Page) : DimensionRequest := { r with page }

def withFormat (r : DimensionRequest) (format : ResponseFormat) : DimensionRequest :=
  { r with format }

def withAsyncAfter (r : DimensionRequest) (asyncAfter : AsyncAfter) : DimensionRequest :=
  { r with asyncAfter }

instance : BEq DimensionRequest where
  beq a b := a.dimension == b.dimension && a.filters == b.filters && a.page == b.page &&
    a.format == b.format && a.asyncAfter == b.asyncAfter

def json (r : DimensionRequest) : Json :=
  .object [("type", .string "dimensions"), ("dimension", .string r.dimension.name),
    ("apiFilters", Filters.json r.filters), ("pagination", Json.ofOption Page.json r.page),
    ("format", .string r.format.name), ("asyncAfter", .string (toString r.asyncAfter))]

end DimensionRequest

end AggregateQuery
