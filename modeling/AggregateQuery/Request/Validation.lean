import AggregateQuery.Request.DataRequest
/-!
Rules that relate the parts of a data request to each other and to its table. Every violation is
reported, not only the first.
-/
namespace AggregateQuery

inductive TableRole where
  | dimension
  | metric
  | filterDimension
  deriving DecidableEq

def TableRole.label : TableRole → String
  | dimension => "Dimension"
  | metric => "Metric"
  | filterDimension => "Filter dimension"

inductive Violation where
  | noIntervals
  | misalignedInterval (interval : Interval) (granularity : Granularity)
  | unsupportedGranularity (table : String) (granularity : Granularity)
  | notInTable (role : TableRole) (name table : String)
  | havingMetricNotRequested (metric : String)
  | fieldsForUnrequestedDimension (dimension : String)
  | sortColumnNotRequested (column : SortColumn)
  | dateTimeSortNotFirst (position : Nat)
  | duplicateSortColumn (column : SortColumn)
  | topNWithoutSort
  deriving DecidableEq

namespace Violation

/-- Sorts are numbered from one in messages. -/
def message : Violation → String
  | noIntervals => "At least one interval is required"
  | misalignedInterval interval granularity =>
    s!"Interval '{interval}' is not aligned to granularity '{granularity}'"
  | unsupportedGranularity table granularity =>
    s!"Table '{table}' does not support granularity '{granularity}'"
  | notInTable role name table => s!"{role.label} '{name}' is not valid for table '{table}'"
  | havingMetricNotRequested metric =>
    s!"Having references metric '{metric}' which is not requested"
  | fieldsForUnrequestedDimension dimension =>
    s!"Fields requested for dimension '{dimension}' which is not requested"
  | sortColumnNotRequested column => s!"Sort column '{column}' is not a requested metric, " ++
    "a field of a requested dimension, or dateTime"
  | dateTimeSortNotFirst position =>
    s!"dateTime must be the first sort column, found at position {position + 1}"
  | duplicateSortColumn column => s!"Sort column '{column}' appears more than once"
  | topNWithoutSort => "topN requires at least one sort"

end Violation

namespace DataRequest

def isAligned (r : DataRequest) (grain : Grain) (interval : Interval) : Bool :=
  grain.isAligned interval.start r.bucketZone && grain.isAligned interval.finish r.bucketZone

def granularityViolations (r : DataRequest) : List Violation :=
  if r.table.supportsGranularity r.granularity then []
  else [.unsupportedGranularity r.table.name r.granularity]

def intervalViolations (r : DataRequest) : List Violation :=
  if r.intervals.isEmpty then [.noIntervals]
  else match r.granularity.grain? with
    | none => []
    | some grain => (r.intervals.filter fun i => !r.isAligned grain i).map
        (.misalignedInterval · r.granularity)

def tableViolations (r : DataRequest) : List Violation :=
  let outside (role : TableRole) (supports : String → Bool) (names : List String) :=
    (names.filter fun name => !supports name).map (Violation.notInTable role · r.table.name)
  outside .dimension r.table.supportsDimension (r.dimensions.map Dimension.name) ++
    outside .metric r.table.supportsMetric (r.metrics.map Metric.name) ++
    outside .filterDimension r.table.supportsDimension (r.filters.keys.map Dimension.name)

def havingViolations (r : DataRequest) : List Violation :=
  (r.havings.keys.filter fun m => !r.metrics.contains m).map
    fun m => .havingMetricNotRequested m.name

def fieldViolations (r : DataRequest) : List Violation :=
  (r.dimensionFields.keys.filter fun d => !r.dimensions.contains d).map
    fun d => .fieldsForUnrequestedDimension d.name

def selects (r : DataRequest) : SortColumn → Bool
  | .dateTime => true
  | .metric name => r.metrics.any fun m => m.name == name
  | .dimensionField dimension field =>
    r.dimensions.any fun d => d.name == dimension && d.hasField field

def columnViolations (r : DataRequest) (position : Nat) (column : SortColumn) : List Violation :=
  if column.isDateTime then if 0 < position then [.dateTimeSortNotFirst position] else []
  else if r.selects column then [] else [.sortColumnNotRequested column]

/-- The violations of the sorts from `position` on. A column that comes again is reported as that
and not looked at further. -/
def sortViolationsFrom (r : DataRequest) :
    List SortColumn → Nat → List SortColumn → List Violation
  | _, _, [] => []
  | seen, position, column :: rest =>
    (if seen.contains column then [.duplicateSortColumn column]
      else r.columnViolations position column) ++
    r.sortViolationsFrom (column :: seen) (position + 1) rest

def sortViolations (r : DataRequest) : List Violation :=
  r.sortViolationsFrom [] 0 (r.sorts.map SortTerm.column)

def topNViolations (r : DataRequest) : List Violation :=
  if r.topN.isSome && r.sorts.isEmpty then [.topNWithoutSort] else []

def violations (r : DataRequest) : List Violation :=
  r.granularityViolations ++ r.intervalViolations ++ r.tableViolations ++ r.havingViolations ++
    r.fieldViolations ++ r.sortViolations ++ r.topNViolations

def violationsMessage (violations : List Violation) : String :=
  "Request failed validation:\n" ++ "\n".intercalate (violations.map fun v => s!"  - {v.message}")

def validated (r : DataRequest) : Except (List Violation) DataRequest :=
  if r.violations.isEmpty then .ok r else .error r.violations

end DataRequest

end AggregateQuery
