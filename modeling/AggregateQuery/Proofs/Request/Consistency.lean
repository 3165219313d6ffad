import AggregateQuery.Proofs.Catalog.Lookup
import AggregateQuery.Proofs.Time.Buckets
import AggregateQuery.Request.Validation
/-!
Consistent requests, and what breaks the consistency of the others. Each breach is the fault of one
part of a request, be it a single entry of a list, and no part is at fault twice.
-/
namespace AggregateQuery

def Table.exposedTo (t : Table) : TableRole → List String
  | .dimension | .filterDimension => t.dimensions
  | .metric => t.metrics

namespace DataRequest

def namesIn (r : DataRequest) : TableRole → List String
  | .dimension => r.dimensions.map Dimension.name
  | .metric => r.metrics.map Metric.name
  | .filterDimension => r.filters.keys.map Dimension.name

def sortColumns (r : DataRequest) : List SortColumn := r.sorts.map SortTerm.column

/-- Whether the table has the granularity, where buckets may follow the clocks of any zone. -/
def Supported (r : DataRequest) : Prop :=
  (r.granularity = .all → .all ∈ r.table.granularities) ∧
    ∀ grain zone, r.granularity = .every grain zone → .every grain none ∈ r.table.granularities

/-- Whether both ends of an interval begin a bucket, where there are buckets. These follow the
clocks of the granularity's own zone, or else of the request's. -/
def Aligned (r : DataRequest) (interval : Interval) : Prop :=
  ∀ grain zone, r.granularity = .every grain zone → ∀ bound ∈ [interval.start, interval.finish],
    (bound.nanoseconds : Nat) = 0 ∧ grain.Begins (bound.seconds + (zone.getD r.timeZone).seconds)

def AsksFor (r : DataRequest) : SortColumn → Prop
  | .dateTime => True
  | .metric name => name ∈ r.namesIn .metric
  | .dimensionField name field => ∃ d ∈ r.dimensions, d.name = name ∧ field ∈ d.fieldNames

structure Consistent (r : DataRequest) : Prop where
  granularity : r.Supported
  intervals : r.intervals ≠ []
  aligned : ∀ interval ∈ r.intervals, r.Aligned interval
  exposed : ∀ role, ∀ name ∈ r.namesIn role, name ∈ r.table.exposedTo role
  havings : ∀ m ∈ r.havings.keys, m.name ∈ r.namesIn .metric
  fields : ∀ d ∈ r.dimensionFields.keys, d.name ∈ r.namesIn .dimension
  columnsOnce : r.sortColumns.Nodup
  timeFirst : ∀ position, r.sortColumns[position]? = some .dateTime → position = 0
  columns : ∀ column ∈ r.sortColumns, r.AsksFor column
  ranked : r.topN ≠ none → r.sorts ≠ []

/-- What can be at fault by itself. Entries are told apart by their positions. -/
inductive Part where
  | granularity
  | intervals
  | interval (position : Nat)
  | name (role : TableRole) (position : Nat)
  | having (position : Nat)
  | fields (position : Nat)
  | sort (position : Nat)
  | topN
  deriving DecidableEq

inductive Breaks (r : DataRequest) : Part → Violation → Prop where
  | granularity (unsupported : ¬r.Supported) :
    Breaks r .granularity (.unsupportedGranularity r.table.name r.granularity)
  | intervals (none : r.intervals = []) : Breaks r .intervals .noIntervals
  | interval {position : Nat} {interval : Interval} (there : r.intervals[position]? = some interval)
      (misaligned : ¬r.Aligned interval) :
    Breaks r (.interval position) (.misalignedInterval interval r.granularity)
  | name {role : TableRole} {position : Nat} {name : String}
      (there : (r.namesIn role)[position]? = some name) (outside : name ∉ r.table.exposedTo role) :
    Breaks r (.name role position) (.notInTable role name r.table.name)
  | having {position : Nat} {m : Metric} (there : r.havings.keys[position]? = some m)
      (unasked : m.name ∉ r.namesIn .metric) :
    Breaks r (.having position) (.havingMetricNotRequested m.name)
  | fields {position : Nat} {d : Dimension} (there : r.dimensionFields.keys[position]? = some d)
      (unasked : d.name ∉ r.namesIn .dimension) :
    Breaks r (.fields position) (.fieldsForUnrequestedDimension d.name)
  | repeatedSort {position : Nat} {column : SortColumn}
      (there : r.sortColumns[position]? = some column)
      (seen : column ∈ r.sortColumns.take position) :
    Breaks r (.sort position) (.duplicateSortColumn column)
  | lateTime {position : Nat} (there : r.sortColumns[position]? = some .dateTime)
      (new : .dateTime ∉ r.sortColumns.take position) (late : position ≠ 0) :
    Breaks r (.sort position) (.dateTimeSortNotFirst position)
  | unaskedSort {position : Nat} {column : SortColumn}
      (there : r.sortColumns[position]? = some column)
      (new : column ∉ r.sortColumns.take position) (unasked : ¬r.AsksFor column) :
    Breaks r (.sort position) (.sortColumnNotRequested column)
  | topN (ranking : r.topN ≠ none) (none : r.sorts = []) : Breaks r .topN .topNWithoutSort

variable {r : DataRequest}

theorem breaks_interval_iff {position : Nat} {v : Violation} :
    r.Breaks (.interval position) v ↔ ∃ interval, r.intervals[position]? = some interval ∧
      ¬r.Aligned interval ∧ .misalignedInterval interval r.granularity = v := by
  constructor
  · rintro ⟨⟩
    exact ⟨_, ‹_›, ‹_›, rfl⟩
  · rintro ⟨interval, there, misaligned, rfl⟩
    exact .interval there misaligned

theorem breaks_name_iff {role : TableRole} {position : Nat} {v : Violation} :
    r.Breaks (.name role position) v ↔ ∃ name, (r.namesIn role)[position]? = some name ∧
      name ∉ r.table.exposedTo role ∧ .notInTable role name r.table.name = v := by
  constructor
  · rintro ⟨⟩
    exact ⟨_, ‹_›, ‹_›, rfl⟩
  · rintro ⟨name, there, outside, rfl⟩
    exact .name there outside

theorem breaks_having_iff {position : Nat} {v : Violation} :
    r.Breaks (.having position) v ↔ ∃ m, r.havings.keys[position]? = some m ∧
      m.name ∉ r.namesIn .metric ∧ .havingMetricNotRequested m.name = v := by
  constructor
  · rintro ⟨⟩
    exact ⟨_, ‹_›, ‹_›, rfl⟩
  · rintro ⟨m, there, unasked, rfl⟩
    exact .having there unasked

theorem breaks_fields_iff {position : Nat} {v : Violation} :
    r.Breaks (.fields position) v ↔ ∃ d, r.dimensionFields.keys[position]? = some d ∧
      d.name ∉ r.namesIn .dimension ∧ .fieldsForUnrequestedDimension d.name = v := by
  constructor
  · rintro ⟨⟩
    exact ⟨_, ‹_›, ‹_›, rfl⟩
  · rintro ⟨d, there, unasked, rfl⟩
    exact .fields there unasked

theorem Breaks.unique {part : Part} {v w : Violation} (breaks : r.Breaks part v)
    (again : r.Breaks part w) : v = w := by
  cases breaks with
  | granularity => cases again; rfl
  | intervals => cases again; rfl
  | interval there =>
    cases again with
    | interval thereToo =>
      cases there.symm.trans thereToo
      rfl
  | name there =>
    cases again with
    | name thereToo =>
      cases there.symm.trans thereToo
      rfl
  | having there =>
    cases again with
    | having thereToo =>
      cases there.symm.trans thereToo
      rfl
  | fields there =>
    cases again with
    | fields thereToo =>
      cases there.symm.trans thereToo
      rfl
  | repeatedSort there seen =>
    cases again with
    | repeatedSort thereToo =>
      cases there.symm.trans thereToo
      rfl
    | lateTime thereToo new =>
      cases there.symm.trans thereToo
      contradiction
    | unaskedSort thereToo new =>
      cases there.symm.trans thereToo
      contradiction
  | lateTime there new =>
    cases again with
    | repeatedSort thereToo seen =>
      cases there.symm.trans thereToo
      contradiction
    | lateTime => rfl
    | unaskedSort thereToo _ unasked =>
      cases there.symm.trans thereToo
      exact absurd trivial unasked
  | unaskedSort there new unasked =>
    cases again with
    | repeatedSort thereToo seen =>
      cases there.symm.trans thereToo
      contradiction
    | lateTime thereToo =>
      cases there.symm.trans thereToo
      exact absurd trivial unasked
    | unaskedSort thereToo =>
      cases there.symm.trans thereToo
      rfl
  | topN => cases again; rfl

theorem nodup_iff_all_new {α : Type} {xs : List α} : xs.Nodup ↔
    ∀ (position : Nat) (x : α), xs[position]? = some x → x ∉ xs.take position := by
  rw [List.Nodup, List.pairwise_iff_getElem]
  constructor
  · intro differ position x there seen
    obtain ⟨inBounds, rfl⟩ := List.getElem?_eq_some_iff.mp there
    obtain ⟨earlier, before, same⟩ := List.mem_take_iff_getElem.mp seen
    exact differ earlier position (by omega) inBounds (by omega) same
  · intro new earlier later inBounds inBoundsToo before same
    refine new later xs[later] (List.getElem?_eq_getElem inBoundsToo) ?_
    rw [← same]
    exact List.mem_take_iff_getElem.mpr ⟨earlier, by omega, rfl⟩

theorem sorts_of_unbroken (unbroken : ∀ position v, ¬r.Breaks (.sort position) v) :
    r.sortColumns.Nodup ∧
      (∀ position, r.sortColumns[position]? = some .dateTime → position = 0) ∧
      ∀ column ∈ r.sortColumns, r.AsksFor column := by
  have new : ∀ position column, r.sortColumns[position]? = some column →
      column ∉ r.sortColumns.take position := by
    intro position column there seen
    exact unbroken _ _ (.repeatedSort there seen)
  refine ⟨nodup_iff_all_new.mpr new, ?_, ?_⟩
  · intro position there
    have notLate := fun late => unbroken _ _ (.lateTime there (new _ _ there) late)
    exact Decidable.not_not.mp notLate
  · intro column member
    obtain ⟨position, there⟩ := List.mem_iff_getElem?.mp member
    have notUnasked := fun unasked => unbroken _ _ (.unaskedSort there (new _ _ there) unasked)
    exact Classical.not_not.mp notUnasked

theorem consistent_iff_unbroken : r.Consistent ↔ ∀ part v, ¬r.Breaks part v := by
  constructor
  · intro consistent part v breaks
    cases breaks with
    | granularity unsupported => exact unsupported consistent.granularity
    | intervals none => exact consistent.intervals none
    | interval there misaligned =>
      exact misaligned (consistent.aligned _ (List.mem_of_getElem? there))
    | name there outside => exact outside (consistent.exposed _ _ (List.mem_of_getElem? there))
    | having there unasked => exact unasked (consistent.havings _ (List.mem_of_getElem? there))
    | fields there unasked => exact unasked (consistent.fields _ (List.mem_of_getElem? there))
    | repeatedSort there seen => exact nodup_iff_all_new.mp consistent.columnsOnce _ _ there seen
    | lateTime there new late => exact late (consistent.timeFirst _ there)
    | unaskedSort there new unasked =>
      exact unasked (consistent.columns _ (List.mem_of_getElem? there))
    | topN ranking none => exact consistent.ranked ranking none
  · intro unbroken
    obtain ⟨columnsOnce, timeFirst, columns⟩ := sorts_of_unbroken fun _ _ => unbroken _ _
    constructor
    case granularity =>
      exact Classical.not_not.mp fun unsupported => unbroken _ _ (.granularity unsupported)
    case intervals => exact fun none => unbroken _ _ (.intervals none)
    case aligned =>
      intro interval member
      obtain ⟨position, there⟩ := List.mem_iff_getElem?.mp member
      exact Classical.not_not.mp fun misaligned => unbroken _ _ (.interval there misaligned)
    case exposed =>
      intro role name member
      obtain ⟨position, there⟩ := List.mem_iff_getElem?.mp member
      exact Decidable.not_not.mp fun outside => unbroken _ _ (.name there outside)
    case havings =>
      intro m member
      obtain ⟨position, there⟩ := List.mem_iff_getElem?.mp member
      exact Decidable.not_not.mp fun unasked => unbroken _ _ (.having there unasked)
    case fields =>
      intro d member
      obtain ⟨position, there⟩ := List.mem_iff_getElem?.mp member
      exact Decidable.not_not.mp fun unasked => unbroken _ _ (.fields there unasked)
    case columnsOnce => exact columnsOnce
    case timeFirst => exact timeFirst
    case columns => exact columns
    case ranked => exact fun ranking none => unbroken _ _ (.topN ranking none)

/-- All that a consistent request filters, groups, projects and sorts by is exposed by its table,
though no rule looks up the table for havings, projections and sorts. -/
structure Covered (r : DataRequest) : Prop where
  havings : ∀ m ∈ r.havings.keys, m.name ∈ r.table.metrics
  fields : ∀ d ∈ r.dimensionFields.keys, d.name ∈ r.table.dimensions
  metricSorts : ∀ name, .metric name ∈ r.sortColumns → name ∈ r.table.metrics
  fieldSorts : ∀ name field, .dimensionField name field ∈ r.sortColumns → name ∈ r.table.dimensions

theorem Consistent.covered (consistent : r.Consistent) : r.Covered := by
  constructor
  case havings => exact fun m member => consistent.exposed .metric _ (consistent.havings m member)
  case fields => exact fun d member => consistent.exposed .dimension _ (consistent.fields d member)
  case metricSorts =>
    exact fun name member => consistent.exposed .metric _ (consistent.columns _ member)
  case fieldSorts =>
    intro name field member
    obtain ⟨d, asked, rfl, _⟩ := consistent.columns _ member
    exact consistent.exposed .dimension _ (List.mem_map_of_mem asked)

end DataRequest

end AggregateQuery
