import AggregateQuery.Proofs.Condition.Queries
import AggregateQuery.Proofs.Request.Violations
import AggregateQuery.Request.Build
/-!
Built requests. A request that is read names only what its table exposes, and shows fields of the
dimensions it groups by; so the rules on the table and on shown fields find nothing in it.
-/
namespace AggregateQuery

open Text

namespace RequestParameters

variable {α : Type}

theorem readGiven_eq_ok_iff {read : String → Except RequestError α} {absent value : α}
    {raw : Option String} : readGiven read absent raw = .ok value ↔
      raw = none ∧ absent = value ∨ ∃ text, raw = some text ∧ read text = .ok value := by
  cases raw <;> simp [readGiven]

theorem readGiven_eq_error_iff {read : String → Except RequestError α} {absent : α}
    {raw : Option String} {e : RequestError} : readGiven read absent raw = .error e ↔
      ∃ text, raw = some text ∧ read text = .error e := by
  cases raw <;> simp [readGiven]

theorem holds_of_readGiven {holds : α → Prop} {read : String → Except RequestError α}
    {absent value : α} {raw : Option String} (default : holds absent)
    (each : ∀ text value, read text = .ok value → holds value)
    (given : readGiven read absent raw = .ok value) : holds value := by
  rcases readGiven_eq_ok_iff.mp given with ⟨_, rfl⟩ | ⟨text, _, one⟩
  · exact default
  · exact each text value one

/-- What each part of a request was read from. -/
structure ReadAs (p : RequestParameters) (resolver : Resolver) (settings : Settings)
    (r : DataRequest) : Prop where
  table : readTable resolver p.table = .ok r.table
  granularity : readGranularity p.granularity = .ok r.granularity
  timeZone : readTimeZone settings p.timeZone = .ok r.timeZone
  dimensions : ∃ named, readGiven (readDimensions resolver r.table) ([], .empty) p.dimensions =
    .ok (named, r.dimensionFields) ∧ r.dimensions = distinct named
  metrics : ∃ named, readGiven (readMetrics resolver r.table) [] p.metrics = .ok named ∧
    r.metrics = distinct named
  intervals : ∃ given, readOr [] .dateTime
    (readIntervals settings.delimiters.intervals r.timeZone) p.intervals = .ok given ∧
    r.intervals = distinct given
  filters : readGiven (readFilters resolver r.table settings.delimiters.filters) .empty
    p.filters = .ok r.filters
  havings : readGiven (readHavings resolver r.table settings.delimiters.havings) .empty
    p.having = .ok r.havings
  sorts : ∃ given, readOr [] .sort (SortTerm.parseAll settings.delimiters.sorts) p.sorts =
    .ok given ∧ r.sorts = distinct given
  count : readOptional .count Positive.parse p.count = .ok r.count
  topN : readOptional .topN Positive.parse p.topN = .ok r.topN
  page : p.readPage settings = .ok r.page
  format : p.readFormat settings = .ok r.format
  asyncAfter : p.readAsyncAfter settings = .ok r.asyncAfter

theorem toDataRequest_eq_ok_iff {p : RequestParameters} {resolver : Resolver} {settings : Settings}
    {r : DataRequest} :
    p.toDataRequest resolver settings = .ok r ↔ ReadAs p resolver settings r := by
  simp only [toDataRequest, bind_eq_ok_iff, pure_eq_ok_iff]
  constructor
  · intro built
    obtain ⟨table, readTable, granularity, readGranularity, timeZone, readTimeZone, built⟩ := built
    obtain ⟨⟨dimensions, shown⟩, readDimensions, metrics, readMetrics, built⟩ := built
    obtain ⟨intervals, readIntervals, filters, readFilters, havings, readHavings, built⟩ := built
    obtain ⟨sorts, readSorts, count, readCount, topN, readTopN, built⟩ := built
    obtain ⟨page, readPage, format, readFormat, asyncAfter, readAsyncAfter, rfl⟩ := built
    exact {
      table := readTable
      granularity := readGranularity
      timeZone := readTimeZone
      dimensions := ⟨dimensions, readDimensions, rfl⟩
      metrics := ⟨metrics, readMetrics, rfl⟩
      intervals := ⟨intervals, readIntervals, rfl⟩
      filters := readFilters
      havings := readHavings
      sorts := ⟨sorts, readSorts, rfl⟩
      count := readCount
      topN := readTopN
      page := readPage
      format := readFormat
      asyncAfter := readAsyncAfter }
  · intro parts
    obtain ⟨dimensions, readDimensions, sameDimensions⟩ := parts.dimensions
    obtain ⟨metrics, readMetrics, sameMetrics⟩ := parts.metrics
    obtain ⟨intervals, readIntervals, sameIntervals⟩ := parts.intervals
    obtain ⟨sorts, readSorts, sameSorts⟩ := parts.sorts
    refine ⟨_, parts.table, _, parts.granularity, _, parts.timeZone, _, readDimensions, _,
      readMetrics, _, readIntervals, _, parts.filters, _, parts.havings, _, readSorts, _,
      parts.count, _, parts.topN, _, parts.page, _, parts.format, _, parts.asyncAfter, ?_⟩
    rw [DataRequest.withDimensions, DataRequest.withMetrics, DataRequest.withIntervals,
      DataRequest.withSorts, ← sameDimensions, ← sameMetrics, ← sameIntervals, ← sameSorts]
    cases r
    rfl

section Scope

variable {catalog : Catalog} {table : Table}

theorem resolveDimension_eq_ok_iff {r : Resolver} {name : String} {d : Dimension} :
    resolveDimension r table name = .ok d ↔ r.dimension? name table = some d := by
  rw [resolveDimension]
  cases r.dimension? name table <;> simp

theorem resolveField_eq_ok_iff {r : Resolver} {d : Dimension} {name : String}
    {field : DimensionField} :
    resolveField r d name = .ok field ↔ r.field? d (some name) = some field := by
  rw [resolveField]
  cases r.field? d (some name) <;> simp

theorem resolveMetric_eq_ok_iff {r : Resolver} {name : List Char} {m : Metric} :
    resolveMetric r table name = .ok m ↔ r.metric? (String.ofList name) table = some m := by
  simp only [resolveMetric]
  cases r.metric? (String.ofList name) table <;> simp

variable {r : Resolver} {e : RequestError}

theorem readTable_eq_error_iff {name : String} : readTable r name = .error e ↔
    r.table? name = none ∧ .unknownTable name (closest? name r.knownTables) = e := by
  rw [readTable]
  cases r.table? name <;> simp

theorem resolveDimension_eq_error_iff {name : String} : resolveDimension r table name = .error e ↔
    r.dimension? name table = none ∧
      .unknownDimension name table.name (closest? name table.dimensions) = e := by
  rw [resolveDimension]
  cases r.dimension? name table <;> simp

theorem resolveField_eq_error_iff {d : Dimension} {name : String} :
    resolveField r d name = .error e ↔
      r.field? d (some name) = none ∧ .unknownDimensionField d.name name = e := by
  rw [resolveField]
  cases r.field? d (some name) <;> simp

theorem resolveMetric_eq_error_iff {name : List Char} : resolveMetric r table name = .error e ↔
    r.metric? (String.ofList name) table = none ∧ .unknownMetric (String.ofList name) table.name
      (closest? (String.ofList name) table.metrics) = e := by
  simp only [resolveMetric]
  cases r.metric? (String.ofList name) table <;> simp

theorem error_of_readDimensionEntry {raw : String} {entry : List Char}
    (failed : readDimensionEntry r table raw entry = .error e) :
    (∃ cause, .parameter .dimensions raw cause = e) ∨
      (∃ name, resolveDimension r table name = .error e) ∨
      ∃ d name, resolveField r d name = .error e := by
  unfold readDimensionEntry at failed
  split at failed
  · exact Or.inl ⟨_, Except.error.inj failed⟩
  · rcases bind_eq_error_iff.mp failed with unknown | ⟨d, _, rest⟩
    · exact Or.inr (Or.inl ⟨_, unknown⟩)
    · split at rest
      · contradiction
      · split at rest
        · exact Or.inl ⟨_, Except.error.inj rest⟩
        · rcases bind_eq_error_iff.mp rest with unshown | ⟨_, _, whole⟩
          · obtain ⟨name, _, unknown⟩ := error_of_mapM unshown
            exact Or.inr (Or.inr ⟨d, name, unknown⟩)
          · contradiction

theorem error_of_readDimensions {raw : String} (failed : readDimensions r table raw = .error e) :
    (∃ cause, .parameter .dimensions raw cause = e) ∨
      (∃ name, resolveDimension r table name = .error e) ∨
      ∃ d name, resolveField r d name = .error e := by
  rcases bind_eq_error_iff.mp failed with unread | ⟨_, _, whole⟩
  · obtain ⟨entry, _, one⟩ := error_of_mapM unread
    exact error_of_readDimensionEntry one
  · contradiction

theorem parts_of_readDimensionEntry {raw : String} {entry : List Char} {d : Dimension}
    {fields : List DimensionField} (read : readDimensionEntry r table raw entry = .ok (d, fields)) :
    ∃ name list, cutDimensionEntry? entry = some (name, list) ∧
      r.dimension? (String.ofList name) table = some d ∧
      ∀ field ∈ fields, ∃ text names, fieldNames? text = some names ∧
        ∃ given ∈ names, r.field? d (some given) = some field := by
  unfold readDimensionEntry at read
  split at read
  · contradiction
  · rename_i name list cut
    refine ⟨name, list, cut, ?_⟩
    obtain ⟨dimension, found, rest⟩ := bind_eq_ok_iff.mp read
    rw [resolveDimension_eq_ok_iff] at found
    split at rest
    · obtain ⟨rfl, rfl⟩ := Prod.mk.inj (pure_eq_ok_iff.mp rest)
      exact ⟨found, by simp⟩
    · split at rest
      · contradiction
      · rename_i names cutFields
        obtain ⟨resolved, all, whole⟩ := bind_eq_ok_iff.mp rest
        obtain ⟨rfl, rfl⟩ := Prod.mk.inj (pure_eq_ok_iff.mp whole)
        refine ⟨found, ?_⟩
        intro field member
        obtain ⟨given, among, one⟩ := read_from_of_mapM all field member
        exact ⟨_, names, cutFields, given, among, resolveField_eq_ok_iff.mp one⟩

theorem readDimensionEntry_offered {raw : String} {entry : List Char} {d : Dimension}
    {fields : List DimensionField}
    (read : readDimensionEntry catalog.resolver table raw entry = .ok (d, fields)) :
    catalog.OffersDimension table d ∧ ∀ field ∈ fields, field ∈ d.fields := by
  obtain ⟨name, list, _, found, shown⟩ := parts_of_readDimensionEntry read
  refine ⟨(Catalog.resolver_dimension?_eq_some_iff.mp found).2, ?_⟩
  intro field member
  obtain ⟨_, _, _, _, _, one⟩ := shown field member
  exact Catalog.mem_of_resolver_field? one

theorem readDimensions_offered {raw : String} {named : List Dimension} {shown : DimensionFields}
    (read : readDimensions catalog.resolver table raw = .ok (named, shown)) :
    (∀ d ∈ named, catalog.OffersDimension table d) ∧
      shown.Respects (fun d => d ∈ distinct named) fun d field => field ∈ d.fields := by
  obtain ⟨entries, all, whole⟩ := bind_eq_ok_iff.mp read
  obtain ⟨rfl, rfl⟩ := Prod.mk.inj (pure_eq_ok_iff.mp whole)
  have each : ∀ entry ∈ entries, catalog.OffersDimension table entry.1 ∧
      ∀ field ∈ entry.2, field ∈ entry.1.fields := by
    intro entry member
    obtain ⟨text, _, one⟩ := read_from_of_mapM all entry member
    exact readDimensionEntry_offered one
  have offered : ∀ d ∈ entries.map Prod.fst, catalog.OffersDimension table d := by
    intro d member
    obtain ⟨entry, among, rfl⟩ := List.mem_map.mp member
    exact (each entry among).1
  refine ⟨offered, Grouped.respects_union (b := ⟨entries⟩) Grouped.respects_empty ?_⟩
  intro entry member
  have named : entry.1 ∈ entries.map Prod.fst := List.mem_map_of_mem member
  -- Of two dimensions with one name the list keeps the first, which is the same entry.
  have unique (d : Dimension) (requested : d ∈ distinct (entries.map Prod.fst))
      (equal : (d == entry.1) = true) : d = entry.1 :=
    Catalog.offered_dimension_unique (offered d (mem_of_mem_distinct requested))
      (offered entry.1 named) equal
  refine ⟨?_, ?_⟩
  · obtain ⟨d, requested, equal⟩ :=
      List.contains_iff_exists_mem_beq.mp (contains_distinct (fun _ _ _ => BEq.trans) named)
    rwa [← unique d requested (BEq.symm equal)]
  · intro d requested equal field inEntry
    rw [unique d requested equal]
    exact (each entry member).2 field inEntry

theorem readMetrics_offered {raw : String} {named : List Metric}
    (read : readMetrics catalog.resolver table raw = .ok named) :
    ∀ m ∈ named, catalog.OffersMetric table m := by
  intro m member
  obtain ⟨name, _, one⟩ := read_from_of_mapM read m member
  exact (Catalog.resolver_metric?_eq_some_iff.mp (resolveMetric_eq_ok_iff.mp one)).2

end Scope

end RequestParameters

/-- Whether all that a request names is what its table exposes, as the catalog has it. -/
structure DataRequest.ClosedIn (r : DataRequest) (catalog : Catalog) : Prop where
  dimensions : ∀ d ∈ r.dimensions, catalog.OffersDimension r.table d
  metrics : ∀ m ∈ r.metrics, catalog.OffersMetric r.table m
  shown : r.dimensionFields.Respects (fun d => d ∈ r.dimensions) fun d field => field ∈ d.fields
  filters : r.filters.Respects (catalog.OffersDimension r.table)
    fun d f => f.dimension = d ∧ f.field ∈ d.fields
  havings : r.havings.Respects (catalog.OffersMetric r.table) fun m h => h.metric = m

namespace DataRequest

variable {catalog : Catalog} {settings : Settings} {p : RequestParameters} {r : DataRequest}

theorem closed_of_readAs (parts : p.ReadAs catalog.resolver settings r) : r.ClosedIn catalog := by
  obtain ⟨named, readDimensions, sameDimensions⟩ := parts.dimensions
  have scope : (∀ d ∈ named, catalog.OffersDimension r.table d) ∧
      r.dimensionFields.Respects (fun d => d ∈ distinct named) fun d field => field ∈ d.fields := by
    rcases RequestParameters.readGiven_eq_ok_iff.mp readDimensions with ⟨_, none⟩ | ⟨_, _, read⟩
    · obtain ⟨rfl, empty⟩ := Prod.mk.inj none
      rw [← empty]
      exact ⟨by simp, Grouped.respects_empty⟩
    · exact RequestParameters.readDimensions_offered read
  constructor
  case dimensions =>
    intro d member
    rw [sameDimensions] at member
    exact scope.1 d (mem_of_mem_distinct member)
  case metrics =>
    intro m member
    obtain ⟨metrics, readMetrics, sameMetrics⟩ := parts.metrics
    rw [sameMetrics] at member
    rcases RequestParameters.readGiven_eq_ok_iff.mp readMetrics with ⟨_, rfl⟩ | ⟨_, _, read⟩
    · simpa using mem_of_mem_distinct member
    · exact RequestParameters.readMetrics_offered read m (mem_of_mem_distinct member)
  case shown =>
    rw [sameDimensions]
    exact scope.2
  case filters =>
    rcases RequestParameters.readGiven_eq_ok_iff.mp parts.filters with ⟨_, none⟩ | ⟨_, _, read⟩
    · rw [← none]
      exact Grouped.respects_empty
    · intro group member
      obtain ⟨offered, fit⟩ := Filters.parsed_respects (mapError_eq_ok_iff.mp read) group member
      refine ⟨offered, ?_⟩
      intro f inGroup
      obtain ⟨own, entry, _, one⟩ := fit f inGroup
      obtain ⟨_, _, _, _, _, _, known, _⟩ := Filter.parse_eq_ok_iff.mp one
      rw [← own]
      exact ⟨rfl, Catalog.mem_of_resolver_field? known⟩
  case havings =>
    rcases RequestParameters.readGiven_eq_ok_iff.mp parts.havings with ⟨_, none⟩ | ⟨_, _, read⟩
    · rw [← none]
      exact Grouped.respects_empty
    · exact Havings.parsed_respects (mapError_eq_ok_iff.mp read)

theorem ClosedIn.silent (closed : r.ClosedIn catalog) :
    r.tableViolations = [] ∧ r.fieldViolations = [] := by
  rw [tableViolations_eq_nil_iff, fieldViolations_eq_nil_iff]
  refine ⟨⟨?_, ?_, ?_⟩, ?_⟩
  · exact fun d member => (closed.dimensions d member).1
  · exact fun m member => (closed.metrics m member).1
  · intro d member
    obtain ⟨group, among, rfl⟩ := List.mem_map.mp member
    exact (closed.filters group among).1.1
  · intro d member
    obtain ⟨group, among, rfl⟩ := List.mem_map.mp member
    exact List.contains_iff_exists_mem_beq.mpr
      ⟨group.1, (closed.shown group among).1, BEq.refl group.1⟩

/-- A built request is closed, and validation finds no name outside its table. -/
theorem built_request_closed (built : p.toDataRequest catalog.resolver settings = .ok r) :
    r.ClosedIn catalog ∧
      (∀ role name table, .notInTable role name table ∉ r.violations) ∧
      ∀ name, .fieldsForUnrequestedDimension name ∉ r.violations := by
  have closed := closed_of_readAs (RequestParameters.toDataRequest_eq_ok_iff.mp built)
  obtain ⟨noneOutside, noneInVain⟩ := closed.silent
  refine ⟨closed, ?_, ?_⟩
  · intro role name table reported
    have found := mem_violations_iff.mp reported
    rw [Violation.rule, violationsOf, noneOutside] at found
    simp at found
  · intro name reported
    have found := mem_violations_iff.mp reported
    rw [Violation.rule, violationsOf, noneInVain] at found
    simp at found

theorem repeated_dimension_closed : ClosedIn
    { table := SmallCatalog.orders
      granularity := .all
      dimensions := [SmallCatalog.region]
      dimensionFields := ⟨[(SmallCatalog.region,
        [⟨"region", "id", none⟩, ⟨"region", "desc", none⟩])]⟩
      metrics := [⟨"sales", none, none⟩] } SmallCatalog.catalog := by
  have built : RequestParameters.toDataRequest
      { table := "orders"
        dimensions := some "region(id),region(desc),region"
        metrics := some "sales" } SmallCatalog.catalog.resolver {} = .ok
      { table := SmallCatalog.orders
        granularity := .all
        dimensions := [SmallCatalog.region]
        dimensionFields := ⟨[(SmallCatalog.region,
          [⟨"region", "id", none⟩, ⟨"region", "desc", none⟩])]⟩
        metrics := [⟨"sales", none, none⟩] } := rfl
  exact (built_request_closed built).1

end DataRequest

end AggregateQuery
