import AggregateQuery.Proofs.Condition.Construction
import AggregateQuery.Proofs.Request.ZoneChange
/-!
Histories of data requests. Whatever is done to a request, what it holds once it holds once, no
group is empty, its conditions are ones that can be made, and its sorts are those given last.
-/
namespace AggregateQuery.DataRequest

inductive Change where
  | table (table : Table)
  | granularity (granularity : Granularity)
  | dimensions (given : List Dimension)
  | dimensionFields (given : DimensionFields)
  | metrics (given : List Metric)
  | intervals (given : List Interval)
  | filters (given : Filters)
  | merge (resolver : Resolver) (delimiter : Char) (query : String)
  | havings (given : Havings)
  | sorts (given : List SortTerm)
  | count (count : Option Positive)
  | topN (count : Option Positive)
  | timeZone (zone : Zone)
  | page (page : Option Page)
  | format (format : ResponseFormat)
  | asyncAfter (wait : AsyncAfter)

/-- The request after a change. A query that is not accepted changes nothing. -/
def apply (r : DataRequest) : Change → DataRequest
  | .table table => r.withTable table
  | .granularity granularity => r.withGranularity granularity
  | .dimensions given => r.withDimensions given
  | .dimensionFields given => r.withDimensionFields given
  | .metrics given => r.withMetrics given
  | .intervals given => r.withIntervals given
  | .filters given => r.withFilters given
  | .merge resolver delimiter query =>
    match r.mergeFilters resolver delimiter query with
    | .ok merged => merged
    | .error _ => r
  | .havings given => r.withHavings given
  | .sorts given => r.withSorts given
  | .count count => r.withCount count
  | .topN count => r.withTopN count
  | .timeZone zone => r.withTimeZone zone
  | .page page => r.withPage page
  | .format format => r.withFormat format
  | .asyncAfter wait => r.withAsyncAfter wait

def after (r : DataRequest) (changes : List Change) : DataRequest := changes.foldl apply r

def Change.Constructed : Change → Prop
  | .dimensionFields given => given.Constructed
  | .filters given => given.Constructed ∧ ∀ f ∈ given.values, f.Constructed
  | .havings given => given.Constructed ∧ ∀ h ∈ given.values, h.Constructed
  | _ => True

def sortsGiven (before : List SortTerm) : List Change → List SortTerm
  | [] => before
  | .sorts given :: rest => sortsGiven given rest
  | _ :: rest => sortsGiven before rest

/-- The requests that histories begin with, and the sorts that these were given. -/
inductive Starts : List SortTerm → DataRequest → Prop where
  | fresh (table : Table) (granularity : Granularity) : Starts [] { table, granularity }
  | built {p : RequestParameters} {resolver : Resolver} {settings : Settings}
      {given : List SortTerm} {r : DataRequest}
      (built : p.toDataRequest resolver settings = .ok r)
      (read : readOr [] .sort (SortTerm.parseAll settings.delimiters.sorts) p.sorts = .ok given) :
    Starts given r

structure WellFormed (r : DataRequest) : Prop where
  dimensionsOnce : (r.dimensions.map Dimension.name).Nodup
  metricsOnce : (r.metrics.map Metric.name).Nodup
  intervals : ∀ i ∈ r.intervals, i.start.seconds < i.finish.seconds ∨
    i.start.seconds = i.finish.seconds ∧ i.start.nanoseconds < i.finish.nanoseconds
  dimensionFields : r.dimensionFields.WellFormed
  filters : r.filters.Lawful Filter.WellFormed
  havings : r.havings.Lawful Having.WellFormed
  sortsOnce : r.sorts.Nodup

variable {r merged : DataRequest} {resolver : Resolver} {delimiter : Char} {query : String}

theorem names_nodup_distinct {α : Type} [BEq α] {nameOf : α → String}
    (byName : ∀ {a b : α}, (a == b) = true ↔ nameOf a = nameOf b) (xs : List α) :
    ((distinct xs).map nameOf).Nodup := by
  rw [List.Nodup, List.pairwise_map]
  refine (allDiffer_distinct xs).imp ?_
  intro earlier later different sameName
  have equal := byName.mpr sameName.symm
  simp [equal] at different

theorem mergeFilters_eq_ok_iff : r.mergeFilters resolver delimiter query = .ok merged ↔
    ∃ fs, Filters.parse resolver r.table delimiter query = .ok fs ∧
      r.withFilters (r.filters.union fs) = merged := by
  rw [mergeFilters, Filters.merge]
  cases Filters.parse resolver r.table delimiter query <;> simp [Except.map]

theorem wellFormed_mergeFilters (formed : r.WellFormed)
    (accepted : r.mergeFilters resolver delimiter query = .ok merged) : merged.WellFormed := by
  obtain ⟨fs, read, rfl⟩ := mergeFilters_eq_ok_iff.mp accepted
  exact { formed with
    filters := formed.filters.union (Filters.lawful_of_parse read) }

theorem wellFormed_apply (formed : r.WellFormed) {change : Change}
    (constructed : change.Constructed) : (r.apply change).WellFormed := by
  cases change with
  | dimensions given =>
    exact { formed with
      dimensionsOnce := names_nodup_distinct Dimension.beq_iff_same_name given }
  | metrics given =>
    exact { formed with metricsOnce := names_nodup_distinct Metric.beq_iff_same_name given }
  | dimensionFields given => exact { formed with dimensionFields := constructed.wellFormed }
  | intervals given =>
    exact { formed with intervals := fun i _ => Instant.before_iff.mp i.ordered }
  | filters given =>
    obtain ⟨made, each⟩ := constructed
    exact { formed with
      filters := ⟨made.wellFormed, fun f member => (each f member).wellFormed⟩ }
  | merge resolver delimiter query =>
    rw [apply]
    split
    · rename_i accepted
      exact wellFormed_mergeFilters formed accepted
    · exact formed
  | havings given =>
    obtain ⟨made, each⟩ := constructed
    exact { formed with
      havings := ⟨made.wellFormed, fun h member => (each h member).wellFormed⟩ }
  | sorts given => exact { formed with sortsOnce := nodup_distinct given }
  | table | granularity | count | topN | timeZone | page | format | asyncAfter =>
    exact { formed with }

theorem wellFormed_of_readAs {p : RequestParameters} {settings : Settings}
    (parts : p.ReadAs resolver settings r) : r.WellFormed := by
  obtain ⟨named, readDimensions, sameDimensions⟩ := parts.dimensions
  obtain ⟨metrics, _, sameMetrics⟩ := parts.metrics
  obtain ⟨sorts, _, sameSorts⟩ := parts.sorts
  constructor
  case dimensionsOnce =>
    rw [sameDimensions]
    exact names_nodup_distinct Dimension.beq_iff_same_name named
  case metricsOnce =>
    rw [sameMetrics]
    exact names_nodup_distinct Metric.beq_iff_same_name metrics
  case intervals => exact fun i _ => Instant.before_iff.mp i.ordered
  case dimensionFields =>
    rcases RequestParameters.readGiven_eq_ok_iff.mp readDimensions with ⟨_, none⟩ | ⟨_, _, read⟩
    · rw [← (Prod.mk.inj none).2]
      exact Grouped.wellFormed_empty
    · obtain ⟨entries, _, whole⟩ := bind_eq_ok_iff.mp read
      rw [← (Prod.mk.inj (pure_eq_ok_iff.mp whole)).2]
      exact Grouped.wellFormed_union Grouped.wellFormed_empty ⟨entries⟩
  case filters =>
    refine RequestParameters.holds_of_readGiven Grouped.lawful_empty ?_ parts.filters
    exact fun _ _ read => Filters.lawful_of_parse (mapError_eq_ok_iff.mp read)
  case havings =>
    refine RequestParameters.holds_of_readGiven Grouped.lawful_empty ?_ parts.havings
    exact fun _ _ read => Havings.lawful_of_parse (mapError_eq_ok_iff.mp read)
  case sortsOnce =>
    rw [sameSorts]
    exact nodup_distinct sorts

theorem wellFormed_of_starts {given : List SortTerm} (starts : Starts given r) :
    r.WellFormed ∧ FirstOccurrences given r.sorts := by
  cases starts with
  | fresh table granularity =>
    refine ⟨?_, firstOccurrences_distinct []⟩
    exact ⟨List.nodup_nil, List.nodup_nil, by simp, Grouped.wellFormed_empty,
      Grouped.lawful_empty, Grouped.lawful_empty, List.nodup_nil⟩
  | built built read =>
    have parts := RequestParameters.toDataRequest_eq_ok_iff.mp built
    obtain ⟨givenToo, readToo, same⟩ := parts.sorts
    obtain rfl := Except.ok.inj (read.symm.trans readToo)
    exact ⟨wellFormed_of_readAs parts, same ▸ firstOccurrences_distinct given⟩

theorem wellFormed_after (formed : r.WellFormed) {changes : List Change}
    (constructed : ∀ change ∈ changes, change.Constructed) : (r.after changes).WellFormed := by
  induction changes generalizing r with
  | nil => exact formed
  | cons change rest ih =>
    exact ih (wellFormed_apply formed (constructed change List.mem_cons_self))
      fun other later => constructed other (List.mem_cons_of_mem change later)

theorem sorts_mergeFilters (accepted : r.mergeFilters resolver delimiter query = .ok merged) :
    merged.sorts = r.sorts := by
  obtain ⟨_, _, rfl⟩ := mergeFilters_eq_ok_iff.mp accepted
  rfl

theorem sorts_after {given : List SortTerm} (first : FirstOccurrences given r.sorts)
    (changes : List Change) :
    FirstOccurrences (sortsGiven given changes) (r.after changes).sorts := by
  induction changes generalizing r given with
  | nil => exact first
  | cons change rest ih =>
    cases change with
    | sorts newly => exact ih (r := r.withSorts newly) (firstOccurrences_distinct newly)
    | merge resolver delimiter query =>
      refine ih (r := r.apply (.merge resolver delimiter query)) ?_
      rw [apply]
      split
      · rename_i accepted
        rwa [sorts_mergeFilters accepted]
      · exact first
    | _ => exact ih first

/-- What holds nothing twice can be given part by part, whatever the request was before. -/
theorem after_all_parts (r s : DataRequest) (dimensions : distinct s.dimensions = s.dimensions)
    (metrics : distinct s.metrics = s.metrics) (intervals : distinct s.intervals = s.intervals)
    (sorts : distinct s.sorts = s.sorts) :
    r.after [.table s.table, .granularity s.granularity, .dimensions s.dimensions,
      .dimensionFields s.dimensionFields, .metrics s.metrics, .intervals s.intervals,
      .filters s.filters, .havings s.havings, .sorts s.sorts, .count s.count, .topN s.topN,
      .timeZone s.timeZone, .page s.page, .format s.format, .asyncAfter s.asyncAfter] = s := by
  simp only [after, List.foldl_cons, List.foldl_nil, apply, withDimensions, withMetrics,
    withIntervals, withSorts, dimensions, metrics, intervals, sorts]
  cases s
  rfl

/-- Every request is well formed, whatever was done to it, and it is sorted by the first occurrences
of the sorts that were given last. -/
theorem history_keeps_requests_sound {start : DataRequest} {given : List SortTerm}
    {changes : List Change} (starts : Starts given start)
    (constructed : ∀ change ∈ changes, change.Constructed) :
    (start.after changes).WellFormed ∧
      FirstOccurrences (sortsGiven given changes) (start.after changes).sorts := by
  obtain ⟨formed, first⟩ := wellFormed_of_starts starts
  exact ⟨wellFormed_after formed constructed, sorts_after first changes⟩

def repeatingHistory (interval : Interval) : List Change :=
  [.filters (.ofPairs [(SmallCatalog.region,
      ⟨SmallCatalog.region, ⟨"region", "id", none⟩, .isIn, ["a", "b"]⟩)]),
    .merge SmallCatalog.catalog.resolver ';' "region-in[c,c];region-isnull",
    .merge SmallCatalog.catalog.resolver ';' "region-between[a,a]",
    .intervals [interval],
    .dimensions [SmallCatalog.region, SmallCatalog.region],
    .sorts [⟨.dateTime, .ascending⟩, ⟨.metric "sales", .descending⟩, ⟨.dateTime, .ascending⟩]]

theorem repeating_history_sound : ∃ r interval,
    after { table := SmallCatalog.orders, granularity := .all } (repeatingHistory interval) = r ∧
    Interval.ofBounds ⟨1704067200, 200000000⟩ ⟨1704067200, 700000000⟩ = .ok interval ∧
    r.WellFormed ∧
    FirstOccurrences
      [⟨.dateTime, .ascending⟩, ⟨.metric "sales", .descending⟩, ⟨.dateTime, .ascending⟩] r.sorts ∧
    r.filters.valueCount = 3 ∧ r.intervals = [interval] := by
  let interval : Interval := ⟨⟨1704067200, 200000000⟩, ⟨1704067200, 700000000⟩, rfl⟩
  have made : ∀ change ∈ repeatingHistory interval, change.Constructed := by
    rw [repeatingHistory, List.forall_mem_cons]
    refine ⟨⟨.ofPairs _, ?_⟩, by simp [Change.Constructed]⟩
    intro f among
    obtain rfl := List.mem_singleton.mp among
    exact ⟨["a", "b", "a"], rfl⟩
  obtain ⟨formed, first⟩ :=
    history_keeps_requests_sound (.fresh SmallCatalog.orders .all) made
  exact ⟨_, interval, rfl, rfl, formed, first, rfl, rfl⟩

end AggregateQuery.DataRequest
