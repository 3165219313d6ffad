import AggregateQuery.Proofs.Data.Construction
import AggregateQuery.Proofs.Request.BuiltRequest
import AggregateQuery.Proofs.Request.DimensionScope
/-!
Histories of requests for the values of a dimension. Whatever is done to such a request, it filters
by its own dimension only, and a query that is merged adds its filters behind those that are there.
-/
namespace AggregateQuery.DimensionRequest

open Text

inductive Change where
  | filters (given : Filters)
  | merge (resolver : Resolver) (delimiter : Char) (query : String)
  | page (page : Option Page)
  | format (format : ResponseFormat)
  | asyncAfter (wait : AsyncAfter)

/-- The request after a change. A query that is not accepted changes nothing. -/
def apply (r : DimensionRequest) : Change → DimensionRequest
  | .filters given => r.withFilters given
  | .merge resolver delimiter query =>
    match r.mergeFilters resolver delimiter query with
    | .ok merged => merged
    | .error _ => r
  | .page page => r.withPage page
  | .format format => r.withFormat format
  | .asyncAfter wait => r.withAsyncAfter wait

def after (r : DimensionRequest) (changes : List Change) : DimensionRequest :=
  changes.foldl apply r

def Change.Constructed : Change → Prop
  | .filters given => given.Constructed
  | _ => True

inductive Starts (D : Dimension) : DimensionRequest → Prop where
  | fresh : Starts D { dimension := D }
  | built {p : RequestParameters} {resolver : Resolver} {settings : Settings} {name : String}
      {r : DimensionRequest} (built : p.toDimensionRequest resolver settings name = .ok r)
      (own : r.dimension = D) : Starts D r

structure FiltersOnly (r : DimensionRequest) (D : Dimension) : Prop where
  dimension : r.dimension = D
  keys : r.filters.OnlyKey D
  formed : r.filters.WellFormed

variable {r merged : DimensionRequest} {D : Dimension} {resolver : Resolver} {delimiter : Char}
  {query : String}

theorem filtersOnly_withFilters (own : r.dimension = D) {given : Filters}
    (formed : given.WellFormed) : (r.withFilters given).FiltersOnly D := by
  refine ⟨own, ?_, Grouped.wellFormed_retain formed fun d _ => d == r.dimension⟩
  intro d member
  obtain ⟨group, among, rfl⟩ := List.mem_map.mp member
  obtain ⟨some, values, _, kept⟩ := Grouped.mem_retain_iff.mp among
  obtain ⟨f, inGroup⟩ := List.exists_mem_of_ne_nil _ some
  rw [kept, List.mem_filter, own] at inGroup
  exact inGroup.2

theorem mergeFilters_eq_ok_iff : r.mergeFilters resolver delimiter query = .ok merged ↔
    ∃ fs, Filters.parse resolver r.scope delimiter query = .ok fs ∧
      r.withFilters (r.filters.union fs) = merged := by
  rw [mergeFilters, Filters.merge]
  cases Filters.parse resolver r.scope delimiter query <;> simp [Except.map]

theorem filtersOnly_mergeFilters (only : r.FiltersOnly D)
    (accepted : r.mergeFilters resolver delimiter query = .ok merged) : merged.FiltersOnly D := by
  obtain ⟨fs, _, rfl⟩ := mergeFilters_eq_ok_iff.mp accepted
  exact filtersOnly_withFilters only.dimension (Grouped.wellFormed_union only.formed fs)

theorem filtersOnly_apply (only : r.FiltersOnly D) {change : Change}
    (constructed : change.Constructed) : (r.apply change).FiltersOnly D := by
  cases change with
  | filters given => exact filtersOnly_withFilters only.dimension constructed.wellFormed
  | merge resolver delimiter query =>
    rw [apply]
    split
    · rename_i accepted
      exact filtersOnly_mergeFilters only accepted
    · exact only
  | page | format | asyncAfter => exact ⟨only.dimension, only.keys, only.formed⟩

theorem filtersOnly_fresh : FiltersOnly { dimension := D } D :=
  ⟨rfl, by simp [Grouped.OnlyKey], Grouped.wellFormed_empty⟩

theorem parts_of_built {p : RequestParameters} {settings : Settings} {name : String}
    (built : p.toDimensionRequest resolver settings name = .ok r) :
    ∃ (dimension : Dimension) (filtered : DimensionRequest),
      RequestParameters.readGiven (mergeFilters { dimension } resolver settings.delimiters.filters)
        { dimension } p.filters = .ok filtered ∧
      ∃ page format asyncAfter, { filtered with page, format, asyncAfter } = r := by
  rw [RequestParameters.toDimensionRequest] at built
  split at built
  · simp only [bind_eq_ok_iff, pure_eq_ok_iff] at built
    obtain ⟨dimension, _, filtered, read, page, _, format, _, wait, _, whole⟩ := built
    exact ⟨dimension, filtered, read, page, format, wait, whole⟩
  · contradiction

theorem filtersOnly_of_starts (starts : Starts D r) : r.FiltersOnly D := by
  cases starts with
  | fresh => exact filtersOnly_fresh
  | @built p resolver settings name _ built own =>
    obtain ⟨dimension, filtered, read, page, format, wait, rfl⟩ := parts_of_built built
    have only : filtered.FiltersOnly dimension := by
      rcases RequestParameters.readGiven_eq_ok_iff.mp read with ⟨_, rfl⟩ | ⟨text, _, accepted⟩
      · exact filtersOnly_fresh
      · exact filtersOnly_mergeFilters filtersOnly_fresh accepted
    obtain rfl : dimension = D := only.dimension.symm.trans own
    exact ⟨only.dimension, only.keys, only.formed⟩

theorem filtersOnly_after (only : r.FiltersOnly D) {changes : List Change}
    (constructed : ∀ change ∈ changes, change.Constructed) :
    (r.after changes).FiltersOnly D := by
  induction changes generalizing r with
  | nil => exact only
  | cons change rest ih =>
    exact ih (filtersOnly_apply only (constructed change List.mem_cons_self))
      fun other later => constructed other (List.mem_cons_of_mem change later)

/-- Whether one request is another with the filters of a query behind its own. -/
structure AddsFilters (catalog : Catalog) (delimiter : Char) (query : String)
    (r merged : DimensionRequest) : Prop where
  others : merged = { r with filters := merged.filters }
  inFront : r.filters.values <+: merged.filters.values
  contains : ∀ f, merged.filters.values.contains f = true ↔
    r.filters.values.contains f = true ∨ ∃ entry ∈ entries delimiter query.toList,
      ∃ g, Filter.parse catalog.resolver r.scope entry = .ok g ∧ (f == g) = true

theorem parsed_in_scope {catalog : Catalog} {fs : Filters}
    (read : Filters.parse catalog.resolver (.scopeOf D) delimiter query = .ok fs) :
    fs.OnlyKey D ∧ ∀ f, fs.values.contains f = true ↔ ∃ entry ∈ entries delimiter query.toList,
      ∃ g, Filter.parse catalog.resolver (.scopeOf D) entry = .ok g ∧ (f == g) = true := by
  obtain ⟨filters, all, rfl⟩ := Filters.parse_eq_ok_iff.mp read
  have own : ∀ pair ∈ filters.map fun f => (f.dimension, f), (pair.1 == D) = true := by
    intro pair member
    obtain ⟨f, among, rfl⟩ := List.mem_map.mp member
    have offered := Filters.offered_of_mapM all f among
    exact Dimension.beq_iff_same_name.mpr (Table.supportsDimension_scopeOf_iff.mp offered.1)
  obtain ⟨values, keys⟩ := Grouped.values_ofPairs own
  rw [List.map_map] at values
  refine ⟨keys, ?_⟩
  intro f
  have listed : (Filters.ofList filters).values = distinct filters :=
    values.trans (congrArg distinct (List.map_id filters))
  rw [listed, distinct, contains_addAll_iff Filter.chains, List.contains_iff_exists_mem_beq,
    List.contains_iff_exists_mem_beq]
  simp only [mem_mapM_iff all]
  constructor
  · rintro (⟨_, none, _⟩ | ⟨g, ⟨entry, listed, one⟩, equal⟩)
    · simp at none
    · exact ⟨entry, listed, g, one, equal⟩
  · rintro ⟨entry, listed, g, one, equal⟩
    exact Or.inr ⟨g, ⟨entry, listed, one⟩, equal⟩

theorem addsFilters_of_mergeFilters {catalog : Catalog} (only : r.FiltersOnly D)
    (accepted : r.mergeFilters catalog.resolver delimiter query = .ok merged) :
    AddsFilters catalog delimiter query r merged := by
  obtain ⟨fs, read, rfl⟩ := mergeFilters_eq_ok_iff.mp accepted
  have scope : r.scope = .scopeOf D := congrArg Table.scopeOf only.dimension
  rw [scope] at read
  obtain ⟨keys, contains⟩ := parsed_in_scope read
  have kept : (r.filters.union fs).retain (fun d _ => d == r.dimension) = r.filters.union fs := by
    refine Grouped.retain_eq_self (Grouped.wellFormed_union only.formed fs).inhabited ?_
    intro group member _ _
    rw [only.dimension]
    exact Grouped.onlyKey_union only.keys keys group.1 (List.mem_map_of_mem member)
  have values : (r.withFilters (r.filters.union fs)).filters.values =
      addAll r.filters.values fs.values := by
    rw [withFilters, kept]
    exact Grouped.values_union only.formed only.keys keys
  constructor
  case others => rfl
  case inFront =>
    rw [values]
    exact prefix_addAll r.filters.values fs.values
  case contains =>
    intro f
    rw [values, contains_addAll_iff Filter.chains, contains, scope]

/-- A request for the values of a dimension filters by that dimension only, whatever was done to it;
queries that are merged lose nothing, and of given filters those on the dimension are kept. -/
theorem own_filters_kept {start : DimensionRequest} {changes : List Change}
    (starts : Starts D start) (constructed : ∀ change ∈ changes, change.Constructed) :
    (∀ group ∈ (start.after changes).filters.groups, (group.1 == D) = true ∧ group.2 ≠ []) ∧
    (∀ catalog delimiter query merged,
      (start.after changes).mergeFilters catalog.resolver delimiter query = .ok merged →
        AddsFilters catalog delimiter query (start.after changes) merged) ∧
    ∀ given : Filters, given.Constructed → (start.after changes).withFilters given =
      { start.after changes with
        filters := ⟨(given.groups.find? fun group => group.1 == D).toList⟩ } := by
  have only := filtersOnly_after (filtersOnly_of_starts starts) constructed
  refine ⟨?_, ?_, ?_⟩
  · intro group member
    exact ⟨only.keys group.1 (List.mem_map_of_mem member), only.formed.inhabited group member⟩
  · intro catalog delimiter query merged accepted
    exact addsFilters_of_mergeFilters only accepted
  · intro given made
    rw [← Grouped.retain_key made.wellFormed, ← only.dimension]
    rfl

def mixedHistory : List Change :=
  [.filters (.ofPairs
      [(⟨"area", none, "id", []⟩, ⟨SmallCatalog.region, ⟨"region", "id", none⟩, .isNull, []⟩),
        (SmallCatalog.region, ⟨SmallCatalog.region, ⟨"region", "id", none⟩, .isIn, ["a"]⟩)]),
    .merge SmallCatalog.catalog.resolver ';' "region-in[b];area-in[b]",
    .format .csv]

theorem mixed_history_keeps_region :
    ∃ merged, mergeFilters (after { dimension := SmallCatalog.region } mixedHistory)
        SmallCatalog.catalog.resolver ';' "region-in[a];region-notnull" = .ok merged ∧
      AddsFilters SmallCatalog.catalog ';' "region-in[a];region-notnull"
        (after { dimension := SmallCatalog.region } mixedHistory) merged ∧
      merged.format = .csv ∧ merged.filters.valueCount = 2 := by
  have constructed : ∀ change ∈ mixedHistory, change.Constructed := by
    simp [mixedHistory, Change.Constructed, Grouped.Constructed.ofPairs]
  obtain ⟨_, merging, _⟩ := own_filters_kept (D := SmallCatalog.region) .fresh constructed
  exact ⟨_, rfl, merging _ _ _ _ rfl, rfl, rfl⟩

end AggregateQuery.DimensionRequest
