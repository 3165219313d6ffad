import AggregateQuery.Proofs.Condition.WrittenQuery
import AggregateQuery.Request.DimensionRequest
/-!
Filters in the scope of one dimension. A query is read there as it is read for any table that
exposes the dimension, if all of its filters are on it, and a request for the values of the
dimension keeps all of them.
-/
namespace AggregateQuery

variable {catalog : Catalog} {table : Table} {D : Dimension}

theorem Table.supportsDimension_scopeOf_iff {name : String} :
    (scopeOf D).supportsDimension name = true ↔ name = D.name := by
  have only : (scopeOf D).dimensions = [D.name] := rfl
  rw [supportsDimension, only, List.contains_iff_mem, List.mem_singleton]

namespace Catalog

/-- Of all dimensions the scope of one offers this one. -/
theorem offersDimension_scopeOf_iff (known : catalog.dimension? D.name = some D) {d : Dimension} :
    catalog.OffersDimension (.scopeOf D) d ↔ d = D := by
  rw [OffersDimension, Table.supportsDimension_scopeOf_iff]
  constructor
  · rintro ⟨same, found⟩
    rw [same, known] at found
    exact (Option.some.inj found).symm
  · rintro rfl
    exact ⟨rfl, known⟩

theorem resolver_dimension?_scopeOf_iff (offered : catalog.OffersDimension table D)
    {name : String} {d : Dimension} :
    catalog.resolver.dimension? name (.scopeOf D) = some d ↔
      catalog.resolver.dimension? name table = some d ∧ d = D := by
  rw [resolver_dimension?_eq_some_iff, resolver_dimension?_eq_some_iff,
    offersDimension_scopeOf_iff offered.2]
  constructor
  · rintro ⟨named, rfl⟩
    exact ⟨⟨named, offered⟩, rfl⟩
  · rintro ⟨⟨named, _⟩, rfl⟩
    exact ⟨named, rfl⟩

end Catalog

theorem Filter.parse_in_scope_iff (offered : catalog.OffersDimension table D) {text : List Char}
    {f : Filter} : parse catalog.resolver (.scopeOf D) text = .ok f ↔
      parse catalog.resolver table text = .ok f ∧ f.dimension = D := by
  rw [parse_eq_ok_iff, parse_eq_ok_iff]
  constructor
  · rintro ⟨clause, name, field, read, cut, found, rest⟩
    obtain ⟨foundToo, own⟩ := (Catalog.resolver_dimension?_scopeOf_iff offered).mp found
    exact ⟨⟨clause, name, field, read, cut, foundToo, rest⟩, own⟩
  · rintro ⟨⟨clause, name, field, read, cut, found, rest⟩, own⟩
    have foundToo := (Catalog.resolver_dimension?_scopeOf_iff offered).mpr ⟨found, own⟩
    exact ⟨clause, name, field, read, cut, foundToo, rest⟩

namespace Filters

theorem keys_iff_dimensions (offered : catalog.OffersDimension table D) {fs : List Filter}
    (known : ∀ f ∈ fs, catalog.OffersDimension table f.dimension) :
    (∀ d ∈ (ofList fs).keys, d = D) ↔ ∀ f ∈ fs, f.dimension = D := by
  constructor
  · intro keys f member
    have listed : (f.dimension, f) ∈ fs.map fun f => (f.dimension, f) :=
      List.mem_map.mpr ⟨f, member, rfl⟩
    obtain ⟨group, among, equal⟩ := Grouped.hasKey_ofPairs listed
    rw [keys group.1 (List.mem_map_of_mem among)] at equal
    exact (Catalog.offered_dimension_unique offered (known f member) equal).symm
  · intro own d member
    have respects : (ofList fs).Respects (· = D) fun _ _ => True := by
      apply Grouped.respects_ofPairs
      intro pair among
      obtain ⟨f, inList, rfl⟩ := List.mem_map.mp among
      exact ⟨own f inList, fun _ _ _ => trivial⟩
    obtain ⟨group, among, rfl⟩ := List.mem_map.mp member
    exact (respects group among).1

theorem offered_of_mapM {texts : List (List Char)} {fs : List Filter}
    (read : texts.mapM (Filter.parse catalog.resolver table) = .ok fs) :
    ∀ f ∈ fs, catalog.OffersDimension table f.dimension := by
  intro f member
  obtain ⟨text, _, one⟩ := read_from_of_mapM read f member
  obtain ⟨_, _, _, _, _, found, _⟩ := Filter.parse_eq_ok_iff.mp one
  exact (Catalog.resolver_dimension?_eq_some_iff.mp found).2

theorem parse_in_scope_iff (offered : catalog.OffersDimension table D) {delimiter : Char}
    {query : String} {fs : Filters} :
    parse catalog.resolver (.scopeOf D) delimiter query = .ok fs ↔
      parse catalog.resolver table delimiter query = .ok fs ∧ ∀ d ∈ fs.keys, d = D := by
  have narrower (text : List Char) (f : Filter) :
      Filter.parse catalog.resolver (.scopeOf D) text = .ok f ↔
        Filter.parse catalog.resolver table text = .ok f ∧ f.dimension = D :=
    Filter.parse_in_scope_iff offered
  rw [parse_eq_ok_iff, parse_eq_ok_iff]
  constructor
  · rintro ⟨filters, read, rfl⟩
    obtain ⟨readToo, own⟩ := (mapM_of_narrower narrower).mp read
    exact ⟨⟨filters, readToo, rfl⟩,
      (keys_iff_dimensions offered (offered_of_mapM readToo)).mpr own⟩
  · rintro ⟨⟨filters, read, rfl⟩, keys⟩
    have own := (keys_iff_dimensions offered (offered_of_mapM read)).mp keys
    exact ⟨filters, (mapM_of_narrower narrower).mpr ⟨read, own⟩, rfl⟩

end Filters

namespace DimensionRequest

theorem withFilters_of_own_keys {r : DimensionRequest} {fs : Filters} (formed : fs.WellFormed)
    (own : ∀ d ∈ fs.keys, d = r.dimension) : r.withFilters fs = { r with filters := fs } := by
  have kept : fs.retain (fun d _ => d == r.dimension) = fs := by
    refine Grouped.retain_eq_self formed.inhabited ?_
    intro group member _ _
    rw [own group.1 (List.mem_map_of_mem member)]
    exact BEq.refl r.dimension
  rw [withFilters, kept]

/-- Filters are read for a dimension as they are read for a table, and none of them is lost. -/
theorem scope_agrees_with_tables {definition : SchemaDefinition}
    (built : Catalog.ofDefinition definition = .ok catalog) (member : D ∈ catalog.dimensions)
    (exposed : table.supportsDimension D.name = true) (delimiter : Char) (query : String) :
    (∀ fs, Filters.parse catalog.resolver (.scopeOf D) delimiter query = .ok fs ↔
      Filters.parse catalog.resolver table delimiter query = .ok fs ∧ ∀ d ∈ fs.keys, d = D) ∧
    ∀ r, mergeFilters { dimension := D } catalog.resolver delimiter query = .ok r ↔
      ∃ fs, Filters.parse catalog.resolver (.scopeOf D) delimiter query = .ok fs ∧
        r = { dimension := D, filters := fs } := by
  have offered : catalog.OffersDimension table D :=
    ⟨exposed, Catalog.dimension?_of_mem built member⟩
  refine ⟨fun fs => Filters.parse_in_scope_iff offered, ?_⟩
  intro r
  cases read : Filters.parse catalog.resolver (.scopeOf D) delimiter query with
  | error failure => simp [mergeFilters, Filters.merge, scope, read, Except.map]
  | ok fs =>
    have formed : fs.WellFormed := readConditions_wellFormed read
    have own := ((Filters.parse_in_scope_iff offered).mp read).2
    have union : Grouped.empty.union fs = fs := Grouped.empty_union formed
    have kept : withFilters { dimension := D } fs = { dimension := D, filters := fs } :=
      withFilters_of_own_keys formed own
    have merged : mergeFilters { dimension := D } catalog.resolver delimiter query =
        .ok { dimension := D, filters := fs } := by
      simp only [mergeFilters, Filters.merge, scope, read, Except.map, union, kept]
    simp [merged, eq_comm]

theorem region_filters_kept :
    mergeFilters { dimension := SmallCatalog.region } SmallCatalog.catalog.resolver ';'
        "region-in[b,a,b];region.desc-isnull" =
      .ok { dimension := SmallCatalog.region, filters := Filters.onRegion } := by
  have built : Catalog.ofDefinition SmallCatalog.definition = .ok SmallCatalog.catalog := rfl
  have member : SmallCatalog.region ∈ SmallCatalog.catalog.dimensions := List.mem_cons_self
  have exposed : SmallCatalog.orders.supportsDimension SmallCatalog.region.name = true := rfl
  have read : Filters.parse SmallCatalog.catalog.resolver SmallCatalog.orders ';'
    "region-in[b,a,b];region.desc-isnull" = .ok Filters.onRegion := rfl
  obtain ⟨scopes, merges⟩ := scope_agrees_with_tables built member exposed ';'
    "region-in[b,a,b];region.desc-isnull"
  have own : ∀ d ∈ Filters.onRegion.keys, d = SmallCatalog.region := by
    intro d among
    exact List.mem_singleton.mp among
  exact (merges _).mpr ⟨Filters.onRegion, (scopes _).mpr ⟨read, own⟩, rfl⟩

end DimensionRequest

end AggregateQuery
