import AggregateQuery.Proofs.Catalog.Lookup
/-!
Loaded catalogs. A consistent definition is loaded, and then a table resolves just the names that
it lists, each to the entry that was defined by this name. Any other definition fails with its
first fault.
-/
namespace AggregateQuery

structure DimensionDefinition.Describes (given : DimensionDefinition) (d : Dimension) : Prop where
  name : d.name = given.name
  description : d.description = given.description
  fields : ∃ names, FirstOccurrences (given.keyField :: given.fields) names ∧
    d.fields = names.map fun name => ⟨given.name, name, none⟩
  key : d.fields.head? = some d.keyField
  keyName : d.keyField.name = given.keyField

structure MetricDefinition.Describes (given : MetricDefinition) (m : Metric) : Prop where
  name : m.name = given.name
  category : m.category = given.category
  description : m.description = given.description

theorem Dimension.fieldNames_ofFields (name key : String) (fields : List String)
    (description : Option String) :
    (ofFields name key fields description).fieldNames = distinct (key :: fields) := by
  obtain ⟨others, whole⟩ : [key] <+: distinct (key :: fields) := prefix_addAll [key] fields
  rw [fieldNames, ofFields, ← whole]
  rfl

theorem DimensionDefinition.describes_toDimension (given : DimensionDefinition) :
    given.Describes given.toDimension where
  name := rfl
  description := rfl
  fields := by
    refine ⟨_, firstOccurrences_distinct _, ?_⟩
    rw [Dimension.fields, toDimension, Dimension.fieldNames_ofFields]
    rfl
  key := rfl
  keyName := rfl

theorem MetricDefinition.describes_toMetric (given : MetricDefinition) :
    given.Describes given.toMetric := ⟨rfl, rfl, rfl⟩

namespace Catalog

section Made

variable {α β : Type} {nameOf : α → String} {nameOfMade : β → String} {xs : List α}

/-- Under names that differ, an entry is found exactly when it was made from what has its name. -/
theorem find?_made_eq_some_iff (make : α → β) (unique : (xs.map nameOf).Nodup)
    (named : ∀ x, nameOfMade (make x) = nameOf x) {name : String} {y : β} :
    ((xs.map make).find? fun z => nameOfMade z == name) = some y ↔
      ∃ x ∈ xs, nameOf x = name ∧ make x = y := by
  constructor
  · intro found
    obtain ⟨x, member, rfl⟩ := List.mem_map.mp (List.mem_of_find?_eq_some found)
    have same : nameOfMade (make x) = name := by simpa using List.find?_some found
    exact ⟨x, member, (named x).symm.trans same, rfl⟩
  · intro made
    obtain ⟨x, member, rfl, rfl⟩ := made
    have uniqueMade : ((xs.map make).map nameOfMade).Nodup := by
      rw [List.map_map]
      simpa only [Function.comp_def, named] using unique
    rw [← named x]
    exact find?_of_unique_names uniqueMade (List.mem_map_of_mem member)

theorem isSome_iff_listed {found? : Option β} {listed : Prop} {made : β → Prop}
    (found : ∀ {y}, found? = some y ↔ listed ∧ made y) (defined : listed → ∃ y, made y) :
    found?.isSome = true ↔ listed := by
  rw [Option.isSome_iff_exists]
  simp only [found, exists_and_left]
  exact and_iff_left_of_imp defined

end Made

variable {d : SchemaDefinition} {catalog : Catalog} {name : String}

theorem table?_eq_some_iff (built : ofDefinition d = .ok catalog) {table : Table} :
    catalog.table? name = some table ↔ ∃ t ∈ d.tables, t.name = name ∧ t.toTable = table := by
  obtain ⟨consistent, rfl⟩ := ofDefinition_eq_ok_iff.mp built
  exact find?_made_eq_some_iff TableDefinition.toTable consistent.tablesOnce fun _ => rfl

theorem dimension?_eq_some_iff (built : ofDefinition d = .ok catalog) {dimension : Dimension} :
    catalog.dimension? name = some dimension ↔
      ∃ given ∈ d.dimensions, given.name = name ∧ given.toDimension = dimension := by
  obtain ⟨consistent, rfl⟩ := ofDefinition_eq_ok_iff.mp built
  exact find?_made_eq_some_iff DimensionDefinition.toDimension consistent.dimensionsOnce
    fun _ => rfl

theorem metric?_eq_some_iff (built : ofDefinition d = .ok catalog) {metric : Metric} :
    catalog.metric? name = some metric ↔
      ∃ given ∈ d.metrics, given.name = name ∧ given.toMetric = metric := by
  obtain ⟨consistent, rfl⟩ := ofDefinition_eq_ok_iff.mp built
  exact find?_made_eq_some_iff MetricDefinition.toMetric consistent.metricsOnce fun _ => rfl

theorem supportsDimension_toTable_iff {t : TableDefinition} :
    t.toTable.supportsDimension name = true ↔ name ∈ t.dimensions := by
  rw [Table.supportsDimension, List.contains_iff_mem]
  exact mem_distinct_iff

theorem supportsMetric_toTable_iff {t : TableDefinition} :
    t.toTable.supportsMetric name = true ↔ name ∈ t.metrics := by
  rw [Table.supportsMetric, List.contains_iff_mem]
  exact mem_distinct_iff

theorem resolver_dimension?_toTable_iff (built : ofDefinition d = .ok catalog)
    {t : TableDefinition} {dimension : Dimension} :
    catalog.resolver.dimension? name t.toTable = some dimension ↔
      name ∈ t.dimensions ∧ ∃ given ∈ d.dimensions, given.name = name ∧
        given.toDimension = dimension := by
  rw [← dimension?_eq_some_iff built, ← supportsDimension_toTable_iff]
  exact Option.ite_none_right_eq_some

theorem resolver_metric?_toTable_iff (built : ofDefinition d = .ok catalog)
    {t : TableDefinition} {metric : Metric} :
    catalog.resolver.metric? name t.toTable = some metric ↔
      name ∈ t.metrics ∧ ∃ given ∈ d.metrics, given.name = name ∧ given.toMetric = metric := by
  rw [← metric?_eq_some_iff built, ← supportsMetric_toTable_iff]
  exact Option.ite_none_right_eq_some

theorem isSome_resolver_dimension?_toTable (built : ofDefinition d = .ok catalog)
    {t : TableDefinition} (member : t ∈ d.tables) :
    (catalog.resolver.dimension? name t.toTable).isSome = true ↔ name ∈ t.dimensions := by
  refine isSome_iff_listed (resolver_dimension?_toTable_iff built) ?_
  intro listed
  obtain ⟨consistent, _⟩ := ofDefinition_eq_ok_iff.mp built
  obtain ⟨given, defined, named⟩ := List.mem_map.mp (consistent.dimensionsDefined t member listed)
  exact ⟨given.toDimension, given, defined, named, rfl⟩

theorem isSome_resolver_metric?_toTable (built : ofDefinition d = .ok catalog)
    {t : TableDefinition} (member : t ∈ d.tables) :
    (catalog.resolver.metric? name t.toTable).isSome = true ↔ name ∈ t.metrics := by
  refine isSome_iff_listed (resolver_metric?_toTable_iff built) ?_
  intro listed
  obtain ⟨consistent, _⟩ := ofDefinition_eq_ok_iff.mp built
  obtain ⟨given, defined, named⟩ := List.mem_map.mp (consistent.metricsDefined t member listed)
  exact ⟨given.toMetric, given, defined, named, rfl⟩

/-- Consistent definitions are loaded, and the tables of the catalog resolve what they list. The
others fail with their first fault. -/
theorem loading_exact (d : SchemaDefinition) :
    ((∃ catalog, ofDefinition d = .ok catalog) ↔ d.Consistent) ∧
    (∀ catalog, ofDefinition d = .ok catalog → ∀ t ∈ d.tables, ∃ table,
      catalog.resolver.table? t.name = some table ∧ ∀ name,
        ((catalog.resolver.dimension? name table).isSome = true ↔ name ∈ t.dimensions) ∧
        (∀ dimension, catalog.resolver.dimension? name table = some dimension →
          ∃ given ∈ d.dimensions, given.name = name ∧ given.Describes dimension) ∧
        ((catalog.resolver.metric? name table).isSome = true ↔ name ∈ t.metrics) ∧
        (∀ metric, catalog.resolver.metric? name table = some metric →
          ∃ given ∈ d.metrics, given.name = name ∧ given.Describes metric)) ∧
    ∀ fault, ofDefinition d = .error fault ↔ d.faults.head? = some fault := by
  refine ⟨?_, ?_, fun fault => ofDefinition_eq_error_iff⟩
  · simp only [ofDefinition_eq_ok_iff, exists_and_left, exists_eq', and_true]
  · intro catalog built t member
    refine ⟨t.toTable, (table?_eq_some_iff built).mpr ⟨t, member, rfl, rfl⟩, ?_⟩
    intro name
    refine ⟨isSome_resolver_dimension?_toTable built member, ?_,
      isSome_resolver_metric?_toTable built member, ?_⟩
    · intro dimension found
      obtain ⟨_, given, defined, named, rfl⟩ := (resolver_dimension?_toTable_iff built).mp found
      exact ⟨given, defined, named, given.describes_toDimension⟩
    · intro metric found
      obtain ⟨_, given, defined, named, rfl⟩ := (resolver_metric?_toTable_iff built).mp found
      exact ⟨given, defined, named, given.describes_toMetric⟩

theorem first_fault_and_listed_names :
    ofDefinition ⟨[⟨"region", "id", [], none⟩], [⟨"sales", none, none⟩],
        [⟨"orders", [], ["region"], ["sales", "costs"]⟩, ⟨"orders", [], ["country"], []⟩]⟩ =
      .error (.undefinedReference "orders" .metric "costs") ∧
    ∃ table, SmallCatalog.catalog.resolver.table? "orders" = some table ∧
      (SmallCatalog.catalog.resolver.dimension? "region" table).isSome = true := by
  have first := (loading_exact ⟨[⟨"region", "id", [], none⟩], [⟨"sales", none, none⟩],
    [⟨"orders", [], ["region"], ["sales", "costs"]⟩, ⟨"orders", [], ["country"], []⟩]⟩).2.2
  have tables := (loading_exact SmallCatalog.definition).2.1 SmallCatalog.catalog rfl
  obtain ⟨table, found, names⟩ := tables _ List.mem_cons_self
  refine ⟨(first _).mpr rfl, table, found, (names "region").1.mpr ?_⟩
  exact List.mem_cons_self

end Catalog

end AggregateQuery
