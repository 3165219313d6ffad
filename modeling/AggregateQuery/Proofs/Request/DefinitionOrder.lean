import AggregateQuery.Proofs.Catalog.Loading
import AggregateQuery.Proofs.Condition.FilterIdentity
import AggregateQuery.Request.Build
/-!
The order of definitions. Catalogs of the same definitions in different orders resolve every name
alike and offer the same names as suggestions, so that no request can tell them apart.
-/
namespace AggregateQuery

structure SchemaDefinition.Reorders (d e : SchemaDefinition) : Prop where
  dimensions : d.dimensions.Perm e.dimensions
  metrics : d.metrics.Perm e.metrics
  tables : d.tables.Perm e.tables

namespace SchemaDefinition

variable {d e : SchemaDefinition}

theorem Reorders.symm (reorders : d.Reorders e) : e.Reorders d :=
  ⟨reorders.dimensions.symm, reorders.metrics.symm, reorders.tables.symm⟩

theorem Reorders.consistent (reorders : d.Reorders e) (consistent : d.Consistent) :
    e.Consistent := by
  have dimensionNames : d.dimensionNames.Perm e.dimensionNames := reorders.dimensions.map _
  have metricNames : d.metricNames.Perm e.metricNames := reorders.metrics.map _
  have tableNames : d.tableNames.Perm e.tableNames := reorders.tables.map _
  constructor
  case dimensionsOnce => exact dimensionNames.nodup_iff.mp consistent.dimensionsOnce
  case metricsOnce => exact metricNames.nodup_iff.mp consistent.metricsOnce
  case tablesOnce => exact tableNames.nodup_iff.mp consistent.tablesOnce
  case dimensionsDefined =>
    intro t member
    have here := consistent.dimensionsDefined t (reorders.tables.mem_iff.mpr member)
    exact fun name listed => dimensionNames.subset (here listed)
  case metricsDefined =>
    intro t member
    have here := consistent.metricsDefined t (reorders.tables.mem_iff.mpr member)
    exact fun name listed => metricNames.subset (here listed)

end SchemaDefinition

namespace Catalog

variable {d e : SchemaDefinition} {catalog other : Catalog}

theorem loaded_of_reorders (reorders : d.Reorders e) (built : ofDefinition d = .ok catalog) :
    ∃ other, ofDefinition e = .ok other := by
  obtain ⟨consistent, _⟩ := ofDefinition_eq_ok_iff.mp built
  exact ⟨_, ofDefinition_eq_ok_iff.mpr ⟨reorders.consistent consistent, rfl⟩⟩

theorem found_alike {α β : Type} {xs ys : List α} (perm : xs.Perm ys) {nameOf : α → String}
    {make : α → β} {find? findToo? : String → Option β}
    (found : ∀ name y, find? name = some y ↔ ∃ x ∈ xs, nameOf x = name ∧ make x = y)
    (foundToo : ∀ name y, findToo? name = some y ↔ ∃ x ∈ ys, nameOf x = name ∧ make x = y) :
    find? = findToo? := by
  funext name
  refine Option.ext fun y => ?_
  rw [found, foundToo]
  simp only [perm.mem_iff]

theorem resolver_of_reorders (reorders : d.Reorders e) (built : ofDefinition d = .ok catalog)
    (builtToo : ofDefinition e = .ok other) : catalog.resolver = other.resolver := by
  have tables : catalog.table? = other.table? :=
    found_alike reorders.tables (fun _ _ => table?_eq_some_iff built)
      fun _ _ => table?_eq_some_iff builtToo
  have dimensions : catalog.dimension? = other.dimension? :=
    found_alike reorders.dimensions (fun _ _ => dimension?_eq_some_iff built)
      fun _ _ => dimension?_eq_some_iff builtToo
  have metrics : catalog.metric? = other.metric? :=
    found_alike reorders.metrics (fun _ _ => metric?_eq_some_iff built)
      fun _ _ => metric?_eq_some_iff builtToo
  obtain ⟨_, rfl⟩ := ofDefinition_eq_ok_iff.mp built
  obtain ⟨_, rfl⟩ := ofDefinition_eq_ok_iff.mp builtToo
  -- The known names are sorted, and so they are the same lists, as are the suggestions from them.
  have tableNames := sorted_eq_iff_perm.mpr ((reorders.tables.map TableDefinition.toTable).map
    Table.name)
  have dimensionNames := sorted_eq_iff_perm.mpr
    ((reorders.dimensions.map DimensionDefinition.toDimension).map Dimension.name)
  simp only [resolver, Catalog.tableNames, Catalog.dimensionNames, sorted, tables, dimensions,
    metrics, tableNames, dimensionNames]

end Catalog

namespace RequestParameters

/-- The order of the definitions decides neither whether they are loaded nor what is read of any
request, nor what is suggested where a name is not known. -/
theorem definition_order_irrelevant (d e : SchemaDefinition) (reorders : d.Reorders e) :
    ((∃ catalog, Catalog.ofDefinition d = .ok catalog) ↔
      ∃ other, Catalog.ofDefinition e = .ok other) ∧
    ∀ catalog other, Catalog.ofDefinition d = .ok catalog → Catalog.ofDefinition e = .ok other →
      ∀ (settings : Settings) (p : RequestParameters),
        p.toDataRequest catalog.resolver settings = p.toDataRequest other.resolver settings ∧
        ∀ name, p.toDimensionRequest catalog.resolver settings name =
          p.toDimensionRequest other.resolver settings name := by
  constructor
  · constructor
    · rintro ⟨_, built⟩
      exact Catalog.loaded_of_reorders reorders built
    · rintro ⟨_, built⟩
      exact Catalog.loaded_of_reorders reorders.symm built
  · intro catalog other built builtToo settings p
    rw [Catalog.resolver_of_reorders reorders built builtToo]
    exact ⟨rfl, fun _ => rfl⟩

theorem swapped_tables_suggested_alike :
    ∃ catalog other,
      Catalog.ofDefinition { tables := [{ name := "q2" }, { name := "q1" }] } = .ok catalog ∧
      Catalog.ofDefinition { tables := [{ name := "q1" }, { name := "q2" }] } = .ok other ∧
      toDataRequest { table := "q" } catalog.resolver {} = .error (.unknownTable "q" (some "q1")) ∧
      toDataRequest { table := "q" } other.resolver {} =
        .error (.unknownTable "q" (some "q1")) := by
  have reorders : SchemaDefinition.Reorders
      { tables := [{ name := "q2" }, { name := "q1" }] }
      { tables := [{ name := "q1" }, { name := "q2" }] } :=
    ⟨.nil, .nil, .swap _ _ _⟩
  have known : Catalog.sorted ["q1", "q2"] = ["q1", "q2"] :=
    List.mergeSort_of_pairwise (by decide +kernel)
  have near : Text.closest? "q" ["q1", "q2"] = some "q1" := by decide +kernel
  have suggested : toDataRequest { table := "q" }
      (Catalog.resolver ⟨[], [], [⟨"q1", [], [], []⟩, ⟨"q2", [], [], []⟩]⟩) {} =
        .error (.unknownTable "q" (some "q1")) := by
    rw [← near, ← known]
    rfl
  have alike := (definition_order_irrelevant _ _ reorders).2 _ _ rfl rfl {} { table := "q" }
  exact ⟨_, _, rfl, rfl, alike.1.trans suggested, suggested⟩

end RequestParameters

end AggregateQuery
