import AggregateQuery.Catalog.Basic
import AggregateQuery.Proofs.Data.FirstOccurrences
import AggregateQuery.Proofs.Data.Reading
/-!
What is wrong with a definition, in the order in which it is looked for: names of dimensions given
again, names of metrics given again, and then table by table what it lists in vain and its own
name. A definition that is checked fails with the first of its faults, and a consistent one has
none.
-/
namespace AggregateQuery

/-- Each element with those in front of it, when `before` stands in front of all. -/
def withEarlier {α : Type} (before : List α) : List α → List (List α × α)
  | [] => []
  | x :: xs => (before, x) :: withEarlier (before ++ [x]) xs

theorem map_snd_withEarlier {α : Type} (before xs : List α) :
    (withEarlier before xs).map Prod.snd = xs := by
  induction xs generalizing before with
  | nil => rfl
  | cons x rest ih => rw [withEarlier, List.map_cons, ih]

theorem withEarlier_new_iff {α β : Type} (nameOf : α → β) (before xs : List α) :
    (∀ pair ∈ withEarlier before xs, nameOf pair.2 ∉ pair.1.map nameOf) ↔
      (xs.map nameOf).Nodup ∧ ∀ x ∈ xs, nameOf x ∉ before.map nameOf := by
  induction xs generalizing before with
  | nil => simp [withEarlier]
  | cons x rest ih =>
    rw [withEarlier, List.forall_mem_cons, ih, List.map_cons, List.nodup_cons,
      List.forall_mem_cons]
    simp only [List.map_append, List.map_singleton, List.mem_append, List.mem_singleton, not_or]
    constructor
    · intro parts
      obtain ⟨new, once, others⟩ := parts
      refine ⟨⟨?_, once⟩, new, fun y later => (others y later).1⟩
      intro again
      obtain ⟨y, later, same⟩ := List.mem_map.mp again
      exact (others y later).2 same
    · intro parts
      obtain ⟨⟨single, once⟩, new, others⟩ := parts
      refine ⟨new, once, ?_⟩
      intro y later
      exact ⟨others y later, fun same => single (same ▸ List.mem_map_of_mem later)⟩

namespace SchemaDefinition

def dimensionNames (d : SchemaDefinition) : List String := d.dimensions.map DimensionDefinition.name

def metricNames (d : SchemaDefinition) : List String := d.metrics.map MetricDefinition.name

def tableNames (d : SchemaDefinition) : List String := d.tables.map TableDefinition.name

structure Consistent (d : SchemaDefinition) : Prop where
  dimensionsOnce : d.dimensionNames.Nodup
  metricsOnce : d.metricNames.Nodup
  tablesOnce : d.tableNames.Nodup
  dimensionsDefined : ∀ t ∈ d.tables, t.dimensions ⊆ d.dimensionNames
  metricsDefined : ∀ t ∈ d.tables, t.metrics ⊆ d.metricNames

def repeated (entity : Entity) (before : List String) (name : String) : List CatalogError :=
  if name ∈ before then [.duplicateName entity name] else []

def undefined (table : String) (entity : Entity) (defined listed : List String) :
    List CatalogError :=
  (listed.filter fun name => name ∉ defined).map (.undefinedReference table entity)

def tableFaults (d : SchemaDefinition) (before : List TableDefinition) (t : TableDefinition) :
    List CatalogError :=
  undefined t.name .dimension d.dimensionNames t.dimensions ++
    undefined t.name .metric d.metricNames t.metrics ++
    repeated .table (before.map TableDefinition.name) t.name

def faults (d : SchemaDefinition) : List CatalogError :=
  (withEarlier [] d.dimensionNames).flatMap (fun pair => repeated .dimension pair.1 pair.2) ++
  (withEarlier [] d.metricNames).flatMap (fun pair => repeated .metric pair.1 pair.2) ++
  (withEarlier [] d.tables).flatMap fun pair => d.tableFaults pair.1 pair.2

variable {d : SchemaDefinition}

theorem repeated_eq_nil_iff {entity : Entity} {before : List String} {name : String} :
    repeated entity before name = [] ↔ name ∉ before := by
  simp [repeated]

theorem undefined_eq_nil_iff {table : String} {entity : Entity} {defined listed : List String} :
    undefined table entity defined listed = [] ↔ listed ⊆ defined := by
  simp [undefined, List.subset_def]

theorem names_new_iff {entity : Entity} {names : List String} :
    (withEarlier [] names).flatMap (fun pair => repeated entity pair.1 pair.2) = [] ↔
      names.Nodup := by
  have new := withEarlier_new_iff id [] names
  simp only [List.map_id_fun, id_eq, List.not_mem_nil, not_false_eq_true, implies_true,
    and_true] at new
  rw [List.flatMap_eq_nil_iff, ← new]
  exact forall₂_congr fun _ _ => repeated_eq_nil_iff

theorem tables_sound_iff : (∀ pair ∈ withEarlier [] d.tables, d.tableFaults pair.1 pair.2 = []) ↔
    d.tableNames.Nodup ∧ (∀ t ∈ d.tables, t.dimensions ⊆ d.dimensionNames) ∧
      ∀ t ∈ d.tables, t.metrics ⊆ d.metricNames := by
  have each (good : TableDefinition → Prop) :
      (∀ pair ∈ withEarlier [] d.tables, good pair.2) ↔ ∀ t ∈ d.tables, good t := by
    rw [← List.forall_mem_map (f := Prod.snd), map_snd_withEarlier]
  have new := withEarlier_new_iff TableDefinition.name [] d.tables
  simp only [List.map_nil, List.not_mem_nil, not_false_eq_true, implies_true, and_true] at new
  simp only [tableFaults, List.append_eq_nil_iff, undefined_eq_nil_iff, repeated_eq_nil_iff,
    forall_and, new, each fun t => t.dimensions ⊆ d.dimensionNames,
    each fun t => t.metrics ⊆ d.metricNames]
  rw [and_comm]
  rfl

theorem faults_eq_nil_iff : d.faults = [] ↔ d.Consistent := by
  rw [faults, List.append_eq_nil_iff, List.append_eq_nil_iff, names_new_iff, names_new_iff,
    List.flatMap_eq_nil_iff, tables_sound_iff]
  constructor
  · intro parts
    obtain ⟨⟨dimensions, metrics⟩, tables, dimensionsDefined, metricsDefined⟩ := parts
    exact ⟨dimensions, metrics, tables, dimensionsDefined, metricsDefined⟩
  · intro consistent
    exact ⟨⟨consistent.dimensionsOnce, consistent.metricsOnce⟩, consistent.tablesOnce,
      consistent.dimensionsDefined, consistent.metricsDefined⟩

end SchemaDefinition

namespace Catalog

def report : List CatalogError → Except CatalogError Unit
  | [] => .ok ()
  | fault :: _ => .error fault

theorem report_append (faults more : List CatalogError) :
    report (faults ++ more) = report faults >>= fun _ => report more := by
  cases faults <;> rfl

theorem report_eq_ok_iff {faults : List CatalogError} {u : Unit} :
    report faults = .ok u ↔ faults = [] := by
  cases faults <;> simp [report]

theorem report_eq_error_iff {faults : List CatalogError} {fault : CatalogError} :
    report faults = .error fault ↔ faults.head? = some fault := by
  cases faults <;> simp [report]

open SchemaDefinition

theorem checkUnique_eq_report (entity : Entity) (names : List String) :
    checkUnique entity names =
      report ((withEarlier [] names).flatMap fun pair => repeated entity pair.1 pair.2) := by
  have run (earlier before : List String) (same : ∀ n, n ∈ earlier ↔ n ∈ before) :
      (firstRepeated? earlier names).map (CatalogError.duplicateName entity) =
        ((withEarlier before names).flatMap fun pair => repeated entity pair.1 pair.2).head? := by
    induction names generalizing earlier before with
    | nil => rfl
    | cons name rest ih =>
      rw [firstRepeated?, withEarlier, List.flatMap_cons, List.head?_append, repeated]
      simp only [List.contains_iff_mem, same]
      by_cases again : name ∈ before
      · rw [if_pos again, if_pos again]
        rfl
      · rw [if_neg again, if_neg again]
        refine ih (name :: earlier) (before ++ [name]) ?_
        intro n
        simp [same, or_comm]
  have first := run [] [] fun _ => Iff.rfl
  rw [checkUnique]
  cases found : firstRepeated? [] names with
  | none =>
    rw [found] at first
    exact (report_eq_ok_iff.mpr (List.head?_eq_none_iff.mp first.symm)).symm
  | some name =>
    rw [found] at first
    exact (report_eq_error_iff.mpr first.symm).symm

theorem checkDefined_eq_report (table : String) (entity : Entity) (defined listed : List String) :
    checkDefined table entity defined listed = report (undefined table entity defined listed) := by
  have first : (listed.find? fun name => !defined.contains name) =
      (listed.filter fun name => name ∉ defined).head? := by
    rw [List.head?_filter]
    congr 1
    funext name
    simp
  rw [checkDefined, undefined, first]
  cases listed.filter fun name => name ∉ defined <;> rfl

theorem checkTables_eq_report {d : SchemaDefinition} (earlier : List String)
    (before tables : List TableDefinition)
    (same : ∀ n, n ∈ earlier ↔ n ∈ before.map TableDefinition.name) :
    checkTables d.dimensionNames d.metricNames earlier tables =
      report ((withEarlier before tables).flatMap fun pair => d.tableFaults pair.1 pair.2) := by
  induction tables generalizing earlier before with
  | nil => rfl
  | cons t rest ih =>
    rw [checkTables, withEarlier, List.flatMap_cons, report_append, tableFaults, report_append,
      report_append, checkDefined_eq_report, checkDefined_eq_report, repeated, bind_assoc,
      bind_assoc]
    simp only [List.contains_iff_mem, same]
    by_cases again : t.name ∈ before.map TableDefinition.name
    · rw [if_pos again, if_pos again]
      rfl
    · rw [if_neg again, if_neg again, ih (t.name :: earlier) (before ++ [t])]
      · rfl
      · intro n
        simp [same, or_comm]

/-- A definition fails with the first of its faults. -/
theorem check_eq_report (d : SchemaDefinition) : check d = report d.faults := by
  rw [faults, report_append, report_append, ← checkUnique_eq_report, ← checkUnique_eq_report,
    ← checkTables_eq_report [] [] d.tables (by simp), bind_assoc]
  rfl

theorem ofDefinition_eq_ok_iff {d : SchemaDefinition} {catalog : Catalog} :
    ofDefinition d = .ok catalog ↔ d.Consistent ∧
      (⟨d.dimensions.map DimensionDefinition.toDimension,
        d.metrics.map MetricDefinition.toMetric,
        d.tables.map TableDefinition.toTable⟩ : Catalog) = catalog := by
  rw [ofDefinition, bind_eq_ok_iff, check_eq_report]
  simp only [report_eq_ok_iff, faults_eq_nil_iff, pure_eq_ok_iff, exists_const]

theorem ofDefinition_eq_error_iff {d : SchemaDefinition} {fault : CatalogError} :
    ofDefinition d = .error fault ↔ d.faults.head? = some fault := by
  rw [ofDefinition, check_eq_report]
  cases d.faults with
  | nil => simp [report, pure, Except.pure, bind, Except.bind]
  | cons first rest => simp [report, bind, Except.bind]

end Catalog

end AggregateQuery
