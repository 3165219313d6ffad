import AggregateQuery.Proofs.Catalog.Loading
import AggregateQuery.Proofs.Request.DimensionScope
import AggregateQuery.Proofs.Request.RejectedNames
import AggregateQuery.Proofs.Text.EditDistance
/-!
Suggestions in errors. In a catalog that is built, the names that are offered are the names that
are resolved; so a suggestion is resolved where the name was not, and no name that is resolved
there is nearer.
-/
namespace AggregateQuery

open Text

/-- Whether a place offers names that it resolves, and all of them but for letter case. -/
structure Lookup.Faithful (lookup : Lookup) : Prop where
  sound : ∀ name ∈ lookup.offered, lookup.resolves name = true
  complete : ∀ name, lookup.resolves name = true →
    ∃ listed ∈ lookup.offered, lower listed.toList = lower name.toList

namespace Lookup

variable {lookup : Lookup}

theorem faithful_of_exact
    (exact : ∀ name, lookup.resolves name = true ↔ name ∈ lookup.offered) : lookup.Faithful where
  sound := fun name => (exact name).mpr
  complete := fun name resolved => ⟨name, (exact name).mp resolved, rfl⟩

section Operations

variable {α : Type} {all : List α} {name : α → String} {aliases : α → List String}

theorem isSome_operation_iff {text : String} :
    (all.find? fun op => isNameAmong (name op) (aliases op) text).isSome = true ↔
      ∃ known ∈ all.map name ++ all.flatMap aliases, known.toList = lower text.toList := by
  simp only [List.find?_isSome, isNameAmong, List.any_eq_true, List.mem_cons, beq_iff_eq,
    List.mem_append, List.mem_map, List.mem_flatMap]
  constructor
  · rintro ⟨op, member, known, rfl | further, same⟩
    · exact ⟨_, Or.inl ⟨op, member, rfl⟩, same⟩
    · exact ⟨known, Or.inr ⟨op, member, further⟩, same⟩
  · rintro ⟨known, ⟨op, member, rfl⟩ | ⟨op, member, further⟩, same⟩
    · exact ⟨op, member, _, Or.inl rfl, same⟩
    · exact ⟨op, member, known, Or.inr further, same⟩

theorem faithful_of_operations
    (small : ∀ known ∈ all.map name ++ all.flatMap aliases, lower known.toList = known.toList) :
    Faithful ⟨fun text => (all.find? fun op => isNameAmong (name op) (aliases op) text).isSome,
      all.map name ++ all.flatMap aliases⟩ where
  sound := fun known listed =>
    isSome_operation_iff.mpr ⟨known, listed, (small known listed).symm⟩
  complete := by
    intro text resolved
    obtain ⟨known, listed, same⟩ := isSome_operation_iff.mp resolved
    exact ⟨known, listed, by rw [small known listed, same]⟩

end Operations

end Lookup

namespace Catalog

variable {d : SchemaDefinition} {catalog : Catalog}

theorem isSome_find?_iff {α : Type} {nameOf : α → String} {xs : List α} {name : String} :
    (xs.find? fun x => nameOf x == name).isSome = true ↔ name ∈ sorted (xs.map nameOf) := by
  rw [sorted, List.mem_mergeSort]
  simp

structure Exposes (catalog : Catalog) (table : Table) : Prop where
  dimensions : ∀ name, (catalog.resolver.dimension? name table).isSome = true ↔
    name ∈ table.dimensions
  metrics : ∀ name, (catalog.resolver.metric? name table).isSome = true ↔ name ∈ table.metrics

theorem exposes_toTable (built : ofDefinition d = .ok catalog) {t : TableDefinition}
    (member : t ∈ d.tables) : catalog.Exposes t.toTable where
  dimensions := by
    intro name
    rw [isSome_resolver_dimension?_toTable built member]
    exact mem_distinct_iff.symm
  metrics := by
    intro name
    rw [isSome_resolver_metric?_toTable built member]
    exact mem_distinct_iff.symm

theorem exposes_of_table? (built : ofDefinition d = .ok catalog) {name : String} {table : Table}
    (found : catalog.table? name = some table) : catalog.Exposes table := by
  obtain ⟨t, member, _, rfl⟩ := (table?_eq_some_iff built).mp found
  exact exposes_toTable built member

theorem exposes_scopeOf {D : Dimension} (known : catalog.dimension? D.name = some D) :
    catalog.Exposes (.scopeOf D) where
  dimensions := by
    intro name
    simp only [Option.isSome_iff_exists, resolver_dimension?_eq_some_iff,
      offersDimension_scopeOf_iff known]
    have only : (Table.scopeOf D).dimensions = [D.name] := rfl
    simp [only, eq_comm]
  metrics := by
    intro name
    have none : (Table.scopeOf D).metrics = [] := rfl
    simp [resolver, Table.supportsMetric, none]

theorem exposes_of_dimension? {name : String} {D : Dimension}
    (found : catalog.dimension? name = some D) : catalog.Exposes (.scopeOf D) := by
  have named : D.name = name := by simpa using List.find?_some found
  rw [← named] at found
  exact exposes_scopeOf found

theorem faithful_lookup {scope : Option Table} (exposes : ∀ table ∈ scope, catalog.Exposes table)
    (sought : Sought) : (catalog.resolver.lookup scope sought).Faithful := by
  cases sought with
  | table => exact Lookup.faithful_of_exact fun _ => isSome_find?_iff
  | filterOperation => exact Lookup.faithful_of_operations (by decide +kernel)
  | havingOperation => exact Lookup.faithful_of_operations (by decide +kernel)
  | dimension =>
    cases scope with
    | none => exact Lookup.faithful_of_exact fun _ => isSome_find?_iff
    | some table => exact Lookup.faithful_of_exact (exposes table rfl).dimensions
  | metric =>
    cases scope with
    | none => exact Lookup.faithful_of_exact fun _ => by simp [Resolver.lookup]
    | some table => exact Lookup.faithful_of_exact (exposes table rfl).metrics

end Catalog

/-- Whether what is suggested for a name is another name that is resolved where this one is not,
and no name that is resolved there is nearer. Where there is no suggestion, none of them is near. -/
structure Rejected.WellAdvised (rejected : Rejected) (lookup : Lookup) : Prop
    extends rejected.By lookup where
  works : ∀ s, rejected.suggestion = some s → s ≠ rejected.name ∧ lookup.resolves s = true
  nearest : ∀ s, rejected.suggestion = some s → ∀ other, lookup.resolves other = true →
    nameDistance rejected.name s ≤ nameDistance rejected.name other
  unadvised : rejected.suggestion = none → ∀ other, lookup.resolves other = true →
    suggestionLimit < nameDistance rejected.name other

theorem nameDistance_congr {name a b : String} (same : lower a.toList = lower b.toList) :
    nameDistance name a = nameDistance name b := by
  rw [nameDistance, nameDistance, same]

theorem Rejected.By.wellAdvised {rejected : Rejected} {lookup : Lookup}
    (lookedUp : rejected.By lookup) (faithful : lookup.Faithful) : rejected.WellAdvised lookup where
  toBy := lookedUp
  works := by
    intro s suggested
    have first := closest?_eq_some_iff.mp (lookedUp.closest.symm.trans suggested)
    have resolved := faithful.sound s first.among.1
    refine ⟨?_, resolved⟩
    rintro rfl
    rw [lookedUp.unknown] at resolved
    contradiction
  nearest := by
    intro s suggested other resolved
    have first := closest?_eq_some_iff.mp (lookedUp.closest.symm.trans suggested)
    obtain ⟨listed, member, same⟩ := faithful.complete other resolved
    rw [← nameDistance_congr same]
    exact first.least listed member
  unadvised := by
    intro none other resolved
    have far := closest?_eq_none_iff.mp (lookedUp.closest.symm.trans none)
    obtain ⟨listed, member, same⟩ := faithful.complete other resolved
    rw [← nameDistance_congr same]
    exact far listed member

namespace RequestParameters

/-- Names are as far apart as it takes edits to make one from the other, the first of the nearest
names is suggested, and suggestions in errors are the nearest names that would be resolved. -/
theorem suggestions_resolve :
    (∀ name candidate, IsLeast {n | EditsIn n (lower name.toList) (lower candidate.toList)}
      (nameDistance name candidate)) ∧
    (∀ name candidates,
      (closest? name candidates = none ↔ ∀ c ∈ candidates, 3 < nameDistance name c) ∧
      ∀ s, closest? name candidates = some s ↔ FirstNearest name candidates s) ∧
    ∀ definition catalog, Catalog.ofDefinition definition = .ok catalog →
      ∀ (settings : Settings) (p : RequestParameters),
        (∀ e rejected, p.toDataRequest catalog.resolver settings = .error e →
          e.rejected? = some rejected → rejected.WellAdvised
            (catalog.resolver.lookup (catalog.resolver.table? p.table) rejected.sought)) ∧
        ∀ name e rejected, p.toDimensionRequest catalog.resolver settings name = .error e →
          e.rejected? = some rejected → rejected.WellAdvised
            (catalog.resolver.lookup ((catalog.resolver.anyDimension? name).map .scopeOf)
              rejected.sought) := by
  refine ⟨fun name candidate => distance_isLeast _ _, ?_, ?_⟩
  · exact fun name candidates => ⟨closest?_eq_none_iff, fun s => closest?_eq_some_iff⟩
  · intro definition catalog built settings p
    constructor
    · intro e rejected failed about
      have exposes : ∀ table ∈ catalog.resolver.table? p.table, catalog.Exposes table :=
        fun table found => Catalog.exposes_of_table? built found
      exact (lookedUp_of_toDataRequest failed rejected about).wellAdvised
        (Catalog.faithful_lookup exposes rejected.sought)
    · intro name e rejected failed about
      have exposes : ∀ table ∈ (catalog.resolver.anyDimension? name).map Table.scopeOf,
          catalog.Exposes table := by
        intro table found
        obtain ⟨D, known, rfl⟩ := Option.mem_map.mp found
        exact Catalog.exposes_of_dimension? known
      exact (lookedUp_of_toDimensionRequest failed rejected about).wellAdvised
        (Catalog.faithful_lookup exposes rejected.sought)

theorem near_dimension_suggested :
    toDataRequest { table := "orders", dimensions := some "regio" }
        SmallCatalog.catalog.resolver {} =
      .error (.unknownDimension "regio" "orders" (some "region")) ∧
    (SmallCatalog.catalog.resolver.dimension? "region" SmallCatalog.orders).isSome = true ∧
    toDimensionRequest { filters := some "regio-in[a]" } SmallCatalog.catalog.resolver {} "region" =
      .error (.filter ⟨0, "regio-in[a]", .unknownDimension "regio" "region" (some "region")⟩) ∧
    (SmallCatalog.catalog.resolver.dimension? "region" (.scopeOf SmallCatalog.region)).isSome =
      true := by
  have near : closest? "regio" ["region"] = some "region" := by decide +kernel
  have failed : toDataRequest { table := "orders", dimensions := some "regio" }
      SmallCatalog.catalog.resolver {} =
        .error (.unknownDimension "regio" "orders" (some "region")) := by
    rw [← near]
    rfl
  have failedToo : toDimensionRequest { filters := some "regio-in[a]" }
      SmallCatalog.catalog.resolver {} "region" = .error (.filter
        ⟨0, "regio-in[a]", .unknownDimension "regio" "region" (some "region")⟩) := by
    rw [← near]
    rfl
  have advised := suggestions_resolve.2.2 SmallCatalog.definition SmallCatalog.catalog rfl {}
  have inTable := (advised { table := "orders", dimensions := some "regio" }).1 _ _ failed rfl
  have inDimension := (advised { filters := some "regio-in[a]" }).2 _ _ _ failedToo rfl
  exact ⟨failed, (inTable.works "region" rfl).2, failedToo, (inDimension.works "region" rfl).2⟩

end RequestParameters

end AggregateQuery
