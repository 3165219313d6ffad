import AggregateQuery.Proofs.Catalog.Faults
/-!
Names in a catalog. Dimensions, fields and metrics are equal when they are named alike, and what a
catalog gives for a name has that name; in a checked catalog every dimension is found again.
-/
namespace AggregateQuery

theorem Dimension.beq_iff_same_name {a b : Dimension} : (a == b) = true ↔ a.name = b.name := by
  change (a.name == b.name) = true ↔ a.name = b.name
  exact beq_iff_eq

instance : EquivBEq Dimension :=
  equivBEq_of_iff_apply_eq Dimension.name fun _ _ => Dimension.beq_iff_same_name

theorem Metric.beq_iff_same_name {a b : Metric} : (a == b) = true ↔ a.name = b.name := by
  change (a.name == b.name) = true ↔ a.name = b.name
  exact beq_iff_eq

instance : EquivBEq Metric :=
  equivBEq_of_iff_apply_eq Metric.name fun _ _ => Metric.beq_iff_same_name

theorem DimensionField.beq_iff_same_identity {a b : DimensionField} :
    (a == b) = true ↔ a.identity = b.identity := by
  unfold identity
  rw [Prod.mk.injEq]
  exact Bool.and_eq_true_iff.trans (and_congr beq_iff_eq beq_iff_eq)

instance : EquivBEq DimensionField :=
  equivBEq_of_iff_apply_eq DimensionField.identity fun _ _ => DimensionField.beq_iff_same_identity

theorem contains_iff_name_mem {α β : Type} [BEq α] {nameOf : α → β}
    (byName : ∀ {a b : α}, (a == b) = true ↔ nameOf a = nameOf b) {xs : List α} {x : α} :
    xs.contains x = true ↔ nameOf x ∈ xs.map nameOf := by
  rw [List.contains_iff_exists_mem_beq, List.mem_map]
  constructor
  · rintro ⟨y, member, equal⟩
    exact ⟨y, member, (byName.mp equal).symm⟩
  · rintro ⟨y, member, same⟩
    exact ⟨y, member, byName.mpr same.symm⟩

namespace Dimension

theorem mem_fields_iff {d : Dimension} {field : DimensionField} :
    field ∈ d.fields ↔ ∃ name ∈ d.fieldNames, field = d.fieldNamed name := by
  simp [fields, eq_comm]

theorem keyField_mem (d : Dimension) : d.keyField ∈ d.fields :=
  mem_fields_iff.mpr ⟨d.key, List.mem_cons_self, rfl⟩

theorem field?_eq_some_iff {d : Dimension} {name : String} {field : DimensionField} :
    d.field? name = some field ↔ field ∈ d.fields ∧ field.name = name := by
  rw [field?, mem_fields_iff]
  constructor
  · intro found
    split at found
    · rename_i known
      obtain rfl := Option.some.inj found
      exact ⟨⟨name, List.contains_iff_mem.mp known, rfl⟩, rfl⟩
    · contradiction
  · intro parts
    obtain ⟨⟨known, member, rfl⟩, rfl⟩ := parts
    rw [if_pos]
    · rfl
    · exact List.contains_iff_mem.mpr member

theorem mem_of_fieldOrKey? {d : Dimension} {name : Option String} {field : DimensionField}
    (found : d.fieldOrKey? name = some field) : field ∈ d.fields := by
  cases name with
  | none =>
    obtain rfl := Option.some.inj found
    exact d.keyField_mem
  | some name => exact (field?_eq_some_iff.mp found).1

end Dimension

namespace Catalog

variable {catalog : Catalog} {name : String}

/-- Whether a table exposes a dimension, and the catalog gives it for its own name. -/
def OffersDimension (catalog : Catalog) (table : Table) (d : Dimension) : Prop :=
  table.supportsDimension d.name = true ∧ catalog.dimension? d.name = some d

def OffersMetric (catalog : Catalog) (table : Table) (m : Metric) : Prop :=
  table.supportsMetric m.name = true ∧ catalog.metric? m.name = some m

section Scope

variable {α : Type} {nameOf : α → String} {exposes : String → Bool} {xs : List α}

theorem find?_in_scope_eq_some_iff {x : α} :
    (if exposes name = true then xs.find? fun y => nameOf y == name else none) = some x ↔
      nameOf x = name ∧ exposes (nameOf x) = true ∧
        (xs.find? fun y => nameOf y == nameOf x) = some x := by
  rw [Option.ite_none_right_eq_some]
  constructor
  · intro found
    have named : nameOf x = name := by simpa using List.find?_some found.2
    exact ⟨named, by rwa [named]⟩
  · intro offered
    obtain ⟨named, entry⟩ := offered
    rwa [named] at entry

theorem found_unique {x y : α} (found : (xs.find? fun z => nameOf z == nameOf x) = some x)
    (other : (xs.find? fun z => nameOf z == nameOf y) = some y) (same : nameOf x = nameOf y) :
    x = y := by
  rw [same, other] at found
  exact (Option.some.inj found).symm

end Scope

theorem resolver_dimension?_eq_some_iff {table : Table} {d : Dimension} :
    catalog.resolver.dimension? name table = some d ↔
      d.name = name ∧ catalog.OffersDimension table d := find?_in_scope_eq_some_iff

theorem resolver_metric?_eq_some_iff {table : Table} {m : Metric} :
    catalog.resolver.metric? name table = some m ↔
      m.name = name ∧ catalog.OffersMetric table m := find?_in_scope_eq_some_iff

theorem mem_of_resolver_field? {d : Dimension} {given : Option String} {field : DimensionField}
    (found : catalog.resolver.field? d given = some field) : field ∈ d.fields := by
  have chosen : d.fieldOrKey? given = some field := found
  exact Dimension.mem_of_fieldOrKey? chosen

theorem offered_dimension_unique {table : Table} {d e : Dimension}
    (offered : catalog.OffersDimension table d) (other : catalog.OffersDimension table e)
    (equal : (d == e) = true) : d = e :=
  found_unique offered.2 other.2 (Dimension.beq_iff_same_name.mp equal)

theorem offered_metric_unique {table : Table} {m n : Metric}
    (offered : catalog.OffersMetric table m) (other : catalog.OffersMetric table n)
    (equal : (m == n) = true) : m = n :=
  found_unique offered.2 other.2 (Metric.beq_iff_same_name.mp equal)

theorem find?_of_unique_names {α : Type} {nameOf : α → String} {xs : List α} {x : α}
    (unique : (xs.map nameOf).Nodup) (member : x ∈ xs) :
    (xs.find? fun y => nameOf y == nameOf x) = some x := by
  induction xs with
  | nil => simp at member
  | cons first rest ih =>
    rw [List.map_cons, List.nodup_cons] at unique
    rcases List.mem_cons.mp member with rfl | later
    · simp
    · have different : nameOf first ≠ nameOf x := by
        intro same
        exact unique.1 (same ▸ List.mem_map_of_mem later)
      rw [List.find?_cons_of_neg (by simpa using different), ih unique.2 later]

theorem dimension_names_nodup {definition : SchemaDefinition}
    (built : ofDefinition definition = .ok catalog) :
    (catalog.dimensions.map Dimension.name).Nodup := by
  obtain ⟨consistent, rfl⟩ := ofDefinition_eq_ok_iff.mp built
  rw [List.map_map]
  exact consistent.dimensionsOnce

theorem dimension?_of_mem {definition : SchemaDefinition} {d : Dimension}
    (built : ofDefinition definition = .ok catalog) (member : d ∈ catalog.dimensions) :
    catalog.dimension? d.name = some d :=
  find?_of_unique_names (dimension_names_nodup built) member

end Catalog

namespace SmallCatalog

def definition : SchemaDefinition :=
  ⟨[⟨"region", "id", ["desc"], none⟩], [⟨"sales", none, none⟩],
    [⟨"orders", [.all], ["region"], ["sales"]⟩]⟩

def region : Dimension := ⟨"region", none, "id", ["desc"]⟩

def orders : Table := ⟨"orders", [.all], ["region"], ["sales"]⟩

def catalog : Catalog := ⟨[region], [⟨"sales", none, none⟩], [orders]⟩

end SmallCatalog

end AggregateQuery
