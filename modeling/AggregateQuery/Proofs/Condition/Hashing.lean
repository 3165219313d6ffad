import AggregateQuery.Proofs.Condition.Construction
import AggregateQuery.Proofs.Condition.FilterIdentity
import AggregateQuery.Proofs.Number.BitPattern
/-!
What conditions are hashed by. Conditions that can be made are equal exactly when the same items are
fed to a hash function for them, so a hashed set keeps one of equal conditions and all others.
-/
namespace AggregateQuery

inductive HashItem where
  | text (text : String)
  | filterOperation (operation : FilterOperation)
  | havingOperation (operation : HavingOperation)
  | count (count : Nat)
  | bits (pattern : BitVec 64)

def Filter.hashItems (f : Filter) : List HashItem :=
  let values := if f.operation.isOrdered then f.values
    else f.values.mergeSort fun a b => decide (a ≤ b)
  [.text f.dimension.name, .text f.field.dimension, .text f.field.name,
    .filterOperation f.operation, .count values.length] ++ values.map .text

def Having.hashItems (h : Having) : List HashItem :=
  [.text h.metric.name, .havingOperation h.operation] ++
    h.values.map fun v => .bits v.unsignedZero.bits

/-- Whether `==` is an equality among what can be made, and hashing respects it and nothing more. -/
structure HashesAsEqual {α : Type} [BEq α] (made : α → Prop) (items : α → List HashItem) :
    Prop where
  refl : ∀ a, made a → (a == a) = true
  symm : ∀ a b, made a → made b → (a == b) = true → (b == a) = true
  trans : ∀ a b c, made a → made b → made c →
    (a == b) = true → (b == c) = true → (a == c) = true
  hash : ∀ a b, made a → made b → ((a == b) = true ↔ items a = items b)

theorem hashesAsEqual_of_iff {α : Type} [BEq α] {made : α → Prop} {items : α → List HashItem}
    (hash : ∀ a b, made a → made b → ((a == b) = true ↔ items a = items b)) :
    HashesAsEqual made items where
  refl a madeA := (hash a a madeA madeA).mpr rfl
  symm a b madeA madeB equal := (hash b a madeB madeA).mpr ((hash a b madeA madeB).mp equal).symm
  trans a b c madeA madeB madeC first second :=
    (hash a c madeA madeC).mpr
      (((hash a b madeA madeB).mp first).trans ((hash b c madeB madeC).mp second))
  hash := hash

theorem Filter.hashItems_eq_iff {a b : Filter} :
    a.hashItems = b.hashItems ↔ a.identity = b.identity := by
  have texts : Function.Injective (List.map HashItem.text) :=
    List.map_injective_iff.mpr fun _ _ same => HashItem.text.inj same
  simp only [hashItems, identity, DimensionField.identity, List.cons_append, List.nil_append,
    List.cons.injEq, HashItem.text.injEq, HashItem.filterOperation.injEq, HashItem.count.injEq,
    texts.eq_iff, Prod.mk.injEq]
  constructor
  · rintro ⟨dimension, fieldDimension, field, operation, _, values⟩
    exact ⟨dimension, ⟨fieldDimension, field⟩, operation, values⟩
  · rintro ⟨dimension, ⟨fieldDimension, field⟩, operation, values⟩
    exact ⟨dimension, fieldDimension, field, operation, congrArg List.length values, values⟩

theorem Having.beq_iff_same_hashItems {a b : Having} :
    (a == b) = true ↔ a.hashItems = b.hashItems := by
  have values (x y : Binary64) :
      (x == y) = true ↔ HashItem.bits x.unsignedZero.bits = .bits y.unsignedZero.bits := by
    rw [HashItem.bits.injEq, Binary64.bits_eq_iff, Binary64.beq_iff, Prod.mk.injEq]
  have shape : (a == b) =
    (a.metric == b.metric && a.operation == b.operation && a.values == b.values) := rfl
  rw [shape, Bool.and_eq_true, Bool.and_eq_true, Metric.beq_iff_same_name, beq_iff_eq,
    list_beq_iff values]
  simp [hashItems, and_assoc]

/-- Equality of filters and of havings is an equality, it says of numbers that their values are the
same, and conditions are equal when they are hashed by the same items. -/
theorem conditions_hash_as_equal :
    HashesAsEqual Filter.Constructed Filter.hashItems ∧
    HashesAsEqual Having.Constructed Having.hashItems ∧
    ∀ x y : Binary64, (x == y) = true ↔ x.units = y.units := by
  refine ⟨hashesAsEqual_of_iff ?_, hashesAsEqual_of_iff ?_, fun _ _ => Binary64.beq_iff_same_units⟩
  · intro a b madeA madeB
    rw [Filter.beq_iff_same_identity madeA.wellFormed.once madeB.wellFormed.once,
      Filter.hashItems_eq_iff]
  · exact fun a b _ _ => Having.beq_iff_same_hashItems

theorem swapped_values_and_signed_zeros_hashed :
    (⟨SmallCatalog.region, ⟨"region", "id", none⟩, .isIn, ["b", "a"]⟩ : Filter).hashItems =
      (⟨SmallCatalog.region, ⟨"region", "id", some "Code"⟩, .isIn, ["a", "b"]⟩ : Filter).hashItems ∧
    (⟨SmallCatalog.region, ⟨"region", "id", none⟩, .between, ["b", "a"]⟩ : Filter).hashItems ≠
      (⟨SmallCatalog.region, ⟨"region", "id", none⟩, .between, ["a", "b"]⟩ : Filter).hashItems ∧
    (⟨⟨"sales", none, none⟩, .gt, [⟨true, 0, by decide⟩]⟩ : Having).hashItems =
      (⟨⟨"sales", none, none⟩, .gt, [⟨false, 0, by decide⟩]⟩ : Having).hashItems := by
  obtain ⟨filters, havings, _⟩ := conditions_hash_as_equal
  refine ⟨?_, ?_, ?_⟩
  · exact (filters.hash _ _ ⟨["b", "a", "b"], rfl⟩ ⟨["a", "b"], rfl⟩).mp rfl
  · intro same
    exact absurd ((filters.hash _ _ ⟨["b", "a"], rfl⟩ ⟨["a", "b"], rfl⟩).mpr same) (by decide)
  · exact (havings.hash _ _ ⟨[.finite ⟨true, 0, by decide⟩], rfl⟩
      ⟨[.finite ⟨false, 0, by decide⟩], rfl⟩).mp rfl

end AggregateQuery
