import AggregateQuery.Condition.Having
import AggregateQuery.Proofs.Catalog.Lookup
import AggregateQuery.Proofs.Condition.ClauseText
/-!
The clauses of havings, and the equality of havings: they are equal when their identities are.
-/
namespace AggregateQuery

theorem Binary64.beq_iff {x y : Binary64} : (x == y) = true ↔
    (x.unsignedZero.negative, x.unsignedZero.code) =
      (y.unsignedZero.negative, y.unsignedZero.code) := by
  have shape : (x == y) = ((x.isZero && y.isZero) ||
    (x.negative == y.negative && x.code == y.code)) := rfl
  rw [shape]
  unfold unsignedZero isZero
  by_cases zeroX : x.code = 0
  · by_cases zeroY : y.code = 0
    · simp [zeroX, zeroY]
    · simp [zero, zeroX, zeroY, Ne.symm zeroY]
  · by_cases zeroY : y.code = 0
    · simp [zero, zeroX, zeroY]
    · simp [zeroX, zeroY]

theorem list_beq_iff {α β : Type} [BEq α] {f : α → β}
    (same : ∀ a b : α, (a == b) = true ↔ f a = f b) {xs ys : List α} :
    (xs == ys) = true ↔ xs.map f = ys.map f := by
  induction xs generalizing ys with
  | nil => cases ys <;> simp
  | cons x xs ih => cases ys <;> simp [same, ih]

namespace Having

theorem beq_iff_same_identity {a b : Having} : (a == b) = true ↔ a.identity = b.identity := by
  have shape : (a == b) =
    (a.metric == b.metric && a.operation == b.operation && a.values == b.values) := rfl
  rw [shape, Bool.and_eq_true, Bool.and_eq_true, Metric.beq_iff_same_name, beq_iff_eq,
    list_beq_iff fun _ _ => Binary64.beq_iff]
  simp [identity, and_assoc]

instance : EquivBEq Having :=
  equivBEq_of_iff_apply_eq identity fun _ _ => beq_iff_same_identity

theorem ofFinite_eq_ok_iff {metric : Metric} {operation : HavingOperation}
    {values : List Binary64} {h : Having} : ofFinite metric operation values = .ok h ↔
      operation.arity.Admits values.length ∧ h = ⟨metric, operation, values⟩ := by
  rw [ofFinite, ← Arity.breach?_eq_none_iff]
  split
  · rename_i breach
    simp [breach]
  · rename_i breach
    simp [breach]
  · rename_i admitted
    simp [admitted, eq_comm]

theorem resolveMetric_eq_ok_iff {r : Resolver} {table : Table} {name : String} {m : Metric} :
    resolveMetric r table name = .ok m ↔ r.metric? name table = some m := by
  rw [resolveMetric]
  cases r.metric? name table <;> simp

theorem resolveOperation_eq_ok_iff {name : String} {operation : HavingOperation} :
    resolveOperation name = .ok operation ↔ HavingOperation.ofName? name = some operation := by
  rw [resolveOperation]
  cases HavingOperation.ofName? name <;> simp

theorem resolveMetric_eq_error_iff {r : Resolver} {table : Table} {name : String}
    {e : HavingError} : resolveMetric r table name = .error e ↔ r.metric? name table = none ∧
      .unknownMetric name table.name (Text.closest? name table.metrics) = e := by
  rw [resolveMetric]
  cases r.metric? name table <;> simp

theorem resolveOperation_eq_error_iff {name : String} {e : HavingError} :
    resolveOperation name = .error e ↔ HavingOperation.ofName? name = none ∧
      .unknownOperation name (Text.closest? name HavingOperation.allNames) = e := by
  rw [resolveOperation]
  cases HavingOperation.ofName? name <;> simp

theorem parse_eq_ok_iff {r : Resolver} {table : Table} {text : List Char} {h : Having} :
    parse r table text = .ok h ↔ ∃ clause, Clause.ofChars text = .ok clause ∧
      r.metric? clause.subject table = some h.metric ∧
      HavingOperation.ofName? clause.operation = some h.operation ∧
      (clause.values.getD []).mapM readValue = .ok h.values ∧
      h.operation.arity.Admits h.values.length := by
  simp only [parse, bind_eq_ok_iff, mapError_eq_ok_iff, resolveMetric_eq_ok_iff,
    resolveOperation_eq_ok_iff, ofFinite_eq_ok_iff]
  constructor
  · intro parts
    obtain ⟨clause, read, metric, found, operation, named, values, all, admits, whole⟩ := parts
    subst whole
    exact ⟨clause, read, found, named, all, admits⟩
  · intro parts
    obtain ⟨clause, read, found, named, all, admits⟩ := parts
    exact ⟨clause, read, h.metric, found, h.operation, named, h.values, all, admits, rfl⟩

end Having

end AggregateQuery
