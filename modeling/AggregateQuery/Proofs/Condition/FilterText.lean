import AggregateQuery.Condition.Filter
import AggregateQuery.Proofs.Catalog.Lookup
import AggregateQuery.Proofs.Condition.ClauseText
/-!
The clauses of filters. A filter that was made once can be made again from the values it keeps, and
its clause is read back when the names in it can be told from the marks around them and none of
its values is empty. A table that exposes a dimension needs no more than that.
-/
namespace AggregateQuery

open Text

namespace FilterOperation

theorem ofName?_name (op : FilterOperation) : ofName? op.name = some op := by
  cases op <;> decide

theorem name_letters (op : FilterOperation) : ∀ c ∈ op.name.toList, c.isAlpha = true := by
  have all : op.name.toList.all Char.isAlpha = true := by cases op <;> decide
  exact List.all_eq_true.mp all

theorem name_ne_nil (op : FilterOperation) : op.name.toList ≠ [] := by
  cases op <;> decide

/-- Where order does not matter, leaving out some of several values changes nothing. -/
theorem admits_fewer {op : FilterOperation} {given kept : Nat} (unordered : op.isOrdered = false)
    (admits : op.arity.Admits given) (fewer : kept ≤ given) (some : given ≠ 0 → kept ≠ 0) :
    op.arity.Admits kept := by
  cases op
  case between => contradiction
  all_goals
    simp only [arity, Arity.Admits, Arity.min, Arity.max?, Option.mem_def, Option.some.injEq,
      reduceCtorEq, forall_eq', false_implies, implies_true, and_true] at admits ⊢
    omega

end FilterOperation

namespace Filter

theorem ofValues_eq_ok_iff {dimension : Dimension} {field : DimensionField}
    {operation : FilterOperation} {values : List String} {f : Filter} :
    ofValues dimension field operation values = .ok f ↔
      operation.arity.Admits values.length ∧ (operation.isOrdered = true → values.Nodup) ∧
        f = ⟨dimension, field, operation, distinct values⟩ := by
  rw [ofValues, ← Arity.breach?_eq_none_iff]
  constructor
  · intro made
    split at made
    · contradiction
    · contradiction
    · rename_i admitted
      split at made
      · contradiction
      · rename_i unrepeated
        obtain rfl := Except.ok.inj made
        refine ⟨admitted, ?_, rfl⟩
        intro ordered
        rw [if_pos ordered] at unrepeated
        exact (firstRepeated?_eq_none_iff.mp unrepeated).1
  · intro parts
    obtain ⟨admitted, once, rfl⟩ := parts
    have unrepeated :
        (if operation.isOrdered = true then firstRepeated? [] values else none) = none := by
      split
      · rename_i ordered
        exact firstRepeated?_eq_none_iff.mpr ⟨once ordered, by simp⟩
      · rfl
    simp [admitted, unrepeated]

theorem made_values_nodup {dimension : Dimension} {field : DimensionField}
    {operation : FilterOperation} {values : List String} {f : Filter}
    (made : ofValues dimension field operation values = .ok f) : f.values.Nodup := by
  obtain ⟨_, _, rfl⟩ := ofValues_eq_ok_iff.mp made
  exact nodup_distinct values

theorem ofValues_kept {dimension : Dimension} {field : DimensionField}
    {operation : FilterOperation} {values : List String} {f : Filter}
    (made : ofValues dimension field operation values = .ok f) :
    ofValues f.dimension f.field f.operation f.values = .ok f := by
  obtain ⟨admits, once, rfl⟩ := ofValues_eq_ok_iff.mp made
  have kept : distinct (distinct values) = distinct values :=
    distinct_of_nodup (nodup_distinct values)
  refine ofValues_eq_ok_iff.mpr ⟨?_, fun _ => nodup_distinct values, by rw [kept]⟩
  cases ordered : operation.isOrdered with
  | true => rwa [distinct_of_nodup (once ordered)]
  | false =>
    refine FilterOperation.admits_fewer ordered admits (length_distinct_le values) ?_
    intro some
    have given : values ≠ [] := by simpa using some
    simpa using distinct_ne_nil given

theorem cutSubject_eq_ok_iff {subject name : String} {field : Option String} :
    cutSubject subject = .ok (name, field) ↔
      (field = none ∧ name = subject ∧ '.' ∉ subject.toList) ∨
      (∃ inner, field = some inner ∧ subject.toList = name.toList ++ '.' :: inner.toList ∧
        '.' ∉ name.toList ∧ name ≠ "" ∧ inner ≠ "") := by
  constructor
  · intro read
    rw [cutSubject] at read
    split at read
    · rename_i uncut
      obtain ⟨rfl, rfl⟩ := Prod.mk.inj (Except.ok.inj read)
      exact Or.inl ⟨rfl, rfl, (cut?_eq_none_iff '.' _).mp uncut⟩
    · rename_i first second cut
      obtain ⟨whole, undotted⟩ := cut?_eq_some_iff.mp cut
      split at read
      · contradiction
      · rename_i someName
        split at read
        · contradiction
        · rename_i someField
          obtain ⟨rfl, rfl⟩ := Prod.mk.inj (Except.ok.inj read)
          refine Or.inr ⟨String.ofList second, rfl, ?_, ?_, ?_, ?_⟩
          · simpa using whole
          · simpa using undotted
          · simpa using someName
          · simpa using someField
  · intro either
    rcases either with ⟨rfl, rfl, undotted⟩ | ⟨inner, rfl, whole, undotted, someName, someField⟩
    · rw [cutSubject, (cut?_eq_none_iff '.' _).mpr undotted]
    · rw [cutSubject, whole, cut?_append '.' _ _ undotted]
      simp [someName, someField]

theorem resolveDimension_eq_ok_iff {r : Resolver} {table : Table} {name : String}
    {d : Dimension} : resolveDimension r table name = .ok d ↔ r.dimension? name table = some d := by
  rw [resolveDimension]
  cases r.dimension? name table <;> simp

theorem resolveField_eq_ok_iff {r : Resolver} {d : Dimension} {name : Option String}
    {field : DimensionField} :
    resolveField r d name = .ok field ↔ r.field? d name = some field := by
  rw [resolveField]
  cases r.field? d name <;> simp

theorem resolveOperation_eq_ok_iff {name : String} {operation : FilterOperation} :
    resolveOperation name = .ok operation ↔ FilterOperation.ofName? name = some operation := by
  rw [resolveOperation]
  cases FilterOperation.ofName? name <;> simp

theorem resolveDimension_eq_error_iff {r : Resolver} {table : Table} {name : String}
    {e : FilterError} : resolveDimension r table name = .error e ↔ r.dimension? name table = none ∧
      .unknownDimension name table.name (closest? name table.dimensions) = e := by
  rw [resolveDimension]
  cases r.dimension? name table <;> simp

theorem resolveOperation_eq_error_iff {name : String} {e : FilterError} :
    resolveOperation name = .error e ↔ FilterOperation.ofName? name = none ∧
      .unknownOperation name (closest? name FilterOperation.allNames) = e := by
  rw [resolveOperation]
  cases FilterOperation.ofName? name <;> simp

theorem parse_eq_ok_iff {r : Resolver} {table : Table} {text : List Char} {f : Filter} :
    parse r table text = .ok f ↔ ∃ clause name field, Clause.ofChars text = .ok clause ∧
      cutSubject clause.subject = .ok (name, field) ∧ r.dimension? name table = some f.dimension ∧
      r.field? f.dimension field = some f.field ∧
      FilterOperation.ofName? clause.operation = some f.operation ∧
      ofValues f.dimension f.field f.operation (clause.values.getD []) = .ok f := by
  simp only [parse, bind_eq_ok_iff, mapError_eq_ok_iff, resolveDimension_eq_ok_iff,
    resolveField_eq_ok_iff, resolveOperation_eq_ok_iff]
  constructor
  · intro parts
    obtain ⟨clause, read, ⟨name, field⟩, cut, dimension, found, inner, known, parts⟩ := parts
    obtain ⟨operation, named, made⟩ := parts
    obtain ⟨_, _, rfl⟩ := ofValues_eq_ok_iff.mp made
    exact ⟨clause, name, field, read, cut, found, known, named, made⟩
  · intro parts
    obtain ⟨clause, name, field, read, cut, found, known, named, made⟩ := parts
    exact ⟨clause, read, (name, field), cut, f.dimension, found, f.field, known, f.operation,
      named, made⟩

end Filter

end AggregateQuery
