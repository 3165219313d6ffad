import AggregateQuery.Catalog.Table
import AggregateQuery.Condition.Clause
import AggregateQuery.Condition.Operation
import AggregateQuery.Text.Distance
/-!
Filters, conditions on the values of a dimension field, written
`dimension.field-operation[value,...]`. Without a field the key field is meant.
-/
namespace AggregateQuery

open Text

inductive FilterError where
  | unknownDimension (name table : String) (suggestion : Option String)
  | unknownField (dimension field : String) (known : List String)
  | unknownOperation (operation : String) (suggestion : Option String)
  | malformed (fault : Clause.Fault)
  | missingDimension
  | missingField (dimension : String)
  | tooFewValues (operation : FilterOperation) (required actual : Nat)
  | tooManyValues (operation : FilterOperation) (allowed actual : Nat)
  | identicalBounds (operation : FilterOperation) (value : String)
  deriving DecidableEq

namespace FilterError

def message : FilterError → String
  | unknownDimension name table suggestion =>
    s!"Unknown dimension '{name}' for table '{table}'" ++ hint suggestion
  | unknownField dimension field known =>
    s!"Unknown field '{field}' for dimension '{dimension}'. Known fields: " ++
      ", ".intercalate known
  | unknownOperation operation suggestion =>
    s!"Unknown filter operation '{operation}'" ++ hint suggestion
  | malformed fault => s!"Malformed filter syntax: {fault.message}"
  | missingDimension => "Malformed filter syntax: missing dimension name"
  | missingField dimension =>
    s!"Malformed filter syntax: missing field name after '{dimension}.'"
  | tooFewValues operation required actual =>
    s!"Filter operation '{operation.name}' requires at least {required} value(s), got {actual}"
  | tooManyValues operation allowed actual =>
    s!"Filter operation '{operation.name}' accepts at most {allowed} value(s), got {actual}"
  | identicalBounds operation value =>
    s!"Filter operation '{operation.name}' needs distinct bounds, got '{value}' twice"

end FilterError

structure Filter where
  dimension : Dimension
  field : DimensionField
  operation : FilterOperation
  values : List String

namespace Filter

/-- Filters are equal when they ask the same: the order of values matters to ranges only. -/
instance : BEq Filter where
  beq a b := a.dimension == b.dimension && a.field == b.field && a.operation == b.operation &&
    if a.operation.isOrdered then a.values == b.values else sameElements a.values b.values

def identity (f : Filter) : String × (String × String) × FilterOperation × List String :=
  (f.dimension.name, f.field.identity, f.operation,
    if f.operation.isOrdered then f.values
    else f.values.mergeSort fun a b => decide (a ≤ b))

/-- The filter with these values, of which each is kept once. Their number counts as given, and
the bounds of a range must differ. -/
def ofValues (dimension : Dimension) (field : DimensionField) (operation : FilterOperation)
    (values : List String) : Except FilterError Filter :=
  match operation.arity.breach? values.length with
  | some (.tooFew required) => .error (.tooFewValues operation required values.length)
  | some (.tooMany allowed) => .error (.tooManyValues operation allowed values.length)
  | none =>
    match if operation.isOrdered then firstRepeated? [] values else none with
    | some value => .error (.identicalBounds operation value)
    | none => .ok ⟨dimension, field, operation, distinct values⟩

def cutSubject (subject : String) : Except FilterError (String × Option String) :=
  match cut? '.' subject.toList with
  | none => .ok (subject, none)
  | some (dimension, field) =>
    if dimension.isEmpty then .error .missingDimension
    else if field.isEmpty then .error (.missingField (String.ofList dimension))
    else .ok (String.ofList dimension, some (String.ofList field))

def resolveDimension (r : Resolver) (table : Table) (name : String) :
    Except FilterError Dimension :=
  match r.dimension? name table with
  | some dimension => .ok dimension
  | none => .error (.unknownDimension name table.name (closest? name table.dimensions))

def resolveField (r : Resolver) (dimension : Dimension) (name : Option String) :
    Except FilterError DimensionField :=
  match r.field? dimension name with
  | some field => .ok field
  | none => .error (.unknownField dimension.name (name.getD "") dimension.fieldNames)

def resolveOperation (name : String) : Except FilterError FilterOperation :=
  match FilterOperation.ofName? name with
  | some operation => .ok operation
  | none => .error (.unknownOperation name (closest? name FilterOperation.allNames))

/-- Reads a filter in the scope of a table. Names are resolved from left to right, and the values
are counted last. -/
def parse (r : Resolver) (table : Table) (text : List Char) : Except FilterError Filter := do
  let clause ← (Clause.ofChars text).mapError .malformed
  let (dimensionName, fieldName) ← cutSubject clause.subject
  let dimension ← resolveDimension r table dimensionName
  let field ← resolveField r dimension fieldName
  let operation ← resolveOperation clause.operation
  ofValues dimension field operation (clause.values.getD [])

def chars (f : Filter) : List Char :=
  f.dimension.name.toList ++ '.' :: f.field.name.toList ++ '-' :: f.operation.name.toList ++
    if f.operation.arity = .nullary then [] else Clause.encodeValues f.values

instance : ToString Filter := ⟨fun f => String.ofList f.chars⟩

def json (f : Filter) : Json :=
  .object [("dimension", .string f.dimension.name), ("field", .string f.field.name),
    ("operation", .string f.operation.name), ("values", Json.strings f.values)]

end Filter

end AggregateQuery
