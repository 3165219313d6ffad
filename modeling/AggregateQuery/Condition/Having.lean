import AggregateQuery.Catalog.Table
import AggregateQuery.Condition.Clause
import AggregateQuery.Condition.Operation
import AggregateQuery.Text.Distance
/-!
Havings, conditions on the value of a metric, written `metric-operation[number,...]`.
-/
namespace AggregateQuery

open Text

inductive HavingError where
  | unknownMetric (name table : String) (suggestion : Option String)
  | unknownOperation (operation : String) (suggestion : Option String)
  | malformed (fault : Clause.Fault)
  | notFinite (value : String)
  | tooFewValues (operation : HavingOperation) (required actual : Nat)
  | tooManyValues (operation : HavingOperation) (allowed actual : Nat)
  deriving DecidableEq

namespace HavingError

def message : HavingError → String
  | unknownMetric name table suggestion =>
    s!"Unknown metric '{name}' for table '{table}'" ++ hint suggestion
  | unknownOperation operation suggestion =>
    s!"Unknown having operation '{operation}'" ++ hint suggestion
  | malformed fault => s!"Malformed having syntax: {fault.message}"
  | notFinite value => s!"Having value '{value}' is not a finite number"
  | tooFewValues operation required actual =>
    s!"Having operation '{operation.name}' requires at least {required} value(s), got {actual}"
  | tooManyValues operation allowed actual =>
    s!"Having operation '{operation.name}' accepts at most {allowed} value(s), got {actual}"

end HavingError

structure Having where
  metric : Metric
  operation : HavingOperation
  values : List Binary64

namespace Having

instance : BEq Having where
  beq a b := a.metric == b.metric && a.operation == b.operation && a.values == b.values

/-- What havings are told apart by. A zero counts without its sign. -/
def identity (h : Having) : String × HavingOperation × List (Bool × Nat) :=
  (h.metric.name, h.operation,
    h.values.map fun v => (v.unsignedZero.negative, v.unsignedZero.code))

def ofFinite (metric : Metric) (operation : HavingOperation) (values : List Binary64) :
    Except HavingError Having :=
  match operation.arity.breach? values.length with
  | some (.tooFew required) => .error (.tooFewValues operation required values.length)
  | some (.tooMany allowed) => .error (.tooManyValues operation allowed values.length)
  | none => .ok ⟨metric, operation, values⟩

def finiteValue (number : Number) : Except HavingError Binary64 :=
  match number.finite? with
  | some value => .ok value
  | none => .error (.notFinite (String.ofList number.chars))

def ofNumbers (metric : Metric) (operation : HavingOperation) (numbers : List Number) :
    Except HavingError Having := do
  ofFinite metric operation (← numbers.mapM finiteValue)

def readValue (text : String) : Except HavingError Binary64 :=
  match (Number.parse? (trim text.toList)).bind Number.finite? with
  | some value => .ok value
  | none => .error (.notFinite text)

def resolveMetric (r : Resolver) (table : Table) (name : String) : Except HavingError Metric :=
  match r.metric? name table with
  | some metric => .ok metric
  | none => .error (.unknownMetric name table.name (closest? name table.metrics))

def resolveOperation (name : String) : Except HavingError HavingOperation :=
  match HavingOperation.ofName? name with
  | some operation => .ok operation
  | none => .error (.unknownOperation name (closest? name HavingOperation.allNames))

def parse (r : Resolver) (table : Table) (text : List Char) : Except HavingError Having := do
  let clause ← (Clause.ofChars text).mapError .malformed
  let metric ← resolveMetric r table clause.subject
  let operation ← resolveOperation clause.operation
  let values ← (clause.values.getD []).mapM readValue
  ofFinite metric operation values

def chars (h : Having) : List Char :=
  h.metric.name.toList ++ '-' :: h.operation.name.toList ++
    '[' :: joinWith ',' (h.values.map Binary64.chars) ++ [']']

instance : ToString Having := ⟨fun h => String.ofList h.chars⟩

def json (h : Having) : Json :=
  .object [("metric", .string h.metric.name), ("operation", .string h.operation.name),
    ("values", .array (h.values.map Json.number))]

end Having

end AggregateQuery
