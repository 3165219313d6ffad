import AggregateQuery.Data.Grouped
import AggregateQuery.Data.Json
import AggregateQuery.Time.Grain
/-!
What queries ask for: dimensions, by whose fields rows are grouped and filtered; metrics, which are
the numbers that are computed; and tables, which say what can be asked for together. A resolver is
what reading a query needs to know of a schema.
-/
namespace AggregateQuery

structure DimensionField where
  dimension : String
  name : String
  description : Option String

namespace DimensionField

instance : BEq DimensionField where
  beq a b := a.dimension == b.dimension && a.name == b.name

def identity (f : DimensionField) : String × String := (f.dimension, f.name)

def json (f : DimensionField) : Json :=
  .object ([("dimension", .string f.dimension), ("name", .string f.name)] ++
    (f.description.map fun text => ("description", Json.string text)).toList)

end DimensionField

structure Dimension where
  name : String
  description : Option String
  key : String
  others : List String

namespace Dimension

instance : BEq Dimension where
  beq a b := a.name == b.name

def fieldNames (d : Dimension) : List String := d.key :: d.others

def ofFields (name key : String) (fields : List String) (description : Option String) :
    Dimension :=
  ⟨name, description, key, (distinct (key :: fields)).tail⟩

def fieldNamed (d : Dimension) (name : String) : DimensionField := ⟨d.name, name, none⟩

def fields (d : Dimension) : List DimensionField := d.fieldNames.map d.fieldNamed

def hasField (d : Dimension) (name : String) : Bool := d.fieldNames.contains name

def field? (d : Dimension) (name : String) : Option DimensionField :=
  if d.hasField name then some (d.fieldNamed name) else none

def keyField (d : Dimension) : DimensionField := d.fieldNamed d.key

def fieldOrKey? (d : Dimension) : Option String → Option DimensionField
  | none => some d.keyField
  | some name => d.field? name

def json (d : Dimension) : Json :=
  .object ([("name", .string d.name)] ++
    (d.description.map fun text => ("description", Json.string text)).toList ++
    [("key_field", .string d.key), ("fields", .array (d.fields.map DimensionField.json))])

end Dimension

structure Metric where
  name : String
  category : Option String
  description : Option String

namespace Metric

instance : BEq Metric where
  beq a b := a.name == b.name

def ratioCategory : String := "Ratios"

def isRatio (m : Metric) : Bool := m.category == some ratioCategory

def json (m : Metric) : Json :=
  .object ([("name", .string m.name)] ++
    (m.category.map fun text => ("category", Json.string text)).toList ++
    (m.description.map fun text => ("description", Json.string text)).toList)

end Metric

structure Table where
  name : String
  granularities : List Granularity
  dimensions : List String
  metrics : List String

namespace Table

def empty (name : String) : Table := ⟨name, [], [], []⟩

/-- A table with each entry once. The zone of a granularity does not matter to a table. -/
def ofLists (name : String) (granularities : List Granularity) (dimensions metrics : List String) :
    Table :=
  ⟨name, distinct (granularities.map Granularity.withoutZone), distinct dimensions,
    distinct metrics⟩

/-- The table that exposes one dimension only, in which its filters are resolved. -/
def scopeOf (d : Dimension) : Table := ofLists d.name [.all] [d.name] []

def supportsGranularity (t : Table) (g : Granularity) : Bool :=
  t.granularities.contains g.withoutZone

def supportsDimension (t : Table) (name : String) : Bool := t.dimensions.contains name

def supportsMetric (t : Table) (name : String) : Bool := t.metrics.contains name

instance : BEq Table where
  beq a b := a.name == b.name && sameElements a.granularities b.granularities &&
    sameElements a.dimensions b.dimensions && sameElements a.metrics b.metrics

def json (t : Table) : Json :=
  .object [("name", .string t.name),
    ("granularities", Json.strings (t.granularities.map toString)),
    ("dimensions", Json.strings t.dimensions),
    ("metrics", Json.strings t.metrics)]

end Table

structure Resolver where
  table? : String → Option Table
  dimension? : String → Table → Option Dimension
  metric? : String → Table → Option Metric
  anyDimension? : String → Option Dimension := fun _ => none
  knownTables : List String := []
  knownDimensions : List String := []
  field? : Dimension → Option String → Option DimensionField := Dimension.fieldOrKey?

namespace Resolver

/-- The same tables, and nothing known beyond them. -/
def tablesOnly (r : Resolver) : Resolver where
  table? := r.table?
  dimension? := r.dimension?
  metric? := r.metric?

end Resolver

end AggregateQuery
