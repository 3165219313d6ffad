import AggregateQuery.Catalog.Table
/-!
The catalog of a schema, built from definitions that are checked on the way: names are given once,
and a table lists only what is defined.
-/
namespace AggregateQuery

structure DimensionDefinition where
  name : String
  keyField : String := "id"
  fields : List String := []
  description : Option String := none

structure MetricDefinition where
  name : String
  category : Option String := none
  description : Option String := none

structure TableDefinition where
  name : String
  granularities : List Granularity := []
  dimensions : List String := []
  metrics : List String := []

structure SchemaDefinition where
  dimensions : List DimensionDefinition := []
  metrics : List MetricDefinition := []
  tables : List TableDefinition := []

def DimensionDefinition.toDimension (d : DimensionDefinition) : Dimension :=
  .ofFields d.name d.keyField d.fields d.description

def MetricDefinition.toMetric (d : MetricDefinition) : Metric :=
  ⟨d.name, d.category, d.description⟩

def TableDefinition.toTable (d : TableDefinition) : Table :=
  .ofLists d.name d.granularities d.dimensions d.metrics

inductive Entity where
  | dimension
  | metric
  | table
  deriving DecidableEq

def Entity.name : Entity → String
  | .dimension => "dimension"
  | .metric => "metric"
  | .table => "table"

inductive CatalogError where
  | duplicateName (entity : Entity) (name : String)
  | undefinedReference (table : String) (entity : Entity) (name : String)
  deriving DecidableEq

def CatalogError.message : CatalogError → String
  | .duplicateName entity name => s!"Duplicate {entity.name} name: '{name}'"
  | .undefinedReference table entity name =>
    s!"Table '{table}' references undefined {entity.name} '{name}'"

structure Catalog where
  dimensions : List Dimension
  metrics : List Metric
  tables : List Table

namespace Catalog

def dimension? (c : Catalog) (name : String) : Option Dimension :=
  c.dimensions.find? fun d => d.name == name

def metric? (c : Catalog) (name : String) : Option Metric :=
  c.metrics.find? fun m => m.name == name

def table? (c : Catalog) (name : String) : Option Table :=
  c.tables.find? fun t => t.name == name

def sorted (names : List String) : List String := names.mergeSort fun a b => decide (a ≤ b)

def tableNames (c : Catalog) : List String := sorted (c.tables.map Table.name)

def dimensionNames (c : Catalog) : List String := sorted (c.dimensions.map Dimension.name)

def resolver (c : Catalog) : Resolver where
  table? := c.table?
  dimension? name table := if table.supportsDimension name then c.dimension? name else none
  metric? name table := if table.supportsMetric name then c.metric? name else none
  anyDimension? := c.dimension?
  knownTables := c.tableNames
  knownDimensions := c.dimensionNames

def checkUnique (entity : Entity) (names : List String) : Except CatalogError Unit :=
  match firstRepeated? [] names with
  | some name => .error (.duplicateName entity name)
  | none => .ok ()

def checkDefined (table : String) (entity : Entity) (defined listed : List String) :
    Except CatalogError Unit :=
  match listed.find? fun name => !defined.contains name with
  | some name => .error (.undefinedReference table entity name)
  | none => .ok ()

/-- Checks the tables in turn: what each lists, and then its own name. -/
def checkTables (dimensions metrics : List String) :
    List String → List TableDefinition → Except CatalogError Unit
  | _, [] => .ok ()
  | earlier, table :: rest => do
    checkDefined table.name .dimension dimensions table.dimensions
    checkDefined table.name .metric metrics table.metrics
    if earlier.contains table.name then .error (.duplicateName .table table.name)
    else checkTables dimensions metrics (table.name :: earlier) rest

def check (d : SchemaDefinition) : Except CatalogError Unit := do
  let dimensions := d.dimensions.map DimensionDefinition.name
  let metrics := d.metrics.map MetricDefinition.name
  checkUnique .dimension dimensions
  checkUnique .metric metrics
  checkTables dimensions metrics [] d.tables

def ofDefinition (d : SchemaDefinition) : Except CatalogError Catalog := do
  check d
  return ⟨d.dimensions.map DimensionDefinition.toDimension,
    d.metrics.map MetricDefinition.toMetric, d.tables.map TableDefinition.toTable⟩

end Catalog

end AggregateQuery
