import AggregateQuery.CommandLine.Arguments
import AggregateQuery.Settings.Load
/-!
What the program does: reads a request against a schema and shows it as JSON, or lists the schema.
-/
namespace AggregateQuery.CommandLine

structure Outcome where
  exit : Nat
  stdout : String
  stderr : String
  deriving DecidableEq

namespace Outcome

def success (stdout : String) : Outcome := ⟨0, stdout, ""⟩

def failure (message : String) : Outcome := ⟨1, "", message ++ "\n"⟩

def usage : Outcome := ⟨2, "", "usage"⟩

def ofResult : Except String Json → Outcome
  | .ok json => success (json.indented 0 ++ "\n")
  | .error message => failure ("Error: " ++ message)

end Outcome

def versionText : String := "bard 0.1.0\n"

def tableLines (c : Catalog) (t : Table) : List String :=
  let dimensionLine (name : String) :=
    let fields := ((c.dimension? name).map Dimension.fieldNames).getD []
    s!"    - {name} (" ++ ", ".intercalate fields ++ ")"
  let metricLine (name : String) :=
    match (c.metric? name).bind Metric.category with
    | some category => s!"    - {name} [{category}]"
    | none => s!"    - {name}"
  [t.name, "  granularities: " ++ ", ".intercalate (t.granularities.map toString),
    "  dimensions:"] ++ t.dimensions.map dimensionLine ++
    ["  metrics:"] ++ t.metrics.map metricLine ++ [""]

def listing (c : Catalog) : String :=
  let tables := c.tableNames.filterMap c.table?
  String.join ((tables.flatMap (tableLines c)).map (· ++ "\n"))

def perform (c : Catalog) (settings : Settings) : Command → Outcome
  | .parse p => .ofResult do
    let request ← (p.toDataRequest c.resolver settings).mapError RequestError.message
    return request.json
  | .validate p => .ofResult do
    let request ← (p.toDataRequest c.resolver settings).mapError RequestError.message
    return (← request.validated.mapError DataRequest.violationsMessage).json
  | .dimension name p => .ofResult do
    let request ← (p.toDimensionRequest c.resolver settings name).mapError RequestError.message
    return request.json
  | .schema => .success (listing c)

variable [Monad m]

def schemaPath (machine : Machine m) (settings : Settings) (given : Option String) :
    m (Except String String) := do
  match given with
  | some path => return .ok path
  | none =>
    match ← settings.resolvedSchemaPath machine with
    | .error e => return .error s!"Error resolving schema path: {e.message}"
    | .ok none => return .error "No schema given: pass --schema or set [schema].path"
    | .ok (some path) => return .ok path

def loadCatalog (machine : Machine m) (settings : Settings) (given : Option String) :
    m (Except String Catalog) := do
  match ← schemaPath machine settings given with
  | .error message => return .error message
  | .ok path =>
    return (← Catalog.ofFile machine path).mapError fun e =>
      s!"Error loading schema '{path}': {e.message}"

def run (machine : Machine m) (arguments : List String) : m Outcome := do
  match parse? arguments with
  | none => return .usage
  | some .version => return .success versionText
  | some (.run given command) =>
    match ← Settings.load machine with
    | .error e => return .failure s!"Error loading settings: {e.message}"
    | .ok settings =>
      match ← loadCatalog machine settings given with
      | .error message => return .failure message
      | .ok catalog => return perform catalog settings command

end AggregateQuery.CommandLine
