import AggregateQuery.Condition.Filter
import AggregateQuery.Condition.Having
import AggregateQuery.Data.Grouped
/-!
Lists of conditions, as a query gives them: clauses between delimiters, grouped by what they
constrain.
-/
namespace AggregateQuery

open Text

structure ClauseFailure (ε : Type) where
  index : Nat
  clause : String
  cause : ε
  deriving DecidableEq

/-- Reads clauses in turn, numbered from `index`. The first failure ends the reading. -/
def readClauses (read : List Char → Except ε α) :
    Nat → List (List Char) → Except (ClauseFailure ε) (List α)
  | _, [] => .ok []
  | index, clause :: rest =>
    match read clause with
    | .error cause => .error ⟨index, String.ofList clause, cause⟩
    | .ok value => (readClauses read (index + 1) rest).map (value :: ·)

def readConditions [BEq κ] [BEq α] (read : List Char → Except ε α) (key : α → κ)
    (delimiter : Char) (query : String) : Except (ClauseFailure ε) (Grouped κ α) :=
  (readClauses read 0 (entries delimiter query.toList)).map fun conditions =>
    .ofPairs (conditions.map fun condition => (key condition, condition))

abbrev Filters := Grouped Dimension Filter

namespace Filters

def parse (r : Resolver) (table : Table) (delimiter : Char) (query : String) :
    Except (ClauseFailure FilterError) Filters :=
  readConditions (Filter.parse r table) Filter.dimension delimiter query

def merge (existing : Filters) (r : Resolver) (table : Table) (delimiter : Char)
    (query : String) : Except (ClauseFailure FilterError) Filters :=
  (parse r table delimiter query).map existing.union

def queryChars (delimiter : Char) (fs : Filters) : List Char :=
  joinWith delimiter (fs.values.map Filter.chars)

def query (delimiter : Char) (fs : Filters) : String := String.ofList (fs.queryChars delimiter)

def json (fs : Filters) : Json :=
  .object (fs.groups.map fun (d, filters) => (d.name, .array (filters.map Filter.json)))

end Filters

abbrev Havings := Grouped Metric Having

namespace Havings

def parse (r : Resolver) (table : Table) (delimiter : Char) (query : String) :
    Except (ClauseFailure HavingError) Havings :=
  readConditions (Having.parse r table) Having.metric delimiter query

def merge (existing : Havings) (r : Resolver) (table : Table) (delimiter : Char)
    (query : String) : Except (ClauseFailure HavingError) Havings :=
  (parse r table delimiter query).map existing.union

def json (hs : Havings) : Json :=
  .object (hs.groups.map fun (m, havings) => (m.name, .array (havings.map Having.json)))

end Havings

end AggregateQuery
