/-!
Values of a document, JSON or TOML alike, and how records are taken from them. A record is a table
with named fields, of which unknown ones are skipped, or else the list of its fields in order.
-/
namespace AggregateQuery

/-- The formats of documents. They differ where a value is not quite of the shape asked for. -/
inductive DocumentFormat where
  | json
  | toml
  deriving DecidableEq

inductive Datum where
  | null
  | bool
  | integer (value : Int)
  | float
  /-- A number that stands for none: out of range, or with digits that are not of its base. Only
  where it is looked at it is refused. -/
  | unusable
  | dateTime
  | string (value : String)
  | array (items : List Datum)
  | table (fields : List (String × Datum))
  deriving Inhabited

namespace Datum

def string? : Datum → Option String
  | string value => some value
  | _ => none

def char? (d : Datum) : Option Char :=
  match d.string?.map String.toList with
  | some [c] => some c
  | _ => none

def integer? : Datum → Option Int
  | integer value => some value
  | _ => none

def list? (item? : Datum → Option α) : Datum → Option (List α)
  | array items => items.mapM item?
  | _ => none

def nullable? (value? : Datum → Option α) : Datum → Option (Option α)
  | null => some none
  | d => (value? d).map some

def getOr (default : α) (value? : Datum → Option α) : Option Datum → Option α
  | none => some default
  | some d => value? d

/-- What a name without further content is followed by: null in JSON, an empty list or table in
TOML. -/
def isUnit : DocumentFormat → Datum → Bool
  | .json, null => true
  | .toml, array [] => true
  | .toml, table [] => true
  | _, _ => false

def name? (format : DocumentFormat) : Datum → Option String
  | string name => some name
  | table [(name, content)] => if content.isUnit format then some name else none
  | _ => none

/-- The value of the field with one of these names. A field under two of its names has none. -/
def field? (entries : List (String × Datum)) (names : List String) : Option (Option Datum) :=
  match entries.filter fun (name, _) => names.contains name with
  | [] => some none
  | [(_, value)] => some (some value)
  | _ => none

mutual

def isUsable : Datum → Bool
  | unusable => false
  | array items => areUsable items
  | table fields => haveUsable fields
  | _ => true

def areUsable : List Datum → Bool
  | [] => true
  | item :: rest => item.isUsable && areUsable rest

def haveUsable : List (String × Datum) → Bool
  | [] => true
  | (_, value) :: rest => value.isUsable && haveUsable rest

end

/-- The values of the fields of a record, given the names of each. Fields of a table that are not
asked for are looked at all the same. A list that goes on after the last field is refused in JSON,
and left unseen from there on in TOML. A date in TOML is a table without any of the fields. -/
def record? (format : DocumentFormat) (fields : List (List String)) :
    Datum → Option (List (Option Datum))
  | table entries =>
    if haveUsable (entries.filter fun (name, _) => fields.all (!·.contains name)) then
      fields.mapM (field? entries)
    else none
  | array items =>
    if format = .json ∧ fields.length < items.length then none
    else some ((List.range fields.length).map fun i => items[i]?)
  | dateTime => some (fields.map fun _ => none)
  | _ => none

end Datum

end AggregateQuery
