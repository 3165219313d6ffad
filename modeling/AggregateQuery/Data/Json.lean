import AggregateQuery.Number.Decimal
/-!
JSON values and their two written forms. The fields of an object keep their order.
-/
namespace AggregateQuery

inductive Json where
  | null
  | bool (value : Bool)
  | integer (value : Int)
  | number (value : Binary64)
  | string (value : String)
  | array (items : List Json)
  | object (fields : List (String × Json))

namespace Json

def ofOption (encode : α → Json) : Option α → Json
  | none => null
  | some value => encode value

def strings (values : List String) : Json := array (values.map string)

def quoteChar (c : Char) : List Char :=
  if c = '"' then ['\\', '"']
  else if c = '\\' then ['\\', '\\']
  else if c = '\n' then ['\\', 'n']
  else if c = '\r' then ['\\', 'r']
  else if c = '\t' then ['\\', 't']
  else if c.toNat = 8 then ['\\', 'b']
  else if c.toNat = 12 then ['\\', 'f']
  else if c.toNat < 0x20 then
    ['\\', 'u', '0', '0', Nat.digitChar (c.toNat / 16), Nat.digitChar (c.toNat % 16)]
  else [c]

def quote (s : String) : String := String.ofList ('"' :: s.toList.flatMap quoteChar ++ ['"'])

def enclose (opening closing : String) (parts : List String) : String :=
  opening ++ ",".intercalate parts ++ closing

def encloseLines (opening closing : String) (depth : Nat) (parts : List String) : String :=
  if parts.isEmpty then opening ++ closing
  else
    let margin := "\n" ++ String.ofList (List.replicate (2 * depth) ' ')
    opening ++ ",".intercalate (parts.map fun part => margin ++ "  " ++ part) ++ margin ++ closing

def atom? : Json → Option String
  | null => some "null"
  | bool value => some (if value then "true" else "false")
  | integer value => some (String.ofList (intChars value))
  | number value => some (String.ofList (NumberLayout.json.write value))
  | string value => some (quote value)
  | array _ => none
  | object _ => none

mutual

def compact : Json → String
  | array items => enclose "[" "]" (compactItems items)
  | object fields => enclose "\x7b" "\x7d" (compactFields fields)
  | value => value.atom?.getD ""

def compactItems : List Json → List String
  | [] => []
  | item :: items => item.compact :: compactItems items

def compactFields : List (String × Json) → List String
  | [] => []
  | (name, value) :: fields => (quote name ++ ":" ++ value.compact) :: compactFields fields

end

mutual

def indented (depth : Nat) : Json → String
  | array items => encloseLines "[" "]" depth (indentedItems (depth + 1) items)
  | object fields => encloseLines "\x7b" "\x7d" depth (indentedFields (depth + 1) fields)
  | value => value.atom?.getD ""

def indentedItems (depth : Nat) : List Json → List String
  | [] => []
  | item :: items => item.indented depth :: indentedItems depth items

def indentedFields (depth : Nat) : List (String × Json) → List String
  | [] => []
  | (name, value) :: fields =>
    (quote name ++ ": " ++ value.indented depth) :: indentedFields depth fields

end

end Json

end AggregateQuery
