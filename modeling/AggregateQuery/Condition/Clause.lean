import AggregateQuery.Text.Basic
import AggregateQuery.Text.Percent
/-!
The written form shared by all conditions of a query: `subject-operation`, then optionally a list
of values in brackets. The names in a clause are not resolved here.
-/
namespace AggregateQuery

open Text

/-- A clause cut into its parts. `values` is `none` without brackets and empty for `[]`. -/
structure Clause where
  subject : String
  operation : String
  values : Option (List String)
  deriving DecidableEq

namespace Clause

inductive Fault where
  | empty
  | missingClosing
  | nestedOpening
  | textAfterClosing
  | emptyValue
  | badEscape (value : String)
  | notUtf8 (value : String)
  | strayClosing
  | malformedHead (head : String)
  deriving DecidableEq

def Fault.message : Fault → String
  | .empty => "empty clause"
  | .missingClosing => "missing closing bracket"
  | .nestedOpening => "nested opening bracket in value list"
  | .textAfterClosing => "unexpected text after closing bracket"
  | .emptyValue => "empty value in list (dangling comma)"
  | .badEscape value => s!"bad percent escape in value '{value}'"
  | .notUtf8 value => s!"value '{value}' is not valid UTF-8 once decoded"
  | .strayClosing => "closing bracket without opening bracket"
  | .malformedHead head =>
    s!"expected '<name>-<operation>' before the value list, found '{head}'"

/-- The characters a subject is made of. The dash is left out: the first one ends the subject. -/
def isSubjectChar (c : Char) : Bool := c != '-' && c != '[' && c != ']' && c != ',' && !isBlank c

def splitHead? (head : List Char) : Option (List Char × List Char) :=
  match cut? '-' head with
  | none => none
  | some (subject, operation) =>
    if !subject.isEmpty && subject.all isSubjectChar &&
        !operation.isEmpty && operation.all Char.isAlpha then
      some (subject, operation)
    else none

def bracketed (body : List Char) : Except Fault (List Char) :=
  match cut? ']' body with
  | none => .error .missingClosing
  | some (inner, after) =>
    if '[' ∈ inner then .error .nestedOpening
    else if after.isEmpty then .ok inner
    else .error .textAfterClosing

def decodeValue (piece : List Char) : Except Fault String :=
  if piece.isEmpty then .error .emptyValue
  else match Percent.unescape? piece with
    | none => .error (.badEscape (String.ofList piece))
    | some bytes =>
      match Percent.decodeUtf8? bytes with
      | none => .error (.notUtf8 (String.ofList piece))
      | some value => .ok (String.ofList value)

def decodeValues (inner : List Char) : Except Fault (List String) :=
  if inner.isEmpty then .ok []
  else (splitOn ',' inner).mapM fun piece => decodeValue (trim piece)

def ofHead (head : List Char) (values : Option (List String)) : Except Fault Clause :=
  if ']' ∈ head then .error .strayClosing
  else match splitHead? head with
    | none => .error (.malformedHead (String.ofList head))
    | some (subject, operation) =>
      .ok ⟨String.ofList subject, String.ofList operation, values⟩

/-- Reads a clause. The value list is looked at before the head. -/
def ofChars (text : List Char) : Except Fault Clause :=
  let clause := trim text
  if clause.isEmpty then .error .empty
  else match cut? '[' clause with
    | none => ofHead clause none
    | some (head, body) => do
      let inner ← bracketed body
      let values ← decodeValues inner
      ofHead head (some values)

def parse (text : String) : Except Fault Clause := ofChars text.toList

def encodeValues (values : List String) : List Char :=
  '[' :: joinWith ',' (values.map fun v => Percent.encode v.toList) ++ [']']

end Clause

def encodeValue (value : String) : String := String.ofList (Text.Percent.encode value.toList)

end AggregateQuery
