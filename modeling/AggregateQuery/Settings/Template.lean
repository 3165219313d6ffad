import AggregateQuery.Text.Alphanumeric
/-!
Texts with variables, written `$NAME` or with the name in braces. What a variable stands for is
not looked at again.
-/
namespace AggregateQuery

inductive TemplatePart where
  | char (c : Char)
  | reference (name : String)
  deriving DecidableEq

namespace Template

def isNameChar (c : Char) : Bool := Text.isAlphanumeric c || c == '_'

/-- A reference to a variable, or only the dollar sign when the name is empty. -/
def partOfName (name : List Char) : TemplatePart :=
  if name.isEmpty then .char '$' else .reference (String.ofList name)

/-- Cuts a text into characters and variables. A name in braces may hold anything but the closing
one, and ends with the text if there is none. -/
def parts : List Char → List TemplatePart
  | [] => []
  | c :: rest =>
    if c = '$' then
      if rest.head? = some '\x7b' then
        let body := rest.drop 1
        partOfName (body.takeWhile (· != '\x7d')) :: parts ((body.dropWhile (· != '\x7d')).drop 1)
      else partOfName (rest.takeWhile isNameChar) :: parts (rest.dropWhile isNameChar)
    else .char c :: parts rest
termination_by s => s.length
decreasing_by
  · have := (List.dropWhile_sublist (· != '\x7d') (l := rest.drop 1)).length_le
    simp only [List.length_drop, List.length_cons] at *
    omega
  · have := (List.dropWhile_sublist isNameChar (l := rest)).length_le
    simp only [List.length_cons]
    omega
  · simp

def name? : TemplatePart → Option String
  | .char _ => none
  | .reference name => some name

def names (text : String) : List String := (parts text.toList).filterMap name?

def fill (environment : String → Option String) : List TemplatePart → Except String (List Char)
  | [] => .ok []
  | .char c :: rest => (fill environment rest).map (c :: ·)
  | .reference name :: rest =>
    match environment name with
    | none => .error name
    | some value => (fill environment rest).map (value.toList ++ ·)

def expand (environment : String → Option String) (text : String) : Except String String :=
  (fill environment (parts text.toList)).map String.ofList

end Template

end AggregateQuery
