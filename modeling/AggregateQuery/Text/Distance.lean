import AggregateQuery.Text.Basic
/-!
Edit distance between names, and the suggestion made for a name that is not known.
-/
namespace AggregateQuery.Text

/-- One more row of the distance table: `row` holds the distances of a text to `target` and to
each of its suffixes, longest first; the result holds those of the text with `c` in front. -/
def distanceRow (c : Char) : List Char → List Nat → List Nat
  | t :: target, here :: next :: row =>
    let rest := distanceRow c target (next :: row)
    let swap := if c = t then next else next + 1
    min swap (min (here + 1) (rest.headD 0 + 1)) :: rest
  | _, row => row.map (· + 1)

def distances (target : List Char) : List Char → List Nat
  | [] => (List.range (target.length + 1)).reverse
  | c :: rest => distanceRow c target (distances target rest)

def distance (a b : List Char) : Nat := (distances b a).headD 0

def nameDistance (a b : String) : Nat := distance (lower a.toList) (lower b.toList)

def suggestionLimit : Nat := 3

/-- The nearer of the best name so far and a candidate; the earlier one when they are equally
near. -/
def keepNearer (name : String) (best : Option (Nat × String)) (candidate : String) :
    Option (Nat × String) :=
  let d := nameDistance name candidate
  if suggestionLimit < d then best
  else match best with
    | some (least, _) => if least ≤ d then best else some (d, candidate)
    | none => some (d, candidate)

def closest? (name : String) (candidates : List String) : Option String :=
  (candidates.foldl (keepNearer name) none).map Prod.snd

def hint : Option String → String
  | none => ""
  | some name => s!". Did you mean '{name}'?"

end AggregateQuery.Text
