/-!
Texts as lists of characters: blanks around them, keywords in any letter case, and texts cut at a
character. In a list whose entries may hold bracketed lists of their own, a delimiter counts only
outside brackets; a closing bracket without an opening one leaves the depth at zero.
-/
namespace AggregateQuery.Text

/-- The characters with the Unicode property White_Space. -/
def isBlank (c : Char) : Bool :=
  let n := c.toNat
  (9 ≤ n && n ≤ 13) || n == 0x20 || n == 0x85 || n == 0xA0 || n == 0x1680 ||
    (0x2000 ≤ n && n ≤ 0x200A) || n == 0x2028 || n == 0x2029 || n == 0x202F || n == 0x205F ||
    n == 0x3000

def trimStart (s : List Char) : List Char := s.dropWhile isBlank

def trimEnd (s : List Char) : List Char := (s.reverse.dropWhile isBlank).reverse

def trim (s : List Char) : List Char := trimEnd (trimStart s)

def isBlankText (s : List Char) : Bool := s.all isBlank

/-- Small letters for A to Z. `Char.toLower` leaves all other characters alone. -/
def lower (s : List Char) : List Char := s.map Char.toLower

def sameKeyword (a b : List Char) : Bool := lower a == lower b

theorem mem_lower {c : Char} {s : List Char} (caseless : c.toLower = c) (member : c ∈ s) :
    c ∈ lower s := List.mem_map.mpr ⟨c, member, caseless⟩

theorem not_sameKeyword {c : Char} {a b : List Char} (caseless : c.toLower = c) (member : c ∈ a)
    (absent : c ∉ lower b) : sameKeyword a b = false := by
  refine beq_false_of_ne fun same => absent ?_
  rw [← same]
  exact mem_lower caseless member

def cut? (mark : Char) : List Char → Option (List Char × List Char)
  | [] => none
  | c :: rest =>
    if c = mark then some ([], rest)
    else (cut? mark rest).map fun (before, after) => (c :: before, after)

def consHead (c : Char) : List (List Char) → List (List Char)
  | [] => [[c]]
  | piece :: pieces => (c :: piece) :: pieces

def splitOn (mark : Char) : List Char → List (List Char)
  | [] => [[]]
  | c :: rest => if c = mark then [] :: splitOn mark rest else consHead c (splitOn mark rest)

def joinWith (mark : Char) (pieces : List (List Char)) : List Char := [mark].intercalate pieces

def nesting (depth : Nat) (c : Char) : Nat :=
  if c = '[' then depth + 1 else if c = ']' then depth - 1 else depth

def depthAfter (depth : Nat) (s : List Char) : Nat := s.foldl nesting depth

/-- Brackets are never delimiters, not even when they are asked to be. -/
def endsPiece (delimiter : Char) (depth : Nat) (c : Char) : Bool :=
  c == delimiter && depth == 0 && c != '[' && c != ']'

def splitOutside (delimiter : Char) (depth : Nat) : List Char → List (List Char)
  | [] => [[]]
  | c :: rest =>
    if endsPiece delimiter depth c then [] :: splitOutside delimiter depth rest
    else consHead c (splitOutside delimiter (nesting depth c) rest)

/-- The trimmed entries of a list. A blank text has none; otherwise a trailing delimiter leaves
an empty last entry. -/
def entries (delimiter : Char) (s : List Char) : List (List Char) :=
  if isBlankText s then [] else (splitOutside delimiter 0 s).map trim

end AggregateQuery.Text
