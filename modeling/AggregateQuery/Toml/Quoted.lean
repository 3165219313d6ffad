import AggregateQuery.Text.Percent
/-!
Quoted texts of TOML, on one line or over several, with escapes or without. Each reader begins
after the opening quotes and ends after the closing ones.
-/
namespace AggregateQuery.Toml

open Text

def isTextChar (c : Char) : Bool := c == '\t' || (0x20 ≤ c.toNat && c.toNat != 0x7F)

def isSpace (c : Char) : Bool := c == ' ' || c == '\t'

def ofHex? (digits : List Char) : Option Char := do
  let values ← digits.mapM Percent.hexValue?
  let n := values.foldl (fun value d => 16 * value + d) 0
  if n.isValidChar then some (Char.ofNat n) else none

def simpleEscape? (c : Char) : Option Char :=
  match c with
  | 'b' => some (Char.ofNat 8)
  | 't' => some '\t'
  | 'n' => some '\n'
  | 'f' => some (Char.ofNat 12)
  | 'r' => some '\r'
  | 'e' => some (Char.ofNat 27)
  | '"' => some '"'
  | '\\' => some '\\'
  | _ => none

def hexWidth? (c : Char) : Option Nat :=
  match c with
  | 'x' => some 2
  | 'u' => some 4
  | 'U' => some 8
  | _ => none

def readEscape? : List Char → Option (Char × Nat)
  | [] => none
  | c :: rest =>
    match simpleEscape? c with
    | some value => some (value, 1)
    | none => do
      let width ← hexWidth? c
      if rest.length < width then none
      else return (← ofHex? (rest.take width), width + 1)

/-- Reads a text with escapes on one line. `skip` characters belong to an escape already read. -/
def readBasic (skip : Nat) : List Char → Option (List Char × List Char)
  | [] => none
  | c :: rest =>
    match skip with
    | n + 1 => readBasic n rest
    | 0 =>
      if c = '"' then some ([], rest)
      else if c = '\\' then do
        let (value, width) ← readEscape? rest
        let (text, after) ← readBasic width rest
        return (value :: text, after)
      else if isTextChar c then do
        let (text, after) ← readBasic 0 rest
        return (c :: text, after)
      else none

def readLiteral : List Char → Option (List Char × List Char)
  | [] => none
  | c :: rest =>
    if c = '\'' then some ([], rest)
    else if isTextChar c then (readLiteral rest).map fun (text, after) => (c :: text, after)
    else none

def startsLine : List Char → Bool
  | '\n' :: _ => true
  | '\r' :: '\n' :: _ => true
  | _ => false

def dropLineEnd : List Char → List Char
  | '\n' :: rest => rest
  | '\r' :: '\n' :: rest => rest
  | rest => rest

/-- The end of a text over several lines, where three quotes have been found: up to two more
belong to the text. -/
def closeLines? (quote : Char) (rest : List Char) : Option (List Char × List Char) :=
  let more := (rest.take 3).takeWhile (· == quote)
  if more.length < 3 then some (more, rest.drop more.length) else none

def isLinesChar (c : Char) (rest : List Char) : Bool :=
  isTextChar c || c == '\n' || (c == '\r' && rest.head? == some '\n')

inductive LinesMode where
  | skip (count : Nat)
  /-- Blanks and line ends after a backslash at the end of a line are left out. -/
  | join

def LinesMode.leavesOut (c : Char) (rest : List Char) : LinesMode → Bool
  | skip _ => false
  | join => isSpace c || c == '\n' || (c == '\r' && rest.head? == some '\n')

def readBasicLines (mode : LinesMode) : List Char → Option (List Char × List Char)
  | [] => none
  | c :: rest =>
    match mode with
    | .skip (n + 1) => readBasicLines (.skip n) rest
    | mode =>
      if LinesMode.leavesOut c rest mode then readBasicLines .join rest
      else if c = '"' ∧ rest.take 2 = ['"', '"'] then closeLines? '"' (rest.drop 2)
      else if c = '\\' then
        if startsLine (rest.dropWhile isSpace) then readBasicLines .join rest
        else do
          let (value, width) ← readEscape? rest
          let (text, after) ← readBasicLines (.skip width) rest
          return (value :: text, after)
      else if isLinesChar c rest then do
        let (text, after) ← readBasicLines (.skip 0) rest
        return (c :: text, after)
      else none

def readLiteralLines : List Char → Option (List Char × List Char)
  | [] => none
  | c :: rest =>
    if c = '\'' ∧ rest.take 2 = ['\'', '\''] then closeLines? '\'' (rest.drop 2)
    else if isLinesChar c rest then
      (readLiteralLines rest).map fun (text, after) => (c :: text, after)
    else none

def readQuoted? : List Char → Option (List Char × List Char)
  | '"' :: rest => readBasic 0 rest
  | '\'' :: rest => readLiteral rest
  | _ => none

def readText? : List Char → Option (List Char × List Char)
  | '"' :: '"' :: '"' :: rest => readBasicLines (.skip 0) (dropLineEnd rest)
  | '\'' :: '\'' :: '\'' :: rest => readLiteralLines (dropLineEnd rest)
  | s => readQuoted? s

end AggregateQuery.Toml
