import AggregateQuery.Data.Document
import AggregateQuery.Number.Decimal
import AggregateQuery.Text.Percent
import AggregateQuery.Text.Basic
import AggregateQuery.Time.Calendar
/-!
The simple values of TOML that are written without quotes: booleans, numbers, dates and times.
-/
namespace AggregateQuery.Toml

open Text

def cutSign : List Char → List Char × List Char
  | '+' :: rest => (['+'], rest)
  | '-' :: rest => (['-'], rest)
  | rest => ([], rest)

def withoutUnderscores? (isDigit : Char → Bool) (s : List Char) : Option (List Char) :=
  let groups := splitOn '_' s
  if groups.all (fun group => group.head?.any isDigit) &&
      groups.dropLast.all (fun group => group.getLast?.any isDigit) then some groups.flatten
  else none

/-- The digits of all bases. In an integer underscores stand between any of them. -/
def isBaseDigit (c : Char) : Bool := (Percent.hexValue? c).isSome

/-- Integers have up to 128 bits, those below zero with their sign. -/
def isIntegerInRange (n : Int) : Bool :=
  if n < 0 then n.natAbs ≤ Nat.pow 2 127 else n.natAbs < Nat.pow 2 128

def ofInteger (n : Int) : Datum := if isIntegerInRange n then .integer n else .unusable

/-- The integer with these digits after the mark of a base. There may be none. -/
def ofBase? (base : Nat) (s : List Char) : Option Datum :=
  if s.isEmpty then some .unusable
  else do
    let digits ← withoutUnderscores? isBaseDigit s
    let values ← digits.mapM fun c => (Percent.hexValue? c).filter (· < base)
    return ofInteger (values.foldl (fun value d => base * value + d) 0 : Nat)

def ofDecimalDigits (sign digits : List Char) : Datum :=
  match readDigits? digits with
  | none => .unusable
  | some n => ofInteger (if sign = ['-'] then -(n : Int) else n)

def isDigitRun (s : List Char) : Bool :=
  s.any Char.isDigit && s.all fun c => c.isDigit || c == '_'

def isExponent (s : List Char) : Bool := isDigitRun (cutSign s).2

def isFloatTail : List Char → Bool
  | '.' :: rest =>
    match cut? 'e' rest with
    | none => isDigitRun rest
    | some (fraction, exponent) => isDigitRun fraction && isExponent exponent
  | 'e' :: rest => isExponent rest
  | _ => false

/-- Whether a text is an unsigned float: a whole number that does not begin with a needless zero,
and then a point or a power of ten. -/
def isFloat (s : List Char) : Bool :=
  let lowered := s.map fun c => if c = 'E' then 'e' else c
  let isWhole (c : Char) := c.isDigit || c == '_'
  let whole := lowered.takeWhile isWhole
  isDigitRun whole && (whole.head? != some '0' || whole.countP Char.isDigit == 1) &&
    isFloatTail (lowered.dropWhile isWhole)

def ofFloat (s : List Char) : Datum :=
  match Number.parse? s with
  | some (.finite _) => .float
  | _ => .unusable

/-- The number that a text is written as. Only its form is checked here, and where an underscore
follows the digits in front this leaves letters possible, for which no number stands. After a sign
an underscore may come first. -/
def ofNumeral? (s : List Char) : Option Datum :=
  let (sign, body) := cutSign s
  let grouped := if sign.isEmpty || body.head? != some '_' then body else body.drop 1
  let behind := body.dropWhile Char.isDigit
  let isWhole := if behind.isEmpty then !body.isEmpty
    else behind.head? == some '_' && behind.all fun c => c != '.' && c != 'e' && c != 'E'
  if body = ['0'] then some (.integer 0)
  else if isFloat body then
    (withoutUnderscores? Char.isDigit grouped).map fun text => ofFloat (sign ++ text)
  else if body.head? = some '0' then
    match sign, body.drop 1 with
    | [], 'x' :: digits => ofBase? 16 digits
    | [], 'o' :: digits => ofBase? 8 digits
    | [], 'b' :: digits => ofBase? 2 digits
    | _, _ => none
  else if isWhole then (withoutUnderscores? isBaseDigit grouped).map (ofDecimalDigits sign)
  else none

def readTwo? : List Char → Option (Nat × List Char)
  | a :: b :: rest => (readDigits? [a, b]).map fun n => (n, rest)
  | _ => none

def readDate? : List Char → Option (List Char)
  | a :: b :: c :: d :: '-' :: rest => do
    let year ← readDigits? [a, b, c, d]
    let (month, rest) ← readTwo? rest
    match rest with
    | '-' :: rest => do
      let (day, rest) ← readTwo? rest
      if (Date.mk year month day).isValid then some rest else none
    | _ => none
  | _ => none

def skipFraction? : List Char → Option (List Char)
  | '.' :: rest =>
    if rest.head?.any Char.isDigit then some (rest.dropWhile Char.isDigit) else none
  | rest => some rest

def readClock? (s : List Char) : Option (List Char) := do
  let (hour, rest) ← readTwo? s
  match rest with
  | ':' :: rest => do
    let (minute, rest) ← readTwo? rest
    if hour < 24 && minute < 60 then some rest else none
  | _ => none

def readTime? (s : List Char) : Option (List Char) := do
  match ← readClock? s with
  | ':' :: rest => do
    let (second, rest) ← readTwo? rest
    if second ≤ 60 then skipFraction? rest else none
  | rest => some rest

def isOffset : List Char → Bool
  | [] => true
  | ['Z'] => true
  | ['z'] => true
  | '+' :: rest => readClock? rest == some []
  | '-' :: rest => readClock? rest == some []
  | _ => false

def isDateTime (s : List Char) : Bool :=
  match readDate? s with
  | none => readTime? s == some []
  | some [] => true
  | some (c :: rest) =>
    (c == 'T' || c == 't' || c == ' ') && (readTime? rest).any isOffset

def ofUnquoted? (s : List Char) : Option Datum :=
  let name := (cutSign s).2
  if s = "true".toList ∨ s = "false".toList then some .bool
  else if name = "inf".toList ∨ name = "nan".toList then some .float
  else match ofNumeral? s with
    | some number => some number
    | none => if isDateTime s then some .dateTime else none

end AggregateQuery.Toml
