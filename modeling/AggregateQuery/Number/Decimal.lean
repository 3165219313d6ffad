import AggregateQuery.Number.Binary64
import AggregateQuery.Number.Integer
import AggregateQuery.Text.Basic
/-!
Decimal texts of floating-point numbers. A text is read to the nearest number; a number is written
with the fewest digits that read back as it, laid out in one of two ways.
-/
namespace AggregateQuery

structure Decimal where
  digits : Nat
  exponent : Int
  deriving DecidableEq

namespace Decimal

def width (n : Nat) : Nat := (natChars n).length

def units (d : Decimal) : Nat × Nat :=
  if 0 ≤ d.exponent then (d.digits * Nat.pow 10 d.exponent.toNat * unitsPerOne, 1)
  else (d.digits * unitsPerOne, Nat.pow 10 (-d.exponent).toNat)

/-- Decimals of so many places in front of the point are beyond the greatest number. -/
def greatestPlace : Int := 310

/-- Decimals whose first place is so far behind the point are nearest to zero. -/
def leastPlace : Int := -330

def nearest (d : Decimal) : Nat :=
  let place := (width d.digits : Int) + d.exponent
  if d.digits = 0 ∨ place < leastPlace then 0
  else if greatestPlace < place then codeLimit
  else nearestCode d.units.1 d.units.2

inductive Tie where
  | up
  | toEven

/-- The place of the first digit of a positive number of units: `p` for a value from
`10 ^ (p - 1)` up to `10 ^ p`. -/
def firstPlace (units : Nat) : Int :=
  (width (units * Nat.pow 10 400 / unitsPerOne) : Int) - 400

def candidate? (tie : Tie) (code count : Nat) : Option Decimal :=
  let exponent := firstPlace (unitsOfCode code) - count
  let num := unitsOfCode code * Nat.pow 10 (-exponent).toNat
  let den := unitsPerOne * Nat.pow 10 exponent.toNat
  let below : Decimal := ⟨num / den, exponent⟩
  let above : Decimal := ⟨num / den + 1, exponent⟩
  let rest := 2 * (num % den)
  let preferAbove := den < rest || (rest == den &&
    match tie with
    | .up => true
    | .toEven => below.digits % 2 == 1)
  let ranked := if preferAbove then [above, below] else [below, above]
  ranked.find? fun d => d.nearest == code

/-- The decimal with every digit of the value: a unit is `5 ^ 1074` in the last of 1074 places. -/
def exact (code : Nat) : Decimal := ⟨unitsOfCode code * Nat.pow 5 1074, -1074⟩

def shortest (tie : Tie) (code : Nat) : Decimal :=
  ((List.range' 1 17).findSome? (candidate? tie code)).getD (exact code)

/-- The digits without the zeros at the end, and the place of the point: `0.D * 10 ^ place`. -/
def significant (d : Decimal) : List Char × Int :=
  let digits := natChars d.digits
  ((digits.reverse.dropWhile (· == '0')).reverse, digits.length + d.exponent)

end Decimal

structure NumberLayout where
  tie : Decimal.Tie
  fraction : Bool
  isPositional : Int → Bool

namespace NumberLayout

/-- For reading by people: the shortest digits, never a power of ten. -/
def plain : NumberLayout := ⟨.up, false, fun _ => true⟩

/-- For JSON: always a point or a power of ten, which begins at `1e+16` and `1e-6`. -/
def json : NumberLayout := ⟨.toEven, true, fun exponent => -5 ≤ exponent && exponent < 16⟩

def positional (layout : NumberLayout) (digits : List Char) (place : Int) : List Char :=
  if place ≤ 0 then ['0', '.'] ++ List.replicate (-place).toNat '0' ++ digits
  else
    let whole := place.toNat
    if digits.length ≤ whole then
      digits ++ List.replicate (whole - digits.length) '0' ++
        (if layout.fraction then ['.', '0'] else [])
    else digits.take whole ++ ['.'] ++ digits.drop whole

def scientific (digits : List Char) (place : Int) : List Char :=
  let exponent := place - 1
  let behind := digits.drop 1
  digits.take 1 ++ (if behind.isEmpty then [] else '.' :: behind) ++
    ['e', if exponent < 0 then '-' else '+'] ++ natChars exponent.natAbs

def magnitude (layout : NumberLayout) (code : Nat) : List Char :=
  if code = 0 then if layout.fraction then ['0', '.', '0'] else ['0']
  else
    let (digits, place) := (Decimal.shortest layout.tie code).significant
    if layout.isPositional (place - 1) then layout.positional digits place
    else scientific digits place

def write (layout : NumberLayout) (x : Binary64) : List Char :=
  (if x.negative then ['-'] else []) ++ layout.magnitude x.code

end NumberLayout

def Binary64.chars (x : Binary64) : List Char := NumberLayout.plain.write x

namespace Number

def chars : Number → List Char
  | .finite value => value.chars
  | .infinite negative => if negative then "-inf".toList else "inf".toList
  | .notANumber => "NaN".toList

def readSign : List Char → Bool × List Char
  | '-' :: rest => (true, rest)
  | '+' :: rest => (false, rest)
  | rest => (false, rest)

def readFraction? (s : List Char) : Option Decimal :=
  let (whole, behind) := (Text.cut? '.' s).getD (s, [])
  (readDigits? (whole ++ behind)).map fun digits => ⟨digits, -(behind.length : Int)⟩

def cutExponent? (s : List Char) : Option (List Char × List Char) :=
  (Text.cut? 'e' (s.map fun c => if c = 'E' then 'e' else c))

def readDecimal? (s : List Char) : Option Decimal :=
  match cutExponent? s with
  | none => readFraction? s
  | some (fraction, power) => do
    let d ← readFraction? fraction
    let exponent ← readInt? power
    return ⟨d.digits, d.exponent + exponent⟩

def parse? (s : List Char) : Option Number :=
  let (negative, magnitude) := readSign s
  let name := Text.lower magnitude
  if name = "inf".toList ∨ name = "infinity".toList then some (.infinite negative)
  else if name = "nan".toList then some .notANumber
  else (readDecimal? magnitude).map fun d => .ofCode negative d.nearest

end Number

end AggregateQuery
