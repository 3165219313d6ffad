import AggregateQuery.Text.Basic
/-!
Decimal integers as they are typed, with an optional sign and one or more digits, leading zeros
allowed, blanks and digit separators not; positive counts below `2 ^ 32`, and the pages of a result.
-/
namespace AggregateQuery

def digitsValue (digits : List Char) : Nat :=
  digits.foldl (fun value c => 10 * value + (c.toNat - '0'.toNat)) 0

def readDigits? (s : List Char) : Option Nat :=
  if !s.isEmpty && s.all Char.isDigit then some (digitsValue s) else none

def readNat? (bound : Nat) (s : List Char) : Option Nat :=
  (match s with
    | '+' :: digits => readDigits? digits
    | digits => readDigits? digits).filter (· < bound)

def readInt? : List Char → Option Int
  | '+' :: digits => (readDigits? digits).map Int.ofNat
  | '-' :: digits => (readDigits? digits).map fun n => -(n : Int)
  | digits => (readDigits? digits).map Int.ofNat

def natChars (n : Nat) : List Char := Nat.toDigits 10 n

def intChars (n : Int) : List Char := (if n < 0 then ['-'] else []) ++ natChars n.natAbs

def paddedChars (width n : Nat) : List Char :=
  let digits := natChars n
  List.replicate (width - digits.length) '0' ++ digits

def countLimit : Nat := 4294967296

structure Positive where
  value : Nat
  positive : 0 < value
  bounded : value < countLimit
  deriving DecidableEq

namespace Positive

def one : Positive := ⟨1, by decide, by decide⟩

def ofNat? (n : Nat) : Option Positive :=
  if h : 0 < n ∧ n < countLimit then some ⟨n, h.1, h.2⟩ else none

def parse? (text : String) : Option Positive :=
  (readNat? countLimit (Text.trim text.toList)).bind ofNat?

end Positive

structure Page where
  perPage : Positive
  page : Positive
  deriving DecidableEq

def Page.offset (p : Page) : Nat := (p.page.value - 1) * p.perPage.value

end AggregateQuery
