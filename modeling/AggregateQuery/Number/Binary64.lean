/-!
Finite binary floating-point numbers of 64 bits, and the rounding of a fraction to the nearest of
them. All arithmetic is on natural numbers.

A magnitude is kept as its code: the position of the number among the non-negative ones, zero
first. The distance between neighbours doubles every `2 ^ 52` codes, from the second such block
on.
-/
namespace AggregateQuery

def blockSize : Nat := Nat.pow 2 52

def codeLimit : Nat := 2047 * blockSize

/-- The magnitude with a given code, in units of `2 ^ (-1074)`, the least positive number. -/
def unitsOfCode (code : Nat) : Nat :=
  let block := code / blockSize
  if block = 0 then code else (blockSize + code % blockSize) * Nat.pow 2 (block - 1)

def unitsPerOne : Nat := Nat.pow 2 1074

/-- The code nearest to `num / den` units, the even one of two equally near. It may lie beyond
`codeLimit`. -/
def nearestCode (num den : Nat) : Nat :=
  let shift := Nat.log2 (num / den) - 52
  let step := den * Nat.pow 2 shift
  let below := num / step
  let rest := num % step
  let up := step < 2 * rest || (2 * rest == step && below % 2 == 1)
  shift * blockSize + below + (if up then 1 else 0)

/-- A finite number: a sign and the code of a magnitude. Zero has two signs. -/
structure Binary64 where
  negative : Bool
  code : Nat
  finite : code < codeLimit

namespace Binary64

def zero : Binary64 := ⟨false, 0, by decide⟩

def isZero (x : Binary64) : Bool := x.code == 0

def unsignedZero (x : Binary64) : Binary64 := if x.isZero then zero else x

instance : BEq Binary64 where
  beq x y := (x.isZero && y.isZero) || (x.negative == y.negative && x.code == y.code)

end Binary64

inductive Number where
  | finite (value : Binary64)
  | infinite (negative : Bool)
  | notANumber

namespace Number

def ofCode (negative : Bool) (code : Nat) : Number :=
  if h : code < codeLimit then .finite ⟨negative, code, h⟩ else .infinite negative

def finite? : Number → Option Binary64
  | .finite value => some value
  | _ => none

end Number

end AggregateQuery
