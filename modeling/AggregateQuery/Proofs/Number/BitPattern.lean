import Mathlib.Order.Monotone.Basic
import AggregateQuery.Proofs.Condition.HavingText
/-!
Numbers by their bits and by their values. A greater code stands for a greater magnitude, so finite
numbers have equal values when they have the same bits, zeros of either sign apart.
-/
namespace AggregateQuery

theorem blockSize_pos : 0 < blockSize := Nat.pow_pos (by decide)

theorem unitsOfCode_of_block {block place : Nat} (within : place < blockSize) :
    unitsOfCode (blockSize * block + place) =
      if block = 0 then place else (blockSize + place) * Nat.pow 2 (block - 1) := by
  have isBlock : (blockSize * block + place) / blockSize = block := by
    rw [Nat.mul_add_div blockSize_pos, Nat.div_eq_of_lt within, Nat.add_zero]
  have isPlace : (blockSize * block + place) % blockSize = place := by
    rw [Nat.mul_add_mod, Nat.mod_eq_of_lt within]
  rw [unitsOfCode]
  simp only [isBlock, isPlace]
  split
  · rename_i first
    rw [first, Nat.mul_zero, Nat.zero_add]
  · rfl

theorem unitsOfCode_strictMono : StrictMono unitsOfCode := by
  refine strictMono_nat_of_lt_succ fun code => ?_
  have within : code % blockSize < blockSize := Nat.mod_lt code blockSize_pos
  have whole : blockSize * (code / blockSize) + code % blockSize = code := Nat.div_add_mod code _
  generalize code / blockSize = block at whole
  generalize code % blockSize = place at whole within
  rw [← whole, unitsOfCode_of_block within]
  have positive : 0 < Nat.pow 2 (block - 1) := Nat.pow_pos (by decide)
  by_cases last : place + 1 = blockSize
  -- Behind the last place of a block the next block begins, with twice the distance.
  · have next : blockSize * block + place + 1 = blockSize * (block + 1) + 0 := by
      rw [Nat.mul_add, Nat.mul_one]
      omega
    rw [next, unitsOfCode_of_block blockSize_pos, if_neg (Nat.succ_ne_zero block),
      Nat.add_sub_cancel, Nat.add_zero]
    split
    · rename_i first
      rw [first]
      simpa using within
    · rename_i later
      have double : Nat.pow 2 block = 2 * Nat.pow 2 (block - 1) := by
        obtain ⟨before, rfl⟩ := Nat.exists_eq_succ_of_ne_zero later
        exact Nat.pow_succ'
      rw [double, ← Nat.mul_assoc]
      exact Nat.mul_lt_mul_of_pos_right (by omega) positive
  · have inside : place + 1 < blockSize := by omega
    rw [Nat.add_assoc, unitsOfCode_of_block inside]
    split
    · exact Nat.lt_succ_self place
    · exact Nat.mul_lt_mul_of_pos_right (by omega) positive

namespace Binary64

def units (x : Binary64) : Int :=
  if x.negative then -(unitsOfCode x.code : Int) else (unitsOfCode x.code : Int)

def signPlace : Nat := Nat.pow 2 63

/-- The bits of a number: the sign in the highest, and below it the code, which is made of the
exponent and the fraction. -/
def bits (x : Binary64) : BitVec 64 :=
  BitVec.ofNat 64 ((if x.negative then signPlace else 0) + x.code)

theorem code_lt_signPlace (x : Binary64) : x.code < signPlace :=
  Nat.lt_trans x.finite (by decide)

theorem toNat_bits (x : Binary64) :
    x.bits.toNat = (if x.negative then signPlace else 0) + x.code := by
  have twice : signPlace + signPlace = 2 ^ 64 := by decide
  have below := x.code_lt_signPlace
  rw [bits, BitVec.toNat_ofNat, Nat.mod_eq_of_lt]
  split <;> omega

theorem bits_eq_iff {x y : Binary64} :
    x.bits = y.bits ↔ x.negative = y.negative ∧ x.code = y.code := by
  have below := x.code_lt_signPlace
  have belowToo := y.code_lt_signPlace
  rw [← BitVec.toNat_inj, toNat_bits, toNat_bits]
  cases x.negative <;> cases y.negative <;> simp <;> omega

theorem beq_iff_same_units {x y : Binary64} : (x == y) = true ↔ x.units = y.units := by
  have shape : (x == y) = ((x.code == 0 && y.code == 0) ||
    (x.negative == y.negative && x.code == y.code)) := rfl
  have none (code : Nat) : unitsOfCode code = 0 ↔ code = 0 :=
    unitsOfCode_strictMono.injective.eq_iff' rfl
  have same := unitsOfCode_strictMono.injective.eq_iff (a := x.code) (b := y.code)
  have noneHere := none x.code
  have noneThere := none y.code
  rw [shape, units, units]
  cases x.negative <;> cases y.negative <;> simp <;> omega

end Binary64

end AggregateQuery
