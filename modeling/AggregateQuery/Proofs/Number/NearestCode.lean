import Mathlib.Algebra.Group.Nat.Defs
import AggregateQuery.Number.Decimal
import AggregateQuery.Proofs.Number.BitPattern
/-!
Rounding to the nearest number. It depends on the value of a decimal and not on how many zeros end
its digits, it gives a number for the exact value of the number, and so for the shortest decimal.
-/
namespace AggregateQuery

theorem unitsOfCode_pos {code : Nat} (some : code ≠ 0) : 0 < unitsOfCode code :=
  unitsOfCode_strictMono (Nat.pos_of_ne_zero some)

theorem unitsOfCode_lt {code : Nat} (finite : code < codeLimit) : unitsOfCode code < 2 ^ 2098 := by
  have greatest : unitsOfCode codeLimit = 2 ^ 2098 := by decide +kernel
  rw [← greatest]
  exact unitsOfCode_strictMono finite

theorem nearestCode_scale {factor : Nat} (positive : 0 < factor) (num den : Nat) :
    nearestCode (num * factor) (den * factor) = nearestCode num den := by
  have steps (shift : Nat) : den * factor * Nat.pow 2 shift = den * Nat.pow 2 shift * factor :=
    Nat.mul_right_comm den factor _
  have double (rest : Nat) : 2 * (rest * factor) = 2 * rest * factor := (Nat.mul_assoc ..).symm
  simp only [nearestCode, Nat.mul_div_mul_right _ _ positive, steps, Nat.mul_mod_mul_right, double,
    Nat.mul_lt_mul_right positive, beq_eq_decide, Nat.mul_left_inj (Nat.ne_of_gt positive)]

theorem nearestCode_of_steps {count shift : Nat}
    (wide : (count * Nat.pow 2 shift).log2 - 52 = shift) :
    nearestCode (count * Nat.pow 2 shift) 1 = shift * blockSize + count := by
  have positive : 0 < Nat.pow 2 shift := Nat.pow_pos (by decide)
  have notTie : (0 == Nat.pow 2 shift) = false := beq_false_of_ne (Nat.ne_of_lt positive)
  simp only [nearestCode, Nat.div_one, Nat.one_mul, wide, Nat.mul_div_cancel _ positive,
    Nat.mul_mod_left, Nat.mul_zero, notTie]
  simp

theorem log2_within_block {place : Nat} (within : place < blockSize) : place.log2 - 52 = 0 := by
  refine Nat.sub_eq_zero_of_le ?_
  by_cases none : place = 0
  · simp [none]
  · exact Nat.le_of_lt ((Nat.log2_lt none).mpr within)

theorem log2_significand {place : Nat} (within : place < blockSize) (shift : Nat) :
    ((blockSize + place) * Nat.pow 2 shift).log2 = 52 + shift := by
  have positive : 0 < Nat.pow 2 shift := Nat.pow_pos (by decide)
  have some : (blockSize + place) * Nat.pow 2 shift ≠ 0 :=
    Nat.ne_of_gt (Nat.mul_pos (Nat.lt_of_lt_of_le blockSize_pos (Nat.le_add_right ..)) positive)
  refine (Nat.log2_eq_iff some).mpr ⟨?_, ?_⟩
  · rw [Nat.pow_add]
    exact Nat.mul_le_mul_right _ (Nat.le_add_right ..)
  · have double : blockSize + place < 2 ^ 53 := by
      have twice : blockSize + blockSize = 2 ^ 53 := rfl
      omega
    rw [Nat.add_right_comm, Nat.pow_add]
    exact Nat.mul_lt_mul_of_pos_right double positive

theorem nearestCode_unitsOfCode (code : Nat) : nearestCode (unitsOfCode code) 1 = code := by
  have within : code % blockSize < blockSize := Nat.mod_lt code blockSize_pos
  have whole : blockSize * (code / blockSize) + code % blockSize = code := Nat.div_add_mod code _
  generalize code / blockSize = block at whole
  generalize code % blockSize = place at whole within
  rw [← whole, unitsOfCode_of_block within]
  -- A step is one unit in the first block; in later ones it leaves 53 binary digits in front.
  cases block with
  | zero =>
    have wide : (place * Nat.pow 2 0).log2 - 52 = 0 := by simpa using log2_within_block within
    simpa using nearestCode_of_steps wide
  | succ before =>
    rw [if_neg (Nat.succ_ne_zero before), Nat.add_sub_cancel, nearestCode_of_steps]
    · rw [Nat.mul_succ, Nat.add_assoc, Nat.mul_comm]
    · rw [log2_significand within, Nat.add_sub_cancel_left]

theorem nearestCode_over (code : Nat) {den : Nat} (positive : 0 < den) :
    nearestCode (unitsOfCode code * den) den = code := by
  have scaled := nearestCode_scale positive (unitsOfCode code) 1
  rwa [Nat.one_mul, nearestCode_unitsOfCode] at scaled

theorem natChars_of_zeros {n : Nat} (some : n ≠ 0) (zeros : Nat) :
    natChars (n * 10 ^ zeros) = natChars n ++ List.replicate zeros '0' := by
  induction zeros with
  | zero => simp
  | succ zeros ih =>
    have positive : 0 < n * 10 ^ zeros :=
      Nat.mul_pos (Nat.pos_of_ne_zero some) (Nat.pow_pos (by decide))
    have tenfold : n * 10 ^ (zeros + 1) = 10 * (n * 10 ^ zeros) + 0 := by
      rw [Nat.pow_succ, ← Nat.mul_assoc, Nat.mul_comm, Nat.add_zero]
    calc natChars (n * 10 ^ (zeros + 1))
      _ = natChars (n * 10 ^ zeros) ++ natChars 0 := by
        rw [natChars, natChars, natChars, tenfold]
        exact (Nat.toDigits_append_toDigits (by decide) positive (by decide)).symm
      _ = natChars n ++ List.replicate (zeros + 1) '0' := by
        rw [ih, List.replicate_succ', List.append_assoc]
        rfl

namespace Decimal

theorem width_le_iff {n places : Nat} (some : 0 < places) : width n ≤ places ↔ n < 10 ^ places :=
  Nat.length_toDigits_le_iff (by decide) some

theorem width_of_zeros {n : Nat} (some : n ≠ 0) (zeros : Nat) :
    width (n * 10 ^ zeros) = width n + zeros := by
  rw [width, natChars_of_zeros some, List.length_append, List.length_replicate, width]

/-- The fraction of a decimal written over any power of ten that clears its exponent. -/
theorem nearestCode_units (d : Decimal) (behind : Nat) (clears : 0 ≤ d.exponent + behind) :
    nearestCode d.units.1 d.units.2 =
      nearestCode (d.digits * 10 ^ (d.exponent + behind).toNat * unitsPerOne) (10 ^ behind) := by
  obtain ⟨digits, exponent⟩ := d
  simp only at clears
  by_cases whole : 0 ≤ exponent
  · have shape : (⟨digits, exponent⟩ : Decimal).units =
      (digits * 10 ^ exponent.toNat * unitsPerOne, 1) := if_pos whole
    have positive : 0 < 10 ^ behind := Nat.pow_pos (by decide)
    have places : (exponent + behind).toNat = exponent.toNat + behind := by omega
    have scaled : digits * 10 ^ (exponent + behind).toNat * unitsPerOne =
        digits * 10 ^ exponent.toNat * unitsPerOne * 10 ^ behind := by
      rw [places, Nat.pow_add, ← Nat.mul_assoc, Nat.mul_right_comm]
    have scale := nearestCode_scale positive (digits * 10 ^ exponent.toNat * unitsPerOne) 1
    rw [Nat.one_mul] at scale
    rw [shape, scaled, scale]
  · have shape : (⟨digits, exponent⟩ : Decimal).units =
      (digits * unitsPerOne, 10 ^ (-exponent).toNat) := if_neg whole
    have positive : 0 < 10 ^ (exponent + behind).toNat := Nat.pow_pos (by decide)
    have places : behind = (-exponent).toNat + (exponent + behind).toNat := by omega
    have scaled : 10 ^ behind = 10 ^ (-exponent).toNat * 10 ^ (exponent + behind).toNat := by
      rw [← Nat.pow_add, ← places]
    rw [shape, scaled, Nat.mul_right_comm, nearestCode_scale positive]

theorem nearest_of_zeros (n zeros : Nat) (exponent : Int) :
    (⟨n * 10 ^ zeros, exponent⟩ : Decimal).nearest = (⟨n, exponent + zeros⟩ : Decimal).nearest := by
  by_cases none : n = 0
  · simp [nearest, none]
  · have tens : 10 ^ zeros ≠ 0 := Nat.ne_of_gt (Nat.pow_pos (by decide))
    have someMore : n * 10 ^ zeros ≠ 0 := Nat.mul_ne_zero none tens
    have place : ((width n + zeros : Nat) : Int) + exponent = width n + (exponent + zeros) := by
      omega
    have same : nearestCode (⟨n * 10 ^ zeros, exponent⟩ : Decimal).units.1
          (⟨n * 10 ^ zeros, exponent⟩ : Decimal).units.2 =
        nearestCode (⟨n, exponent + zeros⟩ : Decimal).units.1
          (⟨n, exponent + zeros⟩ : Decimal).units.2 := by
      rw [nearestCode_units _ exponent.natAbs (by simp only; omega),
        nearestCode_units _ exponent.natAbs (by simp only; omega)]
      have digits : n * 10 ^ zeros * 10 ^ (exponent + exponent.natAbs).toNat =
          n * 10 ^ (exponent + zeros + exponent.natAbs).toNat := by
        rw [Nat.mul_assoc, ← Nat.pow_add]
        congr 2
        omega
      rw [digits]
    simp only [nearest, none, someMore, width_of_zeros none, place, same]

/-- No finite number is so small or so great that its value would not be expanded. -/
theorem exact_in_range {code : Nat} (some : code ≠ 0) (finite : code < codeLimit) :
    leastPlace ≤ width (exact code).digits + (exact code).exponent ∧
      width (exact code).digits + (exact code).exponent ≤ greatestPlace := by
  have positive := unitsOfCode_pos some
  have notSmall : ¬width (unitsOfCode code * Nat.pow 5 1074) ≤ 744 := by
    rw [width_le_iff (by decide), Nat.not_lt]
    calc 10 ^ 744
      _ ≤ Nat.pow 5 1074 := by decide +kernel
      _ ≤ unitsOfCode code * Nat.pow 5 1074 := Nat.le_mul_of_pos_left _ positive
  have notGreat : width (unitsOfCode code * Nat.pow 5 1074) ≤ 1384 := by
    rw [width_le_iff (by decide)]
    calc unitsOfCode code * Nat.pow 5 1074
      _ < 2 ^ 2098 * Nat.pow 5 1074 :=
        Nat.mul_lt_mul_of_pos_right (unitsOfCode_lt finite) (by decide +kernel)
      _ ≤ 10 ^ 1384 := by decide +kernel
  rw [exact, leastPlace, greatestPlace]
  simp only
  omega

theorem nearest_exact {code : Nat} (some : code ≠ 0) (finite : code < codeLimit) :
    (exact code).nearest = code := by
  obtain ⟨notSmall, notGreat⟩ := exact_in_range some finite
  have someDigits : (exact code).digits ≠ 0 :=
    Nat.ne_of_gt (Nat.mul_pos (unitsOfCode_pos some) (by decide +kernel))
  have value : nearestCode (exact code).units.1 (exact code).units.2 = code := by
    have positive : 0 < Nat.pow 5 1074 * unitsPerOne := by decide +kernel
    have places : 10 ^ 1074 = Nat.pow 5 1074 * unitsPerOne := by decide +kernel
    have clears : (exact code).exponent + (1074 : Nat) = 0 := rfl
    have digits : (exact code).digits = unitsOfCode code * Nat.pow 5 1074 := rfl
    rw [nearestCode_units (exact code) 1074 (Int.le_of_eq clears.symm), clears, Int.toNat_zero,
      Nat.pow_zero, Nat.mul_one, digits, places, Nat.mul_assoc]
    exact nearestCode_over code positive
  simp only [nearest, someDigits, false_or, Int.not_lt.mpr notSmall, Int.not_lt.mpr notGreat,
    ↓reduceIte, value]

theorem nearest_of_candidate? {tie : Tie} {code count : Nat} {d : Decimal}
    (found : candidate? tie code count = some d) : d.nearest = code := by
  have fits := List.find?_some found
  simpa using fits

theorem nearest_shortest (tie : Tie) {code : Nat} (some : code ≠ 0) (finite : code < codeLimit) :
    (shortest tie code).nearest = code := by
  rw [shortest]
  cases found : (List.range' 1 17).findSome? (candidate? tie code) with
  | none => exact nearest_exact some finite
  | some d =>
    obtain ⟨_, _, fits⟩ := List.exists_of_findSome?_eq_some found
    exact nearest_of_candidate? fits

end Decimal

end AggregateQuery
