import Mathlib.Algebra.Group.Nat.Defs
import AggregateQuery.Number.Integer
import AggregateQuery.Proofs.Text.Trimming
/-!
Written numbers. The digits of a number are read as the number, with or without zeros in front.
-/
namespace AggregateQuery

open Text

theorem isDigit_bounds {c : Char} (digit : c.isDigit = true) : 48 ≤ c.toNat ∧ c.toNat ≤ 57 := by
  change (decide (48 ≤ c.toNat) && decide (c.toNat ≤ 57)) = true at digit
  simpa only [Bool.and_eq_true, decide_eq_true_eq] using digit

theorem ne_of_digit {c mark : Char} (digit : c.isDigit = true) (other : mark.isDigit = false) :
    c ≠ mark := by
  rintro rfl
  exact Bool.false_ne_true (other.symm.trans digit)

theorem not_digit_mem {mark : Char} {digits : List Char} (run : ∀ c ∈ digits, c.isDigit = true)
    (other : mark.isDigit = false) : mark ∉ digits :=
  fun member => ne_of_digit (run mark member) other rfl

theorem visible_of_digit {c : Char} (digit : c.isDigit = true) : isBlank c = false := by
  have bounds := isDigit_bounds digit
  exact visible_of_printable (by omega) (by omega)

theorem toLower_of_digit {c : Char} (digit : c.isDigit = true) : c.toLower = c := by
  have bounds := isDigit_bounds digit
  change (if letter : c.toNat ≥ 65 ∧ c.toNat ≤ 90 then _ else c) = c
  rw [dif_neg (by omega)]

theorem readDigits?_eq_some_iff {s : List Char} {value : Nat} : readDigits? s = some value ↔
    s ≠ [] ∧ (∀ c ∈ s, c.isDigit = true) ∧ digitsValue s = value := by
  rw [readDigits?, Option.ite_none_right_eq_some, Option.some.injEq, Bool.and_eq_true,
    List.all_eq_true, and_assoc]
  simp

theorem digits_natChars (n : Nat) : ∀ c ∈ natChars n, c.isDigit = true := fun _ member =>
  Nat.isDigit_of_mem_toDigits (by decide) (by decide) member

theorem digitsValue_natChars (n : Nat) : digitsValue (natChars n) = n :=
  Nat.ofDigitChars_toDigits (by decide) (by decide)

theorem natChars_ne_nil (n : Nat) : natChars n ≠ [] :=
  Nat.toDigits_ne_nil

theorem readDigits?_natChars (n : Nat) : readDigits? (natChars n) = some n :=
  readDigits?_eq_some_iff.mpr ⟨natChars_ne_nil n, digits_natChars n, digitsValue_natChars n⟩

theorem readNat?_natChars {bound n : Nat} (below : n < bound) :
    readNat? bound (natChars n) = some n := by
  have number := readDigits?_natChars n
  unfold readNat?
  split
  · rename_i digits plus
    have first : '+' ∈ natChars n := by simp [plus]
    exact absurd first (not_digit_mem (digits_natChars n) rfl)
  · simp [number, below]

theorem digitsValue_zeros (count : Nat) (digits : List Char) :
    digitsValue (List.replicate count '0' ++ digits) = digitsValue digits := by
  induction count with
  | zero => rfl
  | succ count ih => exact ih

theorem digitsValue_zeros_behind (digits : List Char) (count : Nat) :
    digitsValue (digits ++ List.replicate count '0') = digitsValue digits * 10 ^ count := by
  change Nat.ofDigitChars 10 (digits ++ List.replicate count '0') 0 = _
  rw [Nat.ofDigitChars_append, Nat.ofDigitChars_replicate_zero, Nat.mul_comm]
  rfl

theorem digitsValue_paddedChars (width n : Nat) : digitsValue (paddedChars width n) = n := by
  rw [paddedChars, digitsValue_zeros, digitsValue_natChars]

theorem digits_zeros (count : Nat) : ∀ c ∈ List.replicate count '0', c.isDigit = true := by
  intro c zero
  rw [List.eq_of_mem_replicate zero]
  rfl

theorem digits_paddedChars (width n : Nat) : ∀ c ∈ paddedChars width n, c.isDigit = true :=
  List.forall_mem_append.mpr ⟨digits_zeros _, digits_natChars n⟩

theorem paddedChars_ne_nil (width n : Nat) : paddedChars width n ≠ [] :=
  List.append_ne_nil_of_right_ne_nil _ (natChars_ne_nil n)

theorem length_paddedChars {width n : Nat} (wide : 0 < width) (fits : n < 10 ^ width) :
    (paddedChars width n).length = width := by
  have short : (natChars n).length ≤ width :=
    (Nat.length_toDigits_le_iff (by decide) wide).mpr fits
  rw [paddedChars, List.length_append, List.length_replicate, Nat.sub_add_cancel short]

end AggregateQuery
