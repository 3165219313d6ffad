import AggregateQuery.Proofs.Number.NearestCode
import AggregateQuery.Proofs.Number.WrittenDigits
import AggregateQuery.Proofs.Text.Cutting
/-!
Numbers in plain text. A finite number is written with digits and at most one point, behind a dash
if it is negative, and the text is read as the number again, wherever the point is.
-/
namespace AggregateQuery

open Text

namespace Decimal

def ofDigits (digits : List Char) (place : Int) : Decimal :=
  ⟨digitsValue digits, place - digits.length⟩

theorem significant_spec (d : Decimal) : ∃ zeros : Nat,
    natChars d.digits = d.significant.1 ++ List.replicate zeros '0' ∧
      d.significant.2 = d.significant.1.length + zeros + d.exponent := by
  have all : ∀ c ∈ (natChars d.digits).reverse.takeWhile (· == '0'), c = '0' := by
    intro c member
    simpa using List.all_eq_true.mp List.all_takeWhile c member
  have whole : natChars d.digits = d.significant.1 ++
      ((natChars d.digits).reverse.takeWhile (· == '0')).reverse :=
    (kept_append_dropped (· == '0') (natChars d.digits)).symm
  rw [List.eq_replicate_of_mem all, List.reverse_replicate] at whole
  refine ⟨_, whole, ?_⟩
  have lengths := congrArg List.length whole
  rw [List.length_append, List.length_replicate] at lengths
  have place : d.significant.2 = (natChars d.digits).length + d.exponent := rfl
  omega

theorem digits_significant (d : Decimal) : ∀ c ∈ d.significant.1, c.isDigit = true := by
  obtain ⟨zeros, whole, _⟩ := d.significant_spec
  intro c member
  apply digits_natChars d.digits
  rw [whole]
  exact List.mem_append_left _ member

theorem nearest_significant (d : Decimal) :
    (ofDigits d.significant.1 d.significant.2).nearest = d.nearest := by
  obtain ⟨zeros, whole, place⟩ := d.significant_spec
  have digits : d.digits = digitsValue d.significant.1 * 10 ^ zeros := by
    rw [← digitsValue_zeros_behind, ← whole, digitsValue_natChars]
  have exponent : d.significant.2 - d.significant.1.length = d.exponent + zeros := by omega
  rw [ofDigits, exponent, ← nearest_of_zeros, ← digits]

end Decimal

/-- Zeros fill the places between the digits and the point: behind the digits of a whole number, or
else in front of them. -/
theorem NumberLayout.positional_eq (digits : List Char) (place : Int) :
    (∃ zeros : Nat, plain.positional digits place = digits ++ List.replicate zeros '0' ∧
        place = digits.length + zeros ∧ 0 < place) ∨
      ∃ whole behind zeros, plain.positional digits place = whole ++ '.' :: behind ∧ whole ≠ [] ∧
        whole ++ behind = List.replicate zeros '0' ++ digits ∧
        place - digits.length = -(behind.length : Int) := by
  by_cases below : place ≤ 0
  · refine Or.inr ⟨['0'], List.replicate (-place).toNat '0' ++ digits, (-place).toNat + 1, ?_,
      by simp, rfl, ?_⟩
    · rw [positional, if_pos below]
      simp
    · rw [List.length_append, List.length_replicate]
      omega
  · by_cases short : digits.length ≤ place.toNat
    · refine Or.inl ⟨place.toNat - digits.length, ?_, by omega, by omega⟩
      simp [positional, below, short, plain]
    · refine Or.inr ⟨digits.take place.toNat, digits.drop place.toNat, 0, ?_, ?_, ?_, ?_⟩
      · simp [positional, below, short]
      · apply List.ne_nil_of_length_pos
        rw [List.length_take]
        omega
      · exact List.take_append_drop _ digits
      · rw [List.length_drop]
        omega

namespace Number

def DigitsAndPoints (s : List Char) : Prop := ∀ c ∈ s, c.isDigit = true ∨ c = '.'

variable {digits s : List Char}

theorem readFraction?_digits (some : digits ≠ []) (run : ∀ c ∈ digits, c.isDigit = true) :
    readFraction? digits = .some ⟨digitsValue digits, 0⟩ := by
  have uncut : cut? '.' digits = none := (cut?_eq_none_iff '.' digits).mpr (not_digit_mem run rfl)
  have number := readDigits?_eq_some_iff.mpr ⟨some, run, rfl⟩
  simp [readFraction?, uncut, number]

theorem readFraction?_point {whole behind : List Char} (some : whole ++ behind ≠ [])
    (run : ∀ c ∈ whole ++ behind, c.isDigit = true) :
    readFraction? (whole ++ '.' :: behind) =
      .some ⟨digitsValue (whole ++ behind), -(behind.length : Int)⟩ := by
  have pointless : '.' ∉ whole := fun point =>
    not_digit_mem run rfl (List.mem_append_left behind point)
  have number := readDigits?_eq_some_iff.mpr ⟨some, run, rfl⟩
  simp [readFraction?, cut?_append '.' whole behind pointless, number]

/-- Wherever the point is put, the digits are read with as many places behind it as they have. -/
theorem readFraction?_positional (run : ∀ c ∈ digits, c.isDigit = true) (place : Int) :
    ∃ d, readFraction? (NumberLayout.plain.positional digits place) = some d ∧
      d.nearest = (Decimal.ofDigits digits place).nearest := by
  rcases NumberLayout.positional_eq digits place with
    ⟨zeros, written, filled, positive⟩ | ⟨whole, behind, zeros, written, some, parts, places⟩
  · have runFilled := List.forall_mem_append.mpr ⟨run, digits_zeros zeros⟩
    have some : digits ++ List.replicate zeros '0' ≠ [] := by
      apply List.ne_nil_of_length_pos
      rw [List.length_append, List.length_replicate]
      omega
    have exponent : place - digits.length = 0 + zeros := by omega
    rw [written]
    refine ⟨_, readFraction?_digits some runFilled, ?_⟩
    rw [digitsValue_zeros_behind, Decimal.nearest_of_zeros, Decimal.ofDigits, exponent]
  · have runParts : ∀ c ∈ whole ++ behind, c.isDigit = true := by
      rw [parts]
      exact List.forall_mem_append.mpr ⟨digits_zeros zeros, run⟩
    have read := readFraction?_point (List.append_ne_nil_of_left_ne_nil some behind) runParts
    rw [parts, digitsValue_zeros, ← places] at read
    exact ⟨_, written ▸ read, rfl⟩

theorem digitsAndPoints_positional (run : ∀ c ∈ digits, c.isDigit = true) (place : Int) :
    DigitsAndPoints (NumberLayout.plain.positional digits place) := by
  intro c member
  rcases NumberLayout.positional_eq digits place with
    ⟨zeros, written, _⟩ | ⟨whole, behind, zeros, written, _, parts, _⟩
  · rw [written] at member
    exact Or.inl (List.forall_mem_append.mpr ⟨run, digits_zeros zeros⟩ c member)
  · have runParts : ∀ c ∈ whole ++ behind, c.isDigit = true := by
      rw [parts]
      exact List.forall_mem_append.mpr ⟨digits_zeros zeros, run⟩
    rw [written, List.mem_append, List.mem_cons] at member
    rcases member with inWhole | point | inBehind
    · exact Or.inl (runParts c (List.mem_append_left _ inWhole))
    · exact Or.inr point
    · exact Or.inl (runParts c (List.mem_append_right _ inBehind))

theorem readSign_of_unsigned (noDash : '-' ∉ s) (noPlus : '+' ∉ s) : readSign s = (false, s) := by
  unfold readSign
  split
  · simp at noDash
  · simp at noPlus
  · rfl

theorem DigitsAndPoints.absent {c : Char} (plain : DigitsAndPoints s)
    (notDigit : c.isDigit = false) (notPoint : c ≠ '.') : c ∉ s := by
  intro member
  rcases plain c member with digit | point
  · exact ne_of_digit digit notDigit rfl
  · exact notPoint point

theorem readDecimal?_plain (plain : DigitsAndPoints s) : readDecimal? s = readFraction? s := by
  have small : s.map (fun c => if c = 'E' then 'e' else c) = s := by
    refine (List.map_congr_left fun c member => ?_).trans (List.map_id s)
    refine if_neg fun capital => ?_
    exact plain.absent (by decide) (by decide) (capital ▸ member)
  have uncut : cutExponent? s = none := by
    rw [cutExponent?, small]
    exact (cut?_eq_none_iff 'e' s).mpr (plain.absent (by decide) (by decide))
  rw [readDecimal?, uncut]

theorem parse?_plain (plain : DigitsAndPoints s) (negative : Bool) :
    parse? ((if negative then ['-'] else []) ++ s) =
      (readFraction? s).map fun d => .ofCode negative d.nearest := by
  have signed : readSign ((if negative then ['-'] else []) ++ s) = (negative, s) := by
    cases negative with
    | true => rfl
    | false =>
      have noDash : '-' ∉ s := plain.absent (by decide) (by decide)
      have noPlus : '+' ∉ s := plain.absent (by decide) (by decide)
      exact readSign_of_unsigned noDash noPlus
  have unnamed {name : List Char} (named : 'n' ∈ name) : lower s ≠ name := by
    rintro rfl
    obtain ⟨c, member, small⟩ := List.mem_map.mp named
    have same : c.toLower = c := by
      rcases plain c member with digit | point
      · exact toLower_of_digit digit
      · rw [point]
        rfl
    rw [same] at small
    exact plain.absent (by decide) (by decide) (small ▸ member)
  simp only [parse?, signed]
  rw [if_neg, if_neg, readDecimal?_plain plain]
  · exact unnamed (by decide)
  · exact not_or.mpr ⟨unnamed (by decide), unnamed (by decide)⟩

theorem ofCode_code (x : Binary64) : ofCode x.negative x.code = .finite x := dif_pos x.finite

end Number

namespace Binary64

open Number

theorem magnitude_eq {code : Nat} (some : code ≠ 0) : NumberLayout.plain.magnitude code =
    NumberLayout.plain.positional (Decimal.shortest .up code).significant.1
      (Decimal.shortest .up code).significant.2 := by
  simp only [NumberLayout.magnitude, NumberLayout.plain, if_neg some, ↓reduceIte]

theorem digitsAndPoints_magnitude (code : Nat) :
    DigitsAndPoints (NumberLayout.plain.magnitude code) := by
  by_cases none : code = 0
  · subst none
    exact List.forall_mem_singleton.mpr (Or.inl rfl)
  · rw [magnitude_eq none]
    exact digitsAndPoints_positional (Decimal.shortest .up code).digits_significant _

theorem readFraction?_magnitude {code : Nat} (finite : code < codeLimit) :
    ∃ d, readFraction? (NumberLayout.plain.magnitude code) = some d ∧ d.nearest = code := by
  by_cases none : code = 0
  · subst none
    exact ⟨⟨0, 0⟩, rfl, rfl⟩
  · have run := (Decimal.shortest .up code).digits_significant
    obtain ⟨d, read, same⟩ := readFraction?_positional run (Decimal.shortest .up code).significant.2
    rw [magnitude_eq none]
    refine ⟨d, read, ?_⟩
    rw [same, Decimal.nearest_significant, Decimal.nearest_shortest .up none finite]

theorem parse?_chars (x : Binary64) : parse? x.chars = some (.finite x) := by
  obtain ⟨d, read, same⟩ := readFraction?_magnitude x.finite
  rw [chars, NumberLayout.write, parse?_plain (digitsAndPoints_magnitude x.code), read,
    Option.map_some, same, ofCode_code]

theorem chars_of_number (x : Binary64) : ∀ c ∈ x.chars, c.isDigit = true ∨ c = '.' ∨ c = '-' := by
  intro c member
  rcases List.mem_append.mp member with sign | inMagnitude
  · split at sign
    · exact Or.inr (Or.inr (List.mem_singleton.mp sign))
    · simp at sign
  · exact (digitsAndPoints_magnitude x.code c inMagnitude).imp_right Or.inl

end Binary64

end AggregateQuery
