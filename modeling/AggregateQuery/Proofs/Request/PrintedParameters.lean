import AggregateQuery.Proofs.Time.ZoneText
import AggregateQuery.Request.Parameter
/-!
Values of parameters as they are printed. A zone and a wait are read back from what is printed of
them. So is a granularity without a zone; with one, its text is no granularity.
-/
namespace AggregateQuery

open Text

namespace Zone

theorem hasForm_chars (z : Zone) : HasForm WritesDigits z.chars z := by
  obtain ⟨offset, above, below⟩ := z
  by_cases none : offset = 0
  · subst none
    exact .name (List.mem_cons.mpr (Or.inl rfl))
  · have hours := WritesDigits.padded 2 (offset.natAbs / 60)
    have minutes := WritesDigits.padded 2 (offset.natAbs % 60)
    have form := HasForm.offset (z := ⟨offset, above, below⟩) (decide (offset < 0)) .colon hours
      minutes (by omega) (by omega) ?_
    · simpa [chars, none] using form
    · rw [seconds]
      by_cases west : offset < 0
      · simp only [west, decide_true, ↓reduceIte]
        omega
      · simp only [west, decide_false, Bool.false_eq_true, ↓reduceIte]
        omega

theorem visible_chars (z : Zone) : ∀ c ∈ z.chars, isBlank c = false := by
  have digits (value : Nat) : ∀ c ∈ paddedChars 2 value, isBlank c = false :=
    fun c member => visible_of_digit (digits_paddedChars 2 value c member)
  rw [chars]
  split
  · simp [isBlank]
  · simp only [List.forall_mem_cons, List.forall_mem_append]
    exact ⟨by split <;> rfl, digits _, rfl, digits _⟩

theorem parse_toString (z : Zone) : parse (toString z) = .ok z := by
  have printed : (toString z).toList = z.chars := String.toList_ofList
  rw [parse_eq_ok_iff, printed, trim_of_no_blanks z.visible_chars]
  exact z.hasForm_chars.signed

end Zone

namespace Granularity

theorem parse?_eq_none_of_mark {text : List Char} (marked : '(' ∈ trim text) :
    parse? text = none := by
  have notAll : sameKeyword (trim text) "all".toList = false :=
    not_sameKeyword rfl marked (by decide)
  have noGrain : Grain.ofName? text = none := by
    refine List.find?_eq_none.mpr fun g _ same => ?_
    have absent : '(' ∉ lower g.name.toList := by cases g <;> decide
    rw [sameKeyword, beq_iff_eq] at same
    exact absent (same ▸ mem_lower rfl marked)
  rw [parse?, notAll, noGrain]
  rfl

theorem parse?_chars (g : Granularity) :
    parse? g.chars = if g.zone? = none then some g else none := by
  cases g with
  | all => decide
  | every grain zone =>
    cases zone with
    | none => cases grain <;> decide
    | some zone =>
      exact parse?_eq_none_of_mark ((mem_trim_iff (by decide)).mpr (by simp [chars]))

end Granularity

namespace AsyncAfter

theorem parse?_chars (a : AsyncAfter) : parse? (String.ofList a.chars) = some a := by
  cases a with
  | never => decide
  | always => decide
  | after milliseconds bounded =>
    have digits := digits_natChars milliseconds
    obtain ⟨digit, first⟩ := List.exists_mem_of_ne_nil _ (natChars_ne_nil milliseconds)
    have isDigit := digits digit first
    have noKeyword {keyword : List Char} (letters : (lower keyword).all (!·.isDigit) = true) :
        sameKeyword (natChars milliseconds) keyword = false := by
      refine not_sameKeyword (toLower_of_digit isDigit) first fun member => ?_
      simpa [isDigit] using List.all_eq_true.mp letters digit member
    have written : (after milliseconds bounded).chars = natChars milliseconds := rfl
    have trimmed : trim (natChars milliseconds) = natChars milliseconds :=
      trim_of_no_blanks fun c member => visible_of_digit (digits c member)
    simp only [written, parse?, String.toList_ofList, trimmed]
    rw [noKeyword rfl, noKeyword rfl, readNat?_natChars bounded]
    exact dif_pos bounded

end AsyncAfter

/-- Zones and waits are read back from their printed texts. Of granularities those without a zone
are; the text of one with a zone is refused. -/
theorem printed_values_read_back :
    (∀ z : Zone, Zone.parse (toString z) = .ok z) ∧
    (∀ g : Granularity, Granularity.parse (toString g) =
      if g.zone? = none then .ok g else .error (.unknownGranularity (toString g))) ∧
    ∀ a : AsyncAfter, AsyncAfter.parse (toString a) = .ok a := by
  refine ⟨Zone.parse_toString, ?_, ?_⟩
  · intro g
    have printed : (toString g).toList = g.chars := String.toList_ofList
    rw [Granularity.parse, readTime, printed, Granularity.parse?_chars]
    by_cases zoneless : g.zone? = none
    · rw [if_pos zoneless, if_pos zoneless]
    · rw [if_neg zoneless, if_neg zoneless]
      rfl
  · intro a
    have printed : toString a = String.ofList a.chars := rfl
    rw [AsyncAfter.parse, printed, AsyncAfter.parse?_chars]
    rfl

theorem zoned_day_not_read_back :
    toString (Granularity.inZone ⟨330, by decide, by decide⟩ (.every .day none)) = "day(+05:30)" ∧
    Granularity.parse
        (toString (Granularity.inZone ⟨330, by decide, by decide⟩ (.every .day none))) =
      .error (.unknownGranularity "day(+05:30)") := ⟨rfl, rfl⟩

end AggregateQuery
