import AggregateQuery.Proofs.Condition.ListedValues
/-!
Values with their escapes in a clause. Whatever characters the values hold, the clause keeps its
subject and its operation, and it lists the same values unless one of them is empty. No value that
is read is empty, so a clause that was read is read again from what is written of it.
-/
namespace AggregateQuery.Clause

open Text

def written (clause : Clause) : String :=
  clause.subject ++ "-" ++ clause.operation ++
    match clause.values with
    | none => ""
    | some values => "[" ++ ",".intercalate (values.map encodeValue) ++ "]"

theorem toList_joined (values : List String) :
    (",".intercalate (values.map encodeValue)).toList = valueChars values := by
  rw [String.toList_intercalate, List.map_map]
  refine congrArg (joinWith ',') (List.map_congr_left fun value _ => ?_)
  exact String.toList_ofList

theorem toList_written_bare (subject operation : String) :
    (written ⟨subject, operation, none⟩).toList = headChars ⟨subject, operation, none⟩ := by
  simp [written, headChars]

theorem toList_written_listed (subject operation : String) (values : List String) :
    (written ⟨subject, operation, some values⟩).toList =
      headChars ⟨subject, operation, none⟩ ++ '[' :: valueChars values ++ [']'] := by
  simp [written, headChars, ← toList_joined]

/-- What is read of the values does not depend on the head, nor the head on the values. -/
theorem parse_written_listed {subject operation : String}
    (valid : IsHead subject.toList operation.toList) (values : List String) :
    parse (written ⟨subject, operation, some values⟩) =
      (decodeValues (valueChars values)).map fun read => ⟨subject, operation, some read⟩ := by
  obtain ⟨opening, closing⟩ := valueChars_without_brackets values
  rw [parse, toList_written_listed]
  exact ofChars_listed ⟨subject, operation, none⟩ valid opening closing

theorem parse_written_bare {subject operation : String}
    (valid : IsHead subject.toList operation.toList) :
    parse (written ⟨subject, operation, none⟩) = .ok ⟨subject, operation, none⟩ := by
  rw [parse, toList_written_bare]
  refine ofChars_eq_ok_iff.mpr ⟨valid, [], ?_, .absent⟩
  rw [List.append_nil]
  exact trim_of_no_blanks fun c member => (head_chars valid c member).2.2

/-- Behind a head that is read alone, written values are read back exactly when none of them is
empty. An empty value by itself is read as no value, beside others it is missed; the head is the
same all the while. What was read of a clause is read again when it is written. -/
theorem encoded_values_keep_structure :
    (∀ {head subject operation : String}, parse head = .ok ⟨subject, operation, none⟩ →
      ∀ values, (parse (written ⟨subject, operation, some values⟩) =
          .ok ⟨subject, operation, some values⟩ ↔ "" ∉ values) ∧
        ("" ∈ values → parse (written ⟨subject, operation, some values⟩) =
          if values = [""] then .ok ⟨subject, operation, some []⟩ else .error .emptyValue)) ∧
    ∀ {text : String} {clause : Clause}, parse text = .ok clause →
      parse clause.written = .ok clause := by
  refine ⟨?_, ?_⟩
  · intro head subject operation accepted values
    obtain ⟨valid, _⟩ := ofChars_eq_ok_iff.mp accepted
    rw [parse_written_listed valid, decodeValues_written]
    by_cases empty : "" ∈ values
    · by_cases lone : values = [""]
      · subst lone
        simp [Except.map]
      · simp [Except.map, empty, lone]
    · have several : values ≠ [""] := by
        rintro rfl
        exact empty List.mem_cons_self
      simp [Except.map, empty, several]
  · intro text clause accepted
    obtain ⟨valid, tail, _, reads⟩ := ofChars_eq_ok_iff.mp accepted
    obtain ⟨subject, operation, values⟩ := clause
    cases values with
    | none => exact parse_written_bare valid
    | some values =>
      have inhabited : "" ∉ values := readsValues_inhabited reads
      rw [parse_written_listed valid, decodeValues_valueChars inhabited]
      rfl

theorem marks_in_values_kept :
    parse " a.b-in\t" = .ok ⟨"a.b", "in", none⟩ ∧
    parse (written ⟨"a.b", "in", some ["50% off, [new] 日本", " ", "%2C;\t\""]⟩) =
      .ok ⟨"a.b", "in", some ["50% off, [new] 日本", " ", "%2C;\t\""]⟩ ∧
    parse (written ⟨"a.b", "in", some ["x", ""]⟩) = .error .emptyValue ∧
    parse "a.b-in[ %20é ,%5b]" = .ok ⟨"a.b", "in", some [" é", "["]⟩ ∧
    parse (written ⟨"a.b", "in", some [" é", "["]⟩) = .ok ⟨"a.b", "in", some [" é", "["]⟩ := by
  obtain ⟨behindHead, readAgain⟩ := encoded_values_keep_structure
  have bare : parse " a.b-in\t" = .ok ⟨"a.b", "in", none⟩ := by decide +kernel
  have listed : parse "a.b-in[ %20é ,%5b]" = .ok ⟨"a.b", "in", some [" é", "["]⟩ := by
    decide +kernel
  refine ⟨bare, ?_, ?_, listed, readAgain listed⟩
  · exact (behindHead bare _).1.mpr (by decide)
  · exact (behindHead bare ["x", ""]).2 (by decide)

end AggregateQuery.Clause
