import AggregateQuery.Proofs.Text.Cutting
import AggregateQuery.Proofs.Text.Trimming
import AggregateQuery.Request.Sort
/-!
The columns that sorts are read for. A point makes a column a field of a dimension, the name of time
stands for time, and what is left is the name of a metric.
-/
namespace AggregateQuery.SortColumn

open Text

variable {text : List Char}

theorem parse_eq_metric_iff {name : String} : parse text = .ok (metric name) ↔
    trim text = name.toList ∧ name ≠ "" ∧ name ≠ dateTimeName ∧ '.' ∉ name.toList := by
  constructor
  · intro read
    simp only [parse] at read
    split at read
    · contradiction
    · rename_i some
      split at read
      · simp at read
      · rename_i notTime
        split at read
        · rename_i uncut
          obtain rfl := SortColumn.metric.inj (Except.ok.inj read)
          rw [String.toList_ofList]
          refine ⟨rfl, ?_, ?_, (cut?_eq_none_iff '.' _).mp uncut⟩
          · simpa using some
          · intro same
            rw [← same, String.toList_ofList] at notTime
            exact notTime rfl
        · split at read
          · contradiction
          · simp at read
  · rintro ⟨whole, some, notTime, undotted⟩
    have other : name.toList ≠ dateTimeName.toList :=
      fun same => notTime (String.toList_inj.mp same)
    simp only [parse, whole, other, ↓reduceIte]
    rw [(cut?_eq_none_iff '.' _).mpr undotted]
    simp [some]

theorem parse_eq_dimensionField_iff {dimension field : String} :
    parse text = .ok (dimensionField dimension field) ↔
      trim text = dimension.toList ++ '.' :: field.toList ∧ '.' ∉ dimension.toList ∧
        dimension ≠ "" ∧ field ≠ "" := by
  constructor
  · intro read
    simp only [parse] at read
    split at read
    · contradiction
    · split at read
      · simp at read
      · split at read
        · simp at read
        · rename_i first second cut
          obtain ⟨whole, undotted⟩ := cut?_eq_some_iff.mp cut
          split at read
          · contradiction
          · rename_i some
            obtain ⟨rfl, rfl⟩ := SortColumn.dimensionField.inj (Except.ok.inj read)
            simpa [undotted] using And.intro whole some
  · rintro ⟨whole, undotted, someDimension, someField⟩
    have notTime : trim text ≠ dateTimeName.toList := by
      intro same
      have dotted : '.' ∈ trim text := by simp [whole]
      rw [same] at dotted
      exact absurd dotted (by decide)
    have some : (trim text).isEmpty = false := by simp [whole]
    simp only [parse, some, notTime, Bool.false_eq_true, ↓reduceIte]
    rw [whole, cut?_append '.' _ _ undotted]
    simp [someDimension, someField]

end AggregateQuery.SortColumn
