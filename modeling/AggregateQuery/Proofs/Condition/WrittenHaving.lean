import AggregateQuery.Proofs.Condition.HavingText
import AggregateQuery.Proofs.Condition.ListedValues
import AggregateQuery.Proofs.Number.WrittenNumber
/-!
Written havings. No character of a number needs an escape, so a having that is read is written as
the clause of its metric, the name of its operation and the texts of its values, and gives them all
back.
-/
namespace AggregateQuery

open Text

namespace HavingOperation

theorem ofName?_name (op : HavingOperation) : ofName? op.name = some op := by
  cases op <;> decide

theorem name_letters (op : HavingOperation) : ∀ c ∈ op.name.toList, c.isAlpha = true := by
  have all : op.name.toList.all Char.isAlpha = true := by cases op <;> decide
  exact List.all_eq_true.mp all

theorem name_ne_nil (op : HavingOperation) : op.name.toList ≠ [] := by
  cases op <;> decide

end HavingOperation

namespace Text.Percent

theorem isPlain_of_digit {c : Char} (digit : c.isDigit = true) : isPlain c = true := by
  have bounds := isDigit_bounds digit
  have other (mark : Char) (notDigit : mark.isDigit = false) : c ≠ mark :=
    ne_of_digit digit notDigit
  simp only [isPlain, Bool.and_eq_true, decide_eq_true_eq, bne_iff_ne, other '%' rfl, other ',' rfl,
    other ';' rfl, other '[' rfl, other ']' rfl, other '"' rfl, ne_eq, not_false_eq_true, and_true]
  omega

end Text.Percent

namespace Binary64

theorem plain_chars (x : Binary64) : ∀ c ∈ x.chars, Percent.isPlain c = true := by
  intro c member
  rcases x.chars_of_number c member with digit | rfl | rfl
  · exact Percent.isPlain_of_digit digit
  · decide
  · decide

theorem chars_ne_nil (x : Binary64) : x.chars ≠ [] := by
  intro none
  have read := x.parse?_chars
  rw [none] at read
  contradiction

end Binary64

namespace Having

variable {h : Having}

theorem readValue_chars (x : Binary64) : readValue (String.ofList x.chars) = .ok x := by
  have visible : ∀ c ∈ x.chars, isBlank c = false :=
    fun c member => Percent.visible_of_plain (x.plain_chars c member)
  rw [readValue, String.toList_ofList, trim_of_no_blanks visible, x.parse?_chars]
  rfl

def valueTexts (h : Having) : List String := h.values.map fun v => String.ofList v.chars

def clause (h : Having) : Clause := ⟨h.metric.name, h.operation.name, some h.valueTexts⟩

theorem valueTexts_inhabited (h : Having) : "" ∉ h.valueTexts := by
  intro member
  obtain ⟨v, _, empty⟩ := List.mem_map.mp member
  exact v.chars_ne_nil (String.ofList_eq_empty_iff.mp empty)

theorem chars_eq (h : Having) :
    h.chars = h.clause.headChars ++ ('[' :: Clause.valueChars h.valueTexts ++ [']']) := by
  have plain : h.valueTexts.map (fun v => Percent.encode v.toList) =
      h.values.map Binary64.chars := by
    rw [valueTexts, List.map_map]
    refine List.map_congr_left fun v _ => ?_
    rw [Function.comp_apply, String.toList_ofList, Percent.encode_of_plain v.plain_chars]
  rw [Clause.valueChars, plain]
  simp [chars, Clause.headChars, clause]

theorem ofChars_chars (valid : Clause.IsHead h.clause.subject.toList h.clause.operation.toList) :
    Clause.ofChars h.chars = .ok h.clause := by
  obtain ⟨opening, closing⟩ := Clause.valueChars_without_brackets h.valueTexts
  have listed := Clause.ofChars_listed h.clause valid opening closing
  rw [Clause.decodeValues_valueChars h.valueTexts_inhabited] at listed
  rwa [h.chars_eq, ← List.append_assoc]

/-- A having that is read is read again from what is written of it. -/
theorem written_having_read_back {catalog : Catalog} {table : Table} {text : List Char}
    (read : parse catalog.resolver table text = .ok h) :
    parse catalog.resolver table (toString h).toList = .ok h := by
  obtain ⟨clause, readClause, found, _, _, admits⟩ := parse_eq_ok_iff.mp read
  obtain ⟨named, _⟩ := Catalog.resolver_metric?_eq_some_iff.mp found
  obtain ⟨head, _⟩ := Clause.ofChars_eq_ok_iff.mp readClause
  rw [← named] at found head
  have valid : Clause.IsHead h.clause.subject.toList h.clause.operation.toList :=
    ⟨head.someSubject, head.subjectChars, h.operation.name_ne_nil, h.operation.name_letters⟩
  have printed : (toString h).toList = h.chars := String.toList_ofList
  rw [printed]
  refine parse_eq_ok_iff.mpr ⟨h.clause, ofChars_chars valid, found, h.operation.ofName?_name, ?_,
    admits⟩
  exact mapM_map_eq_ok fun v _ => readValue_chars v

theorem written_having_read_back_alias : ∃ h,
    parse SmallCatalog.catalog.resolver SmallCatalog.orders
      " sales-equalTo[ -1.5e3 ,%302.50,-0]".toList = .ok h ∧
    toString h = "sales-eq[-1500,2.5,-0]" ∧
    parse SmallCatalog.catalog.resolver SmallCatalog.orders (toString h).toList = .ok h := by
  have printed : (parse SmallCatalog.catalog.resolver SmallCatalog.orders
      " sales-equalTo[ -1.5e3 ,%302.50,-0]".toList).map toString =
        .ok "sales-eq[-1500,2.5,-0]" := by decide +kernel
  obtain ⟨h, read, written⟩ := map_eq_ok_iff.mp printed
  exact ⟨h, read, written, written_having_read_back read⟩

end Having

end AggregateQuery
