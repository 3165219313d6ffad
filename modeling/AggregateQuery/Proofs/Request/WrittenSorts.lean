import AggregateQuery.Proofs.Condition.WrittenQuery
import AggregateQuery.Proofs.Request.SortText
/-!
Written sorts. A sort that is read is written with its column as it stood, so the list that writes
sorts is cut where the list they were read from was cut, however brackets are placed in it.
-/
namespace AggregateQuery

open Text

variable {text : List Char}

namespace SortDirection

variable {direction : SortDirection}

theorem parse_name (direction : SortDirection) : parse direction.name.toList = .ok direction := by
  cases direction <;> decide

theorem name_letters (direction : SortDirection) :
    ∀ c ∈ direction.name.toList, c.isAlpha = true := by
  have all : direction.name.toList.all Char.isAlpha = true := by cases direction <;> decide
  exact List.all_eq_true.mp all

theorem unbracketed_of_parse (read : parse text = .ok direction) : '[' ∉ text ∧ ']' ∉ text := by
  have absent {bracket : Char} (visible : isBlank bracket = false)
      (caseless : bracket.toLower = bracket) (notAsc : bracket ∉ lower "asc".toList)
      (notDesc : bracket ∉ lower "desc".toList) : bracket ∉ text := by
    intro member
    have trimmed := (mem_trim_iff visible).mpr member
    have unread : parse text = .error (.unknownSortDirection (String.ofList text)) := by
      simp only [parse, not_sameKeyword caseless trimmed notAsc,
        not_sameKeyword caseless trimmed notDesc, Bool.false_eq_true, ↓reduceIte]
    rw [unread] at read
    contradiction
  exact ⟨absent rfl rfl (by decide) (by decide), absent rfl rfl (by decide) (by decide)⟩

end SortDirection

namespace SortColumn

theorem parse_trim (text : List Char) : parse (trim text) = parse text := by
  simp only [parse, trim_trim]

theorem chars_of_parse {column : SortColumn} (read : parse text = .ok column) :
    column.chars = trim text ∧ trim text ≠ [] := by
  have some : trim text ≠ [] := by
    intro none
    simp [parse, none] at read
  refine ⟨?_, some⟩
  cases column with
  | metric name => exact (parse_eq_metric_iff.mp read).1.symm
  | dimensionField dimension field => exact (parse_eq_dimensionField_iff.mp read).1.symm
  | dateTime =>
    simp only [parse] at read
    split at read
    · contradiction
    · split at read
      · rename_i time
        exact time.symm
      · split at read
        · simp at read
        · split at read <;> simp at read

end SortColumn

namespace SortTerm

variable {s : SortTerm} {delimiter : Char}

theorem parse_eq_ok (read : parse text = .ok s) : ∃ column behind, text = column ++ behind ∧
    '|' ∉ column ∧ SortColumn.parse column = .ok s.column ∧ '[' ∉ behind ∧ ']' ∉ behind := by
  rw [parse] at read
  split at read
  · rename_i uncut
    obtain ⟨column, readColumn, rfl⟩ := map_eq_ok_iff.mp read
    exact ⟨text, [], (List.append_nil text).symm, (cut?_eq_none_iff '|' text).mp uncut,
      readColumn, by simp, by simp⟩
  · rename_i column after cut
    obtain ⟨whole, barless⟩ := cut?_eq_some_iff.mp cut
    obtain ⟨direction, readDirection, read⟩ := bind_eq_ok_iff.mp read
    obtain ⟨_, readColumn, same⟩ := bind_eq_ok_iff.mp read
    obtain rfl := pure_eq_ok_iff.mp same
    obtain ⟨opening, closing⟩ := SortDirection.unbracketed_of_parse readDirection
    exact ⟨column, '|' :: after, whole, barless, readColumn, by simp [opening], by simp [closing]⟩

theorem parse_chars (read : parse text = .ok s) : parse s.chars = .ok s := by
  obtain ⟨column, behind, rfl, barless, readColumn, _⟩ := parse_eq_ok read
  obtain ⟨written, _⟩ := SortColumn.chars_of_parse readColumn
  have barlessToo : '|' ∉ s.column.chars := by
    rw [written, mem_trim_iff (by decide)]
    exact barless
  have readAgain : SortColumn.parse s.column.chars = .ok s.column := by
    rw [written, SortColumn.parse_trim, readColumn]
  rw [parse, chars, cut?_append '|' _ _ barlessToo]
  simp only [SortDirection.parse_name, readAgain]
  rfl

theorem unbracketed_direction (s : SortTerm) :
    '[' ∉ '|' :: s.direction.name.toList ∧ ']' ∉ '|' :: s.direction.name.toList := by
  cases s.direction <;> decide

theorem depthAfter_chars (read : parse text = .ok s) :
    depthAfter 0 s.chars = depthAfter 0 text := by
  obtain ⟨column, behind, rfl, _, readColumn, opening, closing⟩ := parse_eq_ok read
  obtain ⟨written, _⟩ := SortColumn.chars_of_parse readColumn
  rw [chars, depthAfter_append, depthAfter_append, written, depthAfter_trim,
    depthAfter_of_no_bracket _ opening closing,
    depthAfter_of_no_bracket _ s.unbracketed_direction.1 s.unbracketed_direction.2]

theorem chars_hide (accepted : Delimiters.isRefused delimiter = false) (read : parse text = .ok s)
    (hides : HidesDelimiter delimiter 0 text) : HidesDelimiter delimiter 0 s.chars := by
  obtain ⟨column, behind, rfl, _, readColumn, _⟩ := parse_eq_ok read
  obtain ⟨written, _⟩ := SortColumn.chars_of_parse readColumn
  obtain ⟨_, _, _, letter⟩ := Delimiters.accepted accepted
  have notBar : delimiter ≠ '|' := by
    rintro rfl
    exact absurd accepted (by decide)
  have outside : delimiter ∉ '|' :: s.direction.name.toList := by
    simp [notBar, Clause.not_letter_mem letter s.direction.name_letters]
  rw [chars, written, hidesDelimiter_append]
  exact ⟨hidesDelimiter_trim (hidesDelimiter_append.mp hides).1,
    hidesDelimiter_of_not_mem _ outside⟩

theorem not_blank_chars (s : SortTerm) : isBlankText s.chars = false :=
  List.all_eq_false.mpr ⟨'|', by simp [chars], by decide⟩

theorem trim_chars (read : parse text = .ok s) : trim s.chars = s.chars := by
  obtain ⟨column, behind, _, _, readColumn, _⟩ := parse_eq_ok read
  obtain ⟨written, some⟩ := SortColumn.chars_of_parse readColumn
  apply trim_of_isTrimmed
  rw [chars, written]
  constructor
  · rw [List.head?_append_of_ne_nil _ some]
    exact (isTrimmed_trim column).1
  · cases s.direction <;> simp [SortDirection.name, isBlank]

theorem toList_joined (delimiter : Char) (sorts : List SortTerm) :
    ((String.singleton delimiter).intercalate (sorts.map toString)).toList =
      joinWith delimiter (sorts.map chars) := by
  have written (s : SortTerm) : (toString s).toList = s.chars := String.toList_ofList
  rw [String.toList_intercalate, List.map_map, String.toList_singleton]
  exact congrArg (joinWith delimiter) (List.map_congr_left fun s _ => written s)

/-- Entry by entry a list of sorts is written with the brackets it was read from. -/
theorem depths_of_parseAll {query : String} {sorts : List SortTerm}
    (read : parseAll delimiter query = .ok sorts) :
    (sorts.map chars).map (depthAfter 0) = (entries delimiter query.toList).map (depthAfter 0) := by
  have each := mapM_eq_ok_iff_forall₂.mp read
  clear read
  generalize entries delimiter query.toList = texts at each ⊢
  induction each with
  | nil => rfl
  | cons one _ ih =>
    rw [List.map_cons, List.map_cons, List.map_cons, ih, depthAfter_chars one]

/-- Sorts that are read are read again from the list of what is written of them. -/
theorem written_sorts_read_back {query : String} {sorts : List SortTerm}
    (accepted : Delimiters.isRefused delimiter = false)
    (read : parseAll delimiter query = .ok sorts) :
    parseAll delimiter ((String.singleton delimiter).intercalate (sorts.map toString)) =
      .ok sorts := by
  obtain ⟨delimits, _⟩ := Delimiters.accepted accepted
  have source : ∀ s ∈ sorts, ∃ entry ∈ entries delimiter query.toList, parse entry = .ok s :=
    read_from_of_mapM read
  have visible : ∀ piece ∈ sorts.map chars, isBlankText piece = false := by
    simp [not_blank_chars]
  have hides : ∀ piece ∈ sorts.map chars, HidesDelimiter delimiter 0 piece := by
    rw [List.forall_mem_map]
    intro s member
    obtain ⟨entry, among, one⟩ := source s member
    exact chars_hide accepted one (entries_hide delimits among)
  have closed : ∀ piece ∈ (sorts.map chars).dropLast, depthAfter 0 piece = 0 := by
    -- Of the entries that were read only the last can leave brackets open.
    have closedDepths : ∀ depth ∈ ((sorts.map chars).map (depthAfter 0)).dropLast, depth = 0 := by
      rw [depths_of_parseAll read, ← List.map_dropLast, List.forall_mem_map]
      exact fun entry member => closed_entries delimits member
    rwa [← List.map_dropLast, List.forall_mem_map] at closedDepths
  have trimmed : (sorts.map chars).map trim = sorts.map chars := by
    rw [List.map_map]
    refine List.map_congr_left fun s member => ?_
    obtain ⟨entry, _, one⟩ := source s member
    exact trim_chars one
  rw [parseAll, toList_joined, entries_of_joined_open delimits visible hides closed, trimmed]
  refine mapM_map_eq_ok fun s member => ?_
  obtain ⟨entry, _, one⟩ := source s member
  exact parse_chars one

theorem written_sorts_read_back_brackets : ∃ sorts,
    Delimiters.isRefused ';' = false ∧
    parseAll ';' "b]ar [x;y]| aSc ;a.b.c;dateTime; last[;" = .ok sorts ∧
    (String.singleton ';').intercalate (sorts.map toString) =
      "b]ar [x;y]|asc;a.b.c|desc;dateTime|desc;last[;|desc" ∧
    parseAll ';' ((String.singleton ';').intercalate (sorts.map toString)) = .ok sorts := by
  have accepted : Delimiters.isRefused ';' = false := by decide +kernel
  have read : parseAll ';' "b]ar [x;y]| aSc ;a.b.c;dateTime; last[;" =
      .ok [⟨.metric "b]ar [x;y]", .ascending⟩, ⟨.dimensionField "a" "b.c", .descending⟩,
        ⟨.dateTime, .descending⟩, ⟨.metric "last[;", .descending⟩] := rfl
  exact ⟨_, accepted, read, rfl, written_sorts_read_back accepted read⟩

end SortTerm

end AggregateQuery
