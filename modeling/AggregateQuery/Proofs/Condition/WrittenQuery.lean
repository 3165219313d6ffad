import AggregateQuery.Proofs.Condition.Queries
import AggregateQuery.Proofs.Condition.WrittenFilter
import AggregateQuery.Settings.Basic
/-!
Written queries. The filters of an accepted query hold nothing that its delimiter could cut, apart
from key fields that were not named in it; so the query that lists them is read back, group by
group and filter by filter.
-/
namespace AggregateQuery

open Text

theorem Delimiters.accepted {delimiter : Char} (accepted : isRefused delimiter = false) :
    CanDelimit delimiter ∧ delimiter ≠ '-' ∧ delimiter ≠ '.' ∧ delimiter.isAlpha = false := by
  simp only [isRefused, reserved, isAlphanumeric, Char.isAlphanum, Bool.or_eq_false_iff] at accepted
  obtain ⟨free, ⟨letter, _⟩, _⟩ := accepted
  simp only [List.contains_eq_mem, decide_eq_false_iff_not, List.mem_cons, not_or] at free
  exact ⟨⟨free.1, free.2.1⟩, free.2.2.1, free.2.2.2.1, letter⟩

theorem not_mem_of_hidden {delimiter : Char} {head tail : List Char} (opening : '[' ∉ head)
    (closing : ']' ∉ head) (hides : HidesDelimiter delimiter 0 (head ++ tail)) :
    delimiter ∉ head := by
  intro member
  obtain ⟨before, after, rfl⟩ := List.append_of_mem member
  simp only [List.mem_append, not_or] at opening closing
  apply hides before (after ++ tail)
  · simp
  · exact depthAfter_of_no_bracket 0 opening.1 closing.1

theorem Clause.hidesDelimiter_readsValues {delimiter : Char} (delimits : CanDelimit delimiter)
    {tail : List Char} {values : Option (List String)} (reads : ReadsValues tail values) :
    HidesDelimiter delimiter 0 tail := by
  cases reads with
  | absent => exact hidesDelimiter_of_not_mem 0 (by simp)
  | listed inner values opening closing decoded =>
    exact hidesDelimiter_brackets delimits opening closing

namespace Filter

variable {f : Filter} {delimiter : Char}

theorem not_blank_chars (f : Filter) : isBlankText f.chars = false := by
  refine List.all_eq_false.mpr ⟨'.', ?_, by decide⟩
  simp [chars]

theorem depthAfter_chars (spellable : f.Spellable) : depthAfter 0 f.chars = 0 :=
  Clause.depthAfter_of_ofChars (ofChars_chars spellable)

theorem chars_hide (accepted : Delimiters.isRefused delimiter = false) (spellable : f.Spellable)
    (absent : delimiter ∉ f.subjectChars) : HidesDelimiter delimiter 0 f.chars := by
  obtain ⟨delimits, dash, _, letter⟩ := Delimiters.accepted accepted
  obtain ⟨tail, whole, _, reads⟩ := f.chars_eq
  have outside : delimiter ∉ f.clause.headChars := by
    have operation := Clause.not_letter_mem letter f.operation.name_letters
    simp [Clause.headChars, clause, absent, dash, operation]
  obtain ⟨opening, closing⟩ := Clause.head_without_brackets (isHead_of_spellable spellable)
  rw [whole, hidesDelimiter_append]
  refine ⟨hidesDelimiter_of_not_mem 0 outside, ?_⟩
  rw [Clause.headChars, depthAfter_of_no_bracket 0 opening closing]
  exact Clause.hidesDelimiter_readsValues delimits (reads spellable.values)

/-- A filter from an entry can be listed again, if its key field can where it was not named. -/
theorem listable_of_parsed {catalog : Catalog} {table : Table} {entry : List Char}
    (accepted : Delimiters.isRefused delimiter = false)
    (read : parse catalog.resolver table entry = .ok f)
    (hides : HidesDelimiter delimiter 0 entry)
    (key : NameAvoids [delimiter, '-', '[', ']', ','] f.dimension.key) :
    f.Spellable ∧ delimiter ∉ f.subjectChars := by
  obtain ⟨_, _, dot, _⟩ := Delimiters.accepted accepted
  obtain ⟨clause, readClause, undotted, shape⟩ := parsed_subject read
  obtain ⟨valid, tail, whole, _⟩ := Clause.ofChars_eq_ok_iff.mp readClause
  obtain ⟨opening, closing⟩ := Clause.head_without_brackets valid
  have hidden := hidesDelimiter_trim hides
  rw [whole] at hidden
  have outside : delimiter ∉ clause.headChars := not_mem_of_hidden opening closing hidden
  have absent : delimiter ∉ clause.subject.toList := by
    intro member
    exact outside (List.mem_append_left _ member)
  rcases shape with ⟨bare, isKey⟩ | ⟨dotted, someDimension, someField⟩
  -- The field was left out, and will be written: nothing but the hypothesis vouches for it.
  · rw [bare] at valid absent
    have named : f.field.name = f.dimension.key := by rw [isKey]; rfl
    obtain ⟨keyAbsent, keyAvoids⟩ := avoids_cons_iff.mp key
    refine ⟨⟨?_, named ▸ keyAvoids, parsed_values_inhabited read⟩, ?_⟩
    · have some : f.dimension.name ≠ "" := by simpa using valid.someSubject
      exact avoids_cons_iff.mpr
        ⟨undotted, avoids_iff_subjectChars.mpr ⟨some, valid.subjectChars⟩⟩
    · simp [subjectChars, absent, dot, named, keyAbsent]
  · rw [dotted] at valid absent
    exact ⟨spellable_of_isHead valid undotted someDimension someField
      (parsed_values_inhabited read), absent⟩

end Filter

namespace Filters

/-- The query that lists the filters of an accepted query is read as the same filters. -/
theorem query_read_back {catalog : Catalog} {table : Table} {delimiter : Char} {given : String}
    {fs : Filters} (accepted : Delimiters.isRefused delimiter = false)
    (read : parse catalog.resolver table delimiter given = .ok fs)
    (keys : ∀ d ∈ fs.keys, NameAvoids [delimiter, '-', '[', ']', ','] d.keyField.name) :
    parse catalog.resolver table delimiter (fs.query delimiter) = .ok fs := by
  obtain ⟨delimits, _⟩ := Delimiters.accepted accepted
  have respects := parsed_respects read
  have listable : ∀ f ∈ fs.values, f.Spellable ∧ delimiter ∉ f.subjectChars := by
    intro f member
    obtain ⟨group, among, inGroup⟩ := List.mem_flatMap.mp member
    obtain ⟨own, entry, listed, one⟩ := (respects group among).2 f inGroup
    have key := keys group.1 (List.mem_map_of_mem among)
    rw [← own] at key
    exact Filter.listable_of_parsed accepted one (entries_hide delimits listed) key
  have readable : ∀ f ∈ fs.values, Filter.parse catalog.resolver table f.chars = .ok f := by
    intro f member
    obtain ⟨group, among, inGroup⟩ := List.mem_flatMap.mp member
    obtain ⟨offered, fit⟩ := respects group among
    obtain ⟨own, entry, _, one⟩ := fit f inGroup
    obtain ⟨_, _, _, _, _, _, known, _⟩ := Filter.parse_eq_ok_iff.mp one
    rw [← own] at offered
    refine Filter.parse_chars (listable f member).1 (Filter.parsed_made one) ?_ ?_
    · exact Catalog.resolver_dimension?_eq_some_iff.mpr ⟨rfl, offered⟩
    · exact Dimension.field?_eq_some_iff.mpr ⟨Catalog.mem_of_resolver_field? known, rfl⟩
  have pieces : entries delimiter (fs.query delimiter).toList = fs.values.map Filter.chars := by
    rw [query, String.toList_ofList, queryChars]
    apply entries_joinWith delimits
    all_goals
      intro piece member
      obtain ⟨f, among, rfl⟩ := List.mem_map.mp member
      obtain ⟨spellable, absent⟩ := listable f among
    · exact f.not_blank_chars
    · exact Filter.trim_chars spellable
    · exact Filter.chars_hide accepted spellable absent
    · exact Filter.depthAfter_chars spellable
  have regrouped : fs.pairs = fs.values.map fun f => (f.dimension, f) := by
    apply Grouped.pairs_of_own_keys
    intro group among f inGroup
    exact ((respects group among).2 f inGroup).1
  have all : readClauses (Filter.parse catalog.resolver table) 0 (fs.values.map Filter.chars) =
      .ok fs.values := readClauses_eq_ok_iff.mpr (mapM_map_eq_ok readable)
  rw [parse, readConditions, pieces, all]
  change Except.ok (Grouped.ofPairs _) = _
  rw [← regrouped, Grouped.ofPairs_pairs (readConditions_wellFormed read)]

def onRegion : Filters :=
  ⟨[(SmallCatalog.region, [⟨SmallCatalog.region, ⟨"region", "id", none⟩, .isIn, ["b", "a"]⟩,
    ⟨SmallCatalog.region, ⟨"region", "desc", none⟩, .isNull, []⟩])]⟩

theorem unnamed_key_read_back :
    query ';' onRegion = "region.id-in[b,a];region.desc-isnull" ∧
      parse SmallCatalog.catalog.resolver SmallCatalog.orders ';' (query ';' onRegion) =
        .ok onRegion := by
  have read : parse SmallCatalog.catalog.resolver SmallCatalog.orders ';'
    "region-in[b,a,b] ; region.desc-isnull[]" = .ok onRegion := rfl
  refine ⟨rfl, query_read_back (by decide +kernel) read ?_⟩
  intro d member
  rw [List.mem_singleton.mp member]
  decide

end Filters

end AggregateQuery
