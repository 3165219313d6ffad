import AggregateQuery.Proofs.Condition.HavingText
import AggregateQuery.Proofs.Condition.WrittenFilter
import AggregateQuery.Proofs.Data.Tags
import AggregateQuery.Proofs.Request.BuiltRequest
import AggregateQuery.Proofs.Request.SortText
/-!
Names that were selected, in conditions and in sorts. The list of dimensions and the list of metrics
take more names than clauses do, where the dash ends a name, and than sorts do, where the point
stands between a dimension and its field. The other names can be selected, constrained and sorted.
-/
namespace AggregateQuery

open Text

def TrimmedName (name : String) : Prop := name ≠ "" ∧ IsTrimmed name.toList

namespace RequestParameters

theorem cutDimensionEntry?_name {entry name : List Char} {list : Option (List Char)}
    (cut : cutDimensionEntry? entry = some (name, list)) :
    NameAvoids ['(', ')', '|'] (String.ofList name) := by
  unfold cutDimensionEntry? at cut
  simp only at cut
  split at cut
  · contradiction
  · rename_i some
    -- Every way to go on keeps the name that stands in front.
    have front : entry.takeWhile (fun c => c != '(' && c != ')' && c != '|' && !isBlank c) =
        name := by
      split at cut
      · exact (Prod.mk.inj (Option.some.inj cut)).1
      · split at cut
        · split at cut
          · contradiction
          · exact (Prod.mk.inj (Option.some.inj cut)).1
        · contradiction
      · contradiction
    rw [front] at some
    refine ⟨by simpa using some, ?_⟩
    intro c member
    rw [String.toList_ofList, ← front] at member
    have fits := List.all_eq_true.mp List.all_takeWhile c member
    simpa [and_assoc] using fits

theorem fieldNames?_trimmed {text : List Char} {names : List String}
    (cut : fieldNames? text = some names) : ∀ name ∈ names, TrimmedName name := by
  simp only [fieldNames?] at cut
  split at cut
  · contradiction
  · rename_i some
    obtain rfl := Option.some.inj cut
    intro name member
    obtain ⟨piece, among, rfl⟩ := List.mem_map.mp member
    obtain ⟨raw, _, rfl⟩ := List.mem_map.mp among
    refine ⟨?_, ?_⟩
    · intro empty
      have none : trim raw = [] := by simpa using congrArg String.toList empty
      simp only [List.any_eq_true, not_exists, not_and] at some
      exact some _ among (by simp [none])
    · rw [String.toList_ofList]
      exact isTrimmed_trim raw

variable {catalog : Catalog} {table : Table} {raw : String}

theorem readDimensionEntry_named {entry : List Char} {d : Dimension} {fields : List DimensionField}
    (read : readDimensionEntry catalog.resolver table raw entry = .ok (d, fields)) :
    NameAvoids ['(', ')', '|'] d.name ∧ ∀ field ∈ fields, TrimmedName field.name := by
  obtain ⟨name, list, cut, found, shown⟩ := parts_of_readDimensionEntry read
  obtain ⟨named, _⟩ := Catalog.resolver_dimension?_eq_some_iff.mp found
  refine ⟨named ▸ cutDimensionEntry?_name cut, ?_⟩
  intro field member
  obtain ⟨_, _, cutFields, given, among, one⟩ := shown field member
  obtain ⟨_, rfl⟩ := Dimension.field?_eq_some_iff.mp one
  exact fieldNames?_trimmed cutFields _ among

theorem readDimensions_named {named : List Dimension} {shown : DimensionFields}
    (read : readDimensions catalog.resolver table raw = .ok (named, shown)) :
    shown.Respects (fun d => NameAvoids ['(', ')', '|'] d.name)
      fun _ field => TrimmedName field.name := by
  obtain ⟨entries, all, whole⟩ := bind_eq_ok_iff.mp read
  obtain ⟨_, rfl⟩ := Prod.mk.inj (pure_eq_ok_iff.mp whole)
  refine Grouped.respects_union (b := ⟨entries⟩) Grouped.respects_empty ?_
  intro entry member
  obtain ⟨text, _, one⟩ := read_from_of_mapM all entry member
  obtain ⟨dimension, fields⟩ := readDimensionEntry_named one
  exact ⟨dimension, fun _ _ _ => fields⟩

theorem readMetrics_trimmed {named : List Metric}
    (read : readMetrics catalog.resolver table raw = .ok named) :
    ∀ m ∈ named, IsTrimmed m.name.toList := by
  intro m member
  obtain ⟨entry, among, one⟩ := read_from_of_mapM read m member
  obtain ⟨name, _⟩ := Catalog.resolver_metric?_eq_some_iff.mp (resolveMetric_eq_ok_iff.mp one)
  rw [entries] at among
  split at among
  · simp at among
  · obtain ⟨piece, _, rfl⟩ := List.mem_map.mp among
    rw [name, String.toList_ofList]
    exact isTrimmed_trim piece

end RequestParameters

section Scope

variable {catalog : Catalog} {table : Table}

theorem Filter.spellable_of_parse_chars {f g : Filter}
    (read : parse catalog.resolver table f.chars = .ok g) (same : g.dimension = f.dimension) :
    g.Spellable := by
  obtain ⟨clause, readClause, undotted, shape⟩ := parsed_subject read
  obtain ⟨valid, tail, whole, _⟩ := Clause.ofChars_eq_ok_iff.mp readClause
  rcases shape with ⟨bare, _⟩ | ⟨dotted, someDimension, someField⟩
  · have visible : ∀ c ∈ clause.subject.toList, isBlank c = false := by
      intro c inSubject
      exact ((Clause.isSubjectChar_iff c).mp (valid.subjectChars c inSubject)).2.2.2.2
    have spelled : f.dimension.name.toList = clause.subject.toList := by rw [bare, same]
    rw [Clause.headChars, List.append_assoc] at whole
    exact absurd whole (chars_not_bare valid.someSubject visible spelled)
  · rw [dotted] at valid
    exact spellable_of_isHead valid undotted someDimension someField (parsed_values_inhabited read)

theorem Filter.parse_field_iff {d : Dimension} {field : DimensionField}
    (offered : catalog.OffersDimension table d) (fieldOf : field ∈ d.fields) :
    (∃ g, parse catalog.resolver table
        (d.name.toList ++ '.' :: field.name.toList ++ "-isnull".toList) = .ok g ∧
      g.dimension = d ∧ g.field = field) ↔
      NameAvoids ['.', '-', '[', ']', ','] d.name ∧ NameAvoids ['-', '[', ']', ','] field.name := by
  let f : Filter := ⟨d, field, .isNull, []⟩
  have text : d.name.toList ++ '.' :: field.name.toList ++ "-isnull".toList = f.chars := by
    simp [f, chars, FilterOperation.name, FilterOperation.arity]
  rw [text]
  constructor
  · rintro ⟨g, read, sameDimension, sameField⟩
    have spelled := spellable_of_parse_chars read sameDimension
    rw [← sameDimension, ← sameField]
    exact ⟨spelled.dimension, spelled.field⟩
  · rintro ⟨dimension, name⟩
    have found := Catalog.resolver_dimension?_eq_some_iff.mpr ⟨rfl, offered⟩
    have known := Dimension.field?_eq_some_iff.mpr ⟨fieldOf, rfl⟩
    exact ⟨f, parse_chars ⟨dimension, name, by simp [f]⟩ rfl found known, rfl, rfl⟩

theorem Having.parse_metric_iff {m : Metric} (offered : catalog.OffersMetric table m) :
    (∃ h, parse catalog.resolver table (m.name.toList ++ "-gt[1]".toList) = .ok h ∧
      h.metric = m) ↔ NameAvoids ['-', '[', ']', ','] m.name := by
  constructor
  · rintro ⟨h, read, same⟩
    obtain ⟨clause, readClause, found, _⟩ := parse_eq_ok_iff.mp read
    obtain ⟨named, _⟩ := Catalog.resolver_metric?_eq_some_iff.mp found
    obtain ⟨valid, _⟩ := Clause.ofChars_eq_ok_iff.mp readClause
    rw [← same, named]
    exact avoids_iff_subjectChars.mpr ⟨by simpa using valid.someSubject, valid.subjectChars⟩
  · intro avoids
    obtain ⟨inhabited, subject⟩ := avoids_iff_subjectChars.mp avoids
    have valid : Clause.IsHead m.name.toList "gt".toList :=
      ⟨by simpa using inhabited, subject, by decide, List.all_eq_true.mp rfl⟩
    have visible : ∀ c ∈ m.name.toList ++ "-gt[1]".toList, isBlank c = false := by
      refine List.forall_mem_append.mpr ⟨?_, by simp [isBlank]⟩
      exact fun c member => ((Clause.isSubjectChar_iff c).mp (subject c member)).2.2.2.2
    have written : Clause.ofChars (m.name.toList ++ "-gt[1]".toList) =
        .ok ⟨m.name, "gt", some ["1"]⟩ := by
      refine Clause.ofChars_eq_ok_iff.mpr ⟨valid, "[1]".toList, ?_, ?_⟩
      · rw [trim_of_no_blanks visible]
        simp [Clause.headChars]
      · exact .listed ['1'] ["1"] (by decide) (by decide) rfl
    obtain ⟨value, number⟩ : ∃ value, readValue "1" = .ok value :=
      exists_of_isOk (by decide +kernel)
    have values : ["1"].mapM readValue = .ok [value] :=
      mapM_cons_eq_ok_iff.mpr ⟨value, [], number, rfl, rfl⟩
    have found := Catalog.resolver_metric?_eq_some_iff.mpr ⟨rfl, offered⟩
    have operation : HavingOperation.ofName? "gt" = some .gt := rfl
    have admits : HavingOperation.gt.arity.Admits [value].length :=
      (Arity.breach?_eq_none_iff _ _).mp rfl
    exact ⟨⟨m, .gt, [value]⟩,
      parse_eq_ok_iff.mpr ⟨_, written, found, operation, values, admits⟩, rfl⟩

theorem SortColumn.parse_field_iff {dimension field : String}
    (named : NameAvoids ['(', ')', '|'] dimension) (trimmed : TrimmedName field) :
    parse (dimension.toList ++ '.' :: field.toList) = .ok (dimensionField dimension field) ↔
      '.' ∉ dimension.toList := by
  have ends : IsTrimmed (dimension.toList ++ '.' :: field.toList) := by
    constructor
    · intro c first
      rw [List.head?_append_of_ne_nil _ (by simpa using named.1)] at first
      exact (named.2 c (List.mem_of_mem_head? first)).2
    · intro c last
      rw [List.getLast?_append_of_ne_nil _ (by simp), List.getLast?_cons_of_ne_nil
        (by simpa using trimmed.1)] at last
      exact trimmed.2.2 c last
  rw [parse_eq_dimensionField_iff, trim_of_isTrimmed ends]
  simp [named.1, trimmed.1]

end Scope

/-- What was selected can be constrained and sorted by exactly when its names can be told apart in a
clause and in a sort. -/
theorem RequestParameters.selected_names_constrained_and_sorted {catalog : Catalog}
    {settings : Settings} {p : RequestParameters} {r : DataRequest}
    (built : p.toDataRequest catalog.resolver settings = .ok r) :
    (∀ d field, (d, field) ∈ r.dimensionFields.pairs →
      ((∃ f, Filter.parse catalog.resolver r.table
          (d.name.toList ++ '.' :: field.name.toList ++ "-isnull".toList) = .ok f ∧
        f.dimension = d ∧ f.field = field) ↔
        NameAvoids ['.', '-', '[', ']', ','] d.name ∧
          NameAvoids ['-', '[', ']', ','] field.name) ∧
      (SortColumn.parse (d.name.toList ++ '.' :: field.name.toList) =
        .ok (.dimensionField d.name field.name) ↔ '.' ∉ d.name.toList)) ∧
    ∀ m ∈ r.metrics,
      ((∃ h, Having.parse catalog.resolver r.table (m.name.toList ++ "-gt[1]".toList) = .ok h ∧
        h.metric = m) ↔ NameAvoids ['-', '[', ']', ','] m.name) ∧
      (SortColumn.parse m.name.toList = .ok (.metric m.name) ↔
        m.name ≠ "" ∧ m.name ≠ SortColumn.dateTimeName ∧ '.' ∉ m.name.toList) := by
  have parts := toDataRequest_eq_ok_iff.mp built
  have closed := DataRequest.closed_of_readAs parts
  constructor
  · intro d field shown
    obtain ⟨group, among, rfl, inGroup⟩ := Grouped.mem_pairs_iff.mp shown
    obtain ⟨requested, fieldOf⟩ := closed.shown group among
    have names : NameAvoids ['(', ')', '|'] group.1.name ∧ TrimmedName field.name := by
      obtain ⟨named, readDimensions, _⟩ := parts.dimensions
      rcases readGiven_eq_ok_iff.mp readDimensions with ⟨_, none⟩ | ⟨_, _, read⟩
      · obtain ⟨_, empty⟩ := Prod.mk.inj none
        rw [← empty] at among
        simp [Grouped.empty] at among
      · obtain ⟨dimension, fields⟩ := readDimensions_named read group among
        exact ⟨dimension, fields field inGroup⟩
    exact ⟨Filter.parse_field_iff (closed.dimensions _ requested) (fieldOf field inGroup),
      SortColumn.parse_field_iff names.1 names.2⟩
  · intro m selected
    have trimmed : IsTrimmed m.name.toList := by
      obtain ⟨named, readMetrics, same⟩ := parts.metrics
      rw [same] at selected
      rcases readGiven_eq_ok_iff.mp readMetrics with ⟨_, rfl⟩ | ⟨_, _, read⟩
      · simpa using mem_of_mem_distinct selected
      · exact readMetrics_trimmed read m (mem_of_mem_distinct selected)
    refine ⟨Having.parse_metric_iff (closed.metrics m selected), ?_⟩
    rw [SortColumn.parse_eq_metric_iff, trim_of_isTrimmed trimmed]
    simp

theorem RequestParameters.selected_field_constrained :
    (∃ f, Filter.parse SmallCatalog.catalog.resolver SmallCatalog.orders
        "region.desc-isnull".toList = .ok f ∧
      f.dimension = SmallCatalog.region ∧ f.field = ⟨"region", "desc", none⟩) ∧
    SortColumn.parse "sales".toList = .ok (.metric "sales") := by
  have built : toDataRequest
      { table := "orders", dimensions := some "region(desc)", metrics := some "sales" }
      SmallCatalog.catalog.resolver {} = .ok
      { table := SmallCatalog.orders
        granularity := .all
        dimensions := [SmallCatalog.region]
        dimensionFields := ⟨[(SmallCatalog.region, [⟨"region", "desc", none⟩])]⟩
        metrics := [⟨"sales", none, none⟩] } := rfl
  obtain ⟨fields, metrics⟩ := selected_names_constrained_and_sorted built
  obtain ⟨constrained, _⟩ := fields SmallCatalog.region ⟨"region", "desc", none⟩
    List.mem_cons_self
  obtain ⟨_, sorted⟩ := metrics ⟨"sales", none, none⟩ List.mem_cons_self
  exact ⟨constrained.mpr (by decide), sorted.mpr (by decide)⟩

/-- A dimension with a dash in its name is shown on demand, but no clause is about it. -/
theorem RequestParameters.dashed_dimension_selected_only : ∃ catalog r,
    Catalog.ofDefinition
      ⟨[⟨"ship-to", "id", [], none⟩], [], [⟨"orders", [.all], ["ship-to"], []⟩]⟩ = .ok catalog ∧
    toDataRequest { table := "orders", dimensions := some "ship-to(id)" } catalog.resolver {} =
      .ok r ∧
    r.dimensionFields.pairs = [(⟨"ship-to", none, "id", []⟩, ⟨"ship-to", "id", none⟩)] ∧
    Filter.parse catalog.resolver r.table "ship-to.id-isnull".toList =
      .error (.malformed (.malformedHead "ship-to.id-isnull")) :=
  ⟨_, _, rfl, rfl, rfl, rfl⟩

end AggregateQuery
