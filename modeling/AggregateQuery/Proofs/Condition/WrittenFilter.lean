import AggregateQuery.Proofs.Condition.FilterText
/-!
Written filters. Filters that are equal name the same things, so a clause gives its filter back
only if the names stand in it as they are; and when they do, and no value is empty, it does.
-/
namespace AggregateQuery

open Text

def NameAvoids (marks : List Char) (name : String) : Prop :=
  name ≠ "" ∧ ∀ c ∈ name.toList, c ∉ marks ∧ isBlank c = false

instance (marks : List Char) (name : String) : Decidable (NameAvoids marks name) :=
  decidable_of_iff
    (name ≠ "" ∧ name.toList.all (fun c => !marks.contains c && !isBlank c) = true)
    (by simp [NameAvoids])

theorem avoids_cons_iff {mark : Char} {marks : List Char} {name : String} :
    NameAvoids (mark :: marks) name ↔ mark ∉ name.toList ∧ NameAvoids marks name := by
  unfold NameAvoids
  constructor
  · intro avoids
    obtain ⟨some, clean⟩ := avoids
    refine ⟨fun member => (clean mark member).1 List.mem_cons_self, some, ?_⟩
    intro c member
    obtain ⟨other, visible⟩ := clean c member
    exact ⟨fun marked => other (List.mem_cons_of_mem _ marked), visible⟩
  · intro avoids
    obtain ⟨absent, some, clean⟩ := avoids
    refine ⟨some, ?_⟩
    intro c member
    obtain ⟨other, visible⟩ := clean c member
    refine ⟨?_, visible⟩
    intro marked
    rcases List.mem_cons.mp marked with same | among
    · exact absent (same ▸ member)
    · exact other among

theorem avoids_iff_subjectChars {name : String} : NameAvoids ['-', '[', ']', ','] name ↔
    name ≠ "" ∧ ∀ c ∈ name.toList, Clause.isSubjectChar c = true := by
  simp [NameAvoids, Clause.isSubjectChar_iff, and_assoc]

namespace Filter

theorem beq_iff {a b : Filter} : (a == b) = true ↔ a.dimension.name = b.dimension.name ∧
    a.field.identity = b.field.identity ∧ a.operation = b.operation ∧
    if a.operation.isOrdered then a.values = b.values
    else sameElements a.values b.values = true := by
  have shape : (a == b) = (a.dimension == b.dimension && a.field == b.field &&
    a.operation == b.operation && if a.operation.isOrdered then a.values == b.values
    else sameElements a.values b.values) := rfl
  rw [shape, Bool.and_eq_true, Bool.and_eq_true, Bool.and_eq_true, Dimension.beq_iff_same_name,
    DimensionField.beq_iff_same_identity, beq_iff_eq, and_assoc, and_assoc]
  cases a.operation.isOrdered <;> simp

theorem beq_refl (f : Filter) : (f == f) = true := by
  refine beq_iff.mpr ⟨rfl, rfl, rfl, ?_⟩
  split
  · rfl
  · exact sameElements_refl f.values

theorem chains : Chains Filter := by
  intro a b c first second
  obtain ⟨dimension, field, operation, values⟩ := beq_iff.mp first
  obtain ⟨dimensionNext, fieldNext, operationNext, valuesNext⟩ := beq_iff.mp second
  refine beq_iff.mpr ⟨dimension.trans dimensionNext, field.trans fieldNext,
    operation.trans operationNext, ?_⟩
  rw [← operation] at valuesNext
  cases ordered : a.operation.isOrdered with
  | true =>
    simp only [ordered, ↓reduceIte] at values valuesNext ⊢
    exact values.trans valuesNext
  | false =>
    simp only [ordered, Bool.false_eq_true, ↓reduceIte] at values valuesNext ⊢
    exact sameElements_trans values valuesNext

theorem mem_values_of_beq {a b : Filter} (nodup : a.values.Nodup) (equal : (a == b) = true)
    {value : String} (member : value ∈ b.values) : value ∈ a.values := by
  obtain ⟨_, _, _, values⟩ := beq_iff.mp equal
  split at values
  · rwa [values]
  · exact mem_of_sameElements nodup values member

def subjectChars (f : Filter) : List Char := f.dimension.name.toList ++ '.' :: f.field.name.toList

def clause (f : Filter) : Clause where
  subject := String.ofList f.subjectChars
  operation := f.operation.name
  values := if f.operation.arity = .nullary then none else some f.values

/-- When the parts of the clause can be told apart. -/
structure Spellable (f : Filter) : Prop where
  dimension : NameAvoids ['.', '-', '[', ']', ','] f.dimension.name
  field : NameAvoids ['-', '[', ']', ','] f.field.name
  values : "" ∉ f.values

variable {f : Filter}

theorem chars_eq (f : Filter) : ∃ tail, f.chars = f.clause.headChars ++ tail ∧
    (∀ c ∈ tail, isBlank c = false) ∧
    ("" ∉ f.values → Clause.ReadsValues tail f.clause.values) := by
  refine ⟨if f.operation.arity = .nullary then [] else Clause.encodeValues f.values, ?_, ?_, ?_⟩
  · simp [chars, clause, Clause.headChars, subjectChars]
  · intro c member
    split at member
    · simp at member
    · rw [Clause.encodeValues, List.cons_append, List.mem_cons, List.mem_append,
        List.mem_singleton] at member
      rcases member with opening | inside | closing
      · rw [opening]; rfl
      · exact (Clause.valueChars_clean f.values c inside).2.2
      · rw [closing]; rfl
  · intro inhabited
    unfold clause
    split
    · exact .absent
    · obtain ⟨opening, closing⟩ := Clause.valueChars_without_brackets f.values
      exact .listed _ _ opening closing (Clause.decodeValues_valueChars inhabited)

theorem isHead_of_spellable (spellable : f.Spellable) :
    Clause.IsHead f.clause.subject.toList f.clause.operation.toList := by
  have subject : f.clause.subject.toList = f.subjectChars := by simp [clause]
  rw [subject]
  refine ⟨by simp [subjectChars], ?_, f.operation.name_ne_nil, f.operation.name_letters⟩
  intro c member
  rw [subjectChars, List.mem_append, List.mem_cons] at member
  rcases member with inDimension | dot | inField
  · have clean := (avoids_cons_iff.mp spellable.dimension).2
    exact (avoids_iff_subjectChars.mp clean).2 c inDimension
  · rw [dot]
    rfl
  · exact (avoids_iff_subjectChars.mp spellable.field).2 c inField

theorem trim_chars (spellable : f.Spellable) : trim f.chars = f.chars := by
  obtain ⟨tail, whole, visible, _⟩ := f.chars_eq
  apply trim_of_no_blanks
  intro c member
  rw [whole, List.mem_append] at member
  rcases member with inHead | inTail
  · exact (Clause.head_chars (isHead_of_spellable spellable) c inHead).2.2
  · exact visible c inTail

theorem ofChars_chars (spellable : f.Spellable) : Clause.ofChars f.chars = .ok f.clause := by
  obtain ⟨tail, whole, _, reads⟩ := f.chars_eq
  refine Clause.ofChars_eq_ok_iff.mpr ⟨isHead_of_spellable spellable, tail, ?_, ?_⟩
  · rw [trim_chars spellable, whole]
  · exact reads spellable.values

theorem clause_values (made : ofValues f.dimension f.field f.operation f.values = .ok f) :
    f.clause.values.getD [] = f.values := by
  obtain ⟨admits, _, _⟩ := ofValues_eq_ok_iff.mp made
  unfold clause
  split
  · rename_i nullary
    rw [nullary] at admits
    have none := admits.2 0 rfl
    exact (List.eq_nil_of_length_eq_zero (Nat.le_zero.mp none)).symm
  · rfl

theorem parse_chars {r : Resolver} {table : Table} (spellable : f.Spellable)
    (made : ofValues f.dimension f.field f.operation f.values = .ok f)
    (found : r.dimension? f.dimension.name table = some f.dimension)
    (known : r.field? f.dimension (some f.field.name) = some f.field) :
    parse r table f.chars = .ok f := by
  have cut : cutSubject f.clause.subject = .ok (f.dimension.name, some f.field.name) := by
    refine cutSubject_eq_ok_iff.mpr (Or.inr ⟨f.field.name, rfl, ?_, ?_, ?_, ?_⟩)
    · simp [clause, subjectChars]
    · exact (avoids_cons_iff.mp spellable.dimension).1
    · exact spellable.dimension.1
    · exact spellable.field.1
  refine parse_eq_ok_iff.mpr ⟨f.clause, f.dimension.name, some f.field.name,
    ofChars_chars spellable, cut, found, known, f.operation.ofName?_name, ?_⟩
  rwa [clause_values made]

theorem parsed_made {r : Resolver} {table : Table} {text : List Char}
    (read : parse r table text = .ok f) :
    ofValues f.dimension f.field f.operation f.values = .ok f := by
  obtain ⟨_, _, _, _, _, _, _, _, made⟩ := parse_eq_ok_iff.mp read
  exact ofValues_kept made

theorem parsed_values_inhabited {r : Resolver} {table : Table} {text : List Char}
    (read : parse r table text = .ok f) : "" ∉ f.values := by
  obtain ⟨clause, _, _, readClause, _, _, _, _, made⟩ := parse_eq_ok_iff.mp read
  obtain ⟨_, tail, _, reads⟩ := Clause.ofChars_eq_ok_iff.mp readClause
  obtain ⟨_, _, whole⟩ := ofValues_eq_ok_iff.mp made
  intro member
  rw [whole] at member
  exact Clause.readsValues_inhabited reads (mem_of_mem_distinct member)

theorem parsed_subject {catalog : Catalog} {table : Table} {text : List Char}
    (read : parse catalog.resolver table text = .ok f) :
    ∃ clause, Clause.ofChars text = .ok clause ∧ '.' ∉ f.dimension.name.toList ∧
      (clause.subject = f.dimension.name ∧ f.field = f.dimension.keyField ∨
        clause.subject.toList = f.subjectChars ∧ f.dimension.name ≠ "" ∧ f.field.name ≠ "") := by
  obtain ⟨clause, name, field, readClause, cut, found, known, _, _⟩ := parse_eq_ok_iff.mp read
  obtain ⟨rfl, _⟩ := Catalog.resolver_dimension?_eq_some_iff.mp found
  refine ⟨clause, readClause, ?_⟩
  rcases cutSubject_eq_ok_iff.mp cut with
    ⟨rfl, whole, undotted⟩ | ⟨inner, rfl, whole, undotted, some⟩
  · rw [whole]
    exact ⟨undotted, Or.inl ⟨rfl, (Option.some.inj known).symm⟩⟩
  · obtain ⟨_, rfl⟩ := Dimension.field?_eq_some_iff.mp known
    exact ⟨undotted, Or.inr ⟨whole, some⟩⟩

theorem spellable_of_isHead {operation : List Char}
    (valid : Clause.IsHead f.subjectChars operation) (undotted : '.' ∉ f.dimension.name.toList)
    (someDimension : f.dimension.name ≠ "") (someField : f.field.name ≠ "")
    (inhabited : "" ∉ f.values) : f.Spellable := by
  have inSubject : ∀ c, c ∈ f.dimension.name.toList ∨ c ∈ f.field.name.toList →
      Clause.isSubjectChar c = true := by
    intro c either
    apply valid.subjectChars
    rw [subjectChars, List.mem_append, List.mem_cons]
    rcases either with inDimension | inField
    · exact Or.inl inDimension
    · exact Or.inr (Or.inr inField)
  refine ⟨avoids_cons_iff.mpr ⟨undotted, ?_⟩, ?_, inhabited⟩
  · exact avoids_iff_subjectChars.mpr ⟨someDimension, fun c member => inSubject c (Or.inl member)⟩
  · exact avoids_iff_subjectChars.mpr ⟨someField, fun c member => inSubject c (Or.inr member)⟩

theorem chars_not_bare {subject rest : List Char} (some : subject ≠ [])
    (visible : ∀ c ∈ subject, isBlank c = false) (same : f.dimension.name.toList = subject) :
    trim f.chars ≠ subject ++ '-' :: rest := by
  intro bare
  obtain ⟨tail, whole, _, _⟩ := f.chars_eq
  have begins : f.chars = subject ++ '.' ::
      (f.field.name.toList ++ '-' :: f.clause.operation.toList ++ tail) := by
    rw [whole, ← same]
    simp [Clause.headChars, clause, subjectChars]
  cases subject with
  | nil => contradiction
  | cons first others =>
    have start : trim f.chars <+: f.chars := by
      rw [begins]
      exact trim_prefix_of_visible (visible first List.mem_cons_self)
    rw [bare, begins, List.prefix_append_right_inj] at start
    simp at start

/-- The clause of a filter gives it back exactly when its names and its values allow that. -/
theorem read_back_iff_spellable {definition : SchemaDefinition} {catalog : Catalog} {table : Table}
    {dimension : Dimension} {field : DimensionField} {operation : FilterOperation}
    {values : List String} (built : Catalog.ofDefinition definition = .ok catalog)
    (member : dimension ∈ catalog.dimensions)
    (exposed : table.supportsDimension dimension.name = true) (fieldOf : field ∈ dimension.fields)
    (made : ofValues dimension field operation values = .ok f) :
    (∃ g, parse catalog.resolver table (toString f).toList = .ok g ∧ (g == f) = true) ↔
      f.Spellable := by
  have text : (toString f).toList = f.chars := String.toList_ofList
  rw [text]
  constructor
  · intro readBack
    obtain ⟨g, read, equal⟩ := readBack
    obtain ⟨sameDimension, sameIdentity, _, _⟩ := beq_iff.mp equal
    have sameField : g.field.name = f.field.name := (Prod.mk.inj sameIdentity).2
    obtain ⟨clause, readClause, undotted, shape⟩ := parsed_subject read
    obtain ⟨valid, tail, whole, _⟩ := Clause.ofChars_eq_ok_iff.mp readClause
    rcases shape with ⟨bare, _⟩ | ⟨dotted, someDimension, someField⟩
    -- A dimension read without its field would have a dash behind it, where a point is written.
    · have visible : ∀ c ∈ clause.subject.toList, isBlank c = false := by
        intro c inSubject
        exact ((Clause.isSubjectChar_iff c).mp (valid.subjectChars c inSubject)).2.2.2.2
      have same : f.dimension.name.toList = clause.subject.toList := by rw [bare, sameDimension]
      rw [Clause.headChars, List.append_assoc] at whole
      exact absurd whole (chars_not_bare valid.someSubject visible same)
    · rw [dotted] at valid
      have spelled := spellable_of_isHead valid undotted someDimension someField
        (parsed_values_inhabited read)
      refine ⟨sameDimension ▸ spelled.dimension, sameField ▸ spelled.field, ?_⟩
      intro empty
      exact spelled.values (mem_values_of_beq (made_values_nodup (parsed_made read)) equal empty)
  · intro spellable
    obtain ⟨_, _, rfl⟩ := ofValues_eq_ok_iff.mp made
    have entry := Catalog.dimension?_of_mem built member
    refine ⟨_, parse_chars spellable (ofValues_kept made) ?_ ?_, beq_refl _⟩
    · exact Catalog.resolver_dimension?_eq_some_iff.mpr ⟨rfl, exposed, entry⟩
    · exact Dimension.field?_eq_some_iff.mpr ⟨fieldOf, rfl⟩

theorem marks_in_values_read_back :
    ∃ g, parse SmallCatalog.catalog.resolver SmallCatalog.orders
        "region.desc-in[a%2Cb%5D,50%25]".toList = .ok g ∧
      (g == ⟨SmallCatalog.region, ⟨"region", "desc", none⟩, .isIn, ["a,b]", "50%"]⟩) = true := by
  have built : Catalog.ofDefinition SmallCatalog.definition = .ok SmallCatalog.catalog := rfl
  have member : SmallCatalog.region ∈ SmallCatalog.catalog.dimensions := List.mem_cons_self
  have fieldOf : ⟨"region", "desc", none⟩ ∈ SmallCatalog.region.fields :=
    List.mem_cons_of_mem _ List.mem_cons_self
  have made : ofValues SmallCatalog.region ⟨"region", "desc", none⟩ .isIn ["a,b]", "50%", "a,b]"] =
    .ok ⟨SmallCatalog.region, ⟨"region", "desc", none⟩, .isIn, ["a,b]", "50%"]⟩ := rfl
  have exposed : SmallCatalog.orders.supportsDimension SmallCatalog.region.name = true := rfl
  exact (read_back_iff_spellable built member exposed fieldOf made).mpr
    ⟨by decide, by decide, by decide⟩

end Filter

end AggregateQuery
