import AggregateQuery.Proofs.Condition.Concatenation
import AggregateQuery.Proofs.Condition.FilterIdentity
import AggregateQuery.Proofs.Condition.ListedValues
/-!
Rearranged queries. The order in which clauses stand, how often they are repeated, and the order
and the repetition of values in them make no difference to the filters of a query.
-/
namespace AggregateQuery

open Text

theorem readConditions_joinWith {α ε κ : Type} [BEq κ] [BEq α] {read : List Char → Except ε α}
    {key : α → κ} {delimiter : Char} (delimits : CanDelimit delimiter)
    (trims : ∀ text, read (trim text) = read text)
    (visible : ∀ text value, read text = .ok value → isBlankText text = false)
    (closes : ∀ text value, read text = .ok value → depthAfter 0 text = 0)
    {clauses : List (List Char)} {values : List α} (accepted : clauses.mapM read = .ok values)
    (hides : ∀ text ∈ clauses, HidesDelimiter delimiter 0 text) :
    readConditions read key delimiter (String.ofList (joinWith delimiter clauses)) =
      .ok (.ofPairs (values.map fun value => (key value, value))) := by
  have each := read_of_mapM accepted
  have cut : entries delimiter (joinWith delimiter clauses) = clauses.map trim := by
    refine entries_of_joined delimits ?_ hides ?_
    · intro text member
      obtain ⟨value, one⟩ := each text member
      exact visible text value one
    · intro text member
      obtain ⟨value, one⟩ := each text member
      exact closes text value one
  have all : (clauses.map trim).mapM read = .ok values := by
    rw [List.mapM_map]
    simpa only [Function.comp_def, trims] using accepted
  rw [readConditions, String.toList_ofList, cut, readClauses_eq_ok_iff.mpr all]
  rfl

namespace Filter

variable {r : Resolver} {table : Table} {f g : Filter} {text other : List Char}

theorem parse_trim (text : List Char) : parse r table (trim text) = parse r table text := by
  have sameClause : Clause.ofChars (trim text) = Clause.ofChars text := by
    simp only [Clause.ofChars, trim_trim]
  rw [parse, parse, sameClause]

theorem visible_of_parse (read : parse r table text = .ok f) : isBlankText text = false := by
  obtain ⟨clause, _, _, readClause, _⟩ := parse_eq_ok_iff.mp read
  obtain ⟨valid, tail, whole, _⟩ := Clause.ofChars_eq_ok_iff.mp readClause
  rw [← Bool.not_eq_true]
  intro blank
  have none : trim text = trim [] := by
    have blanks : ∀ c ∈ text, isBlank c = true := List.all_eq_true.mp blank
    simpa using trim_blanks_around [] blanks (List.forall_mem_nil _)
  rw [whole] at none
  simp [Clause.headChars, trim, trimStart, trimEnd] at none

theorem depthAfter_of_parse (read : parse r table text = .ok f) : depthAfter 0 text = 0 := by
  obtain ⟨clause, _, _, readClause, _⟩ := parse_eq_ok_iff.mp read
  exact Clause.depthAfter_of_ofChars readClause

theorem parsed_values_nodup (read : parse r table text = .ok f) : f.values.Nodup :=
  made_values_nodup (parsed_made read)

/-- Two clauses that are the same, or of which the operation takes one or more values and only
their order and repetition differ. -/
def Varies (r : Resolver) (table : Table) (text other : List Char) : Prop :=
  text = other ∨ (∃ f, parse r table text = .ok f ∧ f.operation.arity = .atLeast 1) ∧
    Clause.Revalued text other

theorem unordered_of_several {op : FilterOperation} (several : op.arity = .atLeast 1) :
    op.isOrdered = false := by
  cases op <;> first | rfl | contradiction

theorem identity_of_same_values {values others : List String}
    (unordered : f.operation.isOrdered = false)
    (made : f.values = distinct values) (same : ∀ value, value ∈ others ↔ value ∈ values) :
    ({ f with values := distinct others } : Filter).identity = f.identity := by
  have perm : (distinct others).Perm (distinct values) := by
    refine (List.perm_ext_iff_of_nodup (nodup_distinct others) (nodup_distinct values)).mpr ?_
    intro value
    rw [mem_distinct_iff, mem_distinct_iff, same]
  simp only [identity, unordered, Bool.false_eq_true, ↓reduceIte, made, sorted_eq_iff_perm.mpr perm]

theorem parse_revalued (read : parse r table text = .ok f)
    (several : f.operation.arity = .atLeast 1) (revalued : Clause.Revalued text other) :
    ∃ g, parse r table other = .ok g ∧ g.identity = f.identity := by
  obtain ⟨clause, name, field, readClause, cut, found, known, named, made⟩ :=
    parse_eq_ok_iff.mp read
  obtain ⟨admits, _, whole⟩ := ofValues_eq_ok_iff.mp made
  rw [several] at admits
  have some : clause.values.getD [] ≠ [] := List.ne_nil_of_length_pos admits.1
  obtain ⟨values, readOther, same⟩ := Clause.ofChars_revalued revalued readClause some
  have someToo : values ≠ [] := by
    obtain ⟨value, member⟩ := List.exists_mem_of_ne_nil _ some
    exact List.ne_nil_of_mem ((same value).mpr member)
  have unordered := unordered_of_several several
  refine ⟨{ f with values := distinct values }, ?_, ?_⟩
  · refine parse_eq_ok_iff.mpr ⟨_, name, field, readOther, cut, found, known, named, ?_⟩
    refine ofValues_eq_ok_iff.mpr ⟨?_, by simp [unordered], rfl⟩
    rw [several]
    exact ⟨List.length_pos_of_ne_nil someToo, by simp [Arity.max?]⟩
  · exact identity_of_same_values unordered (congrArg Filter.values whole) same

theorem parse_of_varies (varies : Varies r table text other) (read : parse r table text = .ok f) :
    ∃ g, parse r table other = .ok g ∧ g.identity = f.identity := by
  rcases varies with rfl | ⟨⟨f', readToo, several⟩, revalued⟩
  · exact ⟨f, read, rfl⟩
  · obtain rfl := Except.ok.inj (readToo.symm.trans read)
    exact parse_revalued read several revalued

theorem hides_of_varies {delimiter : Char} (delimits : CanDelimit delimiter)
    (varies : Varies r table text other) (read : parse r table text = .ok f)
    (hides : HidesDelimiter delimiter 0 text) : HidesDelimiter delimiter 0 other := by
  obtain ⟨g, readOther, _⟩ := parse_of_varies varies read
  rcases varies with rfl | ⟨_, revalued⟩
  · exact hides
  · obtain ⟨_, _, _, readClause, _⟩ := parse_eq_ok_iff.mp read
    obtain ⟨_, _, _, readOtherClause, _⟩ := parse_eq_ok_iff.mp readOther
    exact Clause.hides_revalued delimits revalued readClause readOtherClause hides

end Filter

namespace Filters

/-- Clauses in another order and with repetitions, none of them left out and none of them new. Of
each clause the values may be rearranged likewise. -/
structure Rearranged (r : Resolver) (table : Table) (given other : List (List Char)) : Prop where
  kept : ∀ text ∈ given, ∃ again ∈ other, Filter.Varies r table text again
  known : ∀ again ∈ other, ∃ text ∈ given, Filter.Varies r table text again

theorem parse_joined (r : Resolver) (table : Table) {delimiter : Char}
    (delimits : CanDelimit delimiter) {clauses : List (List Char)} {fs : List Filter}
    (accepted : clauses.mapM (Filter.parse r table) = .ok fs)
    (hides : ∀ text ∈ clauses, HidesDelimiter delimiter 0 text) :
    parse r table delimiter (String.ofList (joinWith delimiter clauses)) = .ok (ofList fs) :=
  readConditions_joinWith delimits Filter.parse_trim (fun _ _ => Filter.visible_of_parse)
    (fun _ _ => Filter.depthAfter_of_parse) accepted hides

theorem values_nodup_of_mapM {r : Resolver} {table : Table} {texts : List (List Char)}
    {fs : List Filter} (all : texts.mapM (Filter.parse r table) = .ok fs) :
    ∀ f ∈ fs, f.values.Nodup := by
  intro f member
  obtain ⟨text, _, read⟩ := read_from_of_mapM all f member
  exact Filter.parsed_values_nodup read

theorem same_identities {r : Resolver} {table : Table} {given other : List (List Char)}
    {fs gs : List Filter} (rearranged : Rearranged r table given other)
    (all : given.mapM (Filter.parse r table) = .ok fs)
    (allToo : other.mapM (Filter.parse r table) = .ok gs) (x) :
    x ∈ fs.map Filter.identity ↔ x ∈ gs.map Filter.identity := by
  constructor
  · intro member
    obtain ⟨f, inFs, rfl⟩ := List.mem_map.mp member
    obtain ⟨text, among, read⟩ := read_from_of_mapM all f inFs
    obtain ⟨again, amongToo, varies⟩ := rearranged.kept text among
    obtain ⟨g, readAgain, identity⟩ := Filter.parse_of_varies varies read
    exact List.mem_map.mpr ⟨g, mem_of_mapM allToo amongToo readAgain, identity⟩
  · intro member
    obtain ⟨g, inGs, rfl⟩ := List.mem_map.mp member
    obtain ⟨again, amongToo, readAgain⟩ := read_from_of_mapM allToo g inGs
    obtain ⟨text, among, varies⟩ := rearranged.known again amongToo
    obtain ⟨f, read⟩ := read_of_mapM all text among
    obtain ⟨g', readToo, identity⟩ := Filter.parse_of_varies varies read
    obtain rfl := Except.ok.inj (readAgain.symm.trans readToo)
    exact List.mem_map.mpr ⟨f, mem_of_mapM all among read, identity.symm⟩

/-- A query is read as equal filters, and as many, however its clauses and their values are ordered
and repeated. -/
theorem order_and_repetition_irrelevant (r : Resolver) (table : Table) {delimiter : Char}
    (delimits : CanDelimit delimiter) {given other : List (List Char)}
    (accepted : ∀ text ∈ given, ∃ f, Filter.parse r table text = .ok f)
    (hides : ∀ text ∈ given, HidesDelimiter delimiter 0 text)
    (rearranged : Rearranged r table given other) :
    ∃ these those,
      parse r table delimiter (String.ofList (joinWith delimiter given)) = .ok these ∧
      parse r table delimiter (String.ofList (joinWith delimiter other)) = .ok those ∧
      (these == those) = true ∧ these.size = those.size ∧
      these.valueCount = those.valueCount := by
  have acceptedToo : ∀ again ∈ other, ∃ g, Filter.parse r table again = .ok g := by
    intro again member
    obtain ⟨text, among, varies⟩ := rearranged.known again member
    obtain ⟨f, read⟩ := accepted text among
    obtain ⟨g, readAgain, _⟩ := Filter.parse_of_varies varies read
    exact ⟨g, readAgain⟩
  have hidesToo : ∀ again ∈ other, HidesDelimiter delimiter 0 again := by
    intro again member
    obtain ⟨text, among, varies⟩ := rearranged.known again member
    obtain ⟨f, read⟩ := accepted text among
    exact Filter.hides_of_varies delimits varies read (hides text among)
  obtain ⟨fs, all⟩ := mapM_of_each accepted
  obtain ⟨gs, allToo⟩ := mapM_of_each acceptedToo
  exact ⟨_, _, parse_joined r table delimits all hides, parse_joined r table delimits allToo
    hidesToo, ofList_alike (values_nodup_of_mapM all) (values_nodup_of_mapM allToo)
    (same_identities rearranged all allToo)⟩

theorem swapped_and_repeated_clauses_alike :
    ∃ these those,
      parse SmallCatalog.catalog.resolver SmallCatalog.orders ';'
        "region-in[a,b];region.desc-isnull" = .ok these ∧
      parse SmallCatalog.catalog.resolver SmallCatalog.orders ';'
        "region.desc-isnull;region-in[b,a,b];region-in[a,b]" = .ok those ∧
      (these == those) = true ∧ these.size = those.size ∧
      these.valueCount = those.valueCount := by
  let listed := "region-in[a,b]".toList
  let swapped := "region-in[b,a,b]".toList
  let bare := "region.desc-isnull".toList
  have read : Filter.parse SmallCatalog.catalog.resolver SmallCatalog.orders listed =
      .ok ⟨SmallCatalog.region, ⟨"region", "id", none⟩, .isIn, ["a", "b"]⟩ := rfl
  have readBare : Filter.parse SmallCatalog.catalog.resolver SmallCatalog.orders bare =
      .ok ⟨SmallCatalog.region, ⟨"region", "desc", none⟩, .isNull, []⟩ := rfl
  have varies : Filter.Varies SmallCatalog.catalog.resolver SmallCatalog.orders listed swapped :=
    .inr ⟨⟨_, read, rfl⟩, .listed "region-in".toList [] [['a'], ['b']] [['b'], ['a'], ['b']]
      (by decide) (by decide) (by decide)⟩
  have accepted : ∀ text ∈ [listed, bare],
      ∃ f, Filter.parse SmallCatalog.catalog.resolver SmallCatalog.orders text = .ok f := by
    simp only [List.forall_mem_cons]
    exact ⟨⟨_, read⟩, ⟨_, readBare⟩, by simp⟩
  have hides : ∀ text ∈ [listed, bare], HidesDelimiter ';' 0 text := by
    simp only [List.forall_mem_cons]
    exact ⟨hidesDelimiter_of_not_mem 0 (by decide), hidesDelimiter_of_not_mem 0 (by decide),
      by simp⟩
  have rearranged : Rearranged SmallCatalog.catalog.resolver SmallCatalog.orders [listed, bare]
      [bare, swapped, listed] := by
    constructor
    · simp only [List.forall_mem_cons]
      exact ⟨⟨swapped, by simp, varies⟩, ⟨bare, by simp, .inl rfl⟩, by simp⟩
    · simp only [List.forall_mem_cons]
      exact ⟨⟨bare, by simp, .inl rfl⟩, ⟨listed, by simp, varies⟩, ⟨listed, by simp, .inl rfl⟩,
        by simp⟩
  have delimits : CanDelimit ';' := ⟨by decide, by decide⟩
  have joined : String.ofList (joinWith ';' [listed, bare]) =
      "region-in[a,b];region.desc-isnull" := rfl
  have joinedToo : String.ofList (joinWith ';' [bare, swapped, listed]) =
      "region.desc-isnull;region-in[b,a,b];region-in[a,b]" := rfl
  rw [← joined, ← joinedToo]
  exact order_and_repetition_irrelevant SmallCatalog.catalog.resolver SmallCatalog.orders
    delimits accepted hides rearranged

end Filters

end AggregateQuery
