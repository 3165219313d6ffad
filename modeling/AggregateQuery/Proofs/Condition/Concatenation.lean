import AggregateQuery.Proofs.Condition.Queries
import AggregateQuery.Proofs.Condition.WrittenFilter
/-!
Queries one after another. A query that is read leaves no bracket open, so behind a delimiter a
second query is cut as it is alone; its conditions join those of the first, and its failures count
on from there.
-/
namespace AggregateQuery

open Text

variable {α ε κ : Type}

def ClauseFailure.behind (count : Nat) (failure : ClauseFailure ε) : ClauseFailure ε :=
  { failure with index := count + failure.index }

theorem readClauses_behind (read : List Char → Except ε α) (count index : Nat)
    (texts : List (List Char)) : readClauses read (count + index) texts =
      (readClauses read index texts).mapError (ClauseFailure.behind count) := by
  induction texts generalizing index with
  | nil => rfl
  | cons text rest ih =>
    rw [readClauses, readClauses]
    cases read text with
    | error cause => rfl
    | ok value =>
      have later := ih (index + 1)
      rw [← Nat.add_assoc] at later
      simp only [later]
      cases readClauses read (index + 1) rest <;> rfl

theorem readClauses_append {read : List Char → Except ε α} {index : Nat}
    {texts : List (List Char)} {values : List α} (more : List (List Char))
    (done : readClauses read index texts = .ok values) :
    readClauses read index (texts ++ more) =
      (readClauses read (index + texts.length) more).map (values ++ ·) := by
  induction texts generalizing index values with
  | nil =>
    obtain rfl : [] = values := Except.ok.inj done
    cases rest : readClauses read index more <;> simp [Except.map, rest]
  | cons text rest ih =>
    rw [readClauses] at done
    split at done
    · contradiction
    · rename_i value one
      obtain ⟨others, readOthers, rfl⟩ := map_eq_ok_iff.mp done
      have counted : index + (text :: rest).length = index + 1 + rest.length := by
        rw [List.length_cons]
        omega
      rw [List.cons_append, readClauses, one, counted]
      simp only [ih readOthers]
      cases readClauses read (index + 1 + rest.length) more <;> rfl

def clauseCount (delimiter : Char) (query : String) : Nat := (entries delimiter query.toList).length

def inTurn (delimiter : Char) (first second : String) : String :=
  first ++ String.singleton delimiter ++ second

variable [BEq κ] [BEq α]

/-- What reading two queries in turn must be: the second adds to the first, and fails behind it. -/
structure ReadsInTurn (delimiter : Char)
    (parse : String → Except (ClauseFailure ε) (Grouped κ α))
    (merge : Grouped κ α → String → Except (ClauseFailure ε) (Grouped κ α))
    (first second : String) : Prop where
  union : ∀ these those, parse first = .ok these → parse second = .ok those →
    parse (inTurn delimiter first second) = .ok (these.union those) ∧
      merge these second = .ok (these.union those)
  failure : ∀ these index clause cause, parse first = .ok these →
    parse second = .error ⟨index, clause, cause⟩ →
      parse (inTurn delimiter first second) =
        .error ⟨clauseCount delimiter first + index, clause, cause⟩

variable {read : List Char → Except ε α} {key : α → κ} {delimiter : Char}

theorem depthAfter_of_readConditions (delimits : CanDelimit delimiter)
    (closes : ∀ text value, read text = .ok value → depthAfter 0 text = 0) {query : String}
    {these : Grouped κ α} (accepted : readConditions read key delimiter query = .ok these) :
    depthAfter 0 query.toList = 0 := by
  obtain ⟨values, all, _⟩ := map_eq_ok_iff.mp accepted
  apply depthAfter_of_entries delimits
  intro entry member
  obtain ⟨value, one⟩ := read_of_mapM (readClauses_eq_ok_iff.mp all) entry member
  exact closes entry value one

theorem readConditions_inTurn [EquivBEq κ] (chains : Chains α) (delimits : CanDelimit delimiter)
    (closes : ∀ text value, read text = .ok value → depthAfter 0 text = 0)
    {first second : String} (someFirst : isBlankText first.toList = false)
    (someSecond : isBlankText second.toList = false) :
    ReadsInTurn delimiter (readConditions read key delimiter)
      (fun these query => (readConditions read key delimiter query).map these.union)
      first second := by
  have whole (these : Grouped κ α)
      (accepted : readConditions read key delimiter first = .ok these) :
      readConditions read key delimiter (inTurn delimiter first second) =
        ((readConditions read key delimiter second).map these.union).mapError
          (ClauseFailure.behind (clauseCount delimiter first)) := by
    have closed := depthAfter_of_readConditions delimits closes accepted
    obtain ⟨values, all, rfl⟩ := map_eq_ok_iff.mp accepted
    have text : (inTurn delimiter first second).toList =
        first.toList ++ delimiter :: second.toList := by simp [inTurn]
    rw [readConditions, text, entries_append delimits someFirst someSecond closed,
      readClauses_append _ all, Nat.zero_add, ← Nat.add_zero (List.length _), readClauses_behind,
      readConditions]
    cases readClauses read 0 (entries delimiter second.toList) with
    | error failure => rfl
    | ok more =>
      have joined := Grouped.ofPairs_append chains (values.map fun value => (key value, value))
        (more.map fun value => (key value, value))
      rw [← List.map_append] at joined
      exact congrArg Except.ok joined
  constructor
  · intro these those accepted acceptedMore
    rw [whole these accepted, acceptedMore]
    exact ⟨rfl, rfl⟩
  · intro these index clause cause accepted failed
    rw [whole these accepted, failed]
    rfl

/-- Filters and havings alike are read in turn, whatever the names resolve to. -/
theorem queries_read_in_turn (r : Resolver) (table : Table) (delimits : CanDelimit delimiter)
    {first second : String} (someFirst : isBlankText first.toList = false)
    (someSecond : isBlankText second.toList = false) :
    ReadsInTurn delimiter (Filters.parse r table delimiter)
        (fun these query => Filters.merge these r table delimiter query) first second ∧
      ReadsInTurn delimiter (Havings.parse r table delimiter)
        (fun these query => Havings.merge these r table delimiter query) first second := by
  constructor
  · refine readConditions_inTurn Filter.chains delimits ?_ someFirst someSecond
    intro text f read
    obtain ⟨clause, _, _, readClause, _⟩ := Filter.parse_eq_ok_iff.mp read
    exact Clause.depthAfter_of_ofChars readClause
  · refine readConditions_inTurn chains_of_equiv delimits ?_ someFirst someSecond
    intro text h read
    obtain ⟨clause, readClause, _⟩ := Having.parse_eq_ok_iff.mp read
    exact Clause.depthAfter_of_ofChars readClause

theorem failure_behind_first_query :
    Filters.parse SmallCatalog.catalog.resolver SmallCatalog.orders ';'
      "region-in[b];region-in[a];area-in[a]" =
        .error ⟨2, "area-in[a]", .unknownDimension "area" "orders" none⟩ := by
  have delimits : CanDelimit ';' := ⟨by decide, by decide⟩
  have someFirst : isBlankText "region-in[b]".toList = false := rfl
  have someSecond : isBlankText "region-in[a];area-in[a]".toList = false := rfl
  have laws := queries_read_in_turn SmallCatalog.catalog.resolver SmallCatalog.orders delimits
    someFirst someSecond
  exact laws.1.failure _ 1 _ _ rfl rfl

end AggregateQuery
