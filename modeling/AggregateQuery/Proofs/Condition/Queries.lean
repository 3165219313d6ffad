import AggregateQuery.Condition.Query
import AggregateQuery.Proofs.Condition.FilterText
import AggregateQuery.Proofs.Condition.HavingText
import AggregateQuery.Proofs.Data.Grouping
import AggregateQuery.Proofs.Text.Entries
/-!
Accepted queries. Each of their conditions was read from an entry, and stands under what it
constrains: the very entry of the catalog, which the table exposes.
-/
namespace AggregateQuery

open Text

variable {α ε κ : Type}

theorem readClauses_eq_ok_iff {read : List Char → Except ε α} {index : Nat}
    {texts : List (List Char)} {values : List α} :
    readClauses read index texts = .ok values ↔ texts.mapM read = .ok values := by
  induction texts generalizing index values with
  | nil => simp [readClauses, pure, Except.pure]
  | cons text rest ih =>
    rw [readClauses, mapM_cons_eq_ok_iff]
    cases one : read text with
    | error cause => simp
    | ok value => simp [map_eq_ok_iff, ih]

theorem error_of_readClauses {read : List Char → Except ε α} {index : Nat}
    {texts : List (List Char)} {failure : ClauseFailure ε}
    (failed : readClauses read index texts = .error failure) :
    ∃ text ∈ texts, read text = .error failure.cause := by
  induction texts generalizing index with
  | nil => contradiction
  | cons text rest ih =>
    rw [readClauses] at failed
    split at failed
    · rename_i cause one
      obtain rfl := Except.error.inj failed
      exact ⟨text, List.mem_cons_self, one⟩
    · obtain ⟨later, member, one⟩ := ih (map_eq_error_iff.mp failed)
      exact ⟨later, List.mem_cons_of_mem text member, one⟩

variable [BEq κ] [BEq α] {read : List Char → Except ε α} {key : α → κ} {delimiter : Char}
  {query : String}

theorem error_of_readConditions {failure : ClauseFailure ε}
    (failed : readConditions read key delimiter query = .error failure) :
    ∃ text, read text = .error failure.cause := by
  obtain ⟨text, _, one⟩ := error_of_readClauses (map_eq_error_iff.mp failed)
  exact ⟨text, one⟩

theorem readConditions_wellFormed {these : Grouped κ α}
    (accepted : readConditions read key delimiter query = .ok these) : these.WellFormed := by
  obtain ⟨values, _, rfl⟩ := map_eq_ok_iff.mp accepted
  exact Grouped.wellFormed_ofPairs _

theorem readConditions_respects [ReflBEq κ] {isKey : κ → Prop} {belongs : κ → α → Prop}
    {these : Grouped κ α} (accepted : readConditions read key delimiter query = .ok these)
    (fit : ∀ entry ∈ entries delimiter query.toList, ∀ value, read entry = .ok value →
      isKey (key value) ∧ ∀ k, isKey k → (k == key value) = true → belongs k value) :
    these.Respects isKey belongs := by
  obtain ⟨values, all, rfl⟩ := map_eq_ok_iff.mp accepted
  apply Grouped.respects_ofPairs
  intro pair member
  obtain ⟨value, among, rfl⟩ := List.mem_map.mp member
  obtain ⟨entry, listed, one⟩ := read_from_of_mapM (readClauses_eq_ok_iff.mp all) value among
  exact fit entry listed value one

namespace Filters

def ofList (fs : List Filter) : Filters := .ofPairs (fs.map fun f => (f.dimension, f))

theorem ofList_wellFormed (fs : List Filter) : (ofList fs).WellFormed :=
  Grouped.wellFormed_ofPairs _

theorem parse_eq_ok_iff {r : Resolver} {table : Table} {fs : Filters} :
    parse r table delimiter query = .ok fs ↔ ∃ read,
      (entries delimiter query.toList).mapM (Filter.parse r table) = .ok read ∧
        ofList read = fs := by
  simp only [parse, readConditions, map_eq_ok_iff, readClauses_eq_ok_iff, ofList]

end Filters

theorem Filters.parsed_respects {catalog : Catalog} {table : Table} {fs : Filters}
    (accepted : parse catalog.resolver table delimiter query = .ok fs) :
    fs.Respects (catalog.OffersDimension table) fun d f => f.dimension = d ∧
      ∃ entry ∈ entries delimiter query.toList,
        Filter.parse catalog.resolver table entry = .ok f := by
  apply readConditions_respects accepted
  intro entry listed f one
  obtain ⟨_, _, _, _, _, found, _⟩ := Filter.parse_eq_ok_iff.mp one
  obtain ⟨_, offered⟩ := Catalog.resolver_dimension?_eq_some_iff.mp found
  refine ⟨offered, ?_⟩
  intro d offeredToo equal
  exact ⟨(Catalog.offered_dimension_unique offeredToo offered equal).symm, entry, listed, one⟩

theorem Havings.parsed_respects {catalog : Catalog} {table : Table} {hs : Havings}
    (accepted : parse catalog.resolver table delimiter query = .ok hs) :
    hs.Respects (catalog.OffersMetric table) fun m h => h.metric = m := by
  apply readConditions_respects accepted
  intro entry _ h one
  obtain ⟨_, _, found, _⟩ := Having.parse_eq_ok_iff.mp one
  obtain ⟨_, offered⟩ := Catalog.resolver_metric?_eq_some_iff.mp found
  refine ⟨offered, ?_⟩
  intro m offeredToo equal
  exact (Catalog.offered_metric_unique offeredToo offered equal).symm

end AggregateQuery
