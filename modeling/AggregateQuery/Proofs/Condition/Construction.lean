import AggregateQuery.Proofs.Condition.Queries
import AggregateQuery.Proofs.Data.Construction
/-!
Filters and havings as they can be made. What is kept of the values of a filter are enough values
for its operation, and each of them once; a having keeps its numbers, all of which are finite.
-/
namespace AggregateQuery

namespace Filter

variable {f : Filter}

def Constructed (f : Filter) : Prop :=
  ∃ values, ofValues f.dimension f.field f.operation values = .ok f

structure WellFormed (f : Filter) : Prop where
  once : f.values.Nodup
  counted : f.operation.arity.Admits f.values.length
  bounds : f.operation = .between → ∃ low high, f.values = [low, high] ∧ low ≠ high
  inhabited : f.operation ≠ .isNull → f.operation ≠ .notNull → f.values ≠ []

theorem bounds_of_admits (once : f.values.Nodup)
    (counted : f.operation.arity.Admits f.values.length) (range : f.operation = .between) :
    ∃ low high, f.values = [low, high] ∧ low ≠ high := by
  rw [range] at counted
  have two : f.values.length = 2 := Nat.le_antisymm (counted.2 2 rfl) counted.1
  obtain ⟨low, high, whole⟩ := List.length_eq_two.mp two
  rw [whole] at once
  exact ⟨low, high, whole, by simpa using once⟩

theorem ne_nil_of_admits (counted : f.operation.arity.Admits f.values.length)
    (apart : f.operation ≠ .isNull) (apartToo : f.operation ≠ .notNull) : f.values ≠ [] := by
  intro none
  have least : f.operation.arity.min = 0 := by simpa [none] using counted.1
  cases operation : f.operation <;> rw [operation] at apart apartToo least <;> contradiction

/-- Leaving out what was given twice does not leave too few values. -/
theorem Constructed.wellFormed (constructed : f.Constructed) : f.WellFormed := by
  obtain ⟨values, made⟩ := constructed
  have once := made_values_nodup made
  have counted := (ofValues_eq_ok_iff.mp (ofValues_kept made)).1
  exact ⟨once, counted, bounds_of_admits once counted, ne_nil_of_admits counted⟩

theorem constructed_of_parse {r : Resolver} {table : Table} {text : List Char}
    (read : parse r table text = .ok f) : f.Constructed := by
  obtain ⟨clause, _, _, _, _, _, _, _, made⟩ := parse_eq_ok_iff.mp read
  exact ⟨clause.values.getD [], made⟩

end Filter

namespace Having

variable {h : Having}

def Constructed (h : Having) : Prop :=
  ∃ numbers, ofNumbers h.metric h.operation numbers = .ok h

structure WellFormed (h : Having) : Prop where
  finite : ∀ v ∈ h.values, v.code < codeLimit
  counted : h.operation.arity.Admits h.values.length

theorem finiteValue_eq_ok_iff {number : Number} {value : Binary64} :
    finiteValue number = .ok value ↔ number = .finite value := by
  cases number <;> simp [finiteValue, Number.finite?]

theorem ofNumbers_eq_ok_iff {metric : Metric} {operation : HavingOperation}
    {numbers : List Number} : ofNumbers metric operation numbers = .ok h ↔
      numbers = h.values.map .finite ∧ operation.arity.Admits h.values.length ∧
        h = ⟨metric, operation, h.values⟩ := by
  have kept (values : List Binary64) :
      numbers.mapM finiteValue = .ok values ↔ numbers = values.map .finite := by
    rw [mapM_eq_ok_iff_forall₂]
    simp only [finiteValue_eq_ok_iff]
    rw [← List.forall₂_map_right_iff, List.forall₂_eq_eq_eq]
  rw [ofNumbers, bind_eq_ok_iff]
  simp only [kept, ofFinite_eq_ok_iff]
  constructor
  · rintro ⟨values, given, counted, rfl⟩
    exact ⟨given, counted, rfl⟩
  · rintro ⟨given, counted, whole⟩
    exact ⟨h.values, given, counted, whole⟩

theorem Constructed.wellFormed (constructed : h.Constructed) : h.WellFormed := by
  obtain ⟨numbers, made⟩ := constructed
  exact ⟨fun v _ => v.finite, (ofNumbers_eq_ok_iff.mp made).2.1⟩

theorem constructed_of_parse {r : Resolver} {table : Table} {text : List Char}
    (read : parse r table text = .ok h) : h.Constructed := by
  obtain ⟨_, _, _, _, _, counted⟩ := parse_eq_ok_iff.mp read
  exact ⟨_, ofNumbers_eq_ok_iff.mpr ⟨rfl, counted, rfl⟩⟩

end Having

theorem lawful_of_readConditions {α ε κ : Type} [BEq κ] [ReflBEq κ] [BEq α] {belongs : α → Prop}
    {read : List Char → Except ε α} {key : α → κ} {delimiter : Char} {query : String}
    {these : Grouped κ α} (accepted : readConditions read key delimiter query = .ok these)
    (each : ∀ entry value, read entry = .ok value → belongs value) : these.Lawful belongs := by
  refine ⟨readConditions_wellFormed accepted, Grouped.forall_values_iff.mpr ?_⟩
  apply readConditions_respects accepted
  intro entry _ value one
  exact ⟨trivial, fun _ _ _ => each entry value one⟩

variable {r : Resolver} {table : Table} {delimiter : Char} {query : String}

theorem Filters.lawful_of_parse {fs : Filters} (read : parse r table delimiter query = .ok fs) :
    fs.Lawful Filter.WellFormed :=
  lawful_of_readConditions read fun _ _ one => (Filter.constructed_of_parse one).wellFormed

theorem Havings.lawful_of_parse {hs : Havings} (read : parse r table delimiter query = .ok hs) :
    hs.Lawful Having.WellFormed :=
  lawful_of_readConditions read fun _ _ one => (Having.constructed_of_parse one).wellFormed

end AggregateQuery
