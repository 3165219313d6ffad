import AggregateQuery.Proofs.Request.ParameterOrder
/-!
Names that are not known. An error that rejects a name comes from one place where names are looked
up: it is not resolved there, and the nearest of the names that are offered there is suggested.
-/
namespace AggregateQuery

open Text

/-- A place where names are looked up: which names it resolves, and which it offers. -/
structure Lookup where
  resolves : String → Bool
  offered : List String

inductive Sought where
  | table
  | dimension
  | metric
  | filterOperation
  | havingOperation
  deriving DecidableEq

def Resolver.lookup (r : Resolver) (scope : Option Table) : Sought → Lookup
  | .table => ⟨fun name => (r.table? name).isSome, r.knownTables⟩
  | .dimension => match scope with
    | some table => ⟨fun name => (r.dimension? name table).isSome, table.dimensions⟩
    | none => ⟨fun name => (r.anyDimension? name).isSome, r.knownDimensions⟩
  | .metric => match scope with
    | some table => ⟨fun name => (r.metric? name table).isSome, table.metrics⟩
    | none => ⟨fun _ => false, []⟩
  | .filterOperation =>
    ⟨fun name => (FilterOperation.ofName? name).isSome, FilterOperation.allNames⟩
  | .havingOperation =>
    ⟨fun name => (HavingOperation.ofName? name).isSome, HavingOperation.allNames⟩

structure Rejected where
  sought : Sought
  name : String
  suggestion : Option String

def FilterError.rejected? : FilterError → Option Rejected
  | unknownDimension name _ suggestion => some ⟨.dimension, name, suggestion⟩
  | unknownOperation operation suggestion => some ⟨.filterOperation, operation, suggestion⟩
  | _ => none

def HavingError.rejected? : HavingError → Option Rejected
  | unknownMetric name _ suggestion => some ⟨.metric, name, suggestion⟩
  | unknownOperation operation suggestion => some ⟨.havingOperation, operation, suggestion⟩
  | _ => none

def RequestError.rejected? : RequestError → Option Rejected
  | unknownTable name suggestion => some ⟨.table, name, suggestion⟩
  | unknownDimension name _ suggestion => some ⟨.dimension, name, suggestion⟩
  | unknownMetric name _ suggestion => some ⟨.metric, name, suggestion⟩
  | filter failure => failure.cause.rejected?
  | having failure => failure.cause.rejected?
  | unknownDimensionField _ _ => none
  | parameter _ _ _ => none

/-- Whether a name is not resolved, and the nearest of what is offered is suggested. -/
structure Rejected.By (rejected : Rejected) (lookup : Lookup) : Prop where
  unknown : lookup.resolves rejected.name = false
  closest : rejected.suggestion = closest? rejected.name lookup.offered

def LookedUp (r : Resolver) (scope : Option Table) (rejected? : Option Rejected) : Prop :=
  ∀ rejected ∈ rejected?, rejected.By (r.lookup scope rejected.sought)

variable {r : Resolver} {scope : Option Table} {table : Table}

theorem lookedUp_none : LookedUp r scope none := by
  simp [LookedUp]

theorem lookedUp_of_unknown {α : Type} {found? : Option α} {sought : Sought} {name : String}
    (unknown : found? = none) (same : (r.lookup scope sought).resolves name = found?.isSome) :
    LookedUp r scope
      (some ⟨sought, name, closest? name (r.lookup scope sought).offered⟩) := by
  rintro _ ⟨⟩
  exact ⟨by rw [same, unknown, Option.isSome_none], rfl⟩

namespace Filter

variable {e : FilterError}

theorem rejected?_of_cutSubject {subject : String} (failed : cutSubject subject = .error e) :
    e.rejected? = none := by
  rw [cutSubject] at failed
  split at failed
  · contradiction
  · split at failed
    · obtain rfl := Except.error.inj failed
      rfl
    · split at failed
      · obtain rfl := Except.error.inj failed
        rfl
      · contradiction

theorem rejected?_of_resolveField {d : Dimension} {name : Option String}
    (failed : resolveField r d name = .error e) : e.rejected? = none := by
  rw [resolveField] at failed
  split at failed
  · contradiction
  · obtain rfl := Except.error.inj failed
    rfl

theorem rejected?_of_ofValues {d : Dimension} {field : DimensionField}
    {operation : FilterOperation} {values : List String}
    (failed : ofValues d field operation values = .error e) : e.rejected? = none := by
  rw [ofValues] at failed
  split at failed
  · obtain rfl := Except.error.inj failed
    rfl
  · obtain rfl := Except.error.inj failed
    rfl
  · split at failed
    · obtain rfl := Except.error.inj failed
      rfl
    · contradiction

theorem lookedUp_of_parse {text : List Char} (failed : parse r table text = .error e) :
    LookedUp r (some table) e.rejected? := by
  -- The readers of a filter in turn; of these only two look a name up that may be near another.
  rcases bind_eq_error_iff.mp failed with malformed | ⟨clause, _, failed⟩
  · obtain ⟨fault, _, rfl⟩ := mapError_eq_error_iff.mp malformed
    exact lookedUp_none
  rcases bind_eq_error_iff.mp failed with uncut | ⟨⟨name, inner⟩, _, failed⟩
  · rw [rejected?_of_cutSubject uncut]
    exact lookedUp_none
  rcases bind_eq_error_iff.mp failed with unknown | ⟨dimension, _, failed⟩
  · obtain ⟨none, rfl⟩ := resolveDimension_eq_error_iff.mp unknown
    exact lookedUp_of_unknown none rfl
  rcases bind_eq_error_iff.mp failed with unknown | ⟨field, _, failed⟩
  · rw [rejected?_of_resolveField unknown]
    exact lookedUp_none
  rcases bind_eq_error_iff.mp failed with unknown | ⟨operation, _, failed⟩
  · obtain ⟨none, rfl⟩ := resolveOperation_eq_error_iff.mp unknown
    exact lookedUp_of_unknown none rfl
  · rw [rejected?_of_ofValues failed]
    exact lookedUp_none

end Filter

namespace Having

variable {e : HavingError}

theorem rejected?_of_readValue {text : String} (failed : readValue text = .error e) :
    e.rejected? = none := by
  rw [readValue] at failed
  split at failed
  · contradiction
  · obtain rfl := Except.error.inj failed
    rfl

theorem rejected?_of_ofFinite {metric : Metric} {operation : HavingOperation}
    {values : List Binary64} (failed : ofFinite metric operation values = .error e) :
    e.rejected? = none := by
  rw [ofFinite] at failed
  split at failed
  · obtain rfl := Except.error.inj failed
    rfl
  · obtain rfl := Except.error.inj failed
    rfl
  · contradiction

theorem lookedUp_of_parse {text : List Char} (failed : parse r table text = .error e) :
    LookedUp r (some table) e.rejected? := by
  rcases bind_eq_error_iff.mp failed with malformed | ⟨clause, _, failed⟩
  · obtain ⟨fault, _, rfl⟩ := mapError_eq_error_iff.mp malformed
    exact lookedUp_none
  rcases bind_eq_error_iff.mp failed with unknown | ⟨metric, _, failed⟩
  · obtain ⟨none, rfl⟩ := resolveMetric_eq_error_iff.mp unknown
    exact lookedUp_of_unknown none rfl
  rcases bind_eq_error_iff.mp failed with unknown | ⟨operation, _, failed⟩
  · obtain ⟨none, rfl⟩ := resolveOperation_eq_error_iff.mp unknown
    exact lookedUp_of_unknown none rfl
  rcases bind_eq_error_iff.mp failed with unread | ⟨values, _, failed⟩
  · obtain ⟨text, _, one⟩ := error_of_mapM unread
    rw [rejected?_of_readValue one]
    exact lookedUp_none
  · rw [rejected?_of_ofFinite failed]
    exact lookedUp_none

end Having

namespace RequestParameters

variable {p : RequestParameters} {settings : Settings} {e : RequestError}

theorem lookedUp_of_readDimensions {raw : String}
    (failed : readDimensions r table raw = .error e) : LookedUp r (some table) e.rejected? := by
  rcases error_of_readDimensions failed with ⟨_, rfl⟩ | ⟨_, unknown⟩ | ⟨_, _, unknown⟩
  · exact lookedUp_none
  · obtain ⟨none, rfl⟩ := resolveDimension_eq_error_iff.mp unknown
    exact lookedUp_of_unknown none rfl
  · obtain ⟨_, rfl⟩ := resolveField_eq_error_iff.mp unknown
    exact lookedUp_none

theorem lookedUp_of_readMetrics {raw : String} (failed : readMetrics r table raw = .error e) :
    LookedUp r (some table) e.rejected? := by
  obtain ⟨entry, _, unknown⟩ := error_of_mapM failed
  obtain ⟨none, rfl⟩ := resolveMetric_eq_error_iff.mp unknown
  exact lookedUp_of_unknown none rfl

theorem lookedUp_of_filters {delimiter : Char} {query : String}
    {failure : ClauseFailure FilterError}
    (failed : Filters.parse r table delimiter query = .error failure) :
    LookedUp r (some table) (RequestError.filter failure).rejected? := by
  obtain ⟨text, one⟩ := error_of_readConditions failed
  exact Filter.lookedUp_of_parse one

theorem lookedUp_of_readFilters {delimiter : Char} {raw : String}
    (failed : readFilters r table delimiter raw = .error e) :
    LookedUp r (some table) e.rejected? := by
  obtain ⟨_, unread, rfl⟩ := mapError_eq_error_iff.mp failed
  exact lookedUp_of_filters unread

theorem lookedUp_of_readHavings {delimiter : Char} {raw : String}
    (failed : readHavings r table delimiter raw = .error e) :
    LookedUp r (some table) e.rejected? := by
  obtain ⟨_, unread, rfl⟩ := mapError_eq_error_iff.mp failed
  obtain ⟨text, one⟩ := error_of_readConditions unread
  exact Having.lookedUp_of_parse one

theorem lookedUp_in_table {α : Type} {read : Table → String → Except RequestError α} {absent : α}
    {raw : Option String}
    (fault : ((readTable r p.table).toOption.bind fun table =>
      errorOf? (readGiven (read table) absent raw)) = some e)
    (each : ∀ {table text}, read table text = .error e → LookedUp r (some table) e.rejected?) :
    LookedUp r (r.table? p.table) e.rejected? := by
  obtain ⟨table, known, failed⟩ := Option.bind_eq_some_iff.mp fault
  obtain ⟨text, _, failed⟩ := readGiven_eq_error_iff.mp (errorOf?_eq_some_iff.mp failed)
  have resolved : (readTable r p.table).toOption = r.table? p.table := by
    rw [readTable]
    cases r.table? p.table <;> rfl
  rw [← resolved, known]
  exact each failed

theorem lookedUp_of_toDataRequest (failed : p.toDataRequest r settings = .error e) :
    LookedUp r (r.table? p.table) e.rejected? := by
  have own := (toDataRequest_eq_error_iff.mp failed).own
  cases e with
  | unknownTable name suggestion =>
    obtain ⟨none, same⟩ := readTable_eq_error_iff.mp (errorOf?_eq_some_iff.mp own)
    rw [← same]
    exact lookedUp_of_unknown none rfl
  | unknownDimension => exact lookedUp_in_table own lookedUp_of_readDimensions
  | unknownMetric => exact lookedUp_in_table own lookedUp_of_readMetrics
  | filter => exact lookedUp_in_table own lookedUp_of_readFilters
  | having => exact lookedUp_in_table own lookedUp_of_readHavings
  | unknownDimensionField => exact lookedUp_none
  | parameter => exact lookedUp_none

def Key.naming : List Key := [.table, .dimensions, .metrics, .filters, .having]

theorem key_of_rejected {rejected : Rejected} (found : e.rejected? = some rejected) :
    e.key ∈ Key.naming := by
  cases e <;> simp_all [RequestError.key, RequestError.rejected?, Key.naming]

theorem lookedUp_of_keys {keys : List Key} (about : e.key ∈ keys)
    (unnamed : ∀ key ∈ keys, key ∉ Key.naming) : LookedUp r scope e.rejected? := by
  intro rejected found
  exact absurd (key_of_rejected found) (unnamed e.key about)

theorem key_of_readPage (failed : p.readPage settings = .error e) :
    e.key ∈ [Key.perPage, .page] := by
  rcases bind_eq_error_iff.mp failed with size | ⟨perPage, _, failed⟩
  · rw [key_of_readOptional size]
    exact List.mem_cons_self
  rcases bind_eq_error_iff.mp failed with number | ⟨page, _, failed⟩
  · rw [key_of_readOptional number]
    exact List.mem_cons_of_mem _ List.mem_cons_self
  split at failed
  · contradiction
  · contradiction
  · obtain rfl := Except.error.inj failed
    exact List.mem_cons_of_mem _ List.mem_cons_self
  · contradiction

theorem lookedUp_of_mergeFilters {request : DimensionRequest} {delimiter : Char} {query : String}
    (failed : request.mergeFilters r delimiter query = .error e) :
    LookedUp r (some request.scope) e.rejected? := by
  rw [DimensionRequest.mergeFilters] at failed
  split at failed
  · contradiction
  · rename_i failure unread
    obtain rfl := Except.error.inj failed
    exact lookedUp_of_filters (map_eq_error_iff.mp unread)

theorem lookedUp_of_toDimensionRequest {name : String}
    (failed : p.toDimensionRequest r settings name = .error e) :
    LookedUp r ((r.anyDimension? name).map .scopeOf) e.rejected? := by
  rw [toDimensionRequest] at failed
  split at failed
  · rename_i dimension known
    rw [known]
    rcases bind_eq_error_iff.mp failed with failed | ⟨d, same, failed⟩
    · contradiction
    obtain rfl := Except.ok.inj same
    rcases bind_eq_error_iff.mp failed with failed | ⟨filtered, _, failed⟩
    · obtain ⟨text, _, failed⟩ := readGiven_eq_error_iff.mp failed
      exact lookedUp_of_mergeFilters failed
    rcases bind_eq_error_iff.mp failed with failed | ⟨page, _, failed⟩
    · exact lookedUp_of_keys (key_of_readPage failed) (by decide)
    rcases bind_eq_error_iff.mp failed with failed | ⟨format, _, failed⟩
    · exact lookedUp_of_keys (List.mem_singleton.mpr (key_of_readOr failed)) (by decide)
    rcases bind_eq_error_iff.mp failed with failed | ⟨asyncAfter, _, whole⟩
    · exact lookedUp_of_keys (List.mem_singleton.mpr (key_of_readOr failed)) (by decide)
    · contradiction
  · rename_i unknown
    rcases bind_eq_error_iff.mp failed with failed | ⟨d, same, failed⟩
    · obtain rfl := Except.error.inj failed
      rw [unknown]
      exact lookedUp_of_unknown unknown rfl
    · contradiction

end RequestParameters

end AggregateQuery
