import AggregateQuery.Proofs.Request.BuiltRequest
/-!
The parameters of a request, one by one. Each has a fault of its own or none; the first of the
faults, in a fixed order, is the error, whatever stands in later parameters.
-/
namespace AggregateQuery

def errorOf? {α ε : Type} : Except ε α → Option ε
  | .ok _ => none
  | .error e => some e

theorem errorOf?_eq_some_iff {α ε : Type} {x : Except ε α} {e : ε} :
    errorOf? x = some e ↔ x = .error e := by
  cases x <;> simp [errorOf?]

namespace RequestParameters

inductive Key where
  | table
  | granularity
  | timeZone
  | dimensions
  | metrics
  | dateTime
  | filters
  | having
  | sort
  | count
  | topN
  | perPage
  | page
  | format
  | asyncAfter
  deriving DecidableEq

namespace Key

def order : List Key :=
  [table, granularity, timeZone, dimensions, metrics, dateTime, filters, having, sort, count, topN,
    perPage, page, format, asyncAfter]

def earlier (key : Key) : List Key := order.takeWhile (· != key)

/-- The parameters that a parameter cannot be read without, itself among them. -/
def reads : Key → List Key
  | dimensions => [table, dimensions]
  | metrics => [table, metrics]
  | dateTime => [timeZone, dateTime]
  | filters => [table, filters]
  | having => [table, having]
  | page => [perPage, page]
  | key => [key]

theorem order_nodup : order.Nodup := by decide

theorem order_split (key : Key) : ∃ later, order = key.earlier ++ key :: later := by
  cases key <;> exact ⟨_, rfl⟩

theorem earlier_unique {key : Key} {before after : List Key}
    (split : order = before ++ key :: after) : key.earlier = before := by
  have others : ∀ other ∈ before, (other != key) = true := by
    intro other member
    have nodup := order_nodup
    rw [split, List.nodup_append] at nodup
    simpa using nodup.2.2 other member key List.mem_cons_self
  rw [earlier, split, List.takeWhile_append_of_pos others, List.takeWhile_cons_of_neg (by simp),
    List.append_nil]

theorem reads_in_order (key : Key) :
    ∀ other ∈ key :: key.earlier, ∀ needed ∈ other.reads, needed ∈ key :: key.earlier := by
  cases key <;> decide

end Key

def given? (p : RequestParameters) : Key → Option String
  | .table => some p.table
  | .granularity => p.granularity
  | .timeZone => p.timeZone
  | .dimensions => p.dimensions
  | .metrics => p.metrics
  | .dateTime => p.intervals
  | .filters => p.filters
  | .having => p.having
  | .sort => p.sorts
  | .count => p.count
  | .topN => p.topN
  | .perPage => p.perPage
  | .page => p.page
  | .format => p.format
  | .asyncAfter => p.asyncAfter

end RequestParameters

def Parameter.key : Parameter → RequestParameters.Key
  | granularity => .granularity
  | timeZone => .timeZone
  | dimensions => .dimensions
  | dateTime => .dateTime
  | sort => .sort
  | count => .count
  | topN => .topN
  | perPage => .perPage
  | page => .page
  | format => .format
  | asyncAfter => .asyncAfter

def RequestError.key : RequestError → RequestParameters.Key
  | unknownTable _ _ => .table
  | unknownDimension _ _ _ => .dimensions
  | unknownDimensionField _ _ => .dimensions
  | unknownMetric _ _ _ => .metrics
  | filter _ => .filters
  | having _ => .having
  | parameter which _ _ => which.key

namespace RequestParameters

variable {p p' : RequestParameters} {resolver : Resolver} {settings : Settings} {e : RequestError}

/-- What is wrong with one parameter. Names are read in the table that is given, if there is one,
and times in the zone that is given; a number of a page needs a size as well. -/
def fault? (p : RequestParameters) (resolver : Resolver) (settings : Settings) :
    Key → Option RequestError
  | .table => errorOf? (readTable resolver p.table)
  | .granularity => errorOf? (readGranularity p.granularity)
  | .timeZone => errorOf? (readTimeZone settings p.timeZone)
  | .dimensions => (readTable resolver p.table).toOption.bind fun table =>
    errorOf? (readGiven (readDimensions resolver table) ([], .empty) p.dimensions)
  | .metrics => (readTable resolver p.table).toOption.bind fun table =>
    errorOf? (readGiven (readMetrics resolver table) [] p.metrics)
  | .dateTime => (readTimeZone settings p.timeZone).toOption.bind fun zone =>
    errorOf? (readOr [] .dateTime (readIntervals settings.delimiters.intervals zone) p.intervals)
  | .filters => (readTable resolver p.table).toOption.bind fun table =>
    errorOf? (readGiven (readFilters resolver table settings.delimiters.filters) .empty p.filters)
  | .having => (readTable resolver p.table).toOption.bind fun table =>
    errorOf? (readGiven (readHavings resolver table settings.delimiters.havings) .empty p.having)
  | .sort => errorOf? (readOr [] .sort (SortTerm.parseAll settings.delimiters.sorts) p.sorts)
  | .count => errorOf? (readOptional .count Positive.parse p.count)
  | .topN => errorOf? (readOptional .topN Positive.parse p.topN)
  | .perPage => errorOf? (readOptional .perPage Positive.parse p.perPage)
  | .page => (errorOf? (readOptional .page Positive.parse p.page)).or <|
    if p.page.isSome && !(p.perPage.isSome || settings.defaults.perPage.isSome) then
      some (.parameter .page (p.page.getD "") .incompletePagination)
    else none
  | .format => errorOf? (p.readFormat settings)
  | .asyncAfter => errorOf? (p.readAsyncAfter settings)

theorem fault?_congr {key : Key} (same : ∀ needed ∈ key.reads, p'.given? needed = p.given? needed) :
    p'.fault? resolver settings key = p.fault? resolver settings key := by
  cases key <;> simp [Key.reads, given?] at same <;>
    simp [fault?, readFormat, readAsyncAfter, same]

theorem key_of_readTable {name : String} (failed : readTable resolver name = .error e) :
    e.key = .table := by
  obtain ⟨_, rfl⟩ := readTable_eq_error_iff.mp failed
  rfl

theorem key_of_readOptional {α : Type} {which : Parameter}
    {parse : String → Except ParameterError α} {text : Option String}
    (failed : readOptional which parse text = .error e) : e.key = which.key := by
  cases text with
  | none => contradiction
  | some text =>
    obtain ⟨cause, _, rfl⟩ := mapError_eq_error_iff.mp (map_eq_error_iff.mp failed)
    rfl

theorem key_of_readOr {α : Type} {which : Parameter} {parse : String → Except ParameterError α}
    {absent : α} {text : Option String} (failed : readOr absent which parse text = .error e) :
    e.key = which.key :=
  key_of_readOptional (map_eq_error_iff.mp failed)

theorem key_of_readGiven {α : Type} {read : String → Except RequestError α} {absent : α}
    {text : Option String} {key : Key} (each : ∀ raw, read raw = .error e → e.key = key)
    (failed : readGiven read absent text = .error e) : e.key = key := by
  obtain ⟨raw, _, failed⟩ := readGiven_eq_error_iff.mp failed
  exact each raw failed

theorem key_of_readDimensions {table : Table} (raw : String)
    (failed : readDimensions resolver table raw = .error e) : e.key = .dimensions := by
  rcases error_of_readDimensions failed with ⟨_, rfl⟩ | ⟨_, unknown⟩ | ⟨_, _, unknown⟩
  · rfl
  · obtain ⟨_, rfl⟩ := resolveDimension_eq_error_iff.mp unknown
    rfl
  · obtain ⟨_, rfl⟩ := resolveField_eq_error_iff.mp unknown
    rfl

theorem key_of_readMetrics {table : Table} (raw : String)
    (failed : readMetrics resolver table raw = .error e) : e.key = .metrics := by
  obtain ⟨entry, _, one⟩ := error_of_mapM failed
  obtain ⟨_, rfl⟩ := resolveMetric_eq_error_iff.mp one
  rfl

theorem key_of_readFilters {table : Table} {delimiter : Char} (raw : String)
    (failed : readFilters resolver table delimiter raw = .error e) : e.key = .filters := by
  obtain ⟨cause, _, rfl⟩ := mapError_eq_error_iff.mp failed
  rfl

theorem key_of_readHavings {table : Table} {delimiter : Char} (raw : String)
    (failed : readHavings resolver table delimiter raw = .error e) : e.key = .having := by
  obtain ⟨cause, _, rfl⟩ := mapError_eq_error_iff.mp failed
  rfl

theorem key_of_fault {key : Key} (found : p.fault? resolver settings key = some e) :
    e.key = key := by
  cases key with
  | table => exact key_of_readTable (errorOf?_eq_some_iff.mp found)
  | granularity | timeZone | sort | format | asyncAfter =>
    exact key_of_readOr (errorOf?_eq_some_iff.mp found)
  | count | topN | perPage => exact key_of_readOptional (errorOf?_eq_some_iff.mp found)
  | dimensions =>
    obtain ⟨table, _, failed⟩ := Option.bind_eq_some_iff.mp found
    exact key_of_readGiven key_of_readDimensions (errorOf?_eq_some_iff.mp failed)
  | metrics =>
    obtain ⟨table, _, failed⟩ := Option.bind_eq_some_iff.mp found
    exact key_of_readGiven key_of_readMetrics (errorOf?_eq_some_iff.mp failed)
  | filters =>
    obtain ⟨table, _, failed⟩ := Option.bind_eq_some_iff.mp found
    exact key_of_readGiven key_of_readFilters (errorOf?_eq_some_iff.mp failed)
  | having =>
    obtain ⟨table, _, failed⟩ := Option.bind_eq_some_iff.mp found
    exact key_of_readGiven key_of_readHavings (errorOf?_eq_some_iff.mp failed)
  | dateTime =>
    obtain ⟨zone, _, failed⟩ := Option.bind_eq_some_iff.mp found
    exact key_of_readOr (errorOf?_eq_some_iff.mp failed)
  | page =>
    rcases Option.or_eq_some_iff.mp found with failed | ⟨_, sizeless⟩
    · exact key_of_readOptional (errorOf?_eq_some_iff.mp failed)
    · split at sizeless
      · obtain rfl := Option.some.inj sizeless
        rfl
      · contradiction

/-- When a stage gives the first fault of some parameters and what follows gives the first fault of
later ones, together they give the first of all. -/
theorem errorOf?_stages {α β ε : Type} {x : Except ε α} {f : α → Except ε β} {keys later : List Key}
    {faultOf? : Key → Option ε} (own : errorOf? x = keys.findSome? faultOf?)
    (rest : ∀ a, x = .ok a → errorOf? (f a) = later.findSome? faultOf?) :
    errorOf? (x >>= f) = (keys ++ later).findSome? faultOf? := by
  rw [List.findSome?_append, ← own]
  cases x with
  | error e => rfl
  | ok a => exact rest a rfl

theorem errorOf?_stage {α β ε : Type} {x : Except ε α} {f : α → Except ε β} {key : Key}
    {later : List Key} {faultOf? : Key → Option ε} (own : errorOf? x = faultOf? key)
    (rest : ∀ a, x = .ok a → errorOf? (f a) = later.findSome? faultOf?) :
    errorOf? (x >>= f) = (key :: later).findSome? faultOf? := by
  have alone : errorOf? x = [key].findSome? faultOf? := by rw [own, List.findSome?_singleton]
  exact errorOf?_stages alone rest

theorem isSome_of_readOptional {α : Type} {which : Parameter}
    {parse : String → Except ParameterError α} {text : Option String} {value : Option α}
    (read : readOptional which parse text = .ok value) : value.isSome = text.isSome := by
  cases text with
  | none =>
    rw [← Except.ok.inj read]
    rfl
  | some raw =>
    obtain ⟨_, _, rfl⟩ := map_eq_ok_iff.mp read
    rfl

theorem errorOf?_readPage : errorOf? (p.readPage settings) =
    [Key.perPage, .page].findSome? (p.fault? resolver settings) := by
  refine errorOf?_stage rfl fun perPage readSize => ?_
  rw [List.findSome?_singleton, fault?, ← isSome_of_readOptional readSize]
  cases readNumber : readOptional .page Positive.parse p.page with
  | error e => rfl
  | ok page =>
    rw [← isSome_of_readOptional readNumber]
    cases perPage <;> cases settings.defaults.perPage <;> cases page <;> rfl

theorem errorOf?_toDataRequest : errorOf? (p.toDataRequest resolver settings) =
    Key.order.findSome? (p.fault? resolver settings) := by
  -- A stage for each parameter. The table and the zone are kept, for what is read in them.
  refine errorOf?_stage rfl fun table readTable => ?_
  refine errorOf?_stage rfl fun granularity _ => ?_
  refine errorOf?_stage rfl fun timeZone readTimeZone => ?_
  refine errorOf?_stage (by rw [fault?, readTable]; rfl) fun (dimensions, shown) _ => ?_
  refine errorOf?_stage (by rw [fault?, readTable]; rfl) fun metrics _ => ?_
  refine errorOf?_stage (by rw [fault?, readTimeZone]; rfl) fun intervals _ => ?_
  refine errorOf?_stage (by rw [fault?, readTable]; rfl) fun filters _ => ?_
  refine errorOf?_stage (by rw [fault?, readTable]; rfl) fun havings _ => ?_
  refine errorOf?_stage rfl fun sorts _ => ?_
  refine errorOf?_stage rfl fun count _ => ?_
  refine errorOf?_stage rfl fun topN _ => ?_
  refine errorOf?_stages errorOf?_readPage fun page _ => ?_
  refine errorOf?_stage rfl fun format _ => ?_
  refine errorOf?_stage rfl fun asyncAfter _ => ?_
  rfl

structure FirstFault (p : RequestParameters) (resolver : Resolver) (settings : Settings)
    (e : RequestError) : Prop where
  own : p.fault? resolver settings e.key = some e
  earlier : ∀ key ∈ e.key.earlier, p.fault? resolver settings key = none

theorem toDataRequest_eq_error_iff :
    p.toDataRequest resolver settings = .error e ↔ p.FirstFault resolver settings e := by
  rw [← errorOf?_eq_some_iff, errorOf?_toDataRequest, List.findSome?_eq_some_iff]
  constructor
  · rintro ⟨before, key, after, split, found, none⟩
    obtain rfl := key_of_fault found
    exact ⟨found, Key.earlier_unique split ▸ none⟩
  · rintro ⟨found, none⟩
    obtain ⟨later, split⟩ := Key.order_split e.key
    exact ⟨e.key.earlier, e.key, later, split, found, none⟩

theorem toDataRequest_error_stable (failed : p.toDataRequest resolver settings = .error e)
    (same : ∀ key ∈ e.key :: e.key.earlier, p'.given? key = p.given? key) :
    p'.toDataRequest resolver settings = .error e := by
  have alike : ∀ key ∈ e.key :: e.key.earlier,
      p'.fault? resolver settings key = p.fault? resolver settings key := by
    intro key member
    apply fault?_congr
    intro needed among
    exact same needed (e.key.reads_in_order key member needed among)
  have first := toDataRequest_eq_error_iff.mp failed
  refine toDataRequest_eq_error_iff.mpr ⟨?_, ?_⟩
  · rw [alike e.key List.mem_cons_self, first.own]
  · intro key member
    rw [alike key (List.mem_cons_of_mem e.key member), first.earlier key member]

end RequestParameters

end AggregateQuery
