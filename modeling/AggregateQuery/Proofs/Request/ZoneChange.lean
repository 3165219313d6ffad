import AggregateQuery.Proofs.Data.FirstOccurrences
import AggregateQuery.Proofs.Request.BuiltRequest
import AggregateQuery.Proofs.Time.Shifting
/-!
Requests read in different time zones. The zone moves the intervals of a request and nothing else.
Since the buckets move with it, validation finds the same faults.
-/
namespace AggregateQuery

def Violation.later (seconds : Int) : Violation → Violation
  | misalignedInterval interval granularity =>
    misalignedInterval (interval.later seconds) granularity
  | v => v

theorem Violation.later_eq_self {seconds : Int} {v : Violation} (other : v.rule ≠ .intervals) :
    v.later seconds = v := by
  cases v <;> first | rfl | contradiction

namespace DataRequest

def inZone (r : DataRequest) (zone : Zone) : DataRequest :=
  { r with
    timeZone := zone
    intervals := r.intervals.map (Interval.later (r.timeZone.seconds - zone.seconds)) }

variable {r : DataRequest} {zone : Zone}

theorem isAligned_inZone (unzoned : r.granularity.zone? = none) (grain : Grain)
    (interval : Interval) :
    (r.inZone zone).isAligned grain (interval.later (r.timeZone.seconds - zone.seconds)) =
      r.isAligned grain interval := by
  have here : r.bucketZone = r.timeZone := by rw [bucketZone, unzoned, Option.getD_none]
  have there : (r.inZone zone).bucketZone = zone := by
    change r.granularity.zone?.getD zone = zone
    rw [unzoned, Option.getD_none]
  rw [isAligned, isAligned, here, there, Interval.later_start, Interval.later_finish,
    Grain.isAligned_later, Grain.isAligned_later]

theorem intervalViolations_inZone (unzoned : r.granularity.zone? = none) :
    (r.inZone zone).intervalViolations =
      r.intervalViolations.map (Violation.later (r.timeZone.seconds - zone.seconds)) := by
  have shifted : (r.inZone zone).intervals =
    r.intervals.map (Interval.later (r.timeZone.seconds - zone.seconds)) := rfl
  have sameGranularity : (r.inZone zone).granularity = r.granularity := rfl
  rw [intervalViolations, intervalViolations, shifted, sameGranularity, List.isEmpty_map]
  split
  · rfl
  · split
    · rfl
    · rename_i grain _
      rw [List.filter_map, List.map_map, List.map_map]
      simp only [Function.comp_def, isAligned_inZone unzoned, Violation.later]

theorem sortViolationsFrom_inZone (seen : List SortColumn) (position : Nat)
    (columns : List SortColumn) : (r.inZone zone).sortViolationsFrom seen position columns =
      r.sortViolationsFrom seen position columns := by
  induction columns generalizing seen position with
  | nil => rfl
  | cons column rest ih =>
    rw [sortViolationsFrom, sortViolationsFrom, ih]
    rfl

theorem violationsOf_inZone (unzoned : r.granularity.zone? = none) (rule : Violation.Rule) :
    (r.inZone zone).violationsOf rule =
      (r.violationsOf rule).map (Violation.later (r.timeZone.seconds - zone.seconds)) := by
  by_cases onIntervals : rule = .intervals
  · rw [onIntervals]
    exact intervalViolations_inZone unzoned
  · have kept : ∀ v ∈ r.violationsOf rule,
        v.later (r.timeZone.seconds - zone.seconds) = v := by
      intro v member
      apply Violation.later_eq_self
      rwa [rule_of_mem member]
    have same : (r.inZone zone).violationsOf rule = r.violationsOf rule := by
      cases rule with
      | sorts => exact sortViolationsFrom_inZone [] 0 (r.sorts.map SortTerm.column)
      | intervals => contradiction
      | _ => rfl
    rw [same, List.map_congr_left kept, List.map_id']

theorem violations_inZone (unzoned : r.granularity.zone? = none) :
    (r.inZone zone).violations =
      r.violations.map (Violation.later (r.timeZone.seconds - zone.seconds)) := by
  have whole (q : DataRequest) : q.violations = q.violationsOf .granularity ++
    q.violationsOf .intervals ++ q.violationsOf .membership ++ q.violationsOf .havings ++
    q.violationsOf .fields ++ q.violationsOf .sorts ++ q.violationsOf .topN := rfl
  simp only [whole, violationsOf_inZone unzoned, List.map_append]

end DataRequest

theorem readOr_eq_ok_iff {α : Type} {absent value : α} {parameter : Parameter}
    {parse : String → Except ParameterError α} {given : Option String} :
    readOr absent parameter parse given = .ok value ↔
      given = none ∧ absent = value ∨ ∃ text, given = some text ∧ parse text = .ok value := by
  rw [readOr, map_eq_ok_iff]
  cases given with
  | none => simp [readOptional]
  | some text =>
    simp only [readOptional, readParameter, map_eq_ok_iff, mapError_eq_ok_iff]
    constructor
    · rintro ⟨_, ⟨_, read, rfl⟩, rfl⟩
      exact Or.inr ⟨text, rfl, read⟩
    · rintro (⟨absent, _⟩ | ⟨_, same, read⟩)
      · contradiction
      · rw [← Option.some.inj same] at read
        exact ⟨some value, ⟨value, read, rfl⟩, rfl⟩

namespace RequestParameters

theorem readGranularity_unzoned {value : Option String} {g : Granularity}
    (read : readGranularity value = .ok g) : g.zone? = none := by
  rcases readOr_eq_ok_iff.mp read with ⟨_, rfl⟩ | ⟨text, _, parsed⟩
  · rfl
  · have found := readTime_eq_ok_iff.mp (mapError_eq_ok_iff.mp parsed)
    rw [Granularity.parse?] at found
    split at found
    · obtain rfl := Option.some.inj found
      rfl
    · obtain ⟨grain, _, rfl⟩ := Option.map_eq_some_iff.mp found
      rfl

theorem readIntervals_in_zones {delimiter : Char} {here there : Zone} {given : Option String}
    {intervals intervalsThere : List Interval}
    (read : readOr [] .dateTime (readIntervals delimiter here) given = .ok intervals)
    (readThere : readOr [] .dateTime (readIntervals delimiter there) given = .ok intervalsThere) :
    intervalsThere = intervals.map (Interval.later (here.seconds - there.seconds)) := by
  rcases readOr_eq_ok_iff.mp read with ⟨rfl, rfl⟩ | ⟨text, rfl, all⟩
  · rcases readOr_eq_ok_iff.mp readThere with ⟨_, rfl⟩ | ⟨text, absent, _⟩
    · rfl
    · contradiction
  · rcases readOr_eq_ok_iff.mp readThere with ⟨absent, _⟩ | ⟨textToo, sameText, allThere⟩
    · contradiction
    · obtain rfl := Option.some.inj sameText
      exact mapM_of_related (fun _ _ _ => Interval.parse_in_zones) (mapError_eq_ok_iff.mp all)
        (mapError_eq_ok_iff.mp allThere)

/-- Of two requests that differ in the parameter for the time zone only, one is the other in its
own zone. -/
theorem built_in_zones {p : RequestParameters} {resolver : Resolver} {settings : Settings}
    {other : Option String} {r r' : DataRequest}
    (built : p.toDataRequest resolver settings = .ok r)
    (builtThere : toDataRequest { p with timeZone := other } resolver settings = .ok r') :
    r' = r.inZone r'.timeZone := by
  have parts := toDataRequest_eq_ok_iff.mp built
  have partsThere := toDataRequest_eq_ok_iff.mp builtThere
  obtain ⟨given, readIntervals, intervals⟩ := parts.intervals
  obtain ⟨givenThere, readIntervalsThere, _⟩ := partsThere.intervals
  have moved : (r.inZone r'.timeZone).intervals = distinct givenThere := by
    rw [readIntervals_in_zones readIntervals readIntervalsThere,
      distinct_map (Interval.later_beq _), ← intervals]
    rfl
  have there : ReadAs { p with timeZone := other } resolver settings (r.inZone r'.timeZone) :=
    { parts with
      timeZone := partsThere.timeZone
      intervals := ⟨givenThere, readIntervalsThere, moved⟩ }
  exact Except.ok.inj (builtThere.symm.trans (toDataRequest_eq_ok_iff.mpr there))

/-- The time zone moves the intervals of a request by its offset, and validation reports the same of
it, but for the intervals it names. -/
theorem zone_moves_intervals_only {p : RequestParameters} {resolver : Resolver}
    {settings : Settings} {other : Option String} {r r' : DataRequest}
    (built : p.toDataRequest resolver settings = .ok r)
    (builtThere : toDataRequest { p with timeZone := other } resolver settings = .ok r') :
    r'.intervals.length = r.intervals.length ∧
    (∀ (k : Nat) interval, r.intervals[k]? = some interval → r'.intervals[k]? =
      some (interval.later (r.timeZone.seconds - r'.timeZone.seconds))) ∧
    r'.violations =
      r.violations.map (Violation.later (r.timeZone.seconds - r'.timeZone.seconds)) ∧
    (r'.validated = .ok r' ↔ r.validated = .ok r) := by
  have unzoned := readGranularity_unzoned (toDataRequest_eq_ok_iff.mp built).granularity
  have moved := built_in_zones built builtThere
  have intervals : r'.intervals =
      r.intervals.map (Interval.later (r.timeZone.seconds - r'.timeZone.seconds)) :=
    congrArg DataRequest.intervals moved
  have violations : r'.violations =
      r.violations.map (Violation.later (r.timeZone.seconds - r'.timeZone.seconds)) :=
    (congrArg DataRequest.violations moved).trans (DataRequest.violations_inZone unzoned)
  refine ⟨?_, ?_, violations, ?_⟩
  · rw [intervals, List.length_map]
  · intro k interval there
    rw [intervals, List.getElem?_map, there]
    rfl
  · rw [DataRequest.validated, DataRequest.validated, violations, List.isEmpty_map]
    split <;> simp

theorem leap_second_moved_by_zone : ∃ r',
    toDataRequest
      { table := "orders"
        granularity := some "day"
        intervals := some "2016-12-31T23:59:60/+2017-01-02"
        timeZone := some "+05:30" }
      SmallCatalog.catalog.resolver {} = .ok r' ∧
    r'.intervals.length = 1 ∧
    r'.intervals[0]? =
      some (Interval.later (-19800) ⟨⟨1483228799, 1000000000⟩, ⟨1483315200, 0⟩, rfl⟩) := by
  let p : RequestParameters :=
    { table := "orders"
      granularity := some "day"
      intervals := some "2016-12-31T23:59:60/+2017-01-02" }
  have built : p.toDataRequest SmallCatalog.catalog.resolver {} = .ok
    { table := SmallCatalog.orders
      granularity := .every .day none
      intervals := [⟨⟨1483228799, 1000000000⟩, ⟨1483315200, 0⟩, rfl⟩] } := rfl
  have accepted : (toDataRequest { p with timeZone := some "+05:30" }
    SmallCatalog.catalog.resolver {}).isOk = true := by decide +kernel
  obtain ⟨r', builtThere⟩ := exists_of_isOk accepted
  have zone : r'.timeZone = ⟨330, by decide, by decide⟩ :=
    (Except.ok.inj (toDataRequest_eq_ok_iff.mp builtThere).timeZone).symm
  obtain ⟨length, intervals, _⟩ := zone_moves_intervals_only built builtThere
  rw [zone] at intervals
  exact ⟨r', builtThere, length, intervals 0 _ rfl⟩

end RequestParameters

end AggregateQuery
