import AggregateQuery.Request.Validation
/-!
The rules of validation. Each rule reports violations of its own only, so what a request violates
can be looked for rule by rule.
-/
namespace AggregateQuery

inductive Violation.Rule where
  | granularity
  | intervals
  | membership
  | havings
  | fields
  | sorts
  | topN
  deriving DecidableEq

def Violation.rule : Violation → Rule
  | noIntervals | misalignedInterval .. => .intervals
  | unsupportedGranularity .. => .granularity
  | notInTable .. => .membership
  | havingMetricNotRequested _ => .havings
  | fieldsForUnrequestedDimension _ => .fields
  | sortColumnNotRequested _ | dateTimeSortNotFirst _ | duplicateSortColumn _ => .sorts
  | topNWithoutSort => .topN

namespace DataRequest

variable {r : DataRequest} {v : Violation}

def violationsOf (r : DataRequest) : Violation.Rule → List Violation
  | .granularity => r.granularityViolations
  | .intervals => r.intervalViolations
  | .membership => r.tableViolations
  | .havings => r.havingViolations
  | .fields => r.fieldViolations
  | .sorts => r.sortViolations
  | .topN => r.topNViolations

theorem rule_of_mem_columnViolations {position : Nat} {column : SortColumn}
    (member : v ∈ r.columnViolations position column) : v.rule = .sorts := by
  unfold columnViolations at member
  split at member
  · split at member
    · rw [List.mem_singleton.mp member]
      rfl
    · simp at member
  · split at member
    · simp at member
    · rw [List.mem_singleton.mp member]
      rfl

theorem rule_of_mem_sortViolationsFrom {seen columns : List SortColumn} {position : Nat}
    (member : v ∈ r.sortViolationsFrom seen position columns) : v.rule = .sorts := by
  induction columns generalizing seen position with
  | nil => simp [sortViolationsFrom] at member
  | cons column rest ih =>
    rw [sortViolationsFrom, List.mem_append] at member
    rcases member with here | later
    · split at here
      · rw [List.mem_singleton.mp here]
        rfl
      · exact rule_of_mem_columnViolations here
    · exact ih later

theorem rule_of_mem {rule : Violation.Rule} (member : v ∈ r.violationsOf rule) : v.rule = rule := by
  cases rule with
  | granularity =>
    simp only [violationsOf, granularityViolations] at member
    split at member
    · simp at member
    · rw [List.mem_singleton.mp member]
      rfl
  | intervals =>
    simp only [violationsOf, intervalViolations] at member
    split at member
    · rw [List.mem_singleton.mp member]
      rfl
    · split at member
      · simp at member
      · obtain ⟨interval, _, rfl⟩ := List.mem_map.mp member
        rfl
  | membership =>
    simp only [violationsOf, tableViolations, List.mem_append] at member
    rcases member with (dimension | metric) | filter
    · obtain ⟨name, _, rfl⟩ := List.mem_map.mp dimension
      rfl
    · obtain ⟨name, _, rfl⟩ := List.mem_map.mp metric
      rfl
    · obtain ⟨name, _, rfl⟩ := List.mem_map.mp filter
      rfl
  | havings =>
    obtain ⟨m, _, rfl⟩ := List.mem_map.mp member
    rfl
  | fields =>
    obtain ⟨d, _, rfl⟩ := List.mem_map.mp member
    rfl
  | sorts => exact rule_of_mem_sortViolationsFrom member
  | topN =>
    simp only [violationsOf, topNViolations] at member
    split at member
    · rw [List.mem_singleton.mp member]
      rfl
    · simp at member

/-- A violation is reported when the rule it falls under reports it. -/
theorem mem_violations_iff : v ∈ r.violations ↔ v ∈ r.violationsOf v.rule := by
  constructor
  · intro member
    have among : ∃ rule, v ∈ r.violationsOf rule := by
      simp only [violations, List.mem_append, or_assoc] at member
      rcases member with found | found | found | found | found | found | found
      · exact ⟨.granularity, found⟩
      · exact ⟨.intervals, found⟩
      · exact ⟨.membership, found⟩
      · exact ⟨.havings, found⟩
      · exact ⟨.fields, found⟩
      · exact ⟨.sorts, found⟩
      · exact ⟨.topN, found⟩
    obtain ⟨rule, found⟩ := among
    rwa [rule_of_mem found]
  · intro member
    simp only [violations, List.mem_append]
    cases rule : v.rule <;> simp only [rule, violationsOf] at member <;> simp [member]

theorem tableViolations_eq_nil_iff : r.tableViolations = [] ↔
    (∀ d ∈ r.dimensions, r.table.supportsDimension d.name = true) ∧
      (∀ m ∈ r.metrics, r.table.supportsMetric m.name = true) ∧
      ∀ d ∈ r.filters.keys, r.table.supportsDimension d.name = true := by
  simp [tableViolations]

theorem fieldViolations_eq_nil_iff : r.fieldViolations = [] ↔
    ∀ d ∈ r.dimensionFields.keys, r.dimensions.contains d = true := by
  simp [fieldViolations]

end DataRequest

end AggregateQuery
