import Mathlib.Data.List.Forall2
import AggregateQuery.Proofs.Request.Consistency
/-!
The report of validation. It holds one violation for each part of a request that is at fault, and
nothing else; consistent requests are the ones that pass.
-/
namespace AggregateQuery.DataRequest

/-- Going through parts one by one, these violations are reported. -/
inductive Reports (r : DataRequest) : List Part → List Violation → Prop where
  | nil : Reports r [] []
  | sound {part : Part} {rest : List Part} {report : List Violation}
      (unbroken : ∀ v, ¬r.Breaks part v) (others : Reports r rest report) :
    Reports r (part :: rest) report
  | broken {part : Part} {rest : List Part} {v : Violation} {report : List Violation}
      (breaks : r.Breaks part v) (others : Reports r rest report) :
    Reports r (part :: rest) (v :: report)

variable {r : DataRequest}

namespace Reports

theorem append {parts more : List Part} {report further : List Violation}
    (first : r.Reports parts report) (second : r.Reports more further) :
    r.Reports (parts ++ more) (report ++ further) := by
  induction first with
  | nil => exact second
  | sound unbroken _ ih => exact .sound unbroken ih
  | broken breaks _ ih => exact .broken breaks ih

theorem matches_broken {parts : List Part} {report : List Violation}
    (reports : r.Reports parts report) :
    ∃ broken, broken.Sublist parts ∧
      (∀ part, part ∈ broken ↔ part ∈ parts ∧ ∃ v, r.Breaks part v) ∧
      List.Forall₂ r.Breaks broken report := by
  induction reports with
  | nil => exact ⟨[], List.Sublist.refl [], by simp, .nil⟩
  | @sound part rest _ unbroken _ ih =>
    obtain ⟨broken, among, faults, matched⟩ := ih
    refine ⟨broken, among.cons part, ?_, matched⟩
    intro other
    rw [faults other, List.mem_cons]
    constructor
    · rintro ⟨later, fault⟩
      exact ⟨Or.inr later, fault⟩
    · rintro ⟨rfl | later, v, breaks⟩
      · exact absurd breaks (unbroken v)
      · exact ⟨later, v, breaks⟩
  | @broken part rest v _ breaks _ ih =>
    obtain ⟨broken, among, faults, matched⟩ := ih
    refine ⟨part :: broken, among.cons_cons part, ?_, .cons breaks matched⟩
    intro other
    rw [List.mem_cons, faults other, List.mem_cons]
    constructor
    · rintro (rfl | ⟨later, fault⟩)
      · exact ⟨Or.inl rfl, v, breaks⟩
      · exact ⟨Or.inr later, fault⟩
    · rintro ⟨rfl | later, fault⟩
      · exact Or.inl rfl
      · exact Or.inr ⟨later, fault⟩

theorem reported {parts : List Part} {report : List Violation} {part : Part} {v : Violation}
    (reports : r.Reports parts report) (among : part ∈ parts) (breaks : r.Breaks part v) :
    v ∈ report := by
  induction reports with
  | nil => simp at among
  | sound unbroken _ ih =>
    rcases List.mem_cons.mp among with rfl | later
    · exact absurd breaks (unbroken v)
    · exact ih later
  | broken first _ ih =>
    rcases List.mem_cons.mp among with rfl | later
    · rw [breaks.unique first]
      exact List.mem_cons_self
    · exact List.mem_cons_of_mem _ (ih later)

end Reports

def numbered (part : Nat → Part) (count : Nat) : List Part := (List.range count).map part

theorem numbered_succ (part : Nat → Part) (count : Nat) :
    numbered part (count + 1) = part 0 :: numbered (fun position => part (position + 1)) count := by
  rw [numbered, List.range_succ_eq_map, List.map_cons, List.map_map]
  rfl

theorem mem_numbered_iff {part : Nat → Part} {count : Nat} {p : Part} :
    p ∈ numbered part count ↔ ∃ position < count, part position = p := by
  simp [numbered]

theorem numbered_nodup {part : Nat → Part} (apart : ∀ i j, part i = part j → i = j) (count : Nat) :
    (numbered part count).Nodup := by
  rw [numbered, List.Nodup, List.pairwise_map]
  exact List.nodup_range.imp fun different same => different (apart _ _ same)

namespace Reports

theorem one {part : Part} {v : Violation} (breaks : r.Breaks part v) : r.Reports [part] [v] :=
  .broken breaks .nil

theorem none {part : Part} (unbroken : ∀ v, ¬r.Breaks part v) : r.Reports [part] [] :=
  .sound unbroken .nil

/-- A rule that keeps the entries at fault goes through all entries. -/
theorem of_filter {α : Type} {xs : List α} {passes : α → Bool} {report : α → Violation}
    {faulty : α → Prop} (part : Nat → Part) (fails : ∀ x, passes x = false ↔ faulty x)
    (rule : ∀ position v, r.Breaks (part position) v ↔
      ∃ x, xs[position]? = some x ∧ faulty x ∧ report x = v) :
    r.Reports (numbered part xs.length) ((xs.filter fun x => !passes x).map report) := by
  induction xs generalizing part with
  | nil => exact .nil
  | cons x rest ih =>
    have others := ih (fun position => part (position + 1)) fun position v => rule (position + 1) v
    rw [List.length_cons, numbered_succ]
    cases passed : passes x with
    | true =>
      rw [List.filter_cons_of_neg (by simp [passed])]
      refine .sound ?_ others
      intro v breaks
      obtain ⟨y, first, fault, _⟩ := (rule 0 v).mp breaks
      cases first
      rw [(fails x).mpr fault] at passed
      contradiction
    | false =>
      rw [List.filter_cons_of_pos (by simp [passed]), List.map_cons]
      exact .broken ((rule 0 _).mpr ⟨x, rfl, (fails x).mp passed, rfl⟩) others

end Reports

theorem supportsGranularity_iff :
    r.table.supportsGranularity r.granularity = true ↔ r.Supported := by
  rw [Table.supportsGranularity, List.contains_iff_mem, Supported]
  cases r.granularity <;> simp [Granularity.withoutZone]

theorem reports_granularity : r.Reports [.granularity] r.granularityViolations := by
  unfold granularityViolations
  split
  · rename_i supported
    refine .none ?_
    intro v breaks
    cases breaks with
    | granularity unsupported => exact unsupported (supportsGranularity_iff.mp supported)
  · rename_i unsupported
    exact .one (.granularity fun known => unsupported (supportsGranularity_iff.mpr known))

theorem isAligned_iff {grain : Grain} {zone : Option Zone}
    (every : r.granularity = .every grain zone) {interval : Interval} :
    r.isAligned grain interval = true ↔ r.Aligned interval := by
  have bucketZone : r.bucketZone = zone.getD r.timeZone := by
    rw [DataRequest.bucketZone, every]
    rfl
  rw [isAligned, bucketZone, Bool.and_eq_true, Grain.isAligned_iff, Grain.isAligned_iff]
  simp [Aligned, every]

def intervalParts (r : DataRequest) : List Part :=
  .intervals :: numbered .interval r.intervals.length

theorem reports_intervals : r.Reports r.intervalParts r.intervalViolations := by
  unfold intervalParts intervalViolations
  split
  · rename_i empty
    have none : r.intervals = [] := List.isEmpty_iff.mp empty
    rw [none]
    exact .one (.intervals none)
  · rename_i held
    refine .sound ?_ ?_
    · intro v breaks
      cases breaks with
      | intervals none => simp [none] at held
    · obtain ⟨g, granularity⟩ : ∃ g, r.granularity = g := ⟨_, rfl⟩
      cases g with
      | all =>
        have noGrain : r.granularity.grain? = none := by rw [granularity, Granularity.grain?]
        have passes (interval : Interval) : true = false ↔ ¬r.Aligned interval := by
          simp [Aligned, granularity]
        simpa [noGrain] using Reports.of_filter .interval passes fun _ _ => breaks_interval_iff
      | every grain zone =>
        have isGrain : r.granularity.grain? = some grain := by rw [granularity, Granularity.grain?]
        rw [isGrain]
        refine .of_filter .interval ?_ fun _ _ => breaks_interval_iff
        intro interval
        rw [← Bool.not_eq_true, isAligned_iff granularity]

def nameParts (r : DataRequest) (role : TableRole) : List Part :=
  numbered (.name role) (r.namesIn role).length

theorem reports_role (role : TableRole) {supports : String → Bool}
    (supported : ∀ name, supports name = true ↔ name ∈ r.table.exposedTo role) :
    r.Reports (r.nameParts role)
      (((r.namesIn role).filter fun name => !supports name).map
        (Violation.notInTable role · r.table.name)) := by
  refine .of_filter (.name role) ?_ fun _ _ => breaks_name_iff
  intro name
  rw [← Bool.not_eq_true, supported]

theorem reports_membership : r.Reports
    (r.nameParts .dimension ++ r.nameParts .metric ++ r.nameParts .filterDimension)
    r.tableViolations := by
  have dimensions := reports_role (r := r) .dimension fun _ => List.contains_iff_mem
  have metrics := reports_role (r := r) .metric fun _ => List.contains_iff_mem
  have filters := reports_role (r := r) .filterDimension fun _ => List.contains_iff_mem
  exact (dimensions.append metrics).append filters

theorem reports_havings :
    r.Reports (numbered .having r.havings.keys.length) r.havingViolations := by
  refine .of_filter .having ?_ fun _ _ => breaks_having_iff
  intro m
  rw [← Bool.not_eq_true, contains_iff_name_mem Metric.beq_iff_same_name, namesIn]

theorem reports_fields :
    r.Reports (numbered .fields r.dimensionFields.keys.length) r.fieldViolations := by
  refine .of_filter .fields ?_ fun _ _ => breaks_fields_iff
  intro d
  rw [← Bool.not_eq_true, contains_iff_name_mem Dimension.beq_iff_same_name, namesIn]

theorem selects_iff {column : SortColumn} : r.selects column = true ↔ r.AsksFor column := by
  cases column with
  | dateTime => simp [selects, AsksFor]
  | metric name => simp [selects, AsksFor, namesIn]
  | dimensionField name field =>
    simp [selects, AsksFor, Dimension.hasField]

theorem unbroken_sort {position : Nat} {column : SortColumn}
    (there : r.sortColumns[position]? = some column) (new : column ∉ r.sortColumns.take position)
    (inTime : column = .dateTime → position = 0) (asked : r.AsksFor column) (v : Violation) :
    ¬r.Breaks (.sort position) v := by
  intro breaks
  cases breaks with
  | repeatedSort thereToo seen =>
    cases there.symm.trans thereToo
    exact new seen
  | lateTime thereToo _ late =>
    cases there.symm.trans thereToo
    exact late (inTime rfl)
  | unaskedSort thereToo _ unasked =>
    cases there.symm.trans thereToo
    exact unasked asked

theorem reports_column {position : Nat} {column : SortColumn}
    (there : r.sortColumns[position]? = some column)
    (new : column ∉ r.sortColumns.take position) :
    r.Reports [.sort position] (r.columnViolations position column) := by
  unfold columnViolations
  split
  · rename_i isTime
    obtain rfl : column = .dateTime := beq_iff_eq.mp isTime
    split
    · exact .one (.lateTime there new (by omega))
    · exact .none (unbroken_sort there new (fun _ => by omega) trivial)
  · rename_i notTime
    have otherwise : column ≠ .dateTime := by
      rintro rfl
      exact notTime rfl
    split
    · rename_i selected
      exact .none (unbroken_sort there new (fun isTime => absurd isTime otherwise)
        (selects_iff.mp selected))
    · rename_i unselected
      exact .one (.unaskedSort there new fun asked => unselected (selects_iff.mpr asked))

/-- The columns seen are those before the position. -/
theorem reports_sorts_from (before : List SortColumn) {rest : List SortColumn}
    (whole : r.sortColumns = before ++ rest) :
    r.Reports (numbered (fun later => .sort (before.length + later)) rest.length)
      (r.sortViolationsFrom before.reverse before.length rest) := by
  induction rest generalizing before with
  | nil => exact .nil
  | cons column rest ih =>
    have others := ih (before ++ [column]) (by simp [whole])
    simp only [List.reverse_append, List.length_append, List.length_singleton, Nat.add_assoc,
      Nat.add_comm 1] at others
    rw [List.length_cons, numbered_succ, sortViolationsFrom]
    have there : r.sortColumns[before.length]? = some column := by simp [whole]
    have earlier : r.sortColumns.take before.length = before := by simp [whole]
    have here : r.Reports [.sort before.length]
        (if before.reverse.contains column then [.duplicateSortColumn column]
          else r.columnViolations before.length column) := by
      split
      · rename_i seen
        exact .one (.repeatedSort there (by simpa [earlier] using seen))
      · rename_i new
        exact reports_column there (by simpa [earlier] using new)
    exact here.append others

theorem reports_sorts :
    r.Reports (numbered .sort r.sortColumns.length) r.sortViolations := by
  have all := reports_sorts_from [] (rfl : r.sortColumns = [] ++ r.sortColumns)
  simp only [List.length_nil, Nat.zero_add] at all
  exact all

theorem reports_topN : r.Reports [.topN] r.topNViolations := by
  unfold topNViolations
  split
  · rename_i fault
    obtain ⟨ranking, none⟩ := Bool.and_eq_true_iff.mp fault
    exact .one (.topN (by simpa [Option.isSome_iff_ne_none] using ranking)
      (List.isEmpty_iff.mp none))
  · rename_i sound
    refine .none ?_
    intro v breaks
    cases breaks with
    | topN ranking none => simp [none, Option.isSome_iff_ne_none, ranking] at sound

def parts (r : DataRequest) : List Part :=
  [.granularity] ++ r.intervalParts ++
    (r.nameParts .dimension ++ r.nameParts .metric ++ r.nameParts .filterDimension) ++
    numbered .having r.havings.keys.length ++ numbered .fields r.dimensionFields.keys.length ++
    numbered .sort r.sortColumns.length ++ [.topN]

theorem reports_violations (r : DataRequest) : r.Reports r.parts r.violations :=
  reports_granularity.append reports_intervals |>.append reports_membership
    |>.append reports_havings |>.append reports_fields |>.append reports_sorts
    |>.append reports_topN

theorem parts_nodup (r : DataRequest) : r.parts.Nodup := by
  have intervals := numbered_nodup (fun _ _ => Part.interval.inj) r.intervals.length
  have names (role : TableRole) : (numbered (.name role) (r.namesIn role).length).Nodup :=
    numbered_nodup (fun _ _ same => (Part.name.inj same).2) _
  have havings := numbered_nodup (fun _ _ => Part.having.inj) r.havings.keys.length
  have fields := numbered_nodup (fun _ _ => Part.fields.inj) r.dimensionFields.keys.length
  have sorts := numbered_nodup (fun _ _ => Part.sort.inj) r.sortColumns.length
  -- Parts in different lists are of different kinds.
  simp [parts, intervalParts, nameParts, List.nodup_append, mem_numbered_iff, or_imp, forall_and,
    intervals, names, havings, fields, sorts]

theorem mem_parts_of_breaks {part : Part} {v : Violation} (breaks : r.Breaks part v) :
    part ∈ r.parts := by
  have among {α : Type} {xs : List α} {position : Nat} {x : α} (part : Nat → Part)
      (there : xs[position]? = some x) : part position ∈ numbered part xs.length :=
    mem_numbered_iff.mpr ⟨position, (List.getElem?_eq_some_iff.mp there).1, rfl⟩
  simp only [parts, intervalParts, nameParts, List.mem_append, List.mem_cons]
  cases breaks with
  | granularity => simp
  | intervals => simp
  | interval there => simp [among .interval there]
  | @name role _ _ there =>
    have listed := among (.name role) there
    cases role <;> simp [listed]
  | having there => simp [among .having there]
  | fields there => simp [among .fields there]
  | repeatedSort there => simp [among .sort there]
  | lateTime there => simp [among .sort there]
  | unaskedSort there => simp [among .sort there]
  | topN => simp

theorem mem_violations_of_breaks {part : Part} {v : Violation} (breaks : r.Breaks part v) :
    v ∈ r.violations :=
  (reports_violations r).reported (mem_parts_of_breaks breaks) breaks

theorem broken_parts_reported (r : DataRequest) : ∃ broken, broken.Nodup ∧
    (∀ part, part ∈ broken ↔ ∃ v, r.Breaks part v) ∧
    List.Forall₂ r.Breaks broken r.violations := by
  obtain ⟨broken, among, faults, matched⟩ := (reports_violations r).matches_broken
  refine ⟨broken, r.parts_nodup.sublist among, ?_, matched⟩
  intro part
  rw [faults part]
  constructor
  · exact And.right
  · rintro ⟨v, breaks⟩
    exact ⟨mem_parts_of_breaks breaks, v, breaks⟩

theorem violations_eq_nil_iff : r.violations = [] ↔ r.Consistent := by
  rw [consistent_iff_unbroken]
  obtain ⟨broken, _, faults, matched⟩ := broken_parts_reported r
  constructor
  · intro none part v breaks
    rw [none, List.forall₂_nil_right_iff] at matched
    have member := (faults part).mpr ⟨v, breaks⟩
    simp [matched] at member
  · intro unbroken
    have none : broken = [] := by
      refine List.eq_nil_iff_forall_not_mem.mpr ?_
      intro part member
      obtain ⟨v, breaks⟩ := (faults part).mp member
      exact unbroken part v breaks
    rwa [none, List.forall₂_nil_left_iff] at matched

/-- Validation accepts the consistent requests, and reports what is wrong with the others: all of
it, and each thing once. What a consistent request is about is all exposed by its table. -/
theorem validation_exact (r : DataRequest) :
    (r.validated = .ok r ↔ r.Consistent) ∧
    (¬r.Consistent → r.validated = .error r.violations) ∧
    (∃ broken, broken.Nodup ∧ (∀ part, part ∈ broken ↔ ∃ v, r.Breaks part v) ∧
      List.Forall₂ r.Breaks broken r.violations) ∧
    (∀ part v w, r.Breaks part v → r.Breaks part w → v = w) ∧
    (r.validated = .ok r → r.Covered) := by
  have once (part : Part) (v w : Violation) (breaks : r.Breaks part v)
      (again : r.Breaks part w) : v = w := breaks.unique again
  by_cases consistent : r.Consistent
  · have passed : r.validated = .ok r := by
      rw [validated, violations_eq_nil_iff.mpr consistent]
      rfl
    exact ⟨iff_of_true passed consistent, absurd consistent, broken_parts_reported r, once,
      fun _ => consistent.covered⟩
  · have some : r.violations.isEmpty = false := by
      simpa [violations_eq_nil_iff] using consistent
    have rejected : r.validated = .error r.violations := by
      rw [validated, some]
      rfl
    have notPassed : r.validated ≠ .ok r := by
      rw [rejected]
      simp
    exact ⟨iff_of_false notPassed consistent, fun _ => rejected, broken_parts_reported r, once,
      fun passed => absurd passed notPassed⟩

-- An interval that ends a nanosecond past the full hour.
example : violations
    { table := ⟨"orders", [.every .hour none], [], []⟩
      granularity := .every .hour none
      intervals := [⟨⟨3600, 0⟩, ⟨7200, 1⟩, rfl⟩] } =
    [.misalignedInterval ⟨⟨3600, 0⟩, ⟨7200, 1⟩, rfl⟩ (.every .hour none)] := rfl

end AggregateQuery.DataRequest
