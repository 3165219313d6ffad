import AggregateQuery.Proofs.Request.DataHistory
import AggregateQuery.Proofs.Request.ExactReports
/-!
The sorts of a request, as they are stored and as they are seen. The sort by time and the others
are all of them, in order; where validation finds nothing wrong with the sorts, time is sorted by
in front only, and no column is sorted by twice.
-/
namespace AggregateQuery.DataRequest

def Reachable (r : DataRequest) : Prop :=
  ∃ given start changes, Starts given start ∧ start.after changes = r

variable {r : DataRequest}

theorem Reachable.sorts_nodup (reachable : r.Reachable) : r.sorts.Nodup := by
  obtain ⟨given, start, changes, starts, rfl⟩ := reachable
  exact (sorts_after (wellFormed_of_starts starts).2 changes).nodup

theorem withSorts_own (once : r.sorts.Nodup) : r.withSorts r.sorts = r := by
  rw [withSorts, distinct_of_nodup once]

theorem column_of_dateTimeSort? {s : SortTerm} (leads : r.dateTimeSort? = some s) :
    s.column = .dateTime := by
  obtain ⟨_, isTime⟩ := Option.filter_eq_some_iff.mp leads
  exact beq_iff_eq.mp isTime

theorem dateTimeSort?_append_standardSorts (r : DataRequest) :
    r.dateTimeSort?.toList ++ r.standardSorts = r.sorts := by
  rw [standardSorts, dateTimeSort?]
  cases r.sorts with
  | nil => rfl
  | cons s rest => cases isTime : s.column.isDateTime <;> simp [Option.filter, isTime]

/-- A standard sort by time stands behind the front. -/
theorem position_of_standardSort {s : SortTerm} (member : s ∈ r.standardSorts)
    (isTime : s.column = .dateTime) :
    ∃ position, r.sortColumns[position + 1]? = some .dateTime := by
  have behind : s ∈ r.sorts.tail := by
    rw [standardSorts] at member
    split at member
    · exact member
    · rename_i none
      cases sorts : r.sorts with
      | nil => simp [sorts] at member
      | cons first rest =>
        rw [sorts] at member
        rcases List.mem_cons.mp member with rfl | later
        · simp [dateTimeSort?, sorts, SortColumn.isDateTime, isTime] at none
        · exact later
  obtain ⟨position, there⟩ := List.mem_iff_getElem?.mp behind
  refine ⟨position, ?_⟩
  rw [List.getElem?_tail] at there
  rw [sortColumns, List.getElem?_map, there, ← isTime]
  rfl

def SortsPass (r : DataRequest) : Prop := ∀ v ∈ r.violations, v.rule ≠ .sorts

theorem SortsPass.unbroken (pass : r.SortsPass) (position : Nat) (v : Violation) :
    ¬r.Breaks (.sort position) v := by
  intro breaks
  have rule : v.rule = .sorts := by cases breaks <;> rfl
  exact pass v (mem_violations_of_breaks breaks) rule

/-- The views of a request's sorts are its sorts, and these are the first occurrences of what was
given. When validation passes them, no column is sorted by twice, in whatever directions, and the
standard sorts are by metrics and fields that are asked for. -/
theorem sort_views (reachable : r.Reachable) :
    r.dateTimeSort?.toList ++ r.standardSorts = r.sorts ∧
    (∀ s, r.dateTimeSort? = some s → s.column = .dateTime) ∧
    (∀ given, FirstOccurrences given (r.withSorts given).sorts ∧
      (r.withSorts given).withSorts given = r.withSorts given ∧
      (r.withSorts given).withSorts (r.withSorts given).sorts = r.withSorts given) ∧
    r.withSorts r.sorts = r ∧
    (r.SortsPass → (r.sorts.map SortTerm.column).Nodup ∧
      ∀ s ∈ r.standardSorts, s.column ≠ .dateTime ∧ r.AsksFor s.column) := by
  refine ⟨dateTimeSort?_append_standardSorts r, fun s => column_of_dateTimeSort?, ?_,
    withSorts_own reachable.sorts_nodup, ?_⟩
  · intro given
    exact ⟨firstOccurrences_distinct given, rfl, withSorts_own (nodup_distinct given)⟩
  · intro pass
    obtain ⟨columnsOnce, timeFirst, columns⟩ := sorts_of_unbroken pass.unbroken
    refine ⟨columnsOnce, ?_⟩
    intro s member
    constructor
    · intro isTime
      obtain ⟨position, there⟩ := position_of_standardSort member isTime
      exact absurd (timeFirst _ there) (Nat.succ_ne_zero position)
    · have stored : s ∈ r.sorts := by
        rw [← dateTimeSort?_append_standardSorts r]
        exact List.mem_append_right _ member
      exact columns s.column (List.mem_map_of_mem stored)

theorem time_and_sales_sorted : ∃ r : DataRequest, r.Reachable ∧ r.SortsPass ∧
    r.sorts = [⟨.dateTime, .ascending⟩, ⟨.metric "sales", .descending⟩] ∧
    r.dateTimeSort? = some ⟨.dateTime, .ascending⟩ ∧
    (r.sorts.map SortTerm.column).Nodup ∧
    ∀ s ∈ r.standardSorts, s.column ≠ .dateTime ∧ r.AsksFor s.column := by
  have reachable : Reachable (after { table := SmallCatalog.orders, granularity := .all }
      [.metrics [⟨"sales", none, none⟩], .sorts [⟨.dateTime, .ascending⟩,
        ⟨.metric "sales", .descending⟩, ⟨.dateTime, .ascending⟩]]) :=
    ⟨[], _, _, .fresh SmallCatalog.orders .all, rfl⟩
  have pass := (by decide : ∀ v ∈ [Violation.noIntervals], v.rule ≠ .sorts)
  have views := (sort_views reachable).2.2.2.2 pass
  exact ⟨_, reachable, pass, rfl, rfl, views⟩

end AggregateQuery.DataRequest
