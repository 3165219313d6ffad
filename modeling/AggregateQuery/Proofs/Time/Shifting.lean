import Mathlib.Data.Prod.Lex
import Mathlib.Order.Fin.Basic
import AggregateQuery.Proofs.Data.Reading
import AggregateQuery.Time.Interval
/-!
Instants in order, and shifted by seconds. Instants follow each other by their seconds, and those of
one second by their nanoseconds. A text that is read by the clocks of another zone gives an instant
that is shifted by the difference of the zones, and clocks in the other zone show at it what they
show here; so intervals stay in order, and what begins a bucket does so there too.
-/
namespace AggregateQuery

namespace Instant

variable {a b : Instant}

theorem before_iff : a.before b = true ↔
    a.seconds < b.seconds ∨ a.seconds = b.seconds ∧ a.nanoseconds < b.nanoseconds := by
  simp only [before, Bool.or_eq_true, Bool.and_eq_true, decide_eq_true_eq]

def key (i : Instant) : Int ×ₗ Nanoseconds := toLex (i.seconds, i.nanoseconds)

theorem key_injective : Function.Injective key := by
  intro a b same
  obtain ⟨seconds, nanoseconds⟩ := Prod.mk.inj (toLex.injective same)
  obtain ⟨_, _⟩ := a
  congr 1

/-- Which of two instants comes first is a linear order on them. -/
theorem before_iff_key_lt : a.before b = true ↔ a.key < b.key := by
  rw [before_iff, key, key, Prod.Lex.toLex_lt_toLex]

theorem not_before_iff : a.before b = false ↔ b = a ∨ b.before a = true := by
  rw [← Bool.not_eq_true, before_iff_key_lt, before_iff_key_lt, not_lt, le_iff_eq_or_lt,
    key_injective.eq_iff]

def later (seconds : Int) (i : Instant) : Instant := ⟨i.seconds + seconds, i.nanoseconds⟩

@[simp] theorem later_seconds (seconds : Int) (i : Instant) :
    (i.later seconds).seconds = i.seconds + seconds := rfl

@[simp] theorem later_nanoseconds (seconds : Int) (i : Instant) :
    (i.later seconds).nanoseconds = i.nanoseconds := rfl

theorem later_injective {seconds : Int} {a b : Instant}
    (same : a.later seconds = b.later seconds) : a = b := by
  obtain ⟨sum, nanoseconds⟩ := Instant.mk.inj same
  have sameSeconds : a.seconds = b.seconds := by omega
  obtain ⟨_, _⟩ := a
  congr 1

theorem before_later (seconds : Int) (a b : Instant) :
    (a.later seconds).before (b.later seconds) = a.before b := by
  rw [Bool.eq_iff_iff, before_iff, before_iff]
  simp only [later_seconds, later_nanoseconds, Int.add_lt_add_iff_right, Int.add_left_inj]

/-- Clocks in two zones show the same at instants that lie apart as the zones do. -/
theorem localTime_later (i : Instant) (here there : Zone) :
    (i.later (here.seconds - there.seconds)).localTime there = i.localTime here := by
  have same : i.seconds + (here.seconds - there.seconds) + there.seconds =
      i.seconds + here.seconds := by omega
  rw [localTime, localTime, later_seconds, later_nanoseconds, same]

end Instant

theorem Grain.isAligned_later (grain : Grain) (i : Instant) (here there : Zone) :
    grain.isAligned (i.later (here.seconds - there.seconds)) there = grain.isAligned i here := by
  rw [isAligned, isAligned, Instant.localTime_later]

namespace Interval

variable {start finish : Instant}

theorem ofBounds_eq_ok_iff {i : Interval} :
    ofBounds start finish = .ok i ↔ i.start = start ∧ i.finish = finish := by
  obtain ⟨_, _, ordered⟩ := i
  rw [ofBounds]
  constructor
  · intro made
    split at made
    · obtain ⟨rfl, rfl⟩ := Interval.mk.inj (Except.ok.inj made)
      exact ⟨rfl, rfl⟩
    · contradiction
  · rintro ⟨rfl, rfl⟩
    rw [dif_pos ordered]

theorem ofBounds_eq_error_iff {e : TimeError} : ofBounds start finish = .error e ↔
    (finish = start ∨ finish.before start = true) ∧
      .emptyInterval (String.ofList start.chars) (String.ofList finish.chars) = e := by
  rw [← Instant.not_before_iff, ofBounds]
  split
  · rename_i ordered
    simp [ordered]
  · rename_i unordered
    simp [unordered]

def later (seconds : Int) (i : Interval) : Interval :=
  ⟨i.start.later seconds, i.finish.later seconds, by rw [Instant.before_later, i.ordered]⟩

@[simp] theorem later_start (seconds : Int) (i : Interval) :
    (i.later seconds).start = i.start.later seconds := rfl

@[simp] theorem later_finish (seconds : Int) (i : Interval) :
    (i.later seconds).finish = i.finish.later seconds := rfl

theorem later_beq (seconds : Int) (a b : Interval) :
    (a.later seconds == b.later seconds) = (a == b) := by
  rw [Bool.eq_iff_iff, beq_iff_eq, beq_iff_eq]
  constructor
  · intro same
    obtain ⟨start, finish⟩ := Interval.mk.inj same
    obtain ⟨_, _, _⟩ := a
    congr 1
    · exact Instant.later_injective start
    · exact Instant.later_injective finish
  · exact congrArg _

end Interval

theorem readTime_eq_ok_iff {α : Type} {parse? : List Char → Option α}
    {error : String → TimeError} {text : List Char} {value : α} :
    readTime parse? error text = .ok value ↔ parse? text = some value := by
  rw [readTime]
  cases parse? text <;> simp

theorem LocalTime.toInstant?_eq_some {t : LocalTime} {zone : Zone} {i : Instant}
    (found : t.toInstant? zone = some i) : i = ⟨t.seconds - zone.seconds, t.nanoseconds⟩ := by
  obtain ⟨_, same⟩ := Option.ite_none_right_eq_some.mp found
  exact (Option.some.inj same).symm

variable {here there : Zone} {text : List Char}

theorem Instant.parse_in_zones {a b : Instant} (read : parse here text = .ok a)
    (readThere : parse there text = .ok b) : b = a.later (here.seconds - there.seconds) := by
  have found := readTime_eq_ok_iff.mp read
  have foundThere := readTime_eq_ok_iff.mp readThere
  obtain ⟨t, shown, toInstant⟩ := Option.bind_eq_some_iff.mp found
  obtain ⟨t', shownToo, toInstantThere⟩ := Option.bind_eq_some_iff.mp foundThere
  obtain rfl := Option.some.inj (shown.symm.trans shownToo)
  have shift : t.seconds - there.seconds =
      t.seconds - here.seconds + (here.seconds - there.seconds) := by omega
  rw [LocalTime.toInstant?_eq_some toInstant, LocalTime.toInstant?_eq_some toInstantThere, later,
    shift]

theorem Interval.parse_eq_ok_iff {i : Interval} : parse here text = .ok i ↔
    ∃ first last, Text.cut? '/' (Text.trim text) = some (first, last) ∧
      Instant.parse here first = .ok i.start ∧ Instant.parse here last = .ok i.finish := by
  rw [parse]
  cases Text.cut? '/' (Text.trim text) with
  | none => simp
  | some halves =>
    obtain ⟨first, last⟩ := halves
    simp only [bind_eq_ok_iff, ofBounds_eq_ok_iff, Option.some.injEq, Prod.mk.injEq]
    constructor
    · rintro ⟨start, readStart, finish, readFinish, rfl, rfl⟩
      exact ⟨first, last, ⟨rfl, rfl⟩, readStart, readFinish⟩
    · rintro ⟨_, _, ⟨rfl, rfl⟩, readStart, readFinish⟩
      exact ⟨i.start, readStart, i.finish, readFinish, rfl, rfl⟩

theorem Interval.parse_in_zones {a b : Interval} (read : parse here text = .ok a)
    (readThere : parse there text = .ok b) : b = a.later (here.seconds - there.seconds) := by
  obtain ⟨first, last, cut, start, finish⟩ := parse_eq_ok_iff.mp read
  obtain ⟨first', last', cutToo, startThere, finishThere⟩ := parse_eq_ok_iff.mp readThere
  obtain ⟨rfl, rfl⟩ := Prod.mk.inj (Option.some.inj (cut.symm.trans cutToo))
  have sameStart := Instant.parse_in_zones start startThere
  have sameFinish := Instant.parse_in_zones finish finishThere
  obtain ⟨_, _, _⟩ := b
  congr 1

end AggregateQuery
