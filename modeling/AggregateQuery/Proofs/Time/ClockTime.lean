import AggregateQuery.Proofs.Time.CalendarDays
import AggregateQuery.Time.Instant
/-!
Clocks. What a clock can show and the seconds it has counted determine each other.
-/
namespace AggregateQuery.LocalTime

/-- Whether a clock to the second can show a time. Only the last second of a minute can be followed
by a leap second. -/
structure OnClock (t : LocalTime) : Prop where
  calendar : t.date.isValid = true
  hour : t.hour < 24
  minute : t.minute < 60
  second : t.second < 60
  whole : t.nanoseconds = 0 ∨ t.nanoseconds = 1000000000 ∧ t.second = 59

theorem seconds_eq (t : LocalTime) : t.seconds =
    86400 * t.date.toDays + (3600 * t.hour + 60 * t.minute + t.second : Nat) := rfl

@[simp] theorem nanoseconds_ofSeconds (seconds : Int) (nanoseconds : Nanoseconds) :
    (ofSeconds seconds nanoseconds).nanoseconds = nanoseconds := rfl

@[simp] theorem year_ofSeconds (seconds : Int) (nanoseconds : Nanoseconds) :
    (ofSeconds seconds nanoseconds).date.year = Date.yearOfDay (seconds / 86400) :=
  Date.year_ofDays _

@[simp] theorem toDays_ofSeconds (seconds : Int) (nanoseconds : Nanoseconds) :
    (ofSeconds seconds nanoseconds).date.toDays = seconds / 86400 := Date.toDays_ofDays _

theorem second_ofSeconds (seconds : Int) (nanoseconds : Nanoseconds) :
    ((ofSeconds seconds nanoseconds).second : Int) = seconds % 60 := by
  have shown : (ofSeconds seconds nanoseconds).second = (seconds % 86400).toNat % 60 := rfl
  omega

theorem seconds_ofSeconds (seconds : Int) (nanoseconds : Nanoseconds) :
    (ofSeconds seconds nanoseconds).seconds = seconds := by
  have ofDay : (ofSeconds seconds nanoseconds).seconds =
      86400 * (ofSeconds seconds nanoseconds).date.toDays +
      (3600 * ((seconds % 86400).toNat / 3600) + 60 * ((seconds % 86400).toNat / 60 % 60) +
        (seconds % 86400).toNat % 60 : Nat) := rfl
  rw [ofDay, toDays_ofSeconds]
  omega

theorem onClock_ofSeconds {seconds : Int} {nanoseconds : Nanoseconds}
    (whole : nanoseconds = 0 ∨ nanoseconds = 1000000000 ∧ seconds % 60 = 59) :
    (ofSeconds seconds nanoseconds).OnClock where
  calendar := Date.isValid_ofDays _
  hour := by
    have ofDay : (seconds % 86400).toNat < 86400 := by omega
    exact Nat.div_lt_of_lt_mul ofDay
  minute := Nat.mod_lt _ (by decide)
  second := Nat.mod_lt _ (by decide)
  whole := by
    have shown := second_ofSeconds seconds nanoseconds
    rcases whole with zero | ⟨leap, last⟩
    · exact Or.inl zero
    · exact Or.inr ⟨leap, by omega⟩

theorem ofSeconds_seconds {t : LocalTime} (shown : t.OnClock) :
    ofSeconds t.seconds t.nanoseconds = t := by
  have counted := seconds_eq t
  obtain ⟨calendar, hour, minute, second, _⟩ := shown
  have day : t.seconds / 86400 = t.date.toDays := by omega
  have ofDay : (t.seconds % 86400).toNat = 3600 * t.hour + 60 * t.minute + t.second := by omega
  have sameHour : (3600 * t.hour + 60 * t.minute + t.second) / 3600 = t.hour := by omega
  have sameMinute : (3600 * t.hour + 60 * t.minute + t.second) / 60 % 60 = t.minute := by omega
  have sameSecond : (3600 * t.hour + 60 * t.minute + t.second) % 60 = t.second := by omega
  rw [ofSeconds, day, ofDay, Date.ofDays_toDays calendar, sameHour, sameMinute, sameSecond]

end AggregateQuery.LocalTime
