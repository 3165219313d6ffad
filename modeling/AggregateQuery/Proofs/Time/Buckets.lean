import AggregateQuery.Proofs.Time.Shifting
import AggregateQuery.Proofs.Time.TimeText
/-!
Where buckets begin. Hours, days and weeks begin at the multiples of their lengths by the clocks of
a zone, weeks counted from a Monday. A longer bucket begins only where the shorter ones begin, none
begins at a leap second, and a date that is read begins the buckets that its month and its day say.
-/
namespace AggregateQuery

open Text

namespace LocalTime

variable {seconds : Int} {nanoseconds : Nanoseconds}

theorem isFullHour_ofSeconds_iff : (ofSeconds seconds nanoseconds).isFullHour = true ↔
    nanoseconds = 0 ∧ 3600 ∣ seconds := by
  simp only [isFullHour, ofSeconds, Bool.and_eq_true, beq_iff_eq]
  rw [and_comm]
  refine and_congr_right fun _ => ?_
  omega

theorem isMidnight_ofSeconds_iff : (ofSeconds seconds nanoseconds).isMidnight = true ↔
    nanoseconds = 0 ∧ 86400 ∣ seconds := by
  rw [isMidnight, Bool.and_eq_true, isFullHour_ofSeconds_iff, and_assoc]
  refine and_congr_right fun _ => ?_
  simp only [ofSeconds, beq_iff_eq]
  omega

end LocalTime

namespace Grain

variable {t : LocalTime} {i : Instant} {zone : Zone}

theorem month_beginsAt_iff :
    month.beginsAt t = true ↔ t.isMidnight = true ∧ t.date.day = 1 := by
  rw [beginsAt, Bool.and_eq_true, beq_iff_eq]

theorem quarter_beginsAt_iff (calendar : t.date.isValid = true) : quarter.beginsAt t = true ↔
    t.isMidnight = true ∧ t.date.day = 1 ∧ t.date.month ∈ [1, 4, 7, 10] := by
  obtain ⟨first, last, _, _⟩ := Date.isValid_iff.mp calendar
  have months : (t.date.month - 1) % 3 = 0 ↔ t.date.month ∈ [1, 4, 7, 10] := by
    simp only [List.mem_cons, List.not_mem_nil, or_false]
    omega
  simp only [beginsAt, Bool.and_eq_true, beq_iff_eq, months, and_assoc]

theorem year_beginsAt_iff (calendar : t.date.isValid = true) : year.beginsAt t = true ↔
    t.isMidnight = true ∧ t.date.day = 1 ∧ t.date.month = 1 := by
  rw [beginsAt, Bool.and_eq_true, beq_iff_eq, Date.dayOfYear_eq_zero_iff calendar,
    and_comm (a := t.date.month = 1)]

/-- Whether the first day of one of these months begins so many seconds after the epoch. -/
def BeginsMonth (months : List Nat) (seconds : Int) : Prop :=
  ∃ year, ∃ month ∈ months, seconds = 86400 * Date.toDays ⟨year, month, 1⟩

/-- Whether a bucket begins so many seconds after the epoch, which was four days before a Monday. -/
def Begins : Grain → Int → Prop
  | hour, seconds => 3600 ∣ seconds
  | day, seconds => 86400 ∣ seconds
  | week, seconds => 604800 ∣ seconds - 345600
  | month, seconds => BeginsMonth [1, 2, 3, 4, 5, 6, 7, 8, 9, 10, 11, 12] seconds
  | quarter, seconds => BeginsMonth [1, 4, 7, 10] seconds
  | year, seconds => BeginsMonth [1] seconds

theorem BeginsMonth.midnight {months : List Nat} {seconds : Int}
    (begins : BeginsMonth months seconds) : 86400 ∣ seconds := by
  obtain ⟨_, _, _, rfl⟩ := begins
  exact Int.dvd_mul_right ..

theorem BeginsMonth.of_subset {months more : List Nat} {seconds : Int} (subset : months ⊆ more)
    (begins : BeginsMonth months seconds) : BeginsMonth more seconds := by
  obtain ⟨year, month, among, first⟩ := begins
  exact ⟨year, month, subset among, first⟩

theorem beginsMonth_iff {months : List Nat} (calendar : ∀ m ∈ months, 1 ≤ m ∧ m ≤ 12)
    {seconds : Int} : BeginsMonth months seconds ↔ 86400 ∣ seconds ∧
      (Date.ofDays (seconds / 86400)).day = 1 ∧ (Date.ofDays (seconds / 86400)).month ∈ months := by
  constructor
  · rintro ⟨year, month, among, rfl⟩
    obtain ⟨some, last⟩ := calendar month among
    have valid := Date.isValid_first_of_month some last year
    rw [Int.mul_ediv_cancel_left _ (by decide), Date.ofDays_toDays valid]
    exact ⟨Int.dvd_mul_right .., rfl, among⟩
  · rintro ⟨midnight, first, among⟩
    refine ⟨(Date.ofDays (seconds / 86400)).year, _, among, ?_⟩
    rw [← first, Date.toDays_ofDays, Int.mul_ediv_cancel' midnight]

theorem isAligned_iff {grain : Grain} : grain.isAligned i zone = true ↔
    i.nanoseconds = 0 ∧ grain.Begins (i.seconds + zone.seconds) := by
  have calendar : (i.localTime zone).date.isValid = true := Date.isValid_ofDays _
  have midnight : (i.localTime zone).isMidnight = true ↔
      i.nanoseconds = 0 ∧ 86400 ∣ i.seconds + zone.seconds := LocalTime.isMidnight_ofSeconds_iff
  have date : (i.localTime zone).date = Date.ofDays ((i.seconds + zone.seconds) / 86400) := rfl
  rw [isAligned]
  cases grain with
  | hour => exact LocalTime.isFullHour_ofSeconds_iff
  | day => exact midnight
  | week =>
    rw [beginsAt, Bool.and_eq_true, midnight, and_assoc, Begins, date, Date.toDays_ofDays,
      Date.weekday, beq_iff_eq]
    refine and_congr_right fun _ => ?_
    omega
  | month =>
    obtain ⟨some, last, _⟩ := Date.isValid_iff.mp calendar
    rw [month_beginsAt_iff, midnight, and_assoc, Begins, beginsMonth_iff (by decide), ← date]
    refine and_congr_right fun _ => and_congr_right fun _ => (and_iff_left ?_).symm
    simp only [List.mem_cons, List.not_mem_nil, or_false]
    omega
  | quarter =>
    rw [quarter_beginsAt_iff calendar, midnight, and_assoc, Begins, beginsMonth_iff (by decide),
      ← date]
  | year =>
    rw [year_beginsAt_iff calendar, midnight, and_assoc, Begins, beginsMonth_iff (by decide),
      ← date, List.mem_singleton]

end Grain

theorem Instant.parse?_localTime {zone : Zone} {text : List Char} {i : Instant}
    (read : parse zone text = .ok i) : LocalTime.parse? text = some (i.localTime zone) := by
  obtain ⟨t, shown, found⟩ := Option.bind_eq_some_iff.mp (readTime_eq_ok_iff.mp read)
  obtain rfl := LocalTime.toInstant?_eq_some found
  have same : t.seconds - zone.seconds + zone.seconds = t.seconds := Int.sub_add_cancel ..
  rw [localTime, same, LocalTime.ofSeconds_seconds (LocalTime.parse?_eq_some shown).1, shown]

namespace Grain

/-- Where buckets begin by the clocks of a zone: at which whole seconds, inside which longer
buckets, at no leap second, and at which dates that are read. -/
theorem bucket_boundaries (zone : Zone) :
    (∀ i : Instant, i.nanoseconds = 0 →
      (hour.isAligned i zone = true ↔ 3600 ∣ i.seconds + zone.seconds) ∧
      (day.isAligned i zone = true ↔ 86400 ∣ i.seconds + zone.seconds) ∧
      (week.isAligned i zone = true ↔ 604800 ∣ i.seconds + zone.seconds - 345600)) ∧
    (∀ i : Instant,
      (year.isAligned i zone = true → quarter.isAligned i zone = true) ∧
      (quarter.isAligned i zone = true → month.isAligned i zone = true) ∧
      (month.isAligned i zone = true → day.isAligned i zone = true) ∧
      (day.isAligned i zone = true → hour.isAligned i zone = true) ∧
      (week.isAligned i zone = true → day.isAligned i zone = true)) ∧
    (∀ (here : Zone) (text : List Char) (i : Instant), Instant.parse here text = .ok i →
      LocalTime.IsLeapText text → i.nanoseconds = 1000000000) ∧
    (∀ (i : Instant) (grain : Grain), i.nanoseconds ≠ 0 → grain.isAligned i zone = false) ∧
    (∀ (text : List Char) (i : Instant), Instant.parse zone text = .ok i → 'T' ∉ text →
      ∃ m d, LocalTime.IsDateText text m d) ∧
    ∀ (text : List Char) (m d : Nat) (i : Instant), Instant.parse zone text = .ok i →
      LocalTime.IsDateText text m d →
      day.isAligned i zone = true ∧
      (month.isAligned i zone = true ↔ d = 1) ∧
      (quarter.isAligned i zone = true ↔ d = 1 ∧ m ∈ [1, 4, 7, 10]) ∧
      (year.isAligned i zone = true ↔ d = 1 ∧ m = 1) := by
  have calendar (i : Instant) : (i.localTime zone).date.isValid = true := Date.isValid_ofDays _
  refine ⟨?wholeSeconds, ?nested, ?leapTexts, ?otherwise, ?dateTexts, ?dates⟩
  case wholeSeconds =>
    intro i whole
    have aligned (grain : Grain) : grain.isAligned i zone = true ↔
        grain.Begins (i.seconds + zone.seconds) := isAligned_iff.trans (and_iff_right whole)
    exact ⟨aligned hour, aligned day, aligned week⟩
  case nested =>
    intro i
    simp only [isAligned_iff]
    refine ⟨And.imp_right ?_, And.imp_right ?_, And.imp_right ?_, And.imp_right ?_,
      And.imp_right ?_⟩
    · exact BeginsMonth.of_subset (by decide)
    · exact BeginsMonth.of_subset (by decide)
    · exact BeginsMonth.midnight
    · exact Int.dvd_trans (by decide)
    · simp only [Begins]
      omega
  case leapTexts =>
    intro here text i read sixty
    exact LocalTime.parse?_of_isLeapText sixty (Instant.parse?_localTime read)
  case otherwise =>
    intro i grain past
    exact Bool.eq_false_iff.mpr fun aligned => past (isAligned_iff.mp aligned).1
  case dateTexts =>
    intro text i read clockless
    exact ⟨_, _, LocalTime.isDateText_of_parse? (Instant.parse?_localTime read) clockless⟩
  case dates =>
    intro text m d i read dated
    obtain ⟨midnight, rfl, rfl⟩ :=
      LocalTime.parse?_of_isDateText dated (Instant.parse?_localTime read)
    refine ⟨midnight, ?_, ?_, ?_⟩
    · rw [isAligned, month_beginsAt_iff, and_iff_right midnight]
    · rw [isAligned, quarter_beginsAt_iff (calendar i), and_iff_right midnight]
    · rw [isAligned, year_beginsAt_iff (calendar i), and_iff_right midnight]

theorem quarter_begun_east : ∃ date second,
    Instant.parse ⟨330, by decide, by decide⟩ "2024- 4- 1".toList = .ok date ∧
    quarter.isAligned date ⟨330, by decide, by decide⟩ = true ∧
    year.isAligned date ⟨330, by decide, by decide⟩ = false ∧
    Instant.parse .utc "2016-12-31T18:29:60".toList = .ok second ∧
    hour.isAligned second ⟨330, by decide, by decide⟩ = false := by
  obtain ⟨_, _, leapTexts, otherwise, _, dates⟩ :=
    bucket_boundaries ⟨330, by decide, by decide⟩
  have readDate : Instant.parse ⟨330, by decide, by decide⟩ "2024- 4- 1".toList =
      .ok ⟨1711909800, 0⟩ := by decide +kernel
  have readSecond : Instant.parse .utc "2016-12-31T18:29:60".toList =
      .ok ⟨1483208999, 1000000000⟩ := by decide +kernel
  have dated : LocalTime.IsDateText "2024- 4- 1".toList 4 1 :=
    ⟨"2024".toList, " 4".toList, " 1".toList, by decide, rfl, rfl⟩
  have sixty : LocalTime.IsLeapText "2016-12-31T18:29:60".toList :=
    ⟨"2016-12-31T18:29".toList, "60".toList, by decide, rfl⟩
  obtain ⟨_, _, quarterIff, yearIff⟩ := dates _ 4 1 _ readDate dated
  have leap := leapTexts _ _ _ readSecond sixty
  refine ⟨_, _, readDate, quarterIff.mpr (by decide), ?_, readSecond,
    otherwise _ hour fun whole => absurd (leap.symm.trans whole) (by decide)⟩
  rw [Bool.eq_false_iff]
  exact fun begun => absurd (yearIff.mp begun).2 (by decide)

end Grain

end AggregateQuery
