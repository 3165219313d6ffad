import AggregateQuery.Proofs.Condition.WrittenQuery
import AggregateQuery.Proofs.Request.ZoneChange
import AggregateQuery.Proofs.Time.IntervalText
/-!
Listed intervals. An accepted delimiter can stand in the text of an interval only when it is the
colon of a clock or the plus sign of a year. Intervals without it are read from the list that joins
them; a list of intervals of which one holds it is not read at all.
-/
namespace AggregateQuery

open Text

theorem Delimiters.intervals_accepted {d : Delimiters} (accepted : d.refused? = none) :
    isRefused d.intervals = false := by
  have none := List.find?_eq_none.mp accepted ("interval_delimiter", d.intervals) (by simp [named])
  simpa using none

theorem Interval.mark_of_accepted {zone : Zone} {text : List Char} {i : Interval}
    (read : parse zone text = .ok i) {c : Char} (member : c ∈ text) (visible : isBlank c = false)
    (accepted : Delimiters.isRefused c = false) : c = ':' ∨ c = '+' := by
  have notDigit : c.isDigit = false := by
    simp only [Delimiters.isRefused, isAlphanumeric, Char.isAlphanum, Bool.or_eq_false_iff]
      at accepted
    exact accepted.2.1.2
  rcases mem_text read member with isTime | rfl
  · simp only [isTimeChar, visible, notDigit, Bool.false_or, Bool.or_eq_true, beq_iff_eq] at isTime
    rcases isTime with ((rfl | plus) | colon) | rfl
    · exact absurd accepted (by decide)
    · exact Or.inr plus
    · exact Or.inl colon
    · exact absurd accepted (by decide)
  · exact absurd accepted (by decide)

namespace RequestParameters

variable {p : RequestParameters} {resolver : Resolver} {settings : Settings} {r : DataRequest}

theorem built_with_intervals {raw : String} {r' : DataRequest}
    (built : toDataRequest { p with intervals := none } resolver settings = .ok r) :
    toDataRequest { p with intervals := some raw } resolver settings = .ok r' ↔
      ∃ given, readIntervals settings.delimiters.intervals r.timeZone raw = .ok given ∧
        r' = { r with intervals := distinct given } := by
  have parts := toDataRequest_eq_ok_iff.mp built
  have withIntervals {given : List Interval}
      (read : readIntervals settings.delimiters.intervals r.timeZone raw = .ok given) :
      toDataRequest { p with intervals := some raw } resolver settings =
        .ok { r with intervals := distinct given } :=
    toDataRequest_eq_ok_iff.mpr { parts with
      intervals := ⟨given, readOr_eq_ok_iff.mpr (Or.inr ⟨raw, rfl, read⟩), rfl⟩ }
  constructor
  · intro builtToo
    have partsToo := toDataRequest_eq_ok_iff.mp builtToo
    obtain ⟨given, read, _⟩ := partsToo.intervals
    rcases readOr_eq_ok_iff.mp read with ⟨absent, _⟩ | ⟨text, same, read⟩
    · contradiction
    · obtain rfl := Option.some.inj same
      rw [Except.ok.inj (partsToo.timeZone.symm.trans parts.timeZone)] at read
      exact ⟨given, read, Except.ok.inj (builtToo.symm.trans (withIntervals read))⟩
  · rintro ⟨given, read, rfl⟩
    exact withIntervals read

variable {zone : Zone} {delimiter : Char} {texts : List (List Char)} {intervals : List Interval}

section Listed

variable (accepted : Delimiters.isRefused delimiter = false)
  (parsed : texts.mapM (Interval.parse zone) = .ok intervals)

include parsed

theorem not_mem_listed {mark : Char} (notTime : isTimeChar mark = false)
    (notSlash : mark ≠ '/') : ∀ text ∈ texts, mark ∉ text := by
  intro text among member
  obtain ⟨i, one⟩ := read_of_mapM parsed text among
  rcases Interval.mem_text one member with time | isSlash
  · exact Bool.false_ne_true (notTime.symm.trans time)
  · exact notSlash isSlash

theorem count_slash_listed : ∀ text ∈ texts, text.count '/' = 1 := by
  intro text among
  obtain ⟨i, one⟩ := read_of_mapM parsed text among
  exact Interval.count_slash one

include accepted

theorem readIntervals_listed (visible : ∀ text ∈ texts, ∀ c ∈ text, isBlank c = false)
    (uncut : ∀ text ∈ texts, delimiter ∉ text) :
    readIntervals delimiter zone (String.ofList (joinWith delimiter texts)) = .ok intervals := by
  obtain ⟨delimits, _⟩ := Delimiters.accepted accepted
  have listed : entries delimiter (joinWith delimiter texts) = texts := by
    refine entries_joinWith delimits ?visible ?trimmed ?hides ?closed
    case visible =>
      intro text among
      have slash : '/' ∈ text :=
        List.count_pos_iff.mp (by simp [count_slash_listed parsed text among])
      exact List.all_eq_false.mpr ⟨'/', slash, by decide⟩
    case trimmed => exact fun text among => trim_of_no_blanks (visible text among)
    case hides => exact fun text among => hidesDelimiter_of_not_mem 0 (uncut text among)
    case closed =>
      intro text among
      exact depthAfter_of_no_bracket 0 (not_mem_listed parsed (by decide) (by decide) text among)
        (not_mem_listed parsed (by decide) (by decide) text among)
  rw [readIntervals, mapError_eq_ok_iff, String.toList_ofList, listed]
  exact parsed

theorem uncut_of_readIntervals {given : List Interval}
    (read : readIntervals delimiter zone (String.ofList (joinWith delimiter texts)) = .ok given) :
    ∀ text ∈ texts, delimiter ∉ text := by
  obtain ⟨delimits, _⟩ := Delimiters.accepted accepted
  rw [readIntervals, mapError_eq_ok_iff, String.toList_ofList] at read
  have slash : '/' ≠ delimiter := by
    rintro rfl
    exact absurd accepted (by decide)
  refine uncut_of_entries delimits slash (by decide) ?opening ?closing ?once ?onceToo
  case opening => exact not_mem_listed parsed (by decide) (by decide)
  case closing => exact not_mem_listed parsed (by decide) (by decide)
  case once => exact count_slash_listed parsed
  case onceToo => exact count_slash_listed read

end Listed

/-- Intervals are read from the list that joins them exactly when none of them holds the delimiter.
Of the delimiters that settings accept, only the colon and the plus sign can stand in one. -/
theorem listed_intervals_read_iff_uncut (p : RequestParameters)
    (accepted : settings.delimiters.refused? = none)
    (built : toDataRequest { p with intervals := none } resolver settings = .ok r)
    (visible : ∀ text ∈ texts, ∀ c ∈ text, isBlank c = false)
    (parsed : texts.mapM (Interval.parse r.timeZone) = .ok intervals) :
    (settings.delimiters.intervals ≠ ':' → settings.delimiters.intervals ≠ '+' →
      ∀ text ∈ texts, settings.delimiters.intervals ∉ text) ∧
    ((∃ kept, FirstOccurrences intervals kept ∧ toDataRequest
        { p with intervals := some (String.ofList (joinWith settings.delimiters.intervals texts)) }
        resolver settings = .ok { r with intervals := kept }) ↔
      ∀ text ∈ texts, settings.delimiters.intervals ∉ text) := by
  have delimits := Delimiters.intervals_accepted accepted
  refine ⟨?_, ?_, ?_⟩
  · intro notColon notPlus text among member
    obtain ⟨i, one⟩ := read_of_mapM parsed text among
    rcases Interval.mark_of_accepted one member (visible text among _ member) delimits with
      colon | plus
    · exact notColon colon
    · exact notPlus plus
  · rintro ⟨kept, _, whole⟩
    obtain ⟨given, read, _⟩ := (built_with_intervals built).mp whole
    exact uncut_of_readIntervals delimits parsed read
  · intro uncut
    refine ⟨distinct intervals, firstOccurrences_distinct intervals, ?_⟩
    exact (built_with_intervals built).mpr
      ⟨intervals, readIntervals_listed delimits parsed visible uncut, rfl⟩

theorem repeated_interval_read_once :
    ∃ r, toDataRequest
      { table := "orders"
        intervals := some "2024-01-01T06:00/2024-01-02;2024-01-01T06:00/2024-01-02" }
      SmallCatalog.catalog.resolver { delimiters := { intervals := ';' } } = .ok r ∧
    FirstOccurrences
      [⟨⟨1704088800, 0⟩, ⟨1704153600, 0⟩, rfl⟩,
        ⟨⟨1704088800, 0⟩, ⟨1704153600, 0⟩, rfl⟩]
      r.intervals := by
  have accepted : ({ delimiters := { intervals := ';' } } : Settings).delimiters.refused? = none :=
    by decide +kernel
  have built : toDataRequest { table := "orders" } SmallCatalog.catalog.resolver
    { delimiters := { intervals := ';' } } =
      .ok { table := SmallCatalog.orders, granularity := .all } := rfl
  have parsed : ["2024-01-01T06:00/2024-01-02".toList, "2024-01-01T06:00/2024-01-02".toList].mapM
    (Interval.parse .utc) = .ok [⟨⟨1704088800, 0⟩, ⟨1704153600, 0⟩, rfl⟩,
      ⟨⟨1704088800, 0⟩, ⟨1704153600, 0⟩, rfl⟩] := rfl
  have joined : String.ofList (joinWith ';'
    ["2024-01-01T06:00/2024-01-02".toList, "2024-01-01T06:00/2024-01-02".toList]) =
      "2024-01-01T06:00/2024-01-02;2024-01-01T06:00/2024-01-02" := by decide +kernel
  obtain ⟨uncut, read⟩ := listed_intervals_read_iff_uncut { table := "orders" } accepted built
    (by simp [isBlank]) parsed
  obtain ⟨kept, first, whole⟩ := read.mpr (uncut (by decide) (by decide))
  rw [joined] at whole
  exact ⟨_, whole, first⟩

/-- A colon is accepted as the delimiter of intervals, and cuts clock times. -/
theorem colon_cuts_clock_times :
    (⟨',', ',', ',', ':'⟩ : Delimiters).refused? = none ∧
    (Interval.parse .utc "2024-01-01T06:00/2024-01-02".toList).isOk = true ∧
    toDataRequest { table := "orders", intervals := some "2024-01-01T06:00/2024-01-02" }
      SmallCatalog.catalog.resolver { delimiters := { intervals := ':' } } =
        .error (.parameter .dateTime "2024-01-01T06:00/2024-01-02"
          (.time (.malformedInterval "2024-01-01T06"))) := by
  refine ⟨by decide +kernel, by decide +kernel, ?_⟩
  rfl

end RequestParameters

end AggregateQuery
