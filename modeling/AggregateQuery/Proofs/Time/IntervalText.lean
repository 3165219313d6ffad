import AggregateQuery.Proofs.Time.Shifting
import AggregateQuery.Proofs.Time.TimeText
/-!
The characters of times. What is read as a time is made of digits, of the marks of dates and clocks
and of blanks; an interval puts one slash between two times.
-/
namespace AggregateQuery

open Text

def isTimeChar (c : Char) : Bool :=
  isBlank c || c.isDigit || c == '-' || c == '+' || c == ':' || c == 'T'

theorem isTimeChar_of_blank {c : Char} (blank : isBlank c = true) : isTimeChar c = true := by
  simp [isTimeChar, blank]

theorem isTimeChar_of_digit {c : Char} (digit : c.isDigit = true) : isTimeChar c = true := by
  simp [isTimeChar, digit]

namespace LocalTime

theorem timeChars {s : List Char} {t : LocalTime} (read : parse? s = some t) :
    ∀ c ∈ trim s, isTimeChar c = true := by
  obtain ⟨_, year, month, day, clock, whole, yearChars, monthShown, dayShown, behind⟩ :=
    parse?_eq_some read
  have field {field : List Char} {value : Nat} (shown : IsField field value) :
      ∀ c ∈ field, isTimeChar c = true := by
    intro c member
    rcases shown.mem member with blank | digit
    · exact isTimeChar_of_blank blank
    · exact isTimeChar_of_digit digit
  have inYear : ∀ c ∈ year, isTimeChar c = true := by
    intro c member
    rcases yearChars c member with blank | digit | rfl | rfl
    · exact isTimeChar_of_blank blank
    · exact isTimeChar_of_digit digit
    · rfl
    · rfl
  have inClock : ∀ c ∈ clock, isTimeChar c = true := by
    rcases behind with ⟨rfl, _⟩ | ⟨_, _, _, isClock, _⟩
    · exact List.forall_mem_nil _
    · intro c member
      rcases isClock.chars c member with blank | digit | rfl | rfl
      · exact isTimeChar_of_blank blank
      · exact isTimeChar_of_digit digit
      · rfl
      · rfl
  rw [whole]
  simp only [List.forall_mem_append, List.forall_mem_cons]
  exact ⟨inYear, rfl, field monthShown, rfl, field dayShown, inClock⟩

end LocalTime

theorem Instant.timeChars {zone : Zone} {text : List Char} {i : Instant}
    (read : parse zone text = .ok i) : ∀ c ∈ text, isTimeChar c = true := by
  obtain ⟨t, shown, _⟩ := Option.bind_eq_some_iff.mp (readTime_eq_ok_iff.mp read)
  obtain ⟨front, back, whole, blankFront, blankBack⟩ := trim_between_blanks text
  rw [whole, List.forall_mem_append, List.forall_mem_append]
  refine ⟨⟨fun c member => ?_, LocalTime.timeChars shown⟩, fun c member => ?_⟩
  · exact isTimeChar_of_blank (blankFront c member)
  · exact isTimeChar_of_blank (blankBack c member)

theorem Interval.text_eq {zone : Zone} {text : List Char} {i : Interval}
    (read : parse zone text = .ok i) : ∃ first last, text = first ++ '/' :: last ∧
      (∀ c ∈ first, isTimeChar c = true) ∧ ∀ c ∈ last, isTimeChar c = true := by
  obtain ⟨first, last, cut, start, finish⟩ := parse_eq_ok_iff.mp read
  obtain ⟨between, _⟩ := cut?_eq_some_iff.mp cut
  obtain ⟨front, back, whole, blankFront, blankBack⟩ := trim_between_blanks text
  refine ⟨front ++ first, last ++ back, ?_, ?_, ?_⟩
  · rw [whole, between]
    simp
  · refine List.forall_mem_append.mpr ⟨fun c member => ?_, Instant.timeChars start⟩
    exact isTimeChar_of_blank (blankFront c member)
  · refine List.forall_mem_append.mpr ⟨Instant.timeChars finish, fun c member => ?_⟩
    exact isTimeChar_of_blank (blankBack c member)

theorem Interval.mem_text {zone : Zone} {text : List Char} {i : Interval}
    (read : parse zone text = .ok i) {c : Char} (member : c ∈ text) :
    isTimeChar c = true ∨ c = '/' := by
  obtain ⟨first, last, rfl, times, timesToo⟩ := text_eq read
  rcases List.mem_append.mp member with inFirst | behind
  · exact Or.inl (times c inFirst)
  · rcases List.mem_cons.mp behind with slash | inLast
    · exact Or.inr slash
    · exact Or.inl (timesToo c inLast)

theorem Interval.count_slash {zone : Zone} {text : List Char} {i : Interval}
    (read : parse zone text = .ok i) : text.count '/' = 1 := by
  obtain ⟨first, last, rfl, times, timesToo⟩ := text_eq read
  have noSlash {s : List Char} (times : ∀ c ∈ s, isTimeChar c = true) : s.count '/' = 0 := by
    rw [List.count_eq_zero]
    intro member
    exact absurd (times '/' member) (by decide)
  rw [List.count_append, List.count_cons_self, noSlash times, noSlash timesToo]

end AggregateQuery
