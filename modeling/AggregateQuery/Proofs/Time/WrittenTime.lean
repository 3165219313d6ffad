import AggregateQuery.Proofs.Time.Shifting
import AggregateQuery.Proofs.Time.TimeText
/-!
Written times. What is written of a time a clock shows is read as that time; so what is printed of
an interval, without the marks of UTC, is read as the interval.
-/
namespace AggregateQuery

open Text

namespace LocalTime

variable {rest : List Char}

/-- Whether a number in front of a text ends where the text begins. -/
def NoDigitFirst (rest : List Char) : Prop := ∀ c ∈ rest.head?, c.isDigit = false

theorem noDigitFirst_nil : NoDigitFirst [] := fun _ first => nomatch first

theorem noDigitFirst_cons {mark : Char} (other : mark.isDigit = false) :
    NoDigitFirst (mark :: rest) := by
  rintro _ ⟨⟩
  exact other

theorem takeWhile_digits {digits : List Char} (allDigits : ∀ c ∈ digits, c.isDigit = true)
    (stops : NoDigitFirst rest) : (digits ++ rest).takeWhile Char.isDigit = digits :=
  (run_in_front allDigits stops).1

theorem readNumber?_written {width : Nat} {digits : List Char} (inhabited : digits ≠ [])
    (allDigits : ∀ c ∈ digits, c.isDigit = true) (fits : digits.length ≤ width)
    (stops : NoDigitFirst rest) :
    readNumber? width (digits ++ rest) = some (digitsValue digits, rest) := by
  have stopsToo : NoDigitFirst (rest.take (width - digits.length)) := by
    intro c first
    rw [List.head?_take] at first
    exact stops c (Option.ite_none_left_eq_some.mp first).2
  have taken : ((digits ++ rest).take width).takeWhile Char.isDigit = digits := by
    rw [List.take_append, List.take_of_length_le fits, takeWhile_digits allDigits stopsToo]
  have value : readDigits? digits = some (digitsValue digits) :=
    readDigits?_eq_some_iff.mpr ⟨inhabited, allDigits, rfl⟩
  simp only [readNumber?, taken, value, Option.map_some, List.drop_left]

theorem readNumber?_padded {width places value : Nat}
    (fits : (paddedChars places value).length ≤ width) (stops : NoDigitFirst rest) :
    readNumber? width (paddedChars places value ++ rest) = some (value, rest) := by
  rw [readNumber?_written (paddedChars_ne_nil places value) (digits_paddedChars places value) fits
    stops, digitsValue_paddedChars]

theorem head_padded (places value : Nat) (rest : List Char) :
    ∀ c ∈ (paddedChars places value ++ rest).head?, c.isDigit = true := by
  rw [List.head?_append_of_ne_nil _ (paddedChars_ne_nil places value)]
  exact fun c first => digits_paddedChars places value c (List.mem_of_mem_head? first)

theorem trimStart_padded (places value : Nat) (rest : List Char) :
    trimStart (paddedChars places value ++ rest) = paddedChars places value ++ rest :=
  dropWhile_blank_of_head fun c first => visible_of_digit (head_padded places value rest c first)

theorem readField?_written {value : Nat} (short : value < 100) (stops : NoDigitFirst rest) :
    readField? 2 (paddedChars 2 value ++ rest) = some (value, rest) := by
  have fits : (paddedChars 2 value).length ≤ 2 :=
    Nat.le_of_eq (length_paddedChars (by decide) short)
  rw [readField?, trimStart_padded, readNumber?_padded fits stops]

theorem readYear?_unsigned {s : List Char} (start : trimStart s = s)
    (first : ∀ c ∈ s.head?, c.isDigit = true) :
    readYear? s = (readNumber? 4 s).map fun read => ((read.1 : Int), read.2) := by
  rw [readYear?, start]
  split
  · exact absurd (first '-' rfl) (by decide)
  · exact absurd (first '+' rfl) (by decide)
  · rfl

theorem readYear?_minus (s : List Char) : readYear? ('-' :: s) =
    (readNumber? s.length s).map fun read => (-(read.1 : Int), read.2) := rfl

theorem readYear?_plus (s : List Char) : readYear? ('+' :: s) =
    (readNumber? s.length s).map fun read => ((read.1 : Int), read.2) := rfl

theorem readYear?_written (year : Int) (stops : NoDigitFirst rest) :
    readYear? (yearChars year ++ rest) = some (year, rest) := by
  rw [yearChars]
  split
  · rename_i fourDigits
    have fits : (paddedChars 4 year.natAbs).length ≤ 4 :=
      Nat.le_of_eq (length_paddedChars (by decide) (by omega))
    rw [readYear?_unsigned (trimStart_padded 4 _ rest) (head_padded 4 _ rest),
      readNumber?_padded fits stops, Option.map_some, Int.natAbs_of_nonneg fourDigits.1]
  · -- Behind a sign the number may be as wide as the text.
    have fits :
        (paddedChars 4 year.natAbs).length ≤ (paddedChars 4 year.natAbs ++ rest).length := by
      rw [List.length_append]
      exact Nat.le_add_right _ _
    have signed := readNumber?_padded fits stops
    by_cases negative : year < 0
    · have same : -(year.natAbs : Int) = year := by omega
      rw [if_pos negative, List.cons_append, readYear?_minus, signed, Option.map_some, same]
    · have same : (year.natAbs : Int) = year := by omega
      rw [if_neg negative, List.cons_append, readYear?_plus, signed, Option.map_some, same]

theorem readDate?_written {date : Date} (calendar : date.isValid = true)
    (inRange : Instant.isYear date.year = true) (stops : NoDigitFirst rest) :
    readDate? (yearChars date.year ++ '-' :: (paddedChars 2 date.month ++
      '-' :: (paddedChars 2 date.day ++ rest))) = some (date, rest) := by
  obtain ⟨_, lastMonth, _, _⟩ := Date.isValid_iff.mp calendar
  have lastDay := Date.day_le_of_isValid calendar
  have dash {s : List Char} : NoDigitFirst ('-' :: s) := noDigitFirst_cons rfl
  have month {s : List Char} : readField? 2 (paddedChars 2 date.month ++ '-' :: s) =
      some (date.month, '-' :: s) := readField?_written (by omega) dash
  have day : readField? 2 (paddedChars 2 date.day ++ rest) = some (date.day, rest) :=
    readField?_written (by omega) stops
  simp only [readDate?, readYear?_written date.year dash, readMark?, month, day, inRange, calendar,
    Option.bind_eq_bind, Option.bind_some, ↓reduceIte, Bool.and_self]

theorem writtenSecond_lt {t : LocalTime} (shown : t.OnClock) : t.writtenSecond < 100 := by
  have second := shown.second
  rcases shown.whole with whole | ⟨leap, _⟩
  · rw [writtenSecond, whole]
    omega
  · rw [writtenSecond, leap]
    omega

theorem ofFields?_shown {t : LocalTime} (shown : t.OnClock) :
    ofFields? t.date t.hour t.minute t.writtenSecond = some t := by
  obtain ⟨_, hour, minute, second, whole⟩ := shown
  obtain ⟨date, h, m, s, nanoseconds⟩ := t
  simp only at hour minute second whole
  rcases whole with rfl | ⟨rfl, rfl⟩
  · have notLeap : s ≠ 60 := by omega
    have least : Nat.min s 59 = s := Nat.min_eq_left (by omega)
    simp [ofFields?, writtenSecond, hour, minute, Nat.le_of_lt second, notLeap, least]
  · simp [ofFields?, writtenSecond, hour, minute]

theorem readClock?_written {t : LocalTime} (shown : t.OnClock) :
    readClock? t.date ('T' :: (paddedChars 2 t.hour ++ ':' :: (paddedChars 2 t.minute ++
      ':' :: paddedChars 2 t.writtenSecond))) = some t := by
  have fields := ofFields?_shown shown
  have colon {s : List Char} : NoDigitFirst (':' :: s) := noDigitFirst_cons rfl
  have hour {s : List Char} : readField? 2 (paddedChars 2 t.hour ++ ':' :: s) =
      some (t.hour, ':' :: s) := readField?_written (Nat.lt_trans shown.hour (by decide)) colon
  have minute {s : List Char} : readField? 2 (paddedChars 2 t.minute ++ ':' :: s) =
      some (t.minute, ':' :: s) := readField?_written (Nat.lt_trans shown.minute (by decide)) colon
  have second := readField?_written (writtenSecond_lt shown) noDigitFirst_nil
  rw [List.append_nil] at second
  simp only [readClock?, readMark?, hour, minute, second, fields, Option.bind_eq_bind,
    Option.bind_some, ↓reduceIte, List.isEmpty_cons, List.isEmpty_nil, Bool.false_eq_true]

theorem chars_eq (t : LocalTime) : t.chars = yearChars t.date.year ++
    '-' :: (paddedChars 2 t.date.month ++ '-' :: (paddedChars 2 t.date.day ++
      'T' :: (paddedChars 2 t.hour ++ ':' :: (paddedChars 2 t.minute ++
        ':' :: paddedChars 2 t.writtenSecond)))) := by
  simp only [chars, List.append_assoc, List.cons_append]

def IsWrittenChar (c : Char) : Prop := c.isDigit = true ∨ c = '-' ∨ c = '+' ∨ c = 'T' ∨ c = ':'

theorem IsWrittenChar.visible {c : Char} (written : IsWrittenChar c) : isBlank c = false := by
  rcases written with digit | rfl | rfl | rfl | rfl
  · exact visible_of_digit digit
  all_goals decide

theorem IsWrittenChar.ne_slash {c : Char} (written : IsWrittenChar c) : c ≠ '/' := by
  rcases written with digit | rfl | rfl | rfl | rfl
  · rintro rfl
    contradiction
  all_goals decide

theorem written_chars (t : LocalTime) : ∀ c ∈ t.chars, IsWrittenChar c := by
  have digits (width value : Nat) : ∀ c ∈ paddedChars width value, IsWrittenChar c :=
    fun c member => Or.inl (digits_paddedChars width value c member)
  have year : ∀ c ∈ yearChars t.date.year, IsWrittenChar c := by
    rw [yearChars]
    split
    · exact digits 4 _
    · refine List.forall_mem_cons.mpr ⟨?_, digits 4 _⟩
      split
      · exact Or.inr (Or.inl rfl)
      · exact Or.inr (Or.inr (Or.inl rfl))
  have dash : IsWrittenChar '-' := Or.inr (Or.inl rfl)
  have mark : IsWrittenChar 'T' := Or.inr (Or.inr (Or.inr (Or.inl rfl)))
  have colon : IsWrittenChar ':' := Or.inr (Or.inr (Or.inr (Or.inr rfl)))
  rw [chars_eq]
  simp only [List.forall_mem_append, List.forall_mem_cons]
  exact ⟨year, dash, digits 2 _, dash, digits 2 _, mark, digits 2 _, colon, digits 2 _, colon,
    digits 2 _⟩

theorem parse?_chars {t : LocalTime} (shown : t.OnClock)
    (inRange : Instant.isYear t.date.year = true) : parse? t.chars = some t := by
  have mark {s : List Char} : NoDigitFirst ('T' :: s) := noDigitFirst_cons rfl
  have trimmed : trim t.chars = t.chars :=
    trim_of_no_blanks fun c member => (written_chars t c member).visible
  rw [parse?, trimmed, chars_eq, readDate?_written shown.calendar inRange mark]
  exact readClock?_written shown

end LocalTime

namespace Instant

/-- Whether an instant is all in its text: its year is in range, nothing is past its second, and a
leap second follows the last second of a minute. -/
structure IsWritable (i : Instant) : Prop where
  inRange : isYear (Date.yearOfDay (i.seconds / 86400)) = true
  whole : i.nanoseconds = 0 ∨ i.nanoseconds = 1000000000 ∧ i.seconds % 60 = 59

theorem localTime_utc (i : Instant) :
    i.localTime .utc = LocalTime.ofSeconds i.seconds i.nanoseconds := by
  have same : i.seconds + Zone.utc.seconds = i.seconds := Int.add_zero i.seconds
  rw [localTime, same]

theorem isWritable_of_parse {zone : Zone} {text : List Char} {i : Instant}
    (read : parse zone text = .ok i) : i.IsWritable := by
  obtain ⟨t, shown, found⟩ := Option.bind_eq_some_iff.mp (readTime_eq_ok_iff.mp read)
  obtain ⟨inRange, same⟩ := Option.ite_none_right_eq_some.mp found
  obtain rfl := Option.some.inj same
  refine ⟨inRange, ?_⟩
  rcases (LocalTime.parse?_eq_some shown).1.whole with whole | ⟨leap, last⟩
  · exact Or.inl whole
  · -- Zones lie whole minutes apart, so the second is the same in all of them.
    have counted := LocalTime.seconds_eq t
    have minutes : zone.seconds = 60 * zone.minutes := rfl
    refine Or.inr ⟨leap, ?_⟩
    simp only
    omega

theorem parse_localTime {i : Instant} (writable : i.IsWritable) :
    parse .utc (i.localTime .utc).chars = .ok i := by
  have shown := LocalTime.onClock_ofSeconds writable.whole
  have inRange : isYear (LocalTime.ofSeconds i.seconds i.nanoseconds).date.year = true := by
    rw [LocalTime.year_ofSeconds]
    exact writable.inRange
  have found : (LocalTime.ofSeconds i.seconds i.nanoseconds).toInstant? .utc = some i := by
    have same : i.seconds - Zone.utc.seconds = i.seconds := Int.sub_zero i.seconds
    rw [LocalTime.toInstant?, LocalTime.seconds_ofSeconds, same, if_pos writable.inRange,
      LocalTime.nanoseconds_ofSeconds]
  rw [parse, readTime_eq_ok_iff, parse?, localTime_utc, LocalTime.parse?_chars shown inRange]
  exact found

theorem leap_of_not_whole {i : Instant} (writable : i.IsWritable) (past : i.nanoseconds ≠ 0) :
    (i.localTime .utc).second = 59 ∧ i.nanoseconds = 1000000000 := by
  rcases writable.whole with whole | ⟨leap, last⟩
  · contradiction
  · have shown := LocalTime.second_ofSeconds i.seconds i.nanoseconds
    rw [localTime_utc]
    exact ⟨by omega, leap⟩

end Instant

namespace Interval

theorem parse_written {i : Interval} (start : i.start.IsWritable) (finish : i.finish.IsWritable) :
    parse .utc ((i.start.localTime .utc).chars ++ '/' :: (i.finish.localTime .utc).chars) =
      .ok i := by
  have first := LocalTime.written_chars (i.start.localTime .utc)
  have last := LocalTime.written_chars (i.finish.localTime .utc)
  have visible : ∀ c ∈ (i.start.localTime .utc).chars ++ '/' :: (i.finish.localTime .utc).chars,
      isBlank c = false := by
    refine List.forall_mem_append.mpr ⟨fun c member => (first c member).visible, ?_⟩
    exact List.forall_mem_cons.mpr ⟨rfl, fun c member => (last c member).visible⟩
  have cut := cut?_append '/' (i.start.localTime .utc).chars (i.finish.localTime .utc).chars
    fun slash => (first '/' slash).ne_slash rfl
  rw [parse_eq_ok_iff, trim_of_no_blanks visible]
  exact ⟨_, _, cut, Instant.parse_localTime start, Instant.parse_localTime finish⟩

/-- An interval that is read in any zone is read again, by the clocks of UTC, from its own text
without the marks of UTC. Its bounds are whole seconds and leap seconds, and stay what they were. -/
theorem printed_read_back {zone : Zone} {text : List Char} {i : Interval}
    (read : parse zone text = .ok i) :
    ∃ first last, (toString i).toList = first ++ 'Z' :: '/' :: (last ++ ['Z']) ∧
      '/' ∉ first ∧ '/' ∉ last ∧ parse .utc (first ++ '/' :: last) = .ok i ∧
      ∀ bound ∈ [i.start, i.finish], bound.nanoseconds ≠ 0 →
        (bound.localTime .utc).second = 59 ∧ bound.nanoseconds = 1000000000 := by
  obtain ⟨_, _, _, readStart, readFinish⟩ := parse_eq_ok_iff.mp read
  have start := Instant.isWritable_of_parse readStart
  have finish := Instant.isWritable_of_parse readFinish
  refine ⟨(i.start.localTime .utc).chars, (i.finish.localTime .utc).chars, ?_, ?_, ?_,
    parse_written start finish, ?_⟩
  · have printed : toString i = String.ofList i.chars := rfl
    rw [printed, String.toList_ofList, chars, Instant.chars, Instant.chars, List.append_assoc]
    rfl
  · exact fun slash => (LocalTime.written_chars _ '/' slash).ne_slash rfl
  · exact fun slash => (LocalTime.written_chars _ '/' slash).ne_slash rfl
  · intro bound member past
    have writable : bound.IsWritable := by
      rcases List.mem_cons.mp member with rfl | later
      · exact start
      · obtain rfl := List.mem_singleton.mp later
        exact finish
    exact Instant.leap_of_not_whole writable past

theorem leap_second_read_back : ∃ i first last,
    parse ⟨330, by decide, by decide⟩ "2017-01-01T05:29:60/+12017- 1- 2".toList = .ok i ∧
    toString i = "2016-12-31T23:59:60Z/+12017-01-01T18:30:00Z" ∧
    (toString i).toList = first ++ 'Z' :: '/' :: (last ++ ['Z']) ∧
    parse .utc (first ++ '/' :: last) = .ok i ∧ i.start.nanoseconds = 1000000000 := by
  have read : parse ⟨330, by decide, by decide⟩ "2017-01-01T05:29:60/+12017- 1- 2".toList =
      .ok ⟨⟨1483228799, 1000000000⟩, ⟨317052815400, 0⟩, rfl⟩ := by decide +kernel
  obtain ⟨first, last, printed, _, _, readAgain, leaps⟩ := printed_read_back read
  have leap := leaps ⟨1483228799, 1000000000⟩ List.mem_cons_self (by decide)
  exact ⟨_, first, last, read, by decide +kernel, printed, readAgain, leap.2⟩

end Interval

end AggregateQuery
