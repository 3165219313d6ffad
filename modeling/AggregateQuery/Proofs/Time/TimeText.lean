import AggregateQuery.Proofs.Number.WrittenDigits
import AggregateQuery.Proofs.Text.Cutting
import AggregateQuery.Proofs.Time.ClockTime
/-!
The texts of times. A time that is read stands in its text: a year, the month and the day behind the
next two dashes, and behind the day nothing or a clock. Every such time is one a clock can show.
-/
namespace AggregateQuery.LocalTime

open Text

variable {s rest : List Char}

/-- Whether a text is the digits of a number, with or without blanks in front. -/
def IsField (field : List Char) (value : Nat) : Prop := readDigits? (trimStart field) = some value

theorem mem_takeWhile_blank {c : Char} (member : c ∈ s.takeWhile isBlank) : isBlank c = true :=
  List.all_eq_true.mp List.all_takeWhile c member

theorem IsField.mem {field : List Char} {value : Nat} (shown : IsField field value) {c : Char}
    (member : c ∈ field) : isBlank c = true ∨ c.isDigit = true := by
  rw [← List.takeWhile_append_dropWhile (p := isBlank) (l := field), List.mem_append] at member
  rcases member with inBlanks | inDigits
  · exact Or.inl (mem_takeWhile_blank inBlanks)
  · obtain ⟨_, digits, _⟩ := readDigits?_eq_some_iff.mp shown
    exact Or.inr (digits c inDigits)

theorem IsField.absent {field : List Char} {value : Nat} {mark : Char}
    (shown : IsField field value) (visible : isBlank mark = false)
    (other : mark.isDigit = false) : mark ∉ field := by
  intro member
  rcases shown.mem member with blank | digit
  · exact Bool.false_ne_true (visible.symm.trans blank)
  · exact Bool.false_ne_true (other.symm.trans digit)

theorem readNumber?_eq_some {width value : Nat} (read : readNumber? width s = some (value, rest)) :
    ∃ digits, s = digits ++ rest ∧ readDigits? digits = some value := by
  obtain ⟨_, number, same⟩ := Option.map_eq_some_iff.mp read
  obtain ⟨rfl, rfl⟩ := Prod.mk.inj same
  have front : (s.take width).takeWhile Char.isDigit <+: s :=
    (List.takeWhile_prefix _).trans (List.take_prefix _ _)
  exact ⟨_, (List.prefix_iff_eq_append.mp front).symm, number⟩

theorem readField?_eq_some {width value : Nat} (read : readField? width s = some (value, rest)) :
    ∃ field, s = field ++ rest ∧ IsField field value := by
  obtain ⟨digits, start, number⟩ := readNumber?_eq_some read
  refine ⟨s.takeWhile isBlank ++ digits, ?_, ?_⟩
  · rw [List.append_assoc, ← start, trimStart, List.takeWhile_append_dropWhile]
  · obtain ⟨_, allDigits, _⟩ := readDigits?_eq_some_iff.mp number
    have visible : ∀ c ∈ digits.head?, isBlank c = false := fun c first =>
      visible_of_digit (allDigits c (List.mem_of_mem_head? first))
    rwa [IsField, trimStart, List.dropWhile_append_of_pos fun _ => mem_takeWhile_blank,
      dropWhile_blank_of_head visible]

def IsYearChar (c : Char) : Prop := isBlank c = true ∨ c.isDigit = true ∨ c = '-' ∨ c = '+'

theorem readYear?_eq_some {year : Int} (read : readYear? s = some (year, rest)) :
    ∃ text, s = text ++ rest ∧ ∀ c ∈ text, IsYearChar c := by
  have digits {width : Nat} {t : List Char} {finish : Nat × List Char → Int × List Char}
      (keeps : ∀ read, (finish read).2 = read.2)
      (signed : (readNumber? width t).map finish = some (year, rest)) :
      ∃ text, t = text ++ rest ∧ ∀ c ∈ text, IsYearChar c := by
    obtain ⟨⟨value, after⟩, number, same⟩ := Option.map_eq_some_iff.mp signed
    obtain ⟨text, rfl, digits⟩ := readNumber?_eq_some number
    obtain ⟨_, allDigits, _⟩ := readDigits?_eq_some_iff.mp digits
    obtain rfl : rest = after := by
      have last := keeps (value, after)
      rwa [same] at last
    exact ⟨text, rfl, fun c member => Or.inr (Or.inl (allDigits c member))⟩
  have signed {sign : Char} {t : List Char} (isSign : IsYearChar sign)
      (behind : ∃ text, t = text ++ rest ∧ ∀ c ∈ text, IsYearChar c) :
      ∃ text, sign :: t = text ++ rest ∧ ∀ c ∈ text, IsYearChar c := by
    obtain ⟨text, rfl, chars⟩ := behind
    exact ⟨sign :: text, rfl, List.forall_mem_cons.mpr ⟨isSign, chars⟩⟩
  have start : ∃ text, trimStart s = text ++ rest ∧ ∀ c ∈ text, IsYearChar c := by
    rw [readYear?] at read
    split at read
    · rename_i minus
      rw [minus]
      exact signed (Or.inr (Or.inr (Or.inl rfl))) (digits (fun _ => rfl) read)
    · rename_i plus
      rw [plus]
      exact signed (Or.inr (Or.inr (Or.inr rfl))) (digits (fun _ => rfl) read)
    · exact digits (fun _ => rfl) read
  obtain ⟨text, start, chars⟩ := start
  refine ⟨s.takeWhile isBlank ++ text, ?_, ?_⟩
  · rw [List.append_assoc, ← start, trimStart, List.takeWhile_append_dropWhile]
  · exact List.forall_mem_append.mpr ⟨fun c member => Or.inl (mem_takeWhile_blank member), chars⟩

theorem readMark?_eq_some_iff {mark : Char} : readMark? mark s = some rest ↔ s = mark :: rest := by
  cases s with
  | nil => simp [readMark?]
  | cons c tail => simp [readMark?]

theorem readDate?_eq_some {date : Date} (read : readDate? s = some (date, rest)) :
    date.isValid = true ∧ ∃ year month day, s = year ++ '-' :: (month ++ '-' :: (day ++ rest)) ∧
      (∀ c ∈ year, IsYearChar c) ∧ IsField month date.month ∧ IsField day date.day := by
  obtain ⟨⟨_, afterYear⟩, readYear, read⟩ := Option.bind_eq_some_iff.mp read
  obtain ⟨_, firstMark, read⟩ := Option.bind_eq_some_iff.mp read
  obtain ⟨⟨_, afterMonth⟩, readMonth, read⟩ := Option.bind_eq_some_iff.mp read
  obtain ⟨_, secondMark, read⟩ := Option.bind_eq_some_iff.mp read
  obtain ⟨⟨_, afterDay⟩, readDay, read⟩ := Option.bind_eq_some_iff.mp read
  obtain ⟨inRange, same⟩ := Option.ite_none_right_eq_some.mp read
  obtain ⟨rfl, rfl⟩ := Prod.mk.inj (Option.some.inj same)
  obtain ⟨year, rfl, yearChars⟩ := readYear?_eq_some readYear
  obtain rfl := readMark?_eq_some_iff.mp firstMark
  obtain ⟨month, rfl, monthShown⟩ := readField?_eq_some readMonth
  obtain rfl := readMark?_eq_some_iff.mp secondMark
  obtain ⟨day, rfl, dayShown⟩ := readField?_eq_some readDay
  exact ⟨(Bool.and_eq_true_iff.mp inRange).2, year, month, day, rfl, yearChars, monthShown,
    dayShown⟩

inductive IsClock : List Char → Nat → Nat → Nat → Prop where
  | toMinute {hourText minuteText : List Char} {hour minute : Nat}
      (hourShown : IsField hourText hour) (minuteShown : IsField minuteText minute) :
      IsClock ('T' :: (hourText ++ ':' :: minuteText)) hour minute 0
  | toSecond {hourText minuteText secondText : List Char} {hour minute second : Nat}
      (hourShown : IsField hourText hour) (minuteShown : IsField minuteText minute)
      (secondShown : IsField secondText second) :
      IsClock ('T' :: (hourText ++ ':' :: (minuteText ++ ':' :: secondText))) hour minute second

theorem readClock?_eq_some {date : Date} {t : LocalTime} (read : readClock? date s = some t) :
    ∃ hour minute second, IsClock s hour minute second ∧
      ofFields? date hour minute second = some t := by
  obtain ⟨_, mark, read⟩ := Option.bind_eq_some_iff.mp read
  obtain ⟨⟨hour, afterHour⟩, readHour, read⟩ := Option.bind_eq_some_iff.mp read
  obtain ⟨_, firstColon, read⟩ := Option.bind_eq_some_iff.mp read
  obtain ⟨⟨minute, afterMinute⟩, readMinute, finish⟩ := Option.bind_eq_some_iff.mp read
  obtain rfl := readMark?_eq_some_iff.mp mark
  obtain ⟨hourText, rfl, hourShown⟩ := readField?_eq_some readHour
  obtain rfl := readMark?_eq_some_iff.mp firstColon
  obtain ⟨minuteText, rfl, minuteShown⟩ := readField?_eq_some readMinute
  simp only at finish
  split at finish
  · rename_i finished
    rw [List.isEmpty_iff.mp finished, List.append_nil]
    exact ⟨hour, minute, 0, .toMinute hourShown minuteShown, finish⟩
  · obtain ⟨_, secondColon, finish⟩ := Option.bind_eq_some_iff.mp finish
    obtain ⟨⟨second, afterSecond⟩, readSecond, finish⟩ := Option.bind_eq_some_iff.mp finish
    obtain ⟨finished, made⟩ := Option.ite_none_right_eq_some.mp finish
    obtain rfl : afterSecond = [] := List.isEmpty_iff.mp finished
    obtain rfl := readMark?_eq_some_iff.mp secondColon
    obtain ⟨secondText, rfl, secondShown⟩ := readField?_eq_some readSecond
    rw [List.append_nil]
    exact ⟨hour, minute, second, .toSecond hourShown minuteShown secondShown, made⟩

def IsClockChar (c : Char) : Prop := isBlank c = true ∨ c.isDigit = true ∨ c = ':' ∨ c = 'T'

theorem IsClock.chars {clock : List Char} {hour minute second : Nat}
    (shown : IsClock clock hour minute second) : ∀ c ∈ clock, IsClockChar c := by
  have field {field : List Char} {value : Nat} (shown : IsField field value) :
      ∀ c ∈ field, IsClockChar c := fun _ member => (shown.mem member).imp_right Or.inl
  have colon : IsClockChar ':' := Or.inr (Or.inr (Or.inl rfl))
  have mark : IsClockChar 'T' := Or.inr (Or.inr (Or.inr rfl))
  cases shown with
  | toMinute hourShown minuteShown =>
    simp only [List.forall_mem_append, List.forall_mem_cons]
    exact ⟨mark, field hourShown, colon, field minuteShown⟩
  | toSecond hourShown minuteShown secondShown =>
    simp only [List.forall_mem_append, List.forall_mem_cons]
    exact ⟨mark, field hourShown, colon, field minuteShown, colon, field secondShown⟩

theorem IsClock.mark_mem {clock : List Char} {hour minute second : Nat}
    (shown : IsClock clock hour minute second) : 'T' ∈ clock := by
  cases shown <;> exact List.mem_cons_self

theorem ofFields?_eq_some_iff {date : Date} {hour minute second : Nat} {t : LocalTime} :
    ofFields? date hour minute second = some t ↔ hour < 24 ∧ minute < 60 ∧ second ≤ 60 ∧
      ⟨date, hour, minute, Nat.min second 59, if second = 60 then 1000000000 else 0⟩ = t := by
  rw [ofFields?, Option.ite_none_right_eq_some, Option.some.injEq]
  simp only [Bool.and_eq_true, decide_eq_true_eq, and_assoc]

theorem onClock_of_ofFields? {date : Date} {hour minute second : Nat} {t : LocalTime}
    (calendar : date.isValid = true) (made : ofFields? date hour minute second = some t) :
    t.date = date ∧ t.OnClock := by
  obtain ⟨hourBound, minuteBound, _, rfl⟩ := ofFields?_eq_some_iff.mp made
  refine ⟨rfl, calendar, hourBound, minuteBound, ?_, ?_⟩
  · exact Nat.lt_succ_of_le (Nat.min_le_right second 59)
  · by_cases leap : second = 60
    · exact Or.inr ⟨if_pos leap, by rw [leap]; rfl⟩
    · exact Or.inl (if_neg leap)

theorem parse?_eq_some {t : LocalTime} (read : parse? s = some t) : t.OnClock ∧
    ∃ year month day clock, trim s = year ++ '-' :: (month ++ '-' :: (day ++ clock)) ∧
      (∀ c ∈ year, IsYearChar c) ∧ IsField month t.date.month ∧ IsField day t.date.day ∧
      (clock = [] ∧ t.isMidnight = true ∨
        ∃ hour minute second, IsClock clock hour minute second ∧
          ofFields? t.date hour minute second = some t) := by
  obtain ⟨⟨date, clock⟩, readDate, read⟩ := Option.bind_eq_some_iff.mp read
  obtain ⟨calendar, year, month, day, whole, yearChars, monthShown, dayShown⟩ :=
    readDate?_eq_some readDate
  simp only at read
  split at read
  · rename_i finished
    obtain ⟨rfl, shown⟩ := onClock_of_ofFields? calendar read
    have midnight : t.isMidnight = true := by
      rw [← Option.some.inj read]
      rfl
    exact ⟨shown, year, month, day, clock, whole, yearChars, monthShown, dayShown,
      Or.inl ⟨List.isEmpty_iff.mp finished, midnight⟩⟩
  · obtain ⟨hour, minute, second, isClock, made⟩ := readClock?_eq_some read
    obtain ⟨rfl, shown⟩ := onClock_of_ofFields? calendar made
    exact ⟨shown, year, month, day, clock, whole, yearChars, monthShown, dayShown,
      Or.inr ⟨hour, minute, second, isClock, made⟩⟩

/-- Whether a text is a date only, with the month and the day behind its last two dashes. -/
def IsDateText (text : List Char) (month day : Nat) : Prop :=
  ∃ yearText monthText dayText, trim text = yearText ++ '-' :: (monthText ++ '-' :: dayText) ∧
    IsField monthText month ∧ IsField dayText day

theorem parse?_of_isDateText {text : List Char} {month day : Nat} {t : LocalTime}
    (dated : IsDateText text month day) (read : parse? text = some t) :
    t.isMidnight = true ∧ t.date.month = month ∧ t.date.day = day := by
  obtain ⟨yearText, monthText, dayText, written, monthShown, dayShown⟩ := dated
  obtain ⟨_, year, monthRead, dayRead, clock, whole, _, monthReads, dayReads, behind⟩ :=
    parse?_eq_some read
  have noDash {field : List Char} {value : Nat} (shown : IsField field value) : '-' ∉ field :=
    shown.absent rfl rfl
  have clockClean : '-' ∉ clock := by
    rcases behind with ⟨rfl, _⟩ | ⟨_, _, _, isClock, _⟩
    · exact List.not_mem_nil
    · intro member
      rcases isClock.chars '-' member with blank | digit | colon | mark <;> contradiction
  -- Neither text has a dash behind the day, so the last two dashes of both are the same.
  have same : (yearText ++ '-' :: monthText) ++ '-' :: dayText =
      (year ++ '-' :: monthRead) ++ '-' :: (dayRead ++ clock) := by
    simpa [← written] using whole
  obtain ⟨front, rfl⟩ := last_mark_unique same (noDash dayShown)
    (by simp [noDash dayReads, clockClean])
  obtain ⟨_, rfl⟩ := last_mark_unique front (noDash monthShown) (noDash monthReads)
  have sameMonth : t.date.month = month := Option.some.inj (monthReads.symm.trans monthShown)
  rcases behind with ⟨rfl, midnight⟩ | ⟨_, _, _, isClock, _⟩
  · rw [List.append_nil] at dayShown
    exact ⟨midnight, sameMonth, Option.some.inj (dayReads.symm.trans dayShown)⟩
  · -- A clock would put its mark into the text of the day.
    have noMark : 'T' ∉ dayRead ++ clock := dayShown.absent rfl rfl
    exact absurd (List.mem_append_right dayRead isClock.mark_mem) noMark

theorem isDateText_of_parse? {text : List Char} {t : LocalTime} (read : parse? text = some t)
    (clockless : 'T' ∉ text) : IsDateText text t.date.month t.date.day := by
  obtain ⟨_, year, month, day, clock, whole, _, monthShown, dayShown, behind⟩ :=
    parse?_eq_some read
  rcases behind with ⟨rfl, _⟩ | ⟨_, _, _, isClock, _⟩
  · rw [List.append_nil] at whole
    exact ⟨year, month, day, whole, monthShown, dayShown⟩
  · have inTrimmed : 'T' ∈ trim text := by
      rw [whole]
      simp [isClock.mark_mem]
    obtain ⟨front, back, same, _, _⟩ := trim_between_blanks text
    rw [same] at clockless
    simp [inTrimmed] at clockless

/-- Whether the number behind the last colon of a text is 60. -/
def IsLeapText (text : List Char) : Prop :=
  ∃ front second, trim text = front ++ ':' :: second ∧ IsField second 60

theorem parse?_of_isLeapText {text : List Char} {t : LocalTime} (sixty : IsLeapText text)
    (read : parse? text = some t) : t.nanoseconds = 1000000000 := by
  obtain ⟨front, sixtyText, written, sixtyShown⟩ := sixty
  obtain ⟨_, year, month, day, clock, whole, yearChars, monthShown, dayShown, behind⟩ :=
    parse?_eq_some read
  rw [written] at whole
  have noColon {field : List Char} {value : Nat} (shown : IsField field value) : ':' ∉ field :=
    shown.absent rfl rfl
  have lastField {before field : List Char} {value : Nat} (shown : IsField field value)
      (same : front ++ ':' :: sixtyText = before ++ ':' :: field) : value = 60 := by
    obtain ⟨_, rfl⟩ := last_mark_unique same (noColon sixtyShown) (noColon shown)
    exact Option.some.inj (shown.symm.trans sixtyShown)
  rcases behind with ⟨rfl, _⟩ | ⟨hour, minute, second, isClock, made⟩
  · -- A date has no colon.
    have inYear : ':' ∉ year := by
      intro member
      rcases yearChars ':' member with blank | digit | minus | plus <;> contradiction
    have colon : ':' ∈ year ++ '-' :: (month ++ '-' :: (day ++ [])) := by
      rw [← whole]
      simp
    simp [inYear, noColon monthShown, noColon dayShown] at colon
  · obtain ⟨_, minuteBound, _, same⟩ := ofFields?_eq_some_iff.mp made
    rw [← same]
    cases isClock with
    | @toMinute hourText minuteText _ _ hourShown minuteShown =>
      have before : front ++ ':' :: sixtyText =
          (year ++ '-' :: (month ++ '-' :: (day ++ 'T' :: hourText))) ++ ':' :: minuteText := by
        simpa using whole
      exact absurd (lastField minuteShown before) (Nat.ne_of_lt minuteBound)
    | @toSecond hourText minuteText secondText _ _ _ hourShown minuteShown secondShown =>
      have before : front ++ ':' :: sixtyText = (year ++ '-' :: (month ++ '-' :: (day ++
          'T' :: (hourText ++ ':' :: minuteText)))) ++ ':' :: secondText := by
        simpa using whole
      exact if_pos (lastField secondShown before)

end AggregateQuery.LocalTime
