import AggregateQuery.Time.Calendar
/-!
Dates and day numbers. Every day has one date of the calendar, and every date of the calendar has
one day.
-/
namespace AggregateQuery.Date

theorem yearStart_eq (year : Int) : yearStart year =
    365 * (year - 1) + (year - 1) / 4 - (year - 1) / 100 + (year - 1) / 400 - 719162 := rfl

theorem yearStart_succ (year : Int) :
    yearStart (year + 1) = yearStart year + if isLeapYear year then 366 else 365 := by
  simp only [yearStart_eq, isLeapYear, Bool.and_eq_true, Bool.or_eq_true, beq_iff_eq, bne_iff_ne]
  split <;> omega

theorem yearStart_lt_iff {a b : Int} : yearStart a < yearStart b ↔ a < b := by
  rw [yearStart_eq, yearStart_eq]
  omega

theorem day_in_yearOfDay (day : Int) :
    yearStart (yearOfDay day) ≤ day ∧ day < yearStart (yearOfDay day + 1) := by
  rw [yearOfDay]
  generalize estimated : (day + 719162) * 400 / 146097 + 1 = estimate
  -- Leap years come up to two days early or late of their mean, which is less than a year.
  have notBefore : yearStart (estimate - 1) ≤ day := by
    rw [yearStart_eq]
    omega
  have notBehind : day < yearStart (estimate + 1 + 1) := by
    rw [yearStart_eq]
    omega
  split
  · rename_i early
    exact ⟨notBefore, by rwa [Int.sub_add_cancel]⟩
  · split
    · rename_i late
      exact ⟨late, notBehind⟩
    · omega

theorem yearOfDay_eq {day year : Int} (begun : yearStart year ≤ day)
    (unfinished : day < yearStart (year + 1)) : yearOfDay day = year := by
  obtain ⟨begunToo, unfinishedToo⟩ := day_in_yearOfDay day
  have before : year < yearOfDay day + 1 :=
    yearStart_lt_iff.mp (Int.lt_of_le_of_lt begun unfinishedToo)
  have behind : yearOfDay day < year + 1 :=
    yearStart_lt_iff.mp (Int.lt_of_le_of_lt begunToo unfinished)
  omega

theorem foldl_add_cons (length : Nat) (lengths : List Nat) :
    (length :: lengths).foldl (· + ·) 0 = length + lengths.foldl (· + ·) 0 := by
  rw [List.foldl_cons, Nat.add_comm 0 length, List.foldl_assoc]

/-- The month that is found and the day in it say how many days were counted off. -/
theorem monthAndDay_counts (month : Nat) {lengths : List Nat} {rest : Nat}
    (within : rest < lengths.foldl (· + ·) 0) :
    ∃ past day, monthAndDay month lengths rest = (month + past, day) ∧ past < lengths.length ∧
      1 ≤ day ∧ day ≤ lengths.getD past 0 ∧
      (lengths.take past).foldl (· + ·) 0 + (day - 1) = rest := by
  induction lengths generalizing month rest with
  | nil => simp at within
  | cons length lengths ih =>
    rw [foldl_add_cons] at within
    rw [monthAndDay]
    split
    · rename_i here
      exact ⟨0, rest + 1, rfl, Nat.zero_lt_succ _, Nat.le_add_left 1 rest,
        by simpa using Nat.succ_le_of_lt here, by simp⟩
    · rename_i later
      obtain ⟨past, day, found, inside, first, last, counted⟩ :=
        ih (month + 1) (by omega : rest - length < lengths.foldl (· + ·) 0)
      refine ⟨past + 1, day, ?_, Nat.succ_lt_succ inside, first, by simpa using last, ?_⟩
      · rw [found, Nat.add_assoc, Nat.add_comm 1 past]
      · rw [List.take_succ_cons, foldl_add_cons]
        omega

/-- A day of a month is found again from the days before it. -/
theorem monthAndDay_of_counted (month : Nat) {lengths : List Nat} {past day : Nat} (first : 1 ≤ day)
    (last : day ≤ lengths.getD past 0) :
    monthAndDay month lengths ((lengths.take past).foldl (· + ·) 0 + (day - 1)) =
      (month + past, day) ∧
    (lengths.take past).foldl (· + ·) 0 + (day - 1) < lengths.foldl (· + ·) 0 := by
  induction lengths generalizing month past with
  | nil =>
    simp at last
    omega
  | cons length lengths ih =>
    rw [foldl_add_cons, monthAndDay]
    cases past with
    | zero =>
      have here : day ≤ length := by simpa using last
      rw [List.take_zero, List.foldl_nil, Nat.zero_add, if_pos (by omega),
        Nat.sub_add_cancel first]
      exact ⟨rfl, by omega⟩
    | succ past =>
      obtain ⟨found, inside⟩ := ih (month + 1) (by simpa using last : day ≤ lengths.getD past 0)
      rw [List.take_succ_cons, foldl_add_cons, Nat.add_assoc, if_neg (by omega),
        Nat.add_sub_cancel_left, found, Nat.add_assoc, Nat.add_comm 1 past]
      exact ⟨rfl, by omega⟩

theorem yearStart_succ_eq (year : Int) : yearStart (year + 1) =
    yearStart year + ((monthLengths (isLeapYear year)).foldl (· + ·) 0 : Nat) := by
  rw [yearStart_succ]
  cases isLeapYear year <;> rfl

theorem isValid_iff {d : Date} : d.isValid = true ↔ 1 ≤ d.month ∧ d.month ≤ 12 ∧ 1 ≤ d.day ∧
    d.day ≤ (monthLengths (isLeapYear d.year)).getD (d.month - 1) 0 := by
  simp only [isValid, Bool.and_eq_true, decide_eq_true_eq, and_assoc]
  refine and_congr_right fun some => ?_
  rw [monthLength, if_neg (Nat.ne_of_gt some)]

theorem day_le_of_isValid {d : Date} (valid : d.isValid = true) : d.day ≤ 31 := by
  obtain ⟨_, _, _, last⟩ := isValid_iff.mp valid
  have lengths : ∀ length ∈ monthLengths (isLeapYear d.year), length ≤ 31 := by
    cases isLeapYear d.year <;> decide
  rw [List.getD_eq_getElem?_getD] at last
  cases length : (monthLengths (isLeapYear d.year))[d.month - 1]? with
  | none =>
    rw [length] at last
    exact Nat.le_trans last (Nat.zero_le 31)
  | some days =>
    rw [length] at last
    exact Nat.le_trans last (lengths days (List.mem_of_getElem? length))

theorem isValid_first_of_month {month : Nat} (some : 1 ≤ month) (last : month ≤ 12) (year : Int) :
    isValid ⟨year, month, 1⟩ = true := by
  have lengths : ∀ length ∈ monthLengths (isLeapYear year), 1 ≤ length := by
    cases isLeapYear year <;> decide
  have within : month - 1 < (monthLengths (isLeapYear year)).length := by
    change month - 1 < 12
    omega
  refine isValid_iff.mpr ⟨some, last, Nat.le_refl 1, ?_⟩
  rw [List.getD_eq_getElem?_getD, List.getElem?_eq_getElem within]
  exact lengths _ (List.getElem_mem within)

theorem toDays_eq (d : Date) : d.toDays = yearStart d.year +
    (((monthLengths (isLeapYear d.year)).take (d.month - 1)).foldl (· + ·) 0 + (d.day - 1) : Nat) :=
  rfl

theorem dayOfYear_eq_zero_iff {d : Date} (valid : d.isValid = true) :
    d.dayOfYear = 0 ↔ d.month = 1 ∧ d.day = 1 := by
  obtain ⟨some, _, first, _⟩ := isValid_iff.mp valid
  have counted : d.dayOfYear =
      ((monthLengths (isLeapYear d.year)).take (d.month - 1)).foldl (· + ·) 0 + (d.day - 1) := rfl
  constructor
  · intro none
    obtain ⟨later, shift⟩ := Nat.exists_eq_add_of_le some
    cases later with
    | zero => omega
    | succ later =>
      rw [counted, shift, Nat.add_sub_cancel_left, monthLengths, List.take_succ_cons,
        foldl_add_cons] at none
      omega
  · rintro ⟨january, firstDay⟩
    rw [counted, january, firstDay]
    rfl

theorem year_ofDays (day : Int) : (ofDays day).year = yearOfDay day := by rw [ofDays]

theorem valid_and_toDays_ofDays (day : Int) :
    (ofDays day).isValid = true ∧ (ofDays day).toDays = day := by
  obtain ⟨begun, unfinished⟩ := day_in_yearOfDay day
  rw [yearStart_succ_eq] at unfinished
  have within : (day - yearStart (yearOfDay day)).toNat <
      (monthLengths (isLeapYear (yearOfDay day))).foldl (· + ·) 0 := by omega
  obtain ⟨past, dayOfMonth, found, inside, first, last, counted⟩ := monthAndDay_counts 1 within
  have whole : ofDays day = ⟨yearOfDay day, 1 + past, dayOfMonth⟩ := by
    rw [ofDays, found]
  have months : (monthLengths (isLeapYear (yearOfDay day))).length = 12 := rfl
  rw [whole, isValid_iff, toDays_eq]
  simp only [Nat.add_sub_cancel_left, counted]
  omega

theorem isValid_ofDays (day : Int) : (ofDays day).isValid = true :=
  (valid_and_toDays_ofDays day).1

theorem toDays_ofDays (day : Int) : (ofDays day).toDays = day :=
  (valid_and_toDays_ofDays day).2

theorem ofDays_toDays {d : Date} (valid : d.isValid = true) : ofDays d.toDays = d := by
  obtain ⟨some, _, first, last⟩ := isValid_iff.mp valid
  obtain ⟨found, inside⟩ := monthAndDay_of_counted 1 first last
  have inYear : yearOfDay d.toDays = d.year := by
    refine yearOfDay_eq ?_ ?_
    · rw [toDays_eq]
      omega
    · rw [toDays_eq, yearStart_succ_eq]
      omega
  rw [ofDays, inYear]
  have ordinal : (d.toDays - yearStart d.year).toNat =
      ((monthLengths (isLeapYear d.year)).take (d.month - 1)).foldl (· + ·) 0 + (d.day - 1) := by
    rw [toDays_eq]
    omega
  rw [ordinal, found, Nat.add_sub_cancel' some]

end AggregateQuery.Date
