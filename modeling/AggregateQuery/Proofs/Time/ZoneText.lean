import AggregateQuery.Proofs.Data.Reading
import AggregateQuery.Proofs.Number.WrittenDigits
import AggregateQuery.Proofs.Text.Cutting
import AggregateQuery.Time.Interval
/-!
The texts of zones. Behind a sign stand hours and minutes, in one of three layouts. What is read for
them may have a sign of its own, which no documented form has: a text is of a documented form
exactly when it is read and has no sign but the first.
-/
namespace AggregateQuery

open Text

def WritesDigits (text : List Char) (value : Nat) : Prop :=
  text ≠ [] ∧ (∀ c ∈ text, c.isDigit = true) ∧ digitsValue text = value

/-- The texts that are read as a number that is not negative. A minus sign leaves only zero. -/
inductive WritesCount : List Char → Nat → Prop where
  | unsigned {digits : List Char} {value : Nat} (run : WritesDigits digits value) :
    WritesCount digits value
  | plus {digits : List Char} {value : Nat} (run : WritesDigits digits value) :
    WritesCount ('+' :: digits) value
  | minus {digits : List Char} (run : WritesDigits digits 0) : WritesCount ('-' :: digits) 0

theorem WritesDigits.padded (width value : Nat) : WritesDigits (paddedChars width value) value :=
  ⟨paddedChars_ne_nil width value, digits_paddedChars width value,
    digitsValue_paddedChars width value⟩

theorem WritesDigits.absent {digits : List Char} {value : Nat} {c : Char}
    (run : WritesDigits digits value) (other : c.isDigit = false) : c ∉ digits :=
  not_digit_mem run.2.1 other

theorem WritesCount.absent {text : List Char} {value : Nat} {c : Char}
    (count : WritesCount text value) (other : c.isDigit = false) (notPlus : c ≠ '+')
    (notMinus : c ≠ '-') : c ∉ text := by
  cases count with
  | unsigned run => exact run.absent other
  | plus run => simp [notPlus, run.absent other]
  | minus run => simp [notMinus, run.absent other]

theorem WritesCount.unsigned_of {text : List Char} {value : Nat} (count : WritesCount text value)
    (noPlus : '+' ∉ text) (noMinus : '-' ∉ text) : WritesDigits text value := by
  cases count with
  | unsigned run => exact run
  | plus run => simp at noPlus
  | minus run => simp at noMinus

theorem readInt?_eq_some_iff {text : List Char} {value : Nat} :
    readInt? text = some (value : Int) ↔ WritesCount text value := by
  constructor
  · intro read
    unfold readInt? at read
    split at read
    · obtain ⟨n, number, same⟩ := Option.map_eq_some_iff.mp read
      obtain rfl : n = value := Int.ofNat.inj same
      exact .plus (readDigits?_eq_some_iff.mp number)
    · obtain ⟨_, lifted, same⟩ := Option.map_eq_some_iff.mp read
      obtain ⟨n, number, whole⟩ := Option.bind_eq_some_iff.mp lifted
      obtain rfl := Option.some.inj whole
      obtain ⟨rfl, rfl⟩ : n = 0 ∧ value = 0 := by omega
      exact .minus (readDigits?_eq_some_iff.mp number)
    · obtain ⟨n, number, same⟩ := Option.map_eq_some_iff.mp read
      obtain rfl : n = value := Int.ofNat.inj same
      exact .unsigned (readDigits?_eq_some_iff.mp number)
  · intro count
    cases count with
    | unsigned run =>
      have number := readDigits?_eq_some_iff.mpr run
      rw [readInt?]
      · rw [number]
        rfl
      · rintro digits rfl
        exact run.absent rfl List.mem_cons_self
      · rintro digits rfl
        exact run.absent rfl List.mem_cons_self
    | plus run => simp [readInt?, readDigits?_eq_some_iff.mpr run]
    | minus run => simp [readInt?, readDigits?_eq_some_iff.mpr run]

/-- Where hours and minutes stand behind the sign of an offset. Without minutes there are none. -/
inductive ClockLayout (hours minutes : List Char) : List Char → Prop where
  | colon : ClockLayout hours minutes (hours ++ ':' :: minutes)
  | fourCharacters (two : hours.length = 2) (twoMore : minutes.length = 2) :
    ClockLayout hours minutes (hours ++ minutes)
  | hoursOnly (notFour : hours.length ≠ 4) (none : minutes = ['0']) :
    ClockLayout hours minutes hours

variable {hours minutes text : List Char}

theorem ClockLayout.mem_of_mem_hours {c : Char} (layout : ClockLayout hours minutes text)
    (member : c ∈ hours) : c ∈ text := by
  cases layout with
  | hoursOnly => exact member
  | _ => exact List.mem_append_left _ member

theorem ClockLayout.mem_of_mem_minutes {c : Char} (layout : ClockLayout hours minutes text)
    (member : c ∈ minutes) (other : c ≠ '0') : c ∈ text := by
  cases layout with
  | colon => simp [member]
  | fourCharacters => simp [member]
  | hoursOnly _ none =>
    rw [none] at member
    exact absurd (List.mem_singleton.mp member) other

theorem ClockLayout.mem {c : Char} (layout : ClockLayout hours minutes text) (member : c ∈ text) :
    c = ':' ∨ c ∈ hours ∨ c ∈ minutes := by
  cases layout with
  | colon =>
    rcases List.mem_append.mp member with inHours | behind
    · exact Or.inr (Or.inl inHours)
    · exact (List.mem_cons.mp behind).imp_right Or.inr
  | fourCharacters => exact Or.inr (List.mem_append.mp member)
  | hoursOnly => exact Or.inr (Or.inl member)

namespace Zone

theorem clockParts_eq_iff (cleanHours : ':' ∉ hours) (cleanMinutes : ':' ∉ minutes) :
    clockParts text = (hours, minutes) ↔ ClockLayout hours minutes text := by
  constructor
  · intro parts
    rw [clockParts] at parts
    split at parts
    · rename_i front back cut
      obtain ⟨rfl, rfl⟩ := Prod.mk.inj parts
      obtain ⟨rfl, _⟩ := cut?_eq_some_iff.mp cut
      exact .colon
    · split at parts
      · rename_i four
        obtain ⟨rfl, rfl⟩ := Prod.mk.inj parts
        have layout : ClockLayout (text.take 2) (text.drop 2) (text.take 2 ++ text.drop 2) :=
          .fourCharacters (by simp [four]) (by simp [four])
        rwa [List.take_append_drop] at layout
      · rename_i notFour
        obtain ⟨rfl, rfl⟩ := Prod.mk.inj parts
        exact .hoursOnly notFour rfl
  · intro layout
    cases layout with
    | colon => rw [clockParts, cut?_append ':' _ _ cleanHours]
    | fourCharacters two twoMore =>
      have uncut : cut? ':' (hours ++ minutes) = none :=
        (cut?_eq_none_iff ':' _).mpr (by simp [cleanHours, cleanMinutes])
      simp [clockParts, uncut, two, twoMore]
    | hoursOnly notFour none =>
      rw [clockParts, (cut?_eq_none_iff ':' _).mpr cleanHours]
      simp [notFour, none]

theorem ofClock?_eq_some_iff {negative : Bool} {hours minutes : Int} {z : Zone} :
    ofClock? negative hours minutes = some z ↔
      (0 ≤ hours ∧ hours ≤ 23 ∧ 0 ≤ minutes ∧ minutes ≤ 59) ∧
        z.seconds = (if negative then -1 else 1) * (3600 * hours + 60 * minutes) := by
  obtain ⟨offset, above, below⟩ := z
  rw [ofClock?]
  split
  · rename_i bounds
    cases negative <;> simp [seconds, bounds] <;> omega
  · rename_i outside
    simp [outside]

/-- The texts of zones without outer blanks: a name of UTC in any letter case, or a sign and a
clock, where `Part` tells what can stand for a number of hours or minutes. -/
inductive HasForm (Part : List Char → Nat → Prop) : List Char → Zone → Prop where
  | name {text : List Char} (known : lower text ∈ ["utc".toList, "gmt".toList, "z".toList]) :
    HasForm Part text utc
  | offset {hoursText minutesText clock : List Char} {hours minutes : Nat} {z : Zone}
      (negative : Bool) (layout : ClockLayout hoursText minutesText clock)
      (hoursRead : Part hoursText hours) (minutesRead : Part minutesText minutes)
      (hoursBound : hours ≤ 23) (minutesBound : minutes ≤ 59)
      (counts : z.seconds = (if negative then -1 else 1) * (3600 * hours + 60 * minutes)) :
    HasForm Part ((if negative then '-' else '+') :: clock) z

theorem isUtcName_iff : isUtcName text = true ↔
    lower text ∈ ["utc".toList, "gmt".toList, "z".toList] := by
  have names : lower "UTC".toList = "utc".toList ∧ lower "GMT".toList = "gmt".toList ∧
    lower "Z".toList = "z".toList := by decide
  simp only [isUtcName, sameKeyword, names, Bool.or_eq_true, beq_iff_eq, List.mem_cons,
    List.not_mem_nil, or_false, or_assoc]

theorem readClock?_eq_some_iff {negative : Bool} {clock : List Char} {z : Zone} :
    readClock? negative clock = some z ↔
      HasForm WritesCount ((if negative then '-' else '+') :: clock) z := by
  have colon {part : List Char} {value : Nat} (count : WritesCount part value) : ':' ∉ part :=
    count.absent rfl (by decide) (by decide)
  constructor
  · intro read
    obtain ⟨hours, readHours, read⟩ := Option.bind_eq_some_iff.mp read
    obtain ⟨minutes, readMinutes, made⟩ := Option.bind_eq_some_iff.mp read
    obtain ⟨⟨hoursFrom, hoursTo, minutesFrom, minutesTo⟩, counts⟩ := ofClock?_eq_some_iff.mp made
    obtain ⟨hours, rfl⟩ := Int.eq_ofNat_of_zero_le hoursFrom
    obtain ⟨minutes, rfl⟩ := Int.eq_ofNat_of_zero_le minutesFrom
    have hoursCount := readInt?_eq_some_iff.mp readHours
    have minutesCount := readInt?_eq_some_iff.mp readMinutes
    have layout := (clockParts_eq_iff (colon hoursCount) (colon minutesCount)).mp rfl
    exact .offset negative layout hoursCount minutesCount (by omega) (by omega) counts
  · intro form
    generalize whole : (if negative then '-' else '+') :: clock = text at form
    cases form with
    | name known =>
      rw [← whole] at known
      cases negative <;> simp [lower] at known
    | offset sign layout hoursRead minutesRead hoursBound minutesBound counts =>
      obtain ⟨same, rfl⟩ := List.cons.inj whole
      obtain rfl : negative = sign := by
        revert same
        cases negative <;> cases sign <;> decide
      have parts := (clockParts_eq_iff (colon hoursRead) (colon minutesRead)).mpr layout
      rw [readClock?, parts]
      simp only [readInt?_eq_some_iff.mpr hoursRead, readInt?_eq_some_iff.mpr minutesRead,
        Option.bind_eq_bind, Option.bind_some]
      exact ofClock?_eq_some_iff.mpr ⟨by omega, counts⟩

theorem parse_eq_ok_iff {text : String} {z : Zone} :
    parse text = .ok z ↔ HasForm WritesCount (trim text.toList) z := by
  have read : parse text = .ok z ↔ parse? text.toList = some z := by
    rw [parse, readTime]
    cases parse? text.toList <;> simp
  rw [read, parse?]
  generalize trim text.toList = trimmed
  constructor
  · intro found
    split at found
    · rename_i known
      obtain rfl := Option.some.inj found
      exact .name (isUtcName_iff.mp known)
    · split at found
      · exact readClock?_eq_some_iff.mp found
      · exact readClock?_eq_some_iff.mp found
      · contradiction
  · intro form
    have reads := form
    cases form with
    | name known => rw [if_pos (isUtcName_iff.mpr known)]
    | @offset _ _ clock _ _ _ negative =>
      have clockRead := readClock?_eq_some_iff.mpr reads
      have notName : isUtcName ((if negative then '-' else '+') :: clock) = false := by
        cases negative <;> simp [isUtcName, sameKeyword, lower]
      rw [notName]
      cases negative <;> exact clockRead

def OneSign (text : List Char) : Prop := '+' ∉ text.tail ∧ '-' ∉ text.tail

theorem oneSign_of_name {text : List Char}
    (known : lower text ∈ ["utc".toList, "gmt".toList, "z".toList]) : OneSign text := by
  have absent {sign : Char} (same : sign.toLower = sign)
      (none : ∀ name ∈ ["utc".toList, "gmt".toList, "z".toList], sign ∉ name) :
      sign ∉ text.tail := by
    intro member
    exact none _ known (mem_lower same (List.mem_of_mem_tail member))
  exact ⟨absent rfl (by decide), absent rfl (by decide)⟩

theorem HasForm.oneSign {text : List Char} {z : Zone} (form : HasForm WritesDigits text z) :
    OneSign text := by
  cases form with
  | name known => exact oneSign_of_name known
  | @offset _ _ clock _ _ _ negative layout hoursRead minutesRead =>
    have absent {sign : Char} (notColon : sign ≠ ':') (other : sign.isDigit = false) :
        sign ∉ clock := by
      intro member
      rcases layout.mem member with colon | inHours | inMinutes
      · exact notColon colon
      · exact hoursRead.absent other inHours
      · exact minutesRead.absent other inMinutes
    exact ⟨absent (by decide) rfl, absent (by decide) rfl⟩

theorem HasForm.signed {text : List Char} {z : Zone} (form : HasForm WritesDigits text z) :
    HasForm WritesCount text z := by
  cases form with
  | name known => exact .name known
  | offset negative layout hoursRead minutesRead hoursBound minutesBound counts =>
    exact .offset negative layout (.unsigned hoursRead) (.unsigned minutesRead) hoursBound
      minutesBound counts

theorem HasForm.unsigned {text : List Char} {z : Zone} (form : HasForm WritesCount text z)
    (once : OneSign text) : HasForm WritesDigits text z := by
  cases form with
  | name known => exact .name known
  | offset negative layout hoursRead minutesRead hoursBound minutesBound counts =>
    obtain ⟨noPlus, noMinus⟩ := once
    have hoursRun := hoursRead.unsigned_of (fun plus => noPlus (layout.mem_of_mem_hours plus))
      (fun minus => noMinus (layout.mem_of_mem_hours minus))
    have minutesRun := minutesRead.unsigned_of
      (fun plus => noPlus (layout.mem_of_mem_minutes plus (by decide)))
      (fun minus => noMinus (layout.mem_of_mem_minutes minus (by decide)))
    exact .offset negative layout hoursRun minutesRun hoursBound minutesBound counts

/-- Hours and minutes are read with signs of their own. Without these, exactly the documented forms
are read, each as the zone that it says. -/
theorem documented_iff_read_with_one_sign (text : String) (z : Zone) :
    (parse text = .ok z ↔ HasForm WritesCount (trim text.toList) z) ∧
    (HasForm WritesDigits (trim text.toList) z ↔
      parse text = .ok z ∧ OneSign (trim text.toList)) := by
  refine ⟨parse_eq_ok_iff, ?_, ?_⟩
  · intro form
    exact ⟨parse_eq_ok_iff.mpr form.signed, form.oneSign⟩
  · rintro ⟨read, once⟩
    exact (parse_eq_ok_iff.mp read).unsigned once

/-- Of the three signs here the documentation knows the first only. -/
theorem second_sign_read : parse "-+5:-0" = .ok ⟨-300, by decide, by decide⟩ ∧
    ∀ z, ¬HasForm WritesDigits (trim "-+5:-0".toList) z := by
  refine ⟨rfl, fun z form => ?_⟩
  exact form.oneSign.1 (by decide)

end Zone

end AggregateQuery
