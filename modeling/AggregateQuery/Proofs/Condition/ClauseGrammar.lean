import AggregateQuery.Proofs.Condition.WrittenFilter
import AggregateQuery.Proofs.Text.EscapedBytes
/-!
The grammar of clauses. It is given without a reader, by what stands between outer blanks, brackets
and commas; a text reads as a clause exactly when it spells the clause, and it spells no other.
-/
namespace AggregateQuery.Clause

open Text

/-- Whether a piece of a list stands for a value: its escapes are whole, and with their bytes in
place it is the value in UTF-8. -/
def WritesValue (piece : List Char) (value : String) : Prop :=
  ∃ core, TrimsTo piece core ∧ core ≠ [] ∧ Percent.WellEscaped core ∧
    value.toUTF8 = (Percent.bytes core).toByteArray

inductive WritesValues : List Char → List String → Prop where
  | none : WritesValues [] []
  | some {pieces : List (List Char)} {values : List String} (inhabited : pieces ≠ [])
      (whole : ∀ piece ∈ pieces, ',' ∉ piece) (each : List.Forall₂ WritesValue pieces values) :
    WritesValues (joinWith ',' pieces) values

structure WritesHead (subject operation : String) : Prop where
  subject : NameAvoids ['-', '[', ']', ','] subject
  inhabited : operation ≠ ""
  letters : ∀ c ∈ operation.toList, 'A' ≤ c ∧ c ≤ 'Z' ∨ 'a' ≤ c ∧ c ≤ 'z'

inductive Writes : List Char → Clause → Prop where
  | bare {subject operation : String} (head : WritesHead subject operation) :
    Writes (subject.toList ++ '-' :: operation.toList) ⟨subject, operation, none⟩
  | listed {subject operation : String} {inner : List Char} {values : List String}
      (head : WritesHead subject operation) (opening : '[' ∉ inner) (closing : ']' ∉ inner)
      (lists : WritesValues inner values) :
    Writes (subject.toList ++ '-' :: operation.toList ++ '[' :: inner ++ [']'])
      ⟨subject, operation, some values⟩

def Spells (text : List Char) (clause : Clause) : Prop :=
  ∃ core, TrimsTo text core ∧ Writes core clause

theorem isAlpha_iff (c : Char) :
    c.isAlpha = true ↔ 'A' ≤ c ∧ c ≤ 'Z' ∨ 'a' ≤ c ∧ c ≤ 'z' := by
  change (decide ('A' ≤ c ∧ c ≤ 'Z') || (decide ('a' ≤ c) && decide (c ≤ 'z'))) = true ↔ _
  simp

theorem isHead_iff {subject operation : String} :
    IsHead subject.toList operation.toList ↔ WritesHead subject operation := by
  constructor
  · intro valid
    refine ⟨avoids_iff_subjectChars.mpr ⟨?_, valid.subjectChars⟩, ?_, ?_⟩
    · simpa using valid.someSubject
    · simpa using valid.someOperation
    · exact fun c member => (isAlpha_iff c).mp (valid.letters c member)
  · intro head
    obtain ⟨some, subjectChars⟩ := avoids_iff_subjectChars.mp head.subject
    refine ⟨by simpa using some, subjectChars, by simpa using head.inhabited, ?_⟩
    exact fun c member => (isAlpha_iff c).mpr (head.letters c member)

theorem toUTF8_eq_iff {value : String} {bytes : List UInt8} :
    value.toUTF8 = bytes.toByteArray ↔ bytes = value.toList.flatMap String.utf8EncodeChar := by
  rw [String.toUTF8_eq_toByteArray, ← String.utf8Encode_toList, List.utf8Encode,
    List.toByteArray_inj, eq_comm]

theorem decodeValue_trim_eq_ok_iff {piece : List Char} {value : String} :
    decodeValue (trim piece) = .ok value ↔ WritesValue piece value := by
  simp only [decodeValue_eq_ok_iff, WritesValue, trimsTo_iff, exists_eq_left', toUTF8_eq_iff,
    Percent.unescape?_eq_some_iff]

theorem WritesValue.ne_nil {piece : List Char} {value : String} (writes : WritesValue piece value) :
    piece ≠ [] := by
  obtain ⟨core, trims, some, _⟩ := writes
  rintro rfl
  exact some (trimsTo_iff.mp trims).symm

theorem joined_ne_nil {pieces : List (List Char)} {values : List String} (inhabited : pieces ≠ [])
    (each : List.Forall₂ WritesValue pieces values) : joinWith ',' pieces ≠ [] := by
  cases each with
  | nil => contradiction
  | cons first _ => exact joinWith_ne_nil List.mem_cons_self first.ne_nil

theorem decodeValues_eq_ok_iff {inner : List Char} {values : List String} :
    decodeValues inner = .ok values ↔ WritesValues inner values := by
  rw [decodeValues]
  split
  · rename_i nothing
    constructor
    · intro read
      obtain rfl := Except.ok.inj read
      exact List.isEmpty_iff.mp nothing ▸ .none
    · rintro (_ | ⟨inhabited, whole, each⟩)
      · rfl
      · exact absurd (List.isEmpty_iff.mp nothing) (joined_ne_nil inhabited each)
  · rename_i something
    rw [mapM_eq_ok_iff_forall₂]
    simp only [decodeValue_trim_eq_ok_iff]
    constructor
    · intro each
      obtain ⟨inhabited, whole, joined⟩ := splitOn_eq_iff.mp (rfl : splitOn ',' inner = _)
      exact joined ▸ .some inhabited whole each
    · rintro (_ | ⟨inhabited, whole, each⟩)
      · contradiction
      · rwa [splitOn_joinWith ',' _ whole inhabited]

theorem ofChars_eq_ok_iff_spells {text : List Char} {clause : Clause} :
    ofChars text = .ok clause ↔ Spells text clause := by
  rw [ofChars_eq_ok_iff, isHead_iff]
  simp only [Spells, trimsTo_iff, exists_eq_left']
  constructor
  · rintro ⟨head, tail, whole, reads⟩
    rw [whole]
    obtain ⟨subject, operation, values⟩ := clause
    cases reads with
    | absent => simpa [headChars] using Writes.bare head
    | listed inner values opening closing decoded =>
      simpa [headChars] using Writes.listed head opening closing (decodeValues_eq_ok_iff.mp decoded)
  · intro writes
    generalize trim text = core at writes
    cases writes with
    | bare head => exact ⟨head, [], by simp [headChars], .absent⟩
    | @listed _ _ inner values head opening closing lists =>
      have decoded := decodeValues_eq_ok_iff.mpr lists
      exact ⟨head, _, by simp [headChars], .listed inner values opening closing decoded⟩

/-- A text is read as a clause exactly when it spells the clause; it spells one clause at most, and
in a text that spells none a fault is found. -/
theorem parse_spelled_clauses (text : String) :
    (∀ clause, parse text = .ok clause ↔ Spells text.toList clause) ∧
    (∀ clause other, Spells text.toList clause → Spells text.toList other → clause = other) ∧
    ((∃ fault, parse text = .error fault) ↔ ∀ clause, ¬Spells text.toList clause) := by
  have spelled (clause : Clause) : parse text = .ok clause ↔ Spells text.toList clause :=
    ofChars_eq_ok_iff_spells
  refine ⟨spelled, ?_, ?_⟩
  · intro clause other spells spellsToo
    have read := (spelled clause).mpr spells
    exact Except.ok.inj (read.symm.trans ((spelled other).mpr spellsToo))
  · simp only [← spelled]
    cases parse text <;> simp

theorem one_list_spelled_and_one_not :
    (∀ clause, Spells " region-in[ %C3%A9é%2c ,%F0%9F%98%80]\t".toList clause ↔
      clause = ⟨"region", "in", some ["éé,", "😀"]⟩) ∧
    ∀ clause, ¬Spells "region-in[%4%31]".toList clause := by
  obtain ⟨reads, unique, _⟩ := parse_spelled_clauses " region-in[ %C3%A9é%2c ,%F0%9F%98%80]\t"
  obtain ⟨_, _, faulty⟩ := parse_spelled_clauses "region-in[%4%31]"
  have spelled := (reads ⟨"region", "in", some ["éé,", "😀"]⟩).mp (by decide +kernel)
  refine ⟨?_, faulty.mp ⟨.badEscape "%4%31", by decide +kernel⟩⟩
  intro clause
  constructor
  · intro spells
    exact unique clause _ spells spelled
  · rintro rfl
    exact spelled

end AggregateQuery.Clause
