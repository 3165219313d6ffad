import AggregateQuery.Condition.Clause
import AggregateQuery.Proofs.Data.Reading
import AggregateQuery.Proofs.Text.Escapes
import AggregateQuery.Proofs.Text.Nesting
/-!
The texts that are clauses. A text reads as a clause exactly when it is, between blanks, the head
of the clause and then nothing or a list in brackets that decodes to its values; so written values
are read back unless one of them is empty, and no clause leaves a bracket open.
-/
namespace AggregateQuery.Clause

open Text

def headChars (c : Clause) : List Char := c.subject.toList ++ '-' :: c.operation.toList

structure IsHead (subject operation : List Char) : Prop where
  someSubject : subject ≠ []
  subjectChars : ∀ c ∈ subject, isSubjectChar c = true
  someOperation : operation ≠ []
  letters : ∀ c ∈ operation, c.isAlpha = true

inductive ReadsValues : List Char → Option (List String) → Prop where
  | absent : ReadsValues [] none
  | listed (inner : List Char) (values : List String) (opening : '[' ∉ inner)
      (closing : ']' ∉ inner) (decoded : decodeValues inner = .ok values) :
      ReadsValues ('[' :: inner ++ [']']) (some values)

theorem isSubjectChar_iff (c : Char) : isSubjectChar c = true ↔
    c ≠ '-' ∧ c ≠ '[' ∧ c ≠ ']' ∧ c ≠ ',' ∧ isBlank c = false := by
  simp [isSubjectChar, and_assoc]

theorem isAlpha_bounds {c : Char} (letter : c.isAlpha = true) : 65 ≤ c.toNat ∧ c.toNat ≤ 122 := by
  change (decide (65 ≤ c.toNat ∧ c.toNat ≤ 90) ||
    (decide (97 ≤ c.toNat) && decide (c.toNat ≤ 122))) = true at letter
  simp only [Bool.or_eq_true, Bool.and_eq_true, decide_eq_true_eq] at letter
  omega

theorem visible_of_letter {c : Char} (letter : c.isAlpha = true) : isBlank c = false := by
  have bounds := isAlpha_bounds letter
  exact visible_of_printable (by omega) (by omega)

theorem not_letter_mem {c : Char} {operation : List Char} (other : c.isAlpha = false)
    (letters : ∀ c ∈ operation, c.isAlpha = true) : c ∉ operation := by
  intro member
  rw [letters c member] at other
  contradiction

theorem splitHead?_eq_some_iff {head subject operation : List Char} :
    splitHead? head = some (subject, operation) ↔
      head = subject ++ '-' :: operation ∧ IsHead subject operation := by
  constructor
  · intro read
    rw [splitHead?] at read
    split at read
    · contradiction
    · rename_i first second cut
      obtain ⟨whole, _⟩ := cut?_eq_some_iff.mp cut
      split at read
      · rename_i valid
        simp only [Bool.and_eq_true, Bool.not_eq_true', List.isEmpty_eq_false_iff,
          List.all_eq_true] at valid
        obtain ⟨⟨⟨someSubject, subjectChars⟩, someOperation⟩, letters⟩ := valid
        obtain ⟨rfl, rfl⟩ := Prod.mk.inj (Option.some.inj read)
        exact ⟨whole, someSubject, subjectChars, someOperation, letters⟩
      · contradiction
  · intro parts
    obtain ⟨rfl, valid⟩ := parts
    have noDash : '-' ∉ subject := by
      intro member
      exact absurd (valid.subjectChars '-' member) (by decide)
    rw [splitHead?, cut?_append '-' subject operation noDash]
    simpa [valid.someSubject, valid.someOperation] using And.intro valid.subjectChars valid.letters

theorem head_chars {subject operation : List Char} (valid : IsHead subject operation) :
    ∀ c ∈ subject ++ '-' :: operation, c ≠ '[' ∧ c ≠ ']' ∧ isBlank c = false := by
  intro c member
  rw [List.mem_append, List.mem_cons] at member
  rcases member with inSubject | rfl | inOperation
  · have chars := (isSubjectChar_iff c).mp (valid.subjectChars c inSubject)
    exact ⟨chars.2.1, chars.2.2.1, chars.2.2.2.2⟩
  · decide
  · refine ⟨?_, ?_, visible_of_letter (valid.letters c inOperation)⟩
    · intro same
      subst same
      exact not_letter_mem (by decide) valid.letters inOperation
    · intro same
      subst same
      exact not_letter_mem (by decide) valid.letters inOperation

theorem head_without_brackets {subject operation : List Char} (valid : IsHead subject operation) :
    '[' ∉ subject ++ '-' :: operation ∧ ']' ∉ subject ++ '-' :: operation :=
  ⟨fun member => (head_chars valid '[' member).1 rfl,
    fun member => (head_chars valid ']' member).2.1 rfl⟩

theorem ofHead_eq_ok_iff {head : List Char} {values : Option (List String)} {clause : Clause} :
    ofHead head values = .ok clause ↔ head = clause.headChars ∧
      IsHead clause.subject.toList clause.operation.toList ∧ values = clause.values := by
  constructor
  · intro read
    rw [ofHead] at read
    split at read
    · contradiction
    · split at read
      · contradiction
      · rename_i subject operation split
        obtain ⟨whole, valid⟩ := splitHead?_eq_some_iff.mp split
        obtain rfl := Except.ok.inj read
        simp [headChars, whole, valid]
  · intro parts
    obtain ⟨rfl, valid, rfl⟩ := parts
    have split := splitHead?_eq_some_iff.mpr ⟨rfl, valid⟩
    rw [ofHead, headChars, if_neg (head_without_brackets valid).2, split]
    simp

theorem bracketed_eq_ok_iff {body inner : List Char} :
    bracketed body = .ok inner ↔ body = inner ++ [']'] ∧ '[' ∉ inner ∧ ']' ∉ inner := by
  constructor
  · intro read
    rw [bracketed] at read
    split at read
    · contradiction
    · rename_i before after cut
      obtain ⟨whole, closing⟩ := cut?_eq_some_iff.mp cut
      split at read
      · contradiction
      · rename_i opening
        split at read
        · rename_i ends
          obtain rfl := Except.ok.inj read
          rw [List.isEmpty_iff.mp ends] at whole
          exact ⟨whole, opening, closing⟩
        · contradiction
  · intro parts
    obtain ⟨rfl, opening, closing⟩ := parts
    rw [bracketed, cut?_append ']' inner [] closing]
    simp [opening]

theorem decodeValue_eq_ok_iff {piece : List Char} {value : String} :
    decodeValue piece = .ok value ↔ piece ≠ [] ∧
      Percent.unescape? piece = some (value.toList.flatMap String.utf8EncodeChar) := by
  constructor
  · intro decoded
    rw [decodeValue] at decoded
    split at decoded
    · contradiction
    · rename_i some
      split at decoded
      · contradiction
      · rename_i bytes read
        split at decoded
        · contradiction
        · rename_i chars utf8
          obtain rfl := Except.ok.inj decoded
          rw [String.toList_ofList, Percent.decodeUtf8?_eq_some_iff.mp utf8]
          exact ⟨by simpa using some, read⟩
  · rintro ⟨some, read⟩
    rw [decodeValue, if_neg (by simpa using some), read]
    simp [Percent.decodeUtf8?_utf8]

theorem decodeValue_encode {value : String} (inhabited : value ≠ "") :
    decodeValue (Percent.encode value.toList) = .ok value := by
  refine decodeValue_eq_ok_iff.mpr ⟨?_, Percent.unescape?_encode value.toList⟩
  rw [Ne, Percent.encode_eq_nil_iff]
  simpa using inhabited

theorem decodeValue_ne_empty {piece : List Char} {value : String}
    (decoded : decodeValue piece = .ok value) : value ≠ "" := by
  obtain ⟨some, read⟩ := decodeValue_eq_ok_iff.mp decoded
  rintro rfl
  exact Percent.bytes_ne_nil_of_unescape? some read rfl

theorem decoded_values_inhabited {inner : List Char} {values : List String}
    (decoded : decodeValues inner = .ok values) : "" ∉ values := by
  rw [decodeValues] at decoded
  split at decoded
  · obtain rfl := Except.ok.inj decoded
    simp
  · intro member
    obtain ⟨piece, _, read⟩ := read_from_of_mapM decoded "" member
    exact decodeValue_ne_empty read rfl

def valueChars (values : List String) : List Char :=
  joinWith ',' (values.map fun v => Percent.encode v.toList)

theorem valueChars_clean (values : List String) : ∀ c ∈ valueChars values,
    c ≠ '[' ∧ c ≠ ']' ∧ isBlank c = false := by
  intro c member
  rcases mem_joinWith member with rfl | ⟨piece, among, inPiece⟩
  · decide
  · obtain ⟨value, _, rfl⟩ := List.mem_map.mp among
    rcases Percent.encode_chars inPiece with rfl | plain
    · decide
    · refine ⟨?_, ?_, Percent.visible_of_plain plain⟩
      · intro same
        subst same
        exact absurd plain (by decide)
      · intro same
        subst same
        exact absurd plain (by decide)

theorem valueChars_without_brackets (values : List String) :
    '[' ∉ valueChars values ∧ ']' ∉ valueChars values :=
  ⟨fun opening => (valueChars_clean values _ opening).1 rfl,
    fun closing => (valueChars_clean values _ closing).2.1 rfl⟩

theorem valueChars_eq_nil_iff {values : List String} :
    valueChars values = [] ↔ values = [] ∨ values = [""] := by
  cases values with
  | nil => simp [valueChars]
  | cons first rest =>
    cases rest with
    | nil =>
      have alone : valueChars [first] = Percent.encode first.toList := joinWith_singleton ',' _
      rw [alone, Percent.encode_eq_nil_iff]
      simp
    | cons next rest => simp [valueChars, joinWith_cons_cons]

theorem splitOn_valueChars {values : List String} (some : values ≠ []) :
    splitOn ',' (valueChars values) = values.map fun v => Percent.encode v.toList := by
  refine splitOn_joinWith ',' _ ?_ (by simpa using some)
  intro piece among comma
  obtain ⟨value, _, rfl⟩ := List.mem_map.mp among
  rcases Percent.encode_chars comma with escape | plain
  · exact absurd escape (by decide)
  · exact absurd plain (by decide)

/-- Each written value is read back, but where nothing is written a value is missing. -/
theorem mapM_encode (values : List String) :
    (values.map fun v => Percent.encode v.toList).mapM (fun piece => decodeValue (trim piece)) =
      if "" ∈ values then .error .emptyValue else .ok values := by
  induction values with
  | nil => rfl
  | cons value rest ih =>
    rw [List.map_cons, List.mapM_cons, Percent.trim_encode, ih]
    by_cases empty : value = ""
    · subst empty
      rw [if_pos List.mem_cons_self]
      rfl
    · rw [decodeValue_encode empty]
      by_cases later : "" ∈ rest
      · rw [if_pos later, if_pos (List.mem_cons_of_mem value later)]
        rfl
      · rw [if_neg later, if_neg (by simp [Ne.symm empty, later])]
        rfl

theorem decodeValues_written (values : List String) : decodeValues (valueChars values) =
    if values = [""] then .ok [] else if "" ∈ values then .error .emptyValue else .ok values := by
  by_cases none : values = []
  · subst none
    rfl
  · by_cases lone : values = [""]
    · subst lone
      rfl
    · have written : valueChars values ≠ [] := by simp [valueChars_eq_nil_iff, none, lone]
      rw [decodeValues, if_neg (by simpa using written), splitOn_valueChars none, mapM_encode,
        if_neg lone]

theorem decodeValues_valueChars {values : List String} (inhabited : "" ∉ values) :
    decodeValues (valueChars values) = .ok values := by
  have several : values ≠ [""] := by
    rintro rfl
    exact inhabited List.mem_cons_self
  rw [decodeValues_written, if_neg several, if_neg inhabited]

/-- The reading of clauses, without the order of its steps. -/
theorem ofChars_eq_ok_iff {text : List Char} {clause : Clause} :
    ofChars text = .ok clause ↔ IsHead clause.subject.toList clause.operation.toList ∧
      ∃ tail, trim text = clause.headChars ++ tail ∧ ReadsValues tail clause.values := by
  constructor
  · intro read
    simp only [ofChars] at read
    split at read
    · contradiction
    · split at read
      · obtain ⟨whole, valid, values⟩ := ofHead_eq_ok_iff.mp read
        exact ⟨valid, [], by simpa using whole, values ▸ .absent⟩
      · rename_i head body cut
        obtain ⟨inner, bracket, rest⟩ := bind_eq_ok_iff.mp read
        obtain ⟨values, decoded, named⟩ := bind_eq_ok_iff.mp rest
        obtain ⟨rfl, valid, same⟩ := ofHead_eq_ok_iff.mp named
        obtain ⟨rfl, opening, closing⟩ := bracketed_eq_ok_iff.mp bracket
        obtain ⟨whole, _⟩ := cut?_eq_some_iff.mp cut
        exact ⟨valid, _, whole, same ▸ .listed inner values opening closing decoded⟩
  · intro parts
    obtain ⟨valid, tail, whole, reads⟩ := parts
    have some : (trim text).isEmpty = false := by simp [whole, headChars]
    have opening : '[' ∉ clause.headChars := (head_without_brackets valid).1
    simp only [ofChars, some, Bool.false_eq_true, ↓reduceIte]
    obtain ⟨subject, operation, values⟩ := clause
    cases reads with
    | absent =>
      rw [List.append_nil] at whole
      rw [whole, (cut?_eq_none_iff '[' _).mpr opening]
      exact ofHead_eq_ok_iff.mpr ⟨rfl, valid, rfl⟩
    | listed inner values openingInner closing decoded =>
      rw [whole, List.cons_append, cut?_append '[' _ _ opening]
      have bracket := bracketed_eq_ok_iff.mpr ⟨rfl, openingInner, closing⟩
      refine bind_eq_ok_iff.mpr ⟨inner, bracket, bind_eq_ok_iff.mpr ⟨values, decoded, ?_⟩⟩
      exact ofHead_eq_ok_iff.mpr ⟨rfl, valid, rfl⟩

theorem readsValues_inhabited {tail : List Char} {values : Option (List String)}
    (reads : ReadsValues tail values) : "" ∉ values.getD [] := by
  cases reads with
  | absent => simp
  | listed inner values opening closing decoded => exact decoded_values_inhabited decoded

theorem depthAfter_readsValues {tail : List Char} {values : Option (List String)}
    (reads : ReadsValues tail values) : depthAfter 0 tail = 0 := by
  cases reads with
  | absent => rfl
  | listed inner values opening closing decoded => exact depthAfter_brackets opening closing

theorem depthAfter_of_ofChars {text : List Char} {clause : Clause}
    (read : ofChars text = .ok clause) : depthAfter 0 text = 0 := by
  obtain ⟨valid, tail, whole, reads⟩ := ofChars_eq_ok_iff.mp read
  obtain ⟨opening, closing⟩ := head_without_brackets valid
  rw [← depthAfter_trim, whole, depthAfter_append, headChars,
    depthAfter_of_no_bracket 0 opening closing]
  exact depthAfter_readsValues reads

end AggregateQuery.Clause
