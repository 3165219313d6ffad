import Mathlib.Data.List.Basic
import AggregateQuery.Proofs.Condition.ClauseText
/-!
Clauses with a list of values. The values of such a clause can be put in another order and written
more than once: the text is read as a clause all the same, with the same head, and as many
delimiters stand outside its brackets.
-/
namespace AggregateQuery.Clause

open Text

/-- Two texts that differ in their lists of values only, and list the same values: in another
order, or more than once. -/
inductive Revalued : List Char → List Char → Prop where
  | listed (head back : List Char) (pieces others : List (List Char))
      (whole : ∀ piece ∈ pieces, ',' ∉ piece) (kept : pieces ⊆ others) (known : others ⊆ pieces) :
      Revalued (head ++ '[' :: joinWith ',' pieces ++ ']' :: back)
        (head ++ '[' :: joinWith ',' others ++ ']' :: back)

variable {clause : Clause} {head inner back : List Char}

theorem no_bracket_in_blanks {s : List Char} (blank : ∀ c ∈ s, isBlank c = true) :
    '[' ∉ s ∧ ']' ∉ s :=
  ⟨fun member => absurd (blank '[' member) (by decide),
    fun member => absurd (blank ']' member) (by decide)⟩

theorem isTrimmed_listed (valid : IsHead clause.subject.toList clause.operation.toList) :
    IsTrimmed (clause.headChars ++ '[' :: inner ++ [']']) := by
  constructor
  · intro c first
    cases subject : clause.subject.toList with
    | nil => exact absurd subject valid.someSubject
    | cons d rest =>
      have same : d = c := by simpa [headChars, subject] using first
      have inSubject : c ∈ clause.subject.toList := by simp [subject, same]
      exact ((isSubjectChar_iff c).mp (valid.subjectChars c inSubject)).2.2.2.2
  · intro c last
    rw [List.getLast?_concat] at last
    rw [← Option.some.inj last]
    rfl

/-- A list in brackets behind a head is read by its own, and does not change what the head is. -/
theorem ofChars_listed (clause : Clause)
    (valid : IsHead clause.subject.toList clause.operation.toList) (opening : '[' ∉ inner)
    (closing : ']' ∉ inner) : ofChars (clause.headChars ++ '[' :: inner ++ [']']) =
      (decodeValues inner).map fun values => { clause with values := some values } := by
  have trimmed : trim (clause.headChars ++ '[' :: inner ++ [']']) =
      clause.headChars ++ '[' :: inner ++ [']'] := trim_of_isTrimmed (isTrimmed_listed valid)
  have bracket : bracketed (inner ++ [']']) = .ok inner :=
    bracketed_eq_ok_iff.mpr ⟨rfl, opening, closing⟩
  have named (values : List String) : ofHead clause.headChars (some values) =
      .ok { clause with values := some values } :=
    ofHead_eq_ok_iff.mpr ⟨rfl, valid, rfl⟩
  have visible : (clause.headChars ++ '[' :: inner ++ [']']).isEmpty = false := by simp
  have openHead : '[' ∉ clause.headChars := (head_without_brackets valid).1
  rw [ofChars, trimmed, visible, List.append_assoc, List.cons_append,
    cut?_append '[' _ _ openHead]
  simp only [Bool.false_eq_true, ↓reduceIte, bracket, named]
  change decodeValues inner >>= (fun values => .ok { clause with values := some values }) = _
  cases decodeValues inner <;> rfl

structure ListsValues (clause : Clause) (head inner back : List Char) : Prop where
  valid : IsHead clause.subject.toList clause.operation.toList
  blankFront : ∃ front, head = front ++ clause.headChars ∧ ∀ c ∈ front, isBlank c = true
  blankBack : ∀ c ∈ back, isBlank c = true
  opening : '[' ∉ inner
  closing : ']' ∉ inner
  decoded : ∃ values, decodeValues inner = .ok values ∧ clause.values = some values

theorem ListsValues.head_without_brackets (lists : ListsValues clause head inner back) :
    '[' ∉ head ∧ ']' ∉ head := by
  obtain ⟨front, rfl, blank⟩ := lists.blankFront
  have inFront := no_bracket_in_blanks blank
  have inHead := Clause.head_without_brackets lists.valid
  simp only [List.mem_append, not_or]
  exact ⟨⟨inFront.1, inHead.1⟩, inFront.2, inHead.2⟩

theorem ofChars_listed_iff : ofChars (head ++ '[' :: inner ++ ']' :: back) = .ok clause ↔
    ListsValues clause head inner back := by
  constructor
  · intro read
    obtain ⟨valid, tail, trimmed, reads⟩ := ofChars_eq_ok_iff.mp read
    obtain ⟨front, rear, whole, blankFront, blankRear⟩ :=
      trim_between_blanks (head ++ '[' :: inner ++ ']' :: back)
    have inFront := no_bracket_in_blanks blankFront
    have inRear := no_bracket_in_blanks blankRear
    have openHead : '[' ∉ clause.headChars := (Clause.head_without_brackets valid).1
    rw [trimmed] at whole
    generalize stored : clause.values = given at reads
    cases reads with
    | absent =>
      have bracket : '[' ∈ front ++ (headChars clause ++ []) ++ rear := whole ▸ by simp
      simp only [List.append_nil, List.mem_append] at bracket
      rcases bracket with (inFrontToo | inHead) | inRearToo
      · exact absurd inFrontToo inFront.1
      · exact absurd inHead openHead
      · exact absurd inRearToo inRear.1
    | listed list values opening closing decoded =>
      -- One bracket opens and one closes, so both ways to cut the text are the same.
      have cutOpen : (front ++ clause.headChars) ++ '[' :: (list ++ ']' :: rear) =
          head ++ '[' :: (inner ++ ']' :: back) := by simpa using whole.symm
      have noneBefore : '[' ∉ front ++ clause.headChars := by simp [inFront.1, openHead]
      have noneBehind : '[' ∉ list ++ ']' :: rear := by simp [opening, inRear.1]
      obtain ⟨sameHead, _, rest⟩ :=
        (List.append_cons_inj_of_notMem noneBefore noneBehind).mp cutOpen
      obtain ⟨sameInner, _, sameBack⟩ :=
        (List.append_cons_inj_of_notMem closing inRear.2).mp rest
      exact ⟨valid, ⟨front, sameHead.symm, blankFront⟩, sameBack ▸ blankRear,
        sameInner ▸ opening, sameInner ▸ closing, values, sameInner ▸ decoded, stored⟩
  · intro lists
    obtain ⟨front, rfl, blankFront⟩ := lists.blankFront
    obtain ⟨values, decoded, stored⟩ := lists.decoded
    refine ofChars_eq_ok_iff.mpr ⟨lists.valid, '[' :: inner ++ [']'], ?_, ?_⟩
    · have around := trim_blanks_around (clause.headChars ++ '[' :: inner ++ [']']) blankFront
        lists.blankBack
      rw [trim_of_isTrimmed (isTrimmed_listed lists.valid)] at around
      simpa using around
    · rw [stored]
      exact .listed inner values lists.opening lists.closing decoded

theorem decodeValues_joinWith {pieces : List (List Char)} (whole : ∀ piece ∈ pieces, ',' ∉ piece)
    {values : List String} (some : values ≠ []) : decodeValues (joinWith ',' pieces) = .ok values ↔
      pieces.mapM (fun piece => decodeValue (trim piece)) = .ok values := by
  cases pieces with
  | nil =>
    rw [joinWith_nil]
    constructor
    · intro decoded
      exact absurd (Except.ok.inj decoded).symm some
    · intro read
      exact absurd (pure_eq_ok_iff.mp read).symm some
  | cons piece rest =>
    have cut : splitOn ',' (joinWith ',' (piece :: rest)) = piece :: rest :=
      splitOn_joinWith ',' _ whole (by simp)
    by_cases none : joinWith ',' (piece :: rest) = []
    -- Then nothing is read as no values, and as one value that is empty.
    · rw [none] at cut ⊢
      obtain ⟨rfl, rfl⟩ : [] = piece ∧ [] = rest := by simpa [splitOn] using cut
      constructor
      · intro decoded
        exact absurd (Except.ok.inj decoded).symm some
      · intro read
        obtain ⟨value, _, one, _⟩ := mapM_cons_eq_ok_iff.mp read
        cases one
    · rw [decodeValues, if_neg (by simpa using none), cut]

theorem ofChars_revalued {text other : List Char} (revalued : Revalued text other)
    (read : ofChars text = .ok clause) (some : clause.values.getD [] ≠ []) :
    ∃ values, ofChars other = .ok { clause with values := Option.some values } ∧
      ∀ value, value ∈ values ↔ value ∈ clause.values.getD [] := by
  obtain ⟨head, back, pieces, others, whole, kept, known⟩ := revalued
  have lists := ofChars_listed_iff.mp read
  obtain ⟨given, decoded, stored⟩ := lists.decoded
  rw [stored, Option.getD_some] at some ⊢
  have each := (decodeValues_joinWith whole some).mp decoded
  obtain ⟨values, read⟩ : ∃ values, others.mapM (fun piece => decodeValue (trim piece)) =
      .ok values := mapM_of_each fun piece member => read_of_mapM each piece (known member)
  have same : ∀ value, value ∈ values ↔ value ∈ given := by
    intro value
    rw [mem_mapM_iff read, mem_mapM_iff each]
    constructor
    · rintro ⟨piece, member, one⟩
      exact ⟨piece, known member, one⟩
    · rintro ⟨piece, member, one⟩
      exact ⟨piece, kept member, one⟩
  have someToo : values ≠ [] := by
    obtain ⟨value, member⟩ := List.exists_mem_of_ne_nil given some
    exact List.ne_nil_of_mem ((same value).mpr member)
  have decodedToo := (decodeValues_joinWith (fun piece member => whole piece (known member))
    someToo).mpr read
  refine ⟨values, ofChars_listed_iff.mpr ?_, same⟩
  exact ⟨lists.valid, lists.blankFront, lists.blankBack,
    absent_joinWith known (by decide) lists.opening,
    absent_joinWith known (by decide) lists.closing, values, decodedToo, rfl⟩

theorem hidesDelimiter_listed_iff {delimiter : Char} (delimits : CanDelimit delimiter)
    (lists : ListsValues clause head inner back) :
    HidesDelimiter delimiter 0 (head ++ '[' :: inner ++ ']' :: back) ↔
      HidesDelimiter delimiter 0 head ∧ HidesDelimiter delimiter 0 back := by
  have apart : head ++ '[' :: inner ++ ']' :: back = head ++ (('[' :: inner ++ [']']) ++ back) := by
    simp
  obtain ⟨openHead, closeHead⟩ := lists.head_without_brackets
  rw [apart, hidesDelimiter_append, hidesDelimiter_append,
    depthAfter_of_no_bracket 0 openHead closeHead, depthAfter_brackets lists.opening lists.closing]
  have brackets := hidesDelimiter_brackets delimits lists.opening lists.closing
  exact and_congr_right fun _ => and_iff_right brackets

theorem hides_revalued {delimiter : Char} (delimits : CanDelimit delimiter)
    {text other : List Char} {clause otherClause : Clause} (revalued : Revalued text other)
    (read : ofChars text = .ok clause) (readOther : ofChars other = .ok otherClause)
    (hides : HidesDelimiter delimiter 0 text) : HidesDelimiter delimiter 0 other := by
  obtain ⟨head, back, pieces, others, _, _, _⟩ := revalued
  rw [hidesDelimiter_listed_iff delimits (ofChars_listed_iff.mp read)] at hides
  rwa [hidesDelimiter_listed_iff delimits (ofChars_listed_iff.mp readOther)]

end AggregateQuery.Clause
