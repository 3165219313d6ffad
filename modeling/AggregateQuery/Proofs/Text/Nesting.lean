import AggregateQuery.Proofs.Text.Cutting
import AggregateQuery.Proofs.Text.Trimming
import AggregateQuery.Text.Basic
/-!
Cutting a list at the delimiters outside brackets. A delimiter between two texts cuts exactly
there when the first text closes its brackets, so joining texts that close theirs is undone by
cutting.
-/
namespace AggregateQuery.Text

theorem depthAfter_append (depth : Nat) (s t : List Char) :
    depthAfter depth (s ++ t) = depthAfter (depthAfter depth s) t := List.foldl_append

theorem depthAfter_cons (depth : Nat) (c : Char) (s : List Char) :
    depthAfter depth (c :: s) = depthAfter (nesting depth c) s := rfl

theorem nesting_of_no_bracket {c : Char} (depth : Nat) (opening : c ≠ '[') (closing : c ≠ ']') :
    nesting depth c = depth := by simp [nesting, opening, closing]

theorem depthAfter_of_no_bracket {s : List Char} (depth : Nat) (opening : '[' ∉ s)
    (closing : ']' ∉ s) : depthAfter depth s = depth := by
  induction s with
  | nil => rfl
  | cons c rest ih =>
    simp only [List.mem_cons, not_or] at opening closing
    rw [depthAfter_cons, nesting_of_no_bracket depth (Ne.symm opening.1) (Ne.symm closing.1)]
    exact ih opening.2 closing.2

theorem depthAfter_of_blanks {s : List Char} (depth : Nat) (blank : ∀ c ∈ s, isBlank c = true) :
    depthAfter depth s = depth := by
  apply depthAfter_of_no_bracket
  · intro member
    exact absurd (blank '[' member) (by decide)
  · intro member
    exact absurd (blank ']' member) (by decide)

theorem depthAfter_trim (depth : Nat) (s : List Char) :
    depthAfter depth (trim s) = depthAfter depth s := by
  obtain ⟨front, back, whole, blankFront, blankBack⟩ := trim_between_blanks s
  have depths := congrArg (depthAfter depth) whole
  rw [depthAfter_append, depthAfter_append, depthAfter_of_blanks depth blankFront,
    depthAfter_of_blanks _ blankBack] at depths
  exact depths.symm

/-- Whether a delimiter can be one: brackets are read as brackets. -/
def CanDelimit (delimiter : Char) : Prop := delimiter ≠ '[' ∧ delimiter ≠ ']'

/-- Every delimiter in a text that begins at a depth stands inside brackets. -/
def HidesDelimiter (delimiter : Char) (depth : Nat) (s : List Char) : Prop :=
  ∀ before after, s = before ++ delimiter :: after → depthAfter depth before ≠ 0

theorem hidesDelimiter_of_not_mem {delimiter : Char} {s : List Char} (depth : Nat)
    (absent : delimiter ∉ s) : HidesDelimiter delimiter depth s := by
  intro before after whole
  subst whole
  exact absurd List.mem_append_cons_self absent

theorem hidesDelimiter_cons {delimiter c : Char} {depth : Nat} {rest : List Char} :
    HidesDelimiter delimiter depth (c :: rest) ↔
      (c = delimiter → depth ≠ 0) ∧ HidesDelimiter delimiter (nesting depth c) rest := by
  constructor
  · intro hides
    constructor
    · intro same
      subst same
      exact hides [] rest rfl
    · intro before after whole
      subst whole
      exact hides (c :: before) after rfl
  · intro both before after split
    obtain ⟨here, later⟩ := both
    cases before with
    | nil => exact here (List.cons.inj split).1
    | cons first before =>
      obtain ⟨rfl, whole⟩ := List.cons.inj split
      exact later before after whole

theorem hidesDelimiter_append {delimiter : Char} {depth : Nat} {s t : List Char} :
    HidesDelimiter delimiter depth (s ++ t) ↔
      HidesDelimiter delimiter depth s ∧ HidesDelimiter delimiter (depthAfter depth s) t := by
  induction s generalizing depth with
  | nil =>
    have none : HidesDelimiter delimiter depth [] := hidesDelimiter_of_not_mem depth (by simp)
    simp [depthAfter, none]
  | cons c rest ih =>
    rw [List.cons_append, hidesDelimiter_cons, hidesDelimiter_cons, ih, and_assoc]
    rfl

theorem hidesDelimiter_inside {delimiter : Char} {depth : Nat} {s : List Char}
    (inside : depth ≠ 0) (opening : '[' ∉ s) (closing : ']' ∉ s) :
    HidesDelimiter delimiter depth s := by
  intro before after whole
  subst whole
  simp only [List.mem_append, not_or] at opening closing
  rwa [depthAfter_of_no_bracket depth opening.1 closing.1]

theorem hidesDelimiter_brackets {delimiter : Char} (delimits : CanDelimit delimiter)
    {inner : List Char} (opening : '[' ∉ inner) (closing : ']' ∉ inner) :
    HidesDelimiter delimiter 0 ('[' :: inner ++ [']']) := by
  have inBrackets : HidesDelimiter delimiter 1 inner :=
    hidesDelimiter_inside (by decide) opening closing
  have behind : HidesDelimiter delimiter (depthAfter 1 inner) [']'] :=
    hidesDelimiter_of_not_mem _ (by simp [delimits.2])
  refine hidesDelimiter_cons.mpr ⟨fun same => absurd same.symm delimits.1, ?_⟩
  exact hidesDelimiter_append.mpr ⟨inBrackets, behind⟩

theorem depthAfter_brackets {inner : List Char} (opening : '[' ∉ inner) (closing : ']' ∉ inner) :
    depthAfter 0 ('[' :: inner ++ [']']) = 0 := by
  rw [List.cons_append, depthAfter_cons, depthAfter_append,
    depthAfter_of_no_bracket _ opening closing]
  rfl

theorem splitOutside_ne_nil (delimiter : Char) (depth : Nat) (s : List Char) :
    splitOutside delimiter depth s ≠ [] := by
  cases s with
  | nil => simp [splitOutside]
  | cons c rest =>
    rw [splitOutside]
    split
    · simp
    · cases splitOutside delimiter (nesting depth c) rest <;> simp [consHead]

theorem endsPiece_iff {delimiter : Char} (delimits : CanDelimit delimiter) (depth : Nat)
    (c : Char) : endsPiece delimiter depth c = true ↔ c = delimiter ∧ depth = 0 := by
  simp only [endsPiece, Bool.and_eq_true, beq_iff_eq, bne_iff_ne]
  constructor
  · intro parts
    obtain ⟨⟨both, _⟩, _⟩ := parts
    exact both
  · intro parts
    obtain ⟨rfl, outside⟩ := parts
    exact ⟨⟨⟨rfl, outside⟩, delimits.1⟩, delimits.2⟩

theorem splitOutside_append {delimiter : Char} (delimits : CanDelimit delimiter) {depth : Nat}
    {s : List Char} (t : List Char) (closed : depthAfter depth s = 0) :
    splitOutside delimiter depth (s ++ delimiter :: t) =
      splitOutside delimiter depth s ++ splitOutside delimiter 0 t := by
  induction s generalizing depth with
  | nil =>
    obtain rfl : depth = 0 := closed
    have ends := (endsPiece_iff delimits 0 delimiter).mpr ⟨rfl, rfl⟩
    simp [splitOutside, ends]
  | cons c rest ih =>
    rw [List.cons_append, splitOutside, splitOutside]
    by_cases ends : endsPiece delimiter depth c = true
    · obtain ⟨isDelimiter, outside⟩ := (endsPiece_iff delimits depth c).mp ends
      rw [if_pos ends, if_pos ends, ← outside, ih]
      · rw [outside]; rfl
      · have level := nesting_of_no_bracket depth delimits.1 delimits.2
        rwa [depthAfter_cons, isDelimiter, level] at closed
    · rw [if_neg ends, if_neg ends, ih closed,
        consHead_eq_modifyHead _ _ (by simp [splitOutside_ne_nil]),
        consHead_eq_modifyHead _ _ (splitOutside_ne_nil delimiter _ rest)]
      cases pieces : splitOutside delimiter (nesting depth c) rest with
      | nil => exact absurd pieces (splitOutside_ne_nil delimiter _ rest)
      | cons piece pieces => rfl

theorem splitOutside_of_hidden {delimiter : Char} (delimits : CanDelimit delimiter) {depth : Nat}
    {s : List Char} (hides : HidesDelimiter delimiter depth s) :
    splitOutside delimiter depth s = [s] := by
  induction s generalizing depth with
  | nil => rfl
  | cons c rest ih =>
    obtain ⟨here, later⟩ := hidesDelimiter_cons.mp hides
    have whole : ¬ endsPiece delimiter depth c = true := by
      rw [endsPiece_iff delimits]
      intro parts
      obtain ⟨isDelimiter, outside⟩ := parts
      exact here isDelimiter outside
    rw [splitOutside, if_neg whole, ih later]
    rfl

/-- Joining is undone by cutting when each text hides its delimiters and closes its brackets; the
last one may leave them open. -/
theorem splitOutside_joinWith {delimiter : Char} (delimits : CanDelimit delimiter)
    {pieces : List (List Char)} (some : pieces ≠ [])
    (hides : ∀ piece ∈ pieces, HidesDelimiter delimiter 0 piece)
    (closed : ∀ piece ∈ pieces.dropLast, depthAfter 0 piece = 0) :
    splitOutside delimiter 0 (joinWith delimiter pieces) = pieces := by
  induction pieces with
  | nil => contradiction
  | cons piece rest ih =>
    have first := splitOutside_of_hidden delimits (hides piece List.mem_cons_self)
    cases rest with
    | nil => rw [joinWith_singleton, first]
    | cons next rest =>
      have others := ih (by simp) (fun other member => hides other (List.mem_cons_of_mem _ member))
        (fun other member => closed other (List.mem_cons_of_mem _ member))
      rw [joinWith_cons_cons, splitOutside_append delimits _ (closed piece List.mem_cons_self),
        first, others]
      rfl

theorem splitOutside_without_brackets {delimiter : Char} (delimits : CanDelimit delimiter)
    {s : List Char} (opening : '[' ∉ s) (closing : ']' ∉ s) :
    splitOutside delimiter 0 s = splitOn delimiter s := by
  induction s with
  | nil => rfl
  | cons c rest ih =>
    simp only [List.mem_cons, not_or] at opening closing
    have cuts : endsPiece delimiter 0 c = true ↔ c = delimiter := by simp [endsPiece_iff delimits]
    rw [splitOutside, splitOn, nesting_of_no_bracket 0 (Ne.symm opening.1) (Ne.symm closing.1),
      ih opening.2 closing.2]
    simp only [cuts]

end AggregateQuery.Text
