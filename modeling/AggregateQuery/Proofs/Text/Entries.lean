import AggregateQuery.Proofs.Text.Nesting
/-!
The entries of a list. Each of them hides its delimiters, so entries that close their brackets are
found again in the list that joins them, and the entries of two lists with a delimiter in between
are those of the first and then those of the second.
-/
namespace AggregateQuery.Text

variable {delimiter : Char}

/-- The pieces of a text that begins at a depth, of which only the first begins there too. -/
theorem splitOutside_spec (delimits : CanDelimit delimiter) (depth : Nat) (s : List Char) :
    ∃ first others, splitOutside delimiter depth s = first :: others ∧
      HidesDelimiter delimiter depth first ∧
      (∀ piece ∈ others, HidesDelimiter delimiter 0 piece) ∧
      (depthAfter depth first = 0 → (∀ piece ∈ others, depthAfter 0 piece = 0) →
        depthAfter depth s = 0) := by
  induction s generalizing depth with
  | nil =>
    refine ⟨[], [], rfl, hidesDelimiter_of_not_mem depth (by simp), by simp, ?_⟩
    intro closed _
    exact closed
  | cons c rest ih =>
    rw [splitOutside]
    by_cases ends : endsPiece delimiter depth c = true
    -- Cuts are made at depth zero only, so the rest is cut like a text of its own.
    · obtain ⟨isDelimiter, outside⟩ := (endsPiece_iff delimits depth c).mp ends
      obtain ⟨first, others, pieces, hides, hideOthers, closes⟩ := ih 0
      rw [if_pos ends, outside, pieces]
      refine ⟨[], first :: others, rfl, hidesDelimiter_of_not_mem 0 (by simp), ?_, ?_⟩
      · intro piece member
        rcases List.mem_cons.mp member with same | other
        · rw [same]
          exact hides
        · exact hideOthers piece other
      · intro _ closed
        rw [depthAfter_cons, isDelimiter, nesting_of_no_bracket 0 delimits.1 delimits.2]
        exact closes (closed first List.mem_cons_self)
          fun piece other => closed piece (List.mem_cons_of_mem first other)
    · obtain ⟨first, others, pieces, hides, hideOthers, closes⟩ := ih (nesting depth c)
      rw [if_neg ends, pieces]
      refine ⟨c :: first, others, rfl, ?_, hideOthers, closes⟩
      refine hidesDelimiter_cons.mpr ⟨?_, hides⟩
      intro isDelimiter outside
      exact ends ((endsPiece_iff delimits depth c).mpr ⟨isDelimiter, outside⟩)

theorem hidesDelimiter_trim {s : List Char} (hides : HidesDelimiter delimiter 0 s) :
    HidesDelimiter delimiter 0 (trim s) := by
  obtain ⟨front, back, whole, blank, _⟩ := trim_between_blanks s
  rw [whole, hidesDelimiter_append, hidesDelimiter_append, depthAfter_of_blanks 0 blank] at hides
  exact hides.1.2

theorem entries_of_not_blank {s : List Char} (some : isBlankText s = false) :
    entries delimiter s = (splitOutside delimiter 0 s).map trim := by
  rw [entries, some]
  rfl

theorem isBlankText_append (s t : List Char) :
    isBlankText (s ++ t) = (isBlankText s && isBlankText t) := List.all_append

theorem entries_hide (delimits : CanDelimit delimiter) {s entry : List Char}
    (member : entry ∈ entries delimiter s) : HidesDelimiter delimiter 0 entry := by
  obtain ⟨first, others, pieces, hides, hideOthers, _⟩ := splitOutside_spec delimits 0 s
  rw [entries] at member
  split at member
  · simp at member
  · rw [pieces] at member
    obtain ⟨piece, among, trimmed⟩ := List.mem_map.mp member
    rw [← trimmed]
    apply hidesDelimiter_trim
    rcases List.mem_cons.mp among with same | other
    · rw [same]
      exact hides
    · exact hideOthers piece other

theorem depthAfter_of_entries (delimits : CanDelimit delimiter) {s : List Char}
    (closed : ∀ entry ∈ entries delimiter s, depthAfter 0 entry = 0) : depthAfter 0 s = 0 := by
  obtain ⟨first, others, pieces, _, _, closes⟩ := splitOutside_spec delimits 0 s
  cases blank : isBlankText s with
  | true => exact depthAfter_of_blanks 0 (List.all_eq_true.mp blank)
  | false =>
    rw [entries_of_not_blank blank, pieces] at closed
    have closedPiece : ∀ piece ∈ first :: others, depthAfter 0 piece = 0 := by
      intro piece member
      rw [← depthAfter_trim]
      exact closed (trim piece) (List.mem_map_of_mem member)
    exact closes (closedPiece first List.mem_cons_self)
      fun piece other => closedPiece piece (List.mem_cons_of_mem first other)

theorem entries_append (delimits : CanDelimit delimiter) {s t : List Char}
    (some : isBlankText s = false) (someMore : isBlankText t = false)
    (closed : depthAfter 0 s = 0) :
    entries delimiter (s ++ delimiter :: t) = entries delimiter s ++ entries delimiter t := by
  have whole : isBlankText (s ++ delimiter :: t) = false := by
    rw [isBlankText_append, some, Bool.false_and]
  rw [entries_of_not_blank whole, entries_of_not_blank some, entries_of_not_blank someMore,
    splitOutside_append delimits t closed, List.map_append]

theorem splitOutside_closed (delimits : CanDelimit delimiter) {depth : Nat} {s first : List Char}
    {others : List (List Char)} (pieces : splitOutside delimiter depth s = first :: others) :
    (others ≠ [] → depthAfter depth first = 0) ∧
      ∀ piece ∈ others.dropLast, depthAfter 0 piece = 0 := by
  induction s generalizing depth first others with
  | nil =>
    obtain ⟨_, rfl⟩ := List.cons.inj pieces
    simp
  | cons c rest ih =>
    rw [splitOutside] at pieces
    by_cases ends : endsPiece delimiter depth c = true
    · obtain ⟨_, outside⟩ := (endsPiece_iff delimits depth c).mp ends
      rw [if_pos ends] at pieces
      obtain ⟨rfl, whole⟩ := List.cons.inj pieces
      refine ⟨fun _ => outside, ?_⟩
      cases others with
      | nil => simp
      | cons next later =>
        obtain ⟨nextClosed, laterClosed⟩ := ih (outside ▸ whole)
        intro piece member
        cases later with
        | nil => simp at member
        | cons one more =>
          rcases List.mem_cons.mp member with rfl | behind
          · exact nextClosed (by simp)
          · exact laterClosed piece behind
    · rw [if_neg ends] at pieces
      cases split : splitOutside delimiter (nesting depth c) rest with
      | nil => exact absurd split (splitOutside_ne_nil delimiter _ rest)
      | cons piece later =>
        rw [split, consHead] at pieces
        obtain ⟨rfl, rfl⟩ := List.cons.inj pieces
        rw [depthAfter_cons]
        exact ih split

/-- Of the pieces of a text only the last can leave brackets open. -/
theorem closed_pieces (delimits : CanDelimit delimiter) {s piece : List Char}
    (member : piece ∈ (splitOutside delimiter 0 s).dropLast) : depthAfter 0 piece = 0 := by
  cases pieces : splitOutside delimiter 0 s with
  | nil => exact absurd pieces (splitOutside_ne_nil delimiter 0 s)
  | cons first others =>
    obtain ⟨firstClosed, othersClosed⟩ := splitOutside_closed delimits pieces
    rw [pieces] at member
    cases others with
    | nil => simp at member
    | cons next later =>
      rcases List.mem_cons.mp member with rfl | behind
      · exact firstClosed (by simp)
      · exact othersClosed piece behind

theorem closed_entries (delimits : CanDelimit delimiter) {s entry : List Char}
    (member : entry ∈ (entries delimiter s).dropLast) : depthAfter 0 entry = 0 := by
  cases blank : isBlankText s with
  | true => simp [entries, blank] at member
  | false =>
    rw [entries_of_not_blank blank, ← List.map_dropLast] at member
    obtain ⟨piece, among, rfl⟩ := List.mem_map.mp member
    rw [depthAfter_trim]
    exact closed_pieces delimits among

theorem entries_of_joined_open (delimits : CanDelimit delimiter) {pieces : List (List Char)}
    (visible : ∀ piece ∈ pieces, isBlankText piece = false)
    (hides : ∀ piece ∈ pieces, HidesDelimiter delimiter 0 piece)
    (closed : ∀ piece ∈ pieces.dropLast, depthAfter 0 piece = 0) :
    entries delimiter (joinWith delimiter pieces) = pieces.map trim := by
  cases pieces with
  | nil => rfl
  | cons piece rest =>
    have start : isBlankText (joinWith delimiter (piece :: rest)) = false := by
      have first := visible piece List.mem_cons_self
      cases rest with
      | nil => rwa [joinWith_singleton]
      | cons next rest => rw [joinWith_cons_cons, isBlankText_append, first, Bool.false_and]
    rw [entries_of_not_blank start, splitOutside_joinWith delimits (by simp) hides closed]

theorem entries_of_joined (delimits : CanDelimit delimiter) {pieces : List (List Char)}
    (visible : ∀ piece ∈ pieces, isBlankText piece = false)
    (hides : ∀ piece ∈ pieces, HidesDelimiter delimiter 0 piece)
    (closed : ∀ piece ∈ pieces, depthAfter 0 piece = 0) :
    entries delimiter (joinWith delimiter pieces) = pieces.map trim :=
  entries_of_joined_open delimits visible hides
    fun piece member => closed piece (List.dropLast_subset _ member)

theorem entries_joinWith (delimits : CanDelimit delimiter) {pieces : List (List Char)}
    (visible : ∀ piece ∈ pieces, isBlankText piece = false)
    (trimmed : ∀ piece ∈ pieces, trim piece = piece)
    (hides : ∀ piece ∈ pieces, HidesDelimiter delimiter 0 piece)
    (closed : ∀ piece ∈ pieces, depthAfter 0 piece = 0) :
    entries delimiter (joinWith delimiter pieces) = pieces := by
  calc entries delimiter (joinWith delimiter pieces)
    _ = pieces.map trim := entries_of_joined delimits visible hides closed
    _ = pieces.map id := List.map_congr_left trimmed
    _ = pieces := List.map_id pieces

/-- Texts that hold a sign once each are not cut when the same is true of the entries of the list
that joins them. -/
theorem uncut_of_entries {delimiter sign : Char} (delimits : CanDelimit delimiter)
    (other : sign ≠ delimiter) (visible : isBlank sign = false) {texts : List (List Char)}
    (opening : ∀ text ∈ texts, '[' ∉ text) (closing : ∀ text ∈ texts, ']' ∉ text)
    (once : ∀ text ∈ texts, text.count sign = 1)
    (onceToo : ∀ entry ∈ entries delimiter (joinWith delimiter texts), entry.count sign = 1) :
    ∀ text ∈ texts, delimiter ∉ text := by
  have absent {bracket : Char} (notDelimiter : bracket ≠ delimiter)
      (free : ∀ text ∈ texts, bracket ∉ text) : bracket ∉ joinWith delimiter texts := by
    intro member
    rcases mem_joinWith member with isDelimiter | ⟨text, among, inText⟩
    · exact notDelimiter isDelimiter
    · exact free text among inText
  have pieces := splitOutside_without_brackets delimits (absent (Ne.symm delimits.1) opening)
    (absent (Ne.symm delimits.2) closing)
  have signs := count_joinWith delimiter sign texts
  rw [if_neg other, count_flatten_of_once once, Nat.add_zero] at signs
  cases texts with
  | nil => simp
  | cons text rest =>
    have some : isBlankText (joinWith delimiter (text :: rest)) = false := by
      refine List.all_eq_false.mpr ⟨sign, ?_, by simp [visible]⟩
      rw [← List.count_pos_iff, signs]
      simp
    rw [entries_of_not_blank some, pieces, List.forall_mem_map] at onceToo
    have oncePiece : ∀ piece ∈ splitOn delimiter (joinWith delimiter (text :: rest)),
        piece.count sign = 1 := by
      intro piece member
      rw [← count_trim visible]
      exact onceToo piece member
    -- There are as many pieces as signs and as texts, so that every delimiter is between texts.
    have asManySigns := count_flatten_of_once oncePiece
    rw [count_flatten_splitOn other, signs, length_splitOn, count_joinWith, if_pos rfl,
      List.length_cons] at asManySigns
    have none : (text :: rest).flatten.count delimiter = 0 := by omega
    intro piece member inPiece
    exact List.count_eq_zero.mp none (List.mem_flatten_of_mem member inPiece)

end AggregateQuery.Text
