import AggregateQuery.Text.Basic
/-!
Cutting a text at a mark undoes putting the mark between its parts, as long as the parts that are
cut off do not hold the mark themselves.
-/
namespace AggregateQuery.Text

theorem cut?_eq_none_iff (mark : Char) (s : List Char) : cut? mark s = none ↔ mark ∉ s := by
  induction s with
  | nil => simp [cut?]
  | cons c rest ih =>
    by_cases first : c = mark
    · simp [cut?, first]
    · simp [cut?, first, ih, Ne.symm first]

theorem cut?_append (mark : Char) (before after : List Char) (clean : mark ∉ before) :
    cut? mark (before ++ mark :: after) = some (before, after) := by
  induction before with
  | nil => simp [cut?]
  | cons c before ih =>
    have other : c ≠ mark := fun same => clean (by simp [same])
    have rest := ih fun member => clean (List.mem_cons_of_mem c member)
    simp [cut?, other, rest]

theorem cut?_eq_some_iff {mark : Char} {s before after : List Char} :
    cut? mark s = some (before, after) ↔ s = before ++ mark :: after ∧ mark ∉ before := by
  constructor
  · intro cut
    induction s generalizing before with
    | nil => simp [cut?] at cut
    | cons c rest ih =>
      by_cases first : c = mark
      · simp only [cut?, first, ↓reduceIte, Option.some.injEq, Prod.mk.injEq] at cut
        obtain ⟨rfl, rfl⟩ := cut
        simp [first]
      · simp only [cut?, first, ↓reduceIte, Option.map_eq_some_iff, Prod.mk.injEq] at cut
        obtain ⟨⟨front, back⟩, cutRest, rfl, rfl⟩ := cut
        obtain ⟨whole, clean⟩ := ih cutRest
        exact ⟨by rw [whole]; rfl, by simp [clean, Ne.symm first]⟩
  · intro parts
    obtain ⟨rfl, clean⟩ := parts
    exact cut?_append mark before after clean

theorem run_in_front {p : Char → Bool} {run rest : List Char} (all : ∀ c ∈ run, p c = true)
    (ends : ∀ c ∈ rest.head?, p c = false) :
    (run ++ rest).takeWhile p = run ∧ (run ++ rest).dropWhile p = rest := by
  rw [List.takeWhile_append_of_pos all, List.dropWhile_append_of_pos all]
  cases rest with
  | nil => simp
  | cons c rest => simp [ends c rfl]

theorem last_mark_unique {mark : Char} {before after before' after' : List Char}
    (same : before ++ mark :: after = before' ++ mark :: after') (clean : mark ∉ after)
    (cleanToo : mark ∉ after') : before = before' ∧ after = after' := by
  have backwards := congrArg (fun s => cut? mark s.reverse) same
  simp only [List.reverse_append, List.reverse_cons, List.append_assoc, List.singleton_append]
    at backwards
  rw [cut?_append mark _ _ (by simpa using clean), cut?_append mark _ _ (by simpa using cleanToo)]
    at backwards
  obtain ⟨afterSame, beforeSame⟩ := Prod.mk.inj (Option.some.inj backwards)
  exact ⟨List.reverse_inj.mp beforeSame, List.reverse_inj.mp afterSame⟩

theorem consHead_eq_modifyHead (c : Char) (pieces : List (List Char)) (some : pieces ≠ []) :
    consHead c pieces = pieces.modifyHead (c :: ·) := by
  cases pieces with
  | nil => contradiction
  | cons piece pieces => rfl

theorem splitOn_eq (mark : Char) (s : List Char) : splitOn mark s = s.splitOn mark := by
  induction s with
  | nil => rfl
  | cons c rest ih =>
    rw [List.splitOn_cons_eq_if_modifyHead, splitOn, ih]
    by_cases here : c = mark
    · simp [here]
    · simp [here, consHead_eq_modifyHead]

theorem splitOn_joinWith (mark : Char) (pieces : List (List Char))
    (clean : ∀ piece ∈ pieces, mark ∉ piece) (some : pieces ≠ []) :
    splitOn mark (joinWith mark pieces) = pieces := by
  rw [splitOn_eq]
  exact List.splitOn_intercalate mark clean some

theorem joinWith_splitOn (mark : Char) (s : List Char) : joinWith mark (splitOn mark s) = s := by
  rw [splitOn_eq, joinWith, List.intercalate_splitOn]

@[simp] theorem joinWith_nil (mark : Char) : joinWith mark [] = [] := rfl

@[simp] theorem joinWith_singleton (mark : Char) (piece : List Char) :
    joinWith mark [piece] = piece := List.intercalate_singleton

theorem joinWith_cons_cons (mark : Char) (piece next : List Char) (rest : List (List Char)) :
    joinWith mark (piece :: next :: rest) = piece ++ mark :: joinWith mark (next :: rest) := by
  simp [joinWith, List.intercalate_cons_cons]

theorem joinWith_consHead (mark c : Char) (pieces : List (List Char)) :
    joinWith mark (consHead c pieces) = c :: joinWith mark pieces := by
  cases pieces with
  | nil => rfl
  | cons piece rest => cases rest <;> simp [consHead, joinWith_cons_cons]

theorem joinWith_nil_cons (mark : Char) {pieces : List (List Char)} (some : pieces ≠ []) :
    joinWith mark ([] :: pieces) = mark :: joinWith mark pieces := by
  cases pieces with
  | nil => contradiction
  | cons piece rest => rw [joinWith_cons_cons, List.nil_append]

theorem mem_joinWith {mark c : Char} {pieces : List (List Char)}
    (member : c ∈ joinWith mark pieces) : c = mark ∨ ∃ piece ∈ pieces, c ∈ piece := by
  induction pieces with
  | nil => simp at member
  | cons piece rest ih =>
    cases rest with
    | nil => exact Or.inr ⟨piece, by simp, by simpa using member⟩
    | cons next rest =>
      rw [joinWith_cons_cons, List.mem_append, List.mem_cons] at member
      rcases member with inPiece | isMark | inRest
      · exact Or.inr ⟨piece, by simp, inPiece⟩
      · exact Or.inl isMark
      · rcases ih inRest with isMark | ⟨other, among, inOther⟩
        · exact Or.inl isMark
        · exact Or.inr ⟨other, List.mem_cons_of_mem piece among, inOther⟩

theorem mem_joinWith_of_mem {mark c : Char} {piece : List Char} {pieces : List (List Char)}
    (among : piece ∈ pieces) (inPiece : c ∈ piece) : c ∈ joinWith mark pieces := by
  induction pieces with
  | nil => simp at among
  | cons first rest ih =>
    cases rest with
    | nil =>
      obtain rfl := List.mem_singleton.mp among
      rwa [joinWith_singleton]
    | cons next rest =>
      rw [joinWith_cons_cons, List.mem_append, List.mem_cons]
      rcases List.mem_cons.mp among with rfl | later
      · exact Or.inl inPiece
      · exact Or.inr (Or.inr (ih later))

theorem absent_joinWith {mark c : Char} {pieces others : List (List Char)} (known : others ⊆ pieces)
    (other : c ≠ mark) (absent : c ∉ joinWith mark pieces) : c ∉ joinWith mark others := by
  intro member
  rcases mem_joinWith member with isMark | ⟨piece, among, inPiece⟩
  · exact other isMark
  · exact absent (mem_joinWith_of_mem (known among) inPiece)

theorem joinWith_ne_nil {mark : Char} {piece : List Char} {pieces : List (List Char)}
    (member : piece ∈ pieces) (inhabited : piece ≠ []) : joinWith mark pieces ≠ [] := by
  cases pieces with
  | nil => simp at member
  | cons first rest =>
    cases rest with
    | nil =>
      rw [List.mem_singleton] at member
      simpa [← member] using inhabited
    | cons next rest => simp [joinWith_cons_cons]

theorem count_joinWith (mark c : Char) (pieces : List (List Char)) :
    (joinWith mark pieces).count c =
      pieces.flatten.count c + if c = mark then pieces.length - 1 else 0 := by
  induction pieces with
  | nil => simp
  | cons piece rest ih =>
    cases rest with
    | nil => simp
    | cons next rest =>
      rw [joinWith_cons_cons, List.count_append, List.count_cons, ih, List.flatten_cons,
        List.count_append]
      by_cases same : c = mark
      · simp [same]
        omega
      · simp [same, Ne.symm same]

theorem count_flatten_splitOn {mark c : Char} (other : c ≠ mark) (s : List Char) :
    (splitOn mark s).flatten.count c = s.count c := by
  have counts := count_joinWith mark c (splitOn mark s)
  rw [joinWith_splitOn, if_neg other, Nat.add_zero] at counts
  exact counts.symm

theorem length_splitOn (mark : Char) (s : List Char) :
    (splitOn mark s).length = s.count mark + 1 := by
  induction s with
  | nil => rfl
  | cons c rest ih =>
    rw [splitOn, List.count_cons]
    by_cases here : c = mark
    · simp [here, ih]
    · rw [if_neg here, consHead_eq_modifyHead c _ (List.ne_nil_of_length_eq_add_one ih)]
      simp [here, ih]

/-- The pieces of a text are the texts without the mark that the mark joins to it. -/
theorem splitOn_eq_iff {mark : Char} {s : List Char} {pieces : List (List Char)} :
    splitOn mark s = pieces ↔
      pieces ≠ [] ∧ (∀ piece ∈ pieces, mark ∉ piece) ∧ joinWith mark pieces = s := by
  constructor
  · rintro rfl
    have length := length_splitOn mark s
    have counts := count_joinWith mark mark (splitOn mark s)
    rw [joinWith_splitOn, if_pos rfl, length] at counts
    have absent : mark ∉ (splitOn mark s).flatten := List.count_eq_zero.mp (by omega)
    refine ⟨List.ne_nil_of_length_eq_add_one length, ?_, joinWith_splitOn mark s⟩
    exact fun piece member inPiece => absent (List.mem_flatten.mpr ⟨piece, member, inPiece⟩)
  · rintro ⟨some, clean, rfl⟩
    exact splitOn_joinWith mark pieces clean some

theorem count_flatten_of_once {c : Char} {pieces : List (List Char)}
    (once : ∀ piece ∈ pieces, piece.count c = 1) : pieces.flatten.count c = pieces.length := by
  induction pieces with
  | nil => rfl
  | cons piece rest ih =>
    obtain ⟨first, others⟩ := List.forall_mem_cons.mp once
    rw [List.flatten_cons, List.count_append, first, ih others, List.length_cons, Nat.add_comm]

end AggregateQuery.Text
