import Mathlib.Data.List.Forall2
import AggregateQuery.Proofs.Text.Entries
/-!
The pieces of a text. A text is joined in one way only from pieces that can be found again, and
cutting it gives these pieces, each of them where its bytes begin and end.
-/
namespace AggregateQuery.Text

variable {delimiter : Char}

/-- Whether texts can be found again when a delimiter joins them: none of them would be cut, and
brackets are left open by the last one at most. -/
structure Separable (delimiter : Char) (pieces : List (List Char)) : Prop where
  some : pieces ≠ []
  hide : ∀ piece ∈ pieces, HidesDelimiter delimiter 0 piece
  closed : ∀ piece ∈ pieces.dropLast, depthAfter 0 piece = 0

theorem joinWith_splitOutside (delimiter : Char) (depth : Nat) (s : List Char) :
    joinWith delimiter (splitOutside delimiter depth s) = s := by
  induction s generalizing depth with
  | nil => rfl
  | cons c rest ih =>
    rw [splitOutside]
    split
    · rename_i ends
      have isDelimiter : c = delimiter := by
        simp only [endsPiece, Bool.and_eq_true, beq_iff_eq] at ends
        exact ends.1.1.1
      rw [joinWith_nil_cons _ (splitOutside_ne_nil delimiter depth rest), ih, isDelimiter]
    · rw [joinWith_consHead, ih]

theorem splitOutside_eq_iff (delimits : CanDelimit delimiter) {s : List Char}
    {pieces : List (List Char)} : splitOutside delimiter 0 s = pieces ↔
      Separable delimiter pieces ∧ joinWith delimiter pieces = s := by
  constructor
  · rintro rfl
    refine ⟨⟨splitOutside_ne_nil delimiter 0 s, ?_, fun _ => closed_pieces delimits⟩,
      joinWith_splitOutside delimiter 0 s⟩
    obtain ⟨first, others, whole, hides, hideOthers, _⟩ := splitOutside_spec delimits 0 s
    rw [whole]
    exact List.forall_mem_cons.mpr ⟨hides, hideOthers⟩
  · rintro ⟨separable, rfl⟩
    exact splitOutside_joinWith delimits separable.some separable.hide separable.closed

/-- The byte offsets between which joined pieces stand, the first of them at `start`. -/
def spans (delimiter : Char) (start : Nat) : List (List Char) → List (Nat × Nat)
  | [] => []
  | piece :: rest =>
    let stop := start + (String.ofList piece).utf8ByteSize
    (start, stop) :: spans delimiter (stop + delimiter.utf8Size) rest

def IsSlice (query : String) (span : Nat × Nat) (piece : List Char) : Prop :=
  ∃ start stop : query.Pos, start.offset.byteIdx = span.1 ∧ stop.offset.byteIdx = span.2 ∧
    query.extract start stop = String.ofList piece

theorem isSlice_append (before piece after : List Char) :
    IsSlice (String.ofList (before ++ piece ++ after))
      ((String.ofList before).utf8ByteSize,
        (String.ofList before).utf8ByteSize + (String.ofList piece).utf8ByteSize) piece := by
  have atStart : String.ofList (before ++ piece ++ after) =
      String.ofList before ++ String.ofList (piece ++ after) := by
    rw [← String.ofList_append, List.append_assoc]
  have atStop : String.ofList (before ++ piece ++ after) =
      String.ofList (before ++ piece) ++ String.ofList after := String.ofList_append
  have inFront : String.ofList (piece ++ after) = String.ofList piece ++ String.ofList after :=
    String.ofList_append
  have size : (String.ofList (before ++ piece)).utf8ByteSize =
      (String.ofList before).utf8ByteSize + (String.ofList piece).utf8ByteSize := by
    rw [String.ofList_append, String.utf8ByteSize_append]
  have bytes := ByteArray.extract_append_size_add (a := (String.ofList before).toByteArray)
    (b := (String.ofList (piece ++ after)).toByteArray) (i := 0)
    (j := (String.ofList piece).utf8ByteSize)
  rw [← String.toByteArray_append, ← atStart, inFront, String.toByteArray_append,
    ByteArray.extract_append_eq_left String.size_toByteArray.symm, Nat.add_zero,
    String.size_toByteArray] at bytes
  refine ⟨.ofEqAppend atStart, .ofEqAppend atStop, rfl, size, ?_⟩
  rw [← String.toByteArray_inj, ← bytes, ← size]
  rfl

theorem slices_of_joined (delimiter : Char) (before : List Char) (pieces : List (List Char)) :
    List.Forall₂ (IsSlice (String.ofList (before ++ joinWith delimiter pieces)))
      (spans delimiter (String.ofList before).utf8ByteSize pieces) pieces := by
  induction pieces generalizing before with
  | nil => exact .nil
  | cons piece rest ih =>
    cases rest with
    | nil =>
      have here := isSlice_append before piece []
      rw [List.append_nil] at here
      rw [joinWith_singleton]
      exact .cons here .nil
    | cons next rest =>
      -- What stands before the next piece ends with this one and the delimiter.
      have here := isSlice_append before piece (delimiter :: joinWith delimiter (next :: rest))
      have others := ih (before ++ piece ++ [delimiter])
      have start : (String.ofList (before ++ piece ++ [delimiter])).utf8ByteSize =
          (String.ofList before).utf8ByteSize + (String.ofList piece).utf8ByteSize +
            delimiter.utf8Size := by
        simp [String.ofList_append, Nat.add_assoc]
      rw [start, List.append_assoc _ [delimiter], List.singleton_append,
        List.append_assoc] at others
      rw [List.append_assoc] at here
      rw [joinWith_cons_cons]
      exact .cons here others

/-- Cutting finds separable texts again in what joins them. Each query is joined from one list of
them only, which are slices of it behind one another; its entries are these, trimmed, unless it is
blank and has none. -/
theorem cutting_inverts_joining (delimits : CanDelimit delimiter) :
    (∀ pieces, Separable delimiter pieces → isBlankText (joinWith delimiter pieces) = false →
      entries delimiter (joinWith delimiter pieces) = pieces.map trim) ∧
    (∀ query : String, ∃ pieces,
      (∀ others, Separable delimiter others ∧ joinWith delimiter others = query.toList ↔
        others = pieces) ∧
      List.Forall₂ (IsSlice query) (spans delimiter 0 pieces) pieces ∧
      (isBlankText query.toList = false →
        entries delimiter query.toList = pieces.map trim)) ∧
    ∀ query, isBlankText query = true → entries delimiter query = [] := by
  refine ⟨?_, ?_, ?_⟩
  · intro pieces separable visible
    rw [entries_of_not_blank visible, (splitOutside_eq_iff delimits).mpr ⟨separable, rfl⟩]
  · intro query
    refine ⟨splitOutside delimiter 0 query.toList, ?_, ?_, entries_of_not_blank⟩
    · intro others
      rw [← splitOutside_eq_iff delimits, eq_comm]
    · have slices := slices_of_joined delimiter [] (splitOutside delimiter 0 query.toList)
      rwa [joinWith_splitOutside, List.nil_append, String.ofList_toList] at slices
  · intro query blank
    rw [entries, if_pos blank]

theorem arrows_cut_outside_brackets : CanDelimit '→' ∧
    entries '→' "a[x→y]→ b → [→".toList = ["a[x→y]".toList, "b".toList, "[→".toList] := by
  have delimits : CanDelimit '→' := ⟨by decide, by decide⟩
  obtain ⟨separable, joined⟩ := (splitOutside_eq_iff delimits).mp
    (rfl : splitOutside '→' 0 "a[x→y]→ b → [→".toList =
      ["a[x→y]".toList, " b ".toList, " [→".toList])
  have found := (cutting_inverts_joining delimits).1 _ separable rfl
  rw [joined] at found
  exact ⟨delimits, found⟩

end AggregateQuery.Text
