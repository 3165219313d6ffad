import AggregateQuery.Text.Basic
/-!
Trimming takes blanks away at the ends and nothing else.
-/
namespace AggregateQuery.Text

theorem visible_of_printable {c : Char} (above : 32 < c.toNat) (below : c.toNat < 127) :
    isBlank c = false := by
  rw [Bool.eq_false_iff]
  intro blank
  simp only [isBlank, Bool.or_eq_true, Bool.and_eq_true, decide_eq_true_eq, beq_iff_eq] at blank
  omega

theorem kept_append_dropped {α : Type} (p : α → Bool) (s : List α) :
    (s.reverse.dropWhile p).reverse ++ (s.reverse.takeWhile p).reverse = s := by
  rw [← List.reverse_append, List.takeWhile_append_dropWhile, List.reverse_reverse]

theorem trim_between_blanks (s : List Char) : ∃ front back, s = front ++ trim s ++ back ∧
    (∀ c ∈ front, isBlank c = true) ∧ ∀ c ∈ back, isBlank c = true := by
  refine ⟨s.takeWhile isBlank, ((trimStart s).reverse.takeWhile isBlank).reverse, ?_, ?_, ?_⟩
  · rw [List.append_assoc, trim, trimEnd, kept_append_dropped, trimStart,
      List.takeWhile_append_dropWhile]
  · exact List.all_eq_true.mp List.all_takeWhile
  · intro c member
    rw [List.mem_reverse] at member
    exact List.all_eq_true.mp List.all_takeWhile c member

def IsTrimmed (s : List Char) : Prop :=
  (∀ c ∈ s.head?, isBlank c = false) ∧ ∀ c ∈ s.getLast?, isBlank c = false

theorem dropWhile_blank_of_head {s : List Char} (visible : ∀ c ∈ s.head?, isBlank c = false) :
    s.dropWhile isBlank = s := by
  cases s with
  | nil => rfl
  | cons c rest =>
    have first : isBlank c = false := visible c rfl
    exact List.dropWhile_cons_of_neg (by simp [first])

theorem trim_of_isTrimmed {s : List Char} (trimmed : IsTrimmed s) : trim s = s := by
  have backwards : ∀ c ∈ s.reverse.head?, isBlank c = false := by
    rw [List.head?_reverse]
    exact trimmed.2
  rw [trim, trimStart, dropWhile_blank_of_head trimmed.1, trimEnd,
    dropWhile_blank_of_head backwards, List.reverse_reverse]

theorem trim_blanks_around {front back : List Char} (s : List Char)
    (blankFront : ∀ c ∈ front, isBlank c = true) (blankBack : ∀ c ∈ back, isBlank c = true) :
    trim (front ++ s ++ back) = trim s := by
  have blankReverse : ∀ c ∈ back.reverse, isBlank c = true := by
    intro c member
    exact blankBack c (List.mem_reverse.mp member)
  have atEnd (x : List Char) : trimEnd (x ++ back) = trimEnd x := by
    rw [trimEnd, List.reverse_append, List.dropWhile_append_of_pos blankReverse, trimEnd]
  rw [trim, trimStart, List.append_assoc, List.dropWhile_append_of_pos blankFront,
    List.dropWhile_append]
  split
  · rename_i none
    have blank : back.dropWhile isBlank = [] := by
      rw [← List.append_nil back, List.dropWhile_append_of_pos blankBack, List.dropWhile_nil]
    rw [blank, trim, trimStart, List.isEmpty_iff.mp none]
  · rw [atEnd, trim, trimStart]

theorem isTrimmed_trim (s : List Char) : IsTrimmed (trim s) := by
  have head (x : List Char) : ∀ c ∈ (x.dropWhile isBlank).head?, isBlank c = false := by
    intro c first
    have visible := List.head?_dropWhile_not isBlank x
    rw [Option.mem_def.mp first] at visible
    exact visible
  constructor
  · intro c first
    cases trimmed : trim s with
    | nil => simp [trimmed] at first
    | cons d rest =>
      -- What trimming the end leaves begins like the text it is taken from.
      have start : trimStart s = d :: (rest ++
          ((trimStart s).reverse.takeWhile isBlank).reverse) := by
        rw [← List.cons_append, ← trimmed, trim, trimEnd, kept_append_dropped]
      have same : d = c := by simpa [trimmed] using first
      refine head s c ?_
      rw [← trimStart, start, same]
      rfl
  · intro c last
    rw [trim, trimEnd, List.getLast?_reverse] at last
    exact head _ c last

/-- Whether a text without blanks at its ends is what stands between the outer blanks of another. -/
def TrimsTo (s core : List Char) : Prop :=
  IsTrimmed core ∧ ∃ front back, s = front ++ core ++ back ∧
    (∀ c ∈ front, isBlank c = true) ∧ ∀ c ∈ back, isBlank c = true

theorem trimsTo_iff {s core : List Char} : TrimsTo s core ↔ trim s = core := by
  constructor
  · rintro ⟨trimmed, front, back, rfl, blankFront, blankBack⟩
    rw [trim_blanks_around core blankFront blankBack, trim_of_isTrimmed trimmed]
  · rintro rfl
    exact ⟨isTrimmed_trim s, trim_between_blanks s⟩

theorem trim_trim (s : List Char) : trim (trim s) = trim s :=
  trim_of_isTrimmed (isTrimmed_trim s)

theorem trim_of_no_blanks {s : List Char} (visible : ∀ c ∈ s, isBlank c = false) : trim s = s :=
  trim_of_isTrimmed ⟨fun c first => visible c (List.mem_of_mem_head? first),
    fun c last => visible c (List.mem_of_getLast? last)⟩

theorem trim_prefix_of_visible {c : Char} {rest : List Char} (visible : isBlank c = false) :
    trim (c :: rest) <+: c :: rest := by
  obtain ⟨front, back, whole, blankFront, _⟩ := trim_between_blanks (c :: rest)
  cases front with
  | nil => exact ⟨back, whole.symm⟩
  | cons first front =>
    have same : c = first := (List.cons.inj whole).1
    have blank := blankFront first List.mem_cons_self
    rw [← same, visible] at blank
    contradiction

theorem count_trim {c : Char} (visible : isBlank c = false) (s : List Char) :
    (trim s).count c = s.count c := by
  obtain ⟨front, back, whole, blankFront, blankBack⟩ := trim_between_blanks s
  have none {blanks : List Char} (blank : ∀ d ∈ blanks, isBlank d = true) :
      blanks.count c = 0 := by
    rw [List.count_eq_zero]
    intro member
    exact Bool.false_ne_true (visible.symm.trans (blank c member))
  have counts := congrArg (List.count c) whole
  rw [List.count_append, List.count_append, none blankFront, none blankBack] at counts
  omega

theorem mem_trim_iff {c : Char} {s : List Char} (visible : isBlank c = false) :
    c ∈ trim s ↔ c ∈ s := by
  rw [← List.count_pos_iff, count_trim visible, List.count_pos_iff]

end AggregateQuery.Text
