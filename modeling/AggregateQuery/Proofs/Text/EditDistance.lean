import Mathlib.Data.List.Induction
import Mathlib.Order.Bounds.Basic
import AggregateQuery.Text.Distance
/-!
The distance table holds least numbers of edits, and of the names that are offered the first of the
nearest is suggested, if it is near at all.
-/
namespace AggregateQuery.Text

/-- One character is inserted, deleted or replaced, at any place. -/
inductive Edit : List Char → List Char → Prop where
  | insert (front : List Char) (c : Char) (behind : List Char) :
    Edit (front ++ behind) (front ++ c :: behind)
  | delete (front : List Char) (c : Char) (behind : List Char) :
    Edit (front ++ c :: behind) (front ++ behind)
  | replace (front : List Char) (c d : Char) (behind : List Char) :
    Edit (front ++ c :: behind) (front ++ d :: behind)

/-- Whether so many edits, one after the other, make the one text from the other. -/
inductive EditsIn : Nat → List Char → List Char → Prop where
  | done (a : List Char) : EditsIn 0 a a
  | next {n : Nat} {a between b : List Char} (edit : Edit a between) (rest : EditsIn n between b) :
    EditsIn (n + 1) a b

variable {a b : List Char} {n : Nat}

theorem Edit.cons (c : Char) (edit : Edit a b) : Edit (c :: a) (c :: b) := by
  cases edit with
  | insert front d behind => exact .insert (c :: front) d behind
  | delete front d behind => exact .delete (c :: front) d behind
  | replace front d e behind => exact .replace (c :: front) d e behind

namespace EditsIn

theorem cons (c : Char) (edits : EditsIn n a b) : EditsIn n (c :: a) (c :: b) := by
  induction edits with
  | done a => exact .done (c :: a)
  | next edit _ ih => exact .next (edit.cons c) ih

theorem insertFront (c : Char) (edits : EditsIn n a b) : EditsIn (n + 1) a (c :: b) :=
  .next (.insert [] c a) (edits.cons c)

theorem deleteFront (c : Char) (edits : EditsIn n a b) : EditsIn (n + 1) (c :: a) b :=
  .next (.delete [] c a) edits

theorem replaceFront (c d : Char) (edits : EditsIn n a b) : EditsIn (n + 1) (c :: a) (d :: b) :=
  .next (.replace [] c d a) (edits.cons d)

end EditsIn

theorem distanceRow_ne_nil (c : Char) (target : List Char) {row : List Nat} (inhabited : row ≠ []) :
    distanceRow c target row ≠ [] := by
  unfold distanceRow
  split
  · simp
  · simpa using inhabited

theorem distances_ne_nil (target s : List Char) : distances target s ≠ [] := by
  induction s with
  | nil => simp [distances]
  | cons c rest ih => exact distanceRow_ne_nil c target ih

theorem distances_eq_head_cons (target s : List Char) :
    ∃ row, distances target s = distance s target :: row := by
  obtain ⟨here, row, whole⟩ := List.exists_cons_of_ne_nil (distances_ne_nil target s)
  exact ⟨row, by rw [distance, whole, List.headD_cons]⟩

/-- A row of the table has that of a shorter target behind its first entry. -/
theorem distances_cons (t : Char) (target s : List Char) :
    distances (t :: target) s = distance s (t :: target) :: distances target s := by
  induction s with
  | nil => simp [distance, distances, List.range_succ]
  | cons c rest ih =>
    obtain ⟨row, shorter⟩ := distances_eq_head_cons target rest
    rw [distance, distances, ih, distances, shorter]
    rfl

theorem distance_nil_left (b : List Char) : distance [] b = b.length := by
  simp [distance, distances, List.range_succ]

theorem distance_nil_right (a : List Char) : distance a [] = a.length := by
  have single (s : List Char) : distances [] s = [s.length] := by
    induction s with
    | nil => rfl
    | cons c rest ih => simp [distances, ih, distanceRow]
  rw [distance, single, List.headD_cons]

theorem distance_cons_cons (c d : Char) (a b : List Char) : distance (c :: a) (d :: b) =
    min (if c = d then distance a b else distance a b + 1)
      (min (distance a (d :: b) + 1) (distance (c :: a) b + 1)) := by
  obtain ⟨row, shorter⟩ := distances_eq_head_cons b a
  have first : distance (c :: a) b = (distanceRow c b (distance a b :: row)).headD 0 := by
    rw [← shorter]
    rfl
  rw [first, distance, distances, distances_cons, shorter]
  rfl

theorem distance_self (a : List Char) : distance a a = 0 := by
  induction a with
  | nil => rfl
  | cons c rest ih => simp [distance_cons_cons, ih]

theorem distance_cons_left_le (c : Char) (a t : List Char) :
    distance (c :: a) t ≤ distance a t + 1 := by
  cases t with
  | nil => simp [distance_nil_right]
  | cons d t =>
    rw [distance_cons_cons]
    omega

theorem distance_cons_right_le (a : List Char) (d : Char) (t : List Char) :
    distance a (d :: t) ≤ distance a t + 1 := by
  cases a with
  | nil => simp [distance_nil_left]
  | cons c a =>
    rw [distance_cons_cons]
    omega

theorem distance_le_cons_left (c : Char) (a t : List Char) :
    distance a t ≤ distance (c :: a) t + 1 := by
  induction t with
  | nil =>
    simp only [distance_nil_right, List.length_cons]
    omega
  | cons d t ih =>
    have inserted := distance_cons_right_le a d t
    rw [distance_cons_cons]
    split <;> omega

theorem distance_replaced_le (c d : Char) (a t : List Char) :
    distance (c :: a) t ≤ distance (d :: a) t + 1 := by
  induction t with
  | nil => simp [distance_nil_right]
  | cons e t ih =>
    rw [distance_cons_cons, distance_cons_cons]
    split <;> split <;> omega

theorem distance_behind_le (near : ∀ t, distance a t ≤ distance b t + 1) (front t : List Char) :
    distance (front ++ a) t ≤ distance (front ++ b) t + 1 := by
  induction front generalizing t with
  | nil => exact near t
  | cons c front ih =>
    rw [List.cons_append, List.cons_append]
    induction t with
    | nil =>
      have shorter := ih []
      simp only [distance_nil_right, List.length_cons] at shorter ⊢
      omega
    | cons d t ihTarget =>
      have swapped := ih t
      have deleted := ih (d :: t)
      rw [distance_cons_cons, distance_cons_cons]
      split <;> omega

theorem Edit.distance_le (edit : Edit a b) (t : List Char) : distance a t ≤ distance b t + 1 := by
  cases edit with
  | insert front c behind =>
    exact distance_behind_le (distance_le_cons_left c behind) front t
  | delete front c behind =>
    exact distance_behind_le (distance_cons_left_le c behind) front t
  | replace front c d behind =>
    exact distance_behind_le (distance_replaced_le c d behind) front t

theorem EditsIn.distance_le (edits : EditsIn n a b) : distance a b ≤ n := by
  induction edits with
  | done a => rw [distance_self]
  | next edit _ ih => exact (edit.distance_le _).trans (Nat.succ_le_succ ih)

theorem editsIn_distance (a b : List Char) : EditsIn (distance a b) a b := by
  induction a generalizing b with
  | nil =>
    rw [distance_nil_left]
    induction b with
    | nil => exact .done []
    | cons d b ih => exact ih.insertFront d
  | cons c a ih =>
    induction b with
    | nil =>
      have emptied := ih []
      rw [distance_nil_right] at emptied ⊢
      exact emptied.deleteFront c
    | cons d b ihTarget =>
      have first : distance (c :: a) (d :: b) = (if c = d then distance a b else distance a b + 1) ∨
          distance (c :: a) (d :: b) = distance a (d :: b) + 1 ∨
          distance (c :: a) (d :: b) = distance (c :: a) b + 1 := by
        rw [distance_cons_cons]
        omega
      rcases first with swapped | deleted | inserted
      · rw [swapped]
        split
        · rename_i same
          rw [← same]
          exact (ih b).cons c
        · exact (ih b).replaceFront c d
      · rw [deleted]
        exact (ih (d :: b)).deleteFront c
      · rw [inserted]
        exact ihTarget.insertFront d

theorem distance_isLeast (a b : List Char) : IsLeast {n | EditsIn n a b} (distance a b) :=
  ⟨editsIn_distance a b, fun _ edits => edits.distance_le⟩

/-- Whether a candidate is near a name, nearer than all candidates in front of it and no farther
than those behind it. -/
def FirstNearest (name : String) (candidates : List String) (s : String) : Prop :=
  ∃ before after, candidates = before ++ s :: after ∧ nameDistance name s ≤ suggestionLimit ∧
    (∀ c ∈ before, nameDistance name s < nameDistance name c) ∧
    ∀ c ∈ after, nameDistance name s ≤ nameDistance name c

def BestSoFar (name : String) (candidates : List String) : Option (Nat × String) → Prop
  | none => ∀ c ∈ candidates, suggestionLimit < nameDistance name c
  | some (least, s) => least = nameDistance name s ∧ FirstNearest name candidates s

variable {name s : String} {candidates : List String}

theorem FirstNearest.extended {c : String} (first : FirstNearest name candidates s)
    (farther : nameDistance name s ≤ nameDistance name c) :
    FirstNearest name (candidates ++ [c]) s := by
  obtain ⟨before, after, rfl, near, nearer, nearest⟩ := first
  refine ⟨before, after ++ [c], by simp, near, nearer, ?_⟩
  rw [List.forall_mem_append, List.forall_mem_singleton]
  exact ⟨nearest, farther⟩

theorem FirstNearest.least (first : FirstNearest name candidates s) :
    ∀ c ∈ candidates, nameDistance name s ≤ nameDistance name c := by
  obtain ⟨before, after, rfl, _, nearer, nearest⟩ := first
  rw [List.forall_mem_append, List.forall_mem_cons]
  exact ⟨fun c member => Nat.le_of_lt (nearer c member), Nat.le_refl _, nearest⟩

theorem FirstNearest.among (first : FirstNearest name candidates s) :
    s ∈ candidates ∧ nameDistance name s ≤ suggestionLimit := by
  obtain ⟨before, after, rfl, near, _⟩ := first
  exact ⟨by simp, near⟩

theorem FirstNearest.find?_eq (first : FirstNearest name candidates s) :
    candidates.find? (fun c => decide (nameDistance name c ≤ nameDistance name s)) = some s := by
  obtain ⟨before, after, rfl, _, nearer, _⟩ := first
  refine List.find?_eq_some_iff_append.mpr ⟨by simp, before, after, rfl, ?_⟩
  intro c member
  simpa using nearer c member

theorem FirstNearest.unique {t : String} (first : FirstNearest name candidates s)
    (firstToo : FirstNearest name candidates t) : s = t := by
  have same : nameDistance name s = nameDistance name t :=
    Nat.le_antisymm (first.least t firstToo.among.1) (firstToo.least s first.among.1)
  have found := first.find?_eq
  rw [same, firstToo.find?_eq] at found
  exact (Option.some.inj found).symm

theorem firstNearest_last (near : nameDistance name s ≤ suggestionLimit)
    (nearer : ∀ c ∈ candidates, nameDistance name s < nameDistance name c) :
    FirstNearest name (candidates ++ [s]) s :=
  ⟨candidates, [], rfl, near, nearer, by simp⟩

theorem bestSoFar_keepNearer {best : Option (Nat × String)} (holds : BestSoFar name candidates best)
    (c : String) : BestSoFar name (candidates ++ [c]) (keepNearer name best c) := by
  unfold keepNearer
  dsimp only
  split
  · rename_i far
    cases best with
    | none =>
      rw [BestSoFar, List.forall_mem_append, List.forall_mem_singleton]
      exact ⟨holds, far⟩
    | some best =>
      obtain ⟨same, first⟩ := holds
      exact ⟨same, first.extended (first.among.2.trans (Nat.le_of_lt far))⟩
  · rename_i near
    rw [Nat.not_lt] at near
    cases best with
    | none =>
      have nearer : ∀ other ∈ candidates, nameDistance name c < nameDistance name other :=
        fun other member => Nat.lt_of_le_of_lt near (holds other member)
      exact ⟨rfl, firstNearest_last near nearer⟩
    | some best =>
      obtain ⟨same, first⟩ := holds
      dsimp only
      split
      · rename_i kept
        exact ⟨same, first.extended (same ▸ kept)⟩
      · rename_i nearer
        rw [same, Nat.not_le] at nearer
        exact ⟨rfl, firstNearest_last near fun other member =>
          Nat.lt_of_lt_of_le nearer (first.least other member)⟩

theorem bestSoFar_foldl (name : String) (candidates : List String) :
    BestSoFar name candidates (candidates.foldl (keepNearer name) none) := by
  induction candidates using List.reverseRecOn with
  | nil => simp [BestSoFar]
  | append_singleton candidates c ih =>
    rw [List.foldl_append]
    exact bestSoFar_keepNearer ih c

theorem closest?_cases (name : String) (candidates : List String) :
    closest? name candidates = none ∧
        (∀ c ∈ candidates, suggestionLimit < nameDistance name c) ∨
      ∃ s, closest? name candidates = some s ∧ FirstNearest name candidates s := by
  have holds := bestSoFar_foldl name candidates
  rw [closest?]
  cases folded : candidates.foldl (keepNearer name) none with
  | none =>
    rw [folded] at holds
    exact Or.inl ⟨rfl, holds⟩
  | some best =>
    rw [folded] at holds
    exact Or.inr ⟨best.2, rfl, holds.2⟩

theorem closest?_eq_none_iff : closest? name candidates = none ↔
    ∀ c ∈ candidates, suggestionLimit < nameDistance name c := by
  rcases closest?_cases name candidates with ⟨none, far⟩ | ⟨s, found, first⟩
  · exact iff_of_true none far
  · refine iff_of_false (by simp [found]) fun far => ?_
    exact Nat.not_lt_of_le first.among.2 (far s first.among.1)

theorem closest?_eq_some_iff : closest? name candidates = some s ↔
    FirstNearest name candidates s := by
  rcases closest?_cases name candidates with ⟨none, far⟩ | ⟨t, found, first⟩
  · refine iff_of_false (by simp [none]) fun first => ?_
    exact Nat.not_lt_of_le first.among.2 (far s first.among.1)
  · rw [found, Option.some_inj]
    constructor
    · rintro rfl
      exact first
    · exact first.unique

end AggregateQuery.Text
