import Mathlib.Data.List.Basic
import AggregateQuery.Data.Grouped
/-!
Keeping first occurrences. What is added comes behind what is there, nothing that was there is
lost, and whatever was added has an equal among what is kept. Of the equality of elements no more
is asked than a statement needs: none of these asks that it be reflexive or symmetric.
-/
namespace AggregateQuery

variable {α : Type} [BEq α]

def AllDiffer (xs : List α) : Prop :=
  xs.Pairwise fun earlier later => (later == earlier) = false

theorem addAll_cons (xs : List α) (y : α) (ys : List α) :
    addAll xs (y :: ys) = addAll (addNew xs y) ys := rfl

theorem addAll_append (xs ys zs : List α) :
    addAll xs (ys ++ zs) = addAll (addAll xs ys) zs := List.foldl_append

theorem addNew_of_contains {xs : List α} {x : α} (there : xs.contains x = true) :
    addNew xs x = xs := by simp [addNew, there]

theorem addNew_of_not_contains {xs : List α} {x : α} (new : xs.contains x = false) :
    addNew xs x = xs ++ [x] := by simp [addNew, new]

theorem addNew_ne_nil (xs : List α) (x : α) : addNew xs x ≠ [] := by
  unfold addNew
  split
  · rename_i there
    intro empty
    simp [empty] at there
  · simp

theorem prefix_addAll (xs ys : List α) : xs <+: addAll xs ys := by
  induction ys generalizing xs with
  | nil => exact List.prefix_refl xs
  | cons y ys ih =>
    rw [addAll_cons]
    cases there : xs.contains y with
    | true =>
      rw [addNew_of_contains there]
      exact ih xs
    | false =>
      rw [addNew_of_not_contains there]
      exact (List.prefix_append xs [y]).trans (ih (xs ++ [y]))

theorem mem_addAll {x : α} {xs ys : List α} (member : x ∈ addAll xs ys) : x ∈ xs ∨ x ∈ ys := by
  induction ys generalizing xs with
  | nil => exact Or.inl member
  | cons y ys ih =>
    rcases ih member with early | late
    · cases there : xs.contains y with
      | true =>
        rw [addNew_of_contains there] at early
        exact Or.inl early
      | false =>
        rw [addNew_of_not_contains there, List.mem_append, List.mem_singleton] at early
        rcases early with old | rfl
        · exact Or.inl old
        · exact Or.inr List.mem_cons_self
    · exact Or.inr (List.mem_cons_of_mem y late)

theorem mem_of_mem_distinct {x : α} {xs : List α} (member : x ∈ distinct xs) : x ∈ xs := by
  rcases mem_addAll member with none | among
  · simp at none
  · exact among

theorem distinct_ne_nil {xs : List α} (some : xs ≠ []) : distinct xs ≠ [] := by
  cases xs with
  | nil => contradiction
  | cons x xs =>
    intro empty
    have start : [x] <+: distinct (x :: xs) := prefix_addAll [x] xs
    rw [empty] at start
    simp at start

theorem contains_eq_false_iff {xs : List α} {x : α} :
    xs.contains x = false ↔ ∀ y ∈ xs, (x == y) = false := by
  rw [List.contains_eq_any_beq, List.any_eq_false]
  simp

theorem allDiffer_addNew {xs : List α} (differ : AllDiffer xs) (x : α) :
    AllDiffer (addNew xs x) := by
  cases there : xs.contains x with
  | true => rwa [addNew_of_contains there]
  | false =>
    rw [addNew_of_not_contains there]
    refine List.pairwise_append.mpr ⟨differ, List.pairwise_singleton _ x, ?_⟩
    intro y member z last
    rw [List.mem_singleton.mp last]
    exact contains_eq_false_iff.mp there y member

theorem allDiffer_addAll {xs : List α} (differ : AllDiffer xs) (ys : List α) :
    AllDiffer (addAll xs ys) := by
  induction ys generalizing xs with
  | nil => exact differ
  | cons y ys ih => exact ih (allDiffer_addNew differ y)

theorem allDiffer_distinct (xs : List α) : AllDiffer (distinct xs) :=
  allDiffer_addAll List.Pairwise.nil xs

theorem addAll_of_allDiffer {xs ys : List α} (differ : AllDiffer (xs ++ ys)) :
    addAll xs ys = xs ++ ys := by
  induction ys generalizing xs with
  | nil => rw [List.append_nil]; rfl
  | cons y ys ih =>
    have new : xs.contains y = false := by
      rw [contains_eq_false_iff]
      intro x member
      exact (List.pairwise_append.mp differ).2.2 x member y List.mem_cons_self
    rw [addAll_cons, addNew_of_not_contains new, ih]
    · rw [List.append_assoc]; rfl
    · rwa [List.append_assoc]

theorem addAll_eq_append_filter (xs : List α) {ys : List α} (differ : AllDiffer ys) :
    addAll xs ys = xs ++ ys.filter fun y => !xs.contains y := by
  induction ys generalizing xs with
  | nil => simp [addAll]
  | cons y ys ih =>
    obtain ⟨others, differRest⟩ := List.pairwise_cons.mp differ
    rw [addAll_cons, ih _ differRest]
    cases there : xs.contains y with
    | true => rw [addNew_of_contains there, List.filter_cons_of_neg (by simp [there])]
    | false =>
      have same : ys.filter (fun z => !(xs ++ [y]).contains z) =
          ys.filter fun z => !xs.contains z := by
        refine List.filter_congr fun z later => ?_
        simp [List.contains_eq_any_beq, others z later]
      rw [addNew_of_not_contains there, same, List.filter_cons_of_pos (by simp [there]),
        List.append_assoc, List.singleton_append]

theorem distinct_of_allDiffer {xs : List α} (differ : AllDiffer xs) : distinct xs = xs :=
  addAll_of_allDiffer differ

/-- All that the union of lists needs of an equality. -/
def Chains (α : Type) [BEq α] : Prop := ∀ a b c : α, a == b → b == c → a == c

theorem chains_of_equiv [EquivBEq α] : Chains α := fun _ _ _ first second => BEq.trans first second

theorem contains_of_prefix {xs ys : List α} {x : α} (start : xs <+: ys)
    (there : xs.contains x = true) : ys.contains x = true := by
  obtain ⟨rest, rfl⟩ := start
  simp only [List.contains_eq_any_beq, List.any_append] at there ⊢
  rw [there, Bool.true_or]

theorem contains_addNew (chains : Chains α) (xs : List α) {x y : α} (equal : x == y) :
    (addNew xs y).contains x = true := by
  rw [List.contains_iff_exists_mem_beq]
  cases there : xs.contains y with
  | true =>
    obtain ⟨z, member, same⟩ := List.contains_iff_exists_mem_beq.mp there
    rw [addNew_of_contains there]
    exact ⟨z, member, chains x y z equal same⟩
  | false =>
    rw [addNew_of_not_contains there]
    exact ⟨y, by simp, equal⟩

theorem contains_addAll (chains : Chains α) (xs : List α) {ys : List α} {x y : α}
    (member : y ∈ ys) (equal : x == y) : (addAll xs ys).contains x = true := by
  induction ys generalizing xs with
  | nil => simp at member
  | cons first rest ih =>
    rcases List.mem_cons.mp member with rfl | later
    · exact contains_of_prefix (prefix_addAll _ rest) (contains_addNew chains xs equal)
    · exact ih (addNew xs first) later

theorem contains_addAll_iff (chains : Chains α) {xs ys : List α} {x : α} :
    (addAll xs ys).contains x = true ↔ xs.contains x = true ∨ ys.contains x = true := by
  constructor
  · intro there
    obtain ⟨y, member, equal⟩ := List.contains_iff_exists_mem_beq.mp there
    rcases mem_addAll member with early | late
    · exact Or.inl (List.contains_iff_exists_mem_beq.mpr ⟨y, early, equal⟩)
    · exact Or.inr (List.contains_iff_exists_mem_beq.mpr ⟨y, late, equal⟩)
  · rintro (early | late)
    · exact contains_of_prefix (prefix_addAll xs ys) early
    · obtain ⟨y, member, equal⟩ := List.contains_iff_exists_mem_beq.mp late
      exact contains_addAll chains xs member equal

theorem contains_distinct [ReflBEq α] (chains : Chains α) {xs : List α} {x : α}
    (member : x ∈ xs) : (distinct xs).contains x = true :=
  contains_addAll chains [] member (BEq.refl x)

theorem addAll_addNew (chains : Chains α) (xs ys : List α) (y : α) :
    addAll xs (addNew ys y) = addAll xs (ys ++ [y]) := by
  cases there : ys.contains y with
  | true =>
    obtain ⟨z, member, equal⟩ := List.contains_iff_exists_mem_beq.mp there
    rw [addNew_of_contains there, addAll_append]
    exact (addNew_of_contains (contains_addAll chains xs member equal)).symm
  | false => rw [addNew_of_not_contains there]

section Images

variable {β : Type} [BEq β] {f : α → β}

theorem addNew_map (tells : ∀ a b, (f a == f b) = (a == b)) (xs : List α) (x : α) :
    addNew (xs.map f) (f x) = (addNew xs x).map f := by
  have same : (xs.map f).contains (f x) = xs.contains x := by
    simp only [List.contains_eq_any_beq, List.any_map, Function.comp_def, tells]
  cases there : xs.contains x with
  | true => rw [addNew_of_contains (same.trans there), addNew_of_contains there]
  | false =>
    rw [addNew_of_not_contains (same.trans there), addNew_of_not_contains there, List.map_append]
    rfl

/-- A map that tells apart what differs commutes with keeping first occurrences. -/
theorem distinct_map (tells : ∀ a b, (f a == f b) = (a == b)) (xs : List α) :
    distinct (xs.map f) = (distinct xs).map f := by
  have run (kept : List α) : addAll (kept.map f) (xs.map f) = (addAll kept xs).map f := by
    induction xs generalizing kept with
    | nil => rfl
    | cons x rest ih => rw [List.map_cons, addAll_cons, addAll_cons, addNew_map tells, ih]
  exact run []

end Images

/-- Whether a list holds the elements of another, each once and in the order in which they first
come there. -/
structure FirstOccurrences (xs ys : List α) : Prop where
  same : ∀ x, x ∈ ys ↔ x ∈ xs
  ordered : ys.Pairwise fun a b => xs.idxOf a < xs.idxOf b

theorem FirstOccurrences.nodup {xs ys : List α} (first : FirstOccurrences xs ys) : ys.Nodup := by
  refine first.ordered.imp fun less same => ?_
  rw [same] at less
  exact Nat.lt_irrefl _ less

section Lawful

variable [LawfulBEq α]

theorem allDiffer_iff_nodup {xs : List α} : AllDiffer xs ↔ xs.Nodup := by
  rw [AllDiffer, List.nodup_iff_pairwise_ne]
  constructor
  · intro differ
    exact differ.imp fun different same => by simp [same] at different
  · intro nodup
    exact nodup.imp fun different => by simpa using Ne.symm different

theorem nodup_distinct (xs : List α) : (distinct xs).Nodup :=
  allDiffer_iff_nodup.mp (allDiffer_distinct xs)

theorem distinct_of_nodup {xs : List α} (nodup : xs.Nodup) : distinct xs = xs :=
  distinct_of_allDiffer (allDiffer_iff_nodup.mpr nodup)

theorem mem_distinct_iff {xs : List α} {x : α} : x ∈ distinct xs ↔ x ∈ xs := by
  constructor
  · exact mem_of_mem_distinct
  · intro member
    exact List.contains_iff_mem.mp (contains_distinct chains_of_equiv member)

theorem length_distinct_le (xs : List α) : (distinct xs).length ≤ xs.length :=
  (nodup_distinct xs).length_le_of_subset fun _ member => mem_of_mem_distinct member

theorem FirstOccurrences.addNew {xs ys : List α} (first : FirstOccurrences xs ys) (x : α) :
    FirstOccurrences (xs ++ [x]) (addNew ys x) := by
  have early : ys.Pairwise fun a b => (xs ++ [x]).idxOf a < (xs ++ [x]).idxOf b := by
    refine first.ordered.imp_of_mem ?_
    intro a b inYs inYsToo less
    rwa [List.idxOf_append_of_mem ((first.same a).mp inYs),
      List.idxOf_append_of_mem ((first.same b).mp inYsToo)]
  cases there : ys.contains x with
  | true =>
    have member : x ∈ xs := (first.same x).mp (List.contains_iff_mem.mp there)
    rw [addNew_of_contains there]
    refine ⟨?_, early⟩
    intro y
    rw [first.same, List.mem_append, List.mem_singleton]
    exact ⟨Or.inl, fun either => either.elim id fun last => last ▸ member⟩
  | false =>
    have absent : x ∉ xs := by
      intro member
      simp [(first.same x).mpr member] at there
    rw [addNew_of_not_contains there]
    refine ⟨fun y => by simp [first.same], List.pairwise_append.mpr ⟨early, by simp, ?_⟩⟩
    intro y inYs z last
    have member : y ∈ xs := (first.same y).mp inYs
    rw [List.mem_singleton.mp last, List.idxOf_append_of_mem member,
      List.idxOf_append_of_notMem absent]
    exact Nat.lt_add_right _ (List.idxOf_lt_length_of_mem member)

theorem firstOccurrences_distinct (xs : List α) : FirstOccurrences xs (distinct xs) := by
  have run (done kept : List α) (first : FirstOccurrences done kept) :
      FirstOccurrences (done ++ xs) (addAll kept xs) := by
    induction xs generalizing done kept with
    | nil => simpa [addAll] using first
    | cons x rest ih =>
      have whole := ih (done ++ [x]) (addNew kept x) (first.addNew x)
      rwa [List.append_assoc] at whole
  exact run [] [] ⟨by simp, List.Pairwise.nil⟩

theorem firstRepeated?_eq_none_iff {earlier xs : List α} :
    firstRepeated? earlier xs = none ↔ xs.Nodup ∧ ∀ x ∈ xs, x ∉ earlier := by
  induction xs generalizing earlier with
  | nil => simp [firstRepeated?]
  | cons x xs ih =>
    rw [firstRepeated?]
    split
    · rename_i repeated
      have member : x ∈ earlier := List.contains_iff_mem.mp repeated
      simp [member]
    · rename_i new
      rw [List.contains_iff_mem] at new
      rw [ih, List.nodup_cons]
      constructor
      · intro parts
        obtain ⟨nodup, apart⟩ := parts
        refine ⟨⟨fun again => apart x again List.mem_cons_self, nodup⟩, ?_⟩
        intro y member
        rcases List.mem_cons.mp member with rfl | later
        · exact new
        · exact fun old => apart y later (List.mem_cons_of_mem x old)
      · intro parts
        obtain ⟨⟨once, nodup⟩, apart⟩ := parts
        refine ⟨nodup, ?_⟩
        intro y later member
        rcases List.mem_cons.mp member with rfl | old
        · exact once later
        · exact apart y (List.mem_cons_of_mem x later) old

theorem sameElements_iff {xs ys : List α} :
    sameElements xs ys = true ↔ xs.length = ys.length ∧ xs ⊆ ys := by
  simp [sameElements, List.subset_def]

theorem sameElements_refl (xs : List α) : sameElements xs xs = true :=
  sameElements_iff.mpr ⟨rfl, List.Subset.refl xs⟩

theorem sameElements_trans {xs ys zs : List α} (first : sameElements xs ys = true)
    (second : sameElements ys zs = true) : sameElements xs zs = true := by
  obtain ⟨length, within⟩ := sameElements_iff.mp first
  obtain ⟨lengthNext, withinNext⟩ := sameElements_iff.mp second
  exact sameElements_iff.mpr
    ⟨length.trans lengthNext, fun _ member => withinNext (within member)⟩

theorem mem_of_sameElements {xs ys : List α} (nodup : xs.Nodup)
    (same : sameElements xs ys = true) {y : α} (member : y ∈ ys) : y ∈ xs := by
  obtain ⟨length, within⟩ := sameElements_iff.mp same
  by_cases present : y ∈ xs
  · exact present
  · have others : xs ⊆ ys.erase y := by
      intro x inXs
      have different : x ≠ y := fun eq => present (eq ▸ inXs)
      exact (List.mem_erase_of_ne different).mpr (within inXs)
    have shorter := nodup.length_le_of_subset others
    have some := List.length_pos_of_mem member
    rw [List.length_erase_of_mem member] at shorter
    omega

end Lawful

end AggregateQuery
