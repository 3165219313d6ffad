import AggregateQuery.Proofs.Condition.Queries
import AggregateQuery.Proofs.Condition.WrittenFilter
import AggregateQuery.Proofs.Data.Tags
/-!
What filters are told apart by. Filters that have each of their values once are equal when they
have the same identity, in which values without an order are sorted.
-/
namespace AggregateQuery

theorem sorted_eq_iff_perm {xs ys : List String} :
    (xs.mergeSort fun a b => decide (a ≤ b)) = (ys.mergeSort fun a b => decide (a ≤ b)) ↔
      xs.Perm ys := by
  have trans (a b c : String) (first : decide (a ≤ b) = true) (second : decide (b ≤ c) = true) :
      decide (a ≤ c) = true := by
    rw [decide_eq_true_eq] at first second ⊢
    exact String.le_trans first second
  have total (a b : String) : (decide (a ≤ b) || decide (b ≤ a)) = true := by
    simpa using String.le_total a b
  constructor
  · intro same
    have back := List.mergeSort_perm ys fun a b => decide (a ≤ b)
    rw [← same] at back
    exact (List.mergeSort_perm xs _).symm.trans back
  · intro perm
    have sorted := ((List.mergeSort_perm xs fun a b => decide (a ≤ b)).trans perm).trans
      (List.mergeSort_perm ys fun a b => decide (a ≤ b)).symm
    refine sorted.eq_of_pairwise ?_ (List.pairwise_mergeSort trans total xs)
      (List.pairwise_mergeSort trans total ys)
    intro a b _ _ below above
    exact String.le_antisymm (of_decide_eq_true below) (of_decide_eq_true above)

theorem sameElements_iff_perm {xs ys : List String} (nodup : xs.Nodup) (nodupToo : ys.Nodup) :
    sameElements xs ys = true ↔ xs.Perm ys := by
  constructor
  · intro same
    refine (List.perm_ext_iff_of_nodup nodup nodupToo).mpr fun value => ?_
    have within := (sameElements_iff.mp same).2
    exact ⟨fun member => within member, mem_of_sameElements nodup same⟩
  · intro perm
    exact sameElements_iff.mpr ⟨perm.length_eq, perm.subset⟩

namespace Filter

theorem beq_iff_same_identity {a b : Filter} (nodup : a.values.Nodup)
    (nodupToo : b.values.Nodup) : (a == b) = true ↔ a.identity = b.identity := by
  rw [beq_iff]
  simp only [identity, Prod.mk.injEq]
  refine and_congr_right fun _ => and_congr_right fun _ => and_congr_right fun operation => ?_
  rw [← operation]
  cases a.operation.isOrdered with
  | true => simp
  | false =>
    simp only [Bool.false_eq_true, ↓reduceIte]
    rw [sameElements_iff_perm nodup nodupToo, sorted_eq_iff_perm]

def tagging : Grouped.Tagging Dimension Filter String
    (String × (String × String) × FilterOperation × List String) where
  name := Dimension.name
  mark := identity
  sound f := f.values.Nodup
  sameKey _ _ := Dimension.beq_iff_same_name
  sameValue _ _ := beq_iff_same_identity

end Filter

namespace Filters

variable {fs gs : List Filter}

theorem sound_ofList (nodup : ∀ f ∈ fs, f.values.Nodup) : (ofList fs).Sound Filter.tagging := by
  refine Grouped.respects_ofPairs ?_
  intro pair member
  obtain ⟨f, among, rfl⟩ := List.mem_map.mp member
  exact ⟨trivial, fun _ _ _ => nodup f among⟩

/-- The name of the dimension is part of the identity, so the tags are the identities. -/
theorem mem_tags_ofList_iff (nodup : ∀ f ∈ fs, f.values.Nodup) (x) :
    x ∈ (ofList fs).tags Filter.tagging ↔ x.1 = x.2.1 ∧ x.2 ∈ fs.map Filter.identity := by
  have sound : ∀ pair ∈ fs.map fun f => (f.dimension, f), Filter.tagging.sound pair.2 := by
    intro pair member
    obtain ⟨f, among, rfl⟩ := List.mem_map.mp member
    exact nodup f among
  rw [ofList, Grouped.mem_tags_ofPairs sound, List.map_map]
  simp only [List.mem_map]
  constructor
  · rintro ⟨f, member, rfl⟩
    exact ⟨rfl, f, member, rfl⟩
  · rintro ⟨named, f, member, identity⟩
    refine ⟨f, member, Prod.ext ?_ identity⟩
    rw [named, ← identity]
    rfl

theorem ofList_alike (nodup : ∀ f ∈ fs, f.values.Nodup) (nodupToo : ∀ g ∈ gs, g.values.Nodup)
    (same : ∀ x, x ∈ fs.map Filter.identity ↔ x ∈ gs.map Filter.identity) :
    (ofList fs == ofList gs) = true ∧ (ofList fs).size = (ofList gs).size ∧
      (ofList fs).valueCount = (ofList gs).valueCount := by
  have formed := ofList_wellFormed fs
  have formedToo := ofList_wellFormed gs
  have sound := sound_ofList nodup
  have soundToo := sound_ofList nodupToo
  have sameTags (x) : x ∈ (ofList fs).tags Filter.tagging ↔
      x ∈ (ofList gs).tags Filter.tagging := by
    rw [mem_tags_ofList_iff nodup, mem_tags_ofList_iff nodupToo, same]
  exact ⟨(Grouped.beq_iff_same_tags formed formedToo sound soundToo).mpr sameTags,
    Grouped.size_eq_of_same_tags formed formedToo sameTags,
    Grouped.valueCount_eq_of_same_tags formed formedToo sound soundToo sameTags⟩

end Filters

end AggregateQuery
