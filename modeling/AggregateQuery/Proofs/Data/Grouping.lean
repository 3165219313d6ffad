import AggregateQuery.Data.Grouped
import AggregateQuery.Proofs.Data.FirstOccurrences
/-!
Groupings as ordered sets of pairs. Adding values in two steps is adding them in one, and a union
may be taken pair by pair; so a grouping is known by the list of pairs that it was built from, and
building from two lists in turn gives the union.
-/
namespace AggregateQuery.Grouped

variable {κ ν : Type} [BEq κ] [BEq ν]

/-- What holds of every grouping that is built by adding pairs. -/
structure WellFormed (g : Grouped κ ν) : Prop where
  keys : g.groups.Pairwise fun earlier later => (earlier.1 == later.1) = false
  values : ∀ group ∈ g.groups, AllDiffer group.2
  inhabited : ∀ group ∈ g.groups, group.2 ≠ []

def pairs (g : Grouped κ ν) : List (κ × ν) :=
  g.groups.flatMap fun group => group.2.map fun value => (group.1, value)

def HasKey (g : Grouped κ ν) (key : κ) : Prop := ∃ group ∈ g.groups, (group.1 == key) = true

theorem insertAll_nil (g : Grouped κ ν) (key : κ) : g.insertAll key [] = g := rfl

theorem insertAll_of_ne_nil (g : Grouped κ ν) (key : κ) {values : List ν} (some : values ≠ []) :
    g.insertAll key values = ⟨addTo key values g.groups⟩ := by
  simp [insertAll, some]

theorem mem_addTo {key : κ} {values : List ν} {groups : List (κ × List ν)} {group : κ × List ν}
    (member : group ∈ addTo key values groups) : group ∈ groups ∨
      (∃ present, (group.1, present) ∈ groups ∧ (group.1 == key) = true ∧
        group.2 = addAll present values) ∨ group = (key, distinct values) := by
  induction groups with
  | nil => exact Or.inr (Or.inr (by simpa [addTo] using member))
  | cons first rest ih =>
    obtain ⟨k, present⟩ := first
    rw [addTo] at member
    split at member
    · rename_i same
      rcases List.mem_cons.mp member with rfl | old
      · exact Or.inr (Or.inl ⟨present, List.mem_cons_self, same, rfl⟩)
      · exact Or.inl (List.mem_cons_of_mem _ old)
    · rcases List.mem_cons.mp member with rfl | later
      · exact Or.inl List.mem_cons_self
      · rcases ih later with old | ⟨before, among, same, grown⟩ | new
        · exact Or.inl (List.mem_cons_of_mem _ old)
        · exact Or.inr (Or.inl ⟨before, List.mem_cons_of_mem _ among, same, grown⟩)
        · exact Or.inr (Or.inr new)

theorem addTo_append [ReflBEq κ] (key : κ) (values more : List ν) (groups : List (κ × List ν)) :
    addTo key (values ++ more) groups = addTo key more (addTo key values groups) := by
  induction groups with
  | nil =>
    have grown : distinct (values ++ more) = addAll (distinct values) more := addAll_append _ _ _
    simp [addTo, grown]
  | cons first rest ih =>
    obtain ⟨k, present⟩ := first
    cases same : k == key with
    | true => simp [addTo, same, addAll_append]
    | false => simp [addTo, same, ih]

theorem insertAll_append [ReflBEq κ] (g : Grouped κ ν) (key : κ) (values more : List ν) :
    g.insertAll key (values ++ more) = (g.insertAll key values).insertAll key more := by
  cases values with
  | nil => rfl
  | cons v values =>
    cases more with
    | nil => rw [List.append_nil, insertAll_nil]
    | cons w more =>
      rw [insertAll_of_ne_nil _ _ (by simp), insertAll_of_ne_nil _ _ (by simp),
        insertAll_of_ne_nil _ _ (by simp), addTo_append]

theorem insertAll_addNew [ReflBEq κ] (chains : Chains ν) (g : Grouped κ ν) (key : κ)
    (values : List ν) (value : ν) :
    g.insertAll key (addNew values value) = (g.insertAll key values).insert key value := by
  have congruent (groups : List (κ × List ν)) :
      addTo key (addNew values value) groups = addTo key (values ++ [value]) groups := by
    induction groups with
    | nil => simp [addTo, distinct, addAll_addNew chains]
    | cons first rest ih => simp only [addTo, addAll_addNew chains, ih]
  rw [insert, ← insertAll_append, insertAll_of_ne_nil _ _ (addNew_ne_nil values value),
    insertAll_of_ne_nil _ _ (by simp), congruent]

theorem hasKey_insertAll {g : Grouped κ ν} {key : κ} (added : κ) (values : List ν)
    (there : g.HasKey key) : (g.insertAll added values).HasKey key := by
  by_cases none : values = []
  · rwa [none, insertAll_nil]
  · rw [insertAll_of_ne_nil g added none]
    obtain ⟨groups⟩ := g
    obtain ⟨group, member, same⟩ := there
    simp only [HasKey] at member ⊢
    induction groups with
    | nil => simp at member
    | cons first rest ih =>
      obtain ⟨k, present⟩ := first
      simp only [addTo]
      rcases List.mem_cons.mp member with eq | later
      · subst eq
        split
        · exact ⟨_, List.mem_cons_self, same⟩
        · exact ⟨_, List.mem_cons_self, same⟩
      · split
        · exact ⟨group, List.mem_cons_of_mem _ later, same⟩
        · obtain ⟨found, among, equal⟩ := ih later
          exact ⟨found, List.mem_cons_of_mem _ among, equal⟩

theorem hasKey_insertAll_self [ReflBEq κ] (g : Grouped κ ν) (key : κ) {values : List ν}
    (some : values ≠ []) : (g.insertAll key values).HasKey key := by
  rw [insertAll_of_ne_nil g key some]
  obtain ⟨groups⟩ := g
  simp only [HasKey]
  induction groups with
  | nil => exact ⟨_, List.mem_cons_self, BEq.refl key⟩
  | cons first rest ih =>
    obtain ⟨k, present⟩ := first
    simp only [addTo]
    split
    · rename_i same
      exact ⟨_, List.mem_cons_self, same⟩
    · obtain ⟨found, among, equal⟩ := ih
      exact ⟨found, List.mem_cons_of_mem _ among, equal⟩

theorem insertAll_congr_key [EquivBEq κ] {g : Grouped κ ν} {key other : κ} (values : List ν)
    (equal : (key == other) = true) (there : g.HasKey key) :
    g.insertAll key values = g.insertAll other values := by
  by_cases none : values = []
  · rw [none, insertAll_nil, insertAll_nil]
  · rw [insertAll_of_ne_nil g key none, insertAll_of_ne_nil g other none]
    obtain ⟨groups⟩ := g
    obtain ⟨group, member, same⟩ := there
    congr 1
    simp only at member ⊢
    induction groups with
    | nil => simp at member
    | cons first rest ih =>
      obtain ⟨k, present⟩ := first
      simp only [addTo, BEq.congr_right equal]
      split
      · rfl
      · rename_i different
        rcases List.mem_cons.mp member with eq | later
        · subst eq
          rw [BEq.congr_right equal] at same
          exact absurd same different
        · rw [ih later]

/-- Additions under different keys can be exchanged when one of the keys is there already. -/
theorem insertAll_comm [EquivBEq κ] {g : Grouped κ ν} {key other : κ} (values more : List ν)
    (different : (key == other) = false) (there : g.HasKey key) :
    (g.insertAll key values).insertAll other more =
      (g.insertAll other more).insertAll key values := by
  by_cases none : values = []
  · rw [none, insertAll_nil, insertAll_nil]
  · by_cases noMore : more = []
    · rw [noMore, insertAll_nil, insertAll_nil]
    · rw [insertAll_of_ne_nil g key none, insertAll_of_ne_nil g other noMore,
        insertAll_of_ne_nil _ key none, insertAll_of_ne_nil _ other noMore]
      obtain ⟨groups⟩ := g
      obtain ⟨group, member, same⟩ := there
      congr 1
      simp only at member ⊢
      induction groups with
      | nil => simp at member
      | cons first rest ih =>
        obtain ⟨k, present⟩ := first
        cases isKey : k == key with
        | true =>
          have notOther : (k == other) = false := by
            rw [BEq.congr_left isKey, different]
          simp [addTo, isKey, notOther]
        | false =>
          have later : group ∈ rest := by
            rcases List.mem_cons.mp member with eq | later
            · subst eq
              rw [isKey] at same
              contradiction
            · exact later
          cases isOther : k == other with
          | true => simp [addTo, isKey, isOther]
          | false => simp [addTo, isKey, isOther, ih later]

theorem union_cons (a : Grouped κ ν) (group : κ × List ν) (rest : List (κ × List ν)) :
    a.union ⟨group :: rest⟩ = (a.insertAll group.1 group.2).union ⟨rest⟩ := rfl

theorem insert_union [EquivBEq κ] {a : Grouped κ ν} {key : κ} (value : ν)
    (groups : List (κ × List ν)) (there : a.HasKey key)
    (others : ∀ group ∈ groups, (key == group.1) = false) :
    (a.insert key value).union ⟨groups⟩ = (a.union ⟨groups⟩).insert key value := by
  induction groups generalizing a with
  | nil => rfl
  | cons group rest ih =>
    rw [union_cons, union_cons, ← ih (hasKey_insertAll group.1 group.2 there)
      fun other member => others other (List.mem_cons_of_mem _ member)]
    unfold insert
    rw [insertAll_comm [value] group.2 (others group List.mem_cons_self) there]

theorem union_insert [EquivBEq κ] (chains : Chains ν) (a : Grouped κ ν) {b : Grouped κ ν}
    (formed : b.WellFormed) (key : κ) (value : ν) :
    a.union (b.insert key value) = (a.union b).insert key value := by
  obtain ⟨groups⟩ := b
  have differ := formed.keys
  have inhabited := formed.inhabited
  simp only at differ inhabited
  rw [insert, insertAll_of_ne_nil _ key (by simp)]
  clear formed
  simp only
  induction groups generalizing a with
  | nil => rfl
  | cons group rest ih =>
    obtain ⟨k, present⟩ := group
    obtain ⟨others, differRest⟩ := List.pairwise_cons.mp differ
    rw [addTo]
    split
    -- The value lands in this group. Behind the union it comes after all later groups, past
    -- which it can be moved since the union has a group for its key by then.
    · rename_i same
      have there : (a.insertAll k present).HasKey k :=
        hasKey_insertAll_self a k (inhabited _ List.mem_cons_self)
      have grown : a.insertAll k (addAll present [value]) =
          (a.insertAll k present).insert k value := insertAll_addNew chains a k present value
      have renamed : (a.insertAll k present).insert k value =
          (a.insertAll k present).insert key value := insertAll_congr_key [value] same there
      have thereToo : (a.insertAll k present).HasKey key := by
        obtain ⟨found, among, equal⟩ := there
        exact ⟨found, among, BEq.trans equal same⟩
      have othersToo : ∀ group ∈ rest, (key == group.1) = false := by
        intro group member
        rw [← BEq.congr_left same]
        exact others group member
      rw [union_cons, union_cons, grown, renamed, insert_union value rest thereToo othersToo]
    · rw [union_cons, union_cons]
      exact ih (a.insertAll k present) differRest
        fun other member => inhabited other (List.mem_cons_of_mem _ member)

theorem wellFormed_empty : (empty : Grouped κ ν).WellFormed :=
  ⟨List.Pairwise.nil, by simp [empty], by simp [empty]⟩

theorem keys_differ_addTo {key : κ} {values : List ν} {groups : List (κ × List ν)}
    (differ : groups.Pairwise fun earlier later => (earlier.1 == later.1) = false) :
    (addTo key values groups).Pairwise fun earlier later => (earlier.1 == later.1) = false := by
  induction groups with
  | nil => exact List.pairwise_singleton _ _
  | cons first rest ih =>
    obtain ⟨k, present⟩ := first
    obtain ⟨others, differRest⟩ := List.pairwise_cons.mp differ
    rw [addTo]
    split
    · exact List.pairwise_cons.mpr ⟨others, differRest⟩
    · rename_i different
      refine List.pairwise_cons.mpr ⟨?_, ih differRest⟩
      intro group member
      rcases mem_addTo member with old | ⟨before, among, _⟩ | new
      · exact others group old
      · exact others (group.1, before) among
      · rw [new]
        simpa using different

theorem wellFormed_insertAll {g : Grouped κ ν} (formed : g.WellFormed) (key : κ)
    (values : List ν) : (g.insertAll key values).WellFormed := by
  by_cases none : values = []
  · rwa [none, insertAll_nil]
  · rw [insertAll_of_ne_nil g key none]
    refine ⟨keys_differ_addTo formed.keys, ?_, ?_⟩
    · intro group member
      rcases mem_addTo member with old | ⟨before, among, _, grown⟩ | new
      · exact formed.values group old
      · rw [grown]
        exact allDiffer_addAll (formed.values _ among) values
      · rw [new]
        exact allDiffer_distinct values
    · intro group member
      rcases mem_addTo member with old | ⟨before, among, _, grown⟩ | new
      · exact formed.inhabited group old
      · rw [grown]
        intro empty
        have start := prefix_addAll before values
        rw [empty, List.prefix_nil] at start
        exact formed.inhabited _ among start
      · rw [new]
        exact distinct_ne_nil none

theorem ofPairs_eq_foldl (pairs : List (κ × ν)) :
    ofPairs pairs = pairs.foldl (fun g pair => g.insert pair.1 pair.2) empty := rfl

theorem ofPairs_eq_union (pairs : List (κ × ν)) :
    ofPairs pairs = empty.union ⟨pairs.map fun pair => (pair.1, [pair.2])⟩ := by
  rw [union, List.foldl_map]
  rfl

theorem wellFormed_ofPairs (pairs : List (κ × ν)) : (ofPairs pairs).WellFormed := by
  have run (g : Grouped κ ν) (formed : g.WellFormed) :
      (pairs.foldl (fun g pair => g.insert pair.1 pair.2) g).WellFormed := by
    induction pairs generalizing g with
    | nil => exact formed
    | cons pair rest ih => exact ih _ (wellFormed_insertAll formed pair.1 [pair.2])
  exact run empty wellFormed_empty

theorem hasKey_ofPairs [ReflBEq κ] {pairs : List (κ × ν)} {pair : κ × ν} (member : pair ∈ pairs) :
    (ofPairs pairs).HasKey pair.1 := by
  have run (g : Grouped κ ν) (either : g.HasKey pair.1 ∨ pair ∈ pairs) :
      (pairs.foldl (fun g pair => g.insert pair.1 pair.2) g).HasKey pair.1 := by
    clear member
    induction pairs generalizing g with
    | nil => simpa using either
    | cons first rest ih =>
      rw [List.foldl_cons]
      rcases either with there | listed
      · exact ih _ (Or.inl (hasKey_insertAll first.1 [first.2] there))
      · rcases List.mem_cons.mp listed with rfl | later
        · exact ih _ (Or.inl (hasKey_insertAll_self g pair.1 (by simp)))
        · exact ih _ (Or.inr later)
  exact run empty (Or.inr member)

omit [BEq κ] [BEq ν] in
theorem retain_eq_self {g : Grouped κ ν} {keep : κ → ν → Bool}
    (inhabited : ∀ group ∈ g.groups, group.2 ≠ [])
    (kept : ∀ group ∈ g.groups, ∀ value ∈ group.2, keep group.1 value = true) :
    g.retain keep = g := by
  obtain ⟨groups⟩ := g
  have each : ∀ group ∈ groups, (group.1, group.2.filter (keep group.1)) = group := by
    intro group member
    rw [List.filter_eq_self.mpr (kept group member)]
  have whole : groups.map (fun group => (group.1, group.2.filter (keep group.1))) = groups :=
    (List.map_congr_left each).trans (List.map_id groups)
  change (⟨(groups.map fun group => (group.1, group.2.filter (keep group.1))).filter
    fun group => !group.2.isEmpty⟩ : Grouped κ ν) = ⟨groups⟩
  rw [whole, List.filter_eq_self.mpr]
  intro group member
  simpa using inhabited group member

theorem union_foldl_insert [EquivBEq κ] (chains : Chains ν) (a : Grouped κ ν) {b : Grouped κ ν}
    (formed : b.WellFormed) (pairs : List (κ × ν)) :
    a.union (pairs.foldl (fun g pair => g.insert pair.1 pair.2) b) =
      pairs.foldl (fun g pair => g.insert pair.1 pair.2) (a.union b) := by
  induction pairs generalizing b with
  | nil => rfl
  | cons pair rest ih =>
    rw [List.foldl_cons, List.foldl_cons, ← union_insert chains a formed]
    exact ih (wellFormed_insertAll formed pair.1 [pair.2])

theorem ofPairs_append [EquivBEq κ] (chains : Chains ν) (first second : List (κ × ν)) :
    ofPairs (first ++ second) = (ofPairs first).union (ofPairs second) := by
  rw [ofPairs_eq_foldl, List.foldl_append, ofPairs_eq_foldl second,
    union_foldl_insert chains _ wellFormed_empty]
  rfl

theorem addTo_of_new_key {key : κ} {groups : List (κ × List ν)} (values : List ν)
    (new : ∀ group ∈ groups, (group.1 == key) = false) :
    addTo key values groups = groups ++ [(key, distinct values)] := by
  induction groups with
  | nil => rfl
  | cons first rest ih =>
    have others := ih fun group member => new group (List.mem_cons_of_mem _ member)
    simp [addTo, new first List.mem_cons_self, others]

theorem union_of_new_keys (done groups : List (κ × List ν))
    (formed : (⟨done ++ groups⟩ : Grouped κ ν).WellFormed) :
    (⟨done⟩ : Grouped κ ν).union ⟨groups⟩ = ⟨done ++ groups⟩ := by
  induction groups generalizing done with
  | nil =>
    rw [List.append_nil]
    rfl
  | cons group rest ih =>
    have member : group ∈ done ++ group :: rest := List.mem_append_cons_self
    have new : ∀ other ∈ done, (other.1 == group.1) = false := by
      intro other early
      exact (List.pairwise_append.mp formed.keys).2.2 other early group List.mem_cons_self
    rw [union_cons, insertAll_of_ne_nil _ _ (formed.inhabited group member),
      addTo_of_new_key group.2 new, distinct_of_allDiffer (formed.values group member), ih]
    · simp
    · simpa using formed

theorem empty_union {g : Grouped κ ν} (formed : g.WellFormed) : empty.union g = g :=
  union_of_new_keys [] g.groups formed

theorem foldl_insert_values [ReflBEq κ] (g : Grouped κ ν) (key : κ) (values : List ν) :
    (values.map fun value => (key, value)).foldl (fun g pair => g.insert pair.1 pair.2) g =
      g.insertAll key values := by
  induction values generalizing g with
  | nil => rfl
  | cons value rest ih =>
    rw [List.map_cons, List.foldl_cons, ih]
    exact (insertAll_append g key [value] rest).symm

theorem union_eq_foldl_insert [ReflBEq κ] (a b : Grouped κ ν) :
    a.union b = b.pairs.foldl (fun g pair => g.insert pair.1 pair.2) a := by
  rw [pairs, List.foldl_flatMap]
  simp only [foldl_insert_values]
  rfl

theorem ofPairs_pairs [ReflBEq κ] {g : Grouped κ ν} (formed : g.WellFormed) :
    ofPairs g.pairs = g := by
  rw [ofPairs_eq_foldl, ← union_eq_foldl_insert]
  exact empty_union formed

omit [BEq κ] [BEq ν] in
theorem pairs_of_own_keys {g : Grouped κ ν} {key : ν → κ}
    (own : ∀ group ∈ g.groups, ∀ value ∈ group.2, key value = group.1) :
    g.pairs = g.values.map fun value => (key value, value) := by
  obtain ⟨groups⟩ := g
  simp only [pairs, values] at own ⊢
  induction groups with
  | nil => rfl
  | cons group rest ih =>
    have others := ih fun other member => own other (List.mem_cons_of_mem _ member)
    have first : group.2.map (fun value => (group.1, value)) =
        group.2.map fun value => (key value, value) := by
      apply List.map_congr_left
      intro value inGroup
      rw [own group List.mem_cons_self value inGroup]
    rw [List.flatMap_cons, List.flatMap_cons, List.map_append, others, first]

def Respects (isKey : κ → Prop) (belongs : κ → ν → Prop) (g : Grouped κ ν) : Prop :=
  ∀ group ∈ g.groups, isKey group.1 ∧ ∀ value ∈ group.2, belongs group.1 value

variable {isKey : κ → Prop} {belongs : κ → ν → Prop}

omit [BEq κ] [BEq ν] in
theorem respects_empty : (empty : Grouped κ ν).Respects isKey belongs := by
  simp [Respects, empty]

theorem respects_insertAll [ReflBEq κ] {g : Grouped κ ν} {key : κ} {values : List ν}
    (respects : g.Respects isKey belongs) (good : isKey key)
    (fit : ∀ k, isKey k → (k == key) = true → ∀ value ∈ values, belongs k value) :
    (g.insertAll key values).Respects isKey belongs := by
  by_cases none : values = []
  · rwa [none, insertAll_nil]
  · rw [insertAll_of_ne_nil g key none]
    intro group member
    rcases mem_addTo member with old | ⟨before, among, same, grown⟩ | new
    · exact respects group old
    · obtain ⟨goodKey, fitBefore⟩ := respects _ among
      refine ⟨goodKey, ?_⟩
      intro value inGroup
      rw [grown] at inGroup
      rcases mem_addAll inGroup with early | late
      · exact fitBefore value early
      · exact fit group.1 goodKey same value late
    · rw [new]
      refine ⟨good, ?_⟩
      intro value inGroup
      exact fit key good (BEq.refl key) value (mem_of_mem_distinct inGroup)

theorem respects_union [ReflBEq κ] {a b : Grouped κ ν} (respects : a.Respects isKey belongs)
    (added : ∀ group ∈ b.groups, isKey group.1 ∧
      ∀ k, isKey k → (k == group.1) = true → ∀ value ∈ group.2, belongs k value) :
    (a.union b).Respects isKey belongs := by
  obtain ⟨groups⟩ := b
  simp only at added
  induction groups generalizing a with
  | nil => exact respects
  | cons group rest ih =>
    obtain ⟨good, fit⟩ := added group List.mem_cons_self
    exact ih (respects_insertAll respects good fit)
      fun other member => added other (List.mem_cons_of_mem _ member)

theorem respects_ofPairs [ReflBEq κ] {pairs : List (κ × ν)}
    (added : ∀ pair ∈ pairs, isKey pair.1 ∧
      ∀ k, isKey k → (k == pair.1) = true → belongs k pair.2) :
    (ofPairs pairs).Respects isKey belongs := by
  rw [ofPairs_eq_union]
  apply respects_union respects_empty
  intro group member
  obtain ⟨pair, among, eq⟩ := List.mem_map.mp member
  subst eq
  obtain ⟨good, fit⟩ := added pair among
  refine ⟨good, ?_⟩
  intro k goodKey same value inGroup
  rw [List.mem_singleton.mp inGroup]
  exact fit k goodKey same

end AggregateQuery.Grouped
