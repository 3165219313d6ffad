import AggregateQuery.Proofs.Catalog.Lookup
import AggregateQuery.Proofs.Data.Construction
import AggregateQuery.Proofs.Data.Tags
/-!
The laws of groupings. A grouping is a set of pairs, of which no operation loses one, and at the
same time a list of them, whose order a union continues: the keys and the values of the first
grouping come first, and behind them what the second has beyond them.
-/
namespace AggregateQuery.Grouped

variable {κ ν : Type}

theorem pairs_retain (g : Grouped κ ν) (keep : κ → ν → Bool) :
    (g.retain keep).pairs = g.pairs.filter fun pair => keep pair.1 pair.2 := by
  obtain ⟨groups⟩ := g
  rw [pairs, pairs, retain_groups]
  simp only
  induction groups with
  | nil => rfl
  | cons group rest ih =>
    have first : (group.2.map fun value => (group.1, value)).filter
        (fun pair => keep pair.1 pair.2) =
          (group.2.filter (keep group.1)).map fun value => (group.1, value) := List.filter_map
    rw [List.map_cons, List.filter_cons, List.flatMap_cons, List.filter_append, first, ← ih]
    split
    · rfl
    · rename_i none
      have emptied : group.2.filter (keep group.1) = [] := by simpa using none
      rw [emptied]
      rfl

variable [BEq κ]

def valuesAt (g : Grouped κ ν) (key : κ) : List ν := (g.get? key).getD []

theorem get?_cons (group : κ × List ν) (rest : List (κ × List ν)) (key : κ) :
    get? ⟨group :: rest⟩ key = if group.1 == key then some group.2 else get? ⟨rest⟩ key := by
  rw [get?, List.find?_cons]
  cases same : group.1 == key <;> simp [same, get?]

theorem valuesAt_cons (group : κ × List ν) (rest : List (κ × List ν)) (key : κ) :
    valuesAt ⟨group :: rest⟩ key = if group.1 == key then group.2 else valuesAt ⟨rest⟩ key := by
  rw [valuesAt, get?_cons]
  split <;> rfl

theorem valuesAt_of_no_key {groups : List (κ × List ν)} {key : κ}
    (none : ∀ group ∈ groups, (group.1 == key) = false) : valuesAt ⟨groups⟩ key = [] := by
  rw [valuesAt, get?, List.find?_eq_none.mpr]
  · rfl
  · exact fun group member => by simp [none group member]

variable [BEq ν]

theorem contains_eq (g : Grouped κ ν) (key : κ) (value : ν) :
    g.contains key value = (g.valuesAt key).contains value := rfl

theorem insert_of_contains {g : Grouped κ ν} {key : κ} {value : ν}
    (there : g.contains key value = true) : g.insert key value = g := by
  obtain ⟨groups⟩ := g
  rw [insert, insertAll_of_ne_nil _ _ (by simp), mk.injEq]
  rw [contains_eq] at there
  simp only
  induction groups with
  | nil => simp [valuesAt, get?] at there
  | cons first rest ih =>
    rw [valuesAt_cons] at there
    obtain ⟨k, present⟩ := first
    rw [addTo]
    split
    · rename_i same
      rw [if_pos same] at there
      rw [addAll_cons, addNew_of_contains there]
      rfl
    · rename_i different
      rw [if_neg different] at there
      rw [ih there]

variable [EquivBEq κ]

theorem keys_insertAll {values : List ν} (some : values ≠ []) (g : Grouped κ ν) (key : κ) :
    (g.insertAll key values).keys = addNew g.keys key := by
  rw [insertAll_of_ne_nil g key some]
  obtain ⟨groups⟩ := g
  simp only [keys]
  induction groups with
  | nil => rfl
  | cons first rest ih =>
    obtain ⟨k, present⟩ := first
    rw [addTo, List.map_cons]
    cases same : k == key with
    | true =>
      have there : (k :: rest.map Prod.fst).contains key = true := by simp [BEq.symm same]
      rw [addNew_of_contains there]
      rfl
    | false =>
      have different : (key == k) = false := by rw [BEq.comm, same]
      simp only [Bool.false_eq_true, ↓reduceIte, List.map_cons, ih, addNew, List.contains_cons,
        different, Bool.false_or]
      split <;> rfl

theorem valuesAt_insertAll (g : Grouped κ ν) (added : κ) (values : List ν) (key : κ) :
    (g.insertAll added values).valuesAt key =
      if added == key then addAll (g.valuesAt key) values else g.valuesAt key := by
  by_cases none : values = []
  · rw [none, insertAll_nil]
    split <;> rfl
  · rw [insertAll_of_ne_nil g added none]
    obtain ⟨groups⟩ := g
    simp only
    induction groups with
    | nil =>
      rw [addTo, valuesAt_cons]
      rfl
    | cons first rest ih =>
      obtain ⟨k, present⟩ := first
      rw [addTo]
      split
      · rename_i same
        simp only [valuesAt_cons, BEq.congr_left same]
        split <;> rfl
      · rename_i different
        simp only [valuesAt_cons, ih]
        split
        · rename_i found
          have other : (added == key) = false := by
            rw [BEq.comm, ← BEq.congr_left found]
            simpa using different
          rw [other]
          rfl
        · rfl

theorem keys_union (a : Grouped κ ν) {b : Grouped κ ν}
    (inhabited : ∀ group ∈ b.groups, group.2 ≠ []) :
    (a.union b).keys = addAll a.keys b.keys := by
  obtain ⟨groups⟩ := b
  simp only [keys] at inhabited ⊢
  induction groups generalizing a with
  | nil => rfl
  | cons group rest ih =>
    obtain ⟨first, others⟩ := List.forall_mem_cons.mp inhabited
    rw [union_cons, ih _ others, List.map_cons, addAll_cons]
    exact congrArg (addAll · _) (keys_insertAll first a group.1)

theorem valuesAt_union (a : Grouped κ ν) {b : Grouped κ ν} (formed : b.WellFormed) (key : κ) :
    (a.union b).valuesAt key = addAll (a.valuesAt key) (b.valuesAt key) := by
  obtain ⟨groups⟩ := b
  have differ := formed.keys
  simp only at differ
  clear formed
  induction groups generalizing a with
  | nil => rfl
  | cons group rest ih =>
    obtain ⟨others, differRest⟩ := List.pairwise_cons.mp differ
    rw [union_cons, ih _ differRest, valuesAt_insertAll, valuesAt_cons]
    split
    · rename_i same
      have none : valuesAt ⟨rest⟩ key = [] := by
        refine valuesAt_of_no_key fun other later => ?_
        rw [BEq.comm, ← BEq.congr_left same]
        exact others other later
      rw [none]
      rfl
    · rfl

theorem keys_differ {g : Grouped κ ν} (formed : g.WellFormed) : AllDiffer g.keys := by
  rw [AllDiffer, keys, List.pairwise_map]
  refine formed.keys.imp fun different => ?_
  rwa [BEq.comm]

omit [BEq ν] in
theorem contains_keys_eq (g : Grouped κ ν) (key : κ) : g.keys.contains key = g.containsKey key := by
  rw [containsKey, get?, Option.isSome_map, List.isSome_find?, keys, List.contains_eq_any_beq,
    List.any_map]
  simp only [Function.comp_def, BEq.comm]

omit [EquivBEq κ] in
theorem values_differ_at {g : Grouped κ ν} (formed : g.WellFormed) (key : κ) :
    AllDiffer (g.valuesAt key) := by
  rw [valuesAt]
  cases found : g.get? key with
  | none => exact List.Pairwise.nil
  | some values =>
    obtain ⟨k, member, _⟩ := exists_group_of_get? found
    exact formed.values _ member

section Sets

variable [EquivBEq ν]

/-- Keys and values by what equals them. -/
def classes : Tagging κ ν (κ → Bool) (ν → Bool) where
  name k := (k == ·)
  mark v := (v == ·)
  sound _ := True
  sameKey _ b := ⟨fun equal => funext fun _ => BEq.congr_left equal,
    fun same => (congrFun same b).trans (BEq.refl b)⟩
  sameValue _ w _ _ := ⟨fun equal => funext fun _ => BEq.congr_left equal,
    fun same => (congrFun same w).trans (BEq.refl w)⟩

theorem sound_classes (g : Grouped κ ν) : g.Sound classes :=
  fun _ _ => ⟨trivial, fun _ _ => trivial⟩

theorem contains_iff_mem_tags {g : Grouped κ ν} (formed : g.WellFormed) {key : κ} {value : ν} :
    g.contains key value = true ↔ ((key == ·), (value == ·)) ∈ g.tags classes := by
  rw [contains_eq, List.contains_iff_exists_mem_beq, mem_tags_iff]
  constructor
  · rintro ⟨w, member, equal⟩
    cases found : g.get? key with
    | none => simp [valuesAt, found] at member
    | some values =>
      obtain ⟨k, among, sameKey⟩ := exists_group_of_get? found
      have inGroup : w ∈ values := by simpa [valuesAt, found] using member
      refine ⟨(k, values), among, (classes.sameKey key k).mp (BEq.symm sameKey), ?_⟩
      refine List.mem_map.mpr ⟨w, inGroup, ?_⟩
      exact (classes.sameValue w value trivial trivial).mp (BEq.symm equal)
  · rintro ⟨group, among, sameKey, marked⟩
    have toKey : (group.1 == key) = true := (classes.sameKey group.1 key).mpr sameKey.symm
    obtain ⟨w, inGroup, sameValue⟩ := List.mem_map.mp marked
    refine ⟨w, ?_, (classes.sameValue value w trivial trivial).mpr sameValue.symm⟩
    rwa [valuesAt, get?_eq_some formed among toKey]

theorem beq_iff_same_pairs {a b : Grouped κ ν} (formed : a.WellFormed) (formedToo : b.WellFormed) :
    (a == b) = true ↔ ∀ key value, a.contains key value = b.contains key value := by
  rw [beq_iff_same_tags formed formedToo (sound_classes a) (sound_classes b)]
  simp only [Bool.eq_iff_iff, contains_iff_mem_tags formed, contains_iff_mem_tags formedToo]
  constructor
  · exact fun same key value => same _
  · intro same x
    have ofPair {g : Grouped κ ν} (member : x ∈ g.tags classes) :
        ∃ (key : κ) (value : ν), x = ((key == ·), (value == ·)) := by
      obtain ⟨pair, _, rfl⟩ := List.mem_map.mp member
      exact ⟨pair.1, pair.2, rfl⟩
    constructor
    · intro member
      obtain ⟨key, value, rfl⟩ := ofPair member
      exact (same key value).mp member
    · intro member
      obtain ⟨key, value, rfl⟩ := ofPair member
      exact (same key value).mpr member

theorem contains_union (a : Grouped κ ν) {b : Grouped κ ν} (formed : b.WellFormed) (key : κ)
    (value : ν) :
    (a.union b).contains key value = (a.contains key value || b.contains key value) := by
  rw [Bool.eq_iff_iff, Bool.or_eq_true, contains_eq, valuesAt_union a formed,
    contains_addAll_iff chains_of_equiv]
  rfl

theorem union_assoc (a : Grouped κ ν) {b : Grouped κ ν} (formed : b.WellFormed)
    (c : Grouped κ ν) : (a.union b).union c = a.union (b.union c) := by
  rw [union_eq_foldl_insert _ c, union_eq_foldl_insert b c,
    union_foldl_insert chains_of_equiv a formed]

theorem union_self {a : Grouped κ ν} (formed : a.WellFormed) : a.union a = a := by
  have there : ∀ pair ∈ a.pairs, a.contains pair.1 pair.2 = true := by
    intro pair member
    obtain ⟨group, among, key, inGroup⟩ := mem_pairs_iff.mp member
    rw [contains_eq, valuesAt, key, get?_eq_some formed among (BEq.refl group.1)]
    exact List.contains_iff_exists_mem_beq.mpr ⟨pair.2, inGroup, BEq.refl pair.2⟩
  have run (pairs : List (κ × ν)) (known : ∀ pair ∈ pairs, a.contains pair.1 pair.2 = true) :
      pairs.foldl (fun g pair => g.insert pair.1 pair.2) a = a := by
    induction pairs with
    | nil => rfl
    | cons pair rest ih =>
      obtain ⟨first, others⟩ := List.forall_mem_cons.mp known
      rw [List.foldl_cons, insert_of_contains first, ih others]
  rw [union_eq_foldl_insert, run a.pairs there]

theorem union_comm_beq {a b : Grouped κ ν} (formed : a.WellFormed) (formedToo : b.WellFormed) :
    (a.union b == b.union a) = true := by
  rw [beq_iff_same_pairs (wellFormed_union formed b) (wellFormed_union formedToo a)]
  intro key value
  rw [contains_union a formedToo, contains_union b formed, Bool.or_comm]

variable {a b : Grouped κ ν}

/-- However groupings were made, they are sets of pairs, and lists of pairs that a union continues
by what is new. -/
theorem multimap_laws (madeA : a.Constructed) (madeB : b.Constructed) (c : Grouped κ ν)
    (keep : κ → ν → Bool) :
    a.WellFormed ∧
    ((a == b) = true ↔ ∀ key value, a.contains key value = b.contains key value) ∧
    (∀ key value,
      (a.union b).contains key value = (a.contains key value || b.contains key value)) ∧
    (a.union b).keys = a.keys ++ b.keys.filter (fun key => !a.containsKey key) ∧
    (∀ key, (a.union b).valuesAt key =
      a.valuesAt key ++ (b.valuesAt key).filter fun value => !a.contains key value) ∧
    (a.union b).union c = a.union (b.union c) ∧
    a.union a = a ∧
    (empty.union a = a ∧ a.union empty = a) ∧
    (a.union b == b.union a) = true ∧
    (a.retain keep).pairs = a.pairs.filter fun pair => keep pair.1 pair.2 := by
  have formed := madeA.wellFormed
  have formedToo := madeB.wellFormed
  refine ⟨formed, beq_iff_same_pairs formed formedToo, contains_union a formedToo, ?keys, ?values,
    union_assoc a formedToo c, union_self formed, ⟨empty_union formed, rfl⟩,
    union_comm_beq formed formedToo, pairs_retain a keep⟩
  case keys =>
    rw [keys_union a formedToo.inhabited, addAll_eq_append_filter _ (keys_differ formedToo)]
    simp only [contains_keys_eq]
  case values =>
    intro key
    rw [valuesAt_union a formedToo, addAll_eq_append_filter _ (values_differ_at formedToo key)]
    rfl

end Sets

def shownFields : Grouped Dimension DimensionField :=
  .ofPairs [(SmallCatalog.region, ⟨"region", "id", none⟩),
    (SmallCatalog.region, ⟨"region", "desc", none⟩)]

def describedFields : Grouped Dimension DimensionField :=
  ((empty.insert ⟨"shop", some "Branch", "id", []⟩ ⟨"shop", "id", some "Number"⟩).insertAll
    ⟨"region", some "Area", "id", ["desc"]⟩ [⟨"region", "desc", none⟩,
      ⟨"region", "desc", some "Name"⟩, ⟨"region", "id", some "Code"⟩]).retain
        fun _ field => field.description.isSome

theorem described_fields_united :
    (shownFields.union describedFields == describedFields.union shownFields) = true ∧
    (shownFields.union describedFields).keys =
      [SmallCatalog.region, ⟨"shop", some "Branch", "id", []⟩] ∧
    (shownFields.union describedFields).valuesAt SmallCatalog.region =
      [⟨"region", "id", none⟩, ⟨"region", "desc", none⟩] ∧
    (describedFields.union shownFields).valuesAt SmallCatalog.region =
      [⟨"region", "id", some "Code"⟩, ⟨"region", "desc", none⟩] := by
  have shown : shownFields.Constructed := .ofPairs _
  have described : describedFields.Constructed := .retain _ (.insertAll _ _ (.insert _ _ .empty))
  obtain ⟨_, _, _, keys, values, _, _, _, same, _⟩ :=
    multimap_laws shown described empty fun _ _ => true
  obtain ⟨_, _, _, _, valuesBack, _⟩ := multimap_laws described shown empty fun _ _ => true
  exact ⟨same, keys, values SmallCatalog.region, valuesBack SmallCatalog.region⟩

end AggregateQuery.Grouped
