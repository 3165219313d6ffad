import Mathlib.Data.List.Pairwise
import Mathlib.Data.List.Perm.Subperm
import AggregateQuery.Proofs.Data.Grouping
/-!
Groupings compared. Keys are told apart by names and values by marks, and then a grouping holds
each pair of a name and a mark once. But for its order, a grouping is known by these pairs.
-/
namespace AggregateQuery.Grouped

variable {κ ν α β : Type} [BEq κ] [BEq ν]

/-- Names for keys and marks for values that tell them apart as `==` does. Of values this may be
known only when they are sound. -/
structure Tagging (κ ν α β : Type) [BEq κ] [BEq ν] where
  name : κ → α
  mark : ν → β
  sound : ν → Prop
  sameKey : ∀ a b, (a == b) = true ↔ name a = name b
  sameValue : ∀ v w, sound v → sound w → ((v == w) = true ↔ mark v = mark w)

def Tagging.tag (t : Tagging κ ν α β) (pair : κ × ν) : α × β := (t.name pair.1, t.mark pair.2)

def tags (t : Tagging κ ν α β) (g : Grouped κ ν) : List (α × β) := g.pairs.map t.tag

def Sound (t : Tagging κ ν α β) (g : Grouped κ ν) : Prop :=
  g.Respects (fun _ => True) fun _ value => t.sound value

variable {t : Tagging κ ν α β} {g : Grouped κ ν}

omit [BEq κ] [BEq ν] in
theorem mem_pairs_iff {pair : κ × ν} :
    pair ∈ g.pairs ↔ ∃ group ∈ g.groups, pair.1 = group.1 ∧ pair.2 ∈ group.2 := by
  obtain ⟨key, value⟩ := pair
  simp only [pairs, List.mem_flatMap, List.mem_map, Prod.mk.injEq]
  constructor
  · rintro ⟨group, among, v, inGroup, rfl, rfl⟩
    exact ⟨group, among, rfl, inGroup⟩
  · rintro ⟨group, among, rfl, inGroup⟩
    exact ⟨group, among, value, inGroup, rfl, rfl⟩

theorem mem_tags_iff {x : α × β} : x ∈ g.tags t ↔
    ∃ group ∈ g.groups, x.1 = t.name group.1 ∧ x.2 ∈ group.2.map t.mark := by
  simp only [tags, List.mem_map, mem_pairs_iff, Tagging.tag]
  constructor
  · rintro ⟨pair, ⟨group, among, key, inGroup⟩, rfl⟩
    exact ⟨group, among, congrArg t.name key, pair.2, inGroup, rfl⟩
  · rintro ⟨group, among, key, value, inGroup, mark⟩
    exact ⟨(group.1, value), ⟨group, among, rfl, inGroup⟩, Prod.ext key.symm mark⟩

theorem mem_marks_addAll {xs ys : List ν} (sound : ∀ v ∈ xs, t.sound v)
    (soundToo : ∀ v ∈ ys, t.sound v) {m : β} :
    m ∈ (addAll xs ys).map t.mark ↔ m ∈ xs.map t.mark ∨ m ∈ ys.map t.mark := by
  induction ys generalizing xs with
  | nil => simp [addAll]
  | cons y ys ih =>
    have soundFirst : t.sound y := soundToo y List.mem_cons_self
    have soundRest : ∀ v ∈ ys, t.sound v := fun v later => soundToo v (List.mem_cons_of_mem y later)
    rw [addAll_cons]
    cases there : xs.contains y with
    | true =>
      obtain ⟨v, member, equal⟩ := List.contains_iff_exists_mem_beq.mp there
      have sameMark : t.mark y = t.mark v := (t.sameValue y v soundFirst (sound v member)).mp equal
      have marked : t.mark y ∈ xs.map t.mark := sameMark ▸ List.mem_map_of_mem member
      rw [addNew_of_contains there, ih sound soundRest, List.map_cons, List.mem_cons]
      constructor
      · rintro (early | late)
        · exact Or.inl early
        · exact Or.inr (Or.inr late)
      · rintro (early | rfl | late)
        · exact Or.inl early
        · exact Or.inl marked
        · exact Or.inr late
    | false =>
      have soundMore : ∀ v ∈ xs ++ [y], t.sound v := by
        intro v member
        rcases List.mem_append.mp member with early | last
        · exact sound v early
        · exact List.mem_singleton.mp last ▸ soundFirst
      rw [addNew_of_not_contains there, ih soundMore soundRest, List.map_append, List.mem_append,
        List.map_singleton, List.mem_singleton, List.map_cons, List.mem_cons, or_assoc]

theorem mem_tags_addTo {key : κ} {values : List ν} {groups : List (κ × List ν)} {x : α × β}
    (sound : (⟨groups⟩ : Grouped κ ν).Sound t) (soundValues : ∀ v ∈ values, t.sound v) :
    x ∈ tags t ⟨addTo key values groups⟩ ↔
      x ∈ tags t ⟨groups⟩ ∨ (x.1 = t.name key ∧ x.2 ∈ values.map t.mark) := by
  simp only [mem_tags_iff]
  induction groups with
  | nil =>
    have first : x.2 ∈ (distinct values).map t.mark ↔ x.2 ∈ values.map t.mark := by
      rw [distinct, mem_marks_addAll (by simp) soundValues]
      simp
    simp only [addTo, List.mem_singleton, exists_eq_left, List.not_mem_nil, false_and,
      exists_false, false_or, first]
  | cons group rest ih =>
    obtain ⟨k, present⟩ := group
    have soundHere : ∀ v ∈ present, t.sound v := (sound _ List.mem_cons_self).2
    have later := ih fun other member => sound other (List.mem_cons_of_mem _ member)
    rw [addTo]
    split
    · rename_i same
      have named : t.name k = t.name key := (t.sameKey k key).mp same
      have grown := mem_marks_addAll soundHere soundValues (m := x.2)
      simp only [List.mem_cons, exists_eq_or_imp, grown, named]
      rw [and_or_left, or_right_comm]
    · simp only [List.mem_cons, exists_eq_or_imp, later, or_assoc]

theorem mem_tags_insertAll {key : κ} {values : List ν} {x : α × β} (sound : g.Sound t)
    (soundValues : ∀ v ∈ values, t.sound v) : x ∈ (g.insertAll key values).tags t ↔
      x ∈ g.tags t ∨ (x.1 = t.name key ∧ x.2 ∈ values.map t.mark) := by
  by_cases none : values = []
  · simp [none, insertAll_nil]
  · rw [insertAll_of_ne_nil g key none]
    exact mem_tags_addTo sound soundValues

theorem mem_tags_ofPairs [EquivBEq κ] {pairs : List (κ × ν)}
    (sound : ∀ pair ∈ pairs, t.sound pair.2) {x : α × β} :
    x ∈ (ofPairs pairs).tags t ↔ x ∈ pairs.map t.tag := by
  have run (g : Grouped κ ν) (before : g.Sound t) :
      x ∈ (pairs.foldl (fun g pair => g.insert pair.1 pair.2) g).tags t ↔
        x ∈ g.tags t ∨ x ∈ pairs.map t.tag := by
    induction pairs generalizing g with
    | nil => simp
    | cons pair rest ih =>
      have soundPair : ∀ v ∈ [pair.2], t.sound v := by simpa using sound pair List.mem_cons_self
      have after : (g.insert pair.1 pair.2).Sound t :=
        respects_insertAll before trivial fun _ _ _ => soundPair
      have soundRest : ∀ other ∈ rest, t.sound other.2 :=
        fun other later => sound other (List.mem_cons_of_mem pair later)
      have step : x ∈ (g.insert pair.1 pair.2).tags t ↔ x ∈ g.tags t ∨ x = t.tag pair := by
        rw [insert, mem_tags_insertAll before soundPair]
        simp [Tagging.tag, Prod.ext_iff]
      rw [List.foldl_cons, ih soundRest _ after, step, List.map_cons, List.mem_cons, or_assoc]
  rw [ofPairs_eq_foldl, run empty respects_empty]
  simp [tags, Grouped.pairs, empty]

theorem tags_nodup (formed : g.WellFormed) (sound : g.Sound t) : (g.tags t).Nodup := by
  rw [tags, List.Nodup, List.pairwise_map, pairs, List.pairwise_flatMap]
  constructor
  · intro group member
    rw [List.pairwise_map]
    refine (formed.values group member).imp_of_mem ?_
    intro v w inGroup inGroupToo different sameTag
    have soundBoth := (sound group member).2
    have equal := (t.sameValue w v (soundBoth w inGroupToo) (soundBoth v inGroup)).mpr
      (congrArg Prod.snd sameTag).symm
    simp [equal] at different
  · refine formed.keys.imp ?_
    intro group other different p inGroup q inOther sameTag
    obtain ⟨v, _, rfl⟩ := List.mem_map.mp inGroup
    obtain ⟨w, _, rfl⟩ := List.mem_map.mp inOther
    have equal := (t.sameKey group.1 other.1).mpr (congrArg Prod.fst sameTag)
    simp [equal] at different

theorem length_tags (t : Tagging κ ν α β) (g : Grouped κ ν) : (g.tags t).length = g.valueCount := by
  simp [tags, pairs, valueCount, values, List.length_flatMap]

theorem names_nodup (t : Tagging κ ν α β) (formed : g.WellFormed) :
    (g.keys.map t.name).Nodup := by
  rw [List.Nodup, List.pairwise_map, keys, List.pairwise_map]
  refine formed.keys.imp ?_
  intro group other different sameName
  have equal := (t.sameKey group.1 other.1).mpr sameName
  simp [equal] at different

theorem mem_names_iff (formed : g.WellFormed) {n : α} :
    n ∈ g.keys.map t.name ↔ ∃ m, (n, m) ∈ g.tags t := by
  simp only [keys, List.map_map, List.mem_map, mem_tags_iff, Function.comp_apply]
  constructor
  · rintro ⟨group, member, rfl⟩
    obtain ⟨v, inGroup⟩ := List.exists_mem_of_ne_nil _ (formed.inhabited group member)
    exact ⟨t.mark v, group, member, rfl, v, inGroup, rfl⟩
  · rintro ⟨m, group, member, named, _⟩
    exact ⟨group, member, named.symm⟩

theorem group_unique [EquivBEq κ] (formed : g.WellFormed) {a b : κ × List ν} (here : a ∈ g.groups)
    (there : b ∈ g.groups) (equal : (a.1 == b.1) = true) : a = b := by
  have apart : Std.Symm fun x y : κ × List ν => (x.1 == y.1) = false := by
    refine ⟨fun x y different => ?_⟩
    rwa [BEq.comm]
  by_cases same : a = b
  · exact same
  · have different := formed.keys.forall here there same
    simp [equal] at different

theorem mem_marks_iff [EquivBEq κ] (formed : g.WellFormed) {group : κ × List ν}
    (member : group ∈ g.groups) {m : β} :
    m ∈ group.2.map t.mark ↔ (t.name group.1, m) ∈ g.tags t := by
  rw [mem_tags_iff]
  constructor
  · intro marked
    exact ⟨group, member, rfl, marked⟩
  · rintro ⟨other, among, named, marked⟩
    have same := group_unique formed member among ((t.sameKey group.1 other.1).mpr named)
    rwa [same]

theorem get?_eq_some [EquivBEq κ] (formed : g.WellFormed) {group : κ × List ν} {key : κ}
    (member : group ∈ g.groups) (equal : (group.1 == key) = true) :
    g.get? key = some group.2 := by
  rw [get?]
  cases found : g.groups.find? fun x => x.1 == key with
  | none => exact absurd equal (List.find?_eq_none.mp found group member)
  | some first =>
    have among := List.mem_of_find?_eq_some found
    have toKey : (first.1 == key) = true := by simpa using List.find?_some found
    have same := group_unique formed member among (BEq.trans equal (BEq.symm toKey))
    rw [same]
    rfl

variable {a b : Grouped κ ν}

theorem valueCount_eq_of_same_tags (formed : a.WellFormed) (formedToo : b.WellFormed)
    (sound : a.Sound t) (soundToo : b.Sound t) (same : ∀ x, x ∈ a.tags t ↔ x ∈ b.tags t) :
    a.valueCount = b.valueCount := by
  have perm := (List.perm_ext_iff_of_nodup (tags_nodup formed sound)
    (tags_nodup formedToo soundToo)).mpr same
  rw [← length_tags t a, ← length_tags t b]
  exact perm.length_eq

theorem size_eq_of_same_tags (formed : a.WellFormed) (formedToo : b.WellFormed)
    (same : ∀ x, x ∈ a.tags t ↔ x ∈ b.tags t) : a.size = b.size := by
  have perm : (a.keys.map t.name).Perm (b.keys.map t.name) := by
    refine (List.perm_ext_iff_of_nodup (names_nodup t formed) (names_nodup t formedToo)).mpr ?_
    intro n
    rw [mem_names_iff formed, mem_names_iff formedToo]
    exact exists_congr fun m => same (n, m)
  have lengths := perm.length_eq
  rwa [List.length_map, List.length_map, keys, keys, List.length_map, List.length_map] at lengths

theorem marks_nodup {xs : List ν} (differ : AllDiffer xs) (sound : ∀ v ∈ xs, t.sound v) :
    (xs.map t.mark).Nodup := by
  rw [List.Nodup, List.pairwise_map]
  refine differ.imp_of_mem ?_
  intro v w early late different sameMark
  have equal := (t.sameValue w v (sound w late) (sound v early)).mpr sameMark.symm
  simp [equal] at different

theorem sameElements_iff_same_marks {xs ys : List ν} (differ : AllDiffer xs)
    (differToo : AllDiffer ys) (sound : ∀ v ∈ xs, t.sound v) (soundToo : ∀ v ∈ ys, t.sound v) :
    sameElements xs ys = true ↔ ∀ m, m ∈ xs.map t.mark ↔ m ∈ ys.map t.mark := by
  have once := marks_nodup differ sound
  rw [sameElements, Bool.and_eq_true, beq_iff_eq, List.all_eq_true]
  constructor
  · rintro ⟨lengths, within⟩
    have covered : xs.map t.mark ⊆ ys.map t.mark := by
      intro m member
      obtain ⟨v, inXs, rfl⟩ := List.mem_map.mp member
      obtain ⟨w, there, equal⟩ := List.contains_iff_exists_mem_beq.mp (within v inXs)
      rw [(t.sameValue v w (sound v inXs) (soundToo w there)).mp equal]
      exact List.mem_map_of_mem there
    have perm := (List.subperm_of_subset once covered).perm_of_length_le (by simp [lengths])
    exact fun m => perm.mem_iff
  · intro same
    have perm := (List.perm_ext_iff_of_nodup once (marks_nodup differToo soundToo)).mpr same
    refine ⟨by simpa using perm.length_eq, ?_⟩
    intro v member
    obtain ⟨w, there, sameMark⟩ := List.mem_map.mp ((same _).mp (List.mem_map_of_mem member))
    have equal := (t.sameValue v w (sound v member) (soundToo w there)).mpr sameMark.symm
    exact List.contains_iff_exists_mem_beq.mpr ⟨w, there, equal⟩

theorem beq_iff_groups : (a == b) = true ↔ a.size = b.size ∧ ∀ group ∈ a.groups,
    ∃ others, b.get? group.1 = some others ∧ sameElements group.2 others = true := by
  refine Bool.and_eq_true_iff.trans (and_congr beq_iff_eq ?_)
  rw [List.all_eq_true]
  refine forall_congr' fun group => forall_congr' fun _ => ?_
  cases found : b.get? group.1 with
  | none => simp [found]
  | some others => simp [found]

omit [BEq ν] in
theorem exists_group_of_get? {key : κ} {values : List ν} (found : g.get? key = some values) :
    ∃ k, (k, values) ∈ g.groups ∧ (k == key) = true := by
  obtain ⟨group, first, rfl⟩ := Option.map_eq_some_iff.mp found
  exact ⟨group.1, List.mem_of_find?_eq_some first, by simpa using List.find?_some first⟩

theorem partner_of_beq [EquivBEq κ] (formed : a.WellFormed) (formedToo : b.WellFormed)
    (sound : a.Sound t) (soundToo : b.Sound t) (equal : (a == b) = true) {group : κ × List ν}
    (member : group ∈ a.groups) : ∃ other ∈ b.groups, t.name other.1 = t.name group.1 ∧
      ∀ m, m ∈ group.2.map t.mark ↔ m ∈ other.2.map t.mark := by
  obtain ⟨others, found, same⟩ := (beq_iff_groups.mp equal).2 group member
  obtain ⟨k, there, sameKey⟩ := exists_group_of_get? found
  refine ⟨(k, others), there, (t.sameKey k group.1).mp sameKey, ?_⟩
  exact (sameElements_iff_same_marks (formed.values group member) (formedToo.values _ there)
    (sound group member).2 (soundToo _ there).2).mp same

theorem beq_iff_same_tags [EquivBEq κ] (formed : a.WellFormed) (formedToo : b.WellFormed)
    (sound : a.Sound t) (soundToo : b.Sound t) :
    (a == b) = true ↔ ∀ x, x ∈ a.tags t ↔ x ∈ b.tags t := by
  constructor
  · intro equal
    have partner {group : κ × List ν} (member : group ∈ a.groups) :=
      partner_of_beq formed formedToo sound soundToo equal member
    -- As many keys, and all of the first among those of the second: no key of the second is alone.
    have names : (a.keys.map t.name).Perm (b.keys.map t.name) := by
      have within : a.keys.map t.name ⊆ b.keys.map t.name := by
        intro n member
        obtain ⟨k, isKey, rfl⟩ := List.mem_map.mp member
        obtain ⟨group, among, rfl⟩ := List.mem_map.mp isKey
        obtain ⟨other, there, sameName, _⟩ := partner among
        exact sameName ▸ List.mem_map_of_mem (List.mem_map_of_mem there)
      have sizes : b.size = a.size := (beq_iff_groups.mp equal).1.symm
      refine (List.subperm_of_subset (names_nodup t formed) within).perm_of_length_le ?_
      simpa [keys, size] using Nat.le_of_eq sizes
    intro x
    simp only [mem_tags_iff]
    constructor
    · rintro ⟨group, member, named, marked⟩
      obtain ⟨other, there, sameName, sameMarks⟩ := partner member
      exact ⟨other, there, named.trans sameName.symm, (sameMarks x.2).mp marked⟩
    · rintro ⟨other, member, named, marked⟩
      have among : t.name other.1 ∈ a.keys.map t.name :=
        names.mem_iff.mpr (List.mem_map_of_mem (List.mem_map_of_mem member))
      obtain ⟨k, isKey, sameName⟩ := List.mem_map.mp among
      obtain ⟨group, inA, rfl⟩ := List.mem_map.mp isKey
      obtain ⟨again, there, sameNameToo, sameMarks⟩ := partner inA
      have one : again = other := group_unique formedToo there member
        ((t.sameKey again.1 other.1).mpr (sameNameToo.trans sameName))
      exact ⟨group, inA, named.trans sameName.symm, (sameMarks x.2).mpr (one ▸ marked)⟩
  · intro same
    refine beq_iff_groups.mpr ⟨size_eq_of_same_tags formed formedToo same, ?_⟩
    intro group member
    have named : t.name group.1 ∈ b.keys.map t.name := by
      obtain ⟨v, inGroup⟩ := List.exists_mem_of_ne_nil _ (formed.inhabited group member)
      refine (mem_names_iff formedToo).mpr ⟨t.mark v, (same _).mp ?_⟩
      exact (mem_marks_iff formed member).mp (List.mem_map_of_mem inGroup)
    obtain ⟨_, among, sameName⟩ := List.mem_map.mp named
    obtain ⟨other, there, rfl⟩ := List.mem_map.mp among
    refine ⟨other.2, get?_eq_some formedToo there ((t.sameKey other.1 group.1).mpr sameName), ?_⟩
    refine (sameElements_iff_same_marks (formed.values group member)
      (formedToo.values other there) (sound group member).2 (soundToo other there).2).mpr ?_
    intro m
    rw [mem_marks_iff formed member, mem_marks_iff formedToo there, same, sameName]

end AggregateQuery.Grouped
