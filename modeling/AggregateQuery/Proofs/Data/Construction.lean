import AggregateQuery.Proofs.Data.Grouping
/-!
Groupings as the operations on them make them. All of them are well formed, in whatever order the
operations are called. A grouping whose keys are all equal is a list of values, to which a union
adds.
-/
namespace AggregateQuery.Grouped

variable {κ ν : Type}

theorem retain_groups (g : Grouped κ ν) (keep : κ → ν → Bool) : (g.retain keep).groups =
    (g.groups.map fun group => (group.1, group.2.filter (keep group.1))).filter
      fun group => !group.2.isEmpty := rfl

theorem mem_retain_iff {g : Grouped κ ν} {keep : κ → ν → Bool} {group : κ × List ν} :
    group ∈ (g.retain keep).groups ↔ group.2 ≠ [] ∧
      ∃ values, (group.1, values) ∈ g.groups ∧ group.2 = values.filter (keep group.1) := by
  rw [retain_groups, List.mem_filter, List.mem_map]
  constructor
  · rintro ⟨⟨before, member, rfl⟩, some⟩
    exact ⟨by simpa using some, before.2, member, rfl⟩
  · rintro ⟨some, values, member, kept⟩
    exact ⟨⟨_, member, Prod.ext rfl kept.symm⟩, by simpa using some⟩

variable [BEq κ] [BEq ν]

theorem wellFormed_retain {g : Grouped κ ν} (formed : g.WellFormed) (keep : κ → ν → Bool) :
    (g.retain keep).WellFormed := by
  constructor
  case keys =>
    rw [retain_groups]
    exact (List.pairwise_map.mpr formed.keys).filter _
  case values =>
    intro group member
    obtain ⟨_, values, among, kept⟩ := mem_retain_iff.mp member
    rw [kept]
    exact (formed.values _ among).filter _
  case inhabited => exact fun group member => (mem_retain_iff.mp member).1

theorem wellFormed_union {a : Grouped κ ν} (formed : a.WellFormed) (b : Grouped κ ν) :
    (a.union b).WellFormed := by
  obtain ⟨groups⟩ := b
  induction groups generalizing a with
  | nil => exact formed
  | cons group rest ih => exact ih (wellFormed_insertAll formed group.1 group.2)

/-- The groupings that can be made: the empty one, and what an operation makes of others. -/
inductive Constructed : Grouped κ ν → Prop where
  | empty : Constructed empty
  | ofPairs (pairs : List (κ × ν)) : Constructed (ofPairs pairs)
  | insert {g : Grouped κ ν} (key : κ) (value : ν) (before : Constructed g) :
    Constructed (g.insert key value)
  | insertAll {g : Grouped κ ν} (key : κ) (values : List ν) (before : Constructed g) :
    Constructed (g.insertAll key values)
  | union {a b : Grouped κ ν} (first : Constructed a) (second : Constructed b) :
    Constructed (a.union b)
  | retain {g : Grouped κ ν} (keep : κ → ν → Bool) (before : Constructed g) :
    Constructed (g.retain keep)

theorem Constructed.wellFormed {g : Grouped κ ν} (constructed : g.Constructed) : g.WellFormed := by
  induction constructed with
  | empty => exact wellFormed_empty
  | ofPairs pairs => exact wellFormed_ofPairs pairs
  | insert key value _ ih => exact wellFormed_insertAll ih key [value]
  | insertAll key values _ ih => exact wellFormed_insertAll ih key values
  | @union _ b _ _ ih _ => exact wellFormed_union ih b
  | retain keep _ ih => exact wellFormed_retain ih keep

omit [BEq κ] [BEq ν] in
@[simp] theorem values_empty : (empty : Grouped κ ν).values = [] := rfl

omit [BEq κ] [BEq ν] in
@[simp] theorem keys_empty : (empty : Grouped κ ν).keys = [] := rfl

omit [BEq κ] [BEq ν] in
theorem forall_values_iff {belongs : ν → Prop} {g : Grouped κ ν} :
    (∀ value ∈ g.values, belongs value) ↔
      g.Respects (fun _ => True) fun _ value => belongs value := by
  constructor
  · intro all group member
    exact ⟨trivial, fun value inGroup => all value (List.mem_flatMap.mpr ⟨group, member, inGroup⟩)⟩
  · intro respects value member
    obtain ⟨group, among, inGroup⟩ := List.mem_flatMap.mp member
    exact (respects group among).2 value inGroup

theorem forall_values_union [ReflBEq κ] {belongs : ν → Prop} {a b : Grouped κ ν}
    (first : ∀ value ∈ a.values, belongs value) (second : ∀ value ∈ b.values, belongs value) :
    ∀ value ∈ (a.union b).values, belongs value := by
  rw [forall_values_iff] at first second ⊢
  refine respects_union first ?_
  intro group member
  exact ⟨trivial, fun _ _ _ => (second group member).2⟩

structure Lawful (belongs : ν → Prop) (g : Grouped κ ν) : Prop where
  formed : g.WellFormed
  each : ∀ value ∈ g.values, belongs value

theorem lawful_empty {belongs : ν → Prop} : (empty : Grouped κ ν).Lawful belongs :=
  ⟨wellFormed_empty, by simp⟩

theorem Lawful.union [ReflBEq κ] {belongs : ν → Prop} {a b : Grouped κ ν} (first : a.Lawful belongs)
    (second : b.Lawful belongs) : (a.union b).Lawful belongs :=
  ⟨wellFormed_union first.formed b, forall_values_union first.each second.each⟩

def OnlyKey (g : Grouped κ ν) (key : κ) : Prop := ∀ k ∈ g.keys, (k == key) = true

variable [EquivBEq κ]

theorem retain_key {g : Grouped κ ν} (formed : g.WellFormed) (key : κ) :
    g.retain (fun other _ => other == key) =
      ⟨(g.groups.find? fun group => group.1 == key).toList⟩ := by
  obtain ⟨groups⟩ := g
  have differ := formed.keys
  have inhabited := formed.inhabited
  simp only at differ inhabited
  clear formed
  rw [mk.injEq]
  change (groups.map fun group => (group.1, group.2.filter fun _ => group.1 == key)).filter
    (fun group => !group.2.isEmpty) = _
  induction groups with
  | nil => rfl
  | cons first rest ih =>
    obtain ⟨others, differRest⟩ := List.pairwise_cons.mp differ
    have later := ih differRest fun group member => inhabited group (List.mem_cons_of_mem _ member)
    cases same : first.1 == key with
    | true =>
      have none : rest.find? (fun group => group.1 == key) = none := by
        rw [List.find?_eq_none]
        intro group member isKey
        have equal := BEq.trans same (BEq.symm isKey)
        simp [others group member] at equal
      rw [none] at later
      simp [same, later, inhabited first List.mem_cons_self]
    | false => simp [same, later]

/-- Where all keys are equal, values are added to those that are there, under whatever key. -/
theorem values_insertAll {g : Grouped κ ν} {key added : κ} (formed : g.WellFormed)
    (only : g.OnlyKey key) (same : (added == key) = true) (values : List ν) :
    (g.insertAll added values).values = addAll g.values values := by
  by_cases none : values = []
  · rw [none, insertAll_nil]
    rfl
  · rw [insertAll_of_ne_nil g added none]
    obtain ⟨groups⟩ := g
    cases groups with
    | nil => simp [Grouped.values, addTo, distinct]
    | cons first rest =>
      obtain ⟨k, present⟩ := first
      have isKey : (k == key) = true := only k List.mem_cons_self
      have alone : rest = [] := by
        rw [List.eq_nil_iff_forall_not_mem]
        intro group member
        have equal := BEq.trans isKey (BEq.symm (only group.1
          (List.mem_map_of_mem (List.mem_cons_of_mem _ member))))
        simp [(List.pairwise_cons.mp formed.keys).1 group member] at equal
      simp [Grouped.values, addTo, alone, BEq.trans isKey (BEq.symm same)]

theorem onlyKey_insertAll {g : Grouped κ ν} {key added : κ} (only : g.OnlyKey key)
    (same : (added == key) = true) (values : List ν) :
    (g.insertAll added values).OnlyKey key := by
  have respects : g.Respects (fun k => (k == key) = true) fun _ _ => True :=
    fun group member => ⟨only group.1 (List.mem_map_of_mem member), fun _ _ => trivial⟩
  intro k member
  obtain ⟨group, among, rfl⟩ := List.mem_map.mp member
  exact (respects_insertAll respects same (fun _ _ _ _ _ => trivial) group among).1

theorem onlyKey_union {a b : Grouped κ ν} {key : κ} (only : a.OnlyKey key)
    (onlyToo : b.OnlyKey key) : (a.union b).OnlyKey key := by
  obtain ⟨groups⟩ := b
  induction groups generalizing a with
  | nil => exact only
  | cons group rest ih =>
    have same : (group.1 == key) = true := onlyToo group.1 List.mem_cons_self
    exact ih (onlyKey_insertAll only same group.2)
      fun k later => onlyToo k (List.mem_cons_of_mem _ later)

theorem values_union {a b : Grouped κ ν} {key : κ} (formed : a.WellFormed)
    (only : a.OnlyKey key) (onlyToo : b.OnlyKey key) :
    (a.union b).values = addAll a.values b.values := by
  obtain ⟨groups⟩ := b
  induction groups generalizing a with
  | nil => rfl
  | cons group rest ih =>
    have same : (group.1 == key) = true := onlyToo group.1 List.mem_cons_self
    have more : (⟨group :: rest⟩ : Grouped κ ν).values =
        group.2 ++ (⟨rest⟩ : Grouped κ ν).values := List.flatMap_cons
    rw [union_cons, ih (wellFormed_insertAll formed group.1 group.2)
      (onlyKey_insertAll only same group.2)
      fun k later => onlyToo k (List.mem_cons_of_mem _ later),
      values_insertAll formed only same, more, addAll_append]

theorem values_ofPairs {pairs : List (κ × ν)} {key : κ}
    (only : ∀ pair ∈ pairs, (pair.1 == key) = true) :
    (ofPairs pairs).values = distinct (pairs.map Prod.snd) ∧ (ofPairs pairs).OnlyKey key := by
  have onlyToo : (⟨pairs.map fun pair => (pair.1, [pair.2])⟩ : Grouped κ ν).OnlyKey key := by
    intro k member
    obtain ⟨group, among, rfl⟩ := List.mem_map.mp member
    obtain ⟨pair, listed, rfl⟩ := List.mem_map.mp among
    exact only pair listed
  have listed : (⟨pairs.map fun pair => (pair.1, [pair.2])⟩ : Grouped κ ν).values =
      pairs.map Prod.snd := by
    rw [values, List.flatMap_map, List.map_eq_flatMap]
  have none : (empty : Grouped κ ν).OnlyKey key := by simp [OnlyKey]
  rw [ofPairs_eq_union]
  refine ⟨?_, onlyKey_union none onlyToo⟩
  rw [values_union wellFormed_empty none onlyToo, listed]
  rfl

end AggregateQuery.Grouped
