import Mathlib.Data.List.Forall2
/-!
Readers that succeed. A chain of readers gives a value exactly when each of them does, so that a
success can be taken apart into the successes of its steps.
-/
namespace AggregateQuery

variable {α β δ ε : Type}

theorem bind_eq_ok_iff {x : Except ε α} {f : α → Except ε β} {b : β} :
    x >>= f = .ok b ↔ ∃ a, x = .ok a ∧ f a = .ok b := by
  cases x with
  | error e =>
    constructor
    · intro read
      cases read
    · intro parts
      obtain ⟨a, failed, _⟩ := parts
      cases failed
  | ok a =>
    constructor
    · intro read
      exact ⟨a, rfl, read⟩
    · intro parts
      obtain ⟨_, same, read⟩ := parts
      cases same
      exact read

theorem map_eq_ok_iff {x : Except ε α} {f : α → β} {b : β} :
    x.map f = .ok b ↔ ∃ a, x = .ok a ∧ f a = b := by
  cases x <;> simp [Except.map]

theorem mapError_eq_ok_iff {x : Except ε α} {f : ε → δ} {a : α} :
    x.mapError f = .ok a ↔ x = .ok a := by
  cases x with
  | error e =>
    constructor
    · intro read
      cases read
    · intro read
      cases read
  | ok b =>
    constructor
    · intro read
      cases read
      rfl
    · intro read
      cases read
      rfl

theorem pure_eq_ok_iff {a b : α} : (pure a : Except ε α) = .ok b ↔ a = b := by
  simp [pure, Except.pure]

theorem exists_of_isOk {x : Except ε α} (accepted : x.isOk = true) : ∃ a, x = .ok a := by
  cases x with
  | error e => contradiction
  | ok a => exact ⟨a, rfl⟩

theorem bind_eq_error_iff {x : Except ε α} {f : α → Except ε β} {e : ε} :
    x >>= f = .error e ↔ x = .error e ∨ ∃ a, x = .ok a ∧ f a = .error e := by
  cases x <;> simp [bind, Except.bind]

theorem map_eq_error_iff {x : Except ε α} {f : α → β} {e : ε} :
    x.map f = .error e ↔ x = .error e := by
  cases x <;> simp [Except.map]

theorem mapError_eq_error_iff {x : Except ε α} {f : ε → δ} {e : δ} :
    x.mapError f = .error e ↔ ∃ cause, x = .error cause ∧ f cause = e := by
  cases x <;> simp [Except.mapError]

theorem mapM_cons_eq_ok_iff {f : α → Except ε β} {x : α} {xs : List α} {read : List β} :
    (x :: xs).mapM f = .ok read ↔
      ∃ y ys, f x = .ok y ∧ xs.mapM f = .ok ys ∧ y :: ys = read := by
  simp only [List.mapM_cons, bind_eq_ok_iff, pure_eq_ok_iff]
  constructor
  · intro parts
    obtain ⟨y, first, ys, rest, whole⟩ := parts
    exact ⟨y, ys, first, rest, whole⟩
  · intro parts
    obtain ⟨y, ys, first, rest, whole⟩ := parts
    exact ⟨y, first, ys, rest, whole⟩

theorem mapM_eq_ok_iff_forall₂ {f : α → Except ε β} {xs : List α} {ys : List β} :
    xs.mapM f = .ok ys ↔ List.Forall₂ (fun x y => f x = .ok y) xs ys := by
  induction xs generalizing ys with
  | nil =>
    rw [List.forall₂_nil_left_iff]
    exact pure_eq_ok_iff.trans eq_comm
  | cons x xs ih =>
    rw [mapM_cons_eq_ok_iff, List.forall₂_cons_left_iff]
    simp only [ih]
    constructor
    · rintro ⟨y, rest, first, others, rfl⟩
      exact ⟨y, rest, first, others, rfl⟩
    · rintro ⟨y, rest, first, others, rfl⟩
      exact ⟨y, rest, first, others, rfl⟩

theorem read_from_of_mapM {f : α → Except ε β} {xs : List α} {ys : List β}
    (read : xs.mapM f = .ok ys) : ∀ y ∈ ys, ∃ x ∈ xs, f x = .ok y := by
  induction xs generalizing ys with
  | nil =>
    obtain rfl : [] = ys := pure_eq_ok_iff.mp read
    simp
  | cons x xs ih =>
    obtain ⟨first, rest, readFirst, readRest, rfl⟩ := mapM_cons_eq_ok_iff.mp read
    intro y member
    rcases List.mem_cons.mp member with rfl | later
    · exact ⟨x, List.mem_cons_self, readFirst⟩
    · obtain ⟨source, among, readSource⟩ := ih readRest y later
      exact ⟨source, List.mem_cons_of_mem x among, readSource⟩

theorem error_of_mapM {f : α → Except ε β} {xs : List α} {e : ε}
    (failed : xs.mapM f = .error e) : ∃ x ∈ xs, f x = .error e := by
  induction xs with
  | nil => contradiction
  | cons x xs ih =>
    rw [List.mapM_cons, bind_eq_error_iff] at failed
    rcases failed with first | ⟨_, _, later⟩
    · exact ⟨x, List.mem_cons_self, first⟩
    · rcases bind_eq_error_iff.mp later with rest | ⟨_, _, whole⟩
      · obtain ⟨y, member, one⟩ := ih rest
        exact ⟨y, List.mem_cons_of_mem x member, one⟩
      · contradiction

theorem read_of_mapM {f : α → Except ε β} {xs : List α} {ys : List β}
    (read : xs.mapM f = .ok ys) : ∀ x ∈ xs, ∃ y, f x = .ok y := by
  induction xs generalizing ys with
  | nil => simp
  | cons x xs ih =>
    obtain ⟨first, rest, readFirst, readRest, _⟩ := mapM_cons_eq_ok_iff.mp read
    intro other member
    rcases List.mem_cons.mp member with same | later
    · exact ⟨first, same ▸ readFirst⟩
    · exact ih readRest other later

theorem mem_of_mapM {f : α → Except ε β} {xs : List α} {ys : List β} (read : xs.mapM f = .ok ys)
    {x : α} {y : β} (member : x ∈ xs) (one : f x = .ok y) : y ∈ ys := by
  induction xs generalizing ys with
  | nil => simp at member
  | cons first xs ih =>
    obtain ⟨z, rest, readFirst, readRest, rfl⟩ := mapM_cons_eq_ok_iff.mp read
    rcases List.mem_cons.mp member with rfl | later
    · obtain rfl := Except.ok.inj (readFirst.symm.trans one)
      exact List.mem_cons_self
    · exact List.mem_cons_of_mem z (ih readRest later)

theorem mem_mapM_iff {f : α → Except ε β} {xs : List α} {ys : List β}
    (read : xs.mapM f = .ok ys) {y : β} : y ∈ ys ↔ ∃ x ∈ xs, f x = .ok y := by
  constructor
  · exact read_from_of_mapM read y
  · rintro ⟨x, member, one⟩
    exact mem_of_mapM read member one

theorem mapM_of_each {f : α → Except ε β} {xs : List α} (each : ∀ x ∈ xs, ∃ y, f x = .ok y) :
    ∃ ys, xs.mapM f = .ok ys := by
  induction xs with
  | nil => exact ⟨[], rfl⟩
  | cons x xs ih =>
    obtain ⟨y, first⟩ := each x List.mem_cons_self
    obtain ⟨ys, rest⟩ := ih fun other member => each other (List.mem_cons_of_mem x member)
    exact ⟨y :: ys, mapM_cons_eq_ok_iff.mpr ⟨y, ys, first, rest, rfl⟩⟩

/-- A reader that differs from another by accepting less gives a list when the other gives it and
accepts all of it. -/
theorem mapM_of_narrower {f g : α → Except ε β} {fits : β → Prop}
    (narrower : ∀ x y, f x = .ok y ↔ g x = .ok y ∧ fits y) {xs : List α} {ys : List β} :
    xs.mapM f = .ok ys ↔ xs.mapM g = .ok ys ∧ ∀ y ∈ ys, fits y := by
  induction xs generalizing ys with
  | nil =>
    constructor
    · intro read
      obtain rfl : [] = ys := pure_eq_ok_iff.mp read
      exact ⟨rfl, by simp⟩
    · exact And.left
  | cons x xs ih =>
    rw [mapM_cons_eq_ok_iff, mapM_cons_eq_ok_iff]
    constructor
    · rintro ⟨y, rest, first, others, rfl⟩
      obtain ⟨firstToo, fitsFirst⟩ := (narrower x y).mp first
      obtain ⟨othersToo, fitOthers⟩ := ih.mp others
      exact ⟨⟨y, rest, firstToo, othersToo, rfl⟩, List.forall_mem_cons.mpr ⟨fitsFirst, fitOthers⟩⟩
    · rintro ⟨⟨y, rest, first, others, rfl⟩, fit⟩
      obtain ⟨fitsFirst, fitOthers⟩ := List.forall_mem_cons.mp fit
      exact ⟨y, rest, (narrower x y).mpr ⟨first, fitsFirst⟩, ih.mpr ⟨others, fitOthers⟩, rfl⟩

theorem mapM_of_related {f g : α → Except ε β} {image : β → β}
    (related : ∀ x y z, f x = .ok y → g x = .ok z → z = image y) {xs : List α} {ys zs : List β}
    (read : xs.mapM f = .ok ys) (readToo : xs.mapM g = .ok zs) : zs = ys.map image := by
  induction xs generalizing ys zs with
  | nil =>
    obtain rfl : [] = ys := pure_eq_ok_iff.mp read
    exact (pure_eq_ok_iff.mp readToo).symm
  | cons x xs ih =>
    obtain ⟨y, ys, first, rest, rfl⟩ := mapM_cons_eq_ok_iff.mp read
    obtain ⟨z, zs, firstToo, restToo, rfl⟩ := mapM_cons_eq_ok_iff.mp readToo
    rw [related x y z first firstToo, ih rest restToo, List.map_cons]

theorem mapM_map_eq_ok {f : β → Except ε α} {write : α → β} {xs : List α}
    (back : ∀ x ∈ xs, f (write x) = .ok x) : (xs.map write).mapM f = .ok xs := by
  induction xs with
  | nil => rfl
  | cons x xs ih =>
    have rest := ih fun y member => back y (List.mem_cons_of_mem x member)
    exact mapM_cons_eq_ok_iff.mpr ⟨x, xs, back x List.mem_cons_self, rest, rfl⟩

end AggregateQuery
