/-!
Lists that hold each element once, in the order in which the elements first came, and values
grouped by key. Elements are told apart by `==`, which may be coarser than equality: the first of
equal ones is kept. Keys stand in the order in which they were first seen, and so do the values of a
key. No key is without values.
-/
namespace AggregateQuery

def addNew [BEq α] (xs : List α) (x : α) : List α := if xs.contains x then xs else xs ++ [x]

def addAll [BEq α] (xs ys : List α) : List α := ys.foldl addNew xs

def distinct [BEq α] (xs : List α) : List α := addAll [] xs

/-- Equality as sets, for lists that hold each element once. -/
def sameElements [BEq α] (xs ys : List α) : Bool :=
  xs.length == ys.length && xs.all ys.contains

def firstRepeated? [BEq α] : List α → List α → Option α
  | _, [] => none
  | earlier, x :: xs => if earlier.contains x then some x else firstRepeated? (x :: earlier) xs

structure Grouped (κ ν : Type) where
  groups : List (κ × List ν)

namespace Grouped

variable {κ ν : Type}

def empty : Grouped κ ν := ⟨[]⟩

def keys (g : Grouped κ ν) : List κ := g.groups.map Prod.fst

def values (g : Grouped κ ν) : List ν := g.groups.flatMap Prod.snd

def size (g : Grouped κ ν) : Nat := g.groups.length

def valueCount (g : Grouped κ ν) : Nat := g.values.length

def isEmpty (g : Grouped κ ν) : Bool := g.groups.isEmpty

/-- Keeps the pairs that `keep` accepts; a group that loses all its values goes. -/
def retain (g : Grouped κ ν) (keep : κ → ν → Bool) : Grouped κ ν :=
  ⟨(g.groups.map fun (key, values) => (key, values.filter (keep key))).filter
    fun (_, values) => !values.isEmpty⟩

variable [BEq κ]

def get? (g : Grouped κ ν) (key : κ) : Option (List ν) :=
  (g.groups.find? fun (k, _) => k == key).map Prod.snd

def containsKey (g : Grouped κ ν) (key : κ) : Bool := (g.get? key).isSome

variable [BEq ν]

def contains (g : Grouped κ ν) (key : κ) (value : ν) : Bool :=
  ((g.get? key).getD []).contains value

def addTo (key : κ) (values : List ν) : List (κ × List ν) → List (κ × List ν)
  | [] => [(key, distinct values)]
  | (k, present) :: rest =>
    if k == key then (k, addAll present values) :: rest else (k, present) :: addTo key values rest

/-- Adds values under a key. An empty list starts no group. -/
def insertAll (g : Grouped κ ν) (key : κ) (values : List ν) : Grouped κ ν :=
  if values.isEmpty then g else ⟨addTo key values g.groups⟩

def insert (g : Grouped κ ν) (key : κ) (value : ν) : Grouped κ ν := g.insertAll key [value]

def union (a b : Grouped κ ν) : Grouped κ ν :=
  b.groups.foldl (fun g (key, values) => g.insertAll key values) a

def ofPairs (pairs : List (κ × ν)) : Grouped κ ν :=
  pairs.foldl (fun g (key, value) => g.insert key value) empty

instance : BEq (Grouped κ ν) where
  beq a b := a.size == b.size && a.groups.all fun (key, values) =>
    match b.get? key with
    | none => false
    | some others => sameElements values others

end Grouped

end AggregateQuery
