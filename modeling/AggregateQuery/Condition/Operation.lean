import AggregateQuery.Text.Basic
/-!
The operations of filters and of havings, and how many values they take. An operation has one name
that is written and further ones that are read; letter case does not matter in reading.
-/
namespace AggregateQuery

open Text

inductive Arity where
  /-- None. The brackets may be left out or left empty. -/
  | nullary
  | exactly (count : Nat)
  | atLeast (count : Nat)
  deriving DecidableEq

namespace Arity

def min : Arity → Nat
  | nullary => 0
  | exactly n => n
  | atLeast n => n

def max? : Arity → Option Nat
  | nullary => some 0
  | exactly n => some n
  | atLeast _ => none

inductive Breach where
  | tooFew (required : Nat)
  | tooMany (allowed : Nat)
  deriving DecidableEq

def breach? (arity : Arity) (count : Nat) : Option Breach :=
  if count < arity.min then some (.tooFew arity.min)
  else match arity.max? with
    | none => none
    | some allowed => if allowed < count then some (.tooMany allowed) else none

def Admits (arity : Arity) (count : Nat) : Prop :=
  arity.min ≤ count ∧ ∀ allowed ∈ arity.max?, count ≤ allowed

theorem breach?_eq_none_iff (arity : Arity) (count : Nat) :
    arity.breach? count = none ↔ arity.Admits count := by
  unfold breach? Admits
  by_cases few : count < arity.min
  · simp [few, Nat.not_le.mpr few]
  · cases bound : arity.max? <;> simp [few, Nat.le_of_not_lt few]

end Arity

def isNameAmong (name : String) (aliases : List String) (text : String) : Bool :=
  (name :: aliases).any fun known => known.toList == lower text.toList

inductive FilterOperation where
  | isIn
  | notIn
  | eq
  | neq
  | startsWith
  | contains
  | between
  | gt
  | gte
  | lt
  | lte
  | isNull
  | notNull
  deriving DecidableEq

namespace FilterOperation

def all : List FilterOperation :=
  [isIn, notIn, eq, neq, startsWith, contains, between, gt, gte, lt, lte, isNull, notNull]

def name : FilterOperation → String
  | isIn => "in"
  | notIn => "notin"
  | eq => "eq"
  | neq => "neq"
  | startsWith => "startswith"
  | contains => "contains"
  | between => "between"
  | gt => "gt"
  | gte => "gte"
  | lt => "lt"
  | lte => "lte"
  | isNull => "isnull"
  | notNull => "notnull"

def aliases : FilterOperation → List String
  | eq => ["equals"]
  | neq => ["notequals"]
  | gt => ["greaterthan"]
  | gte => ["notlt"]
  | lt => ["lessthan"]
  | lte => ["notgt"]
  | _ => []

def ofName? (text : String) : Option FilterOperation :=
  all.find? fun op => isNameAmong op.name op.aliases text

def allNames : List String := all.map name ++ all.flatMap aliases

def arity : FilterOperation → Arity
  | isNull | notNull => .nullary
  | between => .exactly 2
  | gt | gte | lt | lte => .exactly 1
  | isIn | notIn | eq | neq | startsWith | contains => .atLeast 1

def takesValues (op : FilterOperation) : Bool := op.arity != .nullary

/-- Whether the order of the values matters, as it does for the bounds of a range. -/
def isOrdered (op : FilterOperation) : Bool := op == between

end FilterOperation

inductive HavingOperation where
  | eq
  | neq
  | gt
  | lt
  | gte
  | lte
  | between
  | notBetween
  deriving DecidableEq

namespace HavingOperation

def all : List HavingOperation := [eq, neq, gt, lt, gte, lte, between, notBetween]

def name : HavingOperation → String
  | eq => "eq"
  | neq => "neq"
  | gt => "gt"
  | lt => "lt"
  | gte => "gte"
  | lte => "lte"
  | between => "between"
  | notBetween => "notbetween"

def aliases : HavingOperation → List String
  | eq => ["equalto"]
  | neq => ["notequalto"]
  | gt => ["greaterthan"]
  | lt => ["lessthan"]
  | gte => ["notlessthan"]
  | lte => ["notgreaterthan"]
  | between | notBetween => []

def ofName? (text : String) : Option HavingOperation :=
  all.find? fun op => isNameAmong op.name op.aliases text

def allNames : List String := all.map name ++ all.flatMap aliases

def arity : HavingOperation → Arity
  | between | notBetween => .exactly 2
  | _ => .atLeast 1

end HavingOperation

end AggregateQuery
