import AggregateQuery.Toml.Quoted
import AggregateQuery.Toml.Scalar
/-!
TOML documents. Tables are collected under the rules that say where a table may be defined and
where it may be added to.
-/
namespace AggregateQuery.Toml

inductive Origin where
  | implied
  | headed
  | dotted
  deriving DecidableEq

inductive Node where
  | value (datum : Datum)
  | table (origin : Origin) (entries : List (String × Node))
  /-- Tables under one header, the last one first. -/
  | tables (items : List (List (String × Node)))

abbrev Entries := List (String × Node)

namespace Entries

def get? (entries : Entries) (key : String) : Option Node :=
  (entries.find? fun (k, _) => k == key).map Prod.snd

def set (entries : Entries) (key : String) (node : Node) : Entries :=
  entries.filter (fun (k, _) => k != key) ++ [(key, node)]

/-- Edits the table at a path, and makes the tables on the way that are missing. A dotted key does
not lead through a table with a header of its own, and nothing leads into a value. -/
def editAt (dotted : Bool) (edit : Origin → Entries → Option Entries) :
    List String → Origin → Entries → Option Entries
  | [], origin, entries => edit origin entries
  | key :: path, _, entries =>
    match entries.get? key with
    | none =>
      let origin := if dotted then Origin.dotted else .implied
      (editAt dotted edit path origin []).map fun sub => entries.set key (.table origin sub)
    | some (.table origin sub) =>
      if dotted && origin == .headed then none
      else (editAt dotted edit path origin sub).map fun sub => entries.set key (.table origin sub)
    | some (.tables (last :: others)) =>
      (editAt dotted edit path .headed last).map fun sub =>
        entries.set key (.tables (sub :: others))
    | _ => none

/-- Gives a key its value. A key has one value, and a dotted key adds only to tables that dotted
keys made. -/
def define (path : List String) (key : String) (datum : Datum) (entries : Entries) :
    Option Entries :=
  editAt true (fun origin sub =>
    if (!path.isEmpty && origin != .dotted) || (sub.get? key).isSome then none
    else some (sub.set key (.value datum))) path .headed entries

/-- Opens the table of a header. It may have been implied before, but not defined. -/
def openTable (path : List String) (key : String) (entries : Entries) : Option Entries :=
  editAt false (fun _ sub =>
    match sub.get? key with
    | none => some (sub.set key (.table .headed []))
    | some (.table .implied inner) => some (sub.set key (.table .headed inner))
    | _ => none) path .headed entries

def appendTable (path : List String) (key : String) (entries : Entries) : Option Entries :=
  editAt false (fun _ sub =>
    match sub.get? key with
    | none => some (sub.set key (.tables [[]]))
    | some (.tables items) => some (sub.set key (.tables ([] :: items)))
    | _ => none) path .headed entries

def editOpen (edit : Entries → Option Entries) : List String → Entries → Option Entries
  | [], entries => edit entries
  | key :: path, entries =>
    match entries.get? key with
    | some (.table origin sub) =>
      (editOpen edit path sub).map fun sub => entries.set key (.table origin sub)
    | some (.tables (last :: others)) =>
      (editOpen edit path last).map fun sub => entries.set key (.tables (sub :: others))
    | _ => none

end Entries

mutual

def Node.datum : Node → Datum
  | .value datum => datum
  | .table _ entries => .table (entriesData entries)
  | .tables items => .array (tablesData items).reverse

def entriesData : List (String × Node) → List (String × Datum)
  | [] => []
  | (key, node) :: rest => (key, node.datum) :: entriesData rest

def tablesData : List (List (String × Node)) → List Datum
  | [] => []
  | entries :: rest => .table (entriesData entries) :: tablesData rest

end

def skipSpaces (s : List Char) : List Char := s.dropWhile isSpace

def skipComment? : List Char → Option (List Char)
  | '#' :: rest =>
    let after := rest.dropWhile isTextChar
    if after.isEmpty || startsLine after then some after else none
  | rest => some rest

def skipLines? : Nat → List Char → Option (List Char)
  | 0, _ => none
  | fuel + 1, s => do
    let rest ← skipComment? (skipSpaces s)
    if startsLine rest then skipLines? fuel (dropLineEnd rest) else some rest

def endLine? (s : List Char) : Option (List Char) := do
  let rest ← skipComment? (skipSpaces s)
  if rest.isEmpty || startsLine rest then some (dropLineEnd rest) else none

def isBareKeyChar (c : Char) : Bool := c.isAlphanum || c == '-' || c == '_'

def readSimpleKey? (s : List Char) : Option (String × List Char) :=
  let bare := s.takeWhile isBareKeyChar
  if bare.isEmpty then (readQuoted? s).map fun (text, rest) => (String.ofList text, rest)
  else some (String.ofList bare, s.dropWhile isBareKeyChar)

/-- Lists and tables in braces can stand in each other so deep, and a key has so many names. -/
def nestingLimit : Nat := 80

def readNames? : Nat → List Char → Option (List String × String × List Char)
  | 0, _ => none
  | fuel + 1, s => do
    let (name, rest) ← readSimpleKey? (skipSpaces s)
    match skipSpaces rest with
    | '.' :: rest => do
      let (path, last, rest) ← readNames? fuel rest
      return (name :: path, last, rest)
    | rest => return ([], name, rest)

def readKey? (s : List Char) : Option (List String × String × List Char) :=
  (readNames? s.length.succ s).filter fun (path, _, _) => path.length < nestingLimit

def unquotedEnds : List Char :=
  ['=', ',', '[', ']', '\x7b', '\x7d', '#', ' ', '\t', '\r', '\n']

def isUnquotedChar (c : Char) : Bool := !unquotedEnds.contains c

/-- An unquoted text, and the text after it. After a date a blank and a time may follow. -/
def cutUnquoted (s : List Char) : List Char × List Char :=
  let first := s.takeWhile isUnquotedChar
  match s.dropWhile isUnquotedChar with
  | ' ' :: rest =>
    if readDate? first == some [] && rest.head?.any Char.isDigit then
      (first ++ ' ' :: rest.takeWhile isUnquotedChar, rest.dropWhile isUnquotedChar)
    else (first, ' ' :: rest)
  | rest => (first, rest)

mutual

def readValue? : Nat → Nat → List Char → Option (Datum × List Char)
  | 0, _, _ => none
  | fuel + 1, depth, s =>
    match s with
    | '[' :: rest => if depth = 0 then none else readItems? fuel (depth - 1) rest
    | '\x7b' :: rest => if depth = 0 then none else readFields? fuel (depth - 1) [] rest
    | '"' :: _ => (readText? s).map fun (text, rest) => (.string (String.ofList text), rest)
    | '\'' :: _ => (readText? s).map fun (text, rest) => (.string (String.ofList text), rest)
    | _ =>
      let (text, rest) := cutUnquoted s
      (ofUnquoted? text).map fun datum => (datum, rest)

def readItems? : Nat → Nat → List Char → Option (Datum × List Char)
  | 0, _, _ => none
  | fuel + 1, depth, s => do
    match ← skipLines? s.length.succ s with
    | ']' :: rest => return (.array [], rest)
    | s => do
      let (item, rest) ← readValue? fuel depth s
      match ← skipLines? rest.length.succ rest with
      | ']' :: rest => return (.array [item], rest)
      | ',' :: rest => do
        match ← readItems? fuel depth rest with
        | (.array items, rest) => return (.array (item :: items), rest)
        | _ => none
      | _ => none

def readFields? : Nat → Nat → Entries → List Char → Option (Datum × List Char)
  | 0, _, _, _ => none
  | fuel + 1, depth, entries, s => do
    match ← skipLines? s.length.succ s with
    | '\x7d' :: rest => return (.table (entriesData entries), rest)
    | s => do
      let (path, key, rest) ← readKey? s
      match ← skipLines? rest.length.succ rest with
      | '=' :: rest => do
        let (datum, rest) ← readValue? fuel depth (← skipLines? rest.length.succ rest)
        let entries ← entries.define path key datum
        match ← skipLines? rest.length.succ rest with
        | '\x7d' :: rest => return (.table (entriesData entries), rest)
        | ',' :: rest => readFields? fuel depth entries rest
        | _ => none
      | _ => none

end

structure Draft where
  entries : Entries := []
  opened : List String := []

def readHeader? (draft : Draft) (s : List Char) : Option (Draft × List Char) := do
  match s with
  | '[' :: s => do
    let (path, key, rest) ← readKey? s
    match rest with
    | ']' :: ']' :: rest => return (⟨← draft.entries.appendTable path key, path ++ [key]⟩, rest)
    | _ => none
  | s => do
    let (path, key, rest) ← readKey? s
    match rest with
    | ']' :: rest => return (⟨← draft.entries.openTable path key, path ++ [key]⟩, rest)
    | _ => none

def readAssignment? (draft : Draft) (s : List Char) : Option (Draft × List Char) := do
  let (path, key, rest) ← readKey? s
  match rest with
  | '=' :: rest => do
    let value := skipSpaces rest
    let (datum, rest) ← readValue? (2 * value.length + 2) nestingLimit value
    let entries ← draft.entries.editOpen (Entries.define path key datum) draft.opened
    return ({ draft with entries }, rest)
  | _ => none

def readDocument? : Nat → Draft → List Char → Option Draft
  | 0, _, _ => none
  | fuel + 1, draft, s => do
    let s := skipSpaces s
    if s.isEmpty then return draft
    else if startsLine s || s.head? == some '#' then readDocument? fuel draft (← endLine? s)
    else
      let (draft, rest) ← match s with
        | '[' :: s => readHeader? draft s
        | s => readAssignment? draft s
      readDocument? fuel draft (← endLine? rest)

def parse? (text : String) : Option Datum :=
  let s := match text.toList with
    | '\uFEFF' :: rest => rest
    | s => s
  (readDocument? s.length.succ {} s).map fun draft => .table (entriesData draft.entries)

end AggregateQuery.Toml
