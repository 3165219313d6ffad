import AggregateQuery.Number.Integer
import AggregateQuery.Text.Basic
/-!
How a response is wanted: its format, and after how long a wait it may come later.
-/
namespace AggregateQuery

open Text

inductive ResponseFormat where
  | json
  | jsonApi
  | csv
  | debug
  deriving DecidableEq

namespace ResponseFormat

def all : List ResponseFormat := [json, jsonApi, csv, debug]

def name : ResponseFormat → String
  | json => "json"
  | jsonApi => "jsonapi"
  | csv => "csv"
  | debug => "debug"

/-- The format of exactly this name. -/
def ofName? (text : String) : Option ResponseFormat := all.find? fun f => f.name == text

def parse? (text : String) : Option ResponseFormat :=
  ofName? (String.ofList (lower (trim text.toList)))

end ResponseFormat

def waitLimit : Nat := 18446744073709551616

/-- When a query that is still running is answered with a ticket. -/
inductive AsyncAfter where
  | never
  | always
  | after (milliseconds : Nat) (bounded : milliseconds < waitLimit)
  deriving DecidableEq

namespace AsyncAfter

def ofMilliseconds? (n : Nat) : Option AsyncAfter :=
  if h : n < waitLimit then some (.after n h) else none

def parse? (text : String) : Option AsyncAfter :=
  let trimmed := trim text.toList
  if sameKeyword trimmed "never".toList then some never
  else if sameKeyword trimmed "always".toList then some always
  else (readNat? waitLimit trimmed).bind ofMilliseconds?

def chars : AsyncAfter → List Char
  | never => "never".toList
  | always => "always".toList
  | after milliseconds _ => natChars milliseconds

instance : ToString AsyncAfter := ⟨fun a => String.ofList a.chars⟩

end AsyncAfter

end AggregateQuery
