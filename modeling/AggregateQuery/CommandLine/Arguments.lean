import AggregateQuery.Request.Build
import AggregateQuery.Text.Basic
/-!
The arguments of the program: a command, its options, and the schema option, which may stand
before the command or after it.
-/
namespace AggregateQuery.CommandLine

open Text

inductive RequestOption where
  | table
  | grain
  | dimensions
  | metrics
  | intervals
  | filters
  | having
  | sort
  | count
  | topN
  | perPage
  | page
  | format
  | timeZone
  | asyncAfter
  deriving DecidableEq

namespace RequestOption

def all : List RequestOption :=
  [table, grain, dimensions, metrics, intervals, filters, having, sort, count, topN, perPage, page,
    format, timeZone, asyncAfter]

def long : RequestOption → String
  | table => "table"
  | grain => "grain"
  | dimensions => "dimensions"
  | metrics => "metrics"
  | intervals => "intervals"
  | filters => "filters"
  | having => "having"
  | sort => "sort"
  | count => "count"
  | topN => "top-n"
  | perPage => "per-page"
  | page => "page"
  | format => "format"
  | timeZone => "time-zone"
  | asyncAfter => "async-after"

def short? : RequestOption → Option Char
  | table => some 't'
  | grain => some 'g'
  | dimensions => some 'd'
  | metrics => some 'm'
  | intervals => some 'i'
  | filters => some 'f'
  | _ => none

end RequestOption

inductive OptionName where
  | schema
  | request (name : RequestOption)
  deriving DecidableEq

inductive Command where
  | parse (request : RequestParameters)
  | validate (request : RequestParameters)
  | dimension (name : String) (request : RequestParameters)
  | schema
  deriving DecidableEq

inductive Invocation where
  | version
  | run (schema : Option String) (command : Command)
  deriving DecidableEq

inductive Token where
  | long (name : String) (value : Option String)
  | short (name : Char) (value : Option String)
  | escape
  | plain (text : String)
  deriving DecidableEq

namespace Token

def ofArgument (argument : String) : Token :=
  match argument.toList with
  | ['-', '-'] => escape
  | '-' :: '-' :: rest =>
    match cut? '=' rest with
    | some (name, value) => long (String.ofList name) (some (String.ofList value))
    | none => long (String.ofList rest) none
  | '-' :: name :: rest =>
    match rest with
    | [] => short name none
    | '=' :: value => short name (some (String.ofList value))
    | value => short name (some (String.ofList value))
  | _ => plain argument

end Token

structure Collected where
  schema : Option String := none
  options : List (RequestOption × String) := []
  positionals : List String := []

namespace Collected

def option? (c : Collected) (name : RequestOption) : Option String :=
  (c.options.find? fun (n, _) => n == name).map Prod.snd

/-- Keeps the value of an option, which is given once. The path of a schema is not empty. -/
def add? (c : Collected) (name : OptionName) (value : String) : Option Collected :=
  match name with
  | .schema =>
    if c.schema.isSome || value.isEmpty then none else some { c with schema := some value }
  | .request name =>
    if (c.option? name).isSome then none else some { c with options := (name, value) :: c.options }

def toParameters (c : Collected) : RequestParameters where
  table := (c.option? .table).getD ""
  granularity := c.option? .grain
  dimensions := c.option? .dimensions
  metrics := c.option? .metrics
  intervals := c.option? .intervals
  filters := c.option? .filters
  having := c.option? .having
  sorts := c.option? .sort
  count := c.option? .count
  topN := c.option? .topN
  perPage := c.option? .perPage
  page := c.option? .page
  format := c.option? .format
  timeZone := c.option? .timeZone
  asyncAfter := c.option? .asyncAfter

end Collected

/-- The option of a token, with the value that is attached to it. The options of requests are
known only to the commands for them. -/
def option? (requests : Bool) : Token → Option (OptionName × Option String)
  | .long name value =>
    if name = "schema" then some (.schema, value)
    else if requests then
      (RequestOption.all.find? fun o => o.long == name).map fun o => (.request o, value)
    else none
  | .short name value =>
    if name = 's' then some (.schema, value)
    else if requests then
      (RequestOption.all.find? fun o => o.short? == some name).map fun o => (.request o, value)
    else none
  | _ => none

def isValue (argument : String) : Bool := Token.ofArgument argument == .plain argument

def collect? (requests : Bool) : Collected → List String → Option Collected
  | c, [] => some c
  | c, argument :: rest =>
    match Token.ofArgument argument with
    | .escape => some { c with positionals := c.positionals ++ rest }
    | .plain text => collect? requests { c with positionals := c.positionals ++ [text] } rest
    | token =>
      match option? requests token with
      | none => none
      | some (name, some value) =>
        (c.add? name value).bind fun c => collect? requests c rest
      | some (name, none) =>
        match rest with
        | [] => none
        | value :: rest =>
          if isValue value then (c.add? name value).bind fun c => collect? requests c rest
          else none

/-- The command of a name with the arguments after it. A schema given here comes before one given
earlier. -/
def command? (schema : Option String) (name : String) (rest : List String) : Option Invocation := do
  let c ← collect? (name != "schema") {} rest
  let command ← match name, c.positionals with
    | "parse", [] => some (Command.parse c.toParameters)
    | "validate", [] => some (Command.validate c.toParameters)
    | "dimension", [dimension] => some (Command.dimension dimension c.toParameters)
    | "schema", [] => some Command.schema
    | _, _ => none
  return .run (c.schema.or schema) command

def isVersion : Token → Bool
  | .long name value => name == "version" && value.isNone
  | .short name _ => name == 'V'
  | _ => false

def invocation? : Collected → List String → Option Invocation
  | _, [] => none
  | c, argument :: rest =>
    let token := Token.ofArgument argument
    if isVersion token then some .version
    else match token with
      | .plain name => command? c.schema name rest
      | token =>
        match option? false token with
        | none => none
        | some (name, some value) => (c.add? name value).bind fun c => invocation? c rest
        | some (name, none) =>
          match rest with
          | [] => none
          | value :: rest =>
            if isValue value then (c.add? name value).bind fun c => invocation? c rest else none

def parse? (arguments : List String) : Option Invocation := invocation? {} arguments

end AggregateQuery.CommandLine
