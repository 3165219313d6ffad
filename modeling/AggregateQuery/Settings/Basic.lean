import AggregateQuery.Request.DataRequest
import AggregateQuery.Text.Alphanumeric
/-!
Settings: the delimiters of lists, what is meant when a request leaves a parameter out, and where
the schema lies.
-/
namespace AggregateQuery

structure Delimiters where
  filters : Char := ','
  havings : Char := ','
  sorts : Char := ','
  intervals : Char := ','
  deriving DecidableEq

structure RequestDefaults where
  timeZone : Zone := .utc
  format : ResponseFormat := .json
  asyncAfter : AsyncAfter := .never
  perPage : Option Positive := none
  deriving DecidableEq

structure Settings where
  delimiters : Delimiters := {}
  defaults : RequestDefaults := {}
  schemaPath : Option String := none
  deriving DecidableEq

namespace Delimiters

def named (d : Delimiters) : List (String × Char) :=
  [("filter_delimiter", d.filters), ("having_delimiter", d.havings),
    ("sort_delimiter", d.sorts), ("interval_delimiter", d.intervals)]

/-- The characters that mean something inside an entry of a list. -/
def reserved : List Char := ['[', ']', '-', '.', '|', '%', '/']

def isRefused (c : Char) : Bool := reserved.contains c || Text.isAlphanumeric c

def refused? (d : Delimiters) : Option (String × Char) := d.named.find? fun (_, c) => isRefused c

end Delimiters

namespace Settings

def json (s : Settings) : Json :=
  .object [("grammar", .object (s.delimiters.named.map fun (name, c) =>
      (name, .string (String.singleton c)))),
    ("defaults", .object [("time_zone", .string (toString s.defaults.timeZone)),
      ("format", .string s.defaults.format.name),
      ("async_after", .string (toString s.defaults.asyncAfter)),
      ("per_page", Json.ofOption Positive.json s.defaults.perPage)]),
    ("schema", .object [("path", Json.ofOption .string s.schemaPath)])]

end Settings

end AggregateQuery
