import AggregateQuery.Catalog.Basic
import AggregateQuery.Data.Document
import AggregateQuery.Request.Build
/-!
Settings, schemas and request parameters as they are written in documents.
-/
namespace AggregateQuery

def Datum.parsed? (parse? : String → Option α) (d : Datum) : Option α := d.string?.bind parse?

namespace Settings

def delimiters? (format : DocumentFormat) (d : Datum) : Option Delimiters := do
  let names := [["filter_delimiter"], ["having_delimiter"], ["sort_delimiter"],
    ["interval_delimiter"]]
  match ← d.record? format names with
  | [filters, havings, sorts, intervals] => do
    return {
      filters := ← Datum.getOr ',' Datum.char? filters
      havings := ← Datum.getOr ',' Datum.char? havings
      sorts := ← Datum.getOr ',' Datum.char? sorts
      intervals := ← Datum.getOr ',' Datum.char? intervals }
  | _ => none

def defaults? (format : DocumentFormat) (d : Datum) : Option RequestDefaults := do
  match ← d.record? format [["time_zone"], ["format"], ["async_after"], ["per_page"]] with
  | [timeZone, responseFormat, asyncAfter, perPage] => do
    return {
      timeZone := ← Datum.getOr .utc (Datum.parsed? fun s => Zone.parse? s.toList) timeZone
      format := ← Datum.getOr .json
        (fun v => (v.name? format).bind ResponseFormat.ofName?) responseFormat
      asyncAfter := ← Datum.getOr .never (Datum.parsed? AsyncAfter.parse?) asyncAfter
      perPage := ← Datum.getOr none
        (Datum.nullable? fun v => v.integer?.bind fun n => Positive.ofNat? n.toNat) perPage }
  | _ => none

def schemaPath? (format : DocumentFormat) (d : Datum) : Option (Option String) := do
  match ← d.record? format [["path"]] with
  | [path] => Datum.getOr none (Datum.nullable? Datum.string?) path
  | _ => none

/-- The settings of a document. Reserved delimiters are not refused here. -/
def ofDatum? (format : DocumentFormat) (d : Datum) : Option Settings := do
  match ← d.record? format [["grammar"], ["defaults"], ["schema"]] with
  | [grammar, defaults, schema] => do
    return {
      delimiters := ← Datum.getOr {} (delimiters? format) grammar
      defaults := ← Datum.getOr {} (defaults? format) defaults
      schemaPath := ← Datum.getOr none (schemaPath? format) schema }
  | _ => none

end Settings

namespace SchemaDefinition

def strings? : Option Datum → Option (List String) := Datum.getOr [] (Datum.list? Datum.string?)

def text? : Option Datum → Option (Option String) :=
  Datum.getOr none (Datum.nullable? Datum.string?)

def dimension? (format : DocumentFormat) (d : Datum) : Option DimensionDefinition := do
  match ← d.record? format [["name"], ["key_field"], ["fields"], ["description"]] with
  | [name, keyField, fields, description] => do
    return ⟨← (← name).string?, ← Datum.getOr "id" Datum.string? keyField, ← strings? fields,
      ← text? description⟩
  | _ => none

def metric? (format : DocumentFormat) (d : Datum) : Option MetricDefinition := do
  match ← d.record? format [["name"], ["category"], ["description"]] with
  | [name, category, description] => do
    return ⟨← (← name).string?, ← text? category, ← text? description⟩
  | _ => none

def granularity? : Datum → Option Granularity :=
  Datum.parsed? fun s => Granularity.parse? s.toList

def table? (format : DocumentFormat) (d : Datum) : Option TableDefinition := do
  match ← d.record? format [["name"], ["granularities"], ["dimensions"], ["metrics"]] with
  | [name, granularities, dimensions, metrics] => do
    return ⟨← (← name).string?, ← Datum.getOr [] (Datum.list? granularity?) granularities,
      ← strings? dimensions, ← strings? metrics⟩
  | _ => none

def ofDatum? (format : DocumentFormat) (d : Datum) : Option SchemaDefinition := do
  match ← d.record? format [["dimensions"], ["metrics"], ["tables"]] with
  | [dimensions, metrics, tables] => do
    return ⟨← Datum.getOr [] (Datum.list? (dimension? format)) dimensions,
      ← Datum.getOr [] (Datum.list? (metric? format)) metrics,
      ← Datum.getOr [] (Datum.list? (table? format)) tables⟩
  | _ => none

end SchemaDefinition

namespace RequestParameters

def fieldNames : List (List String) :=
  [["granularity", "grain"], ["dimensions"], ["metrics"], ["intervals", "dateTime"], ["filters"],
    ["having"], ["sorts", "sort"], ["count"], ["topN"], ["perPage"], ["page"], ["format"],
    ["timeZone"], ["asyncAfter"]]

/-- The parameters of a document. All are texts, and all but the table may be null. -/
def ofDatum? (format : DocumentFormat) (d : Datum) : Option RequestParameters := do
  match ← d.record? format (["table"] :: fieldNames) with
  | table :: others =>
    match ← others.mapM SchemaDefinition.text? with
    | [granularity, dimensions, metrics, intervals, filters, having, sorts, count, topN, perPage,
        page, format, timeZone, asyncAfter] => do
      return {
        table := ← Datum.getOr "" Datum.string? table
        granularity, dimensions, metrics, intervals, filters, having, sorts, count, topN, perPage,
        page, format, timeZone, asyncAfter }
    | _ => none
  | [] => none

end RequestParameters

end AggregateQuery
