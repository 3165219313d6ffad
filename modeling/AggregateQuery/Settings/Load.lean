import AggregateQuery.Settings.Document
import AggregateQuery.Settings.Template
import AggregateQuery.Toml.Document
/-!
Loading settings and schemas from files. What the machine is asked for, variables of the
environment and files, is a parameter.
-/
namespace AggregateQuery

/-- What can be asked of the machine. A file that is not there has no text. -/
structure Machine (m : Type → Type) where
  environment? : String → m (Option String)
  file? : String → m (Option String)

inductive SettingsError where
  | fileNotFound (path : String)
  | malformed
  | missingVariable (name : String)
  | refusedDelimiter (name : String) (delimiter : Char)
  deriving DecidableEq

def SettingsError.message : SettingsError → String
  | fileNotFound path => s!"Config file not found: {path}"
  | malformed => "Failed to parse config file"
  | missingVariable name => s!"Missing environment variable: {name}"
  | refusedDelimiter name delimiter =>
    s!"Invalid configuration: grammar.{name} cannot be '{delimiter}'"

inductive SchemaError where
  | fileNotFound (path : String)
  | malformed
  | inconsistent (cause : CatalogError)
  deriving DecidableEq

def SchemaError.message : SchemaError → String
  | fileNotFound path => s!"Schema file not found: {path}"
  | malformed => "Failed to parse schema file"
  | inconsistent cause => cause.message

namespace Settings

def check (s : Settings) : Except SettingsError Settings :=
  match s.delimiters.refused? with
  | some (name, delimiter) => .error (.refusedDelimiter name delimiter)
  | none => .ok s

def ofToml (text : String) : Except SettingsError Settings :=
  match (Toml.parse? text).bind (ofDatum? .toml) with
  | none => .error .malformed
  | some settings => settings.check

variable [Monad m]

def ofFile (machine : Machine m) (path : String) : m (Except SettingsError Settings) := do
  match ← machine.file? path with
  | none => return .error (.fileNotFound path)
  | some text => return ofToml text

def ofFileOr (machine : Machine m) (path : String)
    (otherwise : m (Except SettingsError Settings)) : m (Except SettingsError Settings) := do
  match ← machine.file? path with
  | none => otherwise
  | some text => return ofToml text

/-- The directory of the user's configuration. A path from the environment counts only when it is
absolute. -/
def configDirectory? (machine : Machine m) : m (Option String) := do
  match ← machine.environment? "XDG_CONFIG_HOME" with
  | some path =>
    if path.startsWith "/" then return some path
    else return (← machine.environment? "HOME").map (· ++ "/.config")
  | none => return (← machine.environment? "HOME").map (· ++ "/.config")

/-- Looks for settings: in the file that the environment names, in the working directory, in the
user's configuration. Without any the defaults hold. -/
def load (machine : Machine m) : m (Except SettingsError Settings) := do
  match ← machine.environment? "BARD_CONFIG" with
  | some path => ofFile machine path
  | none =>
    ofFileOr machine "bard.toml" do
      match ← configDirectory? machine with
      | none => return .ok {}
      | some directory =>
        ofFileOr machine (directory ++ "/bard/config.toml") (return .ok {})

def resolvedSchemaPath (machine : Machine m) (s : Settings) :
    m (Except SettingsError (Option String)) := do
  match s.schemaPath with
  | none => return .ok none
  | some path =>
    let values ← (Template.names path).mapM fun name =>
      return (name, ← machine.environment? name)
    let expanded := Template.expand (fun name => (values.lookup name).join) path
    return (expanded.mapError .missingVariable).map some

end Settings

namespace Catalog

def ofToml (text : String) : Except SchemaError Catalog :=
  match (Toml.parse? text).bind (SchemaDefinition.ofDatum? .toml) with
  | none => .error .malformed
  | some definition => (ofDefinition definition).mapError .inconsistent

def ofFile [Monad m] (machine : Machine m) (path : String) : m (Except SchemaError Catalog) := do
  match ← machine.file? path with
  | none => return .error (.fileNotFound path)
  | some text => return ofToml text

end Catalog

end AggregateQuery
