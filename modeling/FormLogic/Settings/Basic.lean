import FormLogic.Json.Decode
import FormLogic.Settings.Address
import FormLogic.Settings.Toml.Reader
import FormLogic.Settings.Variables

/-!
This module contains the settings of a program. They come from several sources, of which a later one
wins: what the program is called with, three files, and the environment variables.
-/

namespace FormLogic

structure Reporting where
  serviceName : String
  logLevel : String
  jsonLogs : Bool

structure Settings where
  serviceName : String
  environment : String
  fieldsPath : String
  contextsPath : String
  reporting : Reporting

namespace Reporting

def default : Reporting := ⟨"unknown-service", "info", false⟩

def rename (r : Reporting) (serviceName : String) : Reporting := { r with serviceName }

end Reporting

namespace Settings

def fallback : Settings := ⟨"", "", "data/fields.json", "data/contexts.json", .default⟩

inductive Format where
  | toml
  | json

namespace Format

def read? (format : Format) (text : String) : Option (List (String × Setting)) :=
  match format with
  | toml => Toml.read? text
  | json =>
    match Document.decode Document.asValue text with
    | .ok (.object ms) => some (Setting.ofMembers ms)
    | _ => none

end Format

def sourceNames (service environment : String) : List String := ["default", environment, service]

/--
The files in which the settings of a source can be, the first one that exists being taken. A file
that has nothing in front of its ending is in no format.
-/
def fileNames (source : String) : List (String × Option Format) :=
  let isNameless := source.isEmpty || source.endsWith "/"
  [(source ++ ".toml", if isNameless then none else some .toml),
    (source ++ ".toml.toml", some .toml), (source ++ ".toml.json", some .json)]

def dropMark (text : String) : String :=
  match text.toList with
  | '\uFEFF' :: cs => String.ofList cs
  | _ => text

/--
The settings of a source. A source without a file, or whose file is in no format, has none.
-/
def source? (file : String → Option String) (source : String) :
    Option (List (String × Setting)) :=
  let found := (fileNames source).findSome? fun (name, format) => (file name).map (format, ·)
  match found with
  | some (some format, text) => format.read? (dropMark text)
  | some (none, _) | none => some []

def layer (below : Setting) (source : List (String × Setting)) : Setting :=
  source.foldl (fun below (key, value) => value.place (Setting.address key) below) below

def gather? (service environment : String) (file : String → Option String)
    (bindings : List (String × String)) : Option Setting := do
  let sources ← (sourceNames service environment).mapM (source? file)
  let base := .table [("service_name", .text service), ("environment", .text environment)]
  return (sources ++ [Variables.read bindings]).foldl layer base

/--
A member of a record, which is a table or a list of the members in their order. Nothing else is a
record.
-/
def member? (record : Option Setting) (position : Nat) (key : String) : Option (Option Setting) :=
  match record with
  | none => some none
  | some (.table ms) => some (ms.lookup key)
  | some (.list items) => some items[position]?
  | some _ => none

def valueOr {α : Type} (default : α) (read : Setting → Option α) : Option Setting → Option α
  | none => some default
  | some s => read s

def ofMembers? (ms : List (String × Setting)) : Option Settings := do
  let serviceName ← valueOr fallback.serviceName Setting.asText? (ms.lookup "service_name")
  let environment ← valueOr fallback.environment Setting.asText? (ms.lookup "environment")
  let catalogue := ms.lookup "catalog"
  let fields ← member? catalogue 0 "fields_path"
  let fieldsPath ← valueOr fallback.fieldsPath Setting.asText? fields
  let contexts ← member? catalogue 1 "contexts_path"
  let contextsPath ← valueOr fallback.contextsPath Setting.asText? contexts
  let reporting := ms.lookup "observability"
  let name ← member? reporting 0 "service_name"
  let reportingName ← valueOr Reporting.default.serviceName Setting.asText? name
  let level ← member? reporting 1 "log_level"
  let logLevel ← valueOr Reporting.default.logLevel Setting.asText? level
  let json ← member? reporting 2 "json_logs"
  let jsonLogs ← valueOr Reporting.default.jsonLogs Setting.asTruth? json
  return ⟨serviceName, environment, fieldsPath, contextsPath, ⟨reportingName, logLevel, jsonLogs⟩⟩

/--
The settings of a service in an environment. There are none if a file is no TOML or a value is of
the wrong kind.
-/
def load? (service environment : String) (file : String → Option String)
    (bindings : List (String × String)) : Option Settings := do
  let gathered ← gather? service environment file bindings
  ofMembers? gathered.members

def environmentOf (bindings : List (String × String)) : String :=
  (bindings.lookup "FORM_ENV").getD "development"

def directoryOf (bindings : List (String × String)) : String :=
  (bindings.lookup "CONFIG_DIR").getD "config"

end Settings

end FormLogic
