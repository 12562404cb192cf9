import FormLogic.Catalogue.Basic
import FormLogic.Settings.Basic

/-!
This module contains the demonstration program: it evaluates all fields of a catalogue in some
contexts and lists for each context which of them are shown and what is wrong with them. Files are
given by a function from their paths to their contents.
-/

namespace FormLogic.Demo

open Document Mismatch

/--
A context under a label. The form values are those of the form when its content is checked.
-/
structure Scene where
  label : String
  context : Context
  formValues : Option Json

namespace Scene

structure Draft where
  label : Option String
  context : Option Json
  formValues : Option (Option Json)

def form : RecordForm Draft Scene where
  name := "NamedContext"
  slots := [
    .ofMember "label" true (fun _ d => d.asText) (·.label)
      fun draft v => { draft with label := some v },
    .ofMember "context" true asValue (·.context) fun draft v => { draft with context := some v },
    .ofMember "formValues" false (fun room d => d.asOption (asValue room)) (·.formValues)
      fun draft v => { draft with formValues := some v }]
  blank := ⟨none, none, none⟩
  finish draft := do
    let label ← require "label" draft.label
    let context ← require "context" draft.context
    return ⟨label, ⟨context⟩, draft.formValues.join⟩

def listOfText (text : String) : Except Fault (List Scene) := decode (asList form.read) text

end Scene

inductive Failure where
  | cannotRead (path : String)
  | badFields
  | badScenes

namespace Failure

def message : Failure → String
  | cannotRead path => "Failed to read " ++ path
  | badFields => "Failed to parse field catalogue"
  | badScenes => "Failed to parse contexts"

end Failure

def blankForm (names : List String) : Json :=
  .object (Json.ofMembers (names.map fun name => (name, .string "")))

def Scene.filled (scene : Scene) (names : List String) : Context :=
  scene.context.overlay (scene.formValues.getD (blankForm names))

def pad (width : Nat) (s : String) : String :=
  s ++ String.ofList (List.replicate (width - s.length) ' ')

def nameWidth (names : List String) : Nat :=
  names.foldl (fun width name => max width name.utf8ByteSize) 4

def row (width : Nat) (name visible error : String) : String :=
  pad width name ++ "  " ++ pad 7 visible ++ "  " ++ error ++ "\n"

/--
The list for one context. Whether fields are shown is decided without the form, and their content is
checked with it.
-/
def list (c : Catalogue) (names : List String) (scene : Scene) : String :=
  let width := nameWidth names
  let rows := c.revisions.map fun r =>
    row width r.name (if r.field.isVisible scene.context then "true" else "false")
      ((r.field.validate (scene.filled names)).getD "-")
  "\n--- Context: " ++ scene.label ++ " ---\n" ++ row width "name" "visible" "error"
    ++ String.join rows

def lists (fields : List Field) (scenes : List Scene) : String :=
  let c := (Catalogue.empty (.ofTracing false)).loadAll fields
  String.join (scenes.map (list c (fields.map (·.name))))

def read (file : String → Option String) (path : String) : Except Failure String :=
  match file path with
  | some text => .ok text
  | none => .error (.cannotRead path)

def output (settings : Settings) (file : String → Option String) : Except Failure String := do
  let fieldsText ← read file settings.fieldsPath
  let fields ← (Field.listOfText fieldsText).mapError fun _ => .badFields
  let scenesText ← read file settings.contextsPath
  let scenes ← (Scene.listOfText scenesText).mapError fun _ => .badScenes
  return lists fields scenes

/--
The path to a file in a directory. A path that starts with a slash leads out of every directory.
-/
def inDirectory (directory name : String) : String :=
  if name.startsWith "/" then
    name
  else if directory.isEmpty || directory.endsWith "/" then
    directory ++ name
  else
    directory ++ "/" ++ name

def serviceName : String := "field-rule-engine"

def settings? (file : String → Option String) (bindings : List (String × String)) :
    Option Settings :=
  Settings.load? serviceName (Settings.environmentOf bindings)
    (fun name => file (inDirectory (Settings.directoryOf bindings) name)) bindings

structure Outcome where
  usedFallback : Bool
  result : Except Failure String

def run (file : String → Option String) (bindings : List (String × String)) : Outcome :=
  let settings := settings? file bindings
  ⟨settings.isNone, output (settings.getD .fallback) file⟩

end FormLogic.Demo
