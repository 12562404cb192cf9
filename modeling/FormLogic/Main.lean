import FormLogic.Demo

/-!
This module contains the command line of the demonstration program.
-/

open FormLogic

def environmentVariables : IO (List (String × String)) := do
  let text ← try IO.FS.readFile "/proc/self/environ" catch _ => pure ""
  return (text.splitOn "\x00").filterMap fun entry =>
    match entry.splitOn "=" with
    | name :: value@(_ :: _) => some (name, "=".intercalate value)
    | _ => none

def readFiles (paths : List String) : IO (List (String × String)) :=
  paths.filterMapM fun (path : String) => do
    try
      return some (path, ← IO.FS.readFile path)
    catch _ =>
      return none

def main : IO UInt32 := do
  let bindings ← environmentVariables
  let directory := Settings.directoryOf bindings
  let sources := Settings.sourceNames Demo.serviceName (Settings.environmentOf bindings)
  let names := (sources.flatMap Settings.fileNames).map (·.1)
  let settingsFiles ← readFiles (names.map (Demo.inDirectory directory))
  let settings := (Demo.settings? (fun path => settingsFiles.lookup path) bindings).getD .fallback
  let dataFiles ← readFiles [settings.fieldsPath, settings.contextsPath]
  let outcome := Demo.run (fun path => (settingsFiles ++ dataFiles).lookup path) bindings
  if outcome.usedFallback then
    IO.eprintln "Failed to load config, using defaults"
  match outcome.result with
  | .ok text =>
    IO.print text
    return 0
  | .error failure =>
    IO.eprintln ("Error: " ++ failure.message)
    return 1
