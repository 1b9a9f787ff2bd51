import Rulebook.Program

/-!
# Entry point

Reads the environment and the settings file, and prints what the program gives.
Failures go to standard error and end with exit code one.
-/

namespace Rulebook.Program

/-- The values of the environment variables that are set, by name. -/
def readEnvironment : IO (List (String × String)) := do
  let names := ["SHEETSMITH_OUTPUT", "SHEETSMITH_SETTINGS", "SHEETSMITH_XP_MULTIPLIER"]
  let found ← names.mapM fun name => do
    return (← IO.getEnv name).map fun value => (name, value)
  return found.filterMap id

/-- What messages say of a failure to read a file. -/
def reasonOf : IO.Error → String
  | .noFileOrDirectory _ code _ => s!"No such file or directory (os error {code})"
  | .permissionDenied _ code _ => s!"Permission denied (os error {code})"
  | .inappropriateType _ code _ => s!"Is a directory (os error {code})"
  | e => toString e

/-- The contents of a file, or why it cannot be read. -/
def readSettingsFile (path : String) : IO (Except String String) := do
  try return .ok (← IO.FS.readFile path)
  catch e => return .error (reasonOf e)

/-- Prints the lines on a failure. -/
def reportFailure (failure : Failure) : IO UInt32 := do
  for line in failure.lines do IO.eprintln line
  return 1

end Rulebook.Program

open Rulebook.Program

/-- **The program.** -/
def main : IO UInt32 := do
  let env ← readEnvironment
  match Options.read fun name => env.lookup name with
  | .error failure => reportFailure failure
  | .ok options =>
    let contents ← match options.settingsPath with
      | some path => readSettingsFile path
      | none => pure (.ok "")
    match options.settings fun _ => contents with
    | .error failure => reportFailure failure
    | .ok settings =>
      IO.println (output options.output settings)
      return 0
