import Rulebook.Compiler
import Rulebook.Content.Samples
import Rulebook.Json.Indented
import Rulebook.Stored.Book

/-!
# The command line program

The program compiles the sample content and prints a summary or the whole book.
Environment variables say which, and may name a file with settings and a factor
for experience. All of it is a function of the variables and the file.
-/

namespace Rulebook.Program

/-- **What the program prints.** -/
inductive OutputFormat where
  /-- How many of what there are, and what was skipped. -/
  | summary
  /-- The whole book as JSON. -/
  | json
  deriving DecidableEq, Repr

/-- **Why the program stops** before it compiles anything. -/
inductive Failure where
  | outputFormat (word : String)
  /-- The text of the factor, without blanks around it. -/
  | multiplier (text : String)
  /-- A settings file that cannot be read, with the reason that the system
  gives. -/
  | unreadable (path reason : String)
  | settingsFile (path : String) (cause : SettingsError)
  | settings (cause : SettingsError)

namespace Failure

/-- What went wrong. -/
def headline : Failure → String
  | outputFormat _ => "SHEETSMITH_OUTPUT must be summary or json"
  | multiplier _ => "SHEETSMITH_XP_MULTIPLIER must be a number"
  | unreadable path _ => s!"failed to read settings file {path}"
  | settingsFile path _ => s!"invalid settings file {path}"
  | settings _ => "invalid compiler settings"

/-- The causes of a refusal of settings. -/
def settingsCauses (e : SettingsError) : List String :=
  e.message :: match e with
    | .malformed => [SettingsError.malformedDetail]
    | _ => []

/-- Why it went wrong, the nearest cause first. -/
def causes : Failure → List String
  | outputFormat word => [s!"unknown output format '{word}' (expected summary or json)"]
  | multiplier text =>
    [if text = "" then "cannot parse float from empty string" else "invalid float literal"]
  | unreadable _ reason => [reason]
  | settingsFile _ cause => settingsCauses cause
  | settings cause => settingsCauses cause

/-- The lines on one cause: the first after its label, the others below it. -/
def causeLines (label margin cause : String) : List String :=
  match Text.pieces (· = '\n') cause.toList with
  | [] => []
  | first :: others =>
    (label ++ String.ofList first) :: others.map fun line => margin ++ String.ofList line

/-- The lines on some causes, which are numbered if there are several. -/
def allCauseLines : List String → List String
  | [] => []
  | [cause] => "" :: "Caused by:" :: causeLines "    " "    " cause
  | causes =>
    "" :: "Caused by:" :: (causes.mapIdx fun i cause =>
      causeLines ("    " ++ Numeral.textOfNat i ++ ": ") "       " cause).flatten

/-- **The lines that the program prints on a failure.** -/
def lines (f : Failure) : List String := ("Error: " ++ f.headline) :: allCauseLines f.causes

end Failure

/-- **What the environment asks for.** -/
structure Options where
  output : OutputFormat
  /-- A file with settings. -/
  settingsPath : Option String
  /-- A factor for experience in place of the one in the settings. -/
  multiplier : Option Float

/-- Reads an output format, in any letter case and with blanks around it. -/
def OutputFormat.read (text : String) : Except Failure OutputFormat :=
  let word := Text.lowerBasic (Text.trim text)
  if word = "summary" then .ok .summary
  else if word = "json" then .ok .json
  else .error (.outputFormat word)

/-- Reads a factor with blanks around it. -/
def readMultiplier (text : String) : Except Failure Float :=
  let trimmed := Text.trim text
  match Numeral.read trimmed.toList with
  | some n => .ok (Double.ofNumeral n)
  | none => .error (.multiplier trimmed)

/-- **Reads the options from environment variables.** A blank path names no
file. -/
def Options.read (env : String → Option String) : Except Failure Options := do
  let output ← OutputFormat.read ((env "SHEETSMITH_OUTPUT").getD "summary")
  let multiplier ← (env "SHEETSMITH_XP_MULTIPLIER").mapM readMultiplier
  let settingsPath := (env "SHEETSMITH_SETTINGS").filter (Text.trim · != "")
  return { output, settingsPath, multiplier }

/-- **The settings that the options ask for**, given what the file holds or why
it cannot be read. -/
def Options.settings (options : Options) (file : String → Except String String) :
    Except Failure Settings := do
  let base ← match options.settingsPath with
    | none => .ok Settings.default
    | some path => do
      let text ← (file path).mapError (.unreadable path)
      (Settings.read text).mapError (.settingsFile path)
  let settings := match options.multiplier with
    | none => base
    | some m => { base with experienceMultiplier := m }
  settings.validate.mapError .settings
  return settings

/-- A text with blanks after it up to a width. -/
def padRight (width : Nat) (s : String) : String :=
  s ++ String.ofList (List.replicate (width - s.length) ' ')

/-- A text with blanks before it up to a width. -/
def padLeft (width : Nat) (s : String) : String :=
  String.ofList (List.replicate (width - s.length) ' ') ++ s

/-- The line on the choices of a kind, if there are any. -/
def choiceLine (book : Book) (kind : Kind) : Option String :=
  let count := (book.choices kind).length
  if count = 0 then none
  else some s!"  {padRight 10 kind.name} {padLeft 3 (Numeral.textOfNat count)} choices"

/-- **The summary of a batch.** -/
def summary (report : Report) (book : Book) : List String :=
  let records := report.registered.length
  [s!"Compiled {records} records into {book.rules.length} rules and {book.notes.length} notes"] ++
    Kind.all.filterMap (choiceLine book) ++
    ["  sections: " ++ String.intercalate ", " book.sections] ++
    report.skipped.map fun e => s!"  skipped [{e.cause.category.name}] {e.message}"

/-- **The book of the sample content**, and how compiling it went. -/
def compileSamples (settings : Settings) : Report × Book :=
  let step := (Compiler.new settings Samples.all).compileAll Samples.all
  (step.result, Book.empty.applyAll step.effects.edits)

/-- What the program prints once it has its settings. -/
def output (format : OutputFormat) (settings : Settings) : String :=
  let (report, book) := compileSamples settings
  match format with
  | .summary => String.intercalate "\n" (summary report book)
  | .json => book.toJson.writeIndented

end Rulebook.Program
