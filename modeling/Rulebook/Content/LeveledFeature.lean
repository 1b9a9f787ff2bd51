import Rulebook.Content.Number
import Rulebook.Formula.Reader
import Rulebook.Text.Split

/-!
# Leveled features

A class or a race grants features at levels, some only under a condition. An
entry is `Name`, `level:Name` or `condition ? level:Name`; without a level the
feature is granted at the first one.
-/

namespace Rulebook

/-- **A feature granted at a level.** -/
structure LeveledFeature where
  level : Nat
  name : String
  /-- What has to hold for the feature to be granted, if anything. -/
  condition : Option (Formula Float)

namespace LeveledFeature

/-- Whether a text before a colon is a level: digits and nothing else, but for
blanks around them. -/
def isLevel (cs : List Char) : Bool :=
  let digits := Text.trimChars cs
  !digits.isEmpty && digits.all Char.isDigit

/-- The level and the name of an entry without its condition. -/
def readGrant (cs : List Char) : Compiled (Nat × List Char) :=
  match Text.cutFirst (· = ':') cs with
  | some (level, name) =>
    if isLevel level then (readWhole (String.ofList level)).map (·, Text.trimChars name)
    else .ok (1, cs)
  | none => .ok (1, cs)

/-- **Reads an entry.** What stands before the last question mark is the
condition. -/
def read (entry : String) : Compiled LeveledFeature := do
  let cs := Text.trimChars entry.toList
  let (condition, granted) ← match Text.cutLast (· = '?') cs with
    | some (condition, granted) => do
      let f ← Formula.readChars condition
      pure (some f, Text.trimChars granted)
    | none => pure (none, cs)
  let (level, name) ← readGrant granted
  if level = 0 then refused (.zeroFeatureLevel (String.ofList name))
  else if name = [] then malformed (.namelessFeature (String.ofList cs))
  else return ⟨level, String.ofList name, condition⟩

end LeveledFeature

end Rulebook
