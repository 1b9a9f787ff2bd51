import Rulebook.Compile.Grants
import Rulebook.Content.FieldTable

/-!
# Compiling races

A race is chosen once for a character. It has no levels of its own, so features
that it grants later depend on the level of the character.
-/

namespace Rulebook.Compile

/-- **When a race grants a feature**, if not always: under its condition, and
beyond the first level from its level on. -/
def raceCondition (feature : LeveledFeature) : Option (Formula Float) :=
  if 1 < feature.level then
    some (alsoRequire feature.condition (.binary .ge (.attr "level") (.whole feature.level)))
  else feature.condition

/-- The rule that grants a feature of a race. -/
def raceGrant (selected : String) (feature : LeveledFeature) : Rule :=
  let target := member "features" feature.name
  match raceCondition feature with
  | some condition =>
    .computed target selected .add (.whenever condition (.number Quantity.one))
  | none => .passthrough target selected .add

/-- **Compiles a race.** -/
def raceOutput (ctx : Context) (record : Record) (fields : FieldTable) : Compiled Output := do
  let name := record.name
  let selected := member "races" name
  let features ← fields.leveled "Features"
  let grants ← features.mapM fun feature => do
    (ctx.catalog.require .feature feature.name).inField "Features"
    return raceGrant selected feature
  let require ← requirements (← fields.list "Require") (attributePrefix name) selected
  let languages ← grantLanguages ctx (← fields.list "Languages") selected
  let chosen := Rule.computed selected Kind.race.selection .set
    (.whenever (.binary .eq .source (.text name)) (.number Quantity.one))
  return Output.ofRules (chosen :: grants) ++ require ++ languages ++
    Output.ofChoice .race name record.spec

end Rulebook.Compile
