import Rulebook.Compile.Output
import Rulebook.Content.FieldTable
import Rulebook.Content.Naming

/-!
# Compiling skills

A skill counts its ranks and the modifier of its ability, if it has one, and is
a class skill for the classes that it lists.
-/

namespace Rulebook.Compile

/-- The ability that a skill is keyed on, in lower case. -/
def skillAbility (settings : Settings) : Option String → Compiled (Option String)
  | none => .ok none
  | some text =>
    let ability := Text.lower text
    if settings.isAbility ability then .ok (some ability)
    else (refused (.unknownAbility ability)).inField "Ability"

/-- **Compiles a skill.** -/
def skillOutput (ctx : Context) (record : Record) (fields : FieldTable) : Compiled Output := do
  let name := record.name
  let modifier := member "skillModifiers" name
  let ability ← skillAbility ctx.settings (← fields.optional .text "Ability")
  let classes ← fields.list "Class"
  let classRules ← classes.mapM fun cls => do
    (ctx.catalog.require .charClass cls).inField "Class"
    return Rule.computed (member "classSkills" name) (member "levels" cls) .max
      (.number Quantity.one)
  return Output.ofRules (
      [.passthrough modifier (member "skills" name) .add] ++
      ability.toList.map (fun a => .passthrough modifier (a ++ "Modifier") .add) ++
      classRules) ++
    Output.ofNote modifier "skill" "%V" ++
    Output.ofChoice .skill name record.spec

end Rulebook.Compile
