import Rulebook.BonusPattern
import Rulebook.Compile.Output
import Rulebook.Content.FieldTable
import Rulebook.Content.Naming

/-!
# Compiling weapons

A weapon that a character has gives an attack, a damage roll and perhaps a
range. A bonus to it is looked for in the list of goodies by its name, which no
other weapon's name may be mistaken for.
-/

namespace Rulebook.Compile

/-- **Whether a text is a damage roll**: `NdS`, the count left out if it is one,
and perhaps a signed number after it. -/
def isDamage (cs : List Char) : Bool :=
  match cs.dropWhile Char.isDigit with
  | 'd' :: rest =>
    !(rest.takeWhile Char.isDigit).isEmpty &&
    match rest.dropWhile Char.isDigit with
    | [] => true
    | sign :: digits =>
      (sign = '+' || sign = '-') && !digits.isEmpty && digits.all Char.isDigit
  | _ => false

/-- **The pattern for the bonus of a weapon**, once it is known to match nothing
else. -/
def bonusPattern (ctx : Context) (name : String) : Compiled BonusPattern := do
  let pattern ← BonusPattern.weapon name
  pattern.ensureSpecific
  (ctx.catalog.names .weapon).forM (pattern.ensureDistinct name)
  return pattern

/-- A value that counts while its source does. -/
def whileHeld (value : Formula Float) : Formula Float := .whenever .source value

/-- **Compiles a weapon.** -/
def weaponOutput (ctx : Context) (record : Record) (fields : FieldTable) : Compiled Output := do
  let name := record.name
  let category ← fields.text "Category"
  if !ctx.settings.weaponCategories.contains category then
    (refused (.unknownCategory category)).inField "Category"
  else
    let damage ← fields.text "Damage"
    if !isDamage damage.toList then (refused (.notDamage damage)).inField "Damage"
    else
      let range ← fields.optional .number "Range"
      let pattern ← bonusPattern ctx name
      let selected := member "weapons" name
      let attackAttr := member "weaponAttack" name
      let damageAttr := member "weaponDamage" name
      let rangeAttr := member "weaponRange" name
      let bonusAttr := member "weaponBonus" name
      let attack : Formula Float := .sum [
        .attr "baseAttack",
        .attr (ctx.settings.attackAbility category ++ "Modifier"),
        .attr bonusAttr]
      let ranges := range.toList
      return Output.ofRules (
          [.computed attackAttr selected .set (whileHeld attack),
            .computed damageAttr selected .set (whileHeld (.text damage))] ++
          ranges.map (fun r => .computed rangeAttr selected .set (whileHeld (.number r))) ++
          [.computed bonusAttr "goodiesList" .add
              (pattern.formula (.binary .or (.capture 1) (.capture 2))),
            .passthrough (selected ++ ".1") attackAttr .set,
            .passthrough (selected ++ ".2") damageAttr .set] ++
          ranges.map (fun _ => .passthrough (selected ++ ".3") rangeAttr .set)) ++
        Output.ofNote selected "combat" (if range.isSome then "%1 %2 R%3'" else "%1 %2") ++
        Output.ofChoice .weapon name record.spec

end Rulebook.Compile
