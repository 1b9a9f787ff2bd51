import Rulebook.Compile.Grants
import Rulebook.Content.FieldTable

/-!
# Compiling classes

A class has levels, bought with experience, and from them follow its attack
bonus, hit dice, proficiencies, saving throws, features and spells.

A saving throw takes the most favourable value of all classes first; what
races, features and goodies add comes on top. The two rules that say so are the
same for every class.
-/

namespace Rulebook.Compile

/-- **When a class grants a feature**: from its level on, and only under its
condition. -/
def featureGrant (feature : LeveledFeature) : Formula Float :=
  .whenever
    (alsoRequire feature.condition (.binary .ge .source (.whole feature.level)))
    (.number Quantity.one)

/-- The rules of one saving throw category. -/
def saveRules (levels category : String) (save : SaveProgression Float) : List Rule :=
  let classSave := member "classSave" category
  let total := member "save" category
  [.computed classSave levels SaveProgression.policy.op save.formula,
    .passthrough total classSave .set,
    .passthrough total (member "saveAdjustment" category) .add]

/-- The rules of an experience table. -/
def experienceRules (name levels : String) (table : ExperienceTable Float) : List Rule :=
  let op := ExperienceTable.policy.op
  [.computed levels (member "experiencePoints" name) op table.formula,
    .computed (member "experienceNeeded" name) levels op table.nextFormula,
    .passthrough "level" levels .add]

/-- The rules of hit dice; the bonus beyond the cap only if there is one. -/
def hitDieRules (levels : String) (die : HitDieProgression Float) : List Rule :=
  let op := HitDieProgression.policy.op
  .computed "hitDice" levels op die.formula ::
    if die.perLevel != Quantity.zero then [.computed "hitPointBonus" levels op die.bonusFormula]
    else []

/-- The rules of weapon proficiencies, if the class has any. -/
def proficiencyRules (levels : String) : Option (ProficiencyProgression Float) → List Rule
  | none => []
  | some p =>
    let op := ProficiencyProgression.policy.op
    [.computed "weaponProficiencyCount" levels op p.formula,
      .computed "weaponNonProficiencyPenalty" levels op p.penaltyFormula]

/-- The rule of a spell slot table, whose caster group has to belong to the
class. -/
def spellSlotRule (settings : Settings) (name levels : String) (table : SpellSlotTable) :
    Compiled Rule :=
  let group := table.label.group
  match settings.casterClass? group with
  | none => (refused (.unknownCasterGroup group)).inField "SpellSlots"
  | some owner =>
    if owner ≠ name then (refused (.foreignCasterGroup group owner)).inField "SpellSlots"
    else .ok (.computed (member "spellSlots" table.label.render) levels
      SpellSlotTable.policy.op table.formula)

/-- The caster groups of some tables, each once. -/
def casterGroups (tables : List SpellSlotTable) : List String :=
  tables.foldl (fun groups t =>
    if groups.contains t.label.group then groups else groups ++ [t.label.group]) []

/-- **Compiles a class.** -/
def classOutput (ctx : Context) (record : Record) (fields : FieldTable) : Compiled Output := do
  let name := record.name
  let levels := member "levels" name
  let experience ← fields.require .experience "Experience"
  let attack ← fields.require .attack "Attack"
  let hitDie ← fields.require .hitDie "HitDie"
  let proficiency ← fields.optional .proficiency "WeaponProficiency"
  let saves ← saveCategories.mapM fun category => do
    let save ← fields.require .save category
    return saveRules levels category save
  let features ← fields.leveled "Features"
  let grants ← features.mapM fun feature => do
    (ctx.catalog.require .feature feature.name).inField "Features"
    return Rule.computed (member "features" feature.name) levels .add (featureGrant feature)
  let require ← requirements (← fields.list "Require") (attributePrefix name) levels
  let languages ← grantLanguages ctx (← fields.list "Languages") levels
  let tables ← fields.spellSlots "SpellSlots"
  let slots ← tables.mapM (spellSlotRule ctx.settings name levels)
  let casting := (casterGroups tables).map fun group =>
    Rule.passthrough (member "casterLevels" group) levels .max
  return Output.ofRules (
      experienceRules name levels experience ++
      [.computed "baseAttack" levels AttackProgression.policy.op attack.formula] ++
      hitDieRules levels hitDie ++
      proficiencyRules levels proficiency ++
      saves.flatten ++ grants) ++
    require ++ languages ++
    Output.ofRules (slots ++ casting) ++
    Output.ofChoice .charClass name record.spec

end Rulebook.Compile
