import Rulebook.Compile.Armor
import Rulebook.Compile.Class
import Rulebook.Compile.Feature
import Rulebook.Compile.Goody
import Rulebook.Compile.Race
import Rulebook.Compile.Skill
import Rulebook.Compile.Spell
import Rulebook.Compile.Weapon

/-!
# Compiling records

Each kind of content has its compiler. Reading the specification comes first,
and nothing is put out unless all of the record compiles.
-/

namespace Rulebook

namespace Compile

/-- **Compiles a language**, which only counts. -/
def languageOutput (record : Record) : Output :=
  Output.ofRules [.passthrough "languageCount" (member "languages" record.name) .add] ++
    Output.ofChoice .language record.name record.spec

/-- **Compiles the fields of a record** by its kind. -/
def fieldsOutput (ctx : Context) (record : Record) (fields : FieldTable) : Compiled Output :=
  match record.kind with
  | .charClass => classOutput ctx record fields
  | .race => raceOutput ctx record fields
  | .spell => spellOutput ctx record fields
  | .weapon => weaponOutput ctx record fields
  | .armor => armorOutput record fields
  | .shield => shieldOutput record fields
  | .skill => skillOutput ctx record fields
  | .feature => featureOutput ctx record fields
  | .language => .ok (languageOutput record)
  | .goody => goodyOutput ctx record fields

end Compile

/-- **Compiles a record.** -/
def Record.compile (ctx : Context) (record : Record) : Compiled Output := do
  let fields ← FieldTable.read record.kind ctx.settings.experienceMultiplier record.spec
  Compile.fieldsOutput ctx record fields

end Rulebook
