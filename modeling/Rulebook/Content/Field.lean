import Rulebook.Content.LeveledFeature
import Rulebook.Double
import Rulebook.Progression.Attack
import Rulebook.Progression.Experience
import Rulebook.Progression.HitDie
import Rulebook.Progression.Proficiency
import Rulebook.Progression.Save
import Rulebook.Progression.SpellSlots

/-!
# Fields and their shapes

Each field of a specification has a shape, which says how its values are to be
read and what they give.
-/

namespace Rulebook

/-- **The shapes of fields.** -/
inductive Shape where
  /-- One text. -/
  | text
  /-- One number. -/
  | number
  /-- Any number of texts. -/
  | list
  /-- Features with the levels that grant them. -/
  | leveled
  | attack | hitDie | save | experience
  /-- Spell slot tables, one per caster group and spell level. -/
  | spellSlots
  | proficiency
  deriving DecidableEq, Repr

/-- All shapes. -/
def Shape.all : List Shape :=
  [.text, .number, .list, .leveled, .attack, .hitDie, .save, .experience, .spellSlots,
    .proficiency]

/-- **What a field of a shape holds.** -/
def Shape.Content : Shape → Type
  | .text => String
  | .number => Float
  | .list => List String
  | .leveled => List LeveledFeature
  | .attack => AttackProgression Float
  | .hitDie => HitDieProgression Float
  | .save => SaveProgression Float
  | .experience => ExperienceTable Float
  | .spellSlots => List SpellSlotTable
  | .proficiency => ProficiencyProgression Float

/-- What messages call a value of a shape. -/
def Shape.describe : Shape → String
  | .text => "text"
  | .number => "a number"
  | .list => "a list"
  | .leveled => "a leveled feature list"
  | .attack => "an attack progression"
  | .hitDie => "a hit die progression"
  | .save => "a save progression"
  | .experience => "an experience table"
  | .spellSlots => "a spell slot list"
  | .proficiency => "a proficiency progression"

/-- **A value with its shape.** -/
structure FieldValue where
  shape : Shape
  content : shape.Content

/-- The content of a value, if it has the given shape. -/
def FieldValue.as? (v : FieldValue) (s : Shape) : Option s.Content :=
  if h : v.shape = s then some (h ▸ v.content) else none

/-- Exactly one value. -/
def single : List String → Compiled String
  | [value] => .ok value
  | values => malformed (.notSingle values.length)

/-- **Reads the values of a field of a shape.** Experience is scaled by the
multiplier. -/
def Shape.read (multiplier : Float) (values : List String) :
    (s : Shape) → Compiled s.Content
  | .text => single values
  | .number => do
    let text ← single values
    readNumber (N := Float) text
  | .list => .ok values
  | .leveled => values.mapM LeveledFeature.read
  | .attack => AttackProgression.read values
  | .hitDie => HitDieProgression.read values
  | .save => SaveProgression.read values
  | .experience => ExperienceTable.read multiplier values
  | .spellSlots => values.mapM SpellSlotTable.read
  | .proficiency => ProficiencyProgression.read values

/-- **What a kind's schema says about a field.** -/
structure FieldSpec where
  name : String
  shape : Shape
  required : Bool
  deriving DecidableEq, Repr

/-- A field that has to be there. -/
def FieldSpec.mandatory (name : String) (shape : Shape) : FieldSpec := ⟨name, shape, true⟩

/-- A field that may be left out. -/
def FieldSpec.optional (name : String) (shape : Shape) : FieldSpec := ⟨name, shape, false⟩

/-- **The saving throw categories**, each a field of every class. -/
def saveCategories : List String := ["Breath", "Death", "Petrification", "Spell", "Wand"]

open FieldSpec in
/-- **The fields of a kind**, in the order in which missing ones are
reported. -/
def schema : Kind → List FieldSpec
  | .charClass => [
      optional "Require" .list,
      mandatory "Experience" .experience,
      mandatory "HitDie" .hitDie,
      mandatory "Attack" .attack,
      optional "WeaponProficiency" .proficiency] ++
    saveCategories.map (mandatory · .save) ++ [
      optional "Features" .leveled,
      optional "Languages" .list,
      optional "SpellSlots" .spellSlots]
  | .race => [
      optional "Require" .list,
      optional "Features" .leveled,
      optional "Languages" .list]
  | .spell => [
      mandatory "School" .text,
      mandatory "Level" .list,
      mandatory "Description" .text,
      optional "Duration" .list,
      optional "Effect" .list,
      optional "Range" .list]
  | .weapon => [
      mandatory "Category" .text,
      mandatory "Damage" .text,
      optional "Range" .number]
  | .armor => [
      mandatory "AC" .number,
      optional "Move" .number,
      optional "Weight" .number]
  | .shield => [
      mandatory "AC" .number,
      optional "Weight" .number]
  | .skill => [
      optional "Ability" .text,
      optional "Class" .list]
  | .feature => [
      optional "Section" .list,
      optional "Note" .list,
      optional "Effects" .list,
      optional "Type" .list]
  | .language => []
  | .goody => [
      mandatory "Pattern" .text,
      optional "Effect" .text,
      mandatory "Value" .text,
      mandatory "Attribute" .list,
      optional "Section" .list,
      optional "Note" .list]

end Rulebook
