import Rulebook.Double
import Rulebook.Json.Reader

/-!
# Settings

What the compilers of all kinds of content share: the names that content may
use, and a factor for experience. Settings are stored as JSON, and what a file
leaves out takes its default.

Not all settings make sense together. `validate` says which do.
-/

namespace Rulebook

/-- **The settings of the compilers.** -/
structure Settings where
  /-- The factor that experience in class records is scaled by. -/
  experienceMultiplier : Float
  /-- The abilities; each has an attribute `<name>Modifier`. -/
  abilityNames : List String
  /-- The sections that notes of features and goodies may be shown in. -/
  sections : List String
  weaponCategories : List String
  /-- The categories that attack with the ranged ability. -/
  rangedCategories : List String
  meleeAbility : String
  rangedAbility : String
  /-- Caster groups and the classes that they belong to. -/
  casterGroups : List (String × String)
  spellSchools : List String

/-- **Why settings are refused.** -/
inductive SettingsError where
  /-- The text is not JSON of the right form. -/
  | malformed
  | multiplier (value : Float)
  | rangedCategory (category : String)
  | ability (name : String)

/-- What messages say of a text that is not JSON of the right form. -/
def SettingsError.malformedDetail : String := "expected an object of settings"

/-- **The text of a refusal.** -/
def SettingsError.message : SettingsError → String
  | malformed => "Invalid settings JSON: " ++ malformedDetail
  | multiplier x =>
    s!"Invalid settings: experience multiplier must be positive, got {Layout.canonical.text x}"
  | rangedCategory c => s!"Invalid settings: ranged category '{c}' is not a weapon category"
  | ability a => s!"Invalid settings: '{a}' is not a known ability"

namespace Settings

/-- **The settings where no others are given.** -/
def default : Settings where
  experienceMultiplier := Quantity.ofNat 1000
  abilityNames :=
    ["strength", "intelligence", "wisdom", "dexterity", "constitution", "charisma"]
  sections := ["ability", "combat", "feature", "magic", "save", "skill", "validation"]
  weaponCategories := ["Li", "1h", "2h", "R", "Un"]
  rangedCategories := ["R"]
  meleeAbility := "strength"
  rangedAbility := "dexterity"
  casterGroups := [("C", "Cleric"), ("D", "Druid"), ("I", "Illusionist"), ("MU", "Magic-User")]
  spellSchools :=
    ["Abjuration", "Alteration", "Conjuration", "Divination", "Enchantment", "Evocation",
      "Illusion", "Necromancy"]

/-- Whether a name is that of an ability. -/
def isAbility (s : Settings) (name : String) : Bool := s.abilityNames.contains name

/-- Whether notes may be shown in a section. -/
def isSection (s : Settings) (name : String) : Bool := s.sections.contains name

/-- Whether a weapon category attacks with the ranged ability. -/
def isRanged (s : Settings) (category : String) : Bool := s.rangedCategories.contains category

/-- The class that a caster group belongs to. -/
def casterClass? (s : Settings) (group : String) : Option String := s.casterGroups.lookup group

/-- **The abbreviation of a school of magic**: the first four characters of its
name. -/
def schoolAbbreviation? (s : Settings) (school : String) : Option String :=
  if s.spellSchools.contains school then some (String.ofList (school.toList.take 4)) else none

/-- The ability that a weapon category attacks with. -/
def attackAbility (s : Settings) (category : String) : String :=
  if s.isRanged category then s.rangedAbility else s.meleeAbility

/-- **Checks that settings make sense**: experience is scaled by a positive
number, ranged categories are categories, and attacks use abilities. -/
def validate (s : Settings) : Except SettingsError Unit :=
  let m := s.experienceMultiplier
  if !(m.isFinite && 0 < m) then .error (.multiplier m)
  else
    match s.rangedCategories.find? (!s.weaponCategories.contains ·) with
    | some category => .error (.rangedCategory category)
    | none =>
      match [s.meleeAbility, s.rangedAbility].find? (!s.isAbility ·) with
      | some name => .error (.ability name)
      | none => .ok ()

/-- Puts a pair into a list of pairs in place of one with the same key. -/
def putPair (pairs : List (String × String)) (key value : String) : List (String × String) :=
  pairs.filter (·.1 != key) ++ [(key, value)]

/-- Reads stored pairs; of a repeated key the last one counts. -/
def readPairs : Json → Option (List (String × String))
  | .object fields => fields.foldlM (fun pairs (key, j) => return putPair pairs key (← j.text?)) []
  | _ => none

/-- The value of a member, or the default if it is absent. -/
def orDefault {α : Type} (default : α) (read : Json → Option α) : Option Json → Option α
  | none => some default
  | some j => read j

/-- The names of the members of stored settings, in order. -/
def memberNames : List String :=
  ["experienceMultiplier", "abilityNames", "sections", "weaponCategories", "rangedCategories",
    "meleeAbility", "rangedAbility", "casterGroups", "spellSchools"]

/-- **Reads stored settings.** Unknown members are passed over, absent ones take
their defaults. -/
def ofJson (j : Json) : Option Settings :=
  match j.members memberNames 0 with
  | some [multiplier, abilities, sections, weapons, ranged, melee, rangedAbility, groups,
      schools] => do
    return {
      experienceMultiplier := ← orDefault default.experienceMultiplier Json.float? multiplier
      abilityNames := ← orDefault default.abilityNames Json.texts? abilities
      sections := ← orDefault default.sections Json.texts? sections
      weaponCategories := ← orDefault default.weaponCategories Json.texts? weapons
      rangedCategories := ← orDefault default.rangedCategories Json.texts? ranged
      meleeAbility := ← orDefault default.meleeAbility Json.text? melee
      rangedAbility := ← orDefault default.rangedAbility Json.text? rangedAbility
      casterGroups := ← orDefault default.casterGroups readPairs groups
      spellSchools := ← orDefault default.spellSchools Json.texts? schools }
  | _ => none

/-- The stored form of settings. -/
def toJson (s : Settings) : Json :=
  let texts (names : List String) : Json := .array (names.map .string)
  .object [
    ("experienceMultiplier", .real s.experienceMultiplier),
    ("abilityNames", texts s.abilityNames),
    ("sections", texts s.sections),
    ("weaponCategories", texts s.weaponCategories),
    ("rangedCategories", texts s.rangedCategories),
    ("meleeAbility", .string s.meleeAbility),
    ("rangedAbility", .string s.rangedAbility),
    ("casterGroups", .object (s.casterGroups.map fun (key, value) => (key, .string value))),
    ("spellSchools", texts s.spellSchools)]

/-- Reads settings from a JSON text, without asking whether they make sense. -/
def parse (text : String) : Except SettingsError Settings :=
  match (Json.read text).bind ofJson with
  | some s => .ok s
  | none => .error .malformed

/-- **Reads settings from a JSON text** and validates them. -/
def read (text : String) : Except SettingsError Settings := do
  let s ← parse text
  s.validate
  return s

end Settings

end Rulebook
