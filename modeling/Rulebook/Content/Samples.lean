import Rulebook.Content.Record

/-!
# Sample content

A small table of every kind of content. All names that a record refers to are
names of other records of it.
-/

namespace Rulebook.Samples

/-- A record whose specification is made of the given fields. -/
def record (kind : Kind) (name : String) (fields : List String) : Record :=
  ⟨kind, name, String.intercalate " " fields⟩

/-- Classes. -/
def classes : List Record := [
  record .charClass "Fighter" [
    "Require=\"strength >= 9\"", "Experience=0,2,4,8,18,35,70,125,250,500", "HitDie=d10,9,3",
    "Attack=0,1,1,-", "WeaponProficiency=4,3,-2", "Breath=17,1.5,2", "Death=14,1.5,2",
    "Petrification=15,1.5,2", "Spell=17,1.5,2", "Wand=16,1.5,2",
    "Features=\"1:Armor Proficiency\",\"7:Multiple Attacks\"", "Languages=Common"],
  record .charClass "Cleric" [
    "Require=\"wisdom >= 9\"", "Experience=0,1.5,3,6,13,27.5,55,110,225,450", "HitDie=d8,9,2",
    "Attack=0,2,3,-", "WeaponProficiency=2,4,-3", "Breath=16,1,3", "Death=10,1,3",
    "Petrification=13,1,3", "Spell=15,1,3", "Wand=14,1,3",
    "Features=\"1:Turn Undead\",\"wisdom >= 13 ? 1:Bonus Spells\"", "Languages=Common",
    "SpellSlots=C1:1=1;2=2;4=3,C2:3=1;5=2"],
  record .charClass "Magic-User" [
    "Require=\"intelligence >= 9\"", "Experience=0,2.5,5,10,22.5,40,60,90,135,250",
    "HitDie=d4,11,1", "Attack=0,1,5,-", "WeaponProficiency=1,6,-5", "Breath=15,2,5",
    "Death=14,2,5", "Petrification=13,2,5", "Spell=12,2,5", "Wand=11,2,5",
    "Features=\"1:Spell Book\"", "Languages=Common", "SpellSlots=MU1:1=1;2=2;4=3,MU2:3=1;5=2"]]

/-- Races. -/
def races : List Record := [
  record .race "Dwarf" [
    "Require=\"constitution >= 9\"", "Features=Infravision,\"Dwarf Resistance\"",
    "Languages=Common,Dwarf,Gnome"],
  record .race "Elf" [
    "Require=\"intelligence >= 8\",\"constitution >= 7\"",
    "Features=Infravision,\"Detect Secret Doors\"", "Languages=Common,Elf,Gnome"],
  record .race "Human" ["Languages=Common"]]

/-- Features of classes and races. -/
def features : List Record := [
  record .feature "Armor Proficiency" [
    "Section=combat", "Note=\"May wear any armor and shield\"", "Type=Class"],
  record .feature "Multiple Attacks" [
    "Section=combat", "Note=\"3 attacks every 2 rounds\"", "Type=Class"],
  record .feature "Turn Undead" [
    "Section=magic", "Note=\"Turns undead as a level %\x7blevels.Cleric\x7d cleric\"",
    "Type=Class"],
  record .feature "Bonus Spells" [
    "Section=magic", "Note=\"Extra spells for high wisdom\"", "Type=Class"],
  record .feature "Spell Book" [
    "Section=magic",
    "Note=\"Records %\x7bintelligence >= 13 ? 'all' : 'most'\x7d spells studied\"", "Type=Class"],
  record .feature "Infravision" [
    "Section=feature", "Note=\"60' vision in the dark\"", "Effects=\"infravision ^= 60\"",
    "Type=Racial"],
  record .feature "Dwarf Resistance" [
    "Section=save", "Note=\"+%\x7bfloor(constitution / 3.5)\x7d vs. magic and poison\"",
    "Effects=\"saveAdjustment.Spell += floor(constitution / 3.5)\"," ++
      "\"saveAdjustment.Wand += floor(constitution / 3.5)\"",
    "Type=Racial"],
  record .feature "Detect Secret Doors" [
    "Section=feature", "Note=\"Finds secret doors on 1-2 in 6\"", "Type=Racial"]]

/-- Spells. -/
def spells : List Record := [
  record .spell "Cure Light Wounds" [
    "School=Necromancy", "Level=C1", "Description=\"Touched creature regains 1d6+1 hit points\""],
  record .spell "Light" [
    "School=Alteration", "Level=C1,MU1", "Description=\"$R radius light for $D\"",
    "Duration=\"C1:%\x7bsource + 6\x7d turns\",\"MU1:%\x7bsource\x7d turns\"", "Range=\"20'\""],
  record .spell "Magic Missile" [
    "School=Evocation", "Level=MU1",
    "Description=\"%\x7bfloor((source + 1) / 2)\x7d missiles of 1d4+1 each within $R\"",
    "Range=\"%\x7bsource * 10 + 60\x7d'\""]]

/-- Weapons. -/
def weapons : List Record := [
  record .weapon "Dagger" ["Category=Li", "Damage=d4"],
  record .weapon "Punching Dagger" ["Category=Li", "Damage=d4"],
  record .weapon "Long Sword" ["Category=1h", "Damage=d8"],
  record .weapon "Long Bow" ["Category=R", "Damage=d6", "Range=70"],
  record .weapon "Unarmed" ["Category=Un", "Damage=d2"]]

/-- Armor. -/
def armors : List Record := [
  record .armor "Leather" ["AC=2", "Move=12", "Weight=15"],
  record .armor "Chain Mail" ["AC=4", "Move=9", "Weight=30"],
  record .armor "Plate Mail" ["AC=6", "Move=6", "Weight=45"]]

/-- Shields. -/
def shields : List Record := [
  record .shield "Small Shield" ["AC=1", "Weight=5"],
  record .shield "Large Shield" ["AC=2", "Weight=10"]]

/-- Skills. -/
def skills : List Record := [
  record .skill "Climbing" ["Ability=Strength", "Class=Fighter"],
  record .skill "Herbalism" ["Ability=Wisdom", "Class=Cleric,Magic-User"]]

/-- Goodies. -/
def goodies : List Record := [
  record .goody "Ring Of Protection" [
    "Pattern=\"ring of protection ([-+]\\d+)\"", "Value=\"-$1\"",
    "Attribute=armorClass,saveAdjustment.Breath,saveAdjustment.Death," ++
      "saveAdjustment.Petrification,saveAdjustment.Spell,saveAdjustment.Wand",
    "Section=combat", "Note=\"Protected by a ring\""],
  record .goody "Armor Class" [
    "Pattern=\"([-+]\\d+) armor class\"", "Value=\"-$1\"", "Attribute=armorClass"],
  record .goody "Gauntlets Of Ogre Power" [
    "Pattern=\"^gauntlets of ogre power$\"", "Effect=max", "Value=18", "Attribute=strength",
    "Section=ability", "Note=\"Strength raised to 18\""]]

/-- Languages, of which there is nothing to say. -/
def languages : List Record :=
  ["Common", "Dwarf", "Elf", "Gnome"].map fun name => ⟨.language, name, ""⟩

/-- **All sample records**, by kind. -/
def all : List Record :=
  classes ++ races ++ features ++ spells ++ weapons ++ armors ++ shields ++ skills ++
    languages ++ goodies

end Rulebook.Samples
