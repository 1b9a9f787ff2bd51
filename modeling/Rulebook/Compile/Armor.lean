import Rulebook.Compile.Output
import Rulebook.Content.FieldTable

/-!
# Compiling armor and shields

Armor and a shield are each chosen by name in one attribute and count while they
are chosen. Armor class counts down, so protection is taken off.
-/

namespace Rulebook.Compile

/-- **A value that counts while an item is the chosen one.** -/
def whileSelected (name : String) (value : Formula Float) : Formula Float :=
  .whenever (.binary .eq .source (.text name)) value

/-- The protection of an item, which cannot be negative. -/
def protection (fields : FieldTable) : Compiled Float := do
  let ac ← fields.number "AC"
  if ac < Quantity.zero then (refused .negativeArmorClass).inField "AC" else return ac

/-- The rule of a number that counts while an item is the chosen one. -/
def selectedRule (kind : Kind) (name target : String) (op : MergeOp) (value : Formula Float) :
    Rule :=
  .computed target kind.selection op (whileSelected name value)

/-- **Compiles armor.** -/
def armorOutput (record : Record) (fields : FieldTable) : Compiled Output := do
  let rule := selectedRule .armor record.name
  let ac ← protection fields
  let speed ← fields.optional .number "Move"
  let weight ← fields.optional .number "Weight"
  return Output.ofRules (
      [rule "armorClass" .add (Formula.number ac).neg] ++
      speed.toList.map (fun x => rule "speed" .min (.number x)) ++
      weight.toList.map (fun x => rule "armorWeight" .add (.number x))) ++
    Output.ofChoice .armor record.name record.spec

/-- **Compiles a shield.** One without protection has no rule for it. -/
def shieldOutput (record : Record) (fields : FieldTable) : Compiled Output := do
  let rule := selectedRule .shield record.name
  let ac ← protection fields
  let weight ← fields.optional .number "Weight"
  return Output.ofRules (
      (if ac != Quantity.zero then [rule "armorClass" .add (Formula.number ac).neg] else []) ++
      weight.toList.map (fun x => rule "armorWeight" .add (.number x))) ++
    Output.ofChoice .shield record.name record.spec

end Rulebook.Compile
