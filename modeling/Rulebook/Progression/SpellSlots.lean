import Rulebook.Progression.Basic
import Rulebook.Text.Split

/-!
# Spell slots

Casters belong to groups. A spell slot table says how many spells of one spell
level a group may cast each day, from certain character levels on. It is
written `C1:1=1;2=2;4=3`: the caster label, then level and count of each step.
-/

namespace Rulebook

/-- **A caster group and a spell level.** -/
structure CasterLabel where
  group : String
  level : Nat
  deriving DecidableEq, Repr

namespace CasterLabel

/-- **The label of a group and a level**, such as `MU3`. -/
def render (l : CasterLabel) : String := l.group ++ Numeral.textOfNat l.level

/-- **Reads a caster label**: the group is what comes before the first digit. -/
def read (text : String) : Compiled CasterLabel := do
  let cs := Text.trimChars text.toList
  let group := cs.takeWhile (!Char.isDigit ·)
  let digits := cs.dropWhile (!Char.isDigit ·)
  if group = [] || digits = [] then malformed (.casterLabelForm (String.ofList cs))
  else
    let level ← readWhole (String.ofList digits)
    return ⟨String.ofList group, level⟩

end CasterLabel

/-- **A spell slot table.** -/
structure SpellSlotTable where
  label : CasterLabel
  /-- Character levels and the slots from there on, by ascending level. -/
  steps : List (Nat × Nat)
  deriving DecidableEq, Repr

namespace SpellSlotTable

/-- Slots of several classes add up. -/
def policy : MergePolicy := .sum

/-- Reads the steps of a table, given the last level before them. -/
def readSteps (label : String) : Option Nat → List (List Char) → Compiled (List (Nat × Nat))
  | _, [] => return []
  | previous, entry :: entries =>
    match Text.cutFirst (· = '=') entry with
    | none => malformed (.slotEntryForm (String.ofList entry))
    | some (level, count) => do
      let level ← readWhole (String.ofList level)
      if previous.any (level ≤ ·) then refused (.slotLevelsNotAscending label)
      else
        let count ← readWhole (String.ofList count)
        let steps ← readSteps label (some level) entries
        return (level, count) :: steps

/-- **Reads a spell slot table.** Empty entries are passed over. -/
def read (text : String) : Compiled SpellSlotTable :=
  match Text.cutFirst (· = ':') (Text.trimChars text.toList) with
  | none => malformed (.slotTableForm text)
  | some (label, table) => do
    let label := String.ofList label
    let caster ← CasterLabel.read label
    let entries := ((Text.pieces (· = ';') table).map Text.trimChars).filter (· ≠ [])
    let steps ← readSteps label none entries
    return ⟨caster, steps⟩

/-- The slots at a level as a whole number. -/
def slotsAt (t : SpellSlotTable) (level : Nat) : Nat :=
  match (t.steps.takeWhile (·.1 ≤ level)).getLast? with
  | some (_, count) => count
  | none => 0

variable {N : Type} [Quantity N]

/-- **The slots at a level.** -/
def valueAt (t : SpellSlotTable) (level : Nat) : N := Quantity.ofNat (t.slotsAt level)

/-- **The slots as a formula over the level.** -/
def formula (t : SpellSlotTable) : Formula N :=
  if t.steps.isEmpty then .number Quantity.zero
  else .steps .source Quantity.zero
    (t.steps.map fun (level, count) => (Quantity.ofNat level, Quantity.ofNat count))

end SpellSlotTable

end Rulebook
