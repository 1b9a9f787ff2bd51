import Rulebook.Progression.Basic
import Rulebook.Text.Split

/-!
# Hit dice

A class rolls some dice at its first level and one more at each level up to a
cap; beyond it each level adds a fixed amount instead. This is written
`[die, cap, perLevel]`, with the die as `NdS` or `dS`.
-/

namespace Rulebook

/-- **A hit die progression.** -/
structure HitDieProgression (N : Type) where
  /-- The dice rolled at the first level. -/
  count : Nat
  sides : Nat
  /-- The most dice there are. -/
  cap : Nat
  /-- What each level beyond the cap adds. -/
  perLevel : N

namespace HitDieProgression

/-- Dice of several classes add up. -/
def policy : MergePolicy := .sum

/-- **Reads a die**: how many, one if it does not say, and of how many
sides. -/
def readDie (text : String) : Compiled (Nat × Nat) := do
  let cs := Text.trimChars text.toList
  match Text.cutFirst (fun c => c = 'd' || c = 'D') cs with
  | none => malformed (.dieForm (String.ofList cs))
  | some (count, sides) =>
    let count ← if count = [] then pure 1 else readWhole (String.ofList count)
    let sides ← readWhole (String.ofList sides)
    if count = 0 || sides = 0 then refused (.emptyRoll (String.ofList cs))
    else return (count, sides)

variable {N : Type} [Quantity N]

/-- Reads a hit die progression from the values of its field. -/
def read : List String → Compiled (HitDieProgression N)
  | [die, cap, perLevel] => do
    let (count, sides) ← readDie die
    let cap ← readWhole cap
    if cap = 0 then refused .zeroCap
    else
      let perLevel ← readNumber perLevel
      return { count, sides, cap, perLevel }
  | values => malformed (.valueCount "hit die progression [die, cap, perLevel]" 3 values.length)

/-- **The dice at a level.** Their sum stays at the largest whole number that fits
rather than passing it. -/
def valueAt (p : HitDieProgression N) (level : Nat) : N :=
  Quantity.ofNat (min (min (level + (p.count - 1)) (Text.wholeBound - 1)) p.cap)

/-- **The dice as a formula over the level.** -/
def formula (p : HitDieProgression N) : Formula N :=
  let dice := if 1 < p.count then .source + .whole (p.count - 1) else .source
  .call .min [dice, .whole p.cap]

/-- **What the levels beyond the cap add**, as a formula over the level. -/
def bonusFormula (p : HitDieProgression N) : Formula N :=
  if Quantity.equals p.perLevel Quantity.zero then .number Quantity.zero
  else
    .choose (.binary .gt .source (.whole p.cap))
      ((.source - .whole p.cap : Formula N).scaled p.perLevel) (.number Quantity.zero)

end HitDieProgression

end Rulebook
