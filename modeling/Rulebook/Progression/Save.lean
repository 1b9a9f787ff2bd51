import Rulebook.Progression.Basic

/-!
# Saving throws

A saving throw starts at a base and falls by whole points: every period takes
off a decrement, and of the total only the whole part counts. This is written
`[base, decrement, period]`.
-/

namespace Rulebook

/-- **A saving throw progression.** -/
structure SaveProgression (N : Type) where
  base : N
  decrement : N
  period : Period

namespace SaveProgression

/-- The best saving throw of several classes counts, which is the lowest. -/
def policy : MergePolicy := .takeLowest

variable {N : Type} [Quantity N]

/-- Reads a saving throw from the values of its field. -/
def read : List String → Compiled (SaveProgression N)
  | [base, decrement, period] => do
    return {
      base := ← readNumber base
      decrement := ← readNumber decrement
      period := ← Period.read period }
  | values => malformed (.valueCount "save progression [base, decrement, period]" 3 values.length)

/-- **The saving throw at a level.** -/
def valueAt (p : SaveProgression N) (level : Nat) : N :=
  p.base - Quantity.floor (p.period.elapsedAt level * p.decrement)

/-- **The saving throw as a formula over the level.** -/
def formula (p : SaveProgression N) : Formula N :=
  if Quantity.equals p.decrement Quantity.zero then .number p.base
  else
    let reduction := p.period.elapsed.scaled p.decrement
    .number p.base - if Quantity.isWhole p.decrement then reduction else reduction.floor

end SaveProgression

end Rulebook
