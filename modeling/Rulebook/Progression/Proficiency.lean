import Rulebook.Progression.Basic

/-!
# Weapon proficiencies

A class masters some weapons at first and one more every period; with all
others it attacks at a penalty. This is written `[initial, period, penalty]`.
-/

namespace Rulebook

/-- **A weapon proficiency progression.** -/
structure ProficiencyProgression (N : Type) where
  initial : N
  period : Period
  /-- The attack modifier with other weapons. -/
  penalty : N

namespace ProficiencyProgression

/-- The most proficiencies of several classes count. -/
def policy : MergePolicy := .takeHighest

variable {N : Type} [Quantity N]

/-- Reads weapon proficiencies from the values of their field. -/
def read : List String → Compiled (ProficiencyProgression N)
  | [initial, period, penalty] => do
    return {
      initial := ← readNumber initial
      period := ← Period.read period
      penalty := ← readNumber penalty }
  | values => malformed
      (.valueCount "weapon proficiency [initial, period, penalty]" 3 values.length)

/-- **The proficiencies at a level.** -/
def valueAt (p : ProficiencyProgression N) (level : Nat) : N :=
  p.initial + p.period.elapsedAt level

/-- **The proficiencies as a formula over the level.** -/
def formula (p : ProficiencyProgression N) : Formula N := .number p.initial + p.period.elapsed

/-- The penalty as a formula. -/
def penaltyFormula (p : ProficiencyProgression N) : Formula N := .number p.penalty

end ProficiencyProgression

end Rulebook
