import Rulebook.Progression.Basic

/-!
# Experience tables

An experience table lists, level by level, the experience at which the level is
reached. A multiplier of the settings scales it when it is read; afterwards the
traces of binary rounding below a millionth are removed.
-/

namespace Rulebook

/-- **An experience table**: the thresholds of the first level, the second and
so on. -/
structure ExperienceTable (N : Type) where
  thresholds : List N

namespace ExperienceTable

/-- Only one class may say what a level of it costs. -/
def policy : MergePolicy := .exclusive

variable {N : Type} [Quantity N]

/-- **A number to the nearest millionth**, unless that is too large. -/
def withoutNoise (x : N) : N :=
  let scale : N := Quantity.ofNat 1000000
  let snapped := Quantity.round (x * scale) / scale
  if Quantity.isFinite snapped then snapped else x

/-- Whether some number is at most the one before it. -/
def hasDescent : List N → Bool
  | x :: y :: rest => Quantity.atMost y x || hasDescent (y :: rest)
  | _ => false

/-- **Reads an experience table** and scales it. -/
def read (multiplier : N) (values : List String) : Compiled (ExperienceTable N) := do
  let thresholds ← values.mapM fun text => do
    let x ← readNumber text
    return withoutNoise (x * multiplier)
  if hasDescent thresholds then refused .thresholdsNotAscending
  else return ⟨thresholds⟩

/-- How many thresholds an amount of experience reaches. -/
def levelAt (t : ExperienceTable N) (experience : N) : Nat :=
  t.thresholds.countP fun x => Quantity.atMost x experience

/-- **The level at an amount of experience.** -/
def valueAt (t : ExperienceTable N) (experience : Nat) : N :=
  Quantity.ofNat (t.levelAt (Quantity.ofNat experience))

/-- The thresholds with the levels they lead to. -/
def levels (t : ExperienceTable N) : List (N × N) :=
  t.thresholds.zipIdx.map fun (x, i) => (x, Quantity.ofNat (i + 1))

/-- **The level as a formula over the experience.** -/
def formula (t : ExperienceTable N) : Formula N :=
  if t.thresholds.isEmpty then .number Quantity.zero
  else .steps .source Quantity.zero t.levels

/-- **What stands for a next level when there is none**: one interval beyond
the last threshold. -/
def sentinel (t : ExperienceTable N) : N :=
  match t.thresholds.reverse with
  | [] => Quantity.zero
  | [only] => only + Quantity.one
  | last :: before :: _ => last + (last - before)

/-- **The experience at which the level after the given one is reached.** -/
def nextAt (t : ExperienceTable N) (level : Nat) : N := t.thresholds[level]?.getD t.sentinel

/-- The experience for the next level as a formula over the level. -/
def nextFormula (t : ExperienceTable N) : Formula N :=
  if t.thresholds.isEmpty then .number Quantity.zero
  else .table .source t.sentinel t.thresholds

end ExperienceTable

end Rulebook
