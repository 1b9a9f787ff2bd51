import Rulebook.Progression.Basic
import Rulebook.Text.Split

/-!
# Attack progressions

An attack bonus starts at a base, grows by an increment every period, and may
have a *step*: a further bonus from some level on. It is written
`[base, increment, period, step]`.
-/

namespace Rulebook

/-- **A bonus from a given level on.** -/
structure AttackStep (N : Type) where
  bonus : N
  fromLevel : Nat

/-- **An attack progression.** -/
structure AttackProgression (N : Type) where
  base : N
  increment : N
  period : Period
  step : Option (AttackStep N)

variable {N : Type} [Quantity N]

/-- **Reads a step**, written `+N@L`; nothing and a dash mean no step. The
level is read first. -/
def AttackStep.read (text : String) : Compiled (Option (AttackStep N)) := do
  let cs := Text.trimChars text.toList
  if cs = [] || cs = ['-'] then return none
  match Text.cutFirst (· = '@') cs with
  | none => malformed (.stepForm (String.ofList cs))
  | some (bonus, level) =>
    let fromLevel ← readWhole (String.ofList level)
    if fromLevel = 0 then refused .zeroStepLevel
    else
      let bonus ← readNumber (String.ofList bonus)
      return some ⟨bonus, fromLevel⟩

namespace AttackProgression

/-- The best attack of several classes counts. -/
def policy : MergePolicy := .takeHighest

/-- Reads an attack progression from the values of its field. -/
def read : List String → Compiled (AttackProgression N)
  | [base, increment, period, step] => do
    return {
      base := ← readNumber base
      increment := ← readNumber increment
      period := ← Period.read period
      step := ← AttackStep.read step }
  | values => malformed
      (.valueCount "attack progression [base, increment, period, step]" 4 values.length)

/-- The bonus of the step at a level. -/
def stepAt (p : AttackProgression N) (level : Nat) : N :=
  match p.step with
  | some step => if step.fromLevel ≤ level then step.bonus else Quantity.zero
  | none => Quantity.zero

/-- **The attack bonus at a level.** -/
def valueAt (p : AttackProgression N) (level : Nat) : N :=
  p.base + p.period.elapsedAt level * p.increment + p.stepAt level

/-- The terms of the formula; terms that are always zero are left out. -/
def terms (p : AttackProgression N) : List (Formula N) :=
  (if Quantity.equals p.base Quantity.zero then [] else [.number p.base]) ++
  (if Quantity.equals p.increment Quantity.zero then []
    else [p.period.elapsed.scaled p.increment]) ++
  (match p.step with
    | some step =>
      [.choose (.binary .ge .source (.whole step.fromLevel))
        (.number step.bonus) (.number Quantity.zero)]
    | none => [])

/-- **The attack bonus as a formula over the level.** -/
def formula (p : AttackProgression N) : Formula N := .sum p.terms

end AttackProgression

end Rulebook
