import Rulebook.Content.Number
import Rulebook.Formula.Basic
import Rulebook.MergeOp

/-!
# Progressions

A progression says how something grows with a character's level in a class, or
a level with experience. Each is written as the values of one field and has two
forms: a function from the level to the value, and a formula over the level as
its source attribute. Many progressions grow once in a *period* of levels; the
first level begins the first period.
-/

namespace Rulebook

/-- **A period of levels**, at least one. -/
structure Period where
  levels : Nat
  levels_pos : 0 < levels
  deriving DecidableEq, Repr

namespace Period

/-- Reads a period. -/
def read (text : String) : Compiled Period := do
  let n ← readWhole text
  if h : 0 < n then return ⟨n, h⟩ else refused .zeroPeriod

variable {N : Type} [Quantity N]

/-- **The periods completed at a level**, counted from the first level. -/
def elapsedAt (p : Period) (level : Nat) : N :=
  Quantity.floor ((Quantity.ofNat level - Quantity.one) / Quantity.ofNat p.levels)

/-- The completed periods as a formula over the level; a period of one level
needs no rounding. -/
def elapsed (p : Period) : Formula N :=
  let sinceFirst := Formula.source - Formula.number Quantity.one
  if p.levels = 1 then sinceFirst else (sinceFirst / Formula.whole p.levels).floor

end Period

/-- A formula times a factor; times one it stays as it is. -/
def Formula.scaled {N : Type} [Quantity N] (f : Formula N) (factor : N) : Formula N :=
  if Quantity.equals factor Quantity.one then f else f * Formula.number factor

end Rulebook
