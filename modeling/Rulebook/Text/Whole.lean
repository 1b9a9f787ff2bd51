import Rulebook.Decimal.Numeral

/-!
# Whole numbers in text

Counts, levels and thresholds of dice are whole numbers below `2 ^ 32`, small
indices those below `2 ^ 8`.
-/

namespace Rulebook.Text

/-- **Reads a whole number below a bound**: an optional plus sign and decimal
digits, at least one and nothing else. -/
def readBounded (bound : Nat) (cs : List Char) : Option Nat :=
  let digits := match cs with
    | '+' :: rest => rest
    | cs => cs
  if digits.isEmpty || !digits.all Char.isDigit then none
  else
    let n := Numeral.natOfDigits digits
    if n < bound then some n else none

/-- The bound of levels and counts. -/
def wholeBound : Nat := Nat.pow 2 32

/-- The bound of capture and placeholder numbers. -/
def indexBound : Nat := Nat.pow 2 8

/-- A whole number that is read is below the bound. -/
theorem lt_of_readBounded {bound n : Nat} {cs : List Char}
    (h : readBounded bound cs = some n) : n < bound := by
  unfold readBounded at h
  grind

end Rulebook.Text
