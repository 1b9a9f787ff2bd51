import Rulebook.Decimal.Numeral

/-!
# Quantities

Formulas and progressions compute with numbers, and everything they do with
them is listed here. The listed operations have two readings that matter: on
doubles they are what the program computes, on exact rationals they are what
the tables of a game book mean. Definitions over a `Quantity` say both at once.
-/

namespace Rulebook

/-- **The arithmetic of formulas.** -/
class Quantity (N : Type) extends Add N, Sub N, Mul N, Div N, Neg N where
  /-- A level, a count or another whole number. -/
  ofNat : Nat → N
  /-- Numerical equality. -/
  equals : N → N → Bool
  /-- Strictly less. -/
  less : N → N → Bool
  /-- At most. -/
  atMost : N → N → Bool
  /-- The largest whole number that is at most the given one. -/
  floor : N → N
  /-- The smallest whole number that is at least the given one. -/
  ceil : N → N
  /-- The nearest whole number, halves away from zero. -/
  round : N → N
  /-- The absolute value. -/
  abs : N → N
  /-- The smallest of some numbers; results that are no numbers count as
  absent. -/
  least : List N → N
  /-- The largest of some numbers; results that are no numbers count as
  absent. -/
  greatest : List N → N
  /-- Whether this is a number at all. -/
  isNumber : N → Bool
  /-- Whether this is a number of ordinary size. -/
  isFinite : N → Bool
  /-- Whether this is a whole number. -/
  isWhole : N → Bool
  /-- The position in a list that this stands for, if it is whole and not
  negative. -/
  index? : N → Option Nat
  /-- The number that a numeral denotes, if there is one. -/
  ofNumeral : Numeral → Option N
  /-- The canonical text. -/
  chars : N → List Char

namespace Quantity

variable {N : Type} [Quantity N]

/-- Zero. -/
def zero : N := ofNat 0

/-- One. -/
def one : N := ofNat 1

/-- Truth values are the numbers one and zero. -/
def ofBool (b : Bool) : N := if b then one else zero

/-- **Reads a number**: the whole text has to be a numeral. -/
def read (cs : List Char) : Option N := (Numeral.read cs).bind ofNumeral

/-- The canonical text as a string. -/
def text (x : N) : String := String.ofList (chars x)

end Quantity

end Rulebook
