import Rulebook.Decimal.Layout
import Rulebook.Quantity

/-!
# Doubles as quantities

The program computes with double precision numbers. Sum, difference, product,
quotient and comparison are those of the machine; rounding to whole numbers is
spelled out on the significand, since a double is a whole number of units
`2 ^ q` and only the units below one have to go.
-/

namespace Rulebook.Double

/-- Which whole number next to a magnitude is taken, given how many of `units`
lie beyond the smaller one. -/
inductive Rounding where
  /-- Toward zero. -/
  | down
  /-- Away from zero. -/
  | up
  /-- To the nearer one, halves away from zero. -/
  | half
  deriving DecidableEq, Repr

/-- Whether the excess over a whole number rounds away from zero. -/
def Rounding.carries (r : Rounding) (excess units : Nat) : Bool :=
  match r with
  | .down => false
  | .up => excess ≠ 0
  | .half => units ≤ 2 * excess

/-- The double that is the given whole number, if that is at most `2 ^ 53`. -/
def ofWhole (n : Nat) : Float := n.toUInt64.toFloat

/-- **Rounds the magnitude of a double to a whole number**, and keeps its
sign. Infinities and doubles without units below one stay as they are. -/
def roundMagnitude (r : Rounding) (x : Float) : Float :=
  let bits := magnitude x
  let (m, q) := significand bits
  if infiniteBits ≤ bits || 0 ≤ q then x
  else
    let units := Nat.pow 2 (-q).toNat
    let whole := ofWhole (m / units + if r.carries (m % units) units then 1 else 0)
    if isNegative x then -whole else whole

/-- The largest whole number that is at most `x`. -/
def floor (x : Float) : Float := roundMagnitude (if isNegative x then .up else .down) x

/-- The smallest whole number that is at least `x`. -/
def ceil (x : Float) : Float := roundMagnitude (if isNegative x then .down else .up) x

/-- The whole number nearest to `x`, halves away from zero. -/
def round (x : Float) : Float := roundMagnitude .half x

/-- Whether a double is a finite whole number. -/
def isWhole (x : Float) : Bool :=
  let bits := magnitude x
  let (m, q) := significand bits
  bits < infiniteBits && (0 ≤ q || m % Nat.pow 2 (-q).toNat = 0)

/-- The whole magnitude of a double. -/
def wholeMagnitude (x : Float) : Nat :=
  let (m, q) := significand (magnitude x)
  if 0 ≤ q then m * Nat.pow 2 q.toNat else m / Nat.pow 2 (-q).toNat

/-- The smaller of two doubles; the second if neither is smaller, and the other
one if one is no number. -/
def smaller (x y : Float) : Float :=
  if x < y || y.isNaN then x else y

/-- The larger of two doubles, likewise. -/
def larger (x y : Float) : Float :=
  if y < x || y.isNaN then x else y

/-- Positive infinity. -/
def infinity : Float := ofMagnitude false infiniteBits

/-- **Canonical text of a double.** Negative zero is written without its
sign. -/
def chars (x : Float) : List Char :=
  if magnitude x = 0 then ['0'] else Layout.canonical.chars x

instance : Quantity Float where
  ofNat := ofWhole
  equals x y := x == y
  less x y := x < y
  atMost x y := x ≤ y
  floor := floor
  ceil := ceil
  round := round
  abs := Float.abs
  least xs := xs.foldl smaller infinity
  greatest xs := xs.foldl larger (-infinity)
  isNumber x := !x.isNaN
  isFinite x := x.isFinite
  isWhole := isWhole
  index? x :=
    if isWhole x && (0 : Float) ≤ x then some (wholeMagnitude x) else none
  ofNumeral n := some (ofNumeral n)
  chars := chars

end Rulebook.Double
