import Rulebook.Decimal.Nearest

/-!
# The shortest decimal of a double

Every double is a finite decimal, though often a long one: `m · 2 ^ q` with
negative `q` is `m · 5 ^ (-q)` in units of `10 ^ q`. A shorter decimal will do
when the double is the one nearest to it. The search drops as many digits of
the exact decimal as it can: it tries the two neighbours of the value on each
decimal grid, the coarsest first, and stops at the first grid on which one of
them is read back as the same double. It ends at the exact decimal at the
latest.
-/

namespace Rulebook.Double

/-- Which of two equally near decimals is written. -/
inductive Tie where
  /-- The one with the even last digit. -/
  | even
  /-- The larger one. -/
  | up
  deriving DecidableEq, Repr

/-- **The exact decimal** of a magnitude, as digits and a power of ten. -/
def exactDecimal (bits : Nat) : Nat × Int :=
  let (m, q) := significand bits
  if q < 0 then (m * Nat.pow 5 (-q).toNat, q) else (m * Nat.pow 2 q.toNat, 0)

/-- Whether the upper of the two neighbours on a grid is the nearer one. The
exact digits lie `below` above the lower neighbour, of `unit` in all. -/
def upperIsNearer (tie : Tie) (lower below unit : Nat) : Bool :=
  unit < 2 * below ||
    (2 * below = unit && (match tie with | .up => true | .even => lower % 2 = 1))

/-- **The neighbour to write on the grid that drops some digits**: of those
that read back the nearer one, if there is any. -/
def gridHit (tie : Tie) (bits digits : Nat) (exponent : Int) (dropped : Nat) :
    Option (Nat × Int) :=
  let unit := Nat.pow 10 dropped
  let lower := digits / unit
  let scale := exponent + dropped
  let lowerHits := decimalBits lower scale == bits
  let upperHits := decimalBits (lower + 1) scale == bits
  if lowerHits && upperHits then
    some (if upperIsNearer tie lower (digits % unit) unit then lower + 1 else lower, scale)
  else if lowerHits then some (lower, scale)
  else if upperHits then some (lower + 1, scale)
  else none

/-- The first hit when ever fewer digits are dropped; with none dropped, the
exact decimal itself. -/
def searchShortest (tie : Tie) (bits digits : Nat) (exponent : Int) : Nat → Nat × Int
  | 0 => (digits, exponent)
  | dropped + 1 =>
    (gridHit tie bits digits exponent (dropped + 1)).getD
      (searchShortest tie bits digits exponent dropped)

/-- **The shortest decimal that reads back** as the magnitude, and of those
the nearest. -/
def shortest (tie : Tie) (bits : Nat) : Nat × Int :=
  let (digits, exponent) := exactDecimal bits
  searchShortest tie bits digits exponent ((Numeral.digitsOfNat digits).length - 1)

end Rulebook.Double
