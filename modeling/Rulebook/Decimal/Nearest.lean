import Rulebook.Decimal.Numeral

/-!
# The double nearest to a decimal

The magnitude bits of a double, sign left out, count the doubles from zero
upwards: bits `0` are zero, and the next bits are the next larger double. A
finite magnitude with significand `m` below `2 ^ 53` and unit `2 ^ q`, where
`q` is at least `-1074`, has the bits `(q + 1074) · 2 ^ 52 + m`; this one
formula covers the numbers below `2 ^ -1022` and the step from one binade to
the next.

Rounding a ratio of natural numbers to such a magnitude needs no fractions:
the unit is chosen first, then the quotient is rounded to a whole number of
units, halves to the even neighbour.
-/

namespace Rulebook.Double

/-- How many doubles a binade holds. -/
def binadeSize : Nat := Nat.pow 2 52

/-- The bit that holds the sign, above those of the magnitude. -/
def signBit : Nat := Nat.pow 2 63

/-- The bits of infinity: all magnitudes from here on are not finite. -/
def infiniteBits : Nat := 2047 * binadeSize

/-- The exponent of the smallest unit, that of the numbers nearest zero. -/
def leastUnit : Int := -1074

/-- **A quotient rounded to a whole number**, halves to the even one. -/
def roundQuotient (num den : Nat) : Nat :=
  let quotient := num / den
  let twice := 2 * (num % den)
  if twice < den then quotient
  else if den < twice then quotient + 1
  else if quotient % 2 = 0 then quotient else quotient + 1

/-- A ratio divided by `2 ^ q`, as a ratio again. -/
def scaleRatio (num den : Nat) (q : Int) : Nat × Nat :=
  if q < 0 then (num * Nat.pow 2 (-q).toNat, den) else (num, den * Nat.pow 2 q.toNat)

/-- The unit in which a ratio has 53 significant bits, or the least unit for
ratios too small for that. The logarithms give it up to one step. -/
def unitOf (num den : Nat) : Int :=
  let q : Int := (num.log2 : Int) - (den.log2 : Int) - 53
  let (n, d) := scaleRatio num den q
  max leastUnit (if n < 2 * binadeSize * d then q else q + 1)

/-- **The magnitude bits nearest to a ratio**; from the largest finite
magnitude on, infinity. -/
def nearestBits (num den : Nat) : Nat :=
  if num = 0 then 0
  else
    let q := unitOf num den
    let (n, d) := scaleRatio num den q
    min infiniteBits ((q - leastUnit).toNat * binadeSize + roundQuotient n d)

/-- **The magnitude bits nearest to `digits · 10 ^ exponent`.** Exponents far
outside the range of doubles are settled by the number of digits alone, so
that no huge power is computed. -/
def decimalBits (digits : Nat) (exponent : Int) : Nat :=
  let top := exponent + (Numeral.digitsOfNat digits).length
  if digits = 0 || top < -330 then 0
  else if top > 330 then infiniteBits
  else if exponent < 0 then nearestBits digits (Nat.pow 10 (-exponent).toNat)
  else nearestBits (digits * Nat.pow 10 exponent.toNat) 1

/-- The double with the given sign and magnitude bits. -/
def ofMagnitude (negative : Bool) (bits : Nat) : Float :=
  Float.ofBits (UInt64.ofNat (bits + if negative then signBit else 0))

/-- The magnitude bits of a double. -/
def magnitude (x : Float) : Nat := x.toBits.toNat % signBit

/-- The sign bit of a double. -/
def isNegative (x : Float) : Bool := signBit ≤ x.toBits.toNat

/-- **The significand and the unit exponent of magnitude bits**, so that the
magnitude is `m · 2 ^ q`. -/
def significand (bits : Nat) : Nat × Int :=
  let binade : Nat := bits / binadeSize
  if binade = 0 then (bits, leastUnit)
  else (bits % binadeSize + binadeSize, leastUnit + ((binade - 1 : Nat) : Int))

/-- **The double nearest to a numeral**, overflow giving infinity. -/
def ofNumeral : Numeral → Float
  | .finite negative digits exponent =>
    ofMagnitude negative (decimalBits digits exponent)
  | .infinite negative => ofMagnitude negative infiniteBits
  | .undefined => Float.ofBits 0x7ff8000000000000

end Rulebook.Double
