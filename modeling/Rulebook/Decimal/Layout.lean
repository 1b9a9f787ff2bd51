import Rulebook.Decimal.Shortest

/-!
# Layouts of numbers

The digits of a number are one thing, their layout on the page another: where
positional notation ends and an exponent begins, whether a whole number shows
its point, and which of two equally short decimals is taken. A `Layout` holds
these decisions; the places that write numbers each name the layout they use.
-/

namespace Rulebook

/-- **How a number is laid out.** -/
structure Layout where
  /-- Whether to write digits in place, given how many of them stand before
  the point (none or fewer when the number is below one). -/
  positional : Int → Bool
  /-- Whether a whole number in positional notation ends in `.0`. -/
  marksWhole : Bool
  /-- The choice between two equally near decimals. -/
  tie : Double.Tie

namespace Layout

/-- **Canonical text**: always positional, whole numbers without a point. -/
def canonical : Layout where
  positional _ := true
  marksWhole := false
  tie := .up

/-- **Tokens quoted in messages**: positional from `0.0001` to below
`10 ^ 16`. -/
def quoted : Layout where
  positional point := -3 ≤ point && point ≤ 16
  marksWhole := true
  tie := .up

/-- **Stored numbers**: positional from `0.00001` to below `10 ^ 16`. -/
def stored : Layout where
  positional point := -4 ≤ point && point ≤ 16
  marksWhole := true
  tie := .even

/-- Digits without the zeros at their end, and how many were taken off. -/
def dropZeros (digits : List Char) : List Char × Nat :=
  let kept := (digits.reverse.dropWhile (· = '0')).reverse
  (kept, digits.length - kept.length)

/-- **Positional notation** of digits of which `point` stand before the
point. -/
def placeDigits (l : Layout) (digits : List Char) (point : Int) : List Char :=
  let zeros (n : Int) := List.replicate n.toNat '0'
  if point ≤ 0 then '0' :: '.' :: zeros (-point) ++ digits
  else if digits.length ≤ point then
    digits ++ zeros (point - digits.length) ++ (if l.marksWhole then ['.', '0'] else [])
  else digits.take point.toNat ++ '.' :: digits.drop point.toNat

/-- The text of a whole exponent. -/
def exponentText (n : Int) : List Char :=
  (if n < 0 then ['-'] else []) ++ Numeral.digitsOfNat n.natAbs

/-- **Scientific notation**: one digit before the point, and no point when it
is the only one. -/
def scientific (digits : List Char) (point : Int) : List Char :=
  let mantissa := match digits with
    | first :: second :: rest => first :: '.' :: second :: rest
    | digits => digits
  mantissa ++ 'e' :: exponentText (point - 1)

/-- The text of a finite magnitude. -/
def magnitudeText (l : Layout) (bits : Nat) : List Char :=
  if bits = 0 then if l.marksWhole then ['0', '.', '0'] else ['0']
  else
    let (n, exponent) := Double.shortest l.tie bits
    let all := Numeral.digitsOfNat n
    let (digits, _) := dropZeros all
    let point := exponent + all.length
    if l.positional point then l.placeDigits digits point else scientific digits point

/-- **The text of a double**: the shortest decimal that reads back, laid out;
for the others, the words `inf` and `NaN`. -/
def chars (l : Layout) (x : Float) : List Char :=
  let bits := Double.magnitude x
  let sign := if Double.isNegative x then ['-'] else []
  if Double.infiniteBits < bits then ['N', 'a', 'N']
  else if bits = Double.infiniteBits then sign ++ ['i', 'n', 'f']
  else sign ++ l.magnitudeText bits

/-- The text of a double, as a string. -/
def text (l : Layout) (x : Float) : String := String.ofList (l.chars x)

end Layout

end Rulebook
