/-!
# Decimal numerals

A numeral is the text of a number before any rounding: a sign, digits with an
optional point, and an optional power of ten. Reading one decides only whether
the text has this form; which number of a given arithmetic it denotes is the
business of that arithmetic.

The words `inf`, `infinity` and `nan`, in any letter case, are numerals too.
Readers that want finite numbers refuse them afterwards.
-/

namespace Rulebook

/-- **A numeral**: what a number text says, digit for digit. -/
inductive Numeral where
  /-- `± digits · 10 ^ exponent`. -/
  | finite (negative : Bool) (digits : Nat) (exponent : Int)
  /-- One of the words for infinity. -/
  | infinite (negative : Bool)
  /-- The word for the result that is no number. -/
  | undefined
  deriving DecidableEq, Repr

namespace Numeral

/-- The value of a decimal digit; characters other than the ten digits
count as zero. -/
def digitValue (c : Char) : Nat :=
  if c.isDigit then c.toNat - '0'.toNat else 0

/-- **Digits are read from the left**, each one ten times the next. -/
def natOfDigits (cs : List Char) : Nat :=
  cs.foldl (fun n c => 10 * n + digitValue c) 0

@[simp] theorem natOfDigits_nil : natOfDigits [] = 0 := rfl

/-- Appending a digit multiplies what is there by ten. -/
theorem natOfDigits_concat (cs : List Char) (c : Char) :
    natOfDigits (cs ++ [c]) = 10 * natOfDigits cs + digitValue c := by
  simp [natOfDigits]

/-- The digit that stands for a number below ten. -/
def digitChar (n : Nat) : Char :=
  Char.ofNat ('0'.toNat + n % 10)

/-- The decimal digits of a number, most significant first; zero has the one
digit `0`. -/
def digitsOfNat (n : Nat) : List Char :=
  if n < 10 then [digitChar n] else digitsOfNat (n / 10) ++ [digitChar n]

/-- The text of a whole number in decimal digits. -/
def textOfNat (n : Nat) : String :=
  String.ofList (digitsOfNat n)

/-- Splits an optional sign off a text; the flag says whether it was a minus. -/
def splitSign : List Char → Bool × List Char
  | '-' :: rest => (true, rest)
  | '+' :: rest => (false, rest)
  | cs => (false, cs)

/-- A signed whole exponent: an optional sign, then at least one digit and
nothing else. -/
def readExponent (cs : List Char) : Option Int :=
  let (negative, digits) := splitSign cs
  if digits.isEmpty || !digits.all Char.isDigit then none
  else
    let size : Int := natOfDigits digits
    some (if negative then -size else size)

/-- The part of a numeral after its digits: nothing, or `e` and an exponent. -/
def readScale : List Char → Option Int
  | [] => some 0
  | c :: cs => if c = 'e' || c = 'E' then readExponent cs else none

/-- **Digits with an optional point and an optional exponent**, with a digit
on at least one side of the point. -/
def readUnsigned (negative : Bool) (cs : List Char) : Option Numeral :=
  let whole := cs.takeWhile Char.isDigit
  let rest := cs.dropWhile Char.isDigit
  let (fraction, rest) := match rest with
    | '.' :: rest => (rest.takeWhile Char.isDigit, rest.dropWhile Char.isDigit)
    | rest => ([], rest)
  if whole.isEmpty && fraction.isEmpty then none
  else (readScale rest).map fun scale =>
    finite negative (natOfDigits (whole ++ fraction)) (scale - fraction.length)

/-- The words for numbers that have no digits. -/
def readWord (negative : Bool) (cs : List Char) : Option Numeral :=
  let word := String.ofList (cs.map Char.toLower)
  if word = "inf" || word = "infinity" then some (infinite negative)
  else if word = "nan" then some undefined
  else none

/-- **Reads a numeral**: an optional sign, then digits or a word. The whole
text has to be used, and no blanks are skipped. -/
def read (cs : List Char) : Option Numeral :=
  let (negative, rest) := splitSign cs
  (readUnsigned negative rest).or (readWord negative rest)

end Numeral

end Rulebook
