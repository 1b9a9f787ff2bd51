import Rulebook.Error
import Rulebook.Quantity
import Rulebook.Text.Blank
import Rulebook.Text.Whole

/-!
# Numbers in content

Numbers in content may have blanks around them. A number may have a plus sign
in front, which is taken off before the rest is read as a numeral; it has to be
finite.
-/

namespace Rulebook

/-- A text without a plus sign in front. -/
def dropPlus : List Char → List Char
  | '+' :: cs => cs
  | cs => cs

/-- **Reads a number**, whole or not. -/
def readNumber {N : Type} [Quantity N] (text : String) : Compiled N :=
  match Quantity.read (dropPlus (Text.trimChars text.toList)) with
  | some (x : N) => if Quantity.isFinite x then .ok x else refused (.notNumber text)
  | none => refused (.notNumber text)

/-- **Reads a whole number** that is not negative and below `2 ^ 32`. -/
def readWhole (text : String) : Compiled Nat :=
  match Text.readBounded Text.wholeBound (Text.trimChars text.toList) with
  | some n => .ok n
  | none => refused (.notWhole text)

/-- A whole number that is read is below the bound. -/
theorem lt_of_readWhole {text : String} {n : Nat} (h : readWhole text = .ok n) :
    n < Text.wholeBound := by
  unfold readWhole at h
  split at h
  · next hread =>
    cases h
    exact Text.lt_of_readBounded hread
  · cases h

end Rulebook
