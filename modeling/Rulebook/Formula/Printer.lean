import Rulebook.Formula.Basic

/-!
# The canonical text of a formula

Every formula has one canonical text, with parentheses only where the reading
would otherwise group differently. Numbers below zero are written with their
sign and so bind like a negation. An attribute name that could be mistaken for
something else stands in back-quotes.
-/

namespace Rulebook

/-- The letters, the underscore: what may begin a bare attribute name. -/
def isNameStart (c : Char) : Bool := c.isAlpha || c = '_'

/-- What may stand in a bare attribute name. -/
def isNamePart (c : Char) : Bool := c.isAlphanum || c = '_' || c = '.'

/-- **Whether an attribute name can stand without back-quotes.** -/
def isBareName (name : String) : Bool :=
  let cs := name.toList
  (match cs with
    | [] => false
    | c :: _ => isNameStart c) &&
  cs.all isNamePart && cs.getLast? != some '.' && name != "source" && name != "null"

/-- A text between quotes, with a backslash before each quote and backslash
in it. -/
def quoteWith (quote : Char) (cs : List Char) : List Char :=
  quote :: cs.flatMap (fun c => if c = quote || c = '\\' then ['\\', c] else [c]) ++ [quote]

/-- An attribute name as formulas write it. -/
def nameChars (name : String) : List Char :=
  if isBareName name then name.toList else quoteWith (Char.ofNat 0x60) name.toList

namespace Formula

/-- How tightly a choice binds: looser than any operator. -/
def choicePrecedence : Nat := 1

/-- How tightly an operator before its operand binds. -/
def unaryPrecedence : Nat := 8

/-- What needs no parentheses anywhere. -/
def primaryPrecedence : Nat := 9

variable {N : Type} [Quantity N]

/-- **How tightly the outermost part of a formula binds.** -/
def precedence : Formula N → Nat
  | number x => if Quantity.less x Quantity.zero then unaryPrecedence else primaryPrecedence
  | unary _ _ => unaryPrecedence
  | binary op _ _ => op.precedence
  | whenever _ _ | choose _ _ _ => choicePrecedence
  | _ => primaryPrecedence

/-- A text in parentheses if need be. -/
def enclose (needed : Bool) (cs : List Char) : List Char :=
  if needed then '(' :: cs ++ [')'] else cs

mutual

/-- **The canonical text of a formula** as characters. -/
def chars : Formula N → List Char
  | number x => Quantity.chars x
  | text s => quoteWith '\'' s.toList
  | null => "null".toList
  | source => "source".toList
  | attr name => nameChars name
  | capture i => '$' :: Numeral.digitsOfNat i
  -- two signs in a row would not read as one negation in another
  | unary .neg a => '-' :: enclose (a.precedence ≤ unaryPrecedence) (chars a)
  | unary .not a => '!' :: enclose (a.precedence < unaryPrecedence) (chars a)
  | binary op a b =>
    enclose (a.precedence < op.precedence) (chars a) ++
      ' ' :: op.symbol.toList ++ ' ' :: enclose (b.precedence ≤ op.precedence) (chars b)
  | whenever a b =>
    enclose (a.precedence ≤ choicePrecedence) (chars a) ++
      " ? ".toList ++ enclose (b.precedence ≤ choicePrecedence) (chars b)
  | choose a b c =>
    enclose (a.precedence ≤ choicePrecedence) (chars a) ++
      " ? ".toList ++ enclose (b.precedence ≤ choicePrecedence) (chars b) ++
      " : ".toList ++ chars c
  | call f args => f.name.toList ++ '(' :: argumentChars args ++ [')']

/-- The canonical texts of arguments, with commas between them. -/
def argumentChars : List (Formula N) → List Char
  | [] => []
  | [a] => chars a
  | a :: b :: rest => chars a ++ ',' :: ' ' :: argumentChars (b :: rest)

end

/-- **The canonical text of a formula.** -/
def render (f : Formula N) : String := String.ofList f.chars

instance : ToString (Formula N) := ⟨render⟩

end Formula

end Rulebook
