import Rulebook.Quantity

/-!
# Formulas

A formula computes one contribution to an attribute of a character from the
value of another attribute, its *source*, and from any further attributes that
it names. This module holds the trees and the ways to build them.

A choice is written `condition ? consequent`, with or without an alternative;
without one it contributes nothing when the condition fails.
-/

namespace Rulebook

/-- The operators between two operands. -/
inductive BinaryOp where
  | add | sub | mul | div | lt | le | gt | ge | eq | ne | and | or
  deriving DecidableEq, Repr

namespace BinaryOp

/-- All binary operators. -/
def all : List BinaryOp := [.add, .sub, .mul, .div, .lt, .le, .gt, .ge, .eq, .ne, .and, .or]

/-- How an operator is written. -/
def symbol : BinaryOp → String
  | add => "+"
  | sub => "-"
  | mul => "*"
  | div => "/"
  | lt => "<"
  | le => "<="
  | gt => ">"
  | ge => ">="
  | eq => "=="
  | ne => "!="
  | and => "&&"
  | or => "||"

/-- The name of an operator in stored formulas. -/
def name : BinaryOp → String
  | add => "add"
  | sub => "sub"
  | mul => "mul"
  | div => "div"
  | lt => "lt"
  | le => "le"
  | gt => "gt"
  | ge => "ge"
  | eq => "eq"
  | ne => "ne"
  | and => "and"
  | or => "or"

/-- **How tightly an operator binds.** Operators that bind tighter have the
larger number; those of one number group to the left. -/
def precedence : BinaryOp → Nat
  | or => 2
  | and => 3
  | eq | ne => 4
  | lt | le | gt | ge => 5
  | add | sub => 6
  | mul | div => 7

/-- The operator with the given name. -/
def ofName? (s : String) : Option BinaryOp := all.find? (·.name == s)

end BinaryOp

/-- The operators before one operand. -/
inductive UnaryOp where
  | neg | not
  deriving DecidableEq, Repr

namespace UnaryOp

/-- How an operator is written. -/
def symbol : UnaryOp → String
  | neg => "-"
  | not => "!"

/-- The name of an operator in stored formulas. -/
def name : UnaryOp → String
  | neg => "neg"
  | not => "not"

/-- The operator with the given name. -/
def ofName? (s : String) : Option UnaryOp := [neg, not].find? (·.name == s)

end UnaryOp

/-- The functions that formulas may call. -/
inductive Function where
  | floor | ceil | abs | min | max
  /-- `steps(input, below, t1, v1, t2, v2, …)`. -/
  | steps
  /-- `table(index, fallback, v0, v1, …)`. -/
  | table
  /-- `matches(list, 'pattern', value)`, left to the host program. -/
  | matching
  deriving DecidableEq, Repr

namespace Function

/-- All functions. -/
def all : List Function := [floor, ceil, abs, min, max, steps, table, matching]

/-- The name of a function. -/
def name : Function → String
  | floor => "floor"
  | ceil => "ceil"
  | abs => "abs"
  | min => "min"
  | max => "max"
  | steps => "steps"
  | table => "table"
  | matching => "matches"

/-- The function of the given name. -/
def ofName? (s : String) : Option Function := all.find? (·.name == s)

/-- **Whether a function takes a number of arguments.** -/
def accepts : Function → Nat → Bool
  | floor, n | ceil, n | abs, n => n = 1
  | min, n | max, n | table, n => 2 ≤ n
  | steps, n => 2 ≤ n && n % 2 = 0
  | matching, n => n = 3

/-- The accepted numbers of arguments in words. -/
def arity : Function → String
  | floor | ceil | abs => "exactly 1"
  | min | max | table => "at least 2"
  | steps => "an even number, at least 2"
  | matching => "exactly 3"

end Function

/-- **A formula.** -/
inductive Formula (N : Type) where
  | number (value : N)
  | text (value : String)
  /-- No contribution. -/
  | null
  /-- The value of the source attribute. -/
  | source
  /-- The value of a named attribute. -/
  | attr (name : String)
  /-- What the numbered group of a matched pattern captured. -/
  | capture (index : Nat)
  | unary (op : UnaryOp) (operand : Formula N)
  | binary (op : BinaryOp) (left right : Formula N)
  /-- `condition ? consequent`. -/
  | whenever (condition consequent : Formula N)
  /-- `condition ? consequent : alternative`. -/
  | choose (condition consequent alternative : Formula N)
  | call (function : Function) (args : List (Formula N))
  deriving Repr

namespace Formula

variable {N : Type}

mutual

/-- **Equality of formulas**: the same tree, with numbers compared as
numbers. A number that does not equal itself makes its formula different from
itself. -/
def same [Quantity N] : Formula N → Formula N → Bool
  | number x, number y => Quantity.equals x y
  | text s, text t => s == t
  | null, null => true
  | source, source => true
  | attr a, attr b => a == b
  | capture i, capture j => i == j
  | unary o a, unary p b => o == p && same a b
  | binary o a b, binary p c d => o == p && same a c && same b d
  | whenever a b, whenever c d => same a c && same b d
  | choose a b c, choose d e f => same a d && same b e && same c f
  | call f as, call g bs => f == g && sameList as bs
  | _, _ => false

/-- Equality of lists of formulas, one by one. -/
def sameList [Quantity N] : List (Formula N) → List (Formula N) → Bool
  | [], [] => true
  | a :: as, b :: bs => same a b && sameList as bs
  | _, _ => false

end

instance [Quantity N] : BEq (Formula N) := ⟨same⟩

section Building

variable [Quantity N]

/-- A whole number. -/
def whole (n : Nat) : Formula N := number (Quantity.ofNat n)

/-- **Negation**; the negation of a number is a number. -/
def neg : Formula N → Formula N
  | number x => number (-x)
  | f => unary .neg f

instance : Add (Formula N) := ⟨binary .add⟩
instance : Sub (Formula N) := ⟨binary .sub⟩
instance : Mul (Formula N) := ⟨binary .mul⟩
instance : Div (Formula N) := ⟨binary .div⟩

/-- The largest whole number that is at most the value. -/
def floor (f : Formula N) : Formula N := call .floor [f]

/-- **A step function**: the value of a threshold that the input reaches, and
`below` when it reaches none. -/
def steps (input : Formula N) (below : N) (pairs : List (N × N)) : Formula N :=
  call .steps (input :: number below :: pairs.flatMap fun (t, v) => [number t, number v])

/-- **A look-up by position**, with a value for all positions outside. -/
def table (index : Formula N) (fallback : N) (values : List N) : Formula N :=
  call .table (index :: number fallback :: values.map number)

/-- A look-up of a pattern in a list of texts, which the host program does. -/
def matching (list : Formula N) (pattern : String) (value : Formula N) : Formula N :=
  call .matching [list, text pattern, value]

/-- **The sum of some terms**, from the left; zero if there is none. -/
def sum : List (Formula N) → Formula N
  | [] => number Quantity.zero
  | f :: fs => fs.foldl (· + ·) f

end Building

/-- Adds a name at the end unless it is there already. -/
def addName (names : List String) (name : String) : List String :=
  if names.contains name then names else names ++ [name]

mutual

/-- The attribute names of a formula in order, added to those found before. -/
def collectAttributes : Formula N → List String → List String
  | attr name, names => addName names name
  | unary _ a, names => collectAttributes a names
  | binary _ a b, names => collectAttributes b (collectAttributes a names)
  | whenever a b, names => collectAttributes b (collectAttributes a names)
  | choose a b c, names =>
    collectAttributes c (collectAttributes b (collectAttributes a names))
  | call _ args, names => collectAttributesList args names
  | _, names => names

/-- The attribute names of some formulas, likewise. -/
def collectAttributesList : List (Formula N) → List String → List String
  | [], names => names
  | a :: as, names => collectAttributesList as (collectAttributes a names)

end

/-- **The attributes that a formula reads**, each once, in the order in which
they first appear. -/
def referencedAttributes (f : Formula N) : List String := collectAttributes f []

end Formula

end Rulebook
