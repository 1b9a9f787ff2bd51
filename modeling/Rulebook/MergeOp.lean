import Rulebook.Error

/-!
# How contributions combine

Several rules may contribute to one attribute. Each says how its contribution
joins what is already there. Operators for which the order does not matter may
meet on one attribute whatever record they come from; the other two need the
attribute for themselves.
-/

namespace Rulebook

/-- **How a contribution joins the value of its target.** -/
inductive MergeOp where
  /-- Replaces the value. -/
  | set
  | add | max | min
  /-- Applies only while there is no value yet. -/
  | firstWins
  /-- Collects contributions in a list. -/
  | accumulate
  deriving DecidableEq, Repr

namespace MergeOp

/-- All operators. -/
def all : List MergeOp := [set, add, max, min, firstWins, accumulate]

/-- The name of an operator. -/
def name : MergeOp → String
  | set => "set"
  | add => "add"
  | max => "max"
  | min => "min"
  | firstWins => "firstWins"
  | accumulate => "accumulate"

instance : ToString MergeOp := ⟨name⟩

/-- **Whether the order of contributions does not matter.** -/
def isCommutative : MergeOp → Bool
  | add | max | min | accumulate => true
  | set | firstWins => false

/-- The operator with the given name. -/
def ofName? (s : String) : Option MergeOp := all.find? (·.name == s)

/-- The sign that some operators have besides their name. -/
def sign? : MergeOp → Option String
  | set => some "="
  | add => some "+"
  | max => some "^"
  | min => some "v"
  | firstWins | accumulate => none

/-- **Reads an operator**, given by its name or its sign. -/
def read (s : String) : Compiled MergeOp :=
  match all.find? fun op => op.name == s || op.sign? == some s with
  | some op => .ok op
  | none => refused (.unknownMergeOperator s)

end MergeOp

/-- **How a progression combines over several classes.** -/
inductive MergePolicy where
  | takeHighest
  /-- The lowest is the most favourable, as for saving throws. -/
  | takeLowest
  | sum
  /-- Only one class may have it. -/
  | exclusive
  deriving DecidableEq, Repr

namespace MergePolicy

/-- The name of a policy. -/
def name : MergePolicy → String
  | takeHighest => "takeHighest"
  | takeLowest => "takeLowest"
  | sum => "sum"
  | exclusive => "exclusive"

/-- The operator that carries a policy out. -/
def op : MergePolicy → MergeOp
  | takeHighest => .max
  | takeLowest => .min
  | sum => .add
  | exclusive => .set

end MergePolicy

end Rulebook
