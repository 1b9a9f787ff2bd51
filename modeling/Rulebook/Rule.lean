import Rulebook.Double
import Rulebook.Formula.Printer
import Rulebook.MergeOp

/-!
# Derivation rules and notes

A rule is one contribution to one attribute of a character. It is computed from
the value of the rule's source attribute, or is that value itself when the rule
has no formula. A note is a text to be shown with an attribute.
-/

namespace Rulebook

/-- **A derivation rule.** -/
structure Rule where
  /-- The attribute contributed to. -/
  target : String
  /-- The attribute whose value the formula sees as its source. -/
  source : String
  op : MergeOp
  /-- Without a formula the source value itself is contributed. -/
  formula : Option (Formula Float)

namespace Rule

/-- A rule that contributes a computed value. -/
def computed (target source : String) (op : MergeOp) (formula : Formula Float) : Rule :=
  ⟨target, source, op, some formula⟩

/-- A rule that copies the source value. -/
def passthrough (target source : String) (op : MergeOp) : Rule :=
  ⟨target, source, op, none⟩

/-- **Equality of rules**, with the numbers in their formulas compared as
numbers. -/
def same (r s : Rule) : Bool :=
  r.target == s.target && r.source == s.source && r.op == s.op && r.formula == s.formula

instance : BEq Rule := ⟨same⟩

/-- The text of a rule in messages. -/
def render (r : Rule) : String :=
  s!"{r.target} <{r.op}- {r.source}" ++
    match r.formula with
    | some f => " : " ++ f.render
    | none => ""

end Rule

/-- **A note**: the template of a text that is shown with an attribute. In it
`%V` stands for the attribute's value and `%1`, `%2` and so on for those of the
attributes `<attribute>.1`, `<attribute>.2` and so on. -/
structure Note where
  /-- The attribute that the note is shown with. -/
  attr : String
  /-- The section of the sheet that shows the note. -/
  sheetSection : String
  format : String
  deriving DecidableEq, Repr

end Rulebook
