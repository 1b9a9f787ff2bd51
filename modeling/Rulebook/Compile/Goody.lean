import Rulebook.BonusPattern
import Rulebook.Compile.SectionNotes
import Rulebook.Content.FieldTable
import Rulebook.Content.Naming

/-!
# Compiling goodies

A goody is an item that is recognized in the list of goodies by a pattern. Its
value is computed once, in an attribute of its own, and goes from there to all
the attributes that it affects.
-/

namespace Rulebook.Compile

/-- How a goody joins the attributes that it affects; it adds unless it says
otherwise. -/
def goodyOp : Option String → Compiled MergeOp
  | none => .ok .add
  | some text => (MergeOp.read text).inField "Effect"

/-- The rule by which a goody affects one attribute. -/
def goodyRule (total : String) (op : MergeOp) (attr : String) : Compiled Rule :=
  let target := Text.trim attr
  if target = "" then (malformed .blankAttribute).inField "Attribute"
  else .ok (.passthrough target total op)

/-- **Compiles a goody.** -/
def goodyOutput (ctx : Context) (record : Record) (fields : FieldTable) : Compiled Output := do
  let name := record.name
  let total := member "goodies" name
  let patternText ← fields.text "Pattern"
  let pattern ← (BonusPattern.custom patternText).inField "Pattern"
  pattern.ensureSpecific.inField "Pattern"
  let valueText ← fields.text "Value"
  let value ← (Formula.read valueText).inField "Value"
  let op ← goodyOp (← fields.optional .text "Effect")
  let attrs ← fields.list "Attribute"
  if attrs.isEmpty then (refused .noAffectedAttribute).inField "Attribute"
  else
    let rules ← attrs.mapM (goodyRule total op)
    let sections ← fields.list "Section"
    let notes ← fields.list "Note"
    let shown ← sectionNotes ctx.settings sections notes (attributePrefix name ++ "Goody") total
    return Output.ofRules (.computed total "goodiesList" .add (pattern.formula value) :: rules) ++
      shown ++ Output.ofChoice .goody name record.spec

end Rulebook.Compile
