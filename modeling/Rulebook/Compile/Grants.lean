import Rulebook.Compile.Output
import Rulebook.Content.LeveledFeature
import Rulebook.Content.Naming

/-!
# Requirements and grants

What classes and races have in common: requirements that a character has to
meet, languages that they grant, and features at certain levels.
-/

namespace Rulebook.Compile

/-- The conjunction of some conditions, from the left; true if there is none. -/
def allOf : List (Formula Float) → Formula Float
  | [] => .number Quantity.one
  | f :: fs => fs.foldl (.binary .and) f

/-- **What is one when some condition fails**, and nothing when all hold. -/
def violation (conditions : List (Formula Float)) : Formula Float :=
  .whenever (.unary .not (allOf conditions)) (.number Quantity.one)

/-- **The note on unmet requirements** of a record whose source attribute and
attribute name are given; none if it requires nothing. -/
def requirements (texts : List String) (attrPrefix source : String) : Compiled Output := do
  if texts.isEmpty then return .empty
  let conditions ← texts.mapM fun text => (Formula.read text).inField "Require"
  let attr := s!"validationNotes.{attrPrefix}Requirements"
  let description := String.intercalate "; " (conditions.map Formula.render)
  return Output.ofRules [.computed attr source .set (violation conditions)] ++
    Output.ofNote attr "validation" s!"Requires {description}"

/-- **Languages granted** to whoever has the source attribute. -/
def grantLanguages (ctx : Context) (languages : List String) (source : String) :
    Compiled Output := do
  let rules ← languages.mapM fun language => do
    (ctx.catalog.require .language language).inField "Languages"
    return Rule.computed (member "languages" language) source .max (.number Quantity.one)
  return .ofRules rules

/-- A condition together with one more, if there is one before. -/
def alsoRequire (condition : Option (Formula Float)) (more : Formula Float) : Formula Float :=
  match condition with
  | some first => .binary .and first more
  | none => more

end Rulebook.Compile
