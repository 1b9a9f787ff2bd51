import Rulebook.Compile.SectionNotes
import Rulebook.Content.FieldTable
import Rulebook.Content.Naming

/-!
# Compiling features

A feature shows notes and has effects. An effect is written `target += value`,
`target ^= value`, `target v= value` or `target = value`, and adds, raises,
limits or sets.
-/

namespace Rulebook.Compile

/-- **An effect of a feature.** -/
structure Effect where
  target : String
  op : MergeOp
  formula : Formula Float

namespace Effect

/-- Whether an equals sign between two characters assigns: it is not part of a
comparison. -/
def assigns (before after : Option Char) : Bool :=
  after != some '=' && !(before.any fun c => c = '!' || c = '<' || c = '>' || c = '=')

/-- **Cuts at the first equals sign that assigns**, given the character before
the text. -/
def cutAssignment : Option Char → List Char → Option (List Char × List Char)
  | _, [] => none
  | before, c :: cs =>
    if c = '=' && assigns before cs.head? then some ([], cs)
    else (cutAssignment (some c) cs).map fun (head, rest) => (c :: head, rest)

/-- **The target and the operator** that stand before an assignment. A `v` is an
operator only after a blank. -/
def splitHead (head : List Char) : List Char × MergeOp :=
  match head.reverse with
  | '+' :: rest => (rest.reverse, .add)
  | '^' :: rest => (rest.reverse, .max)
  | 'v' :: b :: rest => if Text.isBlank b then ((b :: rest).reverse, .min) else (head, .set)
  | _ => (head, .set)

/-- **Reads an effect.** -/
def read (entry : String) : Compiled Effect := do
  match cutAssignment none entry.toList with
  | none => malformed (.effectWithoutAssignment entry)
  | some (head, value) =>
    let (target, op) := splitHead head
    let target := Text.trimChars target
    if target = [] then malformed (.effectWithoutTarget entry)
    else
      let formula ← Formula.readChars value
      return ⟨String.ofList target, op, formula⟩

end Effect

/-- **Compiles a feature.** -/
def featureOutput (ctx : Context) (record : Record) (fields : FieldTable) : Compiled Output := do
  let name := record.name
  let source := member "features" name
  let sections ← fields.list "Section"
  let notes ← fields.list "Note"
  let shown ← sectionNotes ctx.settings sections notes (attributePrefix name) source
  let effects ← (← fields.list "Effects").mapM fun entry => (Effect.read entry).inField "Effects"
  return shown ++
    Output.ofRules (effects.map fun e => .computed e.target source e.op e.formula) ++
    Output.ofChoice .feature name record.spec

end Rulebook.Compile
