import Rulebook.Compile.Output
import Rulebook.Template

/-!
# Notes of features and goodies

Features and goodies list notes and, beside them, the sections that the notes
are shown in, each section once. A note becomes an attribute of its own, with
one more for each placeholder that its text binds.
-/

namespace Rulebook.Compile

/-- **The rules that fill the placeholders** of a note from a source attribute. -/
def bindingRules (attr source : String) (bindings : List Binding) : List Rule :=
  bindings.map fun b =>
    .computed (attr ++ "." ++ Numeral.textOfNat b.placeholder) source .set b.formula

/-- The output for one note in one section, those before it being known. -/
def sectionNote (settings : Settings) (key source : String) (before : List String)
    (name note : String) : Compiled Output := do
  if !settings.isSection name then
    (refused (.unknownSection name)).inField "Section"
  else if before.contains name then
    (refused (.repeatedSection name)).inField "Section"
  else
    let template ← (Template.compile note).inField "Note"
    let attr := s!"{name}Notes.{key}"
    return Output.ofRules (.passthrough attr source .set ::
        bindingRules attr source template.bindings) ++
      Output.ofNote attr name template.text

/-- The output for notes with their sections, those before them being known. -/
def sectionNotesAfter (settings : Settings) (key source : String) :
    List String → List (String × String) → Compiled Output
  | _, [] => return .empty
  | before, (name, note) :: rest => do
    let first ← sectionNote settings key source before name note
    let others ← sectionNotesAfter settings key source (before ++ [name]) rest
    return first ++ others

/-- **The output for the notes of a record**: a list of sections and one of
notes, equally long. -/
def sectionNotes (settings : Settings) (sections notes : List String) (key source : String) :
    Compiled Output :=
  if sections.length ≠ notes.length then
    malformed (.sectionCount sections.length notes.length)
  else sectionNotesAfter settings key source [] (sections.zip notes)

end Rulebook.Compile
