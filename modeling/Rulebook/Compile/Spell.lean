import Rulebook.Compile.SectionNotes
import Rulebook.Content.FieldTable
import Rulebook.Content.Naming

/-!
# Compiling spells

A spell may be listed for several caster groups, and each listing is a variant
of its own. In the description `$D`, `$E` and `$R` stand for duration, effect
and range. These fields hold shared entries and entries for one variant, which
begin with its label and a colon; a variant takes its own entry if it has one.
-/

namespace Rulebook.Compile

/-- Whether a text has the form of a label: letters, then digits. -/
def isVariantLabel (cs : List Char) : Bool :=
  let letters := cs.takeWhile (!Char.isDigit ·)
  let digits := cs.dropWhile (!Char.isDigit ·)
  !letters.isEmpty && letters.all Char.isAlpha && !digits.isEmpty && digits.all Char.isDigit

/-- **The label and the text of an entry for one variant**; none if the entry
is shared. -/
def splitLabel (entry : String) : Option (String × String) :=
  match Text.cutFirst (· = ':') entry.toList with
  | some (label, text) =>
    if isVariantLabel label then some (String.ofList label, String.ofList text) else none
  | none => none

/-- **The entry that a variant takes**: the first of its own, else the first
shared one. -/
def pick (entries : List String) (label : String) : Option String :=
  (entries.findSome? fun entry =>
    match splitLabel entry with
    | some (l, text) => if l = label then some text else none
    | none => none).or
  (entries.find? fun entry => (splitLabel entry).isNone)

/-- The entries of the three fields that a description may refer to. -/
structure Details where
  duration : List String
  effect : List String
  range : List String

/-- The field that a placeholder letter stands for, and its entries. -/
def Details.of (d : Details) : Char → Option (String × List String)
  | 'D' => some ("Duration", d.duration)
  | 'E' => some ("Effect", d.effect)
  | 'R' => some ("Range", d.range)
  | _ => none

/-- **The description of a variant**: every placeholder is replaced by the entry
for it, and what is put in is not looked at again. -/
def substitute (d : Details) (label : String) : List Char → Compiled (List Char)
  | [] => .ok []
  | '$' :: c :: cs =>
    match d.of c with
    | none => (substitute d label (c :: cs)).map ('$' :: ·)
    | some (field, entries) =>
      match pick entries label with
      | none =>
        (refused (.missingEntry (String.ofList ['$', c]) field label)).inField "Description"
      | some text => (substitute d label cs).map (text.toList ++ ·)
  | c :: cs => (substitute d label cs).map (c :: ·)

/-- Reads the variants that a spell is listed for, those before being known. -/
def readVariants (settings : Settings) : List CasterLabel → List String →
    Compiled (List CasterLabel)
  | before, [] => .ok before
  | before, entry :: entries => do
    let label ← (CasterLabel.read entry).inField "Level"
    if (settings.casterClass? label.group).isNone then
      (refused (.unknownCasterGroup label.group)).inField "Level"
    else if before.any (·.render == label.render) then
      (refused (.repeatedLabel label.render)).inField "Level"
    else readVariants settings (before ++ [label]) entries

/-- The entries of a field, none of which may be for a variant that the spell is
not listed for. -/
def readDetail (fields : FieldTable) (labels : List CasterLabel) (field : String) :
    Compiled (List String) := do
  let entries ← fields.list field
  match entries.findSome? fun entry => (splitLabel entry).bind fun (label, _) =>
      if labels.any (·.render == label) then none else some label with
  | some label => (refused (.unlistedOverride label)).inField field
  | none => return entries

/-- **The output of one variant.** -/
def variantOutput (name school abbreviation : String) (description : List Char) (d : Details)
    (label : CasterLabel) : Compiled Output := do
  let text ← substitute d label.render description
  let template ← (Template.compileChars text).inField "Description"
  let variant := s!"{name}({label.render} {abbreviation})"
  let attr := member "spells" variant
  let casterLevel := member "casterLevels" label.group
  return Output.ofRules (bindingRules attr casterLevel template.bindings ++
      [.passthrough (member "spellsKnown" label.render) attr .add]) ++
    Output.ofNote attr "magic" template.text ++
    Output.ofChoice .spell variant
      s!"School={school} Level={label.render} Description=\"{String.ofList text}\""

/-- **Compiles a spell.** -/
def spellOutput (ctx : Context) (record : Record) (fields : FieldTable) : Compiled Output := do
  let school ← fields.text "School"
  match ctx.settings.schoolAbbreviation? school with
  | none => (refused (.unknownSchool school)).inField "School"
  | some abbreviation =>
    let description ← fields.text "Description"
    let labels ← readVariants ctx.settings [] (← fields.list "Level")
    if labels.isEmpty then (refused .noCasterLevel).inField "Level"
    else
      let duration ← readDetail fields labels "Duration"
      let effect ← readDetail fields labels "Effect"
      let range ← readDetail fields labels "Range"
      let outputs ← labels.mapM
        (variantOutput record.name school abbreviation description.toList
          ⟨duration, effect, range⟩)
      return .concat outputs

end Rulebook.Compile
