import Rulebook.Content.Kind

/-!
# What can be wrong with a content record

A record is refused for one of three kinds of fault: its text cannot be read,
its text can be read but says something that makes no sense, or a pattern made
from it would also match what belongs to others. No fault stops a batch; the
record is left out and the rest goes on.

Each fault is a constructor that carries what the message needs. The wording is
in the `message` functions and nowhere else.
-/

namespace Rulebook

/-- **Faults of form**: text that cannot be read. -/
inductive StructuralFault where
  /-- A text literal in an expression has no closing quote. -/
  | unterminatedQuote
  /-- A back-quoted attribute name has no closing quote. -/
  | unterminatedAttributeQuote
  | emptyAttributeName (input : String)
  | invalidCapture (digits input : String)
  | invalidNumber (literal input : String)
  | unexpectedCharacter (c : Char) (input : String)
  | emptyExpression
  /-- The token is given as messages show it. -/
  | unexpectedToken (token input : String)
  | unexpectedEnd (input : String)
  | expectedClose (input : String)
  | expectedCommaOrClose (input : String)
  | argumentCount (function expected : String) (got : Nat)
  | tokenWithoutEquals (token : String)
  | emptyKey
  | unterminatedValue (field : String)
  | repeatedField (field : String)
  | notSingle (got : Nat)
  | valueCount (shape : String) (expected got : Nat)
  | stepForm (text : String)
  | dieForm (text : String)
  | casterLabelForm (label : String)
  | slotTableForm (text : String)
  | slotEntryForm (entry : String)
  | namelessFeature (entry : String)
  | tooManyPlaceholders (note : String)
  | unterminatedInterpolation (note : String)
  | emptyInterpolation (note : String)
  | emptyEquipmentName
  | emptyPattern
  | invalidPattern
  | effectWithoutAssignment (effect : String)
  | effectWithoutTarget (effect : String)
  | sectionCount (sections notes : Nat)
  | blankAttribute
  deriving DecidableEq, Repr

/-- **Faults of meaning**: text that can be read but does not make sense. -/
inductive SemanticFault where
  | notNumber (text : String)
  | notWhole (text : String)
  | unknownFunction (name : String)
  | unknownKind (text : String)
  | unknownMergeOperator (text : String)
  | unknownField (field : String) (kind : Kind)
  | missingField (field : String)
  /-- A field that was asked for is not there. -/
  | noField (kind : Kind) (field : String)
  /-- A field that was asked for is there in another shape. -/
  | otherShape (field expected : String)
  | zeroPeriod
  | zeroStepLevel
  | zeroCap
  | emptyRoll (die : String)
  | thresholdsNotAscending
  | slotLevelsNotAscending (label : String)
  | zeroFeatureLevel (feature : String)
  | undefinedReference (kind : Kind) (name : String)
  | unknownAbility (ability : String)
  | unknownSection (section_ : String)
  | repeatedSection (section_ : String)
  | unknownCasterGroup (group : String)
  | foreignCasterGroup (group owner : String)
  | unknownSchool (school : String)
  | repeatedLabel (label : String)
  | noCasterLevel
  | unlistedOverride (label : String)
  | missingEntry (placeholder field label : String)
  | unknownCategory (category : String)
  | notDamage (text : String)
  | negativeArmorClass
  | noAffectedAttribute
  | alreadyRegistered
  /-- Two rules of which neither may share a target with the other. -/
  | conflict (rule other owner : String)
  /-- A rule that would replace what others contribute. -/
  | override (rule other owner : String)
  /-- A rule that would contribute to what another one sets. -/
  | mixture (rule other owner : String)
  deriving DecidableEq, Repr

/-- **Hazards of aliasing**: a pattern that matches too much. -/
inductive AliasingFault where
  | matchesAnything (pattern probe : String)
  | matchesForeign (own probe : String)
  deriving DecidableEq, Repr

/-- The wording of a fault of form. -/
def StructuralFault.message : StructuralFault → String
  | unterminatedQuote => "unterminated quote in expression"
  | unterminatedAttributeQuote => "unterminated attribute quote in expression"
  | emptyAttributeName input => s!"empty attribute name in '{input}'"
  | invalidCapture digits input => s!"invalid capture '${digits}' in '{input}'"
  | invalidNumber literal input => s!"invalid number '{literal}' in '{input}'"
  | unexpectedCharacter c input =>
    s!"unexpected character '{c}' in '{input}'" ++ if c = '=' then " (use '==')" else ""
  | emptyExpression => "empty expression"
  | unexpectedToken token input => s!"unexpected {token} in '{input}'"
  | unexpectedEnd input => s!"unexpected end of '{input}'"
  | expectedClose input => s!"expected ')' in '{input}'"
  | expectedCommaOrClose input => s!"expected ',' or ')' in '{input}'"
  | argumentCount function expected got => s!"{function}() takes {expected} arguments, got {got}"
  | tokenWithoutEquals token => s!"token '{token}' has no '='"
  | emptyKey => "token has an empty key"
  | unterminatedValue field => s!"unterminated quote in field '{field}'"
  | repeatedField field => s!"field '{field}' appears more than once"
  | notSingle got => s!"expected a single value, got {got}"
  | valueCount shape expected got => s!"{shape} takes {expected} values, got {got}"
  | stepForm text => s!"step clause '{text}' is not of the form +N@L"
  | dieForm text => s!"'{text}' is not a die (expected NdS)"
  | casterLabelForm label => s!"'{label}' is not a caster group and level"
  | slotTableForm text => s!"spell slots '{text}' are not of the form <group><level>:<table>"
  | slotEntryForm entry => s!"slot entry '{entry}' has no '='"
  | namelessFeature entry => s!"feature entry '{entry}' has no name"
  | tooManyPlaceholders note => s!"too many placeholders in '{note}'"
  | unterminatedInterpolation note => "unterminated '%\x7b' in note " ++ s!"'{note}'"
  | emptyInterpolation note => s!"empty interpolation in note '{note}'"
  | emptyEquipmentName => "equipment name is empty"
  | emptyPattern => "pattern is empty"
  | invalidPattern => "invalid pattern"
  | effectWithoutAssignment effect => s!"effect '{effect}' has no assignment"
  | effectWithoutTarget effect => s!"effect '{effect}' has no target"
  | sectionCount sections notes => s!"{sections} sections but {notes} notes"
  | blankAttribute => "empty attribute name"

/-- The wording of a fault of meaning. -/
def SemanticFault.message : SemanticFault → String
  | notNumber text => s!"'{text}' is not a number"
  | notWhole text => s!"'{text}' is not a whole number"
  | unknownFunction name => s!"unknown function '{name}'"
  | unknownKind text => s!"unknown content kind '{text}'"
  | unknownMergeOperator text => s!"unknown merge operator '{text}'"
  | unknownField field kind => s!"unknown field '{field}' for {kind}"
  | missingField field => s!"missing required field '{field}'"
  | noField kind field => s!"{kind} has no field '{field}'"
  | otherShape field expected => s!"field '{field}' is not {expected}"
  | zeroPeriod => "period must be at least 1"
  | zeroStepLevel => "step level must be at least 1"
  | zeroCap => "hit die cap must be at least 1"
  | emptyRoll die => s!"die '{die}' rolls nothing"
  | thresholdsNotAscending => "experience thresholds must be strictly ascending"
  | slotLevelsNotAscending label => s!"spell slot levels for {label} must be strictly ascending"
  | zeroFeatureLevel feature => s!"feature '{feature}' has level 0"
  | undefinedReference kind name => s!"undefined {kind} '{name}'"
  | unknownAbility ability => s!"unknown ability '{ability}'"
  | unknownSection name => s!"unknown section '{name}'"
  | repeatedSection name => s!"section '{name}' is used twice"
  | unknownCasterGroup group => s!"unknown caster group '{group}'"
  | foreignCasterGroup group owner => s!"caster group '{group}' belongs to {owner}"
  | unknownSchool school => s!"unknown school '{school}'"
  | repeatedLabel label => s!"{label} is listed twice"
  | noCasterLevel => "spell has no caster level"
  | unlistedOverride label => s!"override for {label} but the spell is not listed at {label}"
  | missingEntry placeholder field label => s!"{placeholder} has no {field} entry for {label}"
  | unknownCategory category => s!"unknown category '{category}'"
  | notDamage text => s!"'{text}' is not a damage roll"
  | negativeArmorClass => "armor class bonus cannot be negative"
  | noAffectedAttribute => "goody affects no attribute"
  | alreadyRegistered => "record is already registered; use recompile"
  | conflict rule other owner => s!"'{rule}' conflicts with '{other}' from {owner}"
  | override rule other owner => s!"'{rule}' would override '{other}' from {owner}"
  | mixture rule other owner => s!"'{rule}' mixes with '{other}' from {owner}"

/-- The wording of an aliasing hazard. -/
def AliasingFault.message : AliasingFault → String
  | matchesAnything pattern probe => s!"pattern '{pattern}' matches '{probe}'"
  | matchesForeign own probe => s!"pattern for '{own}' also matches '{probe}'"

/-- **Why a record does not compile.** The fields are the ones the reader or
the compiler was at, the outermost first. -/
inductive CompileError where
  | structural (fault : StructuralFault)
  | semantic (fault : SemanticFault)
  | aliasing (fault : AliasingFault)
  | inField (field : String) (cause : CompileError)
  deriving DecidableEq, Repr

/-- The three categories of errors. -/
inductive ErrorCategory where
  | structural | semantic | aliasing
  deriving DecidableEq, Repr

/-- The name of a category in reports. -/
def ErrorCategory.name : ErrorCategory → String
  | structural => "structural"
  | semantic => "semantic"
  | aliasing => "aliasing"

/-- What messages of a category begin with. -/
def ErrorCategory.heading : ErrorCategory → String
  | structural => "Structural parse error: "
  | semantic => "Semantic validation error: "
  | aliasing => "Aliasing hazard: "

namespace CompileError

/-- **The category of an error**, which the field it is in does not change. -/
def category : CompileError → ErrorCategory
  | structural _ => .structural
  | semantic _ => .semantic
  | aliasing _ => .aliasing
  | inField _ cause => cause.category

/-- What is wrong, without the category. -/
def detail : CompileError → String
  | structural fault => fault.message
  | semantic fault => fault.message
  | aliasing fault => fault.message
  | inField field cause => s!"field '{field}': {cause.detail}"

/-- **The text of an error.** -/
def message (e : CompileError) : String := e.category.heading ++ e.detail

@[simp] theorem category_inField (field : String) (e : CompileError) :
    (inField field e).category = e.category := rfl

end CompileError

/-- A result of reading or compiling. -/
abbrev Compiled (α : Type) := Except CompileError α

/-- A failure for a fault of form. -/
def malformed {α : Type} (fault : StructuralFault) : Compiled α := .error (.structural fault)

/-- A failure for a fault of meaning. -/
def refused {α : Type} (fault : SemanticFault) : Compiled α := .error (.semantic fault)

/-- A failure for an aliasing hazard. -/
def hazardous {α : Type} (fault : AliasingFault) : Compiled α := .error (.aliasing fault)

/-- Says in which field a failure arose. -/
def Compiled.inField {α : Type} (field : String) (result : Compiled α) : Compiled α :=
  result.mapError (.inField field)

end Rulebook
