import Rulebook.Content.Field
import Rulebook.Content.Specification

/-!
# Field tables

Reading a specification against the schema of a kind gives a table of typed
fields. All fields are known to the schema, none is there twice, each has the
shape that the schema says, and none that is required is missing.

Fields are looked up by name and shape. A missing list counts as empty; of the
other fields some may be missing and some may not, which the one who asks has
to say.
-/

namespace Rulebook

/-- **The fields of a record**, in the order of the text. -/
structure FieldTable where
  kind : Kind
  fields : List (String × FieldValue)

namespace FieldTable

/-- The factor for experience when the settings do not give one. -/
def defaultMultiplier : Float := Quantity.ofNat 1000

/-- The value of a field. -/
def get? (t : FieldTable) (name : String) : Option FieldValue := t.fields.lookup name

/-- Whether some fields have one of the given name. -/
def hasField (fields : List (String × FieldValue)) (name : String) : Bool :=
  fields.any (·.1 == name)

/-- **Reads one field** after those before it. -/
def readField (kind : Kind) (multiplier : Float) (before : List (String × FieldValue))
    (raw : RawField) : Compiled (List (String × FieldValue)) :=
  match (schema kind).find? (·.name == raw.name) with
  | none => refused (.unknownField raw.name kind)
  | some spec =>
    if hasField before spec.name then malformed (.repeatedField spec.name)
    else do
      let content ← (spec.shape.read multiplier raw.values).inField spec.name
      return before ++ [(spec.name, ⟨spec.shape, content⟩)]

/-- **The table of some fields**, once all that are required are there. -/
def ofFields (kind : Kind) (multiplier : Float) (raws : List RawField) :
    Compiled FieldTable := do
  let fields ← raws.foldlM (readField kind multiplier) []
  match (schema kind).find? fun spec => spec.required && !hasField fields spec.name with
  | some spec => refused (.missingField spec.name)
  | none => return ⟨kind, fields⟩

/-- **Reads the specification of a record of a kind.** -/
def read (kind : Kind) (multiplier : Float) (spec : String) : Compiled FieldTable := do
  let raws ← Specification.fields spec
  ofFields kind multiplier raws

/-- **A field of a shape**, or none if it is not there. -/
def optional (t : FieldTable) (s : Shape) (name : String) : Compiled (Option s.Content) :=
  match t.get? name with
  | none => .ok none
  | some v => match v.as? s with
    | some content => .ok (some content)
    | none => refused (.otherShape name s.describe)

/-- **A field of a shape that has to be there.** -/
def require (t : FieldTable) (s : Shape) (name : String) : Compiled s.Content :=
  match t.optional s name with
  | .error e => .error e
  | .ok none => refused (.noField t.kind name)
  | .ok (some content) => .ok content

/-- A text that has to be there. -/
def text (t : FieldTable) (name : String) : Compiled String := t.require .text name

/-- A number that has to be there. -/
def number (t : FieldTable) (name : String) : Compiled Float := t.require .number name

/-- A list; empty if it is not there. -/
def list (t : FieldTable) (name : String) : Compiled (List String) :=
  (t.optional .list name).map (·.getD [])

/-- Leveled features; none if they are not there. -/
def leveled (t : FieldTable) (name : String) : Compiled (List LeveledFeature) :=
  (t.optional .leveled name).map (·.getD [])

/-- Spell slot tables; none if they are not there. -/
def spellSlots (t : FieldTable) (name : String) : Compiled (List SpellSlotTable) :=
  (t.optional .spellSlots name).map (·.getD [])

end FieldTable

end Rulebook
