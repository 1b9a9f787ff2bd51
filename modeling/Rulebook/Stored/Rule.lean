import Rulebook.Content.Record
import Rulebook.Rule
import Rulebook.Stored.Formula

/-!
# Stored rules, notes and records

The stored forms of what compiling a record puts out. A rule without a formula
stores none.
-/

namespace Rulebook

/-- The stored form of an operator is its name. -/
def MergeOp.ofJson (j : Json) : Option MergeOp := j.name?.bind MergeOp.ofName?

/-- The kind of the given name. -/
def Kind.ofName? (s : String) : Option Kind := Kind.all.find? (·.name == s)

/-- The stored form of a kind is its name in the singular. -/
def Kind.ofJson (j : Json) : Option Kind := j.name?.bind Kind.ofName?

/-- **The stored form of a rule.** -/
def Rule.toJson (r : Rule) : Json :=
  .object ([("target", .string r.target), ("source", .string r.source),
      ("op", .string r.op.name)] ++
    match r.formula with
    | some f => [("formula", f.toJson)]
    | none => [])

/-- **Reads a stored rule** that may nest so deep. -/
def Rule.ofJson (levels : Nat) (j : Json) : Option Rule :=
  match j.members ["target", "source", "op", "formula"] 3 with
  | some [some target, some source, some op, formula] => do
    return {
      target := ← target.text?
      source := ← source.text?
      op := ← MergeOp.ofJson op
      formula := ← Json.optional? (Formula.ofJson (levels - 1)) formula }
  | _ => none

/-- The stored form of a note. -/
def Note.toJson (n : Note) : Json :=
  .object [("attribute", .string n.attr), ("section", .string n.sheetSection),
    ("format", .string n.format)]

/-- Reads a stored note. -/
def Note.ofJson (j : Json) : Option Note :=
  match j.members ["attribute", "section", "format"] 3 with
  | some [some attr, some sheetSection, some format] => do
    return ⟨← attr.text?, ← sheetSection.text?, ← format.text?⟩
  | _ => none

/-- The stored form of a record. -/
def Record.toJson (r : Record) : Json :=
  .object [("kind", .string r.kind.name), ("name", .string r.name), ("rawSpec", .string r.spec)]

/-- Reads a stored record. -/
def Record.ofJson (j : Json) : Option Record :=
  match j.members ["kind", "name", "rawSpec"] 3 with
  | some [some kind, some name, some spec] => do
    return ⟨← Kind.ofJson kind, ← name.text?, ← spec.text?⟩
  | _ => none

/-- The stored form of a key. -/
def Key.toJson (k : Key) : Json :=
  .object [("kind", .string k.kind.name), ("name", .string k.name)]

/-- Reads a stored key. -/
def Key.ofJson (j : Json) : Option Key :=
  match j.members ["kind", "name"] 2 with
  | some [some kind, some name] => do return ⟨← Kind.ofJson kind, ← name.text?⟩
  | _ => none

end Rulebook
