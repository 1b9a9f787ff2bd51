import Rulebook.Error
import Rulebook.Text.Blank

/-!
# Specifications

The specification of a record is a list of fields `name=values` with blanks
between them. Commas separate values; a part between double quotes keeps its
blanks and commas. What follows the equals sign immediately may be nothing at
all, and then the field has no values.
-/

namespace Rulebook

/-- **A field as it was written.** -/
structure RawField where
  name : String
  values : List String
  deriving DecidableEq, Repr

namespace Specification

/-- The state of reading the values of one field. -/
structure ValueState where
  /-- The values that are complete, the last one first. -/
  finished : List (List Char)
  /-- The value being read, its last character first. -/
  current : List Char
  /-- Whether anything at all has been read. -/
  touched : Bool
  /-- Whether a quote is open. -/
  quoted : Bool

/-- The state before anything is read. -/
def ValueState.start : ValueState := ⟨[], [], false, false⟩

/-- **What one character does**: a quote opens or closes a quoted part, a comma
outside one ends a value, and all else belongs to the value. -/
def ValueState.step (s : ValueState) (c : Char) : ValueState :=
  if c = '"' then { s with quoted := !s.quoted, touched := true }
  else if c = ',' && !s.quoted then
    { s with finished := s.current.reverse :: s.finished, current := [], touched := true }
  else { s with current := c :: s.current, touched := true }

/-- The values that were read. -/
def ValueState.values (s : ValueState) : List String :=
  let finished := if s.touched then s.current.reverse :: s.finished else s.finished
  finished.reverse.map String.ofList

/-- **Reads the values of a field** up to a blank outside quotes, and gives the
state there and what follows. -/
def readValues (s : ValueState) : List Char → ValueState × List Char
  | [] => (s, [])
  | c :: cs =>
    if Text.isBlank c && !s.quoted then (s, c :: cs) else readValues (s.step c) cs

/-- **Reads the name of a field** up to its equals sign, which is left out. At
a blank or at the end there is no equals sign. -/
def readName : List Char → List Char × Option (List Char)
  | [] => ([], none)
  | c :: cs =>
    if Text.isBlank c then ([], none)
    else if c = '=' then ([], some cs)
    else
      let (name, rest) := readName cs
      (c :: name, rest)

theorem length_readValues_le (s : ValueState) (cs : List Char) :
    (readValues s cs).2.length ≤ cs.length := by
  fun_induction readValues s cs <;> grind

theorem length_of_readName {cs name rest : List Char} (h : readName cs = (name, some rest)) :
    rest.length < cs.length := by
  fun_induction readName cs generalizing name <;> grind

/-- Reads fields, given as characters. -/
def fieldsOfChars : List Char → Compiled (List RawField)
  | [] => .ok []
  | c :: cs =>
    if Text.isBlank c then fieldsOfChars cs
    else
      match _h : readName (c :: cs) with
      | (name, none) => malformed (.tokenWithoutEquals (String.ofList name))
      | ([], some _) => malformed .emptyKey
      | (name, some rest) =>
        let name := String.ofList name
        let state := (readValues .start rest).1
        if state.quoted then malformed (.unterminatedValue name)
        else (fieldsOfChars (readValues .start rest).2).map (⟨name, state.values⟩ :: ·)
  termination_by cs => cs.length
  decreasing_by
    · simp
    · have := length_of_readName _h
      have := length_readValues_le .start rest
      omega

/-- **The fields of a specification**, in order. -/
def fields (spec : String) : Compiled (List RawField) := fieldsOfChars spec.toList

end Specification

end Rulebook
