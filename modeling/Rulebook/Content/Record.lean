import Rulebook.Error
import Rulebook.Text.Blank
import Rulebook.Text.LetterCase

/-!
# Content records

A record is one named item of content with its specification as text. Names are
unique within a kind, so kind and name together are the *key* of a record.
-/

namespace Rulebook

/-- **Reads a kind**, in the singular or the plural and in any letter case. -/
def Kind.read (text : String) : Compiled Kind :=
  let word := Text.lowerBasic (Text.trim text)
  match Kind.all.find? fun k => k.name == word || k.plural == word with
  | some k => .ok k
  | none => refused (.unknownKind text)

/-- **The key of a record.** -/
structure Key where
  kind : Kind
  name : String
  deriving DecidableEq, Repr

namespace Key

/-- How messages and logs name a record. -/
def render (k : Key) : String := s!"{k.kind} '{k.name}'"

instance : ToString Key := ⟨render⟩

end Key

/-- **A content record**: a named item with its specification. -/
structure Record where
  kind : Kind
  name : String
  /-- The specification as it was written. -/
  spec : String
  deriving DecidableEq, Repr

/-- The key of a record. -/
def Record.key (r : Record) : Key := ⟨r.kind, r.name⟩

/-- **A failure together with the record it belongs to.** -/
structure RecordError where
  key : Key
  cause : CompileError
  deriving DecidableEq, Repr

/-- The text of a failure. -/
def RecordError.message (e : RecordError) : String := s!"{e.key}: {e.cause.message}"

end Rulebook
