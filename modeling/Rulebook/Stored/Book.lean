import Rulebook.Book
import Rulebook.Json.Reader
import Rulebook.Json.Writer
import Rulebook.Stored.Rule

/-!
# Stored books

A book is stored with its sections and chapters. Where it goes on is not: a book
that is read back goes on in no chapter.
-/

namespace Rulebook

/-- The stored form of a chapter. -/
def Chapter.toJson (c : Chapter) : Json :=
  .object [
    ("record", match c.record with
      | some key => key.toJson
      | none => .null),
    ("rules", .array (c.rules.map Rule.toJson)),
    ("notes", .array (c.notes.map Note.toJson)),
    ("choices", .array (c.choices.map Record.toJson))]

/-- Reads a stored chapter that may nest so deep. -/
def Chapter.ofJson (levels : Nat) (j : Json) : Option Chapter :=
  match j.members ["record", "rules", "notes", "choices"] 4 with
  | some [record, some rules, some notes, some choices] => do
    return {
      record := ← Json.optional? Key.ofJson record
      rules := ← (← rules.items?).mapM (Rule.ofJson (levels - 2))
      notes := ← (← notes.items?).mapM Note.ofJson
      choices := ← (← choices.items?).mapM Record.ofJson }
  | _ => none

namespace Book

/-- **The stored form of a book.** -/
def toJson (b : Book) : Json :=
  .object [
    ("sections", .array (b.sections.map .string)),
    ("groups", .array (b.chapters.map Chapter.toJson))]

/-- **Reads a stored book** that may nest so deep. -/
def ofJson (levels : Nat) (j : Json) : Option Book :=
  match j.members ["sections", "groups"] 2 with
  | some [some sections, some chapters] => do
    return {
      sections := ← sections.texts?
      chapters := ← (← chapters.items?).mapM (Chapter.ofJson (levels - 2))
      current := none }
  | _ => none

/-- Reads a book from a JSON text. -/
def read (text : String) : Option Book := (Json.read text).bind (ofJson Json.deepest)

/-- A book as JSON text. -/
def text (b : Book) : String := b.toJson.write

end Book

end Rulebook
