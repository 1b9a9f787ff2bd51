import Rulebook.Content.Record
import Rulebook.Rule

/-!
# The book of rules

What compiled records put out is gathered in a book with one chapter per record.
The compiler does not change the book itself but passes on *edits*, which the
book carries out in order; another host may do something else with them.
-/

namespace Rulebook

/-- **What can be done to a book.** -/
inductive Edit where
  /-- What follows belongs to a record. -/
  | begin (key : Key)
  | rule (rule : Rule)
  | note (note : Note)
  /-- Something that a player can choose. -/
  | choice (record : Record)
  /-- A section of the sheet; the same one may come more than once. -/
  | sheetSection (name : String)
  /-- Takes out all that belongs to a record. -/
  | retract (key : Key)

/-- **What one record put out.** -/
structure Chapter where
  /-- None for what comes before any record is begun. -/
  record : Option Key
  rules : List Rule
  notes : List Note
  choices : List Record

namespace Chapter

/-- A chapter with nothing in it. -/
def blank (record : Option Key) : Chapter := ⟨record, [], [], []⟩

/-- Whether a chapter belongs to a record. -/
def isOf (key : Key) (c : Chapter) : Bool := c.record == some key

/-- A chapter with one more rule. -/
def addRule (r : Rule) (c : Chapter) : Chapter := { c with rules := c.rules ++ [r] }

/-- A chapter with one more note. -/
def addNote (n : Note) (c : Chapter) : Chapter := { c with notes := c.notes ++ [n] }

/-- A chapter with one more choice. -/
def addChoice (r : Record) (c : Chapter) : Chapter := { c with choices := c.choices ++ [r] }

end Chapter

/-- **The book of rules.** -/
structure Book where
  /-- The sections of the sheet that notes need. -/
  sections : List String
  chapters : List Chapter
  /-- Where the book goes on: the position of a chapter. If there is none, what
  comes next opens a chapter without a record. -/
  current : Option Nat

namespace Book

/-- The book with nothing in it. -/
def empty : Book := ⟨[], [], none⟩

/-! ## Looking things up -/

/-- The chapter of a record. -/
def chapter? (b : Book) (key : Key) : Option Chapter := b.chapters.find? (·.isOf key)

/-- All rules, in the order of the chapters. -/
def rules (b : Book) : List Rule := b.chapters.flatMap Chapter.rules

/-- All notes, in the order of the chapters. -/
def notes (b : Book) : List Note := b.chapters.flatMap Chapter.notes

/-- The choices of a kind. -/
def choices (b : Book) (kind : Kind) : List Record :=
  (b.chapters.flatMap Chapter.choices).filter (·.kind == kind)

/-- **The rules that contribute to an attribute.** -/
def rulesFor (b : Book) (target : String) : List Rule := b.rules.filter (·.target == target)

/-- The first note on an attribute. -/
def noteFor? (b : Book) (attr : String) : Option Note := b.notes.find? (·.attr == attr)

/-! ## Editing -/

/-- **Changes the chapter in which the book goes on**, after opening one if
there is none. -/
def write (f : Chapter → Chapter) (b : Book) : Book :=
  match b.current with
  | some i => { b with chapters := b.chapters.modify i f }
  | none =>
    { b with chapters := b.chapters ++ [f (.blank none)], current := some b.chapters.length }

/-- Goes on in the first chapter of a record, which is opened if it is not
there. -/
def begin (key : Key) (b : Book) : Book :=
  match b.chapters.findIdx? (·.isOf key) with
  | some i => { b with current := some i }
  | none =>
    { b with
      chapters := b.chapters ++ [.blank (some key)]
      current := some b.chapters.length }

/-- Adds a section unless it is there. -/
def addSection (name : String) (b : Book) : Book :=
  if b.sections.contains name then b else { b with sections := b.sections ++ [name] }

/-- Takes out the chapters of a record. The others move up, so the book goes on
in none of them. -/
def retract (key : Key) (b : Book) : Book :=
  { b with chapters := b.chapters.filter (!·.isOf key), current := none }

/-- **Carries out an edit.** -/
def apply (b : Book) : Edit → Book
  | .begin key => b.begin key
  | .rule r => b.write (.addRule r)
  | .note n => b.write (.addNote n)
  | .choice r => b.write (.addChoice r)
  | .sheetSection name => b.addSection name
  | .retract key => b.retract key

/-- **Carries out edits in order.** -/
def applyAll (b : Book) (edits : List Edit) : Book := edits.foldl apply b

@[simp] theorem applyAll_nil (b : Book) : b.applyAll [] = b := rfl

@[simp] theorem applyAll_append (b : Book) (es fs : List Edit) :
    b.applyAll (es ++ fs) = (b.applyAll es).applyAll fs := List.foldl_append

end Book

end Rulebook
