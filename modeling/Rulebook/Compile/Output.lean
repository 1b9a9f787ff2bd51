import Rulebook.Catalog
import Rulebook.Rule
import Rulebook.Settings

/-!
# What compiling a record puts out

A record compiles in full before anything of it is passed on. Its output is
made of rules, notes and choices in order. The sections it needs are those that
its notes are shown in.
-/

namespace Rulebook

/-- **What the compilers can see** besides the record itself. -/
structure Context where
  settings : Settings
  catalog : Catalog

/-- **The output of a record.** -/
structure Output where
  rules : List Rule
  notes : List Note
  /-- What the host program can let a player choose. -/
  choices : List Record

namespace Output

/-- No output. -/
def empty : Output := ⟨[], [], []⟩

instance : Append Output :=
  ⟨fun a b => ⟨a.rules ++ b.rules, a.notes ++ b.notes, a.choices ++ b.choices⟩⟩

/-- Nothing but rules. -/
def ofRules (rules : List Rule) : Output := ⟨rules, [], []⟩

/-- One note. -/
def ofNote (attr sheetSection format : String) : Output := ⟨[], [⟨attr, sheetSection, format⟩], []⟩

/-- One choice. -/
def ofChoice (kind : Kind) (name spec : String) : Output := ⟨[], [], [⟨kind, name, spec⟩]⟩

/-- All of some outputs, in order. -/
def concat (outputs : List Output) : Output := outputs.foldl (· ++ ·) empty

/-- **The sections that the notes are shown in**, each once, in the order in
which they are first needed. -/
def sections (o : Output) : List String :=
  o.notes.foldl (fun names n =>
    if names.contains n.sheetSection then names else names ++ [n.sheetSection]) []

@[simp] theorem rules_append (a b : Output) : (a ++ b).rules = a.rules ++ b.rules := rfl
@[simp] theorem notes_append (a b : Output) : (a ++ b).notes = a.notes ++ b.notes := rfl
@[simp] theorem choices_append (a b : Output) : (a ++ b).choices = a.choices ++ b.choices := rfl

end Output

end Rulebook
