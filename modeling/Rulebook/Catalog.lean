import Rulebook.Content.Record
import Rulebook.Text.Sorted

/-!
# The catalog

The keys of all records in the stream of content. Records refer to others by
name, and the catalog says which names there are.
-/

namespace Rulebook

/-- **The keys of all known records**, each once. -/
structure Catalog where
  keys : List Key

namespace Catalog

/-- The catalog of no records. -/
def empty : Catalog := ⟨[]⟩

/-- Whether there is a record of a kind and a name. -/
def contains (c : Catalog) (key : Key) : Bool := c.keys.contains key

/-- Adds a key unless it is there. -/
def insert (c : Catalog) (key : Key) : Catalog :=
  if c.contains key then c else ⟨c.keys ++ [key]⟩

/-- The catalog of some records. -/
def ofRecords (records : List Record) : Catalog :=
  records.foldl (fun c r => c.insert r.key) empty

/-- **The names of a kind in ascending order.** -/
def names (c : Catalog) (kind : Kind) : List String :=
  Text.sortOn id ((c.keys.filter (·.kind == kind)).map Key.name)

/-- **Refuses a reference to a record that there is not.** -/
def require (c : Catalog) (kind : Kind) (name : String) : Compiled Unit :=
  if c.contains ⟨kind, name⟩ then .ok () else refused (.undefinedReference kind name)

@[simp] theorem contains_insert (c : Catalog) (key other : Key) :
    (c.insert key).contains other = (other == key || c.contains other) := by
  unfold insert
  split
  · by_cases h : other = key <;> simp_all
  · by_cases h : other = key <;> simp [contains, h]

end Catalog

end Rulebook
