/-!
# Kinds of content

Content comes in ten kinds, and each has its own compiler. The host program
sets one *selection attribute* per kind when an item of it is chosen.
-/

namespace Rulebook

/-- **The kinds of content**, in the order in which reports list them. The first
are the classes of characters. -/
inductive Kind where
  | charClass | race | spell | weapon | armor | shield | skill | feature | language | goody
  deriving DecidableEq, Repr

namespace Kind

/-- All kinds, in order. -/
def all : List Kind :=
  [.charClass, .race, .spell, .weapon, .armor, .shield, .skill, .feature, .language, .goody]

theorem mem_all (k : Kind) : k ∈ all := by cases k <;> decide

/-- The name of a kind in content and messages. -/
def name : Kind → String
  | .charClass => "class"
  | .race => "race"
  | .spell => "spell"
  | .weapon => "weapon"
  | .armor => "armor"
  | .shield => "shield"
  | .skill => "skill"
  | .feature => "feature"
  | .language => "language"
  | .goody => "goody"

/-- The plural of the name. -/
def plural : Kind → String
  | .charClass => "classes"
  | .race => "races"
  | .spell => "spells"
  | .weapon => "weapons"
  | .armor => "armors"
  | .shield => "shields"
  | .skill => "skills"
  | .feature => "features"
  | .language => "languages"
  | .goody => "goodies"

/-- **The attribute that the host sets** when an item of the kind is chosen. -/
def selection : Kind → String
  | .charClass => "levels"
  | .race => "race"
  | .spell => "spells"
  | .weapon => "weapons"
  | .armor => "armor"
  | .shield => "shield"
  | .skill => "skills"
  | .feature => "features"
  | .language => "languages"
  | .goody => "goodies"

instance : ToString Kind := ⟨name⟩

end Kind

end Rulebook
