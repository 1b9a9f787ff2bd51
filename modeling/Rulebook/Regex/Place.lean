import Rulebook.Regex.CharSet

/-!
# Places in a text

Before, between and after the characters of a text are its places, one more than
there are characters. Conditions such as the start of a line or the end of a
word hold at a place or do not. They are those of `regex-lite`: the letters,
digits and the underscore of basic Latin make up words, and only the flag for it
lets a line end in a carriage return.
-/

namespace Rulebook

/-- Whether a character belongs to a word of basic Latin text. -/
def isWordChar (c : Char) : Bool := CharSet.wordChars.contains c

/-- **A place in a text**: the character before it and the ones after it. -/
structure Place where
  previous : Option Char
  rest : List Char
  deriving DecidableEq, Repr

namespace Place

/-- The character after a place. -/
def next (p : Place) : Option Char := p.rest.head?

/-- All places from the one before the given characters on. -/
def allFrom : Option Char → List Char → List Place
  | previous, [] => [⟨previous, []⟩]
  | previous, c :: cs => ⟨previous, c :: cs⟩ :: allFrom (some c) cs

/-- **All places of a text**, in order. -/
def all (cs : List Char) : List Place := allFrom none cs

/-- Whether the character before is one of a word. -/
def afterWord (p : Place) : Bool := p.previous.any isWordChar

/-- Whether the character after is one of a word. -/
def beforeWord (p : Place) : Bool := p.next.any isWordChar

end Place

/-- **A condition on a place.** -/
inductive Look where
  | textStart | textEnd | lineStart | lineEnd
  /-- Line ends may be two characters, with no line end between them. -/
  | returnLineStart | returnLineEnd
  | boundary | noBoundary | wordStart | wordEnd
  /-- No word character before. -/
  | wordStartHalf
  /-- No word character after. -/
  | wordEndHalf
  deriving DecidableEq, Repr

/-- **Whether a condition holds at a place.** -/
def Look.holds (l : Look) (p : Place) : Bool :=
  match l with
  | textStart => p.previous.isNone
  | textEnd => p.rest.isEmpty
  | lineStart => p.previous.isNone || p.previous == some '\n'
  | lineEnd => p.rest.isEmpty || p.next == some '\n'
  | returnLineStart =>
    p.previous.isNone || p.previous == some '\n' ||
      (p.previous == some '\r' && p.next != some '\n')
  | returnLineEnd =>
    p.rest.isEmpty || p.next == some '\r' ||
      (p.next == some '\n' && p.previous != some '\r')
  | boundary => p.afterWord != p.beforeWord
  | noBoundary => p.afterWord == p.beforeWord
  | wordStart => !p.afterWord && p.beforeWord
  | wordEnd => p.afterWord && !p.beforeWord
  | wordStartHalf => !p.afterWord
  | wordEndHalf => !p.beforeWord

end Rulebook
