/-!
# Blanks

Blank characters separate words in every text that people write for this
library: the Unicode characters with the property White_Space. The zero width
space is not among them.
-/

namespace Rulebook.Text

/-- **Whether a character is blank.** -/
def isBlank (c : Char) : Bool :=
  let n := c.toNat
  (0x9 ≤ n && n ≤ 0xd) || n = 0x20 || n = 0x85 || n = 0xa0 || n = 0x1680 ||
    (0x2000 ≤ n && n ≤ 0x200a) || n = 0x2028 || n = 0x2029 || n = 0x202f ||
    n = 0x205f || n = 0x3000

/-- A text without the blanks at its start. -/
def trimStart (cs : List Char) : List Char := cs.dropWhile isBlank

/-- A text without the blanks at its end. -/
def trimEnd (cs : List Char) : List Char := (trimStart cs.reverse).reverse

/-- A text without the blanks around it, as characters. -/
def trimChars (cs : List Char) : List Char := trimEnd (trimStart cs)

/-- **A text without the blanks around it.** -/
def trim (s : String) : String := String.ofList (trimChars s.toList)

end Rulebook.Text
