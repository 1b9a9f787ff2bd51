import Rulebook.Json.Writer

/-!
# JSON on several lines

The form of JSON for people, as `serde_json` writes it: every item and every field
on a line of its own, two blanks deeper than what it is part of. What is empty stays
on one line.
-/

namespace Rulebook.Json

/-- A new line at a depth of nesting. -/
def newLine (depth : Nat) : List Char := '\n' :: List.replicate (2 * depth) ' '

mutual

/-- **A value on several lines**, at a depth of nesting. -/
def indentedChars (depth : Nat) : Json → List Char
  | array [] => ['[', ']']
  | object [] => ['\x7b', '\x7d']
  | array items => '[' :: indentedItems (depth + 1) items ++ newLine depth ++ [']']
  | object fields => '\x7b' :: indentedFields (depth + 1) fields ++ newLine depth ++ ['\x7d']
  | j => chars j

/-- Items on lines of their own. -/
def indentedItems (depth : Nat) : List Json → List Char
  | [] => []
  | [j] => newLine depth ++ indentedChars depth j
  | j :: k :: rest =>
    newLine depth ++ indentedChars depth j ++ ',' :: indentedItems depth (k :: rest)

/-- Fields on lines of their own. -/
def indentedFields (depth : Nat) : List (String × Json) → List Char
  | [] => []
  | [(key, j)] => newLine depth ++ textChars key ++ ':' :: ' ' :: indentedChars depth j
  | (key, j) :: field :: rest =>
    newLine depth ++ textChars key ++ ':' :: ' ' :: indentedChars depth j ++
      ',' :: indentedFields depth (field :: rest)

end

/-- A value as JSON text on several lines. -/
def writeIndented (j : Json) : String := String.ofList (indentedChars 0 j)

end Rulebook.Json
