import Rulebook.Text.LetterCase
import Rulebook.Text.Letters

/-!
# Attribute names

Attributes that belong to a record carry a name made from the record's: its
words run together, the first beginning in lower case and the others in upper
case. `Magic-User` becomes `magicUser`.
-/

namespace Rulebook

/-- **The words of a name**: its longest runs of letters and numbers. -/
def wordsOf : List Char → List (List Char)
  | [] => []
  | c :: cs =>
    if Text.isAlphanumeric c then
      match cs, wordsOf cs with
      | d :: _, word :: words =>
        if Text.isAlphanumeric d then (c :: word) :: words else [c] :: word :: words
      | _, words => [c] :: words
    else wordsOf cs

/-- A word with another form of its first letter. -/
def recase (form : Char → List Char) : List Char → List Char
  | [] => []
  | c :: cs => form c ++ cs

/-- **The attribute name made from a record's name.** -/
def attributePrefix (name : String) : String :=
  String.ofList <|
    match wordsOf name.toList with
    | [] => []
    | word :: words => recase Text.lowerChar word ++ words.flatMap (recase Text.upperChar)

/-- **The attribute of a member of a group**, such as `levels.Fighter`. -/
def member (group name : String) : String := group ++ "." ++ name

end Rulebook
