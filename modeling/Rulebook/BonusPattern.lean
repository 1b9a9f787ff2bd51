import Rulebook.Error
import Rulebook.Formula.Basic
import Rulebook.Regex.Matching
import Rulebook.Regex.Reader
import Rulebook.Text.LetterCase

/-!
# Patterns for bonuses

A character carries a list of goodies, one to a line. Bonuses of equipment are
found in it by patterns that ignore the case of basic Latin letters and look at
one line at a time. A pattern that also matches what belongs to another item
would credit a bonus twice, so patterns are checked before they are used.
-/

namespace Rulebook

/-- **A pattern for the list of goodies**, with the text that the host program
is given. -/
structure BonusPattern where
  text : String
  regex : Regex

namespace BonusPattern

/-- What every pattern begins with: ignore case, look at single lines. -/
def flagsText : String := "(?im)"

/-- A text as a pattern that matches just this text. -/
def escape (cs : List Char) : List Char :=
  cs.flatMap fun c => if Regex.isMeta c then ['\\', c] else [c]

/-- Blanks of basic Latin text. -/
def space : Regex := .chars .blanks

/-- A sign and digits, captured by a group. -/
def signedNumber (group : Nat) : Regex :=
  .group ⟨group, none⟩ <| .sequence
    [.chars (.ofChars ['-', '+']), .repetition 1 none (.chars .digits)]

/-- **A line of its own or a part in parentheses** that is a bonus and the name
of an item, in either order, with blanks between them. -/
def weaponRegex (name : List Char) : Regex :=
  let gap := Regex.repetition 1 none space
  let margin := Regex.repetition 0 none space
  let item := name.map Regex.eitherCase
  .sequence [
    .anyOf [.look .lineStart, .char '('],
    margin,
    .anyOf [
      .sequence (signedNumber 1 :: gap :: item),
      .sequence (item ++ [gap, signedNumber 2])],
    margin,
    .anyOf [.look .lineEnd, .char ')']]

/-- The text of the pattern for a weapon. -/
def weaponText (name : List Char) : String :=
  let name := String.ofList (escape name)
  flagsText ++ "(?:^|\\()\\s*(?:([-+]\\d+)\\s+" ++ name ++ "|" ++ name ++
    "\\s+([-+]\\d+))\\s*(?:$|\\))"

/-- **The pattern for the bonus of a weapon**: `+N name` or `name +N`. The
bonus is what one of the first two groups captures. -/
def weapon (name : String) : Compiled BonusPattern :=
  let name := (Text.lower (Text.trim name)).toList
  let regex := weaponRegex name
  if name = [] then malformed .emptyEquipmentName
  else if Regex.mostRoom < regex.wholeRoom then malformed .invalidPattern
  else .ok ⟨weaponText name, regex⟩

/-- A pattern without the group of flags that it begins with. -/
def dropFlags (cs : List Char) : List Char :=
  match cs with
  | '(' :: '?' :: rest =>
    match rest.takeWhile Char.isAlpha, rest.dropWhile Char.isAlpha with
    | _ :: _, ')' :: body => body
    | _, _ => cs
  | _ => cs

/-- **A pattern from a record**, to which the flags of all patterns apply in
place of its own. -/
def custom (text : String) : Compiled BonusPattern :=
  let cs := Text.trimChars text.toList
  if cs = [] then malformed .emptyPattern
  else
    let text := flagsText ++ String.ofList (dropFlags cs)
    match Regex.read text with
    | some regex => .ok ⟨text, regex⟩
    | none => malformed .invalidPattern

/-- Whether a pattern matches somewhere in a text. -/
def isMatch (p : BonusPattern) (text : String) : Bool := p.regex.isMatch text

/-- **The formula that asks for a match** in the source list and gives a value
for it. -/
def formula (p : BonusPattern) (value : Formula Float) : Formula Float :=
  .matching .source p.text value

/-- Texts that name no item. -/
def broadProbes : List String := ["", "x", "+1"]

/-- **Refuses a pattern that matches a text naming no item.** -/
def ensureSpecific (p : BonusPattern) : Compiled Unit :=
  match broadProbes.find? p.isMatch with
  | some probe => hazardous (.matchesAnything p.text probe)
  | none => .ok ()

/-- Texts that name an item, bare and with a bonus. -/
def itemProbes (name : String) : List String :=
  [name, "+1 " ++ name, "(" ++ name ++ " +1)", name ++ " +1"]

/-- **Refuses a pattern that matches a text naming another item.** Names that
differ only in case are one item. -/
def ensureDistinct (p : BonusPattern) (own other : String) : Compiled Unit :=
  if Text.sameIgnoringCase own other then .ok ()
  else
    match (itemProbes other).find? p.isMatch with
    | some probe => hazardous (.matchesForeign own probe)
    | none => .ok ()

end BonusPattern

end Rulebook
